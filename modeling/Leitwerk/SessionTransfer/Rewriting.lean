import Leitwerk.Lib.Results
import Leitwerk.SessionTransfer.SessionFile
/-!
# What is rewritten is a valid session

The checks of `rewritePiSession` pass on the valid headers and entries and on
no others, and the lines it writes parse to what it wrote. A text whose first
line is blank it refuses, valid or not.
-/

namespace Leitwerk.SessionTransfer.SessionFile

open JsString (lit trim digits)
open JsonSyntax
open OwnKeys (ordered)
open Results (bind_eq_ok ok_of_bind)

variable {ν : Type}

/-! ## Lines -/

theorem trim_eq_nil {s : JsString} : JsString.trim s = [] ↔ ∀ u ∈ s, JsString.isSpace u := by
  unfold JsString.trim
  rw [List.rdropWhile_eq_nil_iff]
  constructor
  · intro h
    by_contra hne
    push Not at hne
    obtain ⟨u, hu, hspace⟩ := hne
    have hdrop : s.dropWhile JsString.isSpace ≠ [] := by
      rw [Ne, List.dropWhile_eq_nil_iff]
      exact fun hall => hspace (hall u hu)
    have hhead := List.head_dropWhile_not JsString.isSpace hdrop
    rw [h _ (List.head_mem hdrop)] at hhead
    cases hhead
  · exact fun h u hu => h u ((List.dropWhile_sublist _).subset hu)

/-- A blank line is no JSON. -/
theorem jsonParse_blank (numbers : Numbers ν) {s : JsString} (h : JsString.trim s = []) : jsonParse numbers s = none := by
  rw [jsonParse, parse_space]
  · rfl
  · intro u hu
    exact trim_eq_nil.1 h u ((List.dropWhile_sublist _).subset (List.mem_of_mem_head? hu))

/-- Lines that no value continues. -/
def Plain (line : JsString) : Prop := ∀ u ∈ line, 0x20 ≤ u.toNat

theorem stripCarriageReturn_plain {line : JsString} (h : Plain line) : stripCarriageReturn line = line := by
  unfold stripCarriageReturn
  rw [if_neg]
  intro hlast
  exact absurd (h _ (List.mem_of_getLast? hlast)) (by decide)

theorem physicalLines_join {lines : List JsString} (hne : lines ≠ []) (h : ∀ line ∈ lines, Plain line) :
    physicalLines (Lines.join newline lines ++ [newline]) = lines ++ [[]] := by
  have hsplit : Lines.split newline (Lines.join newline lines ++ [newline]) = lines ++ [[]] := by
    rw [Lines.split_append_nl, Lines.split_join newline hne]
    · rfl
    · intro line hline hmem
      exact absurd (h line hline _ hmem) (by decide)
  have hstrip : lines.map stripCarriageReturn = lines := by
    conv_rhs => rw [← List.map_id lines]
    exact List.map_congr_left fun line hline => stripCarriageReturn_plain (h line hline)
  rw [physicalLines, hsplit, List.dropLast_concat, hstrip, List.getLast?_concat]
  rfl

variable (numbers : Numbers ν)

theorem stringify_plain (fields : Fields ν) : Plain (stringify numbers (.obj fields)) := fun _ hu => print_units numbers hu

theorem stringify_ne_blank (fields : Fields ν) : JsString.trim (stringify numbers (.obj fields)) ≠ [] := by
  obtain ⟨rest, htext⟩ := stringify_obj numbers fields
  rw [htext, Ne, trim_eq_nil]
  intro h
  exact absurd (h 0x7b List.mem_cons_self) (by decide)

theorem physicalLines_sessionText {entries : List (Fields ν)} (hne : entries ≠ []) :
    physicalLines (sessionText numbers entries) = entries.map (fun fields => stringify numbers (.obj fields)) ++ [[]] := by
  apply physicalLines_join
  · simpa using hne
  · intro line hline
    obtain ⟨fields, -, rfl⟩ := List.mem_map.1 hline
    exact stringify_plain numbers fields

theorem sessionLines_sessionText {entries : List (Fields ν)} (hne : entries ≠ []) :
    sessionLines (sessionText numbers entries) = entries.map fun fields => stringify numbers (.obj fields) := by
  have hkeep : (entries.map fun fields => stringify numbers (.obj fields)).filter (fun line => JsString.trim line ≠ []) =
      entries.map fun fields => stringify numbers (.obj fields) := by
    rw [List.filter_eq_self]
    intro line hline
    obtain ⟨fields, -, rfl⟩ := List.mem_map.1 hline
    simpa using stringify_ne_blank numbers fields
  rw [sessionLines, physicalLines_sessionText numbers hne, List.filter_append, hkeep]
  rw [List.filter_cons_of_neg (by decide), List.filter_nil, List.append_nil]

theorem physicalLines_ne_nil (content : JsString) : physicalLines content ≠ [] := by
  obtain ⟨A, q, hsplit⟩ := Lines.split_concat newline content
  rw [physicalLines, hsplit, List.getLast?_concat]
  simp

/-- The first line, where it is not blank, is the first that is parsed. -/
theorem sessionLines_cons {content : JsString} (h : JsString.trim ((physicalLines content).headD []) ≠ []) :
    ∃ others, sessionLines content = (physicalLines content).headD [] :: others := by
  obtain ⟨first, others, hlines⟩ := List.exists_cons_of_ne_nil (physicalLines_ne_nil content)
  rw [hlines] at h ⊢
  rw [sessionLines, hlines, List.filter_cons_of_pos (by simpa using h)]
  exact ⟨_, rfl⟩

theorem physicalLines_newline (content : JsString) : physicalLines (newline :: content) = [] :: physicalLines content := by
  obtain ⟨first, others, hsplit⟩ := Lines.split_cons newline content
  rw [physicalLines, physicalLines, Lines.split, if_pos rfl, hsplit]
  rfl

/-! ## Checks -/

@[simp] theorem fail_ne_ok {α : Type} {message : JsString} {a : α} : ¬ fail message = .ok a := by
  intro h
  cases h

theorem string_eq_ok {fields : Fields ν} {key : String} {label s : JsString} :
    string fields key label = .ok s ↔ textField fields key = some s ∧ JsString.trim s ≠ [] := by
  unfold string
  cases textField fields key with
  | none => simp
  | some t =>
    by_cases ht : JsString.trim t = []
    · simp only [ht, if_true, fail_ne_ok, Option.some.injEq, false_iff, not_and, not_not]
      rintro rfl
      exact ht
    · simp only [ht, if_false, Except.ok.injEq, Option.some.injEq]
      exact ⟨fun h => ⟨h, h ▸ ht⟩, fun h => h.1⟩

theorem object_eq_ok {tree : JsonTree ν} {label : JsString} {fields : Fields ν} :
    object tree label = .ok fields ↔ tree = .obj fields := by
  cases tree <;> simp [object]

theorem parseLine_eq_ok {index : ℕ} {line : JsString} {fields : Fields ν} :
    parseLine numbers index line = .ok fields ↔ jsonParse numbers line = some (.obj fields) := by
  unfold parseLine
  cases jsonParse numbers line with
  | none => simp
  | some tree => simp [object_eq_ok]

theorem parseLines_eq_ok {lines : List JsString} {entries : List (Fields ν)} (index : ℕ) :
    parseLines numbers index lines = .ok entries ↔ lines.map (jsonParse numbers) = entries.map fun fields => some (.obj fields) := by
  induction lines generalizing entries index with
  | nil => cases entries <;> simp [parseLines]
  | cons line lines ih =>
    have hstep : parseLines numbers index (line :: lines) = .ok entries ↔
        ∃ entry, jsonParse numbers line = some (.obj entry) ∧ ∃ others,
          parseLines numbers (index + 1) lines = .ok others ∧ entry :: others = entries := by
      refine bind_eq_ok.trans (exists_congr fun entry => and_congr (parseLine_eq_ok numbers) (bind_eq_ok.trans ?_))
      exact exists_congr fun others => and_congr_right fun _ => by simp [pure, Except.pure]
    rw [hstep]
    cases entries with
    | nil => simp
    | cons entry entries =>
      rw [List.map_cons, List.map_cons, List.cons.injEq, ← ih (index + 1)]
      constructor
      · rintro ⟨_, hentry, _, hothers, heq⟩
        obtain ⟨rfl, rfl⟩ := List.cons.inj heq
        exact ⟨hentry, hothers⟩
      · rintro ⟨hentry, hothers⟩
        exact ⟨entry, hentry, entries, hothers, rfl⟩

section Checks

variable [DecidableEq ν] (host : Host)

theorem isVersion3_iff {fields : Fields ν} :
    isVersion3 numbers fields = true ↔ getField fields (lit "version") = some (.num (numbers.read (lit "3"))) := by
  unfold isVersion3
  split
  · rename_i x hx
    simp [hx]
  · rename_i hnone
    simp only [Bool.false_eq_true, false_iff]
    exact hnone _

theorem checkHeader_eq_ok {header : Fields ν} (htype : textField header "type" = some (lit "session")) :
    checkHeader numbers host header none = .ok () ↔ ValidHeader numbers host header := by
  unfold checkHeader
  constructor
  · intro h
    split at h
    · cases h
    · rename_i hversion
      obtain ⟨id, hid, h⟩ := ok_of_bind h
      obtain ⟨cwd, hcwd, h⟩ := ok_of_bind h
      split at h
      · cases h
      · rename_i habsolute
        simp only [Option.any_none, Bool.false_eq_true, if_false] at h
        obtain ⟨timestamp, htimestamp, h⟩ := ok_of_bind h
        split at h
        · cases h
        · rename_i hdate
          simp only [Bool.or_eq_true, Bool.not_eq_true', not_or, Bool.not_eq_false] at hdate habsolute hversion
          obtain ⟨hcwd, hcwd'⟩ := string_eq_ok.1 hcwd
          obtain ⟨htimestamp, htimestamp'⟩ := string_eq_ok.1 htimestamp
          exact ⟨htype, (isVersion3_iff numbers).1 hversion, ⟨id, string_eq_ok.1 hid⟩, ⟨cwd, hcwd, hcwd', habsolute⟩,
            ⟨timestamp, htimestamp, htimestamp', hdate.1, hdate.2⟩⟩
  · rintro ⟨-, hversion, ⟨id, hid⟩, ⟨cwd, hcwd, hcwd', habsolute⟩, ⟨timestamp, htimestamp, htimestamp', hiso, hdate⟩⟩
    rw [(isVersion3_iff numbers).2 hversion, string_eq_ok.2 hid, string_eq_ok.2 ⟨hcwd, hcwd'⟩,
      string_eq_ok.2 ⟨htimestamp, htimestamp'⟩]
    simp [bind, Except.bind, habsolute, hiso, hdate]

end Checks

theorem hasParent_iff {ids : List JsString} {entry : Fields ν} :
    hasParent ids entry = true ↔ getField entry (lit "parentId") = some .null ∨
      ∃ parentId, textField entry "parentId" = some parentId ∧ parentId ∈ ids := by
  unfold hasParent textField
  cases getField entry (lit "parentId") with
  | none => simp
  | some tree => cases tree <;> simp

/-- The first entry is checked against those before, and is before the others. -/
theorem validEntries_cons {earlier : List JsString} {e : Fields ν} {entries : List (Fields ν)} :
    ValidEntries earlier (e :: entries) ↔
      (∃ type, textField e "type" = some type ∧ JsString.trim type ≠ [] ∧ type ≠ lit "session") ∧
        ∃ id, textField e "id" = some id ∧ JsString.trim id ≠ [] ∧ id ∉ earlier ∧ hasParent earlier e = true ∧
          ValidEntries (id :: earlier) entries := by
  constructor
  · rintro ⟨htyped, hnamed, hunique, hparents⟩
    obtain ⟨id, hid, hblank, hnew⟩ := hnamed e List.mem_cons_self
    obtain ⟨hdiffers, hunique⟩ := List.pairwise_cons.1 hunique
    refine ⟨htyped e List.mem_cons_self, id, hid, hblank, hnew, ?_, ?_⟩
    · refine hasParent_iff.2 ((hparents 0 e rfl).imp_right ?_)
      rintro ⟨parentId, hparent, hmem | ⟨j, hj, -⟩⟩
      · exact ⟨parentId, hparent, hmem⟩
      · exact absurd hj (Nat.not_lt_zero j)
    · refine ⟨fun e' he' => htyped e' (List.mem_cons_of_mem _ he'), fun e' he' => ?_, hunique, fun i e' he' => ?_⟩
      · obtain ⟨id', hid', hblank', hnew'⟩ := hnamed e' (List.mem_cons_of_mem _ he')
        refine ⟨id', hid', hblank', fun hmem => ?_⟩
        rcases List.mem_cons.1 hmem with rfl | hmem
        · exact hdiffers e' he' (hid.trans hid'.symm)
        · exact hnew' hmem
      · refine (hparents (i + 1) e' he').imp_right ?_
        rintro ⟨parentId, hparent, hmem | ⟨j, hj, e₀, he₀, hid₀⟩⟩
        · exact ⟨parentId, hparent, .inl (List.mem_cons_of_mem _ hmem)⟩
        · cases j with
          | zero =>
            obtain rfl : e = e₀ := by simpa using he₀
            obtain rfl : id = parentId := Option.some.inj (hid.symm.trans hid₀)
            exact ⟨id, hparent, .inl List.mem_cons_self⟩
          | succ j => exact ⟨parentId, hparent, .inr ⟨j, Nat.lt_of_succ_lt_succ hj, e₀, by simpa using he₀, hid₀⟩⟩
  · rintro ⟨htype, id, hid, hblank, hnew, hparent, htyped, hnamed, hunique, hparents⟩
    refine ⟨?_, ?_, ?_, ?_⟩
    · intro e' he'
      rcases List.mem_cons.1 he' with rfl | he'
      · exact htype
      · exact htyped e' he'
    · intro e' he'
      rcases List.mem_cons.1 he' with rfl | he'
      · exact ⟨id, hid, hblank, hnew⟩
      · obtain ⟨id', hid', hblank', hnew'⟩ := hnamed e' he'
        exact ⟨id', hid', hblank', fun hmem => hnew' (List.mem_cons_of_mem _ hmem)⟩
    · refine List.pairwise_cons.2 ⟨fun e' he' heq => ?_, hunique⟩
      obtain ⟨id', hid', -, hnew'⟩ := hnamed e' he'
      obtain rfl : id = id' := Option.some.inj (hid.symm.trans (heq.trans hid'))
      exact hnew' List.mem_cons_self
    · intro i e' he'
      cases i with
      | zero =>
        obtain rfl : e = e' := by simpa using he'
        refine (hasParent_iff.1 hparent).imp_right ?_
        rintro ⟨parentId, hparent, hmem⟩
        exact ⟨parentId, hparent, .inl hmem⟩
      | succ i =>
        refine (hparents i e' (by simpa using he')).imp_right ?_
        rintro ⟨parentId, hparent, hmem | ⟨j, hj, e₀, he₀, hid₀⟩⟩
        · rcases List.mem_cons.1 hmem with rfl | hmem
          · exact ⟨parentId, hparent, .inr ⟨0, Nat.succ_pos i, e, rfl, hid⟩⟩
          · exact ⟨parentId, hparent, .inl hmem⟩
        · exact ⟨parentId, hparent, .inr ⟨j + 1, Nat.succ_lt_succ hj, e₀, he₀, hid₀⟩⟩

theorem checkEntries_eq_ok {index : ℕ} {earlier : List JsString} {entries : List (Fields ν)} :
    checkEntries index earlier entries = .ok () ↔ ValidEntries earlier entries := by
  induction entries generalizing index earlier with
  | nil => exact ⟨fun _ => ⟨by simp, by simp, by simp, by simp⟩, fun _ => rfl⟩
  | cons e entries ih =>
    rw [validEntries_cons]
    constructor
    · intro h
      rw [checkEntries] at h
      split at h
      · cases h
      · rename_i hheader
        obtain ⟨type, htype, h⟩ := ok_of_bind h
        obtain ⟨id, hid, h⟩ := ok_of_bind h
        obtain ⟨htype, htype'⟩ := string_eq_ok.1 htype
        obtain ⟨hid, hid'⟩ := string_eq_ok.1 hid
        split at h
        · cases h
        · rename_i hnew
          split at h
          · cases h
          · rename_i hparent
            refine ⟨⟨type, htype, htype', ?_⟩, id, hid, hid', hnew, by simpa using hparent, ih.1 h⟩
            rintro rfl
            exact hheader htype
    · rintro ⟨⟨type, htype, htype', hheader⟩, id, hid, hid', hnew, hparent, h⟩
      have hrest : checkEntries (index + 1) (id :: earlier) entries = .ok () := ih.2 h
      rw [checkEntries, if_neg (by rw [htype]; simpa using hheader), string_eq_ok.2 ⟨htype, htype'⟩, string_eq_ok.2 ⟨hid, hid'⟩]
      simp [bind, Except.bind, hnew, hparent, hrest]

theorem parsePiSessionHeader_eq_ok {content : JsString} {header : Fields ν} :
    parsePiSessionHeader numbers content = .ok header ↔
      jsonParse numbers ((physicalLines content).headD []) = some (.obj header) ∧ textField header "type" = some (lit "session") := by
  unfold parsePiSessionHeader
  dsimp only
  by_cases hfirst : (physicalLines content).headD [] = []
  · rw [if_pos hfirst, hfirst, jsonParse_blank numbers rfl]
    simp
  · rw [if_neg hfirst]
    cases jsonParse numbers ((physicalLines content).headD []) with
    | none => simp
    | some tree =>
      cases tree with
      | obj fields =>
        by_cases htype : textField fields "type" = some (lit "session")
        · simp only [htype, if_true, Except.ok.injEq, Option.some.injEq, JsonTree.obj.injEq]
          exact ⟨fun h => ⟨h, h ▸ htype⟩, fun h => h.1⟩
        · simp only [htype, if_false, fail_ne_ok, Option.some.injEq, JsonTree.obj.injEq, false_iff, not_and]
          rintro rfl
          exact htype
      | _ => simp

/-! ## The header that is written -/

section Relocate

variable (host : Host)

theorem getField_relocate (localCwd : JsString) (header : Fields ν) (key : JsString) :
    getField (relocate host localCwd header) key =
      if key = lit "cwd" then some (.str (host.resolve localCwd))
      else if key = lit "parentSession" then none else getField header key := by
  have hfilter : getField (header.filter fun f => f.1 ≠ lit "parentSession") key =
      if key = lit "parentSession" then none else getField header key := by
    induction header with
    | nil => simp [getField]
    | cons f header ih =>
      obtain ⟨k, v⟩ := f
      rw [getField_cons]
      by_cases hk : k = lit "parentSession"
      · rw [List.filter_cons_of_neg (by simpa using hk), ih]
        by_cases hkey : key = lit "parentSession"
        · rw [if_pos hkey, if_pos hkey]
        · rw [if_neg hkey, if_neg hkey, if_neg (by rw [hk]; exact hkey)]
      · rw [List.filter_cons_of_pos (by simpa using hk), getField_cons, ih]
        by_cases hkey : key = lit "parentSession"
        · rw [if_pos hkey, if_neg (by rw [hkey]; exact Ne.symm hk), if_pos hkey]
        · rw [if_neg hkey, if_neg hkey]
  rw [relocate, getField_setField, hfilter]

theorem textField_relocate {localCwd : JsString} {header : Fields ν} {key : String} (hcwd : lit key ≠ lit "cwd")
    (hparent : lit key ≠ lit "parentSession") : textField (relocate host localCwd header) key = textField header key := by
  rw [textField, textField, getField_relocate, if_neg hcwd, if_neg hparent]

theorem textField_relocate_cwd (localCwd : JsString) (header : Fields ν) :
    textField (relocate host localCwd header) "cwd" = some (host.resolve localCwd) := by
  rw [textField, getField_relocate, if_pos rfl]

theorem ValidHeader.cwd_mem {header : Fields ν} (h : ValidHeader numbers host header) : lit "cwd" ∈ header.map Prod.fst := by
  obtain ⟨cwd, hcwd, -⟩ := h.cwd
  by_contra hno
  rw [textField, getField, Table.lookup_eq_none_iff.2 hno] at hcwd
  cases hcwd

theorem validHeader_relocate {header : Fields ν} (h : ValidHeader numbers host header) (localCwd : JsString) :
    ValidHeader numbers host (relocate host localCwd header) := by
  have habsolute := host.resolve_absolute localCwd
  refine ⟨?_, ?_, ?_, ⟨_, textField_relocate_cwd host localCwd header, host.absolute_ne_blank _ habsolute, habsolute⟩, ?_⟩
  · rw [textField_relocate host (by decide) (by decide)]
    exact h.type
  · rw [getField_relocate, if_neg (by decide), if_neg (by decide)]
    exact h.version
  · rw [textField_relocate host (by decide) (by decide)]
    exact h.id
  · rw [textField_relocate host (by decide) (by decide)]
    exact h.timestamp

/-- The directory takes the place of the one before. -/
theorem relocate_eq_map {header : Fields ν} (hcwd : lit "cwd" ∈ header.map Prod.fst) (localCwd : JsString) :
    relocate host localCwd header = (header.filter fun f => f.1 ≠ lit "parentSession").map fun f =>
      (f.1, if f.1 = lit "cwd" then .str (host.resolve localCwd) else f.2) := by
  obtain ⟨v, hv⟩ := exists_value hcwd
  have hkept : lit "cwd" ∈ (header.filter fun f => f.1 ≠ lit "parentSession").map Prod.fst :=
    key_of_mem (List.mem_filter.2 ⟨hv, rfl⟩)
  rw [relocate, setField, if_pos hkept]
  apply List.map_congr_left
  rintro ⟨k, v⟩ -
  dsimp only
  split <;> rfl

theorem relocate_relocate {header : Fields ν} (hcwd : lit "cwd" ∈ header.map Prod.fst) (localCwd : JsString) :
    relocate host localCwd (relocate host localCwd header) = relocate host localCwd header := by
  have hkeys : (relocate host localCwd header).map Prod.fst = (header.filter fun f => f.1 ≠ lit "parentSession").map Prod.fst := by
    rw [relocate_eq_map host hcwd, keys_map]
  have hcwd' : lit "cwd" ∈ (relocate host localCwd header).map Prod.fst := by
    obtain ⟨v, hv⟩ := exists_value hcwd
    rw [hkeys]
    exact key_of_mem (List.mem_filter.2 ⟨hv, rfl⟩)
  have hnone : (relocate host localCwd header).filter (fun f => f.1 ≠ lit "parentSession") = relocate host localCwd header := by
    rw [List.filter_eq_self]
    intro f hf
    obtain ⟨v, hv⟩ := exists_value (hkeys ▸ key_of_mem hf)
    exact (List.mem_filter.1 hv).2
  rw [relocate_eq_map host hcwd' localCwd, hnone]
  conv_rhs => rw [← List.map_id (relocate host localCwd header)]
  apply List.map_congr_left
  rintro ⟨k, v⟩ hf
  by_cases hk : k = lit "cwd"
  · rw [relocate_eq_map host hcwd] at hf
    obtain ⟨w, -, rfl⟩ := mem_map_value hf
    simp [hk]
  · simp [hk]

theorem relocate_written {header : Fields ν} (hkeyed : Keyed (.obj header)) (horder : inOrder (.obj header) = .obj header)
    (hcwd : lit "cwd" ∈ header.map Prod.fst) (localCwd : JsString) :
    Keyed (.obj (relocate host localCwd header)) ∧
      inOrder (.obj (relocate host localCwd header)) = .obj (relocate host localCwd header) := by
  obtain ⟨⟩ | ⟨⟩ | ⟨⟩ | ⟨⟩ | ⟨⟩ | ⟨hnodup, hfields⟩ := hkeyed
  obtain ⟨hkeys, hvalues⟩ := inOrder_obj_iff.1 horder
  have hsublist : (header.filter fun f => f.1 ≠ lit "parentSession").Sublist header := List.filter_sublist
  rw [relocate_eq_map host hcwd]
  refine ⟨.obj ?_ ?_, inOrder_obj_iff.2 ⟨?_, ?_⟩⟩
  · rw [keys_map]
    exact hnodup.sublist (hsublist.map Prod.fst)
  · rintro ⟨k, v⟩ hf
    obtain ⟨w, hw, rfl⟩ := mem_map_value hf
    dsimp only
    split
    · exact .str _
    · exact hfields _ (hsublist.subset hw)
  · apply OwnKeys.ordered_of_pairwise
    rw [List.pairwise_map]
    have hfiltered := OwnKeys.ordered_of_sublist hkeys hsublist
    rw [← hfiltered]
    exact OwnKeys.pairwise_ordered Prod.fst _
  · rintro ⟨k, v⟩ hf
    obtain ⟨w, hw, rfl⟩ := mem_map_value hf
    dsimp only
    split
    · rfl
    · exact hvalues _ (hsublist.subset hw)

/-! ## The session that is written -/

theorem IsSession.read {content : JsString} {header : Fields ν} {entries : List (Fields ν)}
    (h : IsSession numbers host content header entries) {fields : Fields ν} (hmem : fields ∈ header :: entries) :
    Keyed (.obj fields) ∧ inOrder (.obj fields) = .obj fields := by
  have hline : some (.obj fields) ∈ (sessionLines content).map (jsonParse numbers) := by
    rw [h.lines]
    exact List.mem_map_of_mem hmem
  obtain ⟨line, -, hparse⟩ := List.mem_map.1 hline
  exact ⟨keyed_of_jsonParse numbers hparse, inOrder_of_jsonParse numbers hparse⟩

/-- What is written is parsed as it was. -/
theorem lines_sessionText {entries : List (Fields ν)} (hne : entries ≠ [])
    (h : ∀ fields ∈ entries, Keyed (.obj fields) ∧ inOrder (.obj fields) = .obj fields) :
    (sessionLines (sessionText numbers entries)).map (jsonParse numbers) = entries.map fun fields => some (.obj fields) := by
  rw [sessionLines_sessionText numbers hne, List.map_map]
  apply List.map_congr_left
  intro fields hmem
  exact jsonParse_stringify numbers (h fields hmem).1 (h fields hmem).2

/-- The text that is written is a session of the header and the entries that were written. -/
theorem isSession_sessionText {content : JsString} {header : Fields ν} {entries : List (Fields ν)}
    (h : IsSession numbers host content header entries) (localCwd : JsString) :
    IsSession numbers host (sessionText numbers (relocate host localCwd header :: entries)) (relocate host localCwd header) entries := by
  obtain ⟨hkeyed, horder⟩ := h.read numbers host List.mem_cons_self
  have hwritten := relocate_written host hkeyed horder (h.header.cwd_mem numbers host) localCwd
  refine ⟨?_, validHeader_relocate numbers host h.header localCwd, h.entries⟩
  apply lines_sessionText numbers (List.cons_ne_nil _ _)
  intro fields hmem
  rcases List.mem_cons.1 hmem with rfl | hmem
  · exact hwritten
  · exact h.read numbers host (List.mem_cons_of_mem _ hmem)

/-- A blank line leaves a session what it is. -/
theorem isSession_newline {content : JsString} {header : Fields ν} {entries : List (Fields ν)}
    (h : IsSession numbers host content header entries) : IsSession numbers host (newline :: content) header entries := by
  refine ⟨?_, h.header, h.entries⟩
  rw [← h.lines, sessionLines, physicalLines_newline, List.filter_cons_of_neg (by decide)]
  rfl

end Relocate

/-! ## Rewriting -/

section Rewrite

variable [DecidableEq ν] (host : Host)

/-- What is accepted, and what it is rewritten to. -/
theorem rewritePiSession_eq_ok {content localCwd : JsString} {r : RewrittenPiSession ν} :
    rewritePiSession numbers host content localCwd none = .ok r ↔
      ∃ header entries, IsSession numbers host content header entries ∧ JsString.trim ((physicalLines content).headD []) ≠ [] ∧
        r = { content := sessionText numbers (relocate host localCwd header :: entries),
              header := relocate host localCwd header, entryCount := entries.length } := by
  constructor
  · intro h
    unfold rewritePiSession at h
    split at h
    · cases h
    · obtain ⟨parsed, hparsed, h⟩ := ok_of_bind h
      obtain ⟨header, hheader, h⟩ := ok_of_bind h
      obtain ⟨_, hcheck, h⟩ := ok_of_bind h
      obtain ⟨_, hentries, h⟩ := ok_of_bind h
      obtain ⟨hfirst, htype⟩ := (parsePiSessionHeader_eq_ok numbers).1 hheader
      have hblank : JsString.trim ((physicalLines content).headD []) ≠ [] := by
        intro hblank
        rw [jsonParse_blank numbers hblank] at hfirst
        cases hfirst
      obtain ⟨others, hlines⟩ := sessionLines_cons hblank
      rw [parseLines_eq_ok, hlines, List.map_cons, hfirst] at hparsed
      cases parsed with
      | nil => cases hparsed
      | cons entry entries =>
        obtain ⟨hentry, htail⟩ := List.cons.inj hparsed
        obtain rfl : header = entry := by simpa using hentry
        refine ⟨header, entries, ⟨?_, (checkHeader_eq_ok numbers host htype).1 hcheck, checkEntries_eq_ok.1 hentries⟩, hblank, ?_⟩
        · rw [hlines, List.map_cons, hfirst, htail, List.map_cons]
        · exact (Except.ok.inj h).symm
  · rintro ⟨header, entries, ⟨hlines, hheader, hentries⟩, hblank, rfl⟩
    obtain ⟨others, hcons⟩ := sessionLines_cons hblank
    have hfirst : jsonParse numbers ((physicalLines content).headD []) = some (.obj header) := by
      rw [hcons, List.map_cons, List.map_cons] at hlines
      exact (List.cons.inj hlines).1
    have hne : sessionLines content ≠ [] := by simp [hcons]
    have hparsed := (parseLines_eq_ok numbers 0).2 hlines
    have hsource := (parsePiSessionHeader_eq_ok numbers).2 ⟨hfirst, hheader.type⟩
    have hcheck := (checkHeader_eq_ok numbers host hheader.type).2 hheader
    have hloop : checkEntries 1 [] entries = .ok () := checkEntries_eq_ok.2 hentries
    rw [rewritePiSession, if_neg hne, hparsed, hsource]
    simp [bind, Except.bind, hcheck, hloop, pure, Except.pure]

/-- Rewriting accepts the valid sessions, whatever blank lines they have, exactly where none is before the header. It keeps
the entries and the header but for its directory and its parent session, and changes nothing when it is done again. -/
theorem rewritePiSession_valid (content localCwd : JsString) :
    (((∃ r, rewritePiSession numbers host content localCwd none = .ok r) ↔
        ∃ header entries, IsSession numbers host content header entries) ↔
      ((∃ header entries, IsSession numbers host content header entries) → JsString.trim ((physicalLines content).headD []) ≠ [])) ∧
    ∀ r, rewritePiSession numbers host content localCwd none = .ok r →
      ∃ header entries, IsSession numbers host content header entries ∧ IsSession numbers host r.content r.header entries ∧
        (∀ key, getField r.header key = if key = lit "cwd" then some (.str (host.resolve localCwd))
          else if key = lit "parentSession" then none else getField header key) ∧
        r.entryCount = entries.length ∧ rewritePiSession numbers host r.content localCwd none = .ok r := by
  refine ⟨⟨fun h hvalid => ?_, fun h => ⟨?_, ?_⟩⟩, ?_⟩
  · obtain ⟨r, hr⟩ := h.2 hvalid
    obtain ⟨-, -, -, hblank, -⟩ := (rewritePiSession_eq_ok numbers host).1 hr
    exact hblank
  · rintro ⟨r, hr⟩
    obtain ⟨header, entries, hsession, -⟩ := (rewritePiSession_eq_ok numbers host).1 hr
    exact ⟨header, entries, hsession⟩
  · rintro ⟨header, entries, hsession⟩
    exact ⟨_, (rewritePiSession_eq_ok numbers host).2 ⟨header, entries, hsession, h ⟨header, entries, hsession⟩, rfl⟩⟩
  · intro r hr
    obtain ⟨header, entries, hsession, -, rfl⟩ := (rewritePiSession_eq_ok numbers host).1 hr
    have hagain := isSession_sessionText numbers host hsession localCwd
    refine ⟨header, entries, hsession, hagain, getField_relocate host localCwd header, rfl, ?_⟩
    refine (rewritePiSession_eq_ok numbers host).2 ⟨_, _, hagain, ?_, ?_⟩
    · rw [physicalLines_sessionText numbers (List.cons_ne_nil _ _)]
      exact stringify_ne_blank numbers _
    · rw [relocate_relocate host (hsession.header.cwd_mem numbers host)]

/-! ## A blank line before the header -/

theorem rewritePiSession_newline (content localCwd : JsString) (r : RewrittenPiSession ν) :
    rewritePiSession numbers host (newline :: content) localCwd none ≠ .ok r := by
  intro h
  obtain ⟨-, -, -, hblank, -⟩ := (rewritePiSession_eq_ok numbers host).1 h
  rw [physicalLines_newline] at hblank
  exact hblank rfl

end Rewrite

/-- Absolute paths as they are, the others from the root. -/
def posix : Host where
  isAbsolute p := p.head? = some 0x2f
  resolve p := if p.head? = some 0x2f then p else 0x2f :: p
  isDate := isIsoDatetime
  resolve_absolute p := by
    split
    · simpa
    · rfl
  absolute_ne_blank p h := by
    rw [Ne, trim_eq_nil]
    intro hspace
    exact absurd (hspace 0x2f (List.mem_of_mem_head? (by simpa using h))) (by decide)

def demoHeader : Fields (Fin 10) :=
  [(lit "type", .str (lit "session")), (lit "version", .num ⟨3, by decide⟩), (lit "id", .str (lit "session-1")),
    (lit "timestamp", .str (lit "2026-09-01T00:00:00.000Z")), (lit "cwd", .str (lit "/source"))]

theorem demoHeader_session : IsSession digitNumbers posix (sessionText digitNumbers [demoHeader]) demoHeader [] := by
  refine ⟨?_, ?_, ⟨by simp, by simp, by simp, by simp⟩⟩
  · apply lines_sessionText digitNumbers (List.cons_ne_nil _ _)
    intro fields hmem
    rw [List.mem_singleton.1 hmem]
    refine ⟨.obj (by decide) fun f hf => ?_, rfl⟩
    simp only [demoHeader, List.mem_cons, List.not_mem_nil, or_false] at hf
    rcases hf with rfl | rfl | rfl | rfl | rfl
    · exact .str _
    · exact .num _
    all_goals exact .str _
  · exact ⟨rfl, rfl, ⟨_, rfl, by decide⟩, ⟨_, rfl, by decide, by decide⟩, ⟨_, rfl, by decide, by decide, by decide⟩⟩

theorem rewritePiSession_valid_demo :
    ∃ r, rewritePiSession digitNumbers posix (sessionText digitNumbers [demoHeader]) (lit "/target") none = .ok r ∧
      rewritePiSession digitNumbers posix r.content (lit "/target") none = .ok r := by
  obtain ⟨hvalid, hwritten⟩ := rewritePiSession_valid digitNumbers posix (sessionText digitNumbers [demoHeader]) (lit "/target")
  have hblank : JsString.trim ((physicalLines (sessionText digitNumbers [demoHeader])).headD []) ≠ [] := by
    rw [physicalLines_sessionText digitNumbers (List.cons_ne_nil _ _)]
    exact stringify_ne_blank digitNumbers demoHeader
  obtain ⟨r, hr⟩ := (hvalid.2 fun _ => hblank).2 ⟨_, _, demoHeader_session⟩
  obtain ⟨-, -, -, -, -, -, hagain⟩ := hwritten r hr
  exact ⟨r, hr, hagain⟩

/-- A valid session after a blank line, which is refused. -/
theorem rewritePiSession_valid_fails :
    ¬ ((∃ r, rewritePiSession digitNumbers posix (newline :: sessionText digitNumbers [demoHeader]) (lit "/target") none = .ok r) ↔
      ∃ header entries, IsSession digitNumbers posix (newline :: sessionText digitNumbers [demoHeader]) header entries) := by
  intro h
  obtain ⟨r, hr⟩ := h.2 ⟨_, _, isSession_newline digitNumbers posix demoHeader_session⟩
  exact rewritePiSession_newline digitNumbers posix _ _ r hr

end Leitwerk.SessionTransfer.SessionFile
