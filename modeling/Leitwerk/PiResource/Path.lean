import Leitwerk.Lib.Lines
import Leitwerk.Lib.Utf8
/-!
# Paths of resources

`validateResourceRelativePath` of `pi-resource-bundle.ts`. A path it returns is
made of ordinary segments, with a slash at its end or without, and is returned
again when it is validated once more.
-/

namespace Leitwerk.PiResource

open JsString (lit)

abbrev Result := Except JsString

/-- `fail`. -/
def fail {α : Type} (message : JsString) : Result α := .error (lit "Invalid Pi resource bundle: " ++ message)

def slash : UInt16 := 0x2f

def backslash : UInt16 := 0x5c

def dot : JsString := [0x2e]

def dotDot : JsString := [0x2e, 0x2e]

/-- A segment, after those that `path.posix.normalize` has kept. -/
def pushSegment (kept : List JsString) (segment : JsString) : List JsString :=
  if segment = [] ∨ segment = dot then kept
  else if segment = dotDot then
    match kept.getLast? with
    | none => [dotDot]
    | some last => if last = dotDot then kept ++ [dotDot] else kept.dropLast
  else kept ++ [segment]

/-- The segments that are kept. -/
def segments (value : JsString) : List JsString := (Lines.split slash value).foldl pushSegment []

def endsInSlash (value : JsString) : Bool := value.getLast? = some slash

/-- `path.posix.normalize` of a path that is not absolute. -/
def normalize (value : JsString) : JsString :=
  if segments value = [] then if endsInSlash value then dot ++ [slash] else dot
  else Lines.join slash (segments value) ++ if endsInSlash value then [slash] else []

/-- `validateResourceRelativePath`. -/
def validateResourceRelativePath (value : JsString) : Result JsString :=
  if value = [] ∨ value.head? = some slash ∨ backslash ∈ value then fail (lit "unsafe path '" ++ value ++ lit "'")
  else if normalize value = dot ∨ normalize value = dotDot ∨ dotDot ++ [slash] <+: normalize value then
    fail (lit "unsafe path '" ++ value ++ lit "'")
  else .ok (normalize value)

/-! ## Segments that are kept -/

/-- A segment that stands for itself. -/
def Ordinary (segment : JsString) : Prop := segment ≠ [] ∧ segment ≠ dot ∧ segment ≠ dotDot

theorem pushSegment_ordinary (kept : List JsString) {segment : JsString} (h : Ordinary segment) :
    pushSegment kept segment = kept ++ [segment] := by
  unfold pushSegment
  rw [if_neg (by simp [h.1, h.2.1]), if_neg h.2.2]

theorem foldl_ordinary (kept : List JsString) {l : List JsString} (h : ∀ s ∈ l, Ordinary s) :
    l.foldl pushSegment kept = kept ++ l := by
  induction l generalizing kept with
  | nil => simp
  | cons s l ih =>
    rw [List.foldl_cons, pushSegment_ordinary kept (h s List.mem_cons_self), ih _ fun t ht => h t (List.mem_cons_of_mem _ ht)]
    simp

/-- What is kept are steps upwards, and then ordinary segments of the path. -/
def Shape (l kept : List JsString) : Prop :=
  ∃ k ords, kept = List.replicate k dotDot ++ ords ∧ ∀ s ∈ ords, Ordinary s ∧ s ∈ l

theorem Shape.push {l kept : List JsString} (h : Shape l kept) {segment : JsString} (hs : segment ∈ l) :
    Shape l (pushSegment kept segment) := by
  obtain ⟨k, ords, rfl, hords⟩ := h
  unfold pushSegment
  split
  · exact ⟨k, ords, rfl, hords⟩
  · rename_i hskip
    split
    · rcases ords.eq_nil_or_concat with rfl | ⟨ords, last, rfl⟩
      · rw [List.append_nil]
        cases k with
        | zero => exact ⟨1, [], rfl, by simp⟩
        | succ k =>
          rw [List.getLast?_replicate, if_neg (by omega)]
          exact ⟨k + 2, [], by simp [List.replicate_succ'], by simp⟩
      · rw [List.concat_eq_append] at hords ⊢
        have hlast := (hords last (by simp)).1
        rw [← List.append_assoc, List.getLast?_concat]
        simp only [hlast.2.2, if_false, List.dropLast_concat]
        exact ⟨k, ords, rfl, fun s hs => hords s (by simp [hs])⟩
    · rename_i hup
      refine ⟨k, ords ++ [segment], by simp, ?_⟩
      intro s hmem
      rcases List.mem_append.1 hmem with hmem | hmem
      · exact hords s hmem
      · rw [List.mem_singleton.1 hmem]
        exact ⟨⟨fun h => hskip (.inl h), fun h => hskip (.inr h), hup⟩, hs⟩

theorem shape_segments (value : JsString) : Shape (Lines.split slash value) (segments value) := by
  have hfold : ∀ rest kept : List JsString, rest ⊆ Lines.split slash value → Shape (Lines.split slash value) kept →
      Shape (Lines.split slash value) (rest.foldl pushSegment kept) := by
    intro rest
    induction rest with
    | nil => exact fun kept _ h => h
    | cons s rest ih =>
      intro kept hsub h
      exact ih _ (fun t ht => hsub (List.mem_cons_of_mem _ ht)) (h.push (hsub List.mem_cons_self))
  exact hfold _ [] (fun _ h => h) ⟨0, [], rfl, by simp⟩

/-- A path that does not lead upwards once it is normalised keeps ordinary segments only. -/
theorem ordinary_of_normalize {value : JsString} (hup : normalize value ≠ dotDot) (hup' : ¬ dotDot ++ [slash] <+: normalize value) :
    ∀ s ∈ segments value, Ordinary s ∧ s ∈ Lines.split slash value := by
  obtain ⟨k, ords, heq, hords⟩ := shape_segments value
  cases k with
  | zero =>
    rw [heq, List.replicate_zero, List.nil_append]
    exact hords
  | succ k =>
    exfalso
    rw [List.replicate_succ, List.cons_append] at heq
    have hne : segments value ≠ [] := by
      rw [heq]
      simp
    unfold normalize at hup hup'
    rw [if_neg hne, heq] at hup hup'
    generalize List.replicate k dotDot ++ ords = rest at hup hup'
    cases rest with
    | nil =>
      by_cases hend : endsInSlash value
      · rw [if_pos hend] at hup'
        exact hup' (by simp [Lines.join])
      · rw [if_neg hend] at hup
        exact hup (by simp [Lines.join])
    | cons r rest =>
      apply hup'
      refine ⟨r ++ rest.flatMap (slash :: ·) ++ if endsInSlash value then [slash] else [], ?_⟩
      simp [Lines.join]

/-- A path that is validated has no step upwards. -/
theorem ordinary_of_validate {value path : JsString} (h : validateResourceRelativePath value = .ok path) :
    (∀ s ∈ segments value, Ordinary s ∧ s ∈ Lines.split slash value) ∧ path = normalize value ∧
      backslash ∉ value ∧ (segments value = [] → endsInSlash value) := by
  unfold validateResourceRelativePath at h
  split at h
  · cases h
  · rename_i hsafe
    split at h
    · cases h
    · rename_i hup
      cases h
      push Not at hsafe hup
      refine ⟨ordinary_of_normalize hup.2.1 hup.2.2, rfl, hsafe.2.2, ?_⟩
      intro hnil
      by_contra hend
      apply hup.1
      unfold normalize
      rw [if_pos hnil, if_neg hend]

/-! ## Validating twice -/

theorem slash_notMem_of_split {value s : JsString} (h : s ∈ Lines.split slash value) : slash ∉ s :=
  Lines.notMem_of_split slash h

/-- A path of ordinary segments, with or without a slash at its end, is returned as it is. -/
theorem validate_ordinary {ords : List JsString} (hne : ords ≠ []) (hords : ∀ s ∈ ords, Ordinary s ∧ slash ∉ s ∧ backslash ∉ s)
    (trailing : Bool) :
    validateResourceRelativePath (Lines.join slash ords ++ if trailing then [slash] else []) =
      .ok (Lines.join slash ords ++ if trailing then [slash] else []) := by
  obtain ⟨o, ords', rfl⟩ := List.exists_cons_of_ne_nil hne
  obtain ⟨ho, hoslash, -⟩ := hords o List.mem_cons_self
  obtain ⟨u, o', rfl⟩ := List.exists_cons_of_ne_nil ho.1
  generalize hp : (Lines.join slash ((u :: o') :: ords') ++ if trailing then [slash] else []) = p
  have hsplit : Lines.split slash p = ((u :: o') :: ords') ++ if trailing then [[]] else [] := by
    have hjoin : Lines.split slash (Lines.join slash ((u :: o') :: ords')) = (u :: o') :: ords' :=
      Lines.split_join slash (by simp) fun s hs => (hords s hs).2.1
    rw [← hp]
    cases trailing with
    | true =>
      rw [if_pos rfl, Lines.split_append_nl, hjoin]
      rfl
    | false => rw [if_neg (by simp), List.append_nil, hjoin, if_neg (by simp), List.append_nil]
  have hsegments : segments p = (u :: o') :: ords' := by
    unfold segments
    rw [hsplit, List.foldl_append, foldl_ordinary [] fun s hs => (hords s hs).1]
    cases trailing <;> simp [pushSegment]
  have hend : endsInSlash p = trailing := by
    unfold endsInSlash
    rw [← hp]
    cases trailing with
    | true => simp
    | false =>
      obtain ⟨init, last, hlast⟩ : ∃ init last, (u :: o') :: ords' = init ++ [last] :=
        ⟨_, _, (List.dropLast_concat_getLast (by simp)).symm⟩
      obtain ⟨hl, hlslash, -⟩ := hords last (by rw [hlast]; simp)
      have hjoin : ∃ front, Lines.join slash ((u :: o') :: ords') = front ++ last := by
        rw [hlast]
        rcases eq_or_ne init [] with rfl | hinit
        · exact ⟨[], by simp [Lines.join]⟩
        · exact ⟨Lines.join slash init ++ [slash], by rw [Lines.join_concat slash hinit]; simp⟩
      obtain ⟨front, hfront⟩ := hjoin
      rw [if_neg (by simp), List.append_nil, hfront, List.getLast?_append_of_ne_nil _ hl.1]
      simp only [decide_eq_false_iff_not]
      exact fun hmem => hlslash (List.mem_of_getLast? hmem)
  have hnormal : normalize p = p := by
    unfold normalize
    rw [hsegments, if_neg (by simp), hend, ← hp]
  have hhead : p.head? = some u := by rw [← hp]; simp [Lines.join]
  have hback : backslash ∉ p := by
    rw [← hp, List.mem_append, not_or]
    constructor
    · intro hmem
      rcases Lines.mem_join slash hmem with heq | ⟨s, hs, hsmem⟩
      · exact absurd heq (by decide)
      · exact (hords s hs).2.2 hsmem
    · cases trailing <;> decide
  unfold validateResourceRelativePath
  rw [hnormal, if_neg, if_neg]
  · rintro (heq | heq | ⟨r, hr⟩)
    · have hone : Lines.split slash p = [dot] := by rw [heq]; decide
      rw [hsplit, List.cons_append] at hone
      exact ho.2.1 (List.cons.inj hone).1
    · have hone : Lines.split slash p = [dotDot] := by rw [heq]; decide
      rw [hsplit, List.cons_append] at hone
      exact ho.2.2 (List.cons.inj hone).1
    · have hone : Lines.split slash p = [dotDot] ++ Lines.split slash r := by
        rw [← hr, List.append_assoc, List.singleton_append, Lines.split_append_nl]
        rfl
      rw [hsplit, List.cons_append] at hone
      exact ho.2.2 (List.cons.inj hone).1
  · rintro (heq | heq | hmem)
    · rw [heq] at hhead
      cases hhead
    · rw [hhead] at heq
      cases heq
      exact hoslash List.mem_cons_self
    · exact hback hmem

/-- The forms a validated path can have. -/
theorem validated_form {value path : JsString} (h : validateResourceRelativePath value = .ok path) :
    path = dot ++ [slash] ∨ ∃ ords, ∃ trailing : Bool, ords ≠ [] ∧ ords ⊆ Lines.split slash value ∧
      (∀ s ∈ ords, Ordinary s ∧ slash ∉ s ∧ backslash ∉ s) ∧
      path = Lines.join slash ords ++ if trailing then [slash] else [] := by
  obtain ⟨hords, rfl, hback, hnil⟩ := ordinary_of_validate h
  unfold normalize
  by_cases hempty : segments value = []
  · left
    rw [if_pos hempty, if_pos (hnil hempty)]
  · right
    refine ⟨segments value, endsInSlash value, hempty, fun s hs => (hords s hs).2, ?_, by rw [if_neg hempty]⟩
    intro s hs
    obtain ⟨ho, hmem⟩ := hords s hs
    exact ⟨ho, slash_notMem_of_split hmem, fun hb => hback (Lines.mem_of_mem_split slash hmem hb)⟩

/-- Validating twice is validating once. -/
theorem validate_idem {value path : JsString} (h : validateResourceRelativePath value = .ok path) :
    validateResourceRelativePath path = .ok path := by
  rcases validated_form h with rfl | ⟨ords, trailing, hne, -, hords, rfl⟩
  · decide
  · exact validate_ordinary hne hords trailing

/-! ## Units of a validated path -/

theorem zero_notMem_validated {value path : JsString} (h : validateResourceRelativePath value = .ok path)
    (hz : (0 : UInt16) ∉ value) : (0 : UInt16) ∉ path := by
  rcases validated_form h with rfl | ⟨ords, trailing, -, hsub, -, rfl⟩
  · decide
  · rw [List.mem_append, not_or]
    constructor
    · intro hmem
      rcases Lines.mem_join slash hmem with heq | ⟨s, hs, hsmem⟩
      · exact absurd heq (by decide)
      · exact hz (Lines.mem_of_mem_split slash (hsub hs) hsmem)
    · cases trailing <;> decide

theorem isWellFormed_append_slash (a b : JsString) :
    Utf8.isWellFormed (a ++ slash :: b) = (Utf8.isWellFormed a && Utf8.isWellFormed b) := by
  fun_induction Utf8.isWellFormed a with
  | case1 => exact Utf8.isWellFormed_cons (by decide) (by decide) b
  | case2 u hu =>
    rw [List.singleton_append, Utf8.isWellFormed.eq_def]
    simp [hu, show Utf8.isLow slash = false from by decide]
  | case3 u hu v rest ih =>
    rw [List.cons_append, List.cons_append, Utf8.isWellFormed.eq_def]
    simp [hu, ih, Bool.and_assoc]
  | case4 u rest hu ih =>
    rw [List.cons_append, Utf8.isWellFormed.eq_def]
    simp [hu, ih, Bool.and_assoc]

theorem isWellFormed_join (ls : List JsString) :
    Utf8.isWellFormed (Lines.join slash ls) ↔ ∀ l ∈ ls, Utf8.isWellFormed l := by
  induction ls using List.reverseRecOn with
  | nil => simp [Lines.join, Utf8.isWellFormed]
  | append_singleton ls l ih =>
    rcases eq_or_ne ls [] with rfl | hls
    · simp [Lines.join]
    · rw [Lines.join_concat slash hls, isWellFormed_append_slash, Bool.and_eq_true, ih]
      simp [or_imp, forall_and]

theorem wellFormed_validated {value path : JsString} (h : validateResourceRelativePath value = .ok path)
    (hw : Utf8.isWellFormed value) : Utf8.isWellFormed path := by
  rcases validated_form h with rfl | ⟨ords, trailing, hne, hsub, -, rfl⟩
  · decide
  · have hsplit := (isWellFormed_join (Lines.split slash value)).1 (by rw [Lines.join_split]; exact hw)
    have hords := (isWellFormed_join ords).2 fun l hl => hsplit l (hsub hl)
    cases trailing with
    | true =>
      rw [if_pos rfl, isWellFormed_append_slash, hords]
      rfl
    | false => simpa using hords

end Leitwerk.PiResource
