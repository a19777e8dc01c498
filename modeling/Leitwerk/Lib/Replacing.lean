import Mathlib.Data.List.Basic
/-!
# Replacing words in a text

`replaceAll` splits a text at the occurrences of a word, found from left to
right, and joins the pieces with a mark. The units of the text carry whatever
labels one likes, and `key` reads them, so that a replacement can be followed.

A `Cell` is a unit of a text that is still there, or the mark of a replaced
occurrence. `take` replaces a word in a list of cells, where nothing reads a
mark. As long as no occurrence of the word reaches into a mark (`clear`),
replacing it in the text is taking it in the cells (`text_take`).

`Taken` says which occurrences of a list of words that are: one word after the
other and from left to right, every occurrence that overlaps none taken before.
-/

namespace Replacing

variable {α β γ : Type} [DecidableEq α]

/-! ## Splitting and joining -/

/-- Whether a text, read by `key`, goes on with a word. -/
def startsWith (key : β → α) (word : List α) (text : List β) : Bool := word.isPrefixOf (text.map key)

/-- The pieces of a text around the occurrences of a word; `skip` units of an
occurrence are still to be passed. -/
def split (key : β → α) (word : List α) : Nat → List β → List (List β)
  | _, [] => [[]]
  | skip + 1, _ :: text => split key word skip text
  | 0, c :: text =>
    if startsWith key word (c :: text) then [] :: split key word (word.length - 1) text
    else (split key word 0 text).modifyHead (c :: ·)

/-- A text with the occurrences of a word replaced by a mark. -/
def replaceAll (key : β → α) (mark : List β) (word : List α) (text : List β) : List β :=
  mark.intercalate (split key word 0 text)

/-- The same in one pass. -/
def replaced (key : β → α) (mark : List β) (word : List α) : Nat → List β → List β
  | _, [] => []
  | skip + 1, _ :: text => replaced key mark word skip text
  | 0, c :: text =>
    if startsWith key word (c :: text) then mark ++ replaced key mark word (word.length - 1) text
    else c :: replaced key mark word 0 text

theorem split_ne_nil (key : β → α) (word : List α) (skip : Nat) (text : List β) : split key word skip text ≠ [] := by
  fun_induction split key word skip text with
  | case1 => simp
  | case2 _ _ _ ih => exact ih
  | case3 => simp
  | case4 c text _ ih =>
    cases hs : split key word 0 text with
    | nil => exact absurd hs ih
    | cons piece pieces => simp

theorem intercalate_cons (mark piece : List β) {pieces : List (List β)} (h : pieces ≠ []) :
    mark.intercalate (piece :: pieces) = piece ++ mark ++ mark.intercalate pieces := by
  obtain ⟨next, rest, rfl⟩ := List.exists_cons_of_ne_nil h
  simp [List.intercalate]

theorem intercalate_modifyHead (mark : List β) (c : β) {pieces : List (List β)} (h : pieces ≠ []) :
    mark.intercalate (pieces.modifyHead (c :: ·)) = c :: mark.intercalate pieces := by
  obtain ⟨piece, rest, rfl⟩ := List.exists_cons_of_ne_nil h
  cases rest with
  | nil => simp [List.intercalate]
  | cons next rest => simp [List.intercalate]

theorem intercalate_split (key : β → α) (mark : List β) (word : List α) (skip : Nat) (text : List β) :
    mark.intercalate (split key word skip text) = replaced key mark word skip text := by
  fun_induction split key word skip text with
  | case1 => simp [replaced, List.intercalate]
  | case2 _ _ _ ih => rw [ih, replaced]
  | case3 c text h ih =>
    rw [intercalate_cons _ _ (split_ne_nil _ _ _ _), ih, replaced, if_pos h, List.nil_append]
  | case4 c text h ih =>
    rw [intercalate_modifyHead _ _ (split_ne_nil _ _ _ _), ih, replaced, if_neg h]

theorem replaceAll_eq (key : β → α) (mark : List β) (word : List α) (text : List β) :
    replaceAll key mark word text = replaced key mark word 0 text := intercalate_split key mark word 0 text

/-- Labels change nothing of what is replaced. -/
theorem map_replaceAll {f : β → γ} {key : β → α} {key' : γ → α} (hf : ∀ x, key' (f x) = key x) (mark : List β)
    (word : List α) (text : List β) :
    (replaceAll key mark word text).map f = replaceAll key' (mark.map f) word (text.map f) := by
  have hstarts : ∀ t : List β, startsWith key' word (t.map f) = startsWith key word t := by
    intro t
    have : key' ∘ f = key := funext hf
    simp [startsWith, List.map_map, this]
  rw [replaceAll_eq, replaceAll_eq]
  generalize 0 = skip
  fun_induction replaced key mark word skip text with
  | case1 => simp [replaced]
  | case2 _ _ _ ih => rw [ih, List.map_cons, replaced]
  | case3 c text h ih =>
    rw [List.map_append, ih, List.map_cons, replaced, ← List.map_cons, hstarts, if_pos h]
  | case4 c text h ih =>
    rw [List.map_cons, ih, List.map_cons, replaced, ← List.map_cons, hstarts, if_neg h]

/-! ## Cells -/

/-- A unit of a text, or the mark of a replaced occurrence of some width. -/
inductive Cell (β : Type) where
  | kept (unit : β)
  | mark (width : Nat)
  deriving DecidableEq

/-- Whether the unit is still there. -/
def Cell.isKept : Cell β → Bool
  | .kept _ => true
  | .mark _ => false

/-- What is read at a cell; a mark reads as nothing. -/
def Cell.read (key : β → α) : Cell β → Option α
  | .kept unit => some (key unit)
  | .mark _ => none

/-- Whether kept units spell a word here. -/
def startsKept (key : β → α) (word : List α) (cells : List (Cell β)) : Bool :=
  (word.map some).isPrefixOf (cells.map (Cell.read key))

/-- The cells after a word has been replaced; `skip` of an occurrence are still to be passed. -/
def take (key : β → α) (word : List α) : Nat → List (Cell β) → List (Cell β)
  | _, [] => []
  | skip + 1, _ :: cells => take key word skip cells
  | 0, c :: cells =>
    if startsKept key word (c :: cells) then .mark word.length :: take key word (word.length - 1) cells
    else c :: take key word 0 cells

/-- The text of a cell, where every mark is written `mark`. -/
def Cell.text (mark : List β) : Cell β → List β
  | .kept unit => [unit]
  | .mark _ => mark

/-- The text of some cells. -/
def text (mark : List β) (cells : List (Cell β)) : List β := cells.flatMap (Cell.text mark)

@[simp] theorem text_nil (mark : List β) : text mark [] = [] := rfl
@[simp] theorem text_kept (mark : List β) (unit : β) (cells : List (Cell β)) :
    text mark (.kept unit :: cells) = unit :: text mark cells := rfl
@[simp] theorem text_mark (mark : List β) (width : Nat) (cells : List (Cell β)) :
    text mark (.mark width :: cells) = mark ++ text mark cells := rfl

/-- No occurrence of the word starts in a mark, and one that starts at a kept
unit runs over kept units only. -/
def clear (key : β → α) (mark : List β) (word : List α) : List (Cell β) → Bool
  | [] => true
  | .mark _ :: cells =>
    (List.range mark.length).all (fun j => !startsWith key word (mark.drop j ++ text mark cells)) &&
      clear key mark word cells
  | .kept unit :: cells =>
    (!startsWith key word (unit :: text mark cells) || startsKept key word (.kept unit :: cells)) &&
      clear key mark word cells

/-- A replacement passes over units at which the word does not start. -/
theorem replaced_pass {key : β → α} {mark : List β} {word : List α} {units rest : List β}
    (h : ∀ j < units.length, startsWith key word (units.drop j ++ rest) = false) :
    replaced key mark word 0 (units ++ rest) = units ++ replaced key mark word 0 rest := by
  induction units with
  | nil => rfl
  | cons c units ih =>
    have h0 := h 0 (by simp)
    simp only [List.drop_zero, List.cons_append] at h0
    rw [List.cons_append, replaced, if_neg (by simp [h0]), ih]
    · rfl
    · intro j hj
      simpa using h (j + 1) (by simpa using hj)

theorem startsKept_kept {key : β → α} {word : List α} {cells : List (Cell β)} (h : startsKept key word cells = true) :
    ∀ c ∈ cells.take word.length, c.isKept = true := by
  unfold startsKept at h
  rw [List.isPrefixOf_iff_prefix] at h
  obtain ⟨rest, hrest⟩ := h
  have htake : (cells.take word.length).map (Cell.read key) = word.map some := by
    rw [List.map_take, ← hrest, List.take_left' (by simp)]
  intro c hc
  have hmem : c.read key ∈ word.map some := htake ▸ List.mem_map_of_mem hc
  obtain ⟨a, _, ha⟩ := List.mem_map.1 hmem
  cases c with
  | kept unit => rfl
  | mark width => cases ha

theorem startsWith_of_startsKept {key : β → α} {mark : List β} {word : List α} {cells : List (Cell β)}
    (h : startsKept key word cells = true) : startsWith key word (text mark cells) = true := by
  induction cells generalizing word with
  | nil => cases word <;> simp_all [startsKept, startsWith]
  | cons c cells ih =>
    cases word with
    | nil => simp [startsWith]
    | cons a word =>
      cases c with
      | kept unit =>
        simp only [startsKept, List.map_cons, Cell.read, List.isPrefixOf, Bool.and_eq_true, beq_iff_eq,
          Option.some.injEq] at h
        have hr := ih h.2
        simp only [startsWith] at hr ⊢
        simp [h.1, hr]
      | mark width => simp [startsKept, Cell.read] at h

/-- Where no occurrence reaches into a mark, replacing a word in the text is
taking it in the cells. -/
theorem text_take {key : β → α} {mark : List β} {word : List α} {cells : List (Cell β)} (hw : word ≠ [])
    (hc : clear key mark word cells = true) :
    replaceAll key mark word (text mark cells) = text mark (take key word 0 cells) := by
  rw [replaceAll_eq]
  suffices h : ∀ skip, (∀ c ∈ cells.take skip, c.isKept = true) →
      replaced key mark word skip (text mark cells) = text mark (take key word skip cells) from h 0 (by simp)
  induction cells with
  | nil => intro skip _; simp [replaced, take]
  | cons c cells ih =>
    intro skip hskip
    cases c with
    | mark width =>
      simp only [clear, Bool.and_eq_true, List.all_eq_true, List.mem_range, Bool.not_eq_true'] at hc
      cases skip with
      | succ skip => simpa [Cell.isKept] using hskip (.mark width) (by simp)
      | zero =>
        have hno : startsKept key word (Cell.mark width :: cells) = false := by
          cases word with
          | nil => exact absurd rfl hw
          | cons a word => simp [startsKept, Cell.read, List.isPrefixOf]
        rw [text_mark, replaced_pass hc.1, take, if_neg (by simp [hno]), text_mark, ih hc.2 0 (by simp)]
    | kept unit =>
      simp only [clear, Bool.and_eq_true, Bool.or_eq_true, Bool.not_eq_true'] at hc
      cases skip with
      | succ skip =>
        rw [text_kept, replaced, take]
        exact ih hc.2 skip fun c hmem => hskip c (by simp [hmem])
      | zero =>
        rw [text_kept, replaced, take]
        cases hs : startsKept key word (Cell.kept unit :: cells) with
        | true =>
          have ht : startsWith key word (text mark (Cell.kept unit :: cells)) = true := startsWith_of_startsKept hs
          rw [text_kept] at ht
          rw [if_pos ht, if_pos rfl, text_mark]
          congr 1
          refine ih hc.2 _ fun c hmem => startsKept_kept hs c ?_
          obtain ⟨a, rest, rfl⟩ := List.exists_cons_of_ne_nil hw
          exact List.mem_cons_of_mem _ hmem
        | false =>
          have ht : startsWith key word (unit :: text mark cells) = false := by simpa [hs] using hc.1
          rw [if_neg (by simp [ht]), if_neg (by simp), text_kept, ih hc.2 0 (by simp)]

/-! ## Positions -/

/-- A text whose units know their positions. -/
abbrev Labelled (α : Type) := List (α × Option Nat)

/-- Each unit with its position. -/
def labelled (m : List α) : Labelled α := m.zipIdx.map fun x => (x.1, some x.2)

/-- Cells that are the text `m` from a position on. -/
def Covers (m : List α) : Nat → List (Cell (α × Option Nat)) → Prop
  | o, [] => o = m.length
  | o, .kept unit :: cells => m[o]? = some unit.1 ∧ unit.2 = some o ∧ Covers m (o + 1) cells
  | o, .mark width :: cells => 0 < width ∧ Covers m (o + width) cells

/-- Where the marks start, and their widths. -/
def marks : Nat → List (Cell β) → List (Nat × Nat)
  | _, [] => []
  | o, .kept _ :: cells => marks (o + 1) cells
  | o, .mark width :: cells => (o, width) :: marks (o + width) cells

/-- The labels of the kept units. -/
def labels (cells : List (Cell (α × Option Nat))) : List Nat :=
  cells.filterMap fun
    | .kept unit => unit.2
    | .mark _ => none

/-- Whether a position lies in one of some intervals, given by start and width. -/
def within (intervals : List (Nat × Nat)) (p : Nat) : Bool := intervals.any fun x => x.1 ≤ p && p < x.1 + x.2

omit [DecidableEq α] in
theorem covers_labelled (m : List α) : Covers m 0 ((labelled m).map .kept) := by
  suffices h : ∀ (pre rest : List α), m = pre ++ rest →
      Covers m pre.length (((rest.zipIdx pre.length).map fun x => (x.1, some x.2)).map .kept) from h [] m rfl
  intro pre rest hm
  induction rest generalizing pre with
  | nil => simp [Covers, hm]
  | cons c rest ih =>
    refine ⟨by simp [hm], rfl, ?_⟩
    have hr := ih (pre ++ [c]) (by simp [hm])
    simpa using hr

omit [DecidableEq α] in
theorem covers_le {m : List α} {o : Nat} {cells : List (Cell (α × Option Nat))} (h : Covers m o cells) :
    o ≤ m.length := by
  induction cells generalizing o with
  | nil => exact Nat.le_of_eq h
  | cons c cells ih =>
    cases c with
    | kept unit => exact Nat.le_of_succ_le (ih h.2.2)
    | mark width => exact Nat.le_trans (Nat.le_add_right _ _) (ih h.2)

theorem marks_ge {o : Nat} {cells : List (Cell β)} {x : Nat × Nat} (h : x ∈ marks o cells) : o ≤ x.1 := by
  induction cells generalizing o with
  | nil => cases h
  | cons c cells ih =>
    cases c with
    | kept unit => exact Nat.le_of_succ_le (ih h)
    | mark width =>
      rcases List.mem_cons.1 h with rfl | h
      · exact Nat.le_refl _
      · exact Nat.le_trans (Nat.le_add_right _ _) (ih h)

/-- Kept units spell a word exactly where the text goes on with it and no mark is in its way. -/
theorem startsKept_iff {m word : List α} {o : Nat} {cells : List (Cell (α × Option Nat))} (h : Covers m o cells) :
    startsKept Prod.fst word cells = true ↔ word <+: m.drop o ∧ ∀ x ∈ marks o cells, o + word.length ≤ x.1 := by
  induction word generalizing o cells with
  | nil => exact ⟨fun _ => ⟨List.nil_prefix, fun x hx => by simpa using marks_ge hx⟩, fun _ => rfl⟩
  | cons a word ih =>
    cases cells with
    | nil =>
      obtain rfl : o = m.length := h
      simp [startsKept]
    | cons c cells =>
      cases c with
      | mark width =>
        refine ⟨fun hs => by simp [startsKept, Cell.read, List.isPrefixOf] at hs, fun ⟨_, hfar⟩ => ?_⟩
        have := hfar (o, width) (by simp [marks])
        simp only [List.length_cons] at this
        omega
      | kept unit =>
        obtain ⟨hu, _, hr⟩ := h
        have hlt : o < m.length := (List.getElem?_eq_some_iff.1 hu).1
        have hdrop : m.drop o = unit.1 :: m.drop (o + 1) := by
          rw [List.drop_eq_getElem_cons hlt, (List.getElem?_eq_some_iff.1 hu).2]
        have ih' := ih hr
        simp only [startsKept] at ih'
        simp only [startsKept, List.map_cons, Cell.read, List.isPrefixOf, Bool.and_eq_true, beq_iff_eq,
          Option.some.injEq, ih', hdrop, List.cons_prefix_cons, marks, List.length_cons, and_assoc]
        simp only [Nat.add_assoc, Nat.add_comm 1]

/-! ## Taking the occurrences of one word -/

/-- `C` are the occurrences of a word that are taken from a position on: those
that are in no mark's way and overlap none before them. -/
def Greedy (m word : List α) (intervals : List (Nat × Nat)) (start : Nat) (C : Nat → Prop) : Prop :=
  ∀ i, start ≤ i → (C i ↔ word <+: m.drop i ∧
    (∀ x ∈ intervals, x.1 + x.2 ≤ i ∨ i + word.length ≤ x.1) ∧
    ∀ j, start ≤ j → j < i → C j → j + word.length ≤ i)

omit [DecidableEq α] in
/-- The greedy choice goes on where the one before it ended. -/
theorem Greedy.later {m word : List α} {intervals intervals' : List (Nat × Nat)} {start start' : Nat}
    {C : Nat → Prop} (h : Greedy m word intervals start C) (hle : start ≤ start')
    (hi : ∀ i, start' ≤ i → ((∀ x ∈ intervals, x.1 + x.2 ≤ i ∨ i + word.length ≤ x.1) ↔
      ∀ x ∈ intervals', x.1 + x.2 ≤ i ∨ i + word.length ≤ x.1))
    (hC : ∀ j, start ≤ j → j < start' → C j → j + word.length ≤ start') : Greedy m word intervals' start' C := by
  intro i hs
  rw [h i (Nat.le_trans hle hs), hi i hs]
  refine and_congr_right fun _ => and_congr_right fun _ => ⟨fun hj j hsj => hj j (Nat.le_trans hle hsj), ?_⟩
  intro hj j hsj hji hcj
  by_cases hlt : j < start'
  · exact Nat.le_trans (hC j hsj hlt hcj) hs
  · exact hj j (Nat.not_lt.1 hlt) hji hcj

/-- Taking a word marks its greedy occurrences, and keeps every other mark. -/
theorem take_marks {m word : List α} {C : Nat → Prop} {cells : List (Cell (α × Option Nat))} {o skip : Nat}
    (hw : word ≠ []) (hcov : Covers m o cells) (hlen : skip ≤ cells.length)
    (hskip : ∀ c ∈ cells.take skip, c.isKept = true) (hC : Greedy m word (marks o cells) (o + skip) C) :
    Covers m (o + skip) (take Prod.fst word skip cells) ∧
      ∀ x, x ∈ marks (o + skip) (take Prod.fst word skip cells) ↔
        x ∈ marks o cells ∨ x.2 = word.length ∧ o + skip ≤ x.1 ∧ C x.1 := by
  have hpos : 0 < word.length := List.length_pos_iff.2 hw
  induction cells generalizing o skip with
  | nil =>
    obtain rfl : skip = 0 := Nat.le_zero.1 hlen
    obtain rfl : o = m.length := hcov
    refine ⟨by rw [take]; rfl, fun x => ?_⟩
    have hno : ¬(m.length ≤ x.1 ∧ C x.1) := by
      rintro ⟨hle, hc⟩
      have hpre := ((hC x.1 hle).1 hc).1
      rw [List.drop_eq_nil_of_le hle, List.prefix_nil] at hpre
      exact hw hpre
    simp only [take, marks, List.not_mem_nil, false_or, false_iff, Nat.add_zero]
    exact fun h => hno h.2
  | cons c cells ih =>
    cases skip with
    | succ skip =>
      cases c with
      | mark width => simpa [Cell.isKept] using hskip (.mark width) (by simp)
      | kept unit =>
        have hadd : o + (skip + 1) = o + 1 + skip := by omega
        rw [hadd] at hC ⊢
        rw [take]
        exact ih hcov.2.2 (by simpa using hlen) (fun c hc => hskip c (by simp [hc])) hC
    | zero =>
      cases c with
      | mark width =>
        obtain ⟨hwidth, hrest⟩ := hcov
        have hno : ∀ j, o ≤ j → j < o + width → ¬C j := by
          intro j hj hlt hc
          have := ((hC j hj).1 hc).2.1 (o, width) (by simp [marks])
          simp only at this
          omega
        have hstarts : startsKept Prod.fst word (Cell.mark width :: cells) = false := by
          cases word with
          | nil => exact absurd rfl hw
          | cons a word => simp [startsKept, Cell.read, List.isPrefixOf]
        have hC' : Greedy m word (marks (o + width) cells) (o + width + 0) C := by
          refine hC.later (by omega) (fun i hi => ?_) fun j hj hlt hc => absurd hc (hno j hj hlt)
          simp only [marks, List.mem_cons, forall_eq_or_imp, and_iff_right_iff_imp]
          exact fun _ => .inl hi
        obtain ⟨hcov', hmarks⟩ := ih hrest (Nat.zero_le _) (by simp) hC'
        rw [take, if_neg (by simp [hstarts])]
        refine ⟨⟨hwidth, hcov'⟩, fun x => ?_⟩
        simp only [marks, List.mem_cons, Nat.add_zero] at hmarks ⊢
        rw [hmarks, or_assoc]
        refine or_congr_right (or_congr_right (and_congr_right fun _ => ⟨fun h => ⟨by omega, h.2⟩, fun h => ⟨?_, h.2⟩⟩))
        by_contra hlt
        exact hno x.1 h.1 (by omega) h.2
      | kept unit =>
        obtain ⟨hunit, hlabel, hrest⟩ := hcov
        have hcov0 : Covers m o (Cell.kept unit :: cells) := ⟨hunit, hlabel, hrest⟩
        have hiff := @startsKept_iff _ _ m word o (Cell.kept unit :: cells) hcov0
        rw [take]
        cases hs : startsKept Prod.fst word (Cell.kept unit :: cells) with
        | true =>
          obtain ⟨hpre, hfar⟩ := hiff.1 hs
          have hCo : C o := (hC o (Nat.le_refl _)).2
            ⟨hpre, fun x hx => .inr (hfar x hx), fun j hj hlt => absurd hj (Nat.not_le.2 hlt)⟩
          have hadd : o + 1 + (word.length - 1) = o + word.length := by omega
          have hC' : Greedy m word (marks (o + 1) cells) (o + 1 + (word.length - 1)) C := by
            rw [hadd]
            refine hC.later (by omega) (fun i _ => Iff.rfl) fun j hj hlt hc => ?_
            rcases Nat.eq_or_lt_of_le hj with rfl | hoj
            · exact Nat.le_refl _
            · have := ((hC j hj).1 hc).2.2 o (Nat.le_refl _) hoj hCo
              omega
          have hkept := startsKept_kept hs
          have hlen' : word.length ≤ (Cell.kept unit :: cells).length := by
            have := List.IsPrefix.length_le (List.isPrefixOf_iff_prefix.1 hs)
            simpa using this
          obtain ⟨hcov', hmarks⟩ := ih hrest (show word.length - 1 ≤ cells.length by simp at hlen'; omega)
            (fun c hc => hkept c (by
              obtain ⟨a, rest, rfl⟩ := List.exists_cons_of_ne_nil hw
              exact List.mem_cons_of_mem _ hc)) hC'
          rw [hadd] at hcov' hmarks
          rw [if_pos rfl]
          refine ⟨⟨hpos, hcov'⟩, fun x => ?_⟩
          simp only [marks, List.mem_cons, Nat.add_zero]
          rw [hmarks]
          constructor
          · rintro (rfl | h | ⟨h2, h1, hc⟩)
            · exact .inr ⟨rfl, Nat.le_refl _, hCo⟩
            · exact .inl h
            · exact .inr ⟨h2, by omega, hc⟩
          · rintro (h | ⟨h2, h1, hc⟩)
            · exact .inr (.inl h)
            · rcases Nat.eq_or_lt_of_le h1 with h1 | h1
              · exact .inl (Prod.ext h1.symm h2)
              · have := ((hC x.1 (Nat.le_of_lt h1)).1 hc).2.2 o (Nat.le_refl _) h1 hCo
                exact .inr (.inr ⟨h2, this, hc⟩)
        | false =>
          have hno : ¬C o := by
            intro hc
            obtain ⟨hpre, hfar, _⟩ := (hC o (Nat.le_refl _)).1 hc
            have : startsKept Prod.fst word (Cell.kept unit :: cells) = true := by
              refine hiff.2 ⟨hpre, fun x hx => ?_⟩
              have hge : o + 1 ≤ x.1 := marks_ge hx
              rcases hfar x hx with h | h
              · omega
              · exact h
            rw [hs] at this
            cases this
          have hC' : Greedy m word (marks (o + 1) cells) (o + 1 + 0) C := by
            refine hC.later (by omega) (fun i _ => Iff.rfl) fun j hj hlt hc => ?_
            obtain rfl : j = o := by omega
            exact absurd hc hno
          obtain ⟨hcov', hmarks⟩ := ih hrest (Nat.zero_le _) (by simp) hC'
          rw [if_neg (by simp)]
          refine ⟨⟨hunit, hlabel, hcov'⟩, fun x => ?_⟩
          simp only [marks, Nat.add_zero] at hmarks ⊢
          rw [hmarks]
          refine or_congr_right (and_congr_right fun _ => ⟨fun h => ⟨by omega, h.2⟩, fun h => ⟨?_, h.2⟩⟩)
          rcases Nat.eq_or_lt_of_le h.1 with h1 | h1
          · exact absurd (h1 ▸ h.2) hno
          · exact h1

/-! ## Taking the occurrences of several words -/

/-- The `k`-th word. -/
def wordAt (words : List (List α)) (k : Nat) : List α := words.getD k []

/-- A word that is not empty occurs in the text at a position. -/
def Occurs (words : List (List α)) (m : List α) (k i : Nat) : Prop :=
  wordAt words k ≠ [] ∧ wordAt words k <+: m.drop i

/-- The occurrences that are taken, one word after the other and from left to
right: those that overlap none taken before. -/
def Taken (words : List (List α)) (m : List α) (k i : Nat) : Prop :=
  Occurs words m k i ∧ ∀ l j, (h : l < k ∨ l = k ∧ j < i) → Taken words m l j →
    j + (wordAt words l).length ≤ i ∨ i + (wordAt words k).length ≤ j
termination_by (k, i)
decreasing_by
  rcases h with h | ⟨rfl, h⟩
  · exact Prod.Lex.left _ _ h
  · exact Prod.Lex.right _ h

/-- A position in an occurrence of a word. -/
def Covered (words : List (List α)) (m : List α) (p : Nat) : Prop :=
  ∃ k i, Occurs words m k i ∧ i ≤ p ∧ p < i + (wordAt words k).length

/-- A position in an occurrence that is taken. -/
def Hidden (words : List (List α)) (m : List α) (p : Nat) : Prop :=
  ∃ k i, Taken words m k i ∧ i ≤ p ∧ p < i + (wordAt words k).length

omit [DecidableEq α] in
/-- A hidden position is covered. -/
theorem Hidden.covered {words : List (List α)} {m : List α} {p : Nat} (h : Hidden words m p) : Covered words m p := by
  obtain ⟨k, i, ht, hp⟩ := h
  rw [Taken] at ht
  exact ⟨k, i, ht.1, hp⟩

/-- The cells after one word more. -/
def takeWord (cells : List (Cell (α × Option Nat))) (word : List α) : List (Cell (α × Option Nat)) :=
  if word.isEmpty then cells else take Prod.fst word 0 cells

/-- The cells of a text after its words have been replaced. -/
def layout (words : List (List α)) (m : List α) : List (Cell (α × Option Nat)) :=
  words.foldl takeWord ((labelled m).map .kept)

/-- The marks of a layout are the occurrences that are taken. -/
theorem layout_marks (words : List (List α)) (m : List α) :
    Covers m 0 (layout words m) ∧ ∀ x, x ∈ marks 0 (layout words m) ↔
      ∃ k, x.2 = (wordAt words k).length ∧ Taken words m k x.1 := by
  suffices h : ∀ n ≤ words.length, Covers m 0 (layout (words.take n) m) ∧
      ∀ x, x ∈ marks 0 (layout (words.take n) m) ↔
        ∃ k < n, x.2 = (wordAt words k).length ∧ Taken words m k x.1 by
    obtain ⟨hc, hm⟩ := h words.length (Nat.le_refl _)
    rw [List.take_length] at hc hm
    refine ⟨hc, fun x => (hm x).trans ⟨fun ⟨k, _, h⟩ => ⟨k, h⟩, fun ⟨k, hx, ht⟩ => ⟨k, ?_, hx, ht⟩⟩⟩
    rw [Taken] at ht
    by_contra hk
    exact ht.1.1 (by simp [wordAt, List.getD, List.getElem?_eq_none (Nat.not_lt.1 hk)])
  intro n hn
  induction n with
  | zero =>
    refine ⟨covers_labelled m, fun x => ?_⟩
    have hnone : ∀ (o : Nat) (l : Labelled α), marks o (l.map Cell.kept) = [] := by
      intro o l
      induction l generalizing o with
      | nil => rfl
      | cons c l ih => exact ih (o + 1)
    simp [layout, hnone]
  | succ n ih =>
    obtain ⟨hcov, hmarks⟩ := ih (Nat.le_of_succ_le hn)
    have hword : words[n]? = some (wordAt words n) := by
      simp [wordAt, List.getD, List.getElem?_eq_getElem hn]
    have hlayout : layout (words.take (n + 1)) m = takeWord (layout (words.take n) m) (wordAt words n) := by
      simp only [layout, List.take_add_one, hword, Option.toList_some, List.foldl_append, List.foldl_cons,
        List.foldl_nil]
    rw [hlayout]
    unfold takeWord
    split
    · rename_i hempty
      refine ⟨hcov, fun x => (hmarks x).trans ⟨fun ⟨k, hk, h⟩ => ⟨k, by omega, h⟩, fun ⟨k, hk, hx, ht⟩ => ?_⟩⟩
      refine ⟨k, Nat.lt_of_le_of_ne (Nat.le_of_lt_succ hk) ?_, hx, ht⟩
      rintro rfl
      rw [Taken] at ht
      exact ht.1.1 (List.isEmpty_iff.1 hempty)
    · rename_i hne
      have hw : wordAt words n ≠ [] := fun h => hne (List.isEmpty_iff.2 h)
      have hC : Greedy m (wordAt words n) (marks 0 (layout (words.take n) m)) 0 (Taken words m n) := by
        intro i _
        rw [Taken]
        constructor
        · rintro ⟨⟨_, hpre⟩, hbefore⟩
          refine ⟨hpre, fun x hx => ?_, fun j _ hj ht => ?_⟩
          · obtain ⟨k, hk, hx2, ht⟩ := (hmarks x).1 hx
            rw [hx2]
            exact hbefore k x.1 (.inl hk) ht
          · rcases hbefore n j (.inr ⟨rfl, hj⟩) ht with h | h
            · exact h
            · omega
        · rintro ⟨hpre, hfree, hbefore⟩
          refine ⟨⟨hw, hpre⟩, fun l j hlj ht => ?_⟩
          rcases hlj with hl | ⟨rfl, hj⟩
          · exact hfree (j, (wordAt words l).length) ((hmarks _).2 ⟨l, hl, rfl, ht⟩)
          · exact .inl (hbefore j (Nat.zero_le _) hj ht)
      obtain ⟨hcov', hmarks'⟩ := take_marks hw hcov (Nat.zero_le _) (by simp) hC
      refine ⟨hcov', fun x => (hmarks' x).trans ?_⟩
      rw [hmarks]
      constructor
      · rintro (⟨k, hk, h⟩ | ⟨hx, _, ht⟩)
        · exact ⟨k, by omega, h⟩
        · exact ⟨n, Nat.lt_succ_self n, hx, ht⟩
      · rintro ⟨k, hk, hx, ht⟩
        rcases Nat.eq_or_lt_of_le (Nat.le_of_lt_succ hk) with rfl | hk
        · exact .inr ⟨hx, Nat.zero_le _, ht⟩
        · exact .inl ⟨k, hk, hx, ht⟩

omit [DecidableEq α] in
/-- The units of a covering list of cells are those in no mark, in order. -/
theorem labels_eq {m : List α} {o : Nat} {cells : List (Cell (α × Option Nat))} (h : Covers m o cells) :
    labels cells = (List.range' o (m.length - o)).filter fun p => !within (marks o cells) p := by
  induction cells generalizing o with
  | nil =>
    obtain rfl : o = m.length := h
    simp [labels]
  | cons c cells ih =>
    cases c with
    | kept unit =>
      obtain ⟨hu, hl, hr⟩ := h
      have hlt : o < m.length := (List.getElem?_eq_some_iff.1 hu).1
      have hsplit : m.length - o = m.length - (o + 1) + 1 := by omega
      have hfree : within (marks (o + 1) cells) o = false := by
        simp only [within, List.any_eq_false, Bool.and_eq_true, decide_eq_true_eq, not_and, Nat.not_lt]
        intro x hx hle
        have := marks_ge hx
        omega
      rw [hsplit, List.range'_succ, List.filter_cons, if_pos (by simp [marks, hfree])]
      have hlabels : labels (.kept unit :: cells) = o :: labels cells := by simp [labels, hl]
      rw [hlabels, ih hr]
      rfl
    | mark width =>
      obtain ⟨hw, hr⟩ := h
      have hle := covers_le hr
      have hsplit : m.length - o = width + (m.length - (o + width)) := by omega
      have hlabels : labels (.mark width :: cells) = labels cells := by simp [labels]
      rw [hlabels, ih hr, hsplit, ← List.range'_append_1, List.filter_append]
      have hhidden : (List.range' o width).filter (fun p => !within (marks o (.mark width :: cells)) p) = [] := by
        refine List.filter_eq_nil_iff.2 fun p hp => ?_
        have := List.mem_range'_1.1 hp
        simp [within, marks, this]
      rw [hhidden, List.nil_append]
      refine List.filter_congr fun p hp => ?_
      have := (List.mem_range'_1.1 hp).1
      have hout : decide (p < o + width) = false := by simpa using this
      simp [within, marks, hout]

/-- The labels of a layout are the positions that are not hidden, in order. -/
theorem labels_layout (words : List (List α)) (m : List α) (p : Nat) :
    p ∈ labels (layout words m) ↔ p < m.length ∧ ¬Hidden words m p := by
  obtain ⟨hcov, hmarks⟩ := layout_marks words m
  rw [labels_eq hcov]
  simp only [Nat.sub_zero, List.mem_filter, List.mem_range'_1, Nat.zero_le, true_and, Nat.zero_add,
    Bool.not_eq_true', and_congr_right_iff]
  intro _
  rw [← Bool.not_eq_true, not_iff_not]
  simp only [within, List.any_eq_true, Bool.and_eq_true, decide_eq_true_eq, Hidden]
  constructor
  · rintro ⟨x, hx, hp⟩
    obtain ⟨k, hx2, ht⟩ := (hmarks x).1 hx
    exact ⟨k, x.1, ht, hx2 ▸ hp⟩
  · rintro ⟨k, i, ht, hp⟩
    exact ⟨(i, (wordAt words k).length), (hmarks _).2 ⟨k, rfl, ht⟩, hp⟩

/-! ## Replacing several words -/

/-- A text with its words replaced, one after the other. -/
def replaceWords (mark : List α) (words : List (List α)) (m : List α) : List α :=
  words.foldl (fun text word => if word.isEmpty then text else replaceAll id mark word text) m

/-- The units of a mark; they stem from no position. -/
def unlabelled (mark : List α) : Labelled α := mark.map (·, none)

/-- The same, with the positions the units stem from. -/
def traced (mark : List α) (words : List (List α)) (m : List α) : Labelled α :=
  words.foldl (fun text word => if word.isEmpty then text else replaceAll Prod.fst (unlabelled mark) word text)
    (labelled m)

/-- No word, when its turn comes, occurs in a text whose marks it would reach into. -/
def apart (mark : List α) : List (List α) → List (Cell (α × Option Nat)) → Bool
  | [], _ => true
  | word :: words, cells =>
    (word.isEmpty || clear Prod.fst (unlabelled mark) word cells) && apart mark words (takeWord cells word)

omit [DecidableEq α] in
theorem map_labelled (m : List α) : (labelled m).map Prod.fst = m := by
  simp only [labelled, List.map_map]
  exact List.zipIdx_map_fst 0 m

/-- The labels follow the text that is computed. -/
theorem map_traced (mark : List α) (words : List (List α)) (m : List α) :
    (traced mark words m).map Prod.fst = replaceWords mark words m := by
  have hmark : (unlabelled mark).map Prod.fst = mark := by
    simp only [unlabelled, List.map_map]
    exact List.map_id mark
  suffices h : ∀ t : Labelled α, (words.foldl (fun text word => if word.isEmpty then text
      else replaceAll Prod.fst (unlabelled mark) word text) t).map Prod.fst =
      replaceWords mark words (t.map Prod.fst) by
    rw [traced, h, map_labelled]
  intro t
  induction words generalizing t with
  | nil => rfl
  | cons word words ih =>
    rw [List.foldl_cons, ih]
    simp only [replaceWords, List.foldl_cons]
    split
    · rfl
    · have hid : ∀ x : α × Option Nat, id x.1 = x.1 := fun _ => rfl
      rw [map_replaceAll hid, hmark]

/-- While the words stay clear of the marks, the text is that of the layout. -/
theorem traced_layout {mark : List α} {words : List (List α)} {m : List α}
    (h : apart mark words ((labelled m).map .kept) = true) :
    traced mark words m = text (unlabelled mark) (layout words m) := by
  suffices hs : ∀ cells : List (Cell (α × Option Nat)), apart mark words cells = true →
      words.foldl (fun text word => if word.isEmpty then text
        else replaceAll Prod.fst (unlabelled mark) word text) (text (unlabelled mark) cells) =
      text (unlabelled mark) (words.foldl takeWord cells) by
    have hkept : text (unlabelled mark) ((labelled m).map .kept) = labelled m := by
      simp [text, List.flatMap_map, Cell.text]
    rw [traced, layout, ← hs _ h, hkept]
  clear h
  intro cells h
  induction words generalizing cells with
  | nil => rfl
  | cons word words ih =>
    simp only [apart, Bool.and_eq_true, Bool.or_eq_true] at h
    rw [List.foldl_cons, List.foldl_cons, ← ih _ h.2]
    congr 1
    unfold takeWord
    split
    · rfl
    · rename_i hne
      exact text_take (fun hw => hne (List.isEmpty_iff.2 hw)) (h.1.resolve_left hne)

/-! ## Texts of marks and units -/

/-- The text of some pieces: a mark, or the unit of a position. -/
def spell (mark : List α) (m : List α) (pieces : List (Option Nat)) : Labelled α :=
  pieces.flatMap fun
    | none => unlabelled mark
    | some p => m[p]?.toList.map (·, some p)

/-- The positions the units of a text stem from. -/
def origins (t : Labelled α) : List Nat := t.filterMap Prod.snd

/-- The units of a text that stem from a position. -/
def survivors (t : Labelled α) : List α := (t.filter (·.2.isSome)).map Prod.fst

omit [DecidableEq α] in
theorem origins_spell (mark : List α) {m : List α} {pieces : List (Option Nat)}
    (h : ∀ p, some p ∈ pieces → p < m.length) : origins (spell mark m pieces) = pieces.filterMap id := by
  induction pieces with
  | nil => rfl
  | cons piece pieces ih =>
    have ih' := ih fun p hp => h p (List.mem_cons_of_mem _ hp)
    unfold origins spell at ih'
    unfold origins spell
    rw [List.flatMap_cons, List.filterMap_append, ih']
    cases piece with
    | none => simp [unlabelled]
    | some p =>
      have hp := h p (by simp)
      simp [List.getElem?_eq_getElem hp]

omit [DecidableEq α] in
theorem survivors_spell (mark : List α) (m : List α) (pieces : List (Option Nat)) :
    survivors (spell mark m pieces) = (pieces.filterMap id).filterMap (m[·]?) := by
  induction pieces with
  | nil => rfl
  | cons piece pieces ih =>
    unfold survivors spell at ih
    unfold survivors spell
    rw [List.flatMap_cons, List.filter_append, List.map_append, ih]
    cases piece with
    | none => simp [unlabelled]
    | some p => cases hp : m[p]? <;> simp [hp]

/-- The pieces of a layout. -/
def pieces (cells : List (Cell (α × Option Nat))) : List (Option Nat) :=
  cells.map fun
    | .kept unit => unit.2
    | .mark _ => none

omit [DecidableEq α] in
theorem pieces_labels (cells : List (Cell (α × Option Nat))) : (pieces cells).filterMap id = labels cells := by
  simp only [pieces, labels, List.filterMap_map]
  exact List.filterMap_congr fun c _ => by cases c <;> rfl

omit [DecidableEq α] in
/-- A layout is the text of its pieces. -/
theorem spell_pieces (mark : List α) {m : List α} {o : Nat} {cells : List (Cell (α × Option Nat))}
    (h : Covers m o cells) : spell mark m (pieces cells) = text (unlabelled mark) cells := by
  induction cells generalizing o with
  | nil => rfl
  | cons c cells ih =>
    cases c with
    | kept unit =>
      obtain ⟨hu, hl, hr⟩ := h
      have ih' := ih hr
      simp only [spell, pieces, List.map_cons, List.flatMap_cons, hl, hu, Option.toList_some] at ih' ⊢
      rw [ih', text_kept, ← hl]
      rfl
    | mark width =>
      have ih' := ih h.2
      simp only [spell, pieces, List.map_cons, List.flatMap_cons] at ih' ⊢
      rw [ih', text_mark]

end Replacing
