import Leitwerk.Lib.JsString
import Leitwerk.Lib.Lines
import Mathlib.Data.List.DropRight
/-!
# The tail of a text that is kept for a preview

`reasoningPreviewTail` drops the blank lines of a text and keeps its last 1,024
units. Taking the tail of a tail and a chunk is taking the tail of the whole
text, unless the tail has lost something the chunk turns out to need: the
indentation of a line that was blank so far, or units of a line whose rest was
blank. `Kept` is when it has not.
-/

namespace Leitwerk.Protocol

def newline : UInt16 := 0x0a

/-- `text.replace(/\r\n?/g, "\n")`. -/
def normalizeNewlines : JsString → JsString
  | [] => []
  | [u] => [if u = 0x0d then newline else u]
  | u :: v :: s =>
    if u = 0x0d then if v = newline then newline :: normalizeNewlines s else newline :: normalizeNewlines (v :: s)
    else u :: normalizeNewlines (v :: s)

/-- `line.trim() === ""`. -/
def isBlank (line : JsString) : Bool := line.trim = []

/-- The lines that are not blank. -/
def nonBlank (lines : List JsString) : List JsString := lines.filter fun line => !isBlank line

/-- A newline, when `/\n[^\S\n]*$/` matches. -/
def separator (normalized : JsString) : JsString :=
  if (normalized.rdropWhile fun u => JsString.isSpace u && u != newline).getLast? = some newline then [newline] else []

/-- The lines that are not blank, and the separator. -/
def compactLines (normalized : JsString) : JsString :=
  Lines.join newline (nonBlank (Lines.split newline normalized)) ++ separator normalized

/-- `REASONING_PREVIEW_MAX_CHARS`. -/
@[irreducible] def maxChars : Nat := 1024

/-- `reasoningPreviewTail`. -/
def reasoningPreviewTail (text : JsString) : JsString := (compactLines (normalizeNewlines text)).rtake maxChars

theorem reasoningPreviewTail_eq (text : JsString) :
    reasoningPreviewTail text = (compactLines (normalizeNewlines text)).rtake maxChars := by
  rw [reasoningPreviewTail]

/-! ## The condition -/

/-- The line a text ends with. -/
def lastLine (normalized : JsString) : JsString := (Lines.split newline normalized).getLast (Lines.split_ne_nil _ _)

/-- The line a text begins with. -/
def firstLine (normalized : JsString) : JsString := (Lines.split newline normalized).head (Lines.split_ne_nil _ _)

/-- What a chunk needs of the text before it has not been dropped: the chunk does
not continue a line that was blank but not empty, and the part of a line with
which a cut tail begins is not blank; or what follows fills the preview. -/
def Kept (text chunk : JsString) : Prop :=
  ((isBlank (lastLine (normalizeNewlines text)) ∧ lastLine (normalizeNewlines text) ≠ [] →
      isBlank (firstLine (normalizeNewlines chunk))) ∨ maxChars ≤ (compactLines (normalizeNewlines chunk)).length) ∧
    (maxChars < (compactLines (normalizeNewlines text)).length →
      isBlank (firstLine (reasoningPreviewTail text ++ normalizeNewlines chunk)) = false ∨
        maxChars ≤ (compactLines (reasoningPreviewTail text ++ normalizeNewlines chunk)).length)

/-! ## Blank lines -/

theorem isBlank_iff {line : JsString} : isBlank line ↔ ∀ u ∈ line, JsString.isSpace u := by
  unfold isBlank JsString.trim
  rw [decide_eq_true_eq, List.rdropWhile_eq_nil_iff]
  constructor
  · intro h u hu
    by_contra hs
    have hdrop : u ∈ line.dropWhile JsString.isSpace := by
      rw [← List.takeWhile_append_dropWhile (p := JsString.isSpace) (l := line)] at hu
      rcases List.mem_append.1 hu with hu | hu
      · exact absurd (List.mem_takeWhile_imp hu) hs
      · exact hu
    exact hs (h u hdrop)
  · intro h u hu
    exact h u ((List.dropWhile_suffix _).mem hu)

theorem isBlank_append {a b : JsString} : isBlank (a ++ b) = (isBlank a && isBlank b) := by
  rw [Bool.eq_iff_iff, Bool.and_eq_true, isBlank_iff, isBlank_iff, isBlank_iff]
  simp only [List.mem_append, or_imp, forall_and]

theorem nonBlank_append (P Q : List JsString) : nonBlank (P ++ Q) = nonBlank P ++ nonBlank Q := List.filter_append ..

theorem nonBlank_of_blank {line : JsString} (h : isBlank line) (Q : List JsString) : nonBlank (line :: Q) = nonBlank Q := by
  simp [nonBlank, h]

theorem nonBlank_of_not {line : JsString} (h : isBlank line = false) (Q : List JsString) :
    nonBlank (line :: Q) = line :: nonBlank Q := by
  simp [nonBlank, h]

theorem rdropWhile_append_of_all {p : UInt16 → Bool} (b : JsString) {q : JsString} (hq : ∀ u ∈ q, p u = true) :
    (b ++ q).rdropWhile p = b.rdropWhile p := by
  unfold List.rdropWhile
  have hnil : q.reverse.dropWhile p = [] := by
    rw [List.dropWhile_eq_nil_iff]
    intro u hu
    exact hq u (List.mem_reverse.1 hu)
  rw [List.reverse_append, List.dropWhile_append, hnil]
  simp

theorem rdropWhile_append_of_not {p : UInt16 → Bool} (b : JsString) {q : JsString} (hq : ¬ ∀ u ∈ q, p u = true) :
    (b ++ q).rdropWhile p = b ++ q.rdropWhile p := by
  unfold List.rdropWhile
  have hne : q.reverse.dropWhile p ≠ [] := by
    intro hnil
    rw [List.dropWhile_eq_nil_iff] at hnil
    exact hq fun u hu => hnil u (List.mem_reverse.2 hu)
  rw [List.reverse_append, List.dropWhile_append, if_neg (by simpa using hne)]
  simp

/-- The separator stands for a last line that is blank. -/
theorem separator_eq {s q : JsString} {A : List JsString} (hs : Lines.split newline s = A ++ [q]) :
    separator s = if A ≠ [] ∧ isBlank q then [newline] else [] := by
  have hq : newline ∉ q := Lines.notMem_of_split newline (by rw [hs]; simp)
  have hjoin : s = Lines.join newline (A ++ [q]) := by rw [← hs, Lines.join_split]
  have hall : (∀ u ∈ q, (JsString.isSpace u && u != newline) = true) ↔ isBlank q := by
    rw [isBlank_iff]
    constructor
    · intro h u hu
      exact (Bool.and_eq_true _ _ ▸ h u hu).1
    · intro h u hu
      have hne : u ≠ newline := fun heq => hq (heq ▸ hu)
      simp [h u hu, hne]
  -- what is left of the last line does not end in a newline
  have hnot : ∀ b : JsString, (b = [] ∨ isBlank q = false) →
      ((b ++ q).rdropWhile fun u => JsString.isSpace u && u != newline).getLast? ≠ some newline := by
    intro b hb hmem
    by_cases hblank : isBlank q
    · rw [rdropWhile_append_of_all b (hall.2 hblank), hb.resolve_right (by simp [hblank])] at hmem
      simp at hmem
    · have hne : q.rdropWhile (fun u => JsString.isSpace u && u != newline) ≠ [] := by
        rw [ne_eq, List.rdropWhile_eq_nil_iff, hall]
        exact hblank
      rw [rdropWhile_append_of_not b (fun h => hblank (hall.1 h)), List.getLast?_append_of_ne_nil _ hne] at hmem
      exact hq ((List.rdropWhile_prefix _ q).subset (List.mem_of_getLast? hmem))
  unfold separator
  rcases eq_or_ne A [] with rfl | hA
  · have hsq : s = [] ++ q := by simpa [Lines.join] using hjoin
    rw [hsq, if_neg (hnot [] (.inl rfl)), if_neg (by simp)]
  · rw [hjoin, Lines.join_concat newline hA, ← List.singleton_append, ← List.append_assoc]
    cases hblank : isBlank q with
    | true =>
      rw [rdropWhile_append_of_all _ (hall.2 hblank), List.rdropWhile_concat_neg _ _ _ (by simp)]
      simp [hA]
    | false => rw [if_neg (hnot _ (.inr hblank)), if_neg (by simp)]

/-! ## The lines that are kept -/

theorem compactLines_eq {s q : JsString} {A : List JsString} (hs : Lines.split newline s = A ++ [q]) :
    compactLines s = Lines.join newline (nonBlank (A ++ [q])) ++ if A ≠ [] ∧ isBlank q then [newline] else [] := by
  unfold compactLines
  rw [separator_eq hs, hs]

theorem nonBlank_idem (ls : List JsString) : nonBlank (nonBlank ls) = nonBlank ls := by
  simp [nonBlank]

/-- The lines of a text without its blank lines. A last line that is blank is left empty. -/
theorem lines_compactLines {s q : JsString} {A : List JsString} (hs : Lines.split newline s = A ++ [q]) :
    ∃ B, Lines.split newline (compactLines s) = B ++ [if isBlank q then [] else q] ∧ nonBlank B = nonBlank A ∧
      (isBlank q → (B = [] ↔ A = [])) ∧ ((∀ l ∈ B, isBlank l = false) ∨ compactLines s = [newline]) := by
  have hkept : ∀ l ∈ nonBlank A, isBlank l = false := by
    intro l hl
    simpa using List.of_mem_filter hl
  have hmem : ∀ l ∈ nonBlank (A ++ [q]), newline ∉ l := by
    intro l hl
    rw [← hs] at hl
    exact Lines.notMem_of_split newline (List.mem_of_mem_filter hl)
  rw [compactLines_eq hs]
  cases hblank : isBlank q with
  | false =>
    have hlines : nonBlank (A ++ [q]) = nonBlank A ++ [q] := by
      rw [nonBlank_append, nonBlank_of_not hblank]
      rfl
    refine ⟨nonBlank A, ?_, nonBlank_idem A, by simp, .inl hkept⟩
    rw [if_neg (by simp), List.append_nil, Lines.split_join newline (by simp [hlines]) hmem, hlines]
    rfl
  | true =>
    have hlines : nonBlank (A ++ [q]) = nonBlank A := by
      rw [nonBlank_append, nonBlank_of_blank hblank]
      exact List.append_nil _
    rw [hlines] at hmem ⊢
    rcases eq_or_ne A [] with rfl | hA
    · exact ⟨[], by simp [nonBlank, Lines.join, Lines.split], rfl, by simp, .inl (by simp)⟩
    · refine ⟨Lines.split newline (Lines.join newline (nonBlank A)), ?_, ?_, ?_, ?_⟩
      · rw [if_pos ⟨hA, rfl⟩, Lines.split_append_nl]
        rfl
      · rcases eq_or_ne (nonBlank A) [] with hnil | hne
        · rw [hnil]
          rfl
        · rw [Lines.split_join newline hne hmem, nonBlank_idem]
      · simp [hA, Lines.split_ne_nil]
      · rcases eq_or_ne (nonBlank A) [] with hnil | hne
        · right
          rw [hnil, if_pos ⟨hA, rfl⟩]
          rfl
        · left
          rwa [Lines.split_join newline hne hmem]

/-- Dropping the blank lines of the text before a chunk first changes nothing,
unless the chunk continues a line that was blank but not empty. -/
theorem compactLines_append {s q t t₁ : JsString} {A T : List JsString} (hs : Lines.split newline s = A ++ [q])
    (ht : Lines.split newline t = t₁ :: T) (h : isBlank q ∧ q ≠ [] → isBlank t₁) :
    compactLines (compactLines s ++ t) = compactLines (s ++ t) := by
  obtain ⟨B, hB, hBA, hnil, -⟩ := lines_compactLines hs
  have hleft := Lines.split_append newline hB ht
  have hright := Lines.split_append newline hs ht
  -- the line that is continued is kept, or blank, in both
  have hline : isBlank ((if isBlank q then [] else q) ++ t₁) = isBlank (q ++ t₁) ∧
      nonBlank [(if isBlank q then [] else q) ++ t₁] = nonBlank [q ++ t₁] := by
    cases hblank : isBlank q with
    | false => exact ⟨rfl, rfl⟩
    | true =>
      rcases eq_or_ne q [] with rfl | hq
      · exact ⟨rfl, rfl⟩
      · have ht₁ := h ⟨hblank, hq⟩
        simp [isBlank_append, nonBlank, hblank, ht₁]
  have hsplit : ∀ x, compactLines x = Lines.join newline (nonBlank (Lines.split newline x)) ++ separator x := fun _ => rfl
  rw [hsplit (compactLines s ++ t), hsplit (s ++ t)]
  congr 1
  · rw [hleft, hright, nonBlank_append, nonBlank_append, hBA, ← List.singleton_append, ← List.singleton_append (l := T),
      nonBlank_append, nonBlank_append, hline.2]
  · rcases T.eq_nil_or_concat with rfl | ⟨T, l, rfl⟩
    · rw [separator_eq hleft, separator_eq hright, hline.1]
      have hiff : (B ≠ [] ∧ isBlank (q ++ t₁) = true) ↔ (A ≠ [] ∧ isBlank (q ++ t₁) = true) := by
        constructor <;> rintro ⟨hne, hb⟩ <;> refine ⟨?_, hb⟩ <;>
          rw [isBlank_append, Bool.and_eq_true] at hb <;> simpa [hnil hb.1] using hne
      simp only [hiff]
    · rw [List.concat_eq_append, ← List.cons_append, ← List.append_assoc] at hleft hright
      rw [separator_eq hleft, separator_eq hright]
      simp

/-- What is kept of a text ends what is kept of one that it ends. -/
theorem compactLines_suffix {s s' g f : JsString} {X R : List JsString} (hs : Lines.split newline s = f :: R)
    (hs' : Lines.split newline s' = X ++ (g ++ f) :: R) : compactLines s <:+ compactLines s' := by
  have hjoin : Lines.join newline (nonBlank (f :: R)) <:+ Lines.join newline (nonBlank (X ++ (g ++ f) :: R)) := by
    rw [nonBlank_append]
    cases hf : isBlank f with
    | true =>
      rw [nonBlank_of_blank hf, ← List.singleton_append, nonBlank_append, ← List.append_assoc]
      exact Lines.join_suffix _ _ _
    | false =>
      rw [nonBlank_of_not hf, nonBlank_of_not (by rw [isBlank_append, hf, Bool.and_false])]
      exact Lines.join_suffix_of_end _ _ _ _ _
  rcases R.eq_nil_or_concat with rfl | ⟨R, l, rfl⟩
  · rw [compactLines_eq (A := []) hs]
    cases hf : isBlank f with
    | true => simp [nonBlank, hf, Lines.join]
    | false =>
      rw [compactLines_eq (A := X) (q := g ++ f) hs', if_neg (by simp), if_neg (by simp [isBlank_append, hf]),
        List.append_nil, List.append_nil]
      exact hjoin
  · rw [List.concat_eq_append] at hs hs' hjoin
    rw [← List.cons_append] at hs
    rw [← List.cons_append, ← List.append_assoc] at hs'
    rw [compactLines_eq hs, compactLines_eq hs']
    have hsep : (if f :: R ≠ [] ∧ isBlank l = true then [newline] else []) =
        if X ++ (g ++ f) :: R ≠ [] ∧ isBlank l = true then [newline] else [] := by simp
    rw [hsep]
    obtain ⟨w, hw⟩ := hjoin
    refine ⟨w, ?_⟩
    rw [← List.append_assoc, List.cons_append, hw]
    simp

/-- A text whose lines are not blank, with what is appended to it, is kept. -/
theorem prefix_compactLines {a t q t₁ : JsString} {A T : List JsString} (ha : Lines.split newline a = A ++ [q])
    (ht : Lines.split newline t = t₁ :: T) (hA : ∀ l ∈ A, isBlank l = false) (hq : isBlank (q ++ t₁) = false ∨ q = []) :
    a <+: compactLines (a ++ t) := by
  have hjoin : a = Lines.join newline (A ++ [q]) := by rw [← ha, Lines.join_split]
  have hlines := Lines.split_append newline ha ht
  have hkept : nonBlank A = A := by
    unfold nonBlank
    rw [List.filter_eq_self]
    intro l hl
    simp [hA l hl]
  have hsplit : compactLines (a ++ t) = Lines.join newline (nonBlank (A ++ (q ++ t₁) :: T)) ++ separator (a ++ t) := by
    rw [← hlines]
    rfl
  rw [hsplit, nonBlank_append, hkept]
  generalize hsep : separator (a ++ t) = sep
  cases hblank : isBlank (q ++ t₁) with
  | false =>
    rw [nonBlank_of_not hblank, hjoin]
    rcases eq_or_ne A [] with rfl | hne
    · simp [Lines.join]
    · rw [Lines.join_concat newline hne, Lines.join_append newline hne]
      simp
  | true =>
    obtain rfl := hq.resolve_left (by simp [hblank])
    rw [nonBlank_of_blank hblank, hjoin]
    rcases eq_or_ne A [] with rfl | hne
    · simp [Lines.join]
    · rw [Lines.join_concat newline hne, Lines.join_append newline hne]
      rcases hrest : nonBlank T with _ | ⟨l, ls⟩
      · -- every line of the chunk is blank, and the separator stands for them
        have hlast : ∃ X l, Lines.split newline (a ++ t) = X ++ [l] ∧ X ≠ [] ∧ isBlank l := by
          rcases T.eq_nil_or_concat with rfl | ⟨T, l, rfl⟩
          · exact ⟨A, _, hlines, hne, hblank⟩
          · rw [List.concat_eq_append, ← List.cons_append, ← List.append_assoc] at hlines
            refine ⟨_, l, hlines, by simp, ?_⟩
            by_contra hl
            have : l ∈ nonBlank (T.concat l) := List.mem_filter.2 ⟨by simp, by simpa using hl⟩
            rw [hrest] at this
            cases this
        obtain ⟨X, l, hX, hXne, hl⟩ := hlast
        rw [separator_eq hX, if_pos ⟨hXne, hl⟩] at hsep
        rw [← hsep]
        simp
      · simp

/-! ## Newlines -/

theorem normalizeNewlines_cons {u : UInt16} (hu : u ≠ 0x0d) (s : JsString) :
    normalizeNewlines (u :: s) = u :: normalizeNewlines s := by
  cases s <;> simp [normalizeNewlines, hu]

theorem normalizeNewlines_append_of_notMem {a : JsString} (h : (0x0d : UInt16) ∉ a) (b : JsString) :
    normalizeNewlines (a ++ b) = a ++ normalizeNewlines b := by
  induction a with
  | nil => rfl
  | cons u a ih =>
    rw [List.mem_cons, not_or] at h
    rw [List.cons_append, normalizeNewlines_cons (Ne.symm h.1), ih h.2]
    rfl

theorem notMem_normalizeNewlines (a : JsString) : (0x0d : UInt16) ∉ normalizeNewlines a := by
  fun_induction normalizeNewlines a with
  | case1 => simp
  | case2 u =>
    by_cases hu : u = 0x0d
    · simp [hu, newline]
    · simp [hu, Ne.symm hu]
  | case3 s ih => simp [ih, newline]
  | case4 v s hv ih => simp [ih, newline]
  | case5 u v s hu ih => simp [ih, Ne.symm hu]

/-- A newline that is cut in two counts once where its parts meet. -/
theorem normalizeNewlines_append (a b : JsString) :
    normalizeNewlines (a ++ b) = normalizeNewlines a ++ normalizeNewlines b ∨
      ∃ c d, normalizeNewlines a = c ++ [newline] ∧ normalizeNewlines b = newline :: d ∧
        normalizeNewlines (a ++ b) = normalizeNewlines a ++ d := by
  fun_induction normalizeNewlines a with
  | case1 => exact .inl rfl
  | case2 u =>
    rcases b with _ | ⟨v, b⟩
    · left
      simp [normalizeNewlines]
    · by_cases hu : u = 0x0d
      · by_cases hv : v = newline
        · right
          refine ⟨[], normalizeNewlines b, by simp [hu], ?_, ?_⟩
          · rw [hv, normalizeNewlines_cons (by decide)]
          · simp [normalizeNewlines, hu, hv]
        · left
          simp [normalizeNewlines, hu, hv]
      · left
        simp [normalizeNewlines, hu]
  | case3 s ih =>
    have hstep : normalizeNewlines (0x0d :: newline :: s ++ b) = newline :: normalizeNewlines (s ++ b) := by
      simp [normalizeNewlines]
    rw [hstep]
    rcases ih with ih | ⟨c, d, hc, hd, ih⟩
    · left
      rw [ih]
      rfl
    · right
      exact ⟨newline :: c, d, by rw [hc]; rfl, hd, by rw [ih]; rfl⟩
  | case4 v s hv ih =>
    have hstep : normalizeNewlines (0x0d :: v :: s ++ b) = newline :: normalizeNewlines (v :: s ++ b) := by
      simp [normalizeNewlines, hv]
    rw [hstep]
    rcases ih with ih | ⟨c, d, hc, hd, ih⟩
    · left
      rw [ih]
      rfl
    · right
      exact ⟨newline :: c, d, by rw [hc]; rfl, hd, by rw [ih]; rfl⟩
  | case5 u v s hu ih =>
    have hstep : normalizeNewlines (u :: v :: s ++ b) = u :: normalizeNewlines (v :: s ++ b) :=
      normalizeNewlines_cons hu _
    rw [hstep]
    rcases ih with ih | ⟨c, d, hc, hd, ih⟩
    · left
      rw [ih]
      rfl
    · right
      exact ⟨u :: c, d, by rw [hc]; rfl, hd, by rw [ih]; rfl⟩

theorem compactLines_normalize_append (a b : JsString) :
    compactLines (normalizeNewlines (a ++ b)) = compactLines (normalizeNewlines a ++ normalizeNewlines b) := by
  rcases normalizeNewlines_append a b with h | ⟨c, d, hc, hd, h⟩
  · rw [h]
  · obtain ⟨A, q, hA⟩ := Lines.split_concat newline c
    obtain ⟨t, T, hT⟩ := Lines.split_cons newline d
    have hac : Lines.split newline (c ++ [newline]) = (A ++ [q]) ++ [[]] := by
      rw [← hA, Lines.split_append_nl]
      rfl
    have hbd : Lines.split newline (newline :: d) = [] :: t :: T := by
      rw [← hT]
      rfl
    have hone := Lines.split_append newline hac hT
    have htwo := Lines.split_append newline hac hbd
    have hsplit : ∀ x, compactLines x = Lines.join newline (nonBlank (Lines.split newline x)) ++ separator x := fun _ => rfl
    rw [h, hc, hd, hsplit (c ++ [newline] ++ d), hsplit (c ++ [newline] ++ newline :: d), hone, htwo]
    congr 1
    · rw [nonBlank_append, nonBlank_append (A ++ [q])]
      congr 2
    · rcases T.eq_nil_or_concat with rfl | ⟨T, l, rfl⟩
      · rw [separator_eq hone, separator_eq (A := A ++ [q] ++ [[]]) (q := t) (by rw [htwo]; simp)]
        simp
      · rw [List.concat_eq_append, ← List.cons_append, ← List.append_assoc] at hone
        rw [separator_eq hone, separator_eq (A := A ++ [q] ++ [] :: t :: T) (q := l) (by rw [htwo]; simp)]
        simp

theorem mem_of_compactLines {s : JsString} {u : UInt16} (h : u ∈ compactLines s) (hu : u ≠ newline) : u ∈ s := by
  rcases List.mem_append.1 h with h | h
  · rcases Lines.mem_join newline h with heq | ⟨l, hl, hul⟩
    · exact absurd heq hu
    · exact Lines.mem_of_mem_split newline (List.mem_of_mem_filter hl) hul
  · unfold separator at h
    split at h
    · exact absurd (List.mem_singleton.1 h) hu
    · cases h

/-! ## The tail of a tail -/

theorem rtake_suffix (s : JsString) (n : Nat) : s.rtake n <:+ s := List.drop_suffix _ _

/-- The tail is that of any end which is long enough. -/
theorem rtake_of_suffix {s s' : JsString} (h : s <:+ s') {n : Nat} (hn : n ≤ s.length) : s.rtake n = s'.rtake n := by
  obtain ⟨w, rfl⟩ := h
  have hw : w.drop ((w ++ s).length - n) = [] := by
    rw [List.length_append]
    exact List.drop_eq_nil_of_le (by omega)
  unfold List.rtake
  rw [List.drop_append, hw, List.nil_append, List.length_append]
  congr 1
  omega

/-- A cut tail is filled by what follows unless it begins with a blank rest. -/
theorem filled_of_firstLine {s t : JsString} (hcut : maxChars < (compactLines s).length)
    (hfirst : isBlank (firstLine ((compactLines s).rtake maxChars ++ t)) = false) :
    maxChars ≤ (compactLines ((compactLines s).rtake maxChars ++ t)).length := by
  obtain ⟨w, hw⟩ := rtake_suffix (compactLines s) maxChars
  have hlen : ((compactLines s).rtake maxChars).length = maxChars := by
    unfold List.rtake
    rw [List.length_drop]
    omega
  generalize (compactLines s).rtake maxChars = S at hw hlen hfirst ⊢
  obtain ⟨A, q, hs⟩ := Lines.split_concat newline s
  obtain ⟨B, hB, -, -, hkept⟩ := lines_compactLines hs
  obtain ⟨D, g, hD⟩ := Lines.split_concat newline w
  obtain ⟨f, R, hS⟩ := Lines.split_cons newline S
  obtain ⟨t₁, T, ht⟩ := Lines.split_cons newline t
  have hlines := Lines.split_append newline hD hS
  rw [hw, hB] at hlines
  suffices h : S <+: compactLines (S ++ t) by
    rw [← hlen]
    exact h.length_le
  rcases R.eq_nil_or_concat with rfl | ⟨R, r, rfl⟩
  · -- the tail is part of one line
    apply prefix_compactLines (A := []) hS ht (by simp) (.inl ?_)
    have hfl : Lines.split newline (S ++ t) = [] ++ (f ++ t₁) :: T := Lines.split_append newline hS ht
    simpa only [firstLine, hfl, List.nil_append, List.head_cons] using hfirst
  · rw [List.concat_eq_append] at hS hlines
    have hfl := Lines.split_append newline (A := f :: R) hS ht
    have hf : isBlank f = false := by
      simpa only [firstLine, hfl, List.cons_append, List.head_cons] using hfirst
    rw [← List.cons_append, ← List.append_assoc] at hlines
    obtain ⟨rfl, hr⟩ := List.append_inj' hlines rfl
    rw [List.singleton_inj] at hr
    have hB' : ∀ l ∈ R, isBlank l = false := by
      rcases hkept with hkept | hone
      · intro l hl
        exact hkept l (by simp [hl])
      · rw [hone] at hcut
        exact absurd hcut (by simp [maxChars])
    apply prefix_compactLines (A := f :: R) hS ht
    · intro l hl
      rcases List.mem_cons.1 hl with rfl | hl
      · exact hf
      · exact hB' l hl
    · rw [← hr]
      cases hq : isBlank q with
      | true => exact .inr rfl
      | false =>
        left
        rw [if_neg (by simp), isBlank_append, hq, Bool.false_and]

/-- Taking the tail chunk by chunk is taking the tail of the whole text, where
nothing the chunk needs has been dropped. -/
theorem reasoningPreviewTail_append {text chunk : JsString} (h : Kept text chunk) :
    reasoningPreviewTail (reasoningPreviewTail text ++ chunk) = reasoningPreviewTail (text ++ chunk) := by
  obtain ⟨hindent, hcut⟩ := h
  obtain ⟨A, q, hs⟩ := Lines.split_concat newline (normalizeNewlines text)
  obtain ⟨t₁, T, ht⟩ := Lines.split_cons newline (normalizeNewlines chunk)
  have hq : lastLine (normalizeNewlines text) = q := by simp [lastLine, hs]
  have ht₁ : firstLine (normalizeNewlines chunk) = t₁ := by simp [firstLine, ht]
  rw [hq, ht₁] at hindent
  have hnoreturn : (0x0d : UInt16) ∉ reasoningPreviewTail text := by
    intro hmem
    rw [reasoningPreviewTail_eq] at hmem
    exact notMem_normalizeNewlines text (mem_of_compactLines ((rtake_suffix _ _).mem hmem) (by decide))
  have hleft : reasoningPreviewTail (reasoningPreviewTail text ++ chunk) =
      (compactLines (reasoningPreviewTail text ++ normalizeNewlines chunk)).rtake maxChars := by
    rw [← normalizeNewlines_append_of_notMem hnoreturn, reasoningPreviewTail_eq]
  have hright : reasoningPreviewTail (text ++ chunk) =
      (compactLines (normalizeNewlines text ++ normalizeNewlines chunk)).rtake maxChars := by
    rw [← compactLines_normalize_append, reasoningPreviewTail_eq]
  rw [hleft, hright]
  obtain ⟨A', q', hS⟩ := Lines.split_concat newline (reasoningPreviewTail text)
  have hlinesS := Lines.split_append newline hS ht
  have hlinesY := Lines.split_append newline hs ht
  rcases hindent with hindent | hfull
  · have hcompact := compactLines_append hs ht hindent
    by_cases hlong : maxChars < (compactLines (normalizeNewlines text)).length
    · have hfilled : maxChars ≤ (compactLines (reasoningPreviewTail text ++ normalizeNewlines chunk)).length := by
        rcases hcut hlong with hfirst | hfilled
        · rw [reasoningPreviewTail_eq] at hfirst ⊢
          exact filled_of_firstLine hlong hfirst
        · exact hfilled
      rw [← hcompact]
      apply rtake_of_suffix _ hfilled
      obtain ⟨w, hw⟩ := rtake_suffix (compactLines (normalizeNewlines text)) maxChars
      obtain ⟨D, g, hD⟩ := Lines.split_concat newline w
      obtain ⟨f, R, hfR⟩ := Lines.split_cons newline (reasoningPreviewTail text ++ normalizeNewlines chunk)
      apply compactLines_suffix (X := D) (g := g) hfR
      have hw' : w ++ reasoningPreviewTail text = compactLines (normalizeNewlines text) := by
        rw [reasoningPreviewTail_eq]
        exact hw
      rw [← Lines.split_append newline hD hfR, ← List.append_assoc, hw']
    · have hwhole : reasoningPreviewTail text = compactLines (normalizeNewlines text) := by
        rw [reasoningPreviewTail_eq, List.rtake]
        rw [Nat.sub_eq_zero_of_le (by omega), List.drop_zero]
      rw [hwhole, hcompact]
  · rw [← rtake_of_suffix (compactLines_suffix ht hlinesS) hfull, ← rtake_of_suffix (compactLines_suffix ht hlinesY) hfull]

end Leitwerk.Protocol
