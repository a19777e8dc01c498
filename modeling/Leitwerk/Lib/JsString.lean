import Mathlib.Data.List.Basic
import Mathlib.Data.List.DropRight
/-!
# Strings of UTF-16 code units

A JavaScript string is a list of 16-bit units, so that a half of a surrogate
pair is a string of its own and a slice may cut between the halves.
-/

abbrev JsString := List UInt16

namespace JsString

/-- Strings are equal if their units are. -/
instance : LawfulBEq JsString := inferInstanceAs (LawfulBEq (List UInt16))

/-- The code units of a character. -/
def units (c : Char) : JsString :=
  if c.toNat < 0x10000 then [c.toNat.toUInt16]
  else [(0xd800 + (c.toNat - 0x10000) / 0x400).toUInt16, (0xdc00 + (c.toNat - 0x10000) % 0x400).toUInt16]

/-- A string literal. -/
def lit (s : String) : JsString := s.toList.flatMap units

/-- `WhiteSpace` and `LineTerminator`, which are also what `\s` matches. -/
def isSpace (u : UInt16) : Bool :=
  (9 ≤ u.toNat && u.toNat ≤ 13) || (0x2000 ≤ u.toNat && u.toNat ≤ 0x200a) ||
    [0x20, 0xa0, 0x1680, 0x2028, 0x2029, 0x202f, 0x205f, 0x3000, 0xfeff].contains u.toNat

/-- `s.trim()`. -/
def trim (s : JsString) : JsString := (s.dropWhile isSpace).rdropWhile isSpace

/-- A string that `trim` leaves as it is and that is not empty. -/
def Trimmed (s : JsString) : Prop := s ≠ [] ∧ trim s = s

/-- The first and the last unit decide whether there is anything to trim. -/
theorem trim_eq_self {s : JsString} (hf : ∀ u ∈ s.head?, isSpace u = false) (hl : ∀ u ∈ s.getLast?, isSpace u = false) :
    trim s = s := by
  have hdrop : s.dropWhile isSpace = s := by
    cases s with
    | nil => rfl
    | cons u s => rw [List.dropWhile_cons_of_neg (by simp [hf u (by simp)])]
  unfold trim
  rw [hdrop, List.rdropWhile_eq_self_iff]
  intro hne
  rw [hl _ (by simp [List.getLast?_eq_getLast_of_ne_nil hne])]
  simp

theorem head_trim {s : JsString} {u : UInt16} (h : u ∈ (trim s).head?) : isSpace u = false := by
  have hpre : trim s <+: s.dropWhile isSpace := List.rdropWhile_prefix _ _
  obtain ⟨t, ht⟩ := hpre
  have hne : s.dropWhile isSpace ≠ [] := by
    intro hnil
    rw [hnil] at ht
    simp [List.append_eq_nil_iff.1 ht |>.1] at h
  have hhead : (s.dropWhile isSpace).head hne = u := by
    cases hs : trim s with
    | nil => simp [hs] at h
    | cons v r =>
      rw [hs] at h ht
      simp only [List.head?_cons, Option.mem_some_iff] at h
      subst h
      simp [← ht]
  rw [← hhead]
  exact List.head_dropWhile_not isSpace hne

theorem getLast_trim {s : JsString} {u : UInt16} (h : u ∈ (trim s).getLast?) : isSpace u = false := by
  unfold trim at h
  have hne : (s.dropWhile isSpace).rdropWhile isSpace ≠ [] := by
    intro hnil
    simp [hnil] at h
  have hlast := List.rdropWhile_last_not isSpace (s.dropWhile isSpace) hne
  rw [List.getLast?_eq_getLast_of_ne_nil hne, Option.mem_some_iff] at h
  rw [h] at hlast
  simpa using hlast

/-- Trimming twice is trimming once. -/
theorem trim_trim (s : JsString) : trim (trim s) = trim s :=
  trim_eq_self (fun _ h => head_trim h) (fun _ h => getLast_trim h)

/-- A check of every unit of a text, evaluated. -/
theorem forall_of_all {α : Type} {p : α → Prop} [DecidablePred p] {l : List α} (h : (l.all fun a => decide (p a)) = true) :
    ∀ a ∈ l, p a := by
  simpa using h

/-! ## Joined texts -/

/-- Between two trimmed texts there may be anything. -/
theorem Trimmed.append {a b : JsString} (ha : Trimmed a) (sep : JsString) (hb : Trimmed b) : Trimmed (a ++ sep ++ b) := by
  refine ⟨by simp [ha.1], trim_eq_self (fun u hu => ?_) fun u hu => ?_⟩
  · rw [List.append_assoc, List.head?_append_of_ne_nil _ ha.1, ← ha.2] at hu
    exact head_trim hu
  · rw [List.getLast?_append_of_ne_nil _ hb.1, ← hb.2] at hu
    exact getLast_trim hu

theorem trimmed_intercalate (sep : JsString) {parts : List JsString} (hne : parts ≠ []) (h : ∀ part ∈ parts, Trimmed part) :
    Trimmed (sep.intercalate parts) := by
  induction parts with
  | nil => exact absurd rfl hne
  | cons part parts ih =>
    cases parts with
    | nil => simpa [List.intercalate_singleton] using h
    | cons next parts =>
      rw [List.intercalate_cons_cons]
      exact (h part List.mem_cons_self).append sep (ih (List.cons_ne_nil _ _) fun p hp => h p (List.mem_cons_of_mem _ hp))

/-- What was joined before is joined like its parts. -/
theorem intercalate_append (sep : JsString) {parts : List JsString} (hne : parts ≠ []) (rest : List JsString) :
    sep.intercalate (sep.intercalate parts :: rest) = sep.intercalate (parts ++ rest) := by
  induction parts with
  | nil => exact absurd rfl hne
  | cons part parts ih =>
    cases parts with
    | nil => rw [List.intercalate_singleton, List.singleton_append]
    | cons next parts =>
      have ih := ih (List.cons_ne_nil _ _)
      cases rest with
      | nil => rw [List.intercalate_singleton, List.append_nil]
      | cons after rest =>
        rw [List.intercalate_cons_cons] at ih
        rw [List.intercalate_cons_cons, List.intercalate_cons_cons, List.cons_append, List.cons_append, List.intercalate_cons_cons,
          ← List.cons_append, ← ih]
        simp only [List.append_assoc]

/-! ## Numbers as text -/

/-- The digits of a number. -/
def digits (base n : Nat) : JsString := (Nat.toDigits base n).map fun c => c.toNat.toUInt16

theorem digit_bounds {base n : Nat} (h₁ : 0 < base) (h₂ : base ≤ 10) {c : Char} (hc : c ∈ Nat.toDigits base n) :
    48 ≤ c.toNat ∧ c.toNat ≤ 57 := by
  have hd := Nat.isDigit_of_mem_toDigits h₁ h₂ hc
  simp only [Char.isDigit, ge_iff_le, Bool.and_eq_true, decide_eq_true_eq] at hd
  exact ⟨hd.1, hd.2⟩

/-- The characters of the digits, read back from their units. -/
theorem chars_digits {base n : Nat} (h₁ : 0 < base) (h₂ : base ≤ 10) :
    (digits base n).map (fun u => Char.ofNat u.toNat) = Nat.toDigits base n := by
  unfold digits
  rw [List.map_map]
  conv_rhs => rw [← List.map_id (Nat.toDigits base n)]
  apply List.map_congr_left
  intro c hc
  obtain ⟨h48, h57⟩ := digit_bounds h₁ h₂ hc
  have hunit : c.toNat.toUInt16.toNat = c.toNat := Nat.mod_eq_of_lt (by omega)
  simp only [Function.comp, hunit, Char.ofNat_toNat, id]

/-- Different numbers have different digits. -/
theorem digits_injective {base m n : Nat} (h₁ : 1 < base) (h₂ : base ≤ 10) (h : digits base m = digits base n) : m = n := by
  have hchars : Nat.toDigits base m = Nat.toDigits base n := by
    rw [← chars_digits (by omega) h₂, h, chars_digits (by omega) h₂]
  rw [← Nat.ofDigitChars_toDigits (n := m) h₁ h₂, hchars, Nat.ofDigitChars_toDigits h₁ h₂]

theorem digits_ne_nil (base n : Nat) : digits base n ≠ [] := by
  simp [digits, Nat.toDigits_ne_nil]

theorem getLast_digits {base n : Nat} (h₁ : 0 < base) (h₂ : base ≤ 10) {u : UInt16} (h : u ∈ (digits base n).getLast?) :
    isSpace u = false := by
  obtain ⟨c, hc, rfl⟩ := List.mem_map.1 (List.mem_of_getLast? h)
  obtain ⟨h48, h57⟩ := digit_bounds h₁ h₂ hc
  have hunit : c.toNat.toUInt16.toNat = c.toNat := Nat.mod_eq_of_lt (by omega)
  simp only [isSpace, hunit]
  have hne : ∀ k ∈ [0x20, 0xa0, 0x1680, 0x2028, 0x2029, 0x202f, 0x205f, 0x3000, 0xfeff], c.toNat ≠ k := by
    simp only [List.mem_cons, List.not_mem_nil, or_false]
    rintro k (h | h | h | h | h | h | h | h | h) <;> omega
  have hnot : ([0x20, 0xa0, 0x1680, 0x2028, 0x2029, 0x202f, 0x205f, 0x3000, 0xfeff] : List Nat).contains c.toNat = false := by
    rw [Bool.eq_false_iff, ne_eq, List.contains_iff_mem]
    exact fun hmem => hne _ hmem rfl
  rw [hnot]
  simp
  omega

end JsString
