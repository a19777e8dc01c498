import Mathlib.Data.List.Basic
/-!
# The first defined candidate

Candidates in order of precedence. Each is absent, defined, or cannot be read,
and nothing below a candidate that is defined or unreadable is looked at.
-/

namespace Precedence

variable {ε α β : Type}

/-- The first candidate that is not absent. -/
def firstDefined : List (Except ε (Option α)) → Except ε (Option α)
  | [] => .ok none
  | .ok none :: rest => firstDefined rest
  | c :: _ => c

@[simp] theorem firstDefined_nil : firstDefined ([] : List (Except ε (Option α))) = .ok none := rfl

@[simp] theorem firstDefined_none (rest : List (Except ε (Option α))) :
    firstDefined (.ok none :: rest) = firstDefined rest := rfl

@[simp] theorem firstDefined_some (a : α) (rest : List (Except ε (Option α))) :
    firstDefined (.ok (some a) :: rest) = .ok (some a) := rfl

@[simp] theorem firstDefined_error (e : ε) (rest : List (Except ε (Option α))) :
    firstDefined (.error e :: rest) = .error e := rfl

/-- A result is a candidate above which all are absent. -/
theorem firstDefined_split {cs : List (Except ε (Option α))} {a : α} (h : firstDefined cs = .ok (some a)) :
    ∃ above below, cs = above ++ .ok (some a) :: below ∧ ∀ c ∈ above, c = .ok none := by
  induction cs with
  | nil => cases h
  | cons c cs ih =>
    cases c with
    | error e => cases h
    | ok x =>
      cases x with
      | none =>
        obtain ⟨above, below, rfl, hall⟩ := ih h
        refine ⟨.ok none :: above, below, rfl, fun c hc => ?_⟩
        rcases List.mem_cons.1 hc with rfl | hc
        · rfl
        · exact hall c hc
      | some b =>
        cases h
        exact ⟨[], cs, rfl, by simp⟩

/-- Readable candidates, of which the first is defined or the others decide. -/
theorem firstDefined_or (x : Option α) (rest : List (Except ε (Option α))) :
    firstDefined (.ok x :: rest) = match x with
      | some a => .ok (some a)
      | none => firstDefined rest := by
  cases x <;> rfl

end Precedence
