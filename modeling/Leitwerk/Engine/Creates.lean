import Leitwerk.Engine.Plans
/-!
# The created starts of a decision

`record` takes starts out of a decision's writes, replaces them and settles their
states. Each of these changes acts on the list of created starts and leaves the
state changes of existing starts alone.
-/

namespace Leitwerk.Engine

variable {w : Writes} {s : TurnStartInput}

@[simp] theorem create?_create (s : TurnStartInput) : (TurnStartWrite.create s).create? = some s := rfl

@[simp] theorem create?_casState (id : String) (kind : StartStateKind) (state : StartState) (r : Option StartupRetryState) :
    (TurnStartWrite.casState id kind state r).create? = none := rfl

/-! ## What the changes of the start writes do to the created starts -/

theorem creates_removeCreate (w : Writes) (pred : TurnStartInput → Bool) :
    (w.removeCreate pred).creates = w.creates.eraseP pred := by
  simp only [Writes.creates, Writes.removeCreate]
  induction w.turnStartWrites with
  | nil => rfl
  | cons x ws ih =>
    cases x with
    | create s =>
      by_cases h : pred s = true
      · simp [h]
      · rw [List.eraseP_cons_of_neg (by simpa using h)]
        exact (congrArg (s :: ·) ih).trans (List.eraseP_cons_of_neg h).symm
    | casState =>
      rw [List.eraseP_cons_of_neg (by simp)]
      exact ih

theorem cas_removeCreate (w : Writes) (pred : TurnStartInput → Bool) :
    (w.removeCreate pred).casWrites = w.casWrites := by
  simp only [Writes.casWrites, Writes.removeCreate]
  induction w.turnStartWrites with
  | nil => rfl
  | cons x ws ih =>
    cases x with
    | create s =>
      by_cases h : pred s = true
      · simp [h]
      · rw [List.eraseP_cons_of_neg (by simpa using h), List.filter_cons_of_neg (by simp),
          List.filter_cons_of_neg (by simp), ih]
    | casState =>
      rw [List.eraseP_cons_of_neg (by simp), List.filter_cons_of_pos rfl, List.filter_cons_of_pos rfl, ih]

theorem creates_replaceCreate (w : Writes) (f : TurnStartInput → Option TurnStartInput) :
    (w.replaceCreate f).creates = w.creates.replaceF f := by
  simp only [Writes.creates, Writes.replaceCreate]
  induction w.turnStartWrites with
  | nil => rfl
  | cons x ws ih =>
    cases x with
    | create s =>
      show _ = List.replaceF f (s :: ws.filterMap (·.create?))
      rw [List.replaceF, List.replaceF, create?_create, Option.bind_some]
      cases h : f s with
      | none => exact congrArg (s :: ·) ih
      | some s' => rfl
    | casState => exact ih

theorem cas_replaceCreate (w : Writes) (f : TurnStartInput → Option TurnStartInput) :
    (w.replaceCreate f).casWrites = w.casWrites := by
  simp only [Writes.casWrites, Writes.replaceCreate]
  induction w.turnStartWrites with
  | nil => rfl
  | cons x ws ih =>
    cases x with
    | create s =>
      rw [List.filter_cons_of_neg (by simp), List.replaceF, create?_create, Option.bind_some]
      cases h : f s with
      | none => exact ih
      | some s' => rfl
    | casState => exact congrArg (_ :: ·) ih

theorem creates_mapCreates (w : Writes) (g : TurnStartInput → TurnStartInput) :
    (w.mapCreates g).creates = w.creates.map g := by
  simp only [Writes.creates, Writes.mapCreates]
  induction w.turnStartWrites with
  | nil => rfl
  | cons x ws ih =>
    cases x with
    | create s => exact congrArg (g s :: ·) ih
    | casState => exact ih

theorem cas_mapCreates (w : Writes) (g : TurnStartInput → TurnStartInput) :
    (w.mapCreates g).casWrites = w.casWrites := by
  simp only [Writes.casWrites, Writes.mapCreates]
  induction w.turnStartWrites with
  | nil => rfl
  | cons x ws ih =>
    cases x with
    | create s => exact ih
    | casState => exact congrArg (_ :: ·) ih

/-! ## The LLM starts among them -/

theorem mem_llmCreates : s ∈ w.llmCreates ↔ s ∈ w.creates ∧ s.turnType = .llm := by
  simp [Writes.llmCreates]

theorem llmCreates_of_creates {v : Writes} (h : v.creates = w.creates) : v.llmCreates = w.llmCreates := by
  simp only [Writes.llmCreates, h]

/-- Replacing a start among the LLM ones of a list that has one LLM start replaces that. -/
theorem replaceF_llm {l : List TurnStartInput} {f : TurnStartInput → Option TurnStartInput} {s' : TurnStartInput}
    (hl : l.filter (·.turnType = .llm) = [s]) (hf : ∀ x ∈ l, x.turnType ≠ .llm → f x = none) (hs : f s = some s')
    (hs' : s'.turnType = .llm) :
    (l.replaceF f).filter (·.turnType = .llm) = [s'] ∧ s' ∈ l.replaceF f ∧
      ∀ x ∈ l.replaceF f, x = s' ∨ x ∈ l ∧ x.turnType ≠ .llm := by
  induction l with
  | nil => cases hl
  | cons x l ih =>
    by_cases hx : x.turnType = .llm
    · rw [List.filter_cons_of_pos (by simpa using hx)] at hl
      obtain ⟨rfl, hnil⟩ := List.cons_eq_cons.1 hl
      have hrest : ∀ y ∈ l, y.turnType ≠ .llm := by
        intro y hy hy'
        have : y ∈ l.filter (·.turnType = .llm) := List.mem_filter.2 ⟨hy, by simpa using hy'⟩
        rw [hnil] at this
        cases this
      rw [List.replaceF, hs]
      refine ⟨?_, List.mem_cons_self, fun y hy => ?_⟩
      · rw [List.filter_cons_of_pos (by simpa using hs'), hnil]
      · rcases List.mem_cons.1 hy with rfl | hy
        · exact .inl rfl
        · exact .inr ⟨List.mem_cons_of_mem _ hy, hrest y hy⟩
    · rw [List.filter_cons_of_neg (by simpa using hx)] at hl
      obtain ⟨h₁, h₂, h₃⟩ := ih hl fun y hy => hf y (List.mem_cons_of_mem _ hy)
      rw [List.replaceF, hf x List.mem_cons_self hx]
      refine ⟨?_, List.mem_cons_of_mem _ h₂, fun y hy => ?_⟩
      · rw [List.filter_cons_of_neg (by simpa using hx), h₁]
      · rcases List.mem_cons.1 hy with rfl | hy
        · exact .inr ⟨List.mem_cons_self, hx⟩
        · exact (h₃ y hy).imp_right fun h => ⟨List.mem_cons_of_mem _ h.1, h.2⟩

/-- With no start to replace, nothing is replaced. -/
theorem replaceF_none {α : Type} {l : List α} {f : α → Option α} (h : ∀ x ∈ l, f x = none) : l.replaceF f = l := by
  induction l with
  | nil => rfl
  | cons x l ih =>
    rw [List.replaceF, h x List.mem_cons_self]
    exact congrArg (x :: ·) (ih fun y hy => h y (List.mem_cons_of_mem _ hy))

end Leitwerk.Engine
