import Leitwerk.Engine.Patch
/-!
# Composed patches of one process

A decision is built by many calls that patch one `Writes` against the same
process. A call whose value is the process's own is skipped, so it does not take
back what an earlier call wrote: the last call of a column wins unless it asks
for the value the process had and an earlier one did not.
-/

namespace Leitwerk.Engine

/-! ## Calls -/

/-- The columns `applyProcessPatchField` writes; `applyMetadataPatch` writes the metadata. -/
inductive Column where
  | lifecycleStatus | selectedTurnId | currentExecution | planRevision | externalId | externalUrl | metadata
  | selectedTurnModelProfileId | selectedTurnModelKind | selectedTurnModelSource | paramsJson | stateJson
  deriving DecidableEq

/-- The values of a column. -/
def Column.Value : Column → Type
  | .lifecycleStatus => LifecycleStatus
  | .planRevision => Nat
  | .metadata => Metadata
  | .selectedTurnModelKind => Option ModelSelectionKind
  | .selectedTurnModelSource => Option ModelSelectionSource
  | .selectedTurnId | .currentExecution | .externalId | .externalUrl | .selectedTurnModelProfileId | .paramsJson
  | .stateJson => Option String

def Column.field : (c : Column) → Field c.Value
  | .lifecycleStatus => .lifecycleStatus
  | .selectedTurnId => .selectedTurnId
  | .currentExecution => .currentExecution
  | .planRevision => .planRevision
  | .externalId => .externalId
  | .externalUrl => .externalUrl
  | .metadata => .metadata
  | .selectedTurnModelProfileId => .selectedTurnModelProfileId
  | .selectedTurnModelKind => .selectedTurnModelKind
  | .selectedTurnModelSource => .selectedTurnModelSource
  | .paramsJson => .paramsJson
  | .stateJson => .stateJson

/-- One call of `applyProcessPatchField`, or of `applyMetadataPatch` for the metadata. -/
structure PatchCall where
  column : Column
  value : column.Value

/-- The writes a call makes of those before it. -/
def PatchCall.run (p : Process) (w : Writes) (x : PatchCall) : Writes := applyProcessPatchField w p x.column.field x.value

/-- The writes of a sequence of calls. -/
def patchedBy (p : Process) (calls : List PatchCall) : Writes := calls.foldl (PatchCall.run p) {}

/-- The value a call gives the column, when it is about it. -/
def PatchCall.valueFor (c : Column) (x : PatchCall) : Option c.Value :=
  if h : x.column = c then some (h ▸ x.value) else none

/-- The values the calls give a column, first to last. -/
def valuesFor (c : Column) (calls : List PatchCall) : List c.Value := calls.filterMap (·.valueFor c)

/-! ## What one call does to a column -/

/-- What a call with a value makes of a column that holds `current`. -/
def patchValue {α : Type} (f : Field α) (base current value : α) : α := if f.same base value then current else value

theorem set_other {c c' : Column} (h : c' ≠ c) (v : c'.Value) (p : Process) :
    c.field.get (c'.field.set v p) = c.field.get p := by
  cases c <;> cases c' <;> first | rfl | exact absurd rfl h

/-- A call patches the column it names and no other. -/
theorem run_get (p : Process) (w : Writes) (x : PatchCall) (c : Column) :
    c.field.get ((x.run p w).candidate p) =
      (x.valueFor c).elim (c.field.get (w.candidate p)) (patchValue c.field (c.field.get p) (c.field.get (w.candidate p))) := by
  obtain ⟨c', v⟩ := x
  unfold PatchCall.run PatchCall.valueFor patchValue
  by_cases hc : c' = c
  · subst hc
    simp only [dif_pos, Option.elim_some]
    unfold applyProcessPatchField
    split
    · rfl
    · rw [candidate_put, Field.get_set]
  · simp only [dif_neg hc, Option.elim_none]
    exact apply_other c.field.get (fun v p => set_other hc v p) v

/-- After a sequence of calls a column holds what the calls about it make of the process's value. -/
theorem patchedBy_get (p : Process) (calls : List PatchCall) (c : Column) :
    c.field.get ((patchedBy p calls).candidate p) =
      (valuesFor c calls).foldl (patchValue c.field (c.field.get p)) (c.field.get p) := by
  suffices h : ∀ w : Writes, c.field.get ((calls.foldl (PatchCall.run p) w).candidate p) =
      (valuesFor c calls).foldl (patchValue c.field (c.field.get p)) (c.field.get (w.candidate p)) by
    exact h {}
  induction calls with
  | nil => exact fun w => rfl
  | cons x calls ih =>
    intro w
    rw [List.foldl_cons, ih, run_get]
    unfold valuesFor
    rw [List.filterMap_cons]
    cases x.valueFor c <;> rfl

/-! ## The last call -/

section
variable {α : Type} {f : Field α} {base : α}

/-- Where the process's value is recognised as its own, it is left behind for good by any call
with another one. -/
theorem foldl_patchValue_base (hbase : f.same base base = true) (values : List α) (current : α) :
    values.foldl (patchValue f base) current = base ↔ current = base ∧ ∀ v ∈ values, v = base := by
  induction values generalizing current with
  | nil => simp
  | cons v values ih =>
    rw [List.foldl_cons, ih, List.forall_mem_cons]
    unfold patchValue
    by_cases hs : f.same base v = true
    · rw [if_pos hs]
      have := f.same_eq _ _ hs
      tauto
    · rw [if_neg hs]
      have hne : v ≠ base := by
        rintro rfl
        exact hs hbase
      tauto

theorem foldl_patchValue_last (values : List α) (last : α) (h : values.getLast? = some last) :
    values.foldl (patchValue f base) base = last ↔ f.same base last = false ∨ ∀ v ∈ values, v = base := by
  obtain ⟨init, rfl⟩ := List.getLast?_eq_some_iff.1 h
  rw [List.foldl_append]
  by_cases hs : f.same base last = true
  · obtain rfl := f.same_eq _ _ hs
    simp only [List.foldl_cons, List.foldl_nil, patchValue, hs, if_true, Bool.true_eq_false, false_or]
    rw [foldl_patchValue_base hs]
    simp only [true_and, List.mem_append, List.mem_singleton, or_imp, forall_and, forall_eq, and_true]
  · simp only [List.foldl_cons, List.foldl_nil, patchValue, hs]
    simp
end

/-- The last call of a column wins exactly when its value is not the process's own, or when
every call of the column asked for that. -/
theorem last_call_wins_iff (p : Process) (calls : List PatchCall) (c : Column) (last : c.Value)
    (h : (valuesFor c calls).getLast? = some last) :
    c.field.get ((patchedBy p calls).candidate p) = last ↔
      c.field.same (c.field.get p) last = false ∨ ∀ v ∈ valuesFor c calls, v = c.field.get p := by
  rw [patchedBy_get]
  exact foldl_patchValue_last _ _ h

end Leitwerk.Engine
