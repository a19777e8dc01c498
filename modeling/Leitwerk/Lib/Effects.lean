import Mathlib.Logic.Basic
/-!
# Actions that may fail half way

An action changes a state and then returns a value or fails; what it changed
before it failed stays changed. `Triple P x Q E`: from a state with `P` the
action ends with `Q` when it returns and with `E` when it fails. `Keeps I` is the
triple of an invariant that holds however the action ends. An action that `Reads`
changes nothing, one that `RollsBack` changes nothing when it fails.
-/

/-- An action on states `σ` that returns an `α` or fails with an `ε`. -/
def StateAction (ε σ α : Type) := σ → Except ε α × σ

namespace StateAction

variable {ε σ α β : Type}

instance : Monad (StateAction ε σ) where
  pure a := fun s => (.ok a, s)
  bind x f := fun s =>
    match x s with
    | (.ok a, s) => f a s
    | (.error e, s) => (.error e, s)

instance : MonadExceptOf ε (StateAction ε σ) where
  throw e := fun s => (.error e, s)
  tryCatch x handler := fun s =>
    match x s with
    | (.ok a, s) => (.ok a, s)
    | (.error e, s) => handler e s

theorem bind_apply (x : StateAction ε σ α) (f : α → StateAction ε σ β) (s : σ) :
    (x >>= f) s = match x s with
      | (.ok a, s) => f a s
      | (.error e, s) => (.error e, s) := rfl

theorem tryCatch_apply (x : StateAction ε σ α) (handler : ε → StateAction ε σ α) (s : σ) :
    (tryCatch x handler) s = match x s with
      | (.ok a, s) => (.ok a, s)
      | (.error e, s) => handler e s := rfl

/-- The two halves of a sequence that returned. -/
theorem ok_of_bind {x : StateAction ε σ α} {f : α → StateAction ε σ β} {s s'' : σ} {b : β} (h : (x >>= f) s = (.ok b, s'')) :
    ∃ a s', x s = (.ok a, s') ∧ f a s' = (.ok b, s'') := by
  rw [bind_apply] at h
  cases hx : x s with
  | mk r s' =>
    rw [hx] at h
    cases r with
    | error e => cases h
    | ok a => exact ⟨a, s', rfl, h⟩

theorem ok_of_pure {a b : α} {s s' : σ} (h : (pure a : StateAction ε σ α) s = (.ok b, s')) : a = b ∧ s = s' := by
  cases h
  exact ⟨rfl, rfl⟩

/-- `P` before; `Q` after a return and `E` after a failure. -/
def Triple (P : σ → Prop) (x : StateAction ε σ α) (Q : α → σ → Prop) (E : ε → σ → Prop) : Prop :=
  ∀ s, P s → match x s with
    | (.ok a, s') => Q a s'
    | (.error e, s') => E e s'

/-- The invariant holds however the action ends. -/
def Keeps (I : σ → Prop) (x : StateAction ε σ α) : Prop := Triple I x (fun _ => I) fun _ => I

variable {P P' : σ → Prop} {Q Q' : α → σ → Prop} {R : β → σ → Prop} {E E' : ε → σ → Prop} {x : StateAction ε σ α}

namespace Triple

theorem pure {a : α} (h : ∀ s, P s → Q a s) : Triple P (Pure.pure a : StateAction ε σ α) Q E := fun s hs => h s hs

theorem throw {e : ε} (h : ∀ s, P s → E e s) : Triple P (MonadExcept.throw e : StateAction ε σ α) Q E := fun s hs => h s hs

theorem bind {f : α → StateAction ε σ β} (hx : Triple P x Q E) (hf : ∀ a, Triple (Q a) (f a) R E) : Triple P (x >>= f) R E := by
  intro s hs
  have h := hx s hs
  rw [bind_apply]
  revert h
  rcases x s with ⟨r, s'⟩
  cases r with
  | error e => exact fun h => h
  | ok a => exact fun h => hf a s' h

theorem tryCatch {handler : ε → StateAction ε σ α} (hx : Triple P x Q E) (hh : ∀ e, Triple (E e) (handler e) Q E') :
    Triple P (MonadExcept.tryCatch x handler) Q E' := by
  intro s hs
  have h := hx s hs
  rw [tryCatch_apply]
  revert h
  rcases x s with ⟨r, s'⟩
  cases r with
  | error e => exact fun h => hh e s' h
  | ok a => exact fun h => h

theorem conseq (hx : Triple P x Q E) (hP : ∀ s, P' s → P s) (hQ : ∀ a s, Q a s → Q' a s) (hE : ∀ e s, E e s → E' e s) :
    Triple P' x Q' E' := by
  intro s hs
  have h := hx s (hP s hs)
  revert h
  rcases x s with ⟨r, s'⟩
  cases r with
  | error e => exact hE e s'
  | ok a => exact hQ a s'

/-- What holds however the action ends holds of the state it leaves. -/
theorem left {I : σ → Prop} (h : Triple P x (fun _ => I) fun _ => I) {s : σ} (hs : P s) : I (x s).2 := by
  have hend := h s hs
  revert hend
  rcases x s with ⟨r, s'⟩
  cases r with
  | error e => exact fun h => h
  | ok a => exact fun h => h

/-- The rule of a loop: what every round keeps. -/
theorem foldlM {f : α → β → StateAction ε σ α} (l : List β) (hf : ∀ a, ∀ b ∈ l, Triple (Q a) (f a b) Q E) (a : α) :
    Triple (Q a) (l.foldlM f a) Q E := by
  induction l generalizing a with
  | nil => exact pure fun _ h => h
  | cons b l ih =>
    rw [List.foldlM_cons]
    exact bind (hf a b List.mem_cons_self) fun a' => ih (fun a b hb => hf a b (List.mem_cons_of_mem _ hb)) a'

end Triple

namespace Keeps

variable {I : σ → Prop}

theorem pure (a : α) : Keeps I (Pure.pure a : StateAction ε σ α) := Triple.pure fun _ h => h

theorem throw (e : ε) : Keeps I (MonadExcept.throw e : StateAction ε σ α) := Triple.throw fun _ h => h

theorem bind {f : α → StateAction ε σ β} (hx : Keeps I x) (hf : ∀ a, Keeps I (f a)) : Keeps I (x >>= f) := Triple.bind hx hf

theorem tryCatch {handler : ε → StateAction ε σ α} (hx : Keeps I x) (hh : ∀ e, Keeps I (handler e)) :
    Keeps I (MonadExcept.tryCatch x handler) :=
  Triple.tryCatch hx hh

theorem ite {c : Prop} [Decidable c] {y : StateAction ε σ α} (hx : Keeps I x) (hy : Keeps I y) : Keeps I (if c then x else y) := by
  split
  · exact hx
  · exact hy

end Keeps

/-- The state stays as it is. -/
def Reads (x : StateAction ε σ α) : Prop := ∀ s, (x s).2 = s

/-- A failure leaves the state as it was. -/
def RollsBack (x : StateAction ε σ α) : Prop := ∀ s e s', x s = (.error e, s') → s' = s

theorem Reads.pure (a : α) : Reads (Pure.pure a : StateAction ε σ α) := fun _ => rfl

theorem Reads.throw (e : ε) : Reads (MonadExcept.throw e : StateAction ε σ α) := fun _ => rfl

theorem Reads.bind {f : α → StateAction ε σ β} (hx : Reads x) (hf : ∀ a, Reads (f a)) : Reads (x >>= f) := by
  intro s
  have hs := hx s
  rw [bind_apply]
  revert hs
  rcases x s with ⟨r, s'⟩
  rintro rfl
  cases r with
  | error e => rfl
  | ok a => exact hf a s'

theorem Reads.rollsBack (hx : Reads x) : RollsBack x := by
  intro s e s' h
  rw [← hx s, h]

/-- What fails after a read leaves the state as the read did. -/
theorem RollsBack.bind {f : α → StateAction ε σ β} (hx : Reads x) (hf : ∀ a, RollsBack (f a)) : RollsBack (x >>= f) := by
  intro s e s' h
  have hs := hx s
  rw [bind_apply] at h
  revert h hs
  rcases x s with ⟨r, s₁⟩
  rintro h rfl
  cases r with
  | error e =>
    cases h
    rfl
  | ok a => exact hf a s₁ e s' h

end StateAction
