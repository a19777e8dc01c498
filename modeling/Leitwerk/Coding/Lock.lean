import Leitwerk.Lib.Runs
import Mathlib.Logic.Function.Iterate
/-!
# The lock of repository reconciliation

`withLock` of `extensions/coding/src/repository-reconciliation.ts`, for any
number of processes of one host that call it on one directory. A process makes
the lock's directory, writes itself into it as the owner, runs, and removes the
directory. A process that finds the directory reads its owner; one that is dead
is removed, and the process starts over.

Each access to the file system is a step of its own, and a process may crash
before any of them. Two things go wrong: a process that crashes before it has
written the owner leaves a lock nobody removes (`crash_unrecoverable`), and a
process that has found an owner dead removes whatever lock is there by then
(`takeover_not_exclusive`). `lock_safe` says that nothing else does.
-/

namespace Leitwerk.Coding

open Runs

variable {P : Type} [DecidableEq P]

/-! ## The processes and their steps -/

/-- Where a process is in its call. `checking` and `removing` remember the owner that was read. -/
inductive Place (P : Type) where
  | idle
  | making
  | writing
  | running
  | leaving
  | reading
  | checking (owner : P)
  | removing (owner : P)
  deriving DecidableEq

/-- The processes, and the lock: whether its directory is there, and the owner that is recorded in it. -/
structure LockState (P : Type) where
  alive : P → Bool
  place : P → Place P
  lock : Option (Option P)

/-- A call, a step of a call, and a crash. -/
inductive LockEvent (P : Type) where
  | call (p : P)
  | proceed (p : P)
  | crash (p : P)
  deriving DecidableEq

/-- Nobody has called yet. -/
def LockState.init : LockState P where
  alive := fun _ => true
  place := fun _ => .idle
  lock := none

/-- A process moves on, and leaves the lock so. -/
def LockState.move (s : LockState P) (p : P) (place : Place P) (lock : Option (Option P)) : LockState P :=
  { s with place := Function.update s.place p place, lock := lock }

/-- The next step of a process within `withLock`. Where the source throws, the
call ends; a failing write of the owner still goes through `finally`. -/
def proceed (s : LockState P) (p : P) : LockState P :=
  match s.place p with
  | .idle => s
  -- `mkdirSync(lock)`
  | .making =>
    match s.lock with
    | none => s.move p .writing (some none)
    | some _ => s.move p .reading s.lock
  -- `writeFileSync(owner.json)`
  | .writing =>
    match s.lock with
    | some _ => s.move p .running (some (some p))
    | none => s.move p .leaving none
  -- `run()`
  | .running => s.move p .leaving s.lock
  -- `rmSync(lock)` of `finally`
  | .leaving => s.move p .idle none
  -- `readFileSync(owner.json)`
  | .reading =>
    match s.lock with
    | some (some owner) => s.move p (.checking owner) s.lock
    | _ => s.move p .idle s.lock
  -- `process.kill(owner.pid, 0)`
  | .checking owner => if s.alive owner then s.move p .idle s.lock else s.move p (.removing owner) s.lock
  -- `rmSync(lock)` and the recursive call
  | .removing _ =>
    match s.lock with
    | some _ => s.move p .making none
    | none => s.move p .idle none

/-- What an event does. -/
def LockState.next (s : LockState P) : LockEvent P → LockState P
  | .call p => s.move p .making s.lock
  | .proceed p => proceed s p
  | .crash p => { s with alive := Function.update s.alive p false }

/-- A live process calls when it is in no call, and goes on when it is in one. -/
def LockState.admits (s : LockState P) : LockEvent P → Bool
  | .call p => s.alive p && s.place p == .idle
  | .proceed p => s.alive p && s.place p != .idle
  | .crash p => s.alive p

/-- A step of the processes, whether or not the event can occur. -/
def LockMove : Step (LockState P) (LockEvent P) Unit := fun s e _ t => t = s.next e

/-- The processes with their lock. -/
def LockStep : Step (LockState P) (LockEvent P) Unit := Guard LockMove fun s e => s.admits e = true

/-! ## What the lock is for -/

/-- A process that has made the lock and has not removed it again. -/
def Place.holds : Place P → Bool
  | .writing | .running | .leaving => true
  | _ => false

/-- A live process that holds the lock. -/
def Holds (s : LockState P) (p : P) : Prop := s.alive p = true ∧ (s.place p).holds = true

/-- At most one live process is inside `run`. -/
def Exclusive (s : LockState P) : Prop :=
  ∀ p q, s.alive p = true → s.alive q = true → s.place p = .running → s.place q = .running → p = q

/-- A step that removes a lock removes the process's own, or one whose recorded owner is dead. -/
def RemovesOwn (s : LockState P) (e : LockEvent P) : Prop :=
  ∀ p, e = .proceed p → s.place p = .leaving ∨ (∃ owner, s.place p = .removing owner) → s.lock ≠ none →
    ∃ owner, s.lock = some (some owner) ∧ (owner = p ∨ s.alive owner = false)

/-- A call of `p` that nobody disturbs gets to `run`. -/
def Obtains (s : LockState P) (p : P) : Prop :=
  ∃ n, ((proceed · p)^[n] (s.next (.call p))).place p = .running

/-- When no live process holds the lock, the next call obtains it. -/
def Recoverable (s : LockState P) : Prop :=
  (∀ q, ¬Holds s q) → ∀ p, s.alive p = true → s.place p = .idle → Obtains s p

/-! ## When it is -/

/-- No crash between the two creations, and no removal of a lock found dead while
a live process holds the lock. -/
def Sober (s : LockState P) : LockEvent P → Prop
  | .call _ => True
  | .proceed p => (∃ owner, s.place p = .removing owner) → ∀ q, ¬Holds s q
  | .crash p => s.place p ≠ .writing

/-- The lock tells who holds it. -/
def LockInv (s : LockState P) : Prop :=
  match s.lock with
  | none => ∀ q, ¬Holds s q
  | some none => ∃ p, s.alive p = true ∧ s.place p = .writing ∧ ∀ q, Holds s q → q = p
  | some (some owner) =>
    (s.alive owner = true → (s.place owner).holds = true) ∧ ∀ q, Holds s q → q = owner ∧ s.place q ≠ .writing

section moving
variable {s : LockState P} {p : P}

@[simp] theorem move_alive (place : Place P) (lock : Option (Option P)) : (s.move p place lock).alive = s.alive := rfl
@[simp] theorem move_lock (place : Place P) (lock : Option (Option P)) : (s.move p place lock).lock = lock := rfl
@[simp] theorem move_place (place : Place P) (lock : Option (Option P)) : (s.move p place lock).place p = place :=
  Function.update_self ..

theorem move_place_ne {q : P} (place : Place P) (lock : Option (Option P)) (h : q ≠ p) :
    (s.move p place lock).place q = s.place q := Function.update_of_ne h ..

/-- Who else holds the lock does not change. -/
theorem holds_move {q : P} {place : Place P} {lock : Option (Option P)} (h : Holds (s.move p place lock) q) :
    q = p ∧ place.holds = true ∨ q ≠ p ∧ Holds s q := by
  by_cases hq : q = p
  · subst hq
    exact .inl ⟨rfl, by simpa using h.2⟩
  · refine .inr ⟨hq, h.1, ?_⟩
    rw [← move_place_ne place lock hq]
    exact h.2

/-- A process that holds nothing before or after leaves the invariant alone. -/
theorem inv_bystander {place : Place P} (hi : LockInv s) (hp : (s.place p).holds = false)
    (hplace : place.holds = false) : LockInv (s.move p place s.lock) := by
  have hback : ∀ {lock q}, Holds (s.move p place lock) q → q ≠ p ∧ Holds s q := by
    intro lock q h
    rcases holds_move h with ⟨_, h⟩ | h
    · rw [hplace] at h
      cases h
    · exact h
  unfold LockInv at hi ⊢
  rw [move_lock]
  cases hl : s.lock with
  | none =>
    simp only [hl] at hi ⊢
    exact fun q h => hi q (hback h).2
  | some content =>
    cases content with
    | none =>
      simp only [hl] at hi ⊢
      obtain ⟨r, ha, hr, honly⟩ := hi
      have hne : r ≠ p := by
        rintro rfl
        rw [hr] at hp
        cases hp
      exact ⟨r, ha, by rw [move_place_ne _ _ hne, hr], fun q h => honly q (hback h).2⟩
    | some owner =>
      simp only [hl] at hi ⊢
      obtain ⟨hown, honly⟩ := hi
      refine ⟨fun ha => ?_, fun q h => ?_⟩
      · have hholds := hown ha
        have hne : owner ≠ p := by
          rintro rfl
          rw [hp] at hholds
          cases hholds
        rwa [move_place_ne _ _ hne]
      · obtain ⟨hne, hs⟩ := hback h
        rw [move_place_ne _ _ hne]
        exact honly q hs

omit [DecidableEq P] in
/-- The live process that holds the lock is the one the lock tells. -/
theorem holder_cases (hi : LockInv s) (hp : Holds s p) :
    s.lock = some none ∧ s.place p = .writing ∧ (∀ q, Holds s q → q = p) ∨
      s.lock = some (some p) ∧ s.place p ≠ .writing ∧ ∀ q, Holds s q → q = p := by
  unfold LockInv at hi
  split at hi
  · exact absurd hp (hi p)
  · rename_i hl
    obtain ⟨r, _, hr, honly⟩ := hi
    obtain rfl : p = r := honly p hp
    exact .inl ⟨hl, hr, honly⟩
  · rename_i owner hl
    obtain ⟨rfl, hne⟩ := hi.2 p hp
    exact .inr ⟨hl, hne, fun q hq => (hi.2 q hq).1⟩

theorem inv_held {place : Place P} (ha : s.alive p = true) (hplace : place.holds = true) (hw : place ≠ .writing)
    (honly : ∀ q, Holds s q → q = p) : LockInv (s.move p place (some (some p))) := by
  refine ⟨fun _ => by simpa using hplace, fun q h => ?_⟩
  rcases holds_move h with ⟨rfl, _⟩ | ⟨hne, h⟩
  · exact ⟨rfl, by simpa using hw⟩
  · exact absurd (honly q h) hne

theorem inv_free {place : Place P} (hplace : place.holds = false) (honly : ∀ q, Holds s q → q = p) :
    LockInv (s.move p place none) := by
  intro q h
  rcases holds_move h with ⟨_, h⟩ | ⟨hne, h⟩
  · rw [hplace] at h
    cases h
  · exact hne (honly q h)

end moving

/-! ## Every step keeps the invariant -/

theorem inv_proceed {s : LockState P} {p : P} (hi : LockInv s) (ha : s.alive p = true)
    (hok : Sober s (.proceed p)) : LockInv (proceed s p) := by
  -- a process that holds the lock is the one the lock tells; the others look on
  have hholder : (s.place p).holds = true → Holds s p := fun h => ⟨ha, h⟩
  unfold proceed
  cases hp : s.place p with
  | idle => exact hi
  | making =>
    simp only
    cases hl : s.lock with
    | none =>
      simp only [LockInv, hl] at hi
      refine ⟨p, ha, by simp, fun q h => ?_⟩
      rcases holds_move h with ⟨rfl, _⟩ | ⟨_, h⟩
      · rfl
      · exact absurd h (hi q)
    | some content =>
      simp only
      rw [← hl]
      exact inv_bystander hi (by rw [hp]; rfl) rfl
  | writing =>
    simp only
    rcases holder_cases hi (hholder (by rw [hp]; rfl)) with ⟨hl, _, honly⟩ | ⟨_, hne, _⟩
    · simp only [hl]
      exact inv_held ha rfl (by simp) honly
    · exact absurd hp hne
  | running =>
    rcases holder_cases hi (hholder (by rw [hp]; rfl)) with ⟨_, hw, _⟩ | ⟨hl, _, honly⟩
    · rw [hp] at hw
      cases hw
    · simp only [hl]
      exact inv_held ha rfl (by simp) honly
  | leaving =>
    rcases holder_cases hi (hholder (by rw [hp]; rfl)) with ⟨_, _, honly⟩ | ⟨_, _, honly⟩
    · exact inv_free rfl honly
    · exact inv_free rfl honly
  | reading =>
    simp only
    split <;> exact inv_bystander hi (by rw [hp]; rfl) rfl
  | checking owner =>
    simp only
    split <;> exact inv_bystander hi (by rw [hp]; rfl) rfl
  | removing owner =>
    have hnone : ∀ q, ¬Holds s q := hok ⟨owner, hp⟩
    simp only
    split <;> exact inv_free rfl fun q h => absurd h (hnone q)

theorem inv_crash {s : LockState P} {p : P} (hi : LockInv s) (hp : s.place p ≠ .writing) :
    LockInv (s.next (.crash p)) := by
  have hback : ∀ q, Holds (s.next (.crash p)) q → Holds s q := by
    intro q h
    refine ⟨?_, h.2⟩
    have ha := h.1
    by_cases hq : q = p
    · subst hq
      simp [LockState.next] at ha
    · simpa [LockState.next, Function.update_of_ne hq] using ha
  unfold LockInv at hi ⊢
  have hlock : (s.next (.crash p)).lock = s.lock := rfl
  rw [hlock]
  split at hi
  · exact fun q h => hi q (hback q h)
  · rename_i hl
    obtain ⟨r, ha, hr, honly⟩ := hi
    have hne : r ≠ p := by
      rintro rfl
      exact hp hr
    exact ⟨r, by simpa [LockState.next, Function.update_of_ne hne] using ha, hr, fun q h => honly q (hback q h)⟩
  · rename_i owner hl
    refine ⟨fun ha => hi.1 ?_, fun q h => hi.2 q (hback q h)⟩
    by_cases hq : owner = p
    · subst hq
      simp [LockState.next] at ha
    · simpa [LockState.next, Function.update_of_ne hq] using ha

theorem inv_step {s t : LockState P} {e : LockEvent P} {os : List Unit} (hi : LockInv s) (h : LockStep s e os t)
    (hok : Sober s e) : LockInv t := by
  obtain ⟨rfl, hadm⟩ := h
  cases e with
  | call p =>
    simp only [LockState.admits, Bool.and_eq_true, beq_iff_eq] at hadm
    exact inv_bystander hi (by rw [hadm.2]; rfl) rfl
  | proceed p =>
    simp only [LockState.admits, Bool.and_eq_true] at hadm
    exact inv_proceed hi hadm.1 hok
  | crash p => exact inv_crash hi hok

/-! ## What the invariant says -/

omit [DecidableEq P] in
theorem exclusive_of_inv {s : LockState P} (hi : LockInv s) : Exclusive s := by
  intro p q hp hq hrp hrq
  rcases holder_cases hi (p := p) ⟨hp, by rw [hrp]; rfl⟩ with ⟨_, _, honly⟩ | ⟨_, _, honly⟩
  · exact (honly q ⟨hq, by rw [hrq]; rfl⟩).symm
  · exact (honly q ⟨hq, by rw [hrq]; rfl⟩).symm

theorem removesOwn_of_inv {s : LockState P} {e : LockEvent P} (hi : LockInv s) (hadm : s.admits e = true)
    (hok : Sober s e) : RemovesOwn s e := by
  rintro p rfl hplace hl
  simp only [LockState.admits, Bool.and_eq_true] at hadm
  rcases hplace with hp | ⟨owner, hp⟩
  · rcases holder_cases hi (p := p) ⟨hadm.1, by rw [hp]; rfl⟩ with ⟨_, hw, _⟩ | ⟨hl, _, _⟩
    · rw [hp] at hw
      cases hw
    · exact ⟨p, hl, .inl rfl⟩
  · have hnone : ∀ q, ¬Holds s q := hok ⟨owner, hp⟩
    unfold LockInv at hi
    split at hi
    · exact absurd ‹s.lock = none› hl
    · obtain ⟨r, ha, hr, _⟩ := hi
      exact absurd ⟨ha, by rw [hr]; rfl⟩ (hnone r)
    · rename_i owner' hl
      refine ⟨owner', hl, .inr (Bool.eq_false_iff.2 fun ha => ?_)⟩
      exact hnone owner' ⟨ha, hi.1 ha⟩

/-- A call that finds no lock, or one of a dead owner, gets through. -/
theorem recoverable_of_inv {s : LockState P} (hi : LockInv s) : Recoverable s := by
  intro hnone p ha hp
  unfold LockInv at hi
  split at hi
  · rename_i hl
    refine ⟨2, ?_⟩
    simp [Function.iterate_succ, LockState.next, proceed, hl]
  · obtain ⟨r, hr, hw, _⟩ := hi
    exact absurd ⟨hr, by rw [hw]; rfl⟩ (hnone r)
  · rename_i owner hl
    have hdead : s.alive owner = false := Bool.eq_false_iff.2 fun h => hnone owner ⟨h, hi.1 h⟩
    refine ⟨6, ?_⟩
    simp [Function.iterate_succ, LockState.next, proceed, hl, hdead]

/-- In every run in which no process crashes between the two creations, and
none removes a lock it found dead while a live process holds it: at most one
live process is inside `run`, a process only removes its own lock or one whose
recorded owner is dead, and once no live process holds the lock the next call
obtains it. -/
theorem lock_safe {h : Hist (LockEvent P) Unit} {s : LockState P}
    (hr : Run (Guard LockStep Sober) LockState.init h s) :
    Exclusive s ∧ Recoverable s ∧ ∀ e os t, Guard LockStep Sober s e os t → RemovesOwn s e := by
  have hi : LockInv s := hr.inv LockInv (fun _ h => nomatch h.2) fun _ _ _ _ hi hst => inv_step hi hst.1 hst.2
  exact ⟨exclusive_of_inv hi, recoverable_of_inv hi, fun e os t hst => removesOwn_of_inv hi hst.1.2 hst.2⟩

/-! ## Where it is not -/

/-- The events of a run from the start. -/
def lockHistory (es : List (LockEvent Nat)) : Hist (LockEvent Nat) Unit :=
  play LockState.next (fun _ _ => []) LockState.init es

/-- The processes after these events. -/
def lockAfter (es : List (LockEvent Nat)) : LockState Nat := es.foldl LockState.next LockState.init

theorem lock_run (es : List (LockEvent Nat)) (h : allOk LockState.next LockState.admits LockState.init es = true) :
    Run LockStep LockState.init (lockHistory es) (lockAfter es) :=
  run_guarded LockState.next (fun _ _ => []) (fun _ _ => rfl) h

/-- A call and `n` steps of it. -/
def steps (p n : Nat) : List (LockEvent Nat) := .call p :: List.replicate n (.proceed p)

/-- A process crashes inside `run`; two others find it dead before either removes
its lock. The second removes the lock the first has made in its place. -/
def demoTakeover : List (LockEvent Nat) :=
  steps 0 2 ++ [.crash 0] ++ steps 1 3 ++ steps 2 3 ++ List.replicate 3 (.proceed 1) ++ List.replicate 3 (.proceed 2)

/-- A process crashes before it has written the owner. -/
def demoUnowned : List (LockEvent Nat) := steps 0 1 ++ [.crash 0]

theorem takeover_not_exclusive : ¬∀ h s, Run LockStep (LockState.init : LockState Nat) h s → Exclusive s := by
  intro H
  have h := H _ _ (lock_run demoTakeover (by decide)) 1 2 (by decide) (by decide) (by decide) (by decide)
  cases h

/-- A call that has ended goes nowhere. -/
theorem proceed_idle {s : LockState P} {p : P} (h : s.place p = .idle) : proceed s p = s := by
  unfold proceed
  rw [h]

theorem crash_unrecoverable : ¬∀ h s, Run LockStep (LockState.init : LockState Nat) h s → Recoverable s := by
  intro H
  have hdead : ∀ q, ¬Holds (lockAfter demoUnowned) q := by
    intro q h
    have ha := h.1
    have hp := h.2
    match q with
    | 0 => cases ha
    | q + 1 => cases hp
  obtain ⟨n, hn⟩ := H _ _ (lock_run demoUnowned (by decide)) hdead 1 (by decide) (by decide)
  -- the owner's file is missing, and every later call fails like this one
  have hidle : ∀ s : LockState Nat, s.place 1 = .idle → ∀ n, ((proceed · 1)^[n] s).place 1 = .idle := by
    intro s hs n
    induction n with
    | zero => exact hs
    | succ n ih =>
      rw [Function.iterate_succ_apply', proceed_idle ih]
      exact ih
  match n with
  | 0 => cases hn
  | 1 => cases hn
  | n + 2 =>
    rw [Function.iterate_add_apply, hidle _ (by decide)] at hn
    cases hn

/-- The lock is neither exclusive nor recoverable in every run. -/
theorem lock_fails : (¬∀ h s, Run LockStep (LockState.init : LockState Nat) h s → Exclusive s) ∧
    ¬∀ h s, Run LockStep (LockState.init : LockState Nat) h s → Recoverable s :=
  ⟨takeover_not_exclusive, crash_unrecoverable⟩

/-- A step that removes no lock found dead and is no crash between the two creations. -/
def LockState.plain (s : LockState P) : LockEvent P → Bool
  | .call _ => true
  | .proceed p =>
    match s.place p with
    | .removing _ => false
    | _ => true
  | .crash p => s.place p != .writing

theorem sober_of_plain {s : LockState P} {e : LockEvent P} (h : s.plain e = true) : Sober s e := by
  cases e with
  | call p => trivial
  | proceed p =>
    rintro ⟨owner, hp⟩
    simp [LockState.plain, hp] at h
  | crash p => simpa [LockState.plain, Sober] using h

/-- A process crashes inside `run`; the next call obtains the lock. -/
theorem lock_safe_demo : Obtains (lockAfter (steps 0 2 ++ [.crash 0])) 1 := by
  have hr : Run (Guard LockMove fun s e => (s.admits e && s.plain e) = true) LockState.init
      (lockHistory (steps 0 2 ++ [.crash 0])) (lockAfter (steps 0 2 ++ [.crash 0])) :=
    run_guarded LockState.next (fun _ _ => []) (fun _ _ => rfl) (by decide)
  have hsober : Run (Guard LockStep Sober) LockState.init
      (lockHistory (steps 0 2 ++ [.crash 0])) (lockAfter (steps 0 2 ++ [.crash 0])) := by
    refine hr.mono fun s e os t h => ?_
    obtain ⟨hn, hok⟩ := h
    rw [Bool.and_eq_true] at hok
    exact ⟨⟨hn, hok.1⟩, sober_of_plain hok.2⟩
  refine (lock_safe hsober).2.1 ?_ 1 (by decide) (by decide)
  intro q h
  have ha := h.1
  have hp := h.2
  match q with
  | 0 => cases ha
  | q + 1 => cases hp

end Leitwerk.Coding
