import Mathlib.Data.List.Basic
import Mathlib.Data.List.Induction
/-!
# Runs of an event-driven machine

A machine meets one event at a time, moves to a new state and emits outputs.
A `Run` is a finite sequence of such steps with its history, the events and
what each of them emitted. A property of every run therefore holds for every
order in which the events can arrive.

Three rules carry the proofs about runs: `Run.inv` (an invariant every step
keeps), `Run.hist` (the same, where the invariant also speaks about the
history) and `Run.until` (a property that holds until some step releases it).
`Guard` restricts a machine to steps that meet a condition on the state before
the step and the event.
-/

namespace Runs

variable {S T E O : Type}

/-- `step s e os t`: on event `e` in state `s` the machine emits `os` and is in `t`. -/
abbrev Step (S E O : Type) := S → E → List O → S → Prop

/-- The events of a run with the outputs of each, oldest first. -/
abbrev Hist (E O : Type) := List (E × List O)

/-- Everything a history emitted, in order. -/
def emitted (h : Hist E O) : List O := h.flatMap (·.2)

/-- The events of a history, in order. -/
def events (h : Hist E O) : List E := h.map (·.1)

/-- `Run step s h t`: the steps of history `h` lead from `s` to `t`. -/
inductive Run (step : Step S E O) (s : S) : Hist E O → S → Prop
  | nil : Run step s [] s
  | snoc {h t e os u} : Run step s h t → step t e os u → Run step s (h ++ [(e, os)]) u

/-- The machine whose steps all meet `ok`. -/
def Guard (step : Step S E O) (ok : S → E → Prop) : Step S E O :=
  fun s e os t => step s e os t ∧ ok s e

/-! ## Histories -/

@[simp] theorem emitted_nil : emitted ([] : Hist E O) = [] := rfl

@[simp] theorem emitted_snoc (h : Hist E O) (e : E) (os : List O) :
    emitted (h ++ [(e, os)]) = emitted h ++ os := by
  simp [emitted]

@[simp] theorem emitted_append (h h' : Hist E O) : emitted (h ++ h') = emitted h ++ emitted h' := by
  simp [emitted]

@[simp] theorem events_snoc (h : Hist E O) (e : E) (os : List O) :
    events (h ++ [(e, os)]) = events h ++ [e] := by
  simp [events]

/-! ## Runs -/

variable {step : Step S E O}

theorem Run.single {s t : S} {e : E} {os : List O} (h : step s e os t) : Run step s [(e, os)] t :=
  Run.nil.snoc h

theorem Run.append {s t u : S} {h h' : Hist E O} (hr : Run step s h t) (hr' : Run step t h' u) :
    Run step s (h ++ h') u := by
  induction hr' with
  | nil => simpa using hr
  | snoc _ hst ih => rw [← List.append_assoc]; exact ih.snoc hst

/-- A run of fewer steps is a run of more. -/
theorem Run.mono {step' : Step S E O} (hsub : ∀ s e os t, step s e os t → step' s e os t)
    {s t : S} {h : Hist E O} (hr : Run step s h t) : Run step' s h t := by
  induction hr with
  | nil => exact .nil
  | snoc _ hst ih => exact ih.snoc (hsub _ _ _ _ hst)

/-- A run of a machine is a run of every machine that simulates it, where `f`
relates their states and `g` what they emit. -/
theorem Run.map {S' O' : Type} {step' : Step S' E O'} (f : S → S') (g : List O → List O')
    (hsim : ∀ s e os t, step s e os t → step' (f s) e (g os) (f t))
    {s t : S} {h : Hist E O} (hr : Run step s h t) :
    Run step' (f s) (h.map fun x => (x.1, g x.2)) (f t) := by
  induction hr with
  | nil => exact .nil
  | snoc _ hst ih =>
    rw [List.map_append]
    exact ih.snoc (hsim _ _ _ _ hst)

theorem Run.of_guard {ok : S → E → Prop} {s t : S} {h : Hist E O} (hr : Run (Guard step ok) s h t) :
    Run step s h t :=
  hr.mono fun _ _ _ _ h => h.1

/-- An invariant that every step keeps holds after every run. -/
theorem Run.inv {s t : S} {h : Hist E O} (hr : Run step s h t) (I : S → Prop) (h0 : I s)
    (hs : ∀ a e os b, I a → step a e os b → I b) : I t := by
  induction hr with
  | nil => exact h0
  | snoc _ hst ih => exact hs _ _ _ _ ih hst

/-- The same for an invariant about the state and the history. -/
theorem Run.hist {s t : S} {h : Hist E O} (hr : Run step s h t) (I : Hist E O → S → Prop) (h0 : I [] s)
    (hs : ∀ h a e os b, I h a → step a e os b → I (h ++ [(e, os)]) b) : I h t := by
  induction hr with
  | nil => exact h0
  | snoc _ hst ih => exact hs _ _ _ _ _ ih hst

/-- The history of a machine that computes its next state and its outputs. -/
def play (next : S → E → S) (out : S → E → List O) : S → List E → Hist E O
  | _, [] => []
  | s, e :: es => (e, out s e) :: play next out (next s e) es

theorem run_play (next : S → E → S) (out : S → E → List O) (hstep : ∀ s e, step s e (out s e) (next s e))
    (s : S) (es : List E) : Run step s (play next out s es) (es.foldl next s) := by
  induction es generalizing s with
  | nil => exact .nil
  | cons e es ih => exact (Run.single (hstep s e)).append (ih (next s e))

/-- Whether each of the events meets `ok` in the state it arrives in. -/
def allOk (next : S → E → S) (ok : S → E → Bool) : S → List E → Bool
  | _, [] => true
  | s, e :: es => ok s e && allOk next ok (next s e) es

theorem run_guarded (next : S → E → S) (out : S → E → List O) {ok : S → E → Bool}
    (hstep : ∀ s e, step s e (out s e) (next s e)) {s : S} {es : List E} (hok : allOk next ok s es = true) :
    Run (Guard step fun s e => ok s e = true) s (play next out s es) (es.foldl next s) := by
  induction es generalizing s with
  | nil => exact .nil
  | cons e es ih =>
    simp only [allOk, Bool.and_eq_true] at hok
    exact (Run.single ⟨hstep s e, hok.1⟩).append (ih hok.2)

/-- "`Q` until `R`": if every step from a state with `Q` keeps `Q` or is a
release, then after a run `Q` still holds or some step of it was a release. -/
theorem Run.until {s t : S} {h : Hist E O} (hr : Run step s h t) (Q : S → Prop) (R : E → List O → Prop)
    (h0 : Q s) (hs : ∀ a e os b, Q a → step a e os b → Q b ∨ R e os) :
    Q t ∨ ∃ x ∈ h, R x.1 x.2 := by
  induction hr with
  | nil => exact .inl h0
  | @snoc h a e os b _ hst ih =>
    rcases ih with hq | ⟨x, hx, hR⟩
    · rcases hs _ _ _ _ hq hst with hq' | hR
      · exact .inl hq'
      · exact .inr ⟨(e, os), by simp, hR⟩
    · exact .inr ⟨x, List.mem_append_left _ hx, hR⟩

/-- Every entry of a run's history is a step of the machine from a state that
an earlier part of the run reached, and the rest of the run follows it. -/
theorem Run.split {s u : S} {h pre post : Hist E O} {e : E} {os : List O} (hr : Run step s h u)
    (he : h = pre ++ (e, os) :: post) :
    ∃ a b, Run step s pre a ∧ step a e os b ∧ Run step b post u := by
  induction hr generalizing post with
  | nil => simp at he
  | @snoc h a e' os' b hr' hst ih =>
    rcases List.eq_nil_or_concat post with rfl | ⟨post', x, rfl⟩
    · obtain ⟨rfl, hx⟩ := List.append_inj' he rfl
      simp only [List.cons.injEq, Prod.mk.injEq, and_true] at hx
      obtain ⟨rfl, rfl⟩ := hx
      exact ⟨a, b, hr', hst, .nil⟩
    · rw [List.concat_eq_append, ← List.cons_append, ← List.append_assoc] at he
      obtain ⟨rfl, hx⟩ := List.append_inj' he rfl
      simp only [List.cons.injEq, and_true] at hx
      obtain ⟨a', b', h1, h2, h3⟩ := ih rfl
      refine ⟨a', b', h1, h2, ?_⟩
      rw [List.concat_eq_append, ← hx]
      exact h3.snoc hst

/-- Without steps a run stays where it is. -/
theorem Run.of_nil {s t : S} (hr : Run step s [] t) : t = s := by
  generalize hnil : ([] : Hist E O) = h at hr
  cases hr with
  | nil => rfl
  | snoc => simp at hnil

/-- The last step of a run. -/
theorem Run.last {s u : S} {h : Hist E O} {e : E} {os : List O} (hr : Run step s (h ++ [(e, os)]) u) :
    ∃ a, Run step s h a ∧ step a e os u := by
  obtain ⟨a, b, hpre, hst, hpost⟩ := hr.split rfl
  exact ⟨a, hpre, hpost.of_nil ▸ hst⟩

/-- The first part of a run is a run. -/
theorem Run.of_append {s u : S} {h h' : Hist E O} (hr : Run step s (h ++ h') u) : ∃ a, Run step s h a := by
  induction h' using List.reverseRecOn generalizing u with
  | nil => exact ⟨u, by simpa using hr⟩
  | append_singleton h' x ih =>
    obtain ⟨e, os⟩ := x
    rw [← List.append_assoc] at hr
    obtain ⟨a, ha, -⟩ := hr.last
    exact ih ha

/-- Where a step has one outcome, a history leads to one state. -/
theorem Run.unique (hdet : ∀ s e os t t', step s e os t → step s e os t' → t = t') {s t t' : S} {h : Hist E O}
    (hr : Run step s h t) (hr' : Run step s h t') : t = t' := by
  induction hr generalizing t' with
  | nil => exact hr'.of_nil.symm
  | snoc _ hst ih =>
    obtain ⟨a, ha, hst'⟩ := hr'.last
    obtain rfl := ih ha
    exact hdet _ _ _ _ _ hst hst'

end Runs
