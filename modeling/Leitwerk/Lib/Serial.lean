import Mathlib.Logic.Function.Basic
/-!
# Tasks chained by key

A task waits for the task of its key that was last in the queue when it was
added. Once that one has settled it may start, whatever the tasks of other keys
do. A settled task still has to finish, which takes it out of the queue if it is
the last one there.

`Ordered` says what the chain is for: a task that has started has nothing of
its key before it that has not settled (`Ordered.order`), and a queue that is
not empty ends in a task that has not finished (`Ordered.tail`).
-/

namespace Serial

variable {K D X : Type}

/-- Where a task is; `running` tells what of it runs, `stopped` that it never goes on. -/
inductive Phase (X : Type) where
  | waiting
  | running (part : X)
  | settled (ok : Bool)
  | finished (ok : Bool)
  | stopped
  deriving DecidableEq

/-- Nothing of the task runs any more. -/
def Phase.over : Phase X → Bool
  | .waiting | .running _ => false
  | _ => true

/-- The task is still to finish. -/
def Phase.unfinished : Phase X → Bool
  | .waiting | .running _ | .settled _ => true
  | _ => false

/-- A task and the task it waits for. -/
structure Task (K D X : Type) where
  key : K
  data : D
  pred : Option Nat
  phase : Phase X

/-- The tasks in the order in which they were added, and the last one of each key's queue. -/
structure Tasks (K D X : Type) where
  tasks : List (Task K D X)
  queue : K → Option Nat

/-- No task yet. -/
def Tasks.init : Tasks K D X := ⟨[], fun _ => none⟩

/-- The task of an index. -/
def Tasks.at (s : Tasks K D X) (i : Nat) : Option (Task K D X) := s.tasks[i]?

/-- Whether the task of an index has settled, or will never. -/
def Tasks.isOver (s : Tasks K D X) (i : Nat) : Bool := (s.at i).any (·.phase.over)

/-- Whether a waiting task may start. -/
def Tasks.ready (s : Tasks K D X) (task : Task K D X) : Bool :=
  match task.phase with
  | .waiting => task.pred.all s.isOver
  | _ => false

/-- The task of an index gets to another phase. -/
def Tasks.setPhase (s : Tasks K D X) (i : Nat) (phase : Phase X) : Tasks K D X :=
  { s with tasks := s.tasks.modify i fun task => { task with phase := phase } }

/-- Every task that has not finished is stopped, and the queues are forgotten. -/
def Tasks.stop (s : Tasks K D X) : Tasks K D X where
  tasks := s.tasks.map fun task => if task.phase.unfinished then { task with phase := .stopped } else task
  queue := fun _ => none

section keyed
variable [DecidableEq K]

/-- A task is added and waits for the last one of its key. -/
def Tasks.add (s : Tasks K D X) (key : K) (data : D) : Tasks K D X where
  tasks := s.tasks ++ [⟨key, data, s.queue key, .waiting⟩]
  queue := Function.update s.queue key (some s.tasks.length)

/-- A task finishes, and leaves the queue if it is the last one. -/
def Tasks.finish (s : Tasks K D X) (i : Nat) (key : K) (ok : Bool) : Tasks K D X :=
  let done := s.setPhase i (.finished ok)
  if s.queue key = some i then { done with queue := Function.update s.queue key none } else done

end keyed

/-! ## What the operations do to a task -/

theorem at_setPhase (s : Tasks K D X) (i : Nat) (phase : Phase X) (j : Nat) :
    (s.setPhase i phase).at j = if i = j then (s.at j).map fun task => { task with phase := phase } else s.at j := by
  simp only [Tasks.at, Tasks.setPhase, List.getElem?_modify]
  split <;> simp

theorem at_setPhase_ne {s : Tasks K D X} {i j : Nat} (phase : Phase X) (h : i ≠ j) :
    (s.setPhase i phase).at j = s.at j := by
  rw [at_setPhase, if_neg h]

theorem at_lt {s : Tasks K D X} {i : Nat} {task : Task K D X} (h : s.at i = some task) : i < s.tasks.length :=
  (List.getElem?_eq_some_iff.1 h).1

theorem over_of_not_unfinished {p : Phase X} (h : p.unfinished = false) : p.over = true := by
  cases p <;> simp_all [Phase.unfinished, Phase.over]

/-! ## The order of the tasks -/

/-- What the chain keeps. -/
structure Ordered (s : Tasks K D X) : Prop where
  tail : ∀ key i, s.queue key = some i → ∃ task, s.at i = some task ∧ task.key = key ∧
    task.phase.unfinished = true ∧ ∀ j other, i < j → s.at j = some other → other.key ≠ key
  empty : ∀ key, s.queue key = none → ∀ i task, s.at i = some task → task.key = key → task.phase.over = true
  chain : ∀ i task, s.at i = some task → task.phase = .waiting →
    match task.pred with
    | none => ∀ j other, j < i → s.at j = some other → other.key = task.key → other.phase.over = true
    | some p => ∃ before, p < i ∧ s.at p = some before ∧ before.key = task.key ∧
        ∀ j other, p < j → j < i → s.at j = some other → other.key ≠ task.key
  order : ∀ i j task other, j < i → s.at i = some task → s.at j = some other → other.key = task.key →
    task.phase ≠ .waiting → other.phase.over = true

theorem ordered_init : Ordered (Tasks.init : Tasks K D X) where
  tail := nofun
  empty := fun _ _ _ _ h => nomatch h
  chain := fun _ _ h => nomatch h
  order := fun _ _ _ _ _ h => nomatch h

section keyed
variable [DecidableEq K] {s : Tasks K D X}

theorem at_add {key : K} {data : D} {i : Nat} {task : Task K D X} (h : (s.add key data).at i = some task) :
    s.at i = some task ∨ i = s.tasks.length ∧ task = ⟨key, data, s.queue key, .waiting⟩ := by
  simp only [Tasks.at, Tasks.add] at h ⊢
  rcases Nat.lt_trichotomy i s.tasks.length with hi | hi | hi
  · rw [List.getElem?_append_left hi] at h
    exact .inl h
  · subst hi
    simp only [List.getElem?_concat_length, Option.some.injEq] at h
    exact .inr ⟨rfl, h.symm⟩
  · rw [List.getElem?_eq_none (by simp; omega)] at h
    cases h

theorem at_add_of {key : K} {data : D} {i : Nat} {task : Task K D X} (h : s.at i = some task) :
    (s.add key data).at i = some task := by
  have hlt := at_lt h
  simp only [Tasks.at, Tasks.add] at h ⊢
  rw [List.getElem?_append_left hlt, h]

/-- A task is added behind the last one of its key. -/
theorem Ordered.add (h : Ordered s) (key : K) (data : D) : Ordered (s.add key data) where
  tail := by
    intro k i hq
    simp only [Tasks.add] at hq
    by_cases hk : k = key
    · subst hk
      rw [Function.update_self, Option.some.injEq] at hq
      subst hq
      refine ⟨⟨k, data, s.queue k, .waiting⟩, by simp [Tasks.at, Tasks.add], rfl, rfl, ?_⟩
      intro j other hlt hat
      rcases at_add hat with hat | ⟨rfl, _⟩
      · exact absurd (at_lt hat) (by omega)
      · exact absurd hlt (Nat.lt_irrefl _)
    · rw [Function.update_of_ne hk] at hq
      obtain ⟨task, hat, hkey, hu, hlast⟩ := h.tail k i hq
      refine ⟨task, at_add_of hat, hkey, hu, fun j other hlt hat => ?_⟩
      rcases at_add hat with hat | ⟨_, rfl⟩
      · exact hlast j other hlt hat
      · exact fun heq => hk heq.symm
  empty := by
    intro k hq i task hat hkey
    simp only [Tasks.add] at hq
    by_cases hk : k = key
    · subst hk
      simp at hq
    · rw [Function.update_of_ne hk] at hq
      rcases at_add hat with hat | ⟨_, rfl⟩
      · exact h.empty k hq i task hat hkey
      · exact absurd hkey.symm hk
  chain := by
    intro i task hat hw
    rcases at_add hat with hat | ⟨rfl, rfl⟩
    · have hc := h.chain i task hat hw
      have hlt := at_lt hat
      revert hc
      cases task.pred with
      | none =>
        intro hc j other hj hother
        rcases at_add hother with hother | ⟨rfl, _⟩
        · exact hc j other hj hother
        · exact absurd hj (by omega)
      | some p =>
        rintro ⟨before, hp, hbefore, hkey, hbetween⟩
        refine ⟨before, hp, at_add_of hbefore, hkey, fun j other hpj hj hother => ?_⟩
        rcases at_add hother with hother | ⟨rfl, _⟩
        · exact hbetween j other hpj hj hother
        · exact absurd hj (by omega)
    · simp only
      cases hq : s.queue key with
      | none =>
        intro j other hj hother hkey
        rcases at_add hother with hother | ⟨rfl, _⟩
        · exact h.empty key hq j other hother hkey
        · exact absurd hj (Nat.lt_irrefl _)
      | some p =>
        obtain ⟨before, hbefore, hkey, _, hlast⟩ := h.tail key p hq
        refine ⟨before, at_lt hbefore, at_add_of hbefore, hkey, fun j other hpj hj hother => ?_⟩
        rcases at_add hother with hother | ⟨rfl, _⟩
        · exact hlast j other hpj hother
        · exact absurd hj (Nat.lt_irrefl _)
  order := by
    intro i j task other hj hat hother hkey hw
    rcases at_add hat with hat | ⟨_, rfl⟩
    · rcases at_add hother with hother | ⟨rfl, _⟩
      · exact h.order i j task other hj hat hother hkey hw
      · exact absurd (at_lt hat) (by omega)
    · exact absurd rfl hw

omit [DecidableEq K] in
/-- Everything of its key before a ready task is over. -/
theorem Ordered.before_ready {i : Nat} {task : Task K D X} (h : Ordered s) (hat : s.at i = some task)
    (hr : s.ready task = true) {j : Nat} {other : Task K D X} (hj : j < i) (hother : s.at j = some other)
    (hkey : other.key = task.key) : other.phase.over = true := by
  unfold Tasks.ready at hr
  split at hr
  · rename_i hw
    have hc := h.chain i task hat hw
    cases hp : task.pred with
    | none =>
      simp only [hp] at hc
      exact hc j other hj hother hkey
    | some p =>
      simp only [hp] at hc
      obtain ⟨before, hpi, hbefore, hbkey, hbetween⟩ := hc
      have hover : before.phase.over = true := by
        simpa [hp, Tasks.isOver, hbefore] using hr
      rcases Nat.lt_trichotomy j p with hjp | rfl | hjp
      · refine h.order p j before other hjp hbefore hother (hkey.trans hbkey.symm) ?_
        intro hw
        rw [hw] at hover
        cases hover
      · rw [hbefore] at hother
        cases hother
        exact hover
      · exact absurd hkey (hbetween j other hjp hj hother)
  · cases hr

omit [DecidableEq K] in
/-- A task moves on: it starts when it is ready, or it has started before. -/
theorem Ordered.setPhase {i : Nat} {task : Task K D X} {phase : Phase X} (h : Ordered s) (hat : s.at i = some task)
    (hstart : s.ready task = true ∨ task.phase ≠ .waiting) (hw : phase ≠ .waiting)
    (hu : phase.unfinished = true) (hover : task.phase.over = true → phase.over = true) :
    Ordered (s.setPhase i phase) := by
  -- the task of an index, before and after
  have hcases : ∀ {j other}, (s.setPhase i phase).at j = some other →
      j = i ∧ other = { task with phase := phase } ∨ j ≠ i ∧ s.at j = some other := by
    intro j other hj
    rw [at_setPhase] at hj
    split at hj
    · subst ‹i = j›
      rw [hat] at hj
      cases hj
      exact .inl ⟨rfl, rfl⟩
    · exact .inr ⟨fun hji => ‹¬i = j› hji.symm, hj⟩
  have hself : (s.setPhase i phase).at i = some { task with phase := phase } := by
    rw [at_setPhase, if_pos rfl, hat]
    rfl
  have hat' : ∀ {j other}, s.at j = some other →
      ∃ moved, (s.setPhase i phase).at j = some moved ∧ moved.key = other.key ∧
        (other.phase.unfinished = true → moved.phase.unfinished = true) := by
    intro j other hj
    by_cases hji : i = j
    · subst hji
      rw [hat] at hj
      cases hj
      exact ⟨_, hself, rfl, fun _ => hu⟩
    · exact ⟨other, by rw [at_setPhase_ne phase hji, hj], rfl, id⟩
  have hbefore : ∀ {j other}, j < i → s.at j = some other → other.key = task.key → other.phase.over = true := by
    intro j other hj hother hkey
    rcases hstart with hr | hne
    · exact h.before_ready hat hr hj hother hkey
    · exact h.order i j task other hj hat hother hkey hne
  refine ⟨?_, ?_, ?_, ?_⟩
  · intro key j hq
    obtain ⟨last, hlast, hkey, hun, hafter⟩ := h.tail key j hq
    obtain ⟨moved, hmoved, hmkey, hmun⟩ := hat' hlast
    refine ⟨moved, hmoved, hmkey.trans hkey, hmun hun, fun l other hl hother => ?_⟩
    rcases hcases hother with ⟨rfl, rfl⟩ | ⟨_, hother⟩
    · exact hafter l task hl hat
    · exact hafter l other hl hother
  · intro key hq j other hother hkey
    rcases hcases hother with ⟨rfl, rfl⟩ | ⟨_, hother⟩
    · exact hover (h.empty key hq j task hat hkey)
    · exact h.empty key hq j other hother hkey
  · intro j other hother hwait
    rcases hcases hother with ⟨_, rfl⟩ | ⟨_, hother⟩
    · exact absurd hwait hw
    · have hc := h.chain j other hother hwait
      revert hc
      cases other.pred with
      | none =>
        intro hc l o hl ho hkey
        rcases hcases ho with ⟨rfl, rfl⟩ | ⟨_, ho⟩
        · exact hover (hc l task hl hat hkey)
        · exact hc l o hl ho hkey
      | some p =>
        rintro ⟨before, hp, hb, hkey, hbetween⟩
        obtain ⟨moved, hmoved, hmkey, _⟩ := hat' hb
        refine ⟨moved, hp, hmoved, hmkey.trans hkey, fun l o hpl hl ho => ?_⟩
        rcases hcases ho with ⟨rfl, rfl⟩ | ⟨_, ho⟩
        · exact hbetween l task hpl hl hat
        · exact hbetween l o hpl hl ho
  · intro a b x y hb hx hy hkey hwait
    rcases hcases hx with ⟨rfl, rfl⟩ | ⟨_, hx'⟩
    · rcases hcases hy with ⟨rfl, _⟩ | ⟨_, hy'⟩
      · exact absurd hb (Nat.lt_irrefl _)
      · exact hbefore hb hy' hkey
    · rcases hcases hy with ⟨rfl, rfl⟩ | ⟨_, hy'⟩
      · exact hover (h.order a b x task hb hx' hat hkey hwait)
      · exact h.order a b x y hb hx' hy' hkey hwait

/-- A settled task finishes, and takes itself out of the queue. -/
theorem Ordered.finish {i : Nat} {task : Task K D X} {ok : Bool} (h : Ordered s) (hat : s.at i = some task)
    (hs : task.phase = .settled ok) : Ordered (s.finish i task.key ok) := by
  have hcases : ∀ {j other}, (s.setPhase i (.finished ok)).at j = some other →
      j = i ∧ other = { task with phase := .finished ok } ∨ j ≠ i ∧ s.at j = some other := by
    intro j other hj
    rw [at_setPhase] at hj
    split at hj
    · subst ‹i = j›
      rw [hat] at hj
      cases hj
      exact .inl ⟨rfl, rfl⟩
    · exact .inr ⟨fun hji => ‹¬i = j› hji.symm, hj⟩
  have hself : (s.setPhase i (.finished ok)).at i = some { task with phase := .finished ok } := by
    rw [at_setPhase, if_pos rfl, hat]
    rfl
  have hover : task.phase.over = true := by rw [hs]; rfl
  -- the queues that go on lose nothing
  have htail : ∀ key j, s.queue key = some j → j ≠ i → ∃ task, (s.setPhase i (.finished ok)).at j = some task ∧
      task.key = key ∧ task.phase.unfinished = true ∧
      ∀ l other, j < l → (s.setPhase i (.finished ok)).at l = some other → other.key ≠ key := by
    intro key j hq hji
    obtain ⟨last, hlast, hkey, hun, hafter⟩ := h.tail key j hq
    refine ⟨last, by rw [at_setPhase_ne _ (Ne.symm hji), hlast], hkey, hun, fun l other hl hother => ?_⟩
    rcases hcases hother with ⟨rfl, rfl⟩ | ⟨_, hother⟩
    · exact hafter l task hl hat
    · exact hafter l other hl hother
  have hchain : ∀ j other, (s.setPhase i (.finished ok)).at j = some other → other.phase = .waiting →
      match other.pred with
      | none => ∀ l o, l < j → (s.setPhase i (.finished ok)).at l = some o → o.key = other.key → o.phase.over = true
      | some p => ∃ before, p < j ∧ (s.setPhase i (.finished ok)).at p = some before ∧ before.key = other.key ∧
          ∀ l o, p < l → l < j → (s.setPhase i (.finished ok)).at l = some o → o.key ≠ other.key := by
    intro j other hother hwait
    rcases hcases hother with ⟨_, rfl⟩ | ⟨_, hother⟩
    · cases hwait
    · have hc := h.chain j other hother hwait
      revert hc
      cases other.pred with
      | none =>
        intro hc l o hl ho hkey
        rcases hcases ho with ⟨_, rfl⟩ | ⟨_, ho⟩
        · rfl
        · exact hc l o hl ho hkey
      | some p =>
        rintro ⟨before, hp, hb, hkey, hbetween⟩
        have hmoved : ∃ moved, (s.setPhase i (.finished ok)).at p = some moved ∧ moved.key = before.key := by
          by_cases hpi : i = p
          · subst hpi
            rw [hat] at hb
            cases hb
            exact ⟨_, hself, rfl⟩
          · exact ⟨before, by rw [at_setPhase_ne _ hpi, hb], rfl⟩
        obtain ⟨moved, hmoved, hmkey⟩ := hmoved
        refine ⟨moved, hp, hmoved, hmkey.trans hkey, fun l o hpl hl ho => ?_⟩
        rcases hcases ho with ⟨rfl, rfl⟩ | ⟨_, ho⟩
        · exact hbetween l task hpl hl hat
        · exact hbetween l o hpl hl ho
  have horder : ∀ a b x y, b < a → (s.setPhase i (.finished ok)).at a = some x →
      (s.setPhase i (.finished ok)).at b = some y → y.key = x.key → x.phase ≠ .waiting → y.phase.over = true := by
    intro a b x y hb hx hy hkey hwait
    rcases hcases hy with ⟨_, rfl⟩ | ⟨_, hy'⟩
    · rfl
    · rcases hcases hx with ⟨rfl, rfl⟩ | ⟨_, hx'⟩
      · exact h.order a b task y hb hat hy' hkey (by rw [hs]; simp)
      · exact h.order a b x y hb hx' hy' hkey hwait
  unfold Tasks.finish
  simp only
  split
  · rename_i hq
    refine ⟨fun key j hj => ?_, fun key hn j other hother hkey => ?_, hchain, horder⟩
    · by_cases hk : key = task.key
      · subst hk
        simp at hj
      · simp only [Function.update_of_ne hk] at hj
        refine htail key j hj ?_
        rintro rfl
        obtain ⟨last, hlast, hkey, _⟩ := h.tail key j hj
        rw [hat] at hlast
        cases hlast
        exact hk hkey.symm
    · by_cases hk : key = task.key
      · subst hk
        obtain ⟨last, hlast, _, _, hafter⟩ := h.tail _ i hq
        rcases hcases hother with ⟨_, rfl⟩ | ⟨hji, hother'⟩
        · rfl
        · rcases Nat.lt_or_gt_of_ne hji with hlt | hgt
          · exact h.order i j task other hlt hat hother' hkey (by rw [hs]; simp)
          · exact absurd hkey (hafter j other hgt hother')
      · simp only [Function.update_of_ne hk] at hn
        rcases hcases hother with ⟨_, rfl⟩ | ⟨_, hother'⟩
        · rfl
        · exact h.empty key hn j other hother' hkey
  · rename_i hq
    refine ⟨fun key j hj => htail key j hj ?_, fun key hn j other hother hkey => ?_, hchain, horder⟩
    · rintro rfl
      obtain ⟨last, hlast, hkey, _⟩ := h.tail key j hj
      rw [hat] at hlast
      cases hlast
      exact hq (hkey ▸ hj)
    · rcases hcases hother with ⟨_, rfl⟩ | ⟨_, hother'⟩
      · rfl
      · exact h.empty key hn j other hother' hkey

omit [DecidableEq K] in
/-- After a stop everything is over. -/
theorem over_stop {i : Nat} {task : Task K D X} (h : s.stop.at i = some task) : task.phase.over = true := by
  simp only [Tasks.at, Tasks.stop, List.getElem?_map, Option.map_eq_some_iff] at h
  obtain ⟨before, _, rfl⟩ := h
  split
  · rfl
  · rename_i hu
    exact over_of_not_unfinished (Bool.eq_false_iff.2 hu)

omit [DecidableEq K] in
theorem ordered_stop : Ordered s.stop where
  tail := nofun
  empty := fun _ _ _ _ hat _ => over_stop hat
  chain := by
    intro i task hat hw
    have := over_stop hat
    rw [hw] at this
    cases this
  order := fun _ _ _ _ _ _ hother _ _ => over_stop hother

end keyed

end Serial
