import Leitwerk.Supervisor.CapacityQueue
/-!
# The capacity queue keeps its limit and its requests

Invariants of every run of the queue: it never allocates more workers than the
limit, an instance waits or starts but not both, and whoever waits while there
is capacity has a wake scheduled. On top of them, what becomes of the order of
the waiting instances and of one request.
-/

namespace Leitwerk.Supervisor

open Runs CapacityQueue

variable {limit : Nat} {q q' : CapacityQueue} {e : CapacityEvent} {os : List CapacityOutput}
  {h : Hist CapacityEvent CapacityOutput} {i j : InstanceId} {s : StartId}

/-! ## Keys of the waiting map -/

theorem keys_setWaiting (waiting : List (InstanceId × StartId)) (i : InstanceId) (s : StartId) :
    (setWaiting waiting i s).map Prod.fst =
      if i ∈ waiting.map Prod.fst then waiting.map Prod.fst else waiting.map Prod.fst ++ [i] := by
  unfold setWaiting
  split
  · rw [List.map_map]
    apply List.map_congr_left
    intro e _
    simp only [Function.comp]
    split
    · rename_i h
      exact h.symm
    · rfl
  · simp

theorem mem_setWaiting (waiting : List (InstanceId × StartId)) (i : InstanceId) (s : StartId) :
    (i, s) ∈ setWaiting waiting i s := by
  unfold setWaiting
  split
  · rename_i h
    obtain ⟨e, he, hi⟩ := List.mem_map.1 h
    exact List.mem_map.2 ⟨e, he, if_pos hi⟩
  · simp

theorem mem_setWaiting_ne {waiting : List (InstanceId × StartId)} (hne : i ≠ j) {s' : StartId}
    (h : (i, s) ∈ waiting) : (i, s) ∈ setWaiting waiting j s' := by
  unfold setWaiting
  split
  · exact List.mem_map.2 ⟨(i, s), h, if_neg hne⟩
  · exact List.mem_append_left _ h

/-- A set entry is looked up again, so requesting it once more changes nothing. -/
theorem lookup_mem {waiting : List (InstanceId × StartId)} (h : waiting.lookup i = some s) : (i, s) ∈ waiting := by
  induction waiting with
  | nil => cases h
  | cons e rest ih =>
    obtain ⟨k, v⟩ := e
    by_cases hk : i = k
    · subst hk
      simp only [List.lookup_cons, BEq.rfl, Option.some.injEq] at h
      subst h
      exact List.mem_cons_self
    · rw [List.lookup_cons, beq_eq_false_iff_ne.2 hk] at h
      exact List.mem_cons_of_mem _ (ih h)

@[simp] theorem waiting_wake (q : CapacityQueue) : q.wake.waiting = q.waiting := by
  unfold wake; split <;> rfl

@[simp] theorem starting_wake (q : CapacityQueue) : q.wake.starting = q.starting := by
  unfold wake; split <;> rfl

@[simp] theorem active_wake (q : CapacityQueue) : q.wake.active = q.active := by
  unfold wake; split <;> rfl

@[simp] theorem stopped_wake (q : CapacityQueue) : q.wake.stopped = q.stopped := by
  unfold wake; split <;> rfl

/-! ## The invariant -/

/-- What every state of the queue satisfies. -/
structure Admitting (limit : Nat) (q : CapacityQueue) : Prop where
  waiters : q.waiters.Nodup
  starting : q.starting.Nodup
  disjoint : ∀ i ∈ q.waiters, i ∉ q.starting
  active : q.active.Nodup
  within : q.allocated ≤ limit
  awake : q.waiting ≠ [] → q.hasCapacity limit = true → q.stopped = false → q.scheduled = true
  quiet : q.stopped = true → q.waiting = []

/-- A queue as it is created, over workers that were adopted within the limit. -/
structure Created (limit : Nat) (q : CapacityQueue) : Prop where
  empty : q = { active := q.active }
  active : q.active.Nodup
  within : q.active.length ≤ limit

theorem Created.admitting (h : Created limit q) : Admitting limit q := by
  have hw : q.waiting = [] := by rw [h.empty]
  have hs : q.starting = [] := by rw [h.empty]
  refine ⟨?_, ?_, ?_, h.active, ?_, fun hne => absurd hw hne, fun _ => hw⟩
  · simp [CapacityQueue.waiters, hw]
  · simp [hs]
  · simp [CapacityQueue.waiters, hw]
  · simpa [allocated, hs] using h.within

/-- A wake is scheduled for whoever waits, or nobody does. -/
theorem awake_wake (q : CapacityQueue) (hw : q.waiting ≠ []) (hs : q.stopped = false) : q.wake.scheduled = true := by
  unfold wake
  split
  · rename_i h
    simpa [hs, hw] using h
  · rfl

/-- The waiting map, the starts in flight and the workers after a wake are those before it. -/
theorem Admitting.of_wake (hw : q.waiters.Nodup) (hs : q.starting.Nodup) (hd : ∀ i ∈ q.waiters, i ∉ q.starting)
    (ha : q.active.Nodup) (hl : q.allocated ≤ limit) (hq : q.stopped = true → q.waiting = []) :
    Admitting limit q.wake where
  waiters := by simpa [CapacityQueue.waiters] using hw
  starting := by simpa using hs
  disjoint := by simpa [CapacityQueue.waiters] using hd
  active := by simpa using ha
  within := by simpa [allocated] using hl
  awake := by
    intro hne _ hst
    rw [waiting_wake] at hne
    rw [stopped_wake] at hst
    exact awake_wake q hne hst
  quiet := by simpa using hq

/-- Starting one more instance stays within a limit that still has room. -/
theorem allocated_launch {active starting : List InstanceId} {limit : Nat}
    (h : active.length + starting.length < limit) :
    active.length + ((starting ++ [i]).filter (· ∉ active)).length ≤ limit := by
  have hle : ((starting ++ [i]).filter (· ∉ active)).length ≤ (starting ++ [i]).length := List.length_filter_le _ _
  rw [List.length_append, List.length_singleton] at hle
  omega

theorem Admitting.request (hq : Admitting limit q) : Admitting limit (q.request limit i s).1 := by
  unfold CapacityQueue.request
  by_cases hstop : q.stopped = true
  · rw [if_pos hstop]; exact hq
  rw [if_neg hstop]
  rw [Bool.not_eq_true] at hstop
  by_cases hin : i ∈ q.starting
  · rw [if_pos hin]; exact hq
  rw [if_neg hin]
  by_cases hnow : (q.waiting.isEmpty && q.hasCapacity limit) = true
  · -- nobody waits, so the instance starts at once
    rw [if_pos hnow]
    rw [Bool.and_eq_true, List.isEmpty_iff] at hnow
    obtain ⟨hnil, hcap⟩ := hnow
    refine ⟨hq.waiters, ?_, ?_, hq.active, ?_, fun h => absurd hnil h, hq.quiet⟩
    · exact List.nodup_append'.2 ⟨hq.starting, List.nodup_singleton i, by simpa using hin⟩
    · simp [CapacityQueue.waiters, hnil]
    · exact allocated_launch (by simpa [hasCapacity] using hcap)
  · rw [if_neg hnow]
    by_cases hsame : q.waiting.lookup i = some s
    · rw [if_pos hsame]
      exact .of_wake hq.waiters hq.starting hq.disjoint hq.active hq.within hq.quiet
    · rw [if_neg hsame]
      have hkeys := keys_setWaiting q.waiting i s
      refine .of_wake ?_ hq.starting ?_ hq.active hq.within ?_
      · show ((setWaiting q.waiting i s).map Prod.fst).Nodup
        rw [hkeys]
        split
        · exact hq.waiters
        · rename_i hk
          exact List.nodup_append'.2 ⟨hq.waiters, List.nodup_singleton i, by simpa using hk⟩
      · intro k hk
        have hk : k ∈ (setWaiting q.waiting i s).map Prod.fst := hk
        rw [hkeys] at hk
        split at hk
        · exact hq.disjoint k hk
        · rcases List.mem_append.1 hk with hk | hk
          · exact hq.disjoint k hk
          · rw [List.mem_singleton] at hk
            exact hk ▸ hin
      · intro h
        exact absurd h (by simp [hstop])

theorem Admitting.tick (hq : Admitting limit q) (isCurrent : InstanceId → StartId → Bool) :
    Admitting limit (q.tick limit isCurrent).1 := by
  obtain ⟨taken, h⟩ := admit_spec limit isCurrent q.active hq.waiters hq.disjoint
  have hsplit : q.waiting.map Prod.fst =
      taken.map Prod.fst ++ (admitWaiting limit isCurrent q.active q.waiting q.starting).1.map Prod.fst := by
    rw [← List.map_append]
    exact congrArg (List.map Prod.fst) h.front
  have hn := hq.waiters
  rw [CapacityQueue.waiters, hsplit, List.nodup_append'] at hn
  have hsub : ∀ k ∈ (taken.filter fun e => isCurrent e.1 e.2).map Prod.fst, k ∈ taken.map Prod.fst :=
    (List.filter_sublist.map Prod.fst).subset
  have hnew : ((taken.filter fun e => isCurrent e.1 e.2).map Prod.fst).Nodup :=
    hn.1.sublist (List.filter_sublist.map Prod.fst)
  have hdis : ∀ k ∈ q.waiting.map Prod.fst, k ∉ q.starting := hq.disjoint
  refine ⟨hn.2.1, ?_, ?_, hq.active, ?_, ?_, ?_⟩
  · show (admitWaiting limit isCurrent q.active q.waiting q.starting).2.1.Nodup
    rw [h.starts]
    refine List.nodup_append'.2 ⟨hq.starting, hnew, fun k hk hk' => ?_⟩
    exact hdis k (hsplit ▸ List.mem_append_left _ (hsub k hk')) hk
  · intro k hk hk'
    have hk : k ∈ (admitWaiting limit isCurrent q.active q.waiting q.starting).1.map Prod.fst := hk
    have hk' : k ∈ (admitWaiting limit isCurrent q.active q.waiting q.starting).2.1 := hk'
    rw [h.starts] at hk'
    rcases List.mem_append.1 hk' with hk' | hk'
    · exact hdis k (hsplit ▸ List.mem_append_right _ hk) hk'
    · exact hn.2.2 (hsub k hk') hk
  · show q.active.length + ((admitWaiting limit isCurrent q.active q.waiting q.starting).2.1.filter (· ∉ q.active)).length ≤ limit
    by_cases hsame : (admitWaiting limit isCurrent q.active q.waiting q.starting).2.1 = q.starting
    · rw [hsame]
      exact hq.within
    · have hle : ((admitWaiting limit isCurrent q.active q.waiting q.starting).2.1.filter (· ∉ q.active)).length ≤ _ :=
        List.length_filter_le _ _
      have := h.within hsame
      omega
  · -- the loop only leaves somebody waiting where it ran out of capacity
    intro hne hcap _
    have hne : (admitWaiting limit isCurrent q.active q.waiting q.starting).1 ≠ [] := hne
    obtain ⟨e, rest, hr⟩ := List.exists_cons_of_ne_nil hne
    have hfull := (h.blocked e (by rw [hr]; rfl)).2
    have hcap := of_decide_eq_true hcap
    exact absurd hcap (Nat.not_lt.2 hfull)
  · intro hstop
    have hnil := hq.quiet hstop
    simp [CapacityQueue.tick, hnil, admitWaiting]

theorem Admitting.settled (hq : Admitting limit q) : Admitting limit ({ q with starting := q.starting.erase i }.wake) := by
  refine .of_wake hq.waiters (hq.starting.erase i) ?_ hq.active ?_ hq.quiet
  · intro k hk hk'
    exact hq.disjoint k hk (List.mem_of_mem_erase hk')
  · have hle : ((q.starting.erase i).filter (· ∉ q.active)).length ≤ (q.starting.filter (· ∉ q.active)).length :=
      (List.erase_sublist.filter _).length_le
    have := hq.within
    simp only [allocated] at this ⊢
    omega

/-- Counting an instance among the workers instead of the starts in flight. -/
theorem length_filter_registered {starting active : List InstanceId} (hn : starting.Nodup) (hi : i ∈ starting)
    (ha : i ∉ active) :
    (starting.filter (· ∉ active ++ [i])).length + 1 = (starting.filter (· ∉ active)).length := by
  induction starting with
  | nil => cases hi
  | cons k rest ih =>
    rw [List.nodup_cons] at hn
    by_cases hk : k = i
    · subst hk
      have hrest : rest.filter (· ∉ active ++ [k]) = rest.filter (· ∉ active) := by
        apply List.filter_congr
        intro l hl
        have hne : l ≠ k := fun h => hn.1 (h ▸ hl)
        simp [hne]
      rw [List.filter_cons_of_neg (by simp), List.filter_cons_of_pos (by simpa using ha), hrest, List.length_cons]
    · have hi' : i ∈ rest := (List.mem_cons.1 hi).resolve_left (Ne.symm hk)
      have := ih hn.2 hi'
      by_cases hka : k ∈ active
      · simpa [hka] using this
      · simp only [List.filter_cons, List.mem_append, hka, List.mem_singleton, hk, or_self, not_false_eq_true,
          decide_true, if_true, List.length_cons]
        simp only [List.mem_append, List.mem_singleton] at this
        omega

theorem Admitting.registered (hq : Admitting limit q) (hi : i ∈ q.starting) (ha : i ∉ q.active) :
    Admitting limit { q with active := q.active ++ [i] } := by
  refine ⟨hq.waiters, hq.starting, hq.disjoint, ?_, ?_, ?_, hq.quiet⟩
  · exact List.nodup_append'.2 ⟨hq.active, List.nodup_singleton i, by simpa using ha⟩
  · have hcount := length_filter_registered hq.starting hi ha
    have := hq.within
    simp only [allocated, List.length_append, List.length_singleton] at this ⊢
    omega
  · intro hne hcap hs
    simp only [hasCapacity, List.length_append, List.length_singleton, decide_eq_true_eq] at hcap
    exact hq.awake hne (by simp only [hasCapacity, decide_eq_true_eq]; omega) hs

/-- An exit takes one worker, and its start in flight counts again where there is one. -/
theorem length_filter_exited {starting active : List InstanceId} (hn : starting.Nodup) (hi : i ∈ active) :
    (active.erase i).length + (starting.filter (· ∉ active.erase i)).length ≤
      active.length + (starting.filter (· ∉ active)).length := by
  have hlen : (active.erase i).length + 1 = active.length := by
    rw [List.length_erase_of_mem hi]
    have := List.length_pos_of_mem hi
    omega
  have hsub : (starting.filter (· ∉ active.erase i)).length ≤ (starting.filter (· ∉ active)).length + 1 := by
    clear hlen
    induction starting with
    | nil => simp
    | cons k rest ih =>
      rw [List.nodup_cons] at hn
      by_cases hk : k = i
      · subst hk
        have hrest : rest.filter (· ∉ active.erase k) = rest.filter (· ∉ active) := by
          apply List.filter_congr
          intro l hl
          have hne : l ≠ k := fun h => hn.1 (h ▸ hl)
          simp [List.mem_erase_of_ne hne]
        have hold : (k :: rest).filter (· ∉ active) = rest.filter (· ∉ active) :=
          List.filter_cons_of_neg (by simpa using hi)
        rw [hold, ← hrest, List.filter_cons]
        split
        · simp
        · omega
      · have := ih hn.2
        by_cases hka : k ∈ active
        · simpa [List.mem_erase_of_ne hk, hka] using this
        · have hke : k ∉ active.erase i := fun h => hka (List.mem_of_mem_erase h)
          simpa [hke, hka] using this
  omega

theorem Admitting.exited (hq : Admitting limit q) : Admitting limit ({ q with active := q.active.erase i }.wake) := by
  refine .of_wake hq.waiters hq.starting hq.disjoint (hq.active.erase i) ?_ hq.quiet
  by_cases hi : i ∈ q.active
  · have := length_filter_exited hq.starting hi
    have := hq.within
    simp only [allocated] at this ⊢
    omega
  · rw [List.erase_of_not_mem hi]
    exact hq.within

theorem Admitting.cancel (hq : Admitting limit q) : Admitting limit (q.cancel i) := by
  have hsub : ((q.waiting.filter (·.1 ≠ i)).map Prod.fst).Sublist (q.waiting.map Prod.fst) :=
    List.filter_sublist.map _
  refine .of_wake (hq.waiters.sublist hsub) hq.starting ?_ hq.active hq.within ?_
  · intro k hk
    exact hq.disjoint k (hsub.subset hk)
  · intro hs
    show q.waiting.filter (·.1 ≠ i) = []
    rw [hq.quiet hs]
    rfl

theorem Admitting.step (hq : Admitting limit q) (he : q.Enabled e) : Admitting limit (q.step limit e).1 := by
  cases e with
  | request i s => exact hq.request
  | tick isCurrent => exact hq.tick isCurrent
  | registered i => exact hq.registered he.1 he.2
  | settled i => exact hq.settled
  | exited i => exact hq.exited
  | cancel i => exact hq.cancel
  | wake => exact .of_wake hq.waiters hq.starting hq.disjoint hq.active hq.within hq.quiet
  | stop => exact ⟨List.nodup_nil, hq.starting, by simp [CapacityQueue.step, CapacityQueue.stop, CapacityQueue.waiters],
      hq.active, hq.within, fun h => absurd rfl h, fun _ => rfl⟩

theorem admitting_run {q₀ : CapacityQueue} (h₀ : Admitting limit q₀) (hr : Run (CapacityStep limit) q₀ h q) :
    Admitting limit q := by
  refine hr.inv (Admitting limit) h₀ ?_
  intro a e os b ha hst
  have := ha.step hst.1
  rwa [hst.2] at this

/-! ## First come, first started -/

/-- `i` waits, and `j` does not wait in front of it. -/
def Ahead (i j : InstanceId) (waiters : List InstanceId) : Prop := ∃ a b, waiters = a ++ i :: b ∧ j ∉ a ∧ i ≠ j

/-- The outputs after which an instance no longer waits. -/
inductive Releases (i : InstanceId) : CapacityOutput → Prop
  | launched (s : StartId) : Releases i (.launched i s)
  | dropped (s : StartId) : Releases i (.dropped i s)
  | cancelled : Releases i (.cancelled i)
  | stopped : Releases i .stopped

/-- No start of `j` is among the outputs. -/
def Unstarted (j : InstanceId) (os : List CapacityOutput) : Prop := ∀ s, CapacityOutput.launched j s ∉ os

/-- `i` was released, and before that `j` was not started. -/
def FirstReleased (i j : InstanceId) (os : List CapacityOutput) : Prop :=
  ∃ pre o post, os = pre ++ o :: post ∧ Releases i o ∧ Unstarted j pre

theorem ahead_of_waiting {l : List InstanceId} (hi : i ∈ l) (hj : j ∉ l) : Ahead i j l := by
  obtain ⟨a, b, rfl⟩ := List.append_of_mem hi
  refine ⟨a, b, rfl, fun h => hj (List.mem_append_left _ h), ?_⟩
  rintro rfl
  exact hj hi

theorem Ahead.append {l : List InstanceId} (h : Ahead i j l) (k : InstanceId) : Ahead i j (l ++ [k]) := by
  obtain ⟨a, b, rfl, hj, hne⟩ := h
  exact ⟨a, b ++ [k], by simp, hj, hne⟩

theorem Ahead.filter {l : List InstanceId} (h : Ahead i j l) {k : InstanceId} (hk : i ≠ k) :
    Ahead i j (l.filter (· ≠ k)) := by
  obtain ⟨a, b, rfl, hj, hne⟩ := h
  refine ⟨a.filter (· ≠ k), b.filter (· ≠ k), ?_, fun h => hj (List.mem_of_mem_filter h), hne⟩
  rw [List.filter_append, List.filter_cons_of_pos (by simpa using hk)]

theorem unstarted_admitted {isCurrent : InstanceId → StartId → Bool} {taken : List (InstanceId × StartId)}
    (hj : j ∉ taken.map Prod.fst) : Unstarted j (taken.map (admitted isCurrent)) := by
  intro s hs
  obtain ⟨e, he, hes⟩ := List.mem_map.1 hs
  unfold admitted at hes
  split at hes
  · cases hes
    exact hj (List.mem_map.2 ⟨e, he, rfl⟩)
  · cases hes

theorem releases_admitted (isCurrent : InstanceId → StartId → Bool) (e : InstanceId × StartId) :
    Releases e.1 (admitted isCurrent e) := by
  unfold admitted
  split
  · exact .launched _
  · exact .dropped _

/-- The loop takes `i` before `j`, or takes neither. -/
theorem ahead_admits {isCurrent : InstanceId → StartId → Bool} {taken rest : List (InstanceId × StartId)}
    (h : Ahead i j ((taken ++ rest).map Prod.fst)) :
    Ahead i j (rest.map Prod.fst) ∧ Unstarted j (taken.map (admitted isCurrent)) ∨
      FirstReleased i j (taken.map (admitted isCurrent)) := by
  obtain ⟨a, b, hab, hj, hne⟩ := h
  rw [List.map_append] at hab
  rcases List.append_eq_append_iff.1 hab with ⟨c, ha, hr⟩ | ⟨c, ht, hb⟩
  · left
    rw [ha, List.mem_append, not_or] at hj
    exact ⟨⟨c, b, hr, hj.2, hne⟩, unstarted_admitted hj.1⟩
  · cases c with
    | nil =>
      left
      rw [List.append_nil] at ht
      exact ⟨⟨[], b, hb.symm, List.not_mem_nil, hne⟩, unstarted_admitted (ht ▸ hj)⟩
    | cons k c =>
      right
      obtain ⟨rfl, -⟩ := List.cons_eq_cons.1 hb
      obtain ⟨t₁, t₂, rfl, h₁, h₂⟩ := List.map_eq_append_iff.1 ht
      obtain ⟨e, t₃, rfl, rfl, -⟩ := List.map_eq_cons_iff.1 h₂
      refine ⟨t₁.map (admitted isCurrent), admitted isCurrent e, t₃.map (admitted isCurrent), by simp, ?_, ?_⟩
      · exact releases_admitted isCurrent e
      · exact unstarted_admitted (h₁ ▸ hj)

theorem ahead_step (hq : Admitting limit q) (ha : Ahead i j q.waiters) (hst : CapacityStep limit q e os q') :
    Ahead i j q'.waiters ∧ Unstarted j os ∨ FirstReleased i j os := by
  obtain ⟨hen, hst⟩ := hst
  cases e with
  | request k s =>
    simp only [CapacityQueue.step, CapacityQueue.request] at hst
    split at hst
    · cases hst; exact .inl ⟨ha, by simp [Unstarted]⟩
    split at hst
    · cases hst; exact .inl ⟨ha, by simp [Unstarted]⟩
    split at hst
    · -- nobody waits here, but `i` does
      rename_i hnow
      rw [Bool.and_eq_true, List.isEmpty_iff] at hnow
      obtain ⟨a, b, hab, -⟩ := ha
      rw [CapacityQueue.waiters, hnow.1] at hab
      simp at hab
    split at hst
    · cases hst
      exact .inl ⟨by simpa [CapacityQueue.waiters] using ha, by simp [Unstarted]⟩
    · cases hst
      refine .inl ⟨?_, by simp [Unstarted]⟩
      rw [CapacityQueue.waiters, waiting_wake, keys_setWaiting]
      split
      · exact ha
      · exact ha.append k
  | tick isCurrent =>
    obtain ⟨taken, h⟩ := admit_spec limit isCurrent q.active hq.waiters hq.disjoint
    simp only [CapacityQueue.step, CapacityQueue.tick] at hst
    cases hst
    rw [h.outputs]
    rw [CapacityQueue.waiters, h.front] at ha
    exact ahead_admits ha
  | registered k => cases hst; exact .inl ⟨ha, by simp [Unstarted]⟩
  | settled k => cases hst; exact .inl ⟨by simpa [CapacityQueue.waiters] using ha, by simp [Unstarted]⟩
  | exited k => cases hst; exact .inl ⟨by simpa [CapacityQueue.waiters] using ha, by simp [Unstarted]⟩
  | cancel k =>
    cases hst
    by_cases hk : i = k
    · subst hk
      exact .inr ⟨[], _, [], rfl, .cancelled, by simp [Unstarted]⟩
    · refine .inl ⟨?_, by simp [Unstarted]⟩
      have hkeys : (q.cancel k).waiters = q.waiters.filter (· ≠ k) := by
        rw [CapacityQueue.waiters, CapacityQueue.cancel, waiting_wake, CapacityQueue.waiters, List.filter_map]
        rfl
      rw [hkeys]
      exact ha.filter hk
  | wake => cases hst; exact .inl ⟨by simpa [CapacityQueue.waiters] using ha, by simp [Unstarted]⟩
  | stop => cases hst; exact .inr ⟨[], _, [], rfl, .stopped, by simp [Unstarted]⟩

/-- Until `i` is released, `j` is not started, whatever happens. -/
theorem ahead_run (hq : Admitting limit q) (ha : Ahead i j q.waiters) (hr : Run (CapacityStep limit) q h q') :
    Ahead i j q'.waiters ∧ Unstarted j (emitted h) ∨ FirstReleased i j (emitted h) := by
  have hinv : Admitting limit q' ∧ (Ahead i j q'.waiters ∧ Unstarted j (emitted h) ∨ FirstReleased i j (emitted h)) := by
    refine hr.hist (fun h q => Admitting limit q ∧
      (Ahead i j q.waiters ∧ Unstarted j (emitted h) ∨ FirstReleased i j (emitted h))) ?_ ?_
    · exact ⟨hq, .inl ⟨ha, by simp [Unstarted]⟩⟩
    · intro h a e os b ⟨hadm, hi⟩ hst
      have hadm' : Admitting limit b := by
        have := hadm.step hst.1
        rwa [hst.2] at this
      refine ⟨hadm', ?_⟩
      rw [emitted_snoc]
      rcases hi with ⟨ha, hun⟩ | ⟨pre, o, post, ho, hrel, hun⟩
      · rcases ahead_step hadm ha hst with ⟨ha', hun'⟩ | ⟨pre, o, post, ho, hrel, hun'⟩
        · refine .inl ⟨ha', fun s hs => ?_⟩
          rcases List.mem_append.1 hs with hs | hs
          · exact hun s hs
          · exact hun' s hs
        · refine .inr ⟨emitted h ++ pre, o, post, by rw [ho, List.append_assoc], hrel, fun s hs => ?_⟩
          rcases List.mem_append.1 hs with hs | hs
          · exact hun s hs
          · exact hun' s hs
      · exact .inr ⟨pre, o, post ++ os, by rw [ho, List.append_assoc, List.cons_append], hrel, hun⟩
  exact hinv.2

/-- A start is preceded by the release of everyone who waited before its instance did. -/
theorem released_before {os pre post : List CapacityOutput} (hne : i ≠ j) (h : Unstarted j os ∨ FirstReleased i j os)
    (hos : os = pre ++ .launched j s :: post) : ∃ o ∈ pre, Releases i o := by
  rcases h with hun | ⟨p, o, p', ho, hrel, hun⟩
  · exact absurd (hos ▸ List.mem_append_right _ List.mem_cons_self) (hun s)
  have ho' : o ≠ .launched j s := by
    rintro rfl
    cases hrel
    exact hne rfl
  rw [hos] at ho
  rcases List.append_eq_append_iff.1 ho with ⟨c, hp, hc⟩ | ⟨c, hp, hc⟩
  · cases c with
    | nil => exact absurd (List.cons_eq_cons.1 hc).1.symm ho'
    | cons k c => exact absurd (hp ▸ List.mem_append_right _ ((List.cons_eq_cons.1 hc).1 ▸ List.mem_cons_self)) (hun s)
  · cases c with
    | nil => exact absurd (List.cons_eq_cons.1 hc).1 ho'
    | cons k c => exact ⟨o, hp ▸ List.mem_append_right _ ((List.cons_eq_cons.1 hc).1 ▸ List.mem_cons_self), hrel⟩

/-! ## What becomes of a request -/

/-- The outputs that end what a request is entitled to: it is cancelled or found to be out of
date, another start of the instance is requested, the start made for it settles. -/
inductive Ends (i : InstanceId) (s : StartId) : CapacityOutput → Prop
  | cancelled : Ends i s (.cancelled i)
  | stopped : Ends i s .stopped
  | dropped : Ends i s (.dropped i s)
  | replaced (s' : StartId) (h : s' ≠ s) : Ends i s (.queued i s')
  | settled : Ends i s (.settled i)

/-- The request waits, or a start of its instance is in flight. -/
def Held (i : InstanceId) (s : StartId) (q : CapacityQueue) : Prop := (i, s) ∈ q.waiting ∨ i ∈ q.starting

theorem lookup_of_mem {waiting : List (InstanceId × StartId)} (hn : (waiting.map Prod.fst).Nodup)
    (h : (i, s) ∈ waiting) : waiting.lookup i = some s := by
  induction waiting with
  | nil => cases h
  | cons e rest ih =>
    obtain ⟨k, v⟩ := e
    rw [List.map_cons, List.nodup_cons] at hn
    rcases List.mem_cons.1 h with h | h
    · cases h
      simp
    · have hne : i ≠ k := fun hk => hn.1 (List.mem_map.2 ⟨(i, s), h, hk⟩)
      rw [List.lookup_cons, beq_eq_false_iff_ne.2 hne]
      exact ih hn.2 h

/-- A waiting request still waits or starts after another request. -/
theorem held_request (hq : Admitting limit q) (hh : Held i s q) (k : InstanceId) (s' : StartId) :
    Held i s (q.request limit k s').1 ∨ ∃ o ∈ (q.request limit k s').2, Ends i s o := by
  unfold CapacityQueue.request
  split
  · exact .inl hh
  split
  · exact .inl hh
  split
  · rename_i hnow
    rw [Bool.and_eq_true, List.isEmpty_iff] at hnow
    left
    rcases hh with hw | hs
    · rw [hnow.1] at hw; cases hw
    · exact .inr (List.mem_append_left _ hs)
  split
  · left
    simpa [Held] using hh
  · rename_i hlook
    rcases hh with hw | hs
    · by_cases hk : i = k
      · subst hk
        have hne : s' ≠ s := fun h => hlook (h ▸ lookup_of_mem hq.waiters hw)
        exact .inr ⟨_, List.mem_singleton_self _, .replaced s' hne⟩
      · left
        exact .inl (by simpa using mem_setWaiting_ne hk hw)
    · left
      exact .inr (by simpa using hs)

theorem held_step (hq : Admitting limit q) (hh : Held i s q) (hst : CapacityStep limit q e os q') :
    Held i s q' ∨ ∃ o ∈ os, Ends i s o := by
  obtain ⟨hen, hst⟩ := hst
  cases e with
  | request k s' =>
    have := held_request hq hh k s'
    rwa [show q.request limit k s' = (q', os) from hst] at this
  | tick isCurrent =>
    obtain ⟨taken, h⟩ := admit_spec limit isCurrent q.active hq.waiters hq.disjoint
    simp only [CapacityQueue.step, CapacityQueue.tick] at hst
    cases hst
    rcases hh with hw | hs
    · rw [h.front] at hw
      rcases List.mem_append.1 hw with hw | hw
      · by_cases hc : isCurrent i s = true
        · left; right
          show i ∈ (admitWaiting limit isCurrent q.active q.waiting q.starting).2.1
          rw [h.starts]
          exact List.mem_append_right _ (List.mem_map.2 ⟨(i, s), List.mem_filter.2 ⟨hw, hc⟩, rfl⟩)
        · right
          refine ⟨.dropped i s, ?_, .dropped⟩
          rw [h.outputs]
          exact List.mem_map.2 ⟨(i, s), hw, by simp [admitted, hc]⟩
      · exact .inl (.inl hw)
    · left; right
      show i ∈ (admitWaiting limit isCurrent q.active q.waiting q.starting).2.1
      rw [h.starts]
      exact List.mem_append_left _ hs
  | registered k => cases hst; exact .inl hh
  | settled k =>
    cases hst
    rcases hh with hw | hs
    · exact .inl (.inl (by simpa using hw))
    · by_cases hk : i = k
      · subst hk
        exact .inr ⟨_, List.mem_singleton_self _, .settled⟩
      · exact .inl (.inr (by simpa using (List.mem_erase_of_ne hk).2 hs))
  | exited k => cases hst; exact .inl (by simpa [Held] using hh)
  | cancel k =>
    cases hst
    by_cases hk : i = k
    · subst hk
      exact .inr ⟨_, List.mem_singleton_self _, .cancelled⟩
    · left
      rcases hh with hw | hs
      · exact .inl (by simpa [CapacityQueue.cancel, hk] using hw)
      · exact .inr (by simpa [CapacityQueue.cancel] using hs)
  | wake => cases hst; exact .inl (by simpa [Held] using hh)
  | stop => cases hst; exact .inr ⟨_, List.mem_singleton_self _, .stopped⟩

/-- What a request is answered with by a queue that runs and has no start of the instance in flight. -/
theorem held_after_request (limit : Nat) (s : StartId) (hstop : q.stopped = false) (hin : i ∉ q.starting) :
    Held i s (q.request limit i s).1 := by
  unfold CapacityQueue.request
  rw [if_neg (by simp [hstop]), if_neg hin]
  split
  · exact .inr (by simp)
  split
  · rename_i h
    exact .inl (by simpa using lookup_mem h)
  · exact .inl (by simpa using mem_setWaiting q.waiting i s)

theorem held_run (hq : Admitting limit q) (hh : Held i s q) (hr : Run (CapacityStep limit) q h q') :
    Held i s q' ∨ ∃ o ∈ emitted h, Ends i s o := by
  have hrun := hr.until (fun q => Admitting limit q ∧ Held i s q) (fun _ os => ∃ o ∈ os, Ends i s o) ⟨hq, hh⟩ ?_
  · rcases hrun with hheld | ⟨x, hx, o, ho, hend⟩
    · exact .inl hheld.2
    · exact .inr ⟨o, List.mem_flatMap.2 ⟨x, hx, ho⟩, hend⟩
  · intro a e os b ⟨hadm, hheld⟩ hst
    have hadm' : Admitting limit b := by
      have := hadm.step hst.1
      rwa [hst.2] at this
    exact (held_step hadm hheld hst).imp_left fun h => ⟨hadm', h⟩

/-! ## The queue is sound -/

/-- What holds of a queue in every state it reaches, and of everything that follows it. -/
structure CapacitySound (limit : Nat) (q : CapacityQueue) : Prop where
  /-- Allocated workers and starts in flight stay within the limit. -/
  within : q.allocated ≤ limit
  /-- No instance waits and starts. -/
  exclusive : ∀ i, ¬(i ∈ q.waiters ∧ i ∈ q.starting)
  /-- An instance that waits is released before one that does not wait yet is started. -/
  fifo : ∀ i j h u, Run (CapacityStep limit) q h u → i ∈ q.waiters → j ∉ q.waiters →
    ∀ pre s post, emitted h = pre ++ .launched j s :: post → ∃ o ∈ pre, Releases i o
  /-- A wake takes entries from the front, starts the current ones and drops the others, and
  stops where a current one finds no capacity. -/
  rechecked : ∀ isCurrent os q', CapacityStep limit q (.tick isCurrent) os q' →
    ∃ taken, q.waiting = taken ++ q'.waiting ∧ os = taken.map (admitted isCurrent) ∧
      ∀ e ∈ q'.waiting.head?, isCurrent e.1 e.2 = true ∧ q'.hasCapacity limit = false
  /-- Whoever waits while there is capacity has a wake scheduled. -/
  awake : q.waiting ≠ [] → q.hasCapacity limit = true → q.stopped = false → q.scheduled = true
  /-- A request made while no start of its instance is in flight is held until it ends. -/
  retained : ∀ i s os q', q.stopped = false → i ∉ q.starting → CapacityStep limit q (.request i s) os q' →
    ∀ h u, Run (CapacityStep limit) q' h u → Held i s u ∨ ∃ o ∈ emitted h, Ends i s o

theorem capacity_queue_sound {q₀ : CapacityQueue} (h₀ : Created limit q₀) (hr : Run (CapacityStep limit) q₀ h q) :
    CapacitySound limit q := by
  have hq : Admitting limit q := admitting_run h₀.admitting hr
  refine ⟨hq.within, fun i hi => hq.disjoint i hi.1 hi.2, ?_, ?_, hq.awake, ?_⟩
  · intro i j h u hrun hi hj pre s post hos
    have hne : i ≠ j := by
      rintro rfl
      exact hj hi
    have hahead := ahead_run hq (ahead_of_waiting hi hj) hrun
    exact released_before hne (hahead.imp_left fun h => h.2) hos
  · intro isCurrent os q' hst
    obtain ⟨taken, h⟩ := admit_spec limit isCurrent q.active hq.waiters hq.disjoint
    obtain ⟨-, hst⟩ := hst
    simp only [CapacityQueue.step, CapacityQueue.tick] at hst
    cases hst
    refine ⟨taken, h.front, h.outputs, fun e he => ?_⟩
    have hb := h.blocked e he
    refine ⟨hb.1, decide_eq_false (Nat.not_lt.2 hb.2)⟩
  · intro i s os q' hstop hin hst h u hrun
    have hadm' : Admitting limit q' := by
      have := hq.step hst.1
      rwa [hst.2] at this
    have hheld : Held i s q' := by
      have := held_after_request limit s hstop hin
      rwa [show q.request limit i s = (q', os) from hst.2] at this
    exact held_run hadm' hheld hrun

/-- A second request finds no capacity and waits. -/
theorem capacity_queue_sound_demo :
    CapacitySound 1 { waiting := [("b", "2")], starting := ["a"], scheduled := true } := by
  have hfirst : Run (CapacityStep 1) {} [(.request "a" "1", [.launched "a" "1"])] { starting := ["a"] } :=
    Run.single ⟨trivial, rfl⟩
  have hsecond : CapacityStep 1 { starting := ["a"] } (.request "b" "2") [.queued "b" "2"]
      { waiting := [("b", "2")], starting := ["a"], scheduled := true } := ⟨trivial, rfl⟩
  exact capacity_queue_sound ⟨rfl, List.nodup_nil, Nat.zero_le _⟩ (hfirst.snoc hsecond)

/-- A request for a new start of an instance whose older start is in flight is answered with the
older one: it does not wait, and no start call is made for it. -/
theorem capacity_queue_joins_older_start :
    ¬ ∀ (limit : Nat) (q₀ q : CapacityQueue) (h : Hist CapacityEvent CapacityOutput), Created limit q₀ →
      Run (CapacityStep limit) q₀ h q → ∀ i s os q', q.stopped = false → CapacityStep limit q (.request i s) os q' →
        ∀ h' u, Run (CapacityStep limit) q' h' u →
          (i, s) ∈ u.waiting ∨ (∃ s', .launched i s' ∈ os ++ emitted h') ∨ ∃ o ∈ emitted h', Ends i s o := by
  intro hall
  have hrun : Run (CapacityStep 1) {} [(.request "a" "1", [.launched "a" "1"])] { starting := ["a"] } :=
    Run.single ⟨trivial, rfl⟩
  rcases hall 1 {} _ _ ⟨rfl, List.nodup_nil, Nat.zero_le _⟩ hrun "a" "2" [.joined "a"] { starting := ["a"] } rfl
    ⟨trivial, rfl⟩ [] _ .nil with h | ⟨s', h⟩ | ⟨o, h, -⟩
  · cases h
  · simp at h
  · cases h

end Leitwerk.Supervisor
