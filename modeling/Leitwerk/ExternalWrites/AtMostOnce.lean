import Leitwerk.ExternalWrites.Calls
/-!
# External writes happen at most once

The operations of one dedup key never overlap (`Serial.Ordered`), so that what
an operation has read of the log and of the remote side stays true until it
acts on it: an execution runs while no record exists (`Inv.told`), and an
`ensure` that executes is the first to create the object of its key
(`Origin.first`). A `logOnly` call asks nobody before it executes and may create
an object a second time.
-/

namespace Leitwerk.ExternalWrites

open Runs Serial

/-! ## What a call knows of the log -/

/-- What a phase tells of the log, as long as it lasts: whether the key is recorded. -/
def tells : Phase Part → Option Bool
  | .running (.reconciling recorded) => some recorded
  | .running .executing | .running .recovering => some false
  | .settled true | .finished true => some true
  | _ => none

/-- The calls are in order, a key is recorded once, and what a call knows of the log is true. -/
structure Inv (s : State) : Prop where
  ordered : Ordered s.calls
  once : (s.log.map (·.dedupKey)).Nodup
  told : ∀ i task b, s.calls.at i = some task → tells task.phase = some b → hasDedupKey s.log task.key = b

/-- Two calls of one key do not run at the same time. -/
theorem running_unique {s : Tasks String Call Part} (h : Ordered s) {i j : Nat} {x y : Task String Call Part}
    {p q : Part} (hx : s.at i = some x) (hy : s.at j = some y) (hkey : x.key = y.key) (hp : x.phase = .running p)
    (hq : y.phase = .running q) : i = j := by
  rcases Nat.lt_trichotomy i j with hlt | heq | hlt
  · have := h.order j i y x hlt hy hx hkey (by rw [hq]; simp)
    rw [hp] at this
    cases this
  · exact heq
  · have := h.order i j x y hlt hx hy hkey.symm (by rw [hp]; simp)
    rw [hq] at this
    cases this

theorem hasDedupKey_append (log : List LogRow) (row : LogRow) (key : String) :
    hasDedupKey (log ++ [row]) key = (hasDedupKey log key || row.dedupKey == key) := by
  simp [hasDedupKey]

/-- What `recordWriteIfMissing` does to the log: nothing, or it adds a row whose key is not there. -/
theorem recordWriteIfMissing_cases (log : List LogRow) (row : LogRow) (insertion : Insertion) :
    (recordWriteIfMissing log row insertion).1 = log ∨
      (recordWriteIfMissing log row insertion).1 = log ++ [row] ∧ hasDedupKey log row.dedupKey = false := by
  unfold recordWriteIfMissing
  split
  · exact .inl rfl
  · rename_i hno
    have hno : hasDedupKey log row.dedupKey = false := by simpa using hno
    cases insertion with
    | inserted => exact .inr ⟨rfl, hno⟩
    | refused => exact .inl rfl
    | thrown => exact .inr ⟨rfl, hno⟩

/-- A call of `recordWriteIfMissing` that returns leaves the key recorded. -/
theorem recordWriteIfMissing_returns {log : List LogRow} {row : LogRow} {insertion : Insertion}
    (h : (recordWriteIfMissing log row insertion).2 = true) :
    hasDedupKey (recordWriteIfMissing log row insertion).1 row.dedupKey = true := by
  unfold recordWriteIfMissing at h ⊢
  split
  · assumption
  · cases insertion with
    | inserted => simp [hasDedupKey]
    | refused => simp [*] at h
    | thrown => simp [hasDedupKey]

/-! ## Every step keeps it -/

section step
variable {s : State} {i : Nat} {task : Task String Call Part}

theorem at_to {phase : Phase Part} {j : Nat} {other : Task String Call Part}
    (hat : s.calls.at i = some task) (h : (s.to i phase).calls.at j = some other) :
    j = i ∧ other = { task with phase := phase } ∨ j ≠ i ∧ s.calls.at j = some other := by
  simp only [State.to, at_setPhase] at h
  split at h
  · subst ‹i = j›
    rw [hat] at h
    cases h
    exact .inl ⟨rfl, rfl⟩
  · exact .inr ⟨fun hji => ‹¬i = j› hji.symm, h⟩

/-- A call moves on, and what it tells then is true. -/
theorem Inv.to {phase : Phase Part} (h : Inv s) (hat : s.calls.at i = some task)
    (hstart : s.calls.ready task = true ∨ ∃ part, task.phase = .running part)
    (hphase : (∃ part, phase = .running part) ∨ ∃ ok, phase = .settled ok)
    (htells : ∀ b, tells phase = some b → hasDedupKey s.log task.key = b) : Inv (s.to i phase) where
  ordered := by
    refine h.ordered.setPhase hat (hstart.imp id ?_) ?_ ?_ ?_
    · rintro ⟨part, hp⟩
      simp [hp]
    · rcases hphase with ⟨_, rfl⟩ | ⟨_, rfl⟩ <;> simp
    · rcases hphase with ⟨_, rfl⟩ | ⟨_, rfl⟩ <;> rfl
    · intro hover
      rcases hstart with hr | ⟨part, hp⟩
      · unfold Tasks.ready at hr
        split at hr
        · rename_i hw
          rw [hw] at hover
          cases hover
        · cases hr
      · rw [hp] at hover
        cases hover
  once := h.once
  told := by
    intro j other b hj hb
    rcases at_to hat hj with ⟨_, rfl⟩ | ⟨_, hj⟩
    · exact htells b hb
    · exact h.told j other b hj hb

/-- An operation that knows its key is not recorded records it, and nobody else knows better. -/
theorem Inv.record {part : Part} (h : Inv s) (hat : s.calls.at i = some task) (hp : task.phase = .running part)
    (recording : Recording) : Inv (s.record i task recording) := by
  unfold State.record
  cases recording.metadata with
  | none => exact h.to hat (.inr ⟨part, hp⟩) (.inr ⟨false, rfl⟩) (by simp [tells])
  | some metadata =>
    simp only
    generalize hrow : LogRow.mk task.data.instanceId task.data.writeType task.key metadata = row
    have hkey : row.dedupKey = task.key := by rw [← hrow]
    have hordered : Ordered (s.to i (.settled (recordWriteIfMissing s.log row recording.insertion).2)).calls :=
      h.ordered.setPhase hat (.inr (by rw [hp]; simp)) (by simp) rfl fun hover => by rw [hp] at hover; cases hover
    refine ⟨hordered, ?_, ?_⟩
    · rcases recordWriteIfMissing_cases s.log row recording.insertion with hlog | ⟨hlog, hno⟩
      · rw [hlog]
        exact h.once
      · rw [hlog, List.map_append, List.nodup_append]
        refine ⟨h.once, by simp, ?_⟩
        intro a ha b hb hab
        obtain ⟨r, hr, rfl⟩ := List.mem_map.1 ha
        have hb : b = row.dedupKey := by simpa using hb
        have : hasDedupKey s.log row.dedupKey = true := List.any_eq_true.2 ⟨r, hr, by simp [hab, hb]⟩
        rw [hno] at this
        cases this
    · intro j other b hj hb
      rcases at_to hat hj with ⟨_, rfl⟩ | ⟨hne, hj⟩
      · simp only at hb ⊢
        cases hok : (recordWriteIfMissing s.log row recording.insertion).2 with
        | false =>
          rw [hok] at hb
          cases hb
        | true =>
          rw [hok] at hb
          cases hb
          rw [← hkey]
          exact recordWriteIfMissing_returns hok
      · have hbefore := h.told j other b hj hb
        rcases recordWriteIfMissing_cases s.log row recording.insertion with hlog | ⟨hlog, hno⟩
        · rw [hlog]
          exact hbefore
        · rw [hlog, hasDedupKey_append, hbefore]
          cases b with
          | true => rfl
          | false =>
            -- only a call that runs tells that its key is not recorded
            have hrun : ∃ q, other.phase = .running q := by
              unfold tells at hb
              split at hb
              · exact ⟨_, ‹_›⟩
              · exact ⟨_, ‹_›⟩
              · exact ⟨_, ‹_›⟩
              · cases hb
              · cases hb
              · cases hb
            obtain ⟨q, hq⟩ := hrun
            have hkeys : row.dedupKey ≠ other.key := fun heq =>
              hne (running_unique h.ordered hj hat (heq.symm.trans hkey) hq hp)
            simpa using hkeys

/-- A call is added, and tells nothing yet. -/
theorem Inv.add (h : Inv s) (key : String) (call : Call) : Inv { s with calls := s.calls.add key call } where
  ordered := h.ordered.add key call
  once := h.once
  told := by
    intro j other b hj hb
    rcases at_add hj with hj | ⟨_, rfl⟩
    · exact h.told j other b hj hb
    · cases hb

theorem Inv.finish {ok : Bool} (h : Inv s) (hat : s.calls.at i = some task) (hp : task.phase = .settled ok) :
    Inv { s with calls := s.calls.finish i task.key ok } where
  ordered := h.ordered.finish hat hp
  once := h.once
  told := by
    intro j other b hj hb
    have hj' : (s.to i (.finished ok)).calls.at j = some other := by
      unfold Tasks.finish at hj
      simp only at hj
      split at hj <;> exact hj
    rcases at_to hat hj' with ⟨_, rfl⟩ | ⟨_, hj'⟩
    · refine h.told i task b hat ?_
      rw [hp]
      cases ok <;> exact hb
    · exact h.told j other b hj' hb

theorem Inv.restart (h : Inv s) : Inv { s with calls := s.calls.stop } where
  ordered := ordered_stop
  once := h.once
  told := by
    intro j other b hj hb
    simp only [Tasks.at, Tasks.stop, List.getElem?_map, Option.map_eq_some_iff] at hj
    obtain ⟨before, hbefore, rfl⟩ := hj
    split at hb
    · cases hb
    · rename_i hu
      rw [if_neg hu]
      exact h.told j before b hbefore hb

/-- The call an admitted event is about. -/
theorem has_iff {p : Task String Call Part → Bool} : s.has i p = true ↔ ∃ task, s.calls.at i = some task ∧ p task = true := by
  simp [State.has, Option.any_eq_true]

theorem about_eq {step : Task String Call Part → State} (hat : s.calls.at i = some task) : s.about i step = step task := by
  simp [State.about, hat]

theorem inv_step {t : State} {e : Event} {os : List Unit} (h : Inv s) (hst : WriteStep s e os t) : Inv t := by
  obtain ⟨rfl, hadm⟩ := hst
  cases e with
  | call key call => exact h.add key call
  | restart => exact h.restart
  | start i =>
    obtain ⟨task, hat, hr⟩ := has_iff.1 hadm
    simp only [State.next, about_eq hat, State.start]
    cases task.data.kind with
    | ensure => exact h.to hat (.inl hr) (.inl ⟨_, rfl⟩) (by simp [tells])
    | logOnly =>
      simp only
      split
      · rename_i hrec
        exact h.to hat (.inl hr) (.inr ⟨_, rfl⟩) (by simp [tells, hrec])
      · rename_i hrec
        exact h.to hat (.inl hr) (.inl ⟨_, rfl⟩) (by simpa [tells] using hrec)
  | reconciled i answer recording =>
    obtain ⟨task, hat, hp⟩ := has_iff.1 hadm
    simp only [Bool.or_eq_true, beq_iff_eq] at hp
    obtain ⟨recorded, hp⟩ : ∃ recorded, task.phase = .running (.reconciling recorded) := by
      rcases hp with hp | hp
      · exact ⟨true, hp⟩
      · exact ⟨false, hp⟩
    have htold := h.told i task recorded hat (by rw [hp]; rfl)
    simp only [State.next, about_eq hat, hp, State.reconciled]
    cases answer with
    | failed => exact h.to hat (.inr ⟨_, hp⟩) (.inr ⟨_, rfl⟩) (by simp [tells])
    | nothing =>
      cases recorded with
      | true => exact h.to hat (.inr ⟨_, hp⟩) (.inr ⟨_, rfl⟩) (by simp [tells])
      | false => exact h.to hat (.inr ⟨_, hp⟩) (.inl ⟨_, rfl⟩) (by simpa [tells] using htold)
    | found =>
      cases recorded with
      | true => exact h.to hat (.inr ⟨_, hp⟩) (.inr ⟨_, rfl⟩) (by simpa [tells] using htold)
      | false => exact h.record hat hp recording
  | created i =>
    simp only [State.admits, Bool.and_eq_true] at hadm
    obtain ⟨task, hat, _⟩ := has_iff.1 hadm.1
    simp only [State.next, about_eq hat]
    exact ⟨h.ordered, h.once, h.told⟩
  | executed i ok recording =>
    obtain ⟨task, hat, hp⟩ := has_iff.1 hadm
    have hp : task.phase = .running .executing := by simpa using hp
    have htold := h.told i task false hat (by rw [hp]; rfl)
    simp only [State.next, about_eq hat, State.executed]
    split
    · exact h.record hat hp recording
    · cases task.data.kind with
      | ensure => exact h.to hat (.inr ⟨_, hp⟩) (.inl ⟨_, rfl⟩) (by simpa [tells] using htold)
      | logOnly => exact h.to hat (.inr ⟨_, hp⟩) (.inr ⟨_, rfl⟩) (by simp [tells])
  | recovered i answer recording =>
    obtain ⟨task, hat, hp⟩ := has_iff.1 hadm
    have hp : task.phase = .running .recovering := by simpa using hp
    simp only [State.next, about_eq hat, State.recovered]
    cases answer with
    | found => exact h.record hat hp recording
    | nothing => exact h.to hat (.inr ⟨_, hp⟩) (.inr ⟨_, rfl⟩) (by simp [tells])
    | failed => exact h.to hat (.inr ⟨_, hp⟩) (.inr ⟨_, rfl⟩) (by simp [tells])
  | finish i =>
    obtain ⟨task, hat, hp⟩ := has_iff.1 hadm
    simp only [Bool.or_eq_true, beq_iff_eq] at hp
    obtain ⟨ok, hp⟩ : ∃ ok, task.phase = .settled ok := by
      rcases hp with hp | hp
      · exact ⟨true, hp⟩
      · exact ⟨false, hp⟩
    simp only [State.next, about_eq hat, hp]
    exact h.finish hat hp

end step

theorem inv_init (remote : String → Bool) : Inv (State.init remote) where
  ordered := ordered_init
  once := List.nodup_nil
  told := fun _ _ _ h => nomatch h

/-! ## Who creates the remote object -/

/-- What a call created exists. An `ensure` that executes, or has created the
object of its key, comes before every other call that created it. -/
structure Origin (s : State) : Prop where
  present : ∀ i ∈ s.created, ∃ task, s.calls.at i = some task ∧ task.phase ≠ .waiting ∧ s.remote task.key = true
  first : ∀ i j x y, i ≠ j → s.calls.at i = some x → s.calls.at j = some y → x.key = y.key → i ∈ s.created →
    x.phase ≠ .stopped → y.data.kind = .ensure → y.phase ≠ .stopped →
    y.phase = .running .executing ∨ j ∈ s.created → j < i

section origin
variable {s : State} {i : Nat} {task : Task String Call Part}

theorem origin_init (remote : String → Bool) : Origin (State.init remote) where
  present := fun _ h => nomatch h
  first := fun _ _ _ _ _ h => nomatch h

/-- Only the calls, the remote objects and their creators matter. -/
theorem Origin.congr {t : State} (h : Origin s) (hat : ∀ j, t.calls.at j = s.calls.at j) (hr : t.remote = s.remote)
    (hc : t.created = s.created) : Origin t := by
  refine ⟨fun j hj => ?_, fun i j x y hij hx hy => ?_⟩
  · obtain ⟨task, hat', hw, hrem⟩ := h.present j (hc ▸ hj)
    exact ⟨task, (hat j).trans hat', hw, by rw [hr, hrem]⟩
  · rw [hc]
    exact h.first i j x y hij ((hat i).symm.trans hx) ((hat j).symm.trans hy)

/-- A call moves on; an `ensure` executes only where there is no object. -/
theorem Origin.to {phase : Phase Part} (h : Origin s) (hat : s.calls.at i = some task) (hw : phase ≠ .waiting)
    (hns : task.phase ≠ .stopped)
    (hex : phase = .running .executing → task.data.kind = .ensure → s.remote task.key = false) :
    Origin (s.to i phase) := by
  -- the same call before the step
  have hback : ∀ {j x}, (s.to i phase).calls.at j = some x → ∃ x', s.calls.at j = some x' ∧ x'.key = x.key ∧
      x'.data = x.data ∧ (x.phase ≠ .stopped → x'.phase ≠ .stopped) ∧ (x = x' ∨ j = i ∧ x.phase = phase) := by
    intro j x hx
    rcases at_to hat hx with ⟨rfl, rfl⟩ | ⟨_, hx⟩
    · exact ⟨task, hat, rfl, rfl, fun _ => hns, .inr ⟨rfl, rfl⟩⟩
    · exact ⟨x, hx, rfl, rfl, id, .inl rfl⟩
  refine ⟨fun j hj => ?_, fun a b x y hab hx hy hkey ha hxs hk hys hor => ?_⟩
  · obtain ⟨other, hother, hwait, hrem⟩ := h.present j hj
    by_cases hji : i = j
    · subst hji
      rw [hat] at hother
      cases hother
      exact ⟨{ task with phase := phase }, by simp [State.to, at_setPhase, hat], hw, hrem⟩
    · exact ⟨other, by rw [State.to, at_setPhase_ne _ hji, hother], hwait, hrem⟩
  · obtain ⟨x', hx', hxk, -, hxs', -⟩ := hback hx
    obtain ⟨y', hy', hyk, hyd, hys', hyor⟩ := hback hy
    have hkey' : x'.key = y'.key := hxk.trans (hkey.trans hyk.symm)
    refine h.first a b x' y' hab hx' hy' hkey' ha (hxs' hxs) (by rw [hyd]; exact hk) (hys' hys) ?_
    rcases hor with hor | hb
    · rcases hyor with rfl | ⟨rfl, hphase⟩
      · exact .inl hor
      · -- the object the other call created exists, so this one does not execute
        rw [hat] at hy'
        cases hy'
        obtain ⟨other, hother, _, hrem⟩ := h.present a ha
        rw [hx'] at hother
        cases hother
        rw [hkey', hex (hphase.symm.trans hor) (hyd ▸ hk)] at hrem
        cases hrem
    · exact .inr hb

theorem Origin.record (h : Origin s) (hat : s.calls.at i = some task) (hns : task.phase ≠ .stopped)
    (recording : Recording) : Origin (s.record i task recording) := by
  unfold State.record
  split
  · exact h.to hat (by simp) hns (by simp)
  · exact (h.to hat (by simp) hns (by simp)).congr (fun _ => rfl) rfl rfl

theorem Origin.add (h : Origin s) (key : String) (call : Call) : Origin { s with calls := s.calls.add key call } := by
  have hold : ∀ {j x}, (s.calls.add key call).at j = some x → j ∈ s.created → s.calls.at j = some x := by
    intro j x hx hj
    obtain ⟨other, hother, _⟩ := h.present j hj
    have : (s.calls.add key call).at j = some other := at_add_of hother
    rw [hx] at this
    cases this
    exact hother
  refine ⟨fun j hj => ?_, fun a b x y hab hx hy hkey ha hxs hk hys hor => ?_⟩
  · obtain ⟨task, hat, hw, hrem⟩ := h.present j hj
    exact ⟨task, at_add_of hat, hw, hrem⟩
  · have hy' : s.calls.at b = some y := by
      rcases hor with hp | hb
      · rcases at_add hy with hy | ⟨_, rfl⟩
        · exact hy
        · cases hp
      · exact hold hy hb
    exact h.first a b x y hab (hold hx ha) hy' hkey ha hxs hk hys hor

theorem Origin.restart (h : Origin s) : Origin { s with calls := s.calls.stop } := by
  have hback : ∀ {j x}, s.calls.stop.at j = some x → ∃ x', s.calls.at j = some x' ∧
      (x = x' ∨ x = { x' with phase := .stopped }) := by
    intro j x hx
    simp only [Tasks.at, Tasks.stop, List.getElem?_map, Option.map_eq_some_iff] at hx
    obtain ⟨x', hx', rfl⟩ := hx
    refine ⟨x', hx', ?_⟩
    split
    · exact .inr rfl
    · exact .inl rfl
  refine ⟨fun j hj => ?_, fun a b x y hab hx hy hkey ha hxs hk hys hor => ?_⟩
  · obtain ⟨task, hat, hw, hrem⟩ := h.present j hj
    have hstop : s.calls.stop.at j = some (if task.phase.unfinished then { task with phase := .stopped } else task) := by
      have hat' : s.calls.tasks[j]? = some task := hat
      simp [Tasks.at, Tasks.stop, List.getElem?_map, hat']
    refine ⟨_, hstop, ?_, ?_⟩
    · split
      · simp
      · exact hw
    · split <;> exact hrem
  · obtain ⟨x', hx', rfl | rfl⟩ := hback hx
    · obtain ⟨y', hy', rfl | rfl⟩ := hback hy
      · exact h.first a b _ _ hab hx' hy' hkey ha hxs hk hys hor
      · exact absurd rfl hys
    · exact absurd rfl hxs

/-- An execution creates its object: of every other call of the key that created
it, it is the later one. -/
theorem Origin.create (h : Origin s) (hi : Inv s) (hat : s.calls.at i = some task)
    (hp : task.phase = .running .executing) (hnew : i ∉ s.created) :
    Origin { s with remote := fun key => key == task.key || s.remote key, created := i :: s.created } := by
  refine ⟨fun j hj => ?_, fun a b x y hab hx hy hkey ha hxs hk hys hor => ?_⟩
  · rcases List.mem_cons.1 hj with rfl | hj
    · exact ⟨task, hat, by rw [hp]; simp, by simp⟩
    · obtain ⟨other, hother, hw, hrem⟩ := h.present j hj
      exact ⟨other, hother, hw, by simp [hrem]⟩
  · have hrunning : ∀ {j y}, s.calls.at j = some y → y.key = task.key → y.phase ≠ .waiting → i < j → False := by
      intro j y hy hkey hw hlt
      have := hi.ordered.order j i y task hlt hy hat hkey.symm hw
      rw [hp] at this
      cases this
    have hb : y.phase = .running .executing ∨ b ∈ s.created := by
      rcases hor with hor | hb
      · exact .inl hor
      · rcases List.mem_cons.1 hb with rfl | hb
        · rw [hat] at hy
          cases hy
          exact .inl hp
        · exact .inr hb
    rcases List.mem_cons.1 ha with rfl | ha
    · -- the new creator: nothing of its key that has started comes after it
      rw [hat] at hx
      cases hx
      have hwait : y.phase ≠ .waiting := by
        rcases hb with hb | hb
        · rw [hb]; simp
        · obtain ⟨other, hother, hw, _⟩ := h.present b hb
          rw [hy] at hother
          cases hother
          exact hw
      rcases Nat.lt_or_gt_of_ne hab with hlt | hlt
      · exact (hrunning hy hkey.symm hwait hlt).elim
      · exact hlt
    · exact h.first a b x y hab hx hy hkey ha hxs hk hys hb

theorem origin_step {t : State} {e : Event} {os : List Unit} (h : Origin s) (hi : Inv s) (hst : WriteStep s e os t)
    (htrue : Truthful s e) : Origin t := by
  obtain ⟨rfl, hadm⟩ := hst
  cases e with
  | call key call => exact h.add key call
  | restart => exact h.restart
  | start i =>
    obtain ⟨task, hat, hr⟩ := has_iff.1 hadm
    have hns : task.phase ≠ .stopped := by
      intro hs
      simp [Tasks.ready, hs] at hr
    simp only [State.next, about_eq hat, State.start]
    cases hk : task.data.kind with
    | ensure => exact h.to hat (by simp) hns (by simp)
    | logOnly =>
      simp only
      split
      · exact h.to hat (by simp) hns (by simp)
      · exact h.to hat (by simp) hns (by simp [hk])
  | reconciled i answer recording =>
    obtain ⟨task, hat, hp⟩ := has_iff.1 hadm
    simp only [Bool.or_eq_true, beq_iff_eq] at hp
    obtain ⟨recorded, hp⟩ : ∃ recorded, task.phase = .running (.reconciling recorded) := by
      rcases hp with hp | hp
      · exact ⟨true, hp⟩
      · exact ⟨false, hp⟩
    have hns : task.phase ≠ .stopped := by rw [hp]; simp
    have htask := htrue task hat
    simp only [State.next, about_eq hat, hp, State.reconciled]
    cases answer with
    | failed => exact h.to hat (by simp) hns (by simp)
    | nothing =>
      cases recorded with
      | true => exact h.to hat (by simp) hns (by simp)
      | false => exact h.to hat (by simp) hns fun _ _ => htask.2 rfl
    | found =>
      cases recorded with
      | true => exact h.to hat (by simp) hns (by simp)
      | false => exact h.record hat hns recording
  | created i =>
    simp only [State.admits, Bool.and_eq_true, Bool.not_eq_true', List.contains_eq_mem, decide_eq_false_iff_not] at hadm
    obtain ⟨task, hat, hp⟩ := has_iff.1 hadm.1
    simp only [State.next, about_eq hat]
    exact h.create hi hat (by simpa using hp) hadm.2
  | executed i ok recording =>
    obtain ⟨task, hat, hp⟩ := has_iff.1 hadm
    have hp : task.phase = .running .executing := by simpa using hp
    have hns : task.phase ≠ .stopped := by rw [hp]; simp
    simp only [State.next, about_eq hat, State.executed]
    split
    · exact h.record hat hns recording
    · cases task.data.kind with
      | ensure => exact h.to hat (by simp) hns (by simp)
      | logOnly => exact h.to hat (by simp) hns (by simp)
  | recovered i answer recording =>
    obtain ⟨task, hat, hp⟩ := has_iff.1 hadm
    have hp : task.phase = .running .recovering := by simpa using hp
    have hns : task.phase ≠ .stopped := by rw [hp]; simp
    simp only [State.next, about_eq hat, State.recovered]
    cases answer with
    | found => exact h.record hat hns recording
    | nothing => exact h.to hat (by simp) hns (by simp)
    | failed => exact h.to hat (by simp) hns (by simp)
  | finish i =>
    obtain ⟨task, hat, hp⟩ := has_iff.1 hadm
    simp only [Bool.or_eq_true, beq_iff_eq] at hp
    obtain ⟨ok, hp⟩ : ∃ ok, task.phase = .settled ok := by
      rcases hp with hp | hp
      · exact ⟨true, hp⟩
      · exact ⟨false, hp⟩
    simp only [State.next, about_eq hat, hp]
    have hto : Origin (s.to i (.finished ok)) := h.to hat (by simp) (by rw [hp]; simp) (by simp)
    refine hto.congr (fun j => ?_) rfl rfl
    unfold Tasks.finish
    simp only
    split <;> rfl

end origin

/-! ## The guarantees -/

/-- Of two calls of a key, the later one starts only when the earlier one is over. -/
def Serialized (s : State) : Prop :=
  ∀ i j x y, i < j → s.calls.at i = some x → s.calls.at j = some y → x.key = y.key → y.phase ≠ .waiting →
    x.phase.over = true

/-- A call whose key has no unsettled call before it may start, whatever the calls of other keys do. -/
def Independent (s : State) : Prop :=
  ∀ i x, s.calls.at i = some x → x.phase = .waiting →
    (∀ j y, j < i → s.calls.at j = some y → y.key = x.key → y.phase.over = true) → s.admits (.start i) = true

/-- A call comes to execute only while its key is not recorded, and an `ensure` only when `reconcile` found nothing. -/
def ExecutesUnrecorded (s : State) : Prop :=
  (∀ i x, s.calls.at i = some x → x.phase = .running .executing → hasDedupKey s.log x.key = false) ∧
    ∀ e os t, WriteStep s e os t → ∀ i x y, s.calls.at i = some x → t.calls.at i = some y →
      x.phase ≠ .running .executing → y.phase = .running .executing → x.data.kind = .ensure →
      ∃ recording, e = .reconciled i .nothing recording ∧ hasDedupKey s.log x.key = false

/-- A call that returned leaves its key recorded, and a key is recorded once. -/
def RecordedOnce (s : State) : Prop :=
  (∀ i x, s.calls.at i = some x → x.phase = .settled true ∨ x.phase = .finished true →
    hasDedupKey s.log x.key = true) ∧ (s.log.map (·.dedupKey)).Nodup

/-- The queue of a key ends in a call of it that has not finished. -/
def QueueLive (s : State) : Prop :=
  ∀ key i, s.calls.queue key = some i → ∃ x, s.calls.at i = some x ∧ x.key = key ∧ x.phase.unfinished = true

/-- Two calls that were not stopped created the object of one key: then the later one is a `logOnly`. -/
def CreatedOnce (s : State) : Prop :=
  ∀ i j x y, i < j → s.calls.at i = some x → s.calls.at j = some y → x.key = y.key → i ∈ s.created → j ∈ s.created →
    x.phase ≠ .stopped → y.phase ≠ .stopped → y.data.kind = .logOnly

theorem independent_of_inv {s : State} (h : Inv s) : Independent s := by
  intro i x hat hw hover
  refine has_iff.2 ⟨x, hat, ?_⟩
  have hc := h.ordered.chain i x hat hw
  simp only [Tasks.ready, hw]
  cases hp : x.pred with
  | none => rfl
  | some p =>
    simp only [hp] at hc
    obtain ⟨before, hpi, hbefore, hkey, _⟩ := hc
    simpa [Tasks.isOver, hbefore] using hover p before hpi hbefore hkey

theorem executes_of_inv {s : State} (h : Inv s) : ExecutesUnrecorded s := by
  refine ⟨fun i x hat hp => h.told i x false hat (by rw [hp]; rfl), ?_⟩
  rintro e os t ⟨rfl, hadm⟩ i x y hx hy hnot hexec hk
  -- only the answer to the first `reconcile` leads an `ensure` to its execution
  have hto : ∀ {j task phase}, s.calls.at j = some task → (s.to j phase).calls.at i = some y →
      j = i ∧ x = task ∧ phase = .running .executing := by
    intro j task phase hat hj
    rcases at_to hat hj with ⟨rfl, rfl⟩ | ⟨_, hj⟩
    · rw [hat] at hx
      cases hx
      exact ⟨rfl, rfl, hexec⟩
    · rw [hx] at hj
      cases hj
      exact absurd hexec hnot
  have hrecord : ∀ {j task recording}, s.calls.at j = some task →
      (s.record j task recording).calls.at i = some y → False := by
    intro j task recording hat hj
    unfold State.record at hj
    split at hj
    · cases (hto hat hj).2.2
    · cases (hto hat hj).2.2
  cases e with
  | call key call =>
    rcases at_add hy with hy | ⟨_, rfl⟩
    · rw [hx] at hy
      cases hy
      exact absurd hexec hnot
    · cases hexec
  | restart =>
    simp only [State.next, Tasks.at, Tasks.stop, List.getElem?_map, Option.map_eq_some_iff] at hy
    obtain ⟨x', hx', rfl⟩ := hy
    split at hexec
    · cases hexec
    · rename_i hu
      rw [hexec] at hu
      exact absurd rfl hu
  | start j =>
    obtain ⟨task, hat, _⟩ := has_iff.1 hadm
    simp only [State.next, about_eq hat, State.start] at hy
    split at hy
    · cases (hto hat hy).2.2
    · rename_i hlog
      split at hy
      · cases (hto hat hy).2.2
      · obtain ⟨_, rfl, _⟩ := hto hat hy
        rw [hk] at hlog
        cases hlog
  | reconciled j answer recording =>
    obtain ⟨task, hat, hp⟩ := has_iff.1 hadm
    simp only [Bool.or_eq_true, beq_iff_eq] at hp
    obtain ⟨recorded, hp⟩ : ∃ recorded, task.phase = .running (.reconciling recorded) := by
      rcases hp with hp | hp
      · exact ⟨true, hp⟩
      · exact ⟨false, hp⟩
    have htold := h.told j task recorded hat (by rw [hp]; rfl)
    simp only [State.next, about_eq hat, hp, State.reconciled] at hy
    cases answer with
    | failed => cases (hto hat hy).2.2
    | nothing =>
      cases recorded with
      | true => cases (hto hat hy).2.2
      | false =>
        obtain ⟨rfl, rfl, _⟩ := hto hat hy
        exact ⟨recording, rfl, htold⟩
    | found =>
      cases recorded with
      | true => cases (hto hat hy).2.2
      | false => exact (hrecord hat hy).elim
  | created j =>
    simp only [State.admits, Bool.and_eq_true] at hadm
    obtain ⟨task, hat, _⟩ := has_iff.1 hadm.1
    simp only [State.next, about_eq hat] at hy
    rw [hx] at hy
    cases hy
    exact absurd hexec hnot
  | executed j ok recording =>
    obtain ⟨task, hat, hp⟩ := has_iff.1 hadm
    simp only [State.next, about_eq hat, State.executed] at hy
    split at hy
    · exact (hrecord hat hy).elim
    · split at hy <;> cases (hto hat hy).2.2
  | recovered j answer recording =>
    obtain ⟨task, hat, hp⟩ := has_iff.1 hadm
    simp only [State.next, about_eq hat, State.recovered] at hy
    cases answer with
    | found => exact (hrecord hat hy).elim
    | nothing => cases (hto hat hy).2.2
    | failed => cases (hto hat hy).2.2
  | finish j =>
    obtain ⟨task, hat, hp⟩ := has_iff.1 hadm
    simp only [Bool.or_eq_true, beq_iff_eq] at hp
    obtain ⟨ok, hp⟩ : ∃ ok, task.phase = .settled ok := by
      rcases hp with hp | hp
      · exact ⟨true, hp⟩
      · exact ⟨false, hp⟩
    simp only [State.next, about_eq hat, hp] at hy
    have hy' : (s.to j (.finished ok)).calls.at i = some y := by
      unfold Tasks.finish at hy
      simp only at hy
      split at hy <;> exact hy
    cases (hto hat hy').2.2

theorem createdOnce_of_origin {s : State} (h : Origin s) : CreatedOnce s := by
  intro i j x y hij hx hy hkey hi hj hxs hys
  cases hk : y.data.kind with
  | logOnly => rfl
  | ensure =>
    have := h.first i j x y (Nat.ne_of_lt hij) hx hy hkey hi hxs hk hys (.inr hj)
    omega

/-- In every run of calls, failures and restarts: the operations of a key never
overlap and start in the order of their calls, and those of different keys do
not wait for each other; an execution runs while its key is not recorded, and
that of an `ensure` only after `reconcile` found nothing; a call that returned
leaves its key recorded, once; and a queue ends in an unfinished call. If
`reconcile` is truthful, no `ensure` creates an object that another call has
created before it. -/
theorem writes_at_most_once {remote : String → Bool} {h : Hist Event Unit} {s : State}
    (hr : Run WriteStep (State.init remote) h s) :
    (Serialized s ∧ Independent s ∧ ExecutesUnrecorded s ∧ RecordedOnce s ∧ QueueLive s) ∧
      (Run (Guard WriteStep Truthful) (State.init remote) h s → CreatedOnce s) := by
  have hi : Inv s := hr.inv Inv (inv_init remote) fun _ _ _ _ hi hst => inv_step hi hst
  refine ⟨⟨?_, independent_of_inv hi, executes_of_inv hi, ⟨?_, hi.once⟩, ?_⟩, fun ht => ?_⟩
  · exact fun i j x y hij hx hy hkey hw => hi.ordered.order j i y x hij hy hx hkey hw
  · rintro i x hat (hp | hp)
    · exact hi.told i x true hat (by rw [hp]; rfl)
    · exact hi.told i x true hat (by rw [hp]; rfl)
  · intro key i hq
    obtain ⟨x, hat, hkey, hu, _⟩ := hi.ordered.tail key i hq
    exact ⟨x, hat, hkey, hu⟩
  · have ho : Inv s ∧ Origin s := ht.inv (fun s => Inv s ∧ Origin s) ⟨inv_init remote, origin_init remote⟩
      fun _ _ _ _ ho hst => ⟨inv_step ho.1 hst.1, origin_step ho.2 ho.1 hst.1 hst.2⟩
    exact createdOnce_of_origin ho.2

/-! ## Runs -/

/-- No remote object at first. -/
def nothingRemote : String → Bool := fun _ => false

/-- The history of these events. -/
def callsHistory (es : List Event) : Hist Event Unit := play State.next (fun _ _ => []) (State.init nothingRemote) es

/-- The calls after these events. -/
def callsAfter (es : List Event) : State := es.foldl State.next (State.init nothingRemote)

theorem calls_run (es : List Event) (h : allOk State.next State.admits (State.init nothingRemote) es = true) :
    Run WriteStep (State.init nothingRemote) (callsHistory es) (callsAfter es) :=
  run_guarded State.next (fun _ _ => []) (fun _ _ => rfl) h

/-- An `ensure` whose execution creates the object and loses the response. -/
def demoEnsure : List Event :=
  [.call "issue" ⟨.ensure, "process", "issue.create"⟩, .start 0, .reconciled 0 .nothing ⟨none, .refused⟩, .created 0,
    .executed 0 false ⟨none, .refused⟩, .recovered 0 .found ⟨some "{}", .inserted⟩, .finish 0]

theorem writes_at_most_once_demo : RecordedOnce (callsAfter demoEnsure) :=
  (writes_at_most_once (calls_run demoEnsure (by decide))).1.2.2.2.1

/-- A `logOnly` call whose record is refused after it has executed, and a second one. -/
def demoLogOnly : List Event :=
  [.call "restart" ⟨.logOnly, "process", "pipeline.restart"⟩, .start 0, .created 0,
    .executed 0 true ⟨some "{}", .refused⟩, .finish 0,
    .call "restart" ⟨.logOnly, "process", "pipeline.restart"⟩, .start 1, .created 1,
    .executed 1 true ⟨some "{}", .inserted⟩, .finish 1]

/-- An event in which no `reconcile` answers. -/
def Event.unasked : Event → Bool
  | .reconciled _ _ _ | .recovered _ _ _ => false
  | _ => true

/-- The second `logOnly` call creates the object again. -/
theorem logOnly_creates_twice : ¬∀ remote h s, Run (Guard WriteStep Truthful) (State.init remote) h s →
    ∀ i j x y, s.calls.at i = some x → s.calls.at j = some y → x.key = y.key → i ∈ s.created → j ∈ s.created →
      x.phase ≠ .stopped → y.phase ≠ .stopped → i = j := by
  intro H
  have hr : Run (Guard WriteMove fun s e => (s.admits e && e.unasked) = true) (State.init nothingRemote)
      (callsHistory demoLogOnly) (callsAfter demoLogOnly) :=
    run_guarded State.next (fun _ _ => []) (fun _ _ => rfl) (by decide)
  have htruthful : Run (Guard WriteStep Truthful) (State.init nothingRemote)
      (callsHistory demoLogOnly) (callsAfter demoLogOnly) := by
    refine hr.mono fun s e os t hst => ?_
    obtain ⟨hn, hok⟩ := hst
    rw [Bool.and_eq_true] at hok
    refine ⟨⟨hn, hok.1⟩, ?_⟩
    cases e <;> first | trivial | cases hok.2
  have h := H nothingRemote _ _ htruthful 0 1 _ _ rfl rfl rfl (by decide) (by decide) nofun nofun
  cases h

end Leitwerk.ExternalWrites
