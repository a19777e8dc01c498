import Mathlib.Data.List.Nodup
import Leitwerk.Lib.Runs
/-!
# Worker capacity admission

`supervisor/worker-capacity-queue.ts` with the part of the supervisor it reads:
the workers that are allocated. A request for a worker starts at once while
there is capacity and nobody waits; otherwise its instance waits in the order of
a JavaScript `Map` (a key set again keeps its place). A timer of no delay, the
wake, admits from the front. A start call is in flight from its `launch` until
its promise settles, and registers its worker in between.
-/

namespace Leitwerk.Supervisor

abbrev InstanceId := String
abbrev StartId := String

/-- The queue's maps and flags, and `active`, the instances of the supervisor's `workers`. -/
structure CapacityQueue where
  waiting : List (InstanceId × StartId) := []
  starting : List InstanceId := []
  scheduled : Bool := false
  stopped : Bool := false
  active : List InstanceId := []
  deriving DecidableEq

/-- What happens to the queue and the workers it admits. -/
inductive CapacityEvent where
  | request (instanceId : InstanceId) (startId : StartId)
  /-- The scheduled timer fires; `isCurrent` is what it finds then. -/
  | tick (isCurrent : InstanceId → StartId → Bool)
  /-- The worker of a start in flight is allocated. -/
  | registered (instanceId : InstanceId)
  /-- The promise of a start settles, fulfilled or rejected. -/
  | settled (instanceId : InstanceId)
  | exited (instanceId : InstanceId)
  | cancel (instanceId : InstanceId)
  | wake
  | stop

/-- What the queue does, in order. -/
inductive CapacityOutput where
  | launched (instanceId : InstanceId) (startId : StartId)
  | dropped (instanceId : InstanceId) (startId : StartId)
  | queued (instanceId : InstanceId) (startId : StartId)
  /-- The request is answered with the promise of the start in flight. -/
  | joined (instanceId : InstanceId)
  | refused (instanceId : InstanceId)
  | settled (instanceId : InstanceId)
  | cancelled (instanceId : InstanceId)
  | stopped
  deriving DecidableEq

namespace CapacityQueue

/-- The instances that wait. -/
def waiters (q : CapacityQueue) : List InstanceId := q.waiting.map Prod.fst

def hasCapacity (limit : Nat) (q : CapacityQueue) : Bool := q.active.length + q.starting.length < limit

/-- `wake`. -/
def wake (q : CapacityQueue) : CapacityQueue :=
  if q.stopped || q.scheduled || q.waiting.isEmpty then q else { q with scheduled := true }

/-- `Map.set`: a key that is there keeps its place. -/
def setWaiting (waiting : List (InstanceId × StartId)) (instanceId : InstanceId) (startId : StartId) :
    List (InstanceId × StartId) :=
  if instanceId ∈ waiting.map Prod.fst then
    waiting.map fun e => if e.1 = instanceId then (instanceId, startId) else e
  else waiting ++ [(instanceId, startId)]

/-- `request`. -/
def request (limit : Nat) (q : CapacityQueue) (instanceId : InstanceId) (startId : StartId) :
    CapacityQueue × List CapacityOutput :=
  if q.stopped then (q, [.refused instanceId])
  else if instanceId ∈ q.starting then (q, [.joined instanceId])
  else if q.waiting.isEmpty && q.hasCapacity limit then
    ({ q with starting := q.starting ++ [instanceId] }, [.launched instanceId startId])
  else if q.waiting.lookup instanceId = some startId then (q.wake, [])
  else ({ q with waiting := setWaiting q.waiting instanceId startId }.wake, [.queued instanceId startId])

/-- The loop of the timer over the waiting entries: what is left of them, the starts in
flight and what it did. -/
def admitWaiting (limit : Nat) (isCurrent : InstanceId → StartId → Bool) (active : List InstanceId) :
    List (InstanceId × StartId) → List InstanceId → List (InstanceId × StartId) × List InstanceId × List CapacityOutput
  | [], starting => ([], starting, [])
  | (i, s) :: rest, starting =>
    if isCurrent i s = false then
      let (waiting, starting, os) := admitWaiting limit isCurrent active rest starting
      (waiting, starting, .dropped i s :: os)
    else if limit ≤ active.length + starting.length ∨ i ∈ starting then ((i, s) :: rest, starting, [])
    else
      let (waiting, starting, os) := admitWaiting limit isCurrent active rest (starting ++ [i])
      (waiting, starting, .launched i s :: os)

/-- The timer's callback. -/
def tick (limit : Nat) (isCurrent : InstanceId → StartId → Bool) (q : CapacityQueue) :
    CapacityQueue × List CapacityOutput :=
  let (waiting, starting, os) := admitWaiting limit isCurrent q.active q.waiting q.starting
  ({ q with scheduled := false, waiting, starting }, os)

/-- `cancel`, up to its wait for the start in flight. -/
def cancel (q : CapacityQueue) (instanceId : InstanceId) : CapacityQueue :=
  { q with waiting := q.waiting.filter (·.1 ≠ instanceId) }.wake

/-- `stop`, up to its wait for the starts in flight. -/
def stop (q : CapacityQueue) : CapacityQueue := { q with stopped := true, waiting := [], scheduled := false }

/-- The queue after an event, and what it did. -/
def step (limit : Nat) (q : CapacityQueue) : CapacityEvent → CapacityQueue × List CapacityOutput
  | .request i s => q.request limit i s
  | .tick isCurrent => q.tick limit isCurrent
  | .registered i => ({ q with active := q.active ++ [i] }, [])
  | .settled i => ({ q with starting := q.starting.erase i }.wake, [.settled i])
  | .exited i => ({ q with active := q.active.erase i }.wake, [])
  | .cancel i => (q.cancel i, [.cancelled i])
  | .wake => (q.wake, [])
  | .stop => (q.stop, [.stopped])

/-- When an event can happen: a timer must be scheduled, and a worker registers once, while
its start is in flight. -/
def Enabled (q : CapacityQueue) : CapacityEvent → Prop
  | .tick _ => q.scheduled = true
  | .registered i => i ∈ q.starting ∧ i ∉ q.active
  | .settled i => i ∈ q.starting
  | _ => True

end CapacityQueue

open CapacityQueue

/-- A step of the queue. -/
def CapacityStep (limit : Nat) : Runs.Step CapacityQueue CapacityEvent CapacityOutput := fun q e os q' =>
  q.Enabled e ∧ q.step limit e = (q', os)

/-- The workers allocated or in allocation, each counted once. -/
def CapacityQueue.allocated (q : CapacityQueue) : Nat :=
  q.active.length + (q.starting.filter (· ∉ q.active)).length

/-! ## The timer's loop -/

/-- What the loop does with an entry it takes from the front. -/
def admitted (isCurrent : InstanceId → StartId → Bool) (e : InstanceId × StartId) : CapacityOutput :=
  if isCurrent e.1 e.2 then .launched e.1 e.2 else .dropped e.1 e.2

/-- The loop takes a part of the entries from the front, starts those that are current and
drops the others, and stops at a current one it has no capacity for. -/
structure Admits (limit : Nat) (isCurrent : InstanceId → StartId → Bool) (active : List InstanceId)
    (waiting : List (InstanceId × StartId)) (starting : List InstanceId)
    (r : List (InstanceId × StartId) × List InstanceId × List CapacityOutput)
    (taken : List (InstanceId × StartId)) : Prop where
  front : waiting = taken ++ r.1
  starts : r.2.1 = starting ++ (taken.filter fun e => isCurrent e.1 e.2).map Prod.fst
  outputs : r.2.2 = taken.map (admitted isCurrent)
  blocked : ∀ e ∈ r.1.head?, isCurrent e.1 e.2 = true ∧ limit ≤ active.length + r.2.1.length
  within : r.2.1 ≠ starting → active.length + r.2.1.length ≤ limit

theorem admit_spec (limit : Nat) (isCurrent : InstanceId → StartId → Bool) (active : List InstanceId)
    {waiting : List (InstanceId × StartId)} {starting : List InstanceId} (hn : (waiting.map Prod.fst).Nodup)
    (hd : ∀ i ∈ waiting.map Prod.fst, i ∉ starting) :
    ∃ taken, Admits limit isCurrent active waiting starting (admitWaiting limit isCurrent active waiting starting) taken := by
  induction waiting generalizing starting with
  | nil => exact ⟨[], rfl, by simp [admitWaiting], rfl, by simp [admitWaiting], fun h => absurd rfl h⟩
  | cons e rest ih =>
    obtain ⟨i, s⟩ := e
    rw [List.map_cons, List.nodup_cons] at hn
    have hi : i ∉ starting := hd i (by simp)
    have hrest : ∀ j ∈ rest.map Prod.fst, j ∉ starting := fun j hj => hd j (List.mem_cons_of_mem _ hj)
    unfold admitWaiting
    by_cases hc : isCurrent i s = false
    · obtain ⟨taken, h⟩ := ih hn.2 hrest
      rw [if_pos hc]
      refine ⟨(i, s) :: taken, ?_, ?_, ?_, h.blocked, h.within⟩
      · exact congrArg ((i, s) :: ·) h.front
      · simpa [hc] using h.starts
      · simpa [admitted, hc] using h.outputs
    · rw [if_neg hc]
      rw [Bool.not_eq_false] at hc
      by_cases hcap : limit ≤ active.length + starting.length ∨ i ∈ starting
      · rw [if_pos hcap]
        refine ⟨[], rfl, by simp, rfl, ?_, fun h => absurd rfl h⟩
        intro e he
        obtain rfl : (i, s) = e := by simpa using he
        exact ⟨hc, hcap.resolve_right hi⟩
      · rw [if_neg hcap]
        have hd' : ∀ j ∈ rest.map Prod.fst, j ∉ starting ++ [i] := by
          intro j hj hj'
          rcases List.mem_append.1 hj' with h | h
          · exact hrest j hj h
          · rw [List.mem_singleton] at h
            exact hn.1 (h ▸ hj)
        obtain ⟨taken, h⟩ := ih hn.2 hd'
        refine ⟨(i, s) :: taken, ?_, ?_, ?_, h.blocked, fun _ => ?_⟩
        · exact congrArg ((i, s) :: ·) h.front
        · simpa [hc] using h.starts
        · simpa [admitted, hc] using h.outputs
        · by_cases hlast : (admitWaiting limit isCurrent active rest (starting ++ [i])).2.1 = starting ++ [i]
          · show active.length + (admitWaiting limit isCurrent active rest (starting ++ [i])).2.1.length ≤ limit
            rw [hlast]
            simp only [List.length_append, List.length_singleton]
            omega
          · exact h.within hlast

end Leitwerk.Supervisor
