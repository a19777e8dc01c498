import Leitwerk.Engine.Lineage
import Leitwerk.Lib.Serial
/-!
# Operations that meet

`process-operation-coordinator.ts` and `runner.ts`. An operation of a process goes
through `runExclusive`: it waits for the one of its process that was submitted
last, reads the rows, decides and prepares its writes over many awaits, commits
them and releases the next. Operations of other processes and the supervisor's
leases come in between anywhere.

Whatever the interleaving, each process has had its operations one at a time, in
the order they were submitted (`operations_serialize`): what is proved of the runs
of `EngineStep` holds of the server.
-/

namespace Leitwerk.Engine

open Runs Serial

/-! ## One operation in two parts -/

/-- What an operation writes, from the rows it has read. -/
def Op.prepare (d : ProcessDefinition) (ctx : Context) (op : Op) (read : Store) : Except Rejection Writes := do
  if op.admitsNewTurn ∧ ctx.newTurnBlocked then
    reject "session_transfer_in_progress"
      "A local session transfer is waiting for a stable process snapshot"
  else
    let decision ← op.decide d ctx read
    prepareWrites d ctx read decision

/-- The rows after the writes are committed on them; a commit that fails changes none. -/
def applyPrepared (ctx : Context) (st : Store) : Except Rejection Writes → Store
  | .ok w => (commitWrites ctx.now st w).getD st
  | .error _ => st

/-! ## The server -/

/-- How far an operation is that has started: it has read the rows, or committed its writes. -/
inductive Part where
  | deciding (read : Store)
  | recorded

/-- The operations with their queues, and the rows of every process. -/
structure Server where
  calls : Tasks String (Op × Context) Part
  stores : String → Store

/-- No operations yet. -/
def Server.init (stores : String → Store) : Server := ⟨.init, stores⟩

/-- What happens on the server. -/
inductive ServerEvent where
  | runExclusive (instanceId : String) (op : Op) (ctx : Context)
  | begin (i : Nat)
  | record (i : Nat)
  | release (i : Nat)
  | leases (instanceId : String) (leases : List WorkerLease)

/-- An event, for the operation it is about. -/
def Server.about (s : Server) (i : Nat) (step : Task String (Op × Context) Part → Server) : Server :=
  match s.calls.at i with
  | some task => step task
  | none => s

/-- The rows of one process change. -/
def Server.write (s : Server) (instanceId : String) (st : Store) : Server :=
  { s with stores := Function.update s.stores instanceId st }

/-- What an event does. `release` and the removal of the tail are one step of the source. -/
def Server.next (d : String → ProcessDefinition) (s : Server) : ServerEvent → Server
  | .runExclusive instanceId op ctx => { s with calls := s.calls.add instanceId (op, ctx) }
  | .begin i => s.about i fun task => { s with calls := s.calls.setPhase i (.running (.deciding (s.stores task.key))) }
  | .record i => s.about i fun task => match task.phase with
    | .running (.deciding read) =>
      { s.write task.key (applyPrepared task.data.2 (s.stores task.key)
          (task.data.1.prepare (d task.key) task.data.2 read)) with
        calls := s.calls.setPhase i (.running .recorded) }
    | _ => s
  | .release i => s.about i fun task => { s with calls := (s.calls.setPhase i (.settled true)).finish i task.key true }
  | .leases instanceId leases => s.write instanceId { s.stores instanceId with leases := leases }

/-- Whether an operation has read the rows and not committed yet. -/
def deciding (task : Task String (Op × Context) Part) : Bool :=
  match task.phase with
  | .running (.deciding _) => true
  | _ => false

/-- Whether an operation has committed and not released the next yet. -/
def committed (task : Task String (Op × Context) Part) : Bool :=
  match task.phase with
  | .running .recorded => true
  | _ => false

/-- Whether an operation has started. -/
def started (task : Task String (Op × Context) Part) : Bool :=
  match task.phase with
  | .waiting => false
  | _ => true

/-- When an event can happen. -/
def Server.admits (s : Server) : ServerEvent → Bool
  | .runExclusive .. | .leases .. => true
  | .begin i => (s.calls.at i).any s.calls.ready
  | .record i => (s.calls.at i).any deciding
  | .release i => (s.calls.at i).any committed

/-- A step, whether or not the event can happen. -/
def ServerMove (d : String → ProcessDefinition) : Step Server ServerEvent Unit := fun s e _ s' => s' = s.next d e

/-- A step of the server. -/
def ServerStep (d : String → ProcessDefinition) : Step Server ServerEvent Unit :=
  Guard (ServerMove d) fun s e => s.admits e = true

/-- The operations of a process that have started, in the order they were submitted. -/
def Server.begun (s : Server) (instanceId : String) : List (Op × Context) :=
  (s.calls.tasks.filter fun task => task.key = instanceId && started task).map (·.data)

/-- The operations of a history. -/
def ops (h : Hist Event Result) : List (Op × Context) :=
  (events h).filterMap fun
    | .op op ctx => some (op, ctx)
    | .leases _ => none

variable {d : String → ProcessDefinition} {ctx : Context} {op : Op} {st : Store} {s s' : Server} {i j : Nat} {k : String}
  {task other : Task String (Op × Context) Part}

/-! ## Preparing and committing -/

/-- An operation whose rows nobody changes meanwhile is the one of `EngineStep`. -/
theorem next_op (d : ProcessDefinition) (st : Store) (op : Op) (ctx : Context) :
    next d st (.op op ctx) = applyPrepared ctx st (op.prepare d ctx st) := by
  unfold next Op.run Op.prepare record
  by_cases hb : op.admitsNewTurn ∧ ctx.newTurnBlocked
  · simp only [if_pos hb]
    rfl
  · simp only [if_neg hb]
    cases op.decide d ctx st with
    | error e => rfl
    | ok decision =>
      simp only [bind, Except.bind]
      cases prepareWrites d ctx st decision with
      | error e => rfl
      | ok w => cases hc : commitWrites ctx.now st w <;> simp [applyPrepared, hc, reject, pure, Except.pure]

/-- The rows that an operation commits to do not include the leases. -/
theorem applyPrepared_leases (ctx : Context) (st : Store) (leases : List WorkerLease) (w : Except Rejection Writes) :
    applyPrepared ctx { st with leases := leases } w = { applyPrepared ctx st w with leases := leases } := by
  cases w with
  | error e => rfl
  | ok w =>
    unfold applyPrepared commitWrites
    simp only [bind, Option.bind]
    cases applyAll applyMappedRunWrite st.mappedRuns w.mappedRunWrites with
    | none => rfl
    | some runs =>
      cases applyAll applyTurnStartWrite st.turnStarts w.turnStartWrites with
      | none => rfl
      | some starts => cases applyAll applyTurnRecordWrite st.turnRecords w.turnRecordWrites <;> rfl

/-! ## One operation of a process at a time -/

theorem about_some (h : s.calls.at i = some task) (step : Task String (Op × Context) Part → Server) : s.about i step = step task := by
  unfold Server.about
  rw [h]

/-- The operation of an event that can happen, and its phase. -/
theorem begin_inv (h : s.admits (.begin i) = true) : ∃ task, s.calls.at i = some task ∧ s.calls.ready task = true :=
  (Option.any_eq_true _ _).1 h

theorem record_inv (h : s.admits (.record i) = true) :
    ∃ task read, s.calls.at i = some task ∧ task.phase = .running (.deciding read) := by
  obtain ⟨task, hat, hd⟩ := (Option.any_eq_true _ _).1 h
  unfold deciding at hd
  split at hd
  · exact ⟨task, _, hat, ‹_›⟩
  · cases hd

theorem release_inv (h : s.admits (.release i) = true) :
    ∃ task, s.calls.at i = some task ∧ task.phase = .running .recorded := by
  obtain ⟨task, hat, hc⟩ := (Option.any_eq_true _ _).1 h
  unfold committed at hc
  split at hc
  · exact ⟨task, hat, ‹_›⟩
  · cases hc

theorem ready_waiting (h : s.calls.ready task = true) : task.phase = .waiting := by
  unfold Tasks.ready at h
  split at h
  · assumption
  · cases h

/-- What the queues of the server keep. -/
structure Queued (s : Server) : Prop where
  ordered : Ordered s.calls
  released : ∀ i task, s.calls.at i = some task → task.phase.over = true → task.phase = .finished true

theorem queued_init (stores : String → Store) : Queued (Server.init stores) where
  ordered := ordered_init
  released i task h := by cases h

/-- The tasks after one gets to another phase. -/
theorem at_moved {phase : Phase Part} (h : (s.calls.setPhase i phase).at j = some other) (hat : s.calls.at i = some task) :
    i = j ∧ other = { task with phase := phase } ∨ i ≠ j ∧ s.calls.at j = some other := by
  rw [at_setPhase] at h
  split at h
  · rename_i hij
    subst hij
    rw [hat] at h
    cases h
    exact .inl ⟨rfl, rfl⟩
  · exact .inr ⟨‹_›, h⟩

theorem at_finish {ok : Bool} (h : (s.calls.finish i k ok).at j = some other) : ((s.calls.setPhase i (.finished ok)).at j = some other) := by
  unfold Tasks.finish at h
  dsimp only at h
  split at h <;> exact h

/-- Every step keeps the queues. -/
theorem Queued.step (h : Queued s) {e : ServerEvent} (ha : s.admits e = true) : Queued (s.next d e) := by
  cases e with
  | leases instanceId leases => exact ⟨h.ordered, h.released⟩
  | runExclusive instanceId op ctx =>
    refine ⟨h.ordered.add _ _, fun i task hat hover => ?_⟩
    rcases at_add hat with hat | ⟨-, rfl⟩
    · exact h.released i task hat hover
    · cases hover
  | begin i =>
    obtain ⟨task, hat, hr⟩ := begin_inv ha
    rw [Server.next, about_some hat]
    refine ⟨h.ordered.setPhase hat (.inl hr) (by simp) rfl (fun hover => ?_), fun j other hj hover => ?_⟩
    · rw [ready_waiting hr] at hover
      cases hover
    · rcases at_moved hj hat with ⟨-, rfl⟩ | ⟨-, hj⟩
      · cases hover
      · exact h.released j other hj hover
  | record i =>
    obtain ⟨task, read, hat, hp⟩ := record_inv ha
    rw [Server.next, about_some hat, hp]
    refine ⟨h.ordered.setPhase hat (.inr (by simp [hp])) (by simp) rfl (fun hover => ?_), fun j other hj hover => ?_⟩
    · rw [hp] at hover
      cases hover
    · rcases at_moved hj hat with ⟨-, rfl⟩ | ⟨-, hj⟩
      · cases hover
      · exact h.released j other hj hover
  | release i =>
    obtain ⟨task, hat, hp⟩ := release_inv ha
    rw [Server.next, about_some hat]
    have hset : (s.calls.setPhase i (.settled true)).at i = some { task with phase := .settled true } := by
      rw [at_setPhase, if_pos rfl, hat]
      rfl
    have hord : Ordered (s.calls.setPhase i (.settled true)) :=
      h.ordered.setPhase hat (.inr (by simp [hp])) (by simp) rfl fun _ => rfl
    have hfin := hord.finish hset rfl
    refine ⟨hfin, fun j other hj hover => ?_⟩
    replace hj := at_finish (s := { s with calls := s.calls.setPhase i (.settled true) }) hj
    rcases at_moved (s := { s with calls := s.calls.setPhase i (.settled true) }) hj hset with ⟨-, rfl⟩ | ⟨hij, hj⟩
    · rfl
    · rw [at_setPhase_ne _ hij] at hj
      exact h.released j other hj hover

/-- Beside an operation that is at its turn, the others of its process wait or have released it. -/
theorem Queued.others (h : Queued s) (hat : s.calls.at i = some task) (hopen : task.phase.over = false)
    (hbefore : ∀ j other, j < i → s.calls.at j = some other → other.key = task.key → other.phase.over = true)
    (hj : s.calls.at j = some other) (hkey : other.key = task.key) (hij : j ≠ i) :
    other.phase = .waiting ∨ j < i ∧ other.phase = .finished true := by
  rcases Nat.lt_or_gt_of_ne hij with hlt | hgt
  · exact .inr ⟨hlt, h.released j other hj (hbefore j other hlt hj hkey)⟩
  · left
    by_contra hw
    have := h.ordered.order j i other task hgt hj hat hkey.symm hw
    rw [hopen] at this
    cases this

theorem Queued.others_running (h : Queued s) {part : Part} (hat : s.calls.at i = some task)
    (hp : task.phase = .running part) (hj : s.calls.at j = some other) (hkey : other.key = task.key) (hij : j ≠ i) :
    other.phase = .waiting ∨ j < i ∧ other.phase = .finished true :=
  h.others hat (by rw [hp]; rfl) (fun l o hl ho hk => h.ordered.order i l task o hl hat ho hk (by simp [hp])) hj hkey hij

theorem Queued.others_ready (h : Queued s) (hat : s.calls.at i = some task) (hr : s.calls.ready task = true)
    (hj : s.calls.at j = some other) (hkey : other.key = task.key) (hij : j ≠ i) :
    other.phase = .waiting ∨ j < i ∧ other.phase = .finished true :=
  h.others hat (by rw [ready_waiting hr]; rfl) (fun l o hl ho hk => h.ordered.before_ready hat hr hl ho hk) hj hkey hij

/-! ## The operations that have begun -/

section lists
variable {α β : Type} {f : α → α} {p : α → Bool} {l : List α} {a : α}

theorem filter_modify_last (hi : l[i]? = some a) (ha : p a = false) (hf : p (f a) = true)
    (hlater : ∀ j b, i < j → l[j]? = some b → p b = false) : (l.modify i f).filter p = l.filter p ++ [f a] := by
  induction l generalizing i with
  | nil => simp at hi
  | cons b l ih =>
    cases i with
    | zero =>
      simp only [List.getElem?_cons_zero, Option.some.injEq] at hi
      subst hi
      have hnil : l.filter p = [] := List.filter_eq_nil_iff.2 fun c hc => by
        obtain ⟨j, hj⟩ := List.mem_iff_getElem?.1 hc
        simp [hlater (j + 1) c (by omega) (by simpa using hj)]
      simp [ha, hf, hnil]
    | succ i =>
      have := ih (by simpa using hi) fun j c hj hc => hlater (j + 1) c (by omega) (by simpa using hc)
      simp only [List.modify_succ_cons, List.filter_cons, this]
      split <;> rfl

theorem filter_modify_same {g : α → β} (hi : l[i]? = some a) (hp : p (f a) = p a) (hg : g (f a) = g a) :
    ((l.modify i f).filter p).map g = (l.filter p).map g := by
  induction l generalizing i with
  | nil => simp at hi
  | cons b l ih =>
    cases i with
    | zero =>
      simp only [List.getElem?_cons_zero, Option.some.injEq] at hi
      subst hi
      simp only [List.modify_zero_cons, List.filter_cons, hp]
      split <;> simp [hg]
    | succ i =>
      have := ih (by simpa using hi)
      simp only [List.modify_succ_cons, List.filter_cons]
      split <;> simp [this]

end lists

/-- An operation that has started moves on. -/
theorem begun_setPhase (phase : Phase Part) (hat : s.calls.at i = some task) (hs : started task = true)
    (hp : started { task with phase := phase } = true) (k : String) :
    (({ s with calls := s.calls.setPhase i phase } : Server).begun k) = s.begun k :=
  filter_modify_same hat (by simp [hs, hp]) rfl

/-- An operation starts behind those of its process that have. -/
theorem begun_begin (h : Queued s) (hat : s.calls.at i = some task) (hr : s.calls.ready task = true) (read : Store)
    (k : String) : (({ s with calls := s.calls.setPhase i (.running (.deciding read)) } : Server).begun k) =
      if task.key = k then s.begun k ++ [task.data] else s.begun k := by
  unfold Server.begun Tasks.setPhase
  dsimp only
  split
  · rename_i hk
    rw [filter_modify_last (a := task) hat, List.map_append]
    · rfl
    · simp [started, ready_waiting hr]
    · simp [started, hk]
    · intro j other hj hother
      by_cases hkey : other.key = task.key
      · rcases h.others_ready hat hr hother hkey (by omega) with hw | ⟨hlt, -⟩
        · simp [started, hw]
        · omega
      · simp [hk ▸ hkey]
  · rename_i hk
    refine filter_modify_same hat ?_ rfl
    simp [hk]

/-! ## Each process has its operations one at a time -/

/-- The rows of a process as if an operation that has read them had been carried out at once:
it takes effect when it reads, and its rows are those of its process until it commits. -/
structure Seen (d : String → ProcessDefinition) (s : Server) (k : String) (st : Store) : Prop where
  deciding : ∀ i task read, s.calls.at i = some task → task.key = k → task.phase = .running (.deciding read) →
    s.stores k = { read with leases := (s.stores k).leases } ∧
      st = { next (d k) read (.op task.data.1 task.data.2) with leases := (s.stores k).leases }
  idle : (∀ i task, s.calls.at i = some task → task.key = k → Engine.deciding task = false) → st = s.stores k

theorem deciding_iff : deciding task = true ↔ ∃ read, task.phase = .running (.deciding read) := by
  unfold deciding
  cases hp : task.phase with
  | running part => cases part <;> simp
  | _ => simp

theorem not_deciding (h : task.phase = .waiting ∨ j < i ∧ task.phase = .finished true) : deciding task = false := by
  unfold deciding
  rcases h with h | ⟨-, h⟩ <;> rw [h]

/-- A step that starts and settles no operation of the process, and leaves its rows. -/
theorem Seen.of_same {st : Store} (h : Seen d s k st) (hst : s'.stores k = s.stores k)
    (hsame : ∀ i task read, s.calls.at i = some task → task.key = k → task.phase = .running (.deciding read) →
      s'.calls.at i = some task)
    (hback : ∀ i task read, s'.calls.at i = some task → task.key = k → task.phase = .running (.deciding read) →
      s.calls.at i = some task) : Seen d s' k st where
  deciding i task read hat hk hp := by
    rw [hst]
    exact h.deciding i task read (hback i task read hat hk hp) hk hp
  idle hidle := by
    rw [hst]
    refine h.idle fun i task hat hk => ?_
    by_contra hd
    rw [Bool.not_eq_false] at hd
    obtain ⟨read, hp⟩ := deciding_iff.1 hd
    rw [hidle i task (hsame i task read hat hk hp) hk] at hd
    cases hd

/-- The sequential run of a process that the server's run amounts to. -/
def Serializes (d : String → ProcessDefinition) (stores : String → Store) (s : Server) (k : String) : Prop :=
  ∃ h st, Run (EngineStep (d k)) (stores k) h st ∧ Seen d s k st ∧ ops h = s.begun k

theorem ops_snoc (h : Hist Event Result) (op : Op) (ctx : Context) (os : List Result) :
    ops (h ++ [(.op op ctx, os)]) = ops h ++ [(op, ctx)] := by
  simp [ops, events]

theorem ops_leases (h : Hist Event Result) (leases : List WorkerLease) (os : List Result) :
    ops (h ++ [(.leases leases, os)]) = ops h := by
  simp [ops, events]

theorem serializes_begin {stores : String → Store} (hq : Queued s) (h : Serializes d stores s k)
    (hat : s.calls.at i = some task) (hr : s.calls.ready task = true) :
    Serializes d stores { s with calls := s.calls.setPhase i (.running (.deciding (s.stores task.key))) } k := by
  obtain ⟨hist, st, hrun, hseen, hops⟩ := h
  have hbegun := begun_begin hq hat hr (s.stores task.key) k
  by_cases hk : task.key = k
  · subst hk
    -- no operation of the process is under way, so the rows are those it reads
    have hidle : ∀ j other, s.calls.at j = some other → other.key = task.key → deciding other = false := by
      intro j other hj hkey
      by_cases hij : j = i
      · subst hij
        rw [hat, Option.some.injEq] at hj
        exact not_deciding (i := j) (j := j) (.inl (hj ▸ ready_waiting hr))
      · exact not_deciding (hq.others_ready hat hr hj hkey hij)
    obtain rfl := hseen.idle hidle
    have hstep : EngineStep (d task.key) (s.stores task.key) (.op task.data.1 task.data.2) _ _ := ⟨rfl, rfl⟩
    refine ⟨_, _, hrun.snoc hstep, ⟨fun j other read hj hkey hp => ?_, fun hnone => ?_⟩, ?_⟩
    · rcases at_moved hj hat with ⟨-, rfl⟩ | ⟨hij, hj⟩
      · cases hp
        refine ⟨rfl, ?_⟩
        rw [next_op]
        exact applyPrepared_leases _ (s.stores task.key) (s.stores task.key).leases _
      · have := hidle j other hj hkey
        rw [deciding_iff.2 ⟨read, hp⟩] at this
        cases this
    · have hself : (s.calls.setPhase i (.running (.deciding (s.stores task.key)))).at i =
          some { task with phase := .running (.deciding (s.stores task.key)) } := by
        rw [at_setPhase, if_pos rfl, hat]
        rfl
      have := hnone i _ hself rfl
      cases this
    · rw [ops_snoc, hops, hbegun, if_pos rfl]
  · refine ⟨hist, st, hrun, hseen.of_same rfl ?_ ?_, by rw [hops, hbegun, if_neg hk]⟩
    · intro j other read hj hkey hp
      show (s.calls.setPhase i _).at j = _
      rw [at_setPhase_ne _ ?_, hj]
      rintro rfl
      rw [hat, Option.some.injEq] at hj
      exact hk (hj ▸ hkey)
    · intro j other read hj hkey hp
      rcases at_moved hj hat with ⟨-, rfl⟩ | ⟨-, hj⟩
      · exact absurd hkey hk
      · exact hj

theorem serializes_record {stores : String → Store} (hq : Queued s) (h : Serializes d stores s k) {read : Store}
    (hat : s.calls.at i = some task) (hp : task.phase = .running (.deciding read)) :
    Serializes d stores { s.write task.key (applyPrepared task.data.2 (s.stores task.key)
      (task.data.1.prepare (d task.key) task.data.2 read)) with calls := s.calls.setPhase i (.running .recorded) } k := by
  obtain ⟨hist, st, hrun, hseen, hops⟩ := h
  have hbegun := begun_setPhase (.running .recorded) hat (by simp [started, hp]) rfl k
  refine ⟨hist, st, hrun, ?_, hops.trans hbegun.symm⟩
  by_cases hk : task.key = k
  · subst hk
    obtain ⟨hrows, hst⟩ := hseen.deciding i task read hat rfl hp
    have hout : ∀ j other, (s.calls.setPhase i (.running .recorded)).at j = some other → other.key = task.key →
        deciding other = false := by
      intro j other hj hkey
      rcases at_moved hj hat with ⟨-, rfl⟩ | ⟨hij, hj⟩
      · rfl
      · exact not_deciding (hq.others_running hat hp hj hkey (Ne.symm hij))
    refine ⟨fun j other read' hj hkey hp' => ?_, fun _ => ?_⟩
    · have := hout j other hj hkey
      rw [deciding_iff.2 ⟨read', hp'⟩] at this
      cases this
    · -- the commit finds the rows that were read, beside the leases
      show st = Function.update s.stores task.key _ task.key
      have hcommit := applyPrepared_leases task.data.2 read (s.stores task.key).leases
        (task.data.1.prepare (d task.key) task.data.2 read)
      rw [← hrows] at hcommit
      rw [Function.update_self, hst, next_op]
      exact hcommit.symm
  · refine hseen.of_same (Function.update_of_ne (Ne.symm hk) _ _) ?_ ?_
    · intro j other read' hj hkey hp'
      show (s.calls.setPhase i _).at j = _
      rw [at_setPhase_ne _ ?_, hj]
      rintro rfl
      rw [hat, Option.some.injEq] at hj
      exact hk (hj ▸ hkey)
    · intro j other read' hj hkey hp'
      rcases at_moved hj hat with ⟨-, rfl⟩ | ⟨-, hj⟩
      · exact absurd hkey hk
      · exact hj

theorem serializes_release {stores : String → Store} (h : Serializes d stores s k) (hat : s.calls.at i = some task)
    (hp : task.phase = .running .recorded) :
    Serializes d stores { s with calls := (s.calls.setPhase i (.settled true)).finish i task.key true } k := by
  obtain ⟨hist, st, hrun, hseen, hops⟩ := h
  have hset : (s.calls.setPhase i (.settled true)).at i = some { task with phase := .settled true } := by
    rw [at_setPhase, if_pos rfl, hat]
    rfl
  have hbegun : (({ s with calls := (s.calls.setPhase i (.settled true)).finish i task.key true } : Server).begun k) =
      s.begun k := by
    have h₁ := begun_setPhase (.settled true) hat (by simp [started, hp]) rfl k
    have h₂ := begun_setPhase (s := { s with calls := s.calls.setPhase i (.settled true) }) (.finished true)
      hset rfl rfl k
    refine Eq.trans ?_ (h₂.trans h₁)
    unfold Server.begun Tasks.finish
    dsimp only
    split <;> rfl
  refine ⟨hist, st, hrun, hseen.of_same rfl ?_ ?_, hops.trans hbegun.symm⟩
  · intro j other read hj hkey hp'
    have hij : i ≠ j := by
      rintro rfl
      rw [hat, Option.some.injEq] at hj
      rw [← hj, hp] at hp'
      cases hp'
    show ((s.calls.setPhase i (.settled true)).finish i task.key true).at j = some other
    have hfin : ((s.calls.setPhase i (.settled true)).setPhase i (.finished true)).at j = some other := by
      rw [at_setPhase_ne _ hij, at_setPhase_ne _ hij, hj]
    unfold Tasks.finish
    dsimp only
    split <;> exact hfin
  · intro j other read hj hkey hp'
    replace hj := at_finish (s := { s with calls := s.calls.setPhase i (.settled true) }) hj
    rcases at_moved (s := { s with calls := s.calls.setPhase i (.settled true) }) hj hset with ⟨-, rfl⟩ | ⟨hij, hj⟩
    · cases hp'
    · rwa [at_setPhase_ne _ hij] at hj

theorem serializes_leases {stores : String → Store} (h : Serializes d stores s k) (instanceId : String)
    (leases : List WorkerLease) :
    Serializes d stores (s.write instanceId { s.stores instanceId with leases := leases }) k := by
  obtain ⟨hist, st, hrun, hseen, hops⟩ := h
  by_cases hk : instanceId = k
  · subst hk
    have hstep : EngineStep (d instanceId) st (.leases leases) _ _ := ⟨rfl, rfl⟩
    have hrows : (s.write instanceId { s.stores instanceId with leases := leases }).stores instanceId =
        { s.stores instanceId with leases := leases } := Function.update_self _ _ _
    refine ⟨_, _, hrun.snoc hstep, ⟨fun i task read hat hkey hp => ?_, fun hidle => ?_⟩, by rw [ops_leases, hops]; rfl⟩
    · obtain ⟨hread, hst⟩ := hseen.deciding i task read hat hkey hp
      rw [hrows]
      refine ⟨by rw [hread], ?_⟩
      rw [hst]
      rfl
    · rw [hrows, hseen.idle hidle]
      rfl
  · have hrows : (s.write instanceId { s.stores instanceId with leases := leases }).stores k = s.stores k :=
      Function.update_of_ne (Ne.symm hk) _ _
    exact ⟨hist, st, hrun, hseen.of_same hrows (fun _ _ _ hj _ _ => hj) fun _ _ _ hj _ _ => hj, hops⟩

theorem serializes_submit {stores : String → Store} (h : Serializes d stores s k) (instanceId : String) (op : Op)
    (ctx : Context) : Serializes d stores { s with calls := s.calls.add instanceId (op, ctx) } k := by
  obtain ⟨hist, st, hrun, hseen, hops⟩ := h
  refine ⟨hist, st, hrun, hseen.of_same rfl (fun _ _ _ hj _ _ => at_add_of hj) (fun _ _ _ hj _ hp => ?_), hops.trans ?_⟩
  · rcases at_add hj with hj | ⟨-, rfl⟩
    · exact hj
    · cases hp
  · simp [Server.begun, Tasks.add, started]

theorem Serializes.step {stores : String → Store} (h : Serializes d stores s k) (hq : Queued s) {e : ServerEvent}
    (ha : s.admits e = true) : Serializes d stores (s.next d e) k := by
  cases e with
  | runExclusive instanceId op ctx => exact serializes_submit h instanceId op ctx
  | leases instanceId leases => exact serializes_leases h instanceId leases
  | begin i =>
    obtain ⟨task, hat, hr⟩ := begin_inv ha
    rw [Server.next, about_some hat]
    exact serializes_begin hq h hat hr
  | record i =>
    obtain ⟨task, read, hat, hp⟩ := record_inv ha
    rw [Server.next, about_some hat, hp]
    exact serializes_record hq h hat hp
  | release i =>
    obtain ⟨task, hat, hp⟩ := release_inv ha
    rw [Server.next, about_some hat]
    exact serializes_release h hat hp

/-! ## Over whole runs -/

theorem queued_of_run {stores : String → Store} {h : Hist ServerEvent Unit} (hr : Run (ServerStep d) (.init stores) h s) :
    Queued s ∧ ∀ k, Serializes d stores s k := by
  refine hr.inv (fun s => Queued s ∧ ∀ k, Serializes d stores s k) ⟨queued_init stores, fun k => ?_⟩ ?_
  · exact ⟨[], _, .nil, ⟨fun _ _ _ hat => (by cases hat), fun _ => rfl⟩, rfl⟩
  · rintro a e os b ⟨hq, hs⟩ ⟨rfl, ha⟩
    exact ⟨hq.step ha, fun k => (hs k).step hq ha⟩

/-- However the operations of the server interleave, each process has had a sequential run of
those that started, in the order of their submission. Its rows are the last ones of that run,
except that an operation which has read them has not committed its writes yet. -/
theorem operations_serialize {stores : String → Store} {h : Hist ServerEvent Unit}
    (hr : Run (ServerStep d) (.init stores) h s) (k : String) : Serializes d stores s k :=
  (queued_of_run hr).2 k

/-- A process with two operations, the second of which reads what the first has committed. -/
def demoMeeting : List ServerEvent :=
  [.runExclusive "agt" (.startProcess { startTurnId := "build" }) (demoContext "1"),
   .runExclusive "agt" (.updateRefs none) (demoContext "2"), .begin 0, .leases "agt" [], .record 0, .release 0, .begin 1]

/-- The server after events. -/
def afterMeeting (es : List ServerEvent) : Server := es.foldl (Server.next fun _ => demoDefinition) (.init fun _ => demoFresh)

theorem run_meeting {es : List ServerEvent}
    (hok : allOk (Server.next fun _ => demoDefinition) Server.admits (.init fun _ => demoFresh) es = true) :
    Run (ServerStep fun _ => demoDefinition) (.init fun _ => demoFresh)
      (play (Server.next fun _ => demoDefinition) (fun _ _ => []) (.init fun _ => demoFresh) es) (afterMeeting es) := by
  have hmove : ∀ s e, ServerMove (fun _ => demoDefinition) s e [] (s.next (fun _ => demoDefinition) e) := fun _ _ => rfl
  exact run_guarded _ _ hmove hok

theorem operations_serialize_demo : Serializes (fun _ => demoDefinition) (fun _ => demoFresh) (afterMeeting demoMeeting) "agt" :=
  operations_serialize (run_meeting (by decide +kernel)) "agt"

/-- However operations meet, the rows of a process that is between two of its own are sound. -/
theorem execution_sound {stores : String → Store} {h : Hist ServerEvent Unit} (hr : Run (ServerStep d) (.init stores) h s)
    (hf : Fresh (stores k)) (hidle : ∀ task ∈ s.calls.tasks, task.key = k → deciding task = false) : Sound (d k) (s.stores k) := by
  obtain ⟨_, st, hrun, hseen, -⟩ := (queued_of_run hr).2 k
  rw [← hseen.idle fun i task hat => hidle task (List.mem_of_getElem? hat)]
  exact sound_of_run hrun (sound_fresh hf)

theorem execution_sound_demo : Sound demoDefinition ((afterMeeting (demoMeeting.take 5)).stores "agt") :=
  execution_sound (k := "agt") (run_meeting (by decide +kernel)) fresh_demo (by decide +kernel)

/-- What `runExclusive` is for. -/
structure Exclusive (s : Server) : Prop where
  /-- A started operation finds those of its process before it finished. -/
  order : ∀ i j task other, s.calls.at i = some task → s.calls.at j = some other → j < i → other.key = task.key →
    started task = true → other.phase = .finished true
  /-- An operation may start as soon as those of its process before it have finished. -/
  ready : ∀ i task, s.calls.at i = some task → task.phase = .waiting →
    (∀ j other, j < i → s.calls.at j = some other → other.key = task.key → other.phase = .finished true) →
    s.calls.ready task = true
  /-- A process keeps a tail only while an operation of it is unfinished. -/
  tails : ∀ k, s.calls.queue k = none ↔
    ∀ i task, s.calls.at i = some task → task.key = k → task.phase = .finished true

/-- One operation of a process at a time, in order, none waits for nothing, and no tail is left behind. -/
theorem runExclusive_exclusive {stores : String → Store} {h : Hist ServerEvent Unit}
    (hr : Run (ServerStep d) (.init stores) h s) : Exclusive s := by
  obtain ⟨hq, -⟩ := queued_of_run hr
  refine ⟨fun i j task other hi hj hji hkey hs => ?_, fun i task hat hw hbefore => ?_, fun k => ⟨fun hnone i task hat hk => ?_,
    fun hall => ?_⟩⟩
  · refine hq.released j other hj (hq.ordered.order i j task other hji hi hj hkey fun hw => ?_)
    simp [started, hw] at hs
  · have hc := hq.ordered.chain i task hat hw
    unfold Tasks.ready
    rw [hw]
    dsimp only
    cases hp : task.pred with
    | none => rfl
    | some p =>
      rw [hp] at hc
      obtain ⟨before, hpi, hb, hkey, -⟩ := hc
      simp [Tasks.isOver, hb, hbefore p before hpi hb hkey, Phase.over]
  · exact hq.released i task hat (hq.ordered.empty k hnone i task hat hk)
  · cases hqueue : s.calls.queue k with
    | none => rfl
    | some i =>
      obtain ⟨task, hat, hk, hun, -⟩ := hq.ordered.tail k i hqueue
      rw [hall i task hat hk] at hun
      cases hun

theorem runExclusive_exclusive_demo : Exclusive (afterMeeting demoMeeting) ∧ (afterMeeting demoMeeting).calls.queue "agt" = some 1 :=
  ⟨runExclusive_exclusive (run_meeting (by decide +kernel)), by decide +kernel⟩

end Leitwerk.Engine
