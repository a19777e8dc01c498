import Leitwerk.Engine.Rows
/-!
# What every operation keeps of a store

`Sound` ties the execution of a process to its rows: the current execution is a
start that was not superseded and whose record, once it has one, runs or failed,
and an accepted start has its record. Every operation keeps it, so it holds in
every store a run reaches.
-/

namespace Leitwerk.Engine

variable {d : ProcessDefinition} {ctx : Context} {st st' : Store} {op : Op} {w v : Writes}

/-- A start a process may have as its execution. -/
structure Store.Pursues (st : Store) (s : TurnStartRecord) : Prop where
  kind : s.state.kind ≠ .superseded
  record : ∀ start rid lease, s.state = .accepted start rid lease →
    ∃ r, st.turnRecords.get? rid = some r ∧ (r.status = .running ∨ r.status = .failed)

structure Sound (d : ProcessDefinition) (st : Store) : Prop where
  gated : Gated d st.process
  selected : st.Selected
  recordsKeyed : st.RecordsKeyed
  startsKeyed : st.StartsKeyed
  accepted : ∀ k s start rid lease, st.turnStarts.get? k = some s → s.state = .accepted start rid lease →
    rid = s.proposedTurnRecordId ∧ ∃ r, st.turnRecords.get? rid = some r ∧ r.turnId = s.turnId
  current : ∀ k, st.process.currentExecution = some k → ∃ s, st.turnStarts.get? k = some s ∧ st.Pursues s

theorem sound_fresh (h : Fresh st) : Sound d st := by
  refine ⟨?_, ?_, ?_, ?_, ?_, ?_⟩
  · intro x hx
    rw [h.wait] at hx
    cases hx
  · intro hx
    rw [h.execution] at hx
    cases hx
  · intro k r hr
    rw [h.records] at hr
    cases hr
  · intro k s hs
    rw [h.starts] at hs
    cases hs
  · intro k s _ _ _ hs
    rw [h.starts] at hs
    cases hs
  · intro k hk
    rw [h.execution] at hk
    cases hk

/-! ## The current start and its record -/

theorem Sound.currentStart (h : Sound d st) {k : String} (hk : st.process.currentExecution = some k) :
    ∃ s, st.currentStart = some s ∧ s.id = k ∧ st.Pursues s := by
  obtain ⟨s, hs, hp⟩ := h.current k hk
  exact ⟨s, currentStart_of_row hk hs, h.startsKeyed k s hs, hp⟩

/-- The current record exists, is of the current start, and runs or failed. -/
theorem Sound.currentRecord (h : Sound d st) {rid : String} (hid : st.currentTurnRecordId = some rid) :
    ∃ s r, st.currentStart = some s ∧ st.turnRecords.get? rid = some r ∧ st.currentTurnRecord = some r ∧ r.id = rid ∧
      r.turnId = s.turnId ∧ (r.status = .running ∨ r.status = .failed) := by
  obtain ⟨s, start, lease, hs, hst⟩ := currentTurnRecordId_iff.1 hid
  obtain ⟨hcur, hrow⟩ := currentStart_row hs h.startsKeyed
  obtain ⟨s', hs', hp⟩ := h.current _ hcur
  rw [hrow, Option.some.injEq] at hs'
  subst hs'
  obtain ⟨r, hr, hstatus⟩ := hp.record _ _ _ hst
  obtain ⟨-, r', hr', hturn⟩ := h.accepted _ _ _ _ _ hrow hst
  rw [hr, Option.some.injEq] at hr'
  subst hr'
  refine ⟨s, r, hs, hr, ?_, h.recordsKeyed _ _ hr, hturn, hstatus⟩
  rw [Store.currentTurnRecord, hid]
  exact hr

/-- Whether an execution lives depends on its start and, once accepted, on its record. -/
theorem liveExecution_iff : st.liveExecution = true ↔ ∃ s, st.currentStart = some s ∧
    ((∃ resolved, s.state = .starting resolved) ∨ ∃ start rid lease r, s.state = .accepted start rid lease ∧
      st.turnRecords.get? rid = some r ∧ r.status = .running) := by
  unfold Store.liveExecution
  rw [Bool.or_eq_true]
  constructor
  · rintro (h | h)
    · obtain ⟨⟨id, resolved⟩, hx⟩ := Option.isSome_iff_exists.1 h
      obtain ⟨s, hs, -, hst⟩ := startingExecution_iff.1 hx
      exact ⟨s, hs, .inl ⟨resolved, hst⟩⟩
    · rw [Option.any_eq_true] at h
      obtain ⟨r, hr, hrun⟩ := h
      obtain ⟨rid, hid, hrow⟩ := Option.bind_eq_some_iff.1 hr
      obtain ⟨s, start, lease, hs, hst⟩ := currentTurnRecordId_iff.1 hid
      exact ⟨s, hs, .inr ⟨start, rid, lease, r, hst, hrow, by simpa using hrun⟩⟩
  · rintro ⟨s, hs, ⟨resolved, hst⟩ | ⟨start, rid, lease, r, hst, hrow, hrun⟩⟩
    · left
      rw [startingExecution_iff.2 ⟨s, hs, rfl, hst⟩]
      rfl
    · right
      rw [Store.currentTurnRecord, currentTurnRecordId_iff.2 ⟨s, start, lease, hs, hst⟩, Option.bind_some, hrow,
        Option.any_some, hrun]
      rfl

/-! ## Where an operation leaves the execution -/

/-- A decision without starts leaves the execution where its writes say. -/
theorem Ran.stayed (h : Ran d ctx st op w v st') (hc : w.creates = []) : v.creates = [] ∧
    st'.process.currentExecution = (w.candidate st.process).currentExecution ∧
    st'.process.selectedTurnId = (w.candidate st.process).selectedTurnId ∧
    st'.process.lifecycleStatus = (w.candidate st.process).lifecycleStatus := by
  obtain ⟨hv, hl, hs, hx⟩ := h.prepared.idle hc
  exact ⟨hv, h.committed.current.trans hx, h.committed.selected.trans hs, h.committed.lifecycle.trans hl⟩

/-- A decision that leaves the execution leaves the process at none, or at a start of its own. -/
theorem Ran.moved (h : Ran d ctx st op w v st')
    (hx : w.creates = [] → (w.candidate st.process).currentExecution = none) :
    st'.process.currentExecution = none ∨ ∃ c ∈ v.creates, st'.process.currentExecution = some c.id ∧
      (st'.process.selectedTurnId = some c.turnId ∨
        op.Exempts st c.turnId ∧ st.process.currentExecution.isSome = true ∧
          st'.process.selectedTurnId = st.process.selectedTurnId) ∧
      (c.begins = true → st'.process.lifecycleStatus = .error → op.stopsStart d ctx st = true) := by
  by_cases hc : w.creates = []
  · left
    rw [(h.stayed hc).2.1]
    exact hx hc
  · rw [h.committed.current, h.committed.selected, h.committed.lifecycle]
    cases h.prepared.pointer with
    | kept hv _ => exact .inl (h.prepared.moved hc hv)
    | cleared _ hcur => exact .inl hcur
    | reserved c hmem _ hcur hsel hst =>
      refine .inr ⟨c, hmem, hcur, ?_, fun hb he => ?_⟩
      · exact hsel.imp_right fun ⟨he, hs, _, hsame⟩ => ⟨he, hs, hsame⟩
      · obtain ⟨ha, hg⟩ := hst hb he
        exact ha.stops hg

/-! ## Every operation keeps it -/

theorem toState_kind (s : InitialStartState) : s.toState.kind = .starting ∨ s.toState.kind = .preparationFailed := by
  cases s with
  | starting s => exact .inl rfl
  | preparationFailed f => exact .inr rfl

theorem pursues_created {c : TurnStartInput} : st.Pursues c.toRecord where
  kind := by
    rcases toState_kind c.state with h | h <;> rw [show c.toRecord.state = c.state.toState from rfl, h] <;> decide
  record start rid lease h := by
    rcases toState_kind c.state with h' | h' <;> rw [show c.state.toState = c.toRecord.state from rfl, h] at h' <;> cases h'

theorem Sound.of_moved (hs : Sound d st) (h : Ran d ctx st op w v st')
    (hx : w.creates = [] → (w.candidate st.process).currentExecution = none) {k : String}
    (hk : st'.process.currentExecution = some k) : ∃ s, st'.turnStarts.get? k = some s ∧ st'.Pursues s := by
  rcases h.moved hx with hnone | ⟨c, hc, hcur, -⟩
  · rw [hnone] at hk
    cases hk
  · rw [hcur, Option.some.injEq] at hk
    subst hk
    exact ⟨_, (h.start_created hs.startsKeyed hc).2.1, pursues_created⟩

/-- An operation that neither moves the execution nor changes its start. -/
theorem Sound.of_stayed (hs : Sound d st) (h : Ran d ctx st op w v st') (hc : w.creates = [])
    (hx : (w.candidate st.process).currentExecution = st.process.currentExecution) (hcas : w.casWrites = [])
    (hrec : ∀ s start rid lease r, st.currentStart = some s → s.state = .accepted start rid lease →
      st.turnRecords.get? rid = some r → (r.status = .running ∨ r.status = .failed) →
      ∃ r', st'.turnRecords.get? rid = some r' ∧ (r'.status = .running ∨ r'.status = .failed)) {k : String}
    (hk : st'.process.currentExecution = some k) : ∃ s, st'.turnStarts.get? k = some s ∧ st'.Pursues s := by
  rw [(h.stayed hc).2.1, hx] at hk
  obtain ⟨s, hrow, hp⟩ := hs.current k hk
  refine ⟨s, h.start_same hcas hrow, hp.kind, fun start rid lease hst => ?_⟩
  obtain ⟨r, hr, hstatus⟩ := hp.record start rid lease hst
  exact hrec s start rid lease r (currentStart_of_row hk hrow) hst hr hstatus

/-- The current start after the state change of an act that keeps the execution. -/
theorem Ran.current_cas (h : Ran d ctx st op w v st') (hkeyed : st.StartsKeyed) {s : TurnStartRecord} {kind : StartStateKind}
    {state : StartState} {retry : Option StartupRetryState} (hs : st.currentStart = some s)
    (hc : w.casWrites = [.casState s.id kind state retry]) (hk : w.creates = [])
    (hx : (w.candidate st.process).currentExecution = st.process.currentExecution) :
    st'.process.currentExecution = some s.id ∧
      st'.turnStarts.get? s.id = some { s with state := state, automaticRetry := retry.or s.automaticRetry } := by
  obtain ⟨hcur, hrow⟩ := currentStart_row hs hkeyed
  refine ⟨by rw [(h.stayed hk).2.1, hx, hcur], ?_⟩
  rw [h.start_row hrow, hc, List.foldl_cons, List.foldl_nil, casRow_self]

theorem Sound.current_step (hs : Sound d st) (h : Ran d ctx st op w v st') {k : String}
    (hk : st'.process.currentExecution = some k) : ∃ s, st'.turnStarts.get? k = some s ∧ st'.Pursues s := by
  -- the current start after its own state change
  have hcas : ∀ {s : TurnStartRecord} {kind state retry}, st.currentStart = some s →
      w.casWrites = [.casState s.id kind state retry] → w.creates = [] →
      (w.candidate st.process).currentExecution = st.process.currentExecution →
      st'.Pursues { s with state := state, automaticRetry := retry.or s.automaticRetry } →
      ∃ s, st'.turnStarts.get? k = some s ∧ st'.Pursues s := by
    intro s kind state retry hcs hc hnil hx hp
    obtain ⟨hcur, hrow⟩ := h.current_cas hs.startsKeyed hcs hc hnil hx
    rw [hk, Option.some.injEq] at hcur
    subst hcur
    exact ⟨_, hrow, hp⟩
  cases h.decided.act with
  | keeps hc hr hkeep =>
    refine hs.of_stayed h hkeep.creates hkeep.current hc (fun s start rid lease r _ _ hrow hstatus => ?_) hk
    exact ⟨r, h.record_logged hr hrow, hstatus⟩
  | leaves hc hr hl hx => exact hs.of_moved h hx hk
  | succeeds payload hco hid hc hr hx => exact hs.of_moved h hx hk
  | supersedes hc hr hx => exact hs.of_moved h hx hk
  | accepts s resolved lease receipt hcs hst hlife hsel hc hr hnil hcand =>
    obtain ⟨m, hcand⟩ := hcand
    refine hcas hcs hc hnil (by rw [hcand]) ⟨by nofun, ?_⟩
    intro start rid lease' hacc
    cases hacc
    refine ⟨acceptedTurnRecord ctx st s resolved lease receipt, ?_, .inl rfl⟩
    rw [(h.record_created hr).2]
    exact if_pos rfl
  | fails id r patch hid hrow hp hc hr hnil hx hsel =>
    refine hs.of_stayed h hnil hx hc (fun s start rid lease r' hcs hst hrow' hstatus => ?_) hk
    have hrid := currentTurnRecordId_iff.2 ⟨s, start, lease, hcs, hst⟩
    rw [hid, Option.some.injEq] at hrid
    subst hrid
    refine ⟨patch.apply r', by rw [h.record_updated hr hrow', if_pos rfl], .inr ?_⟩
    unfold TurnRecordPatch.apply
    rw [hp]
    rfl
  | failsBootstrap s resolved lease code message hcs hst hc hr hnil hcand =>
    refine hcas hcs hc hnil (by rw [hcand]) ⟨by nofun, ?_⟩
    intro start rid lease' hacc
    cases hacc
  | reschedules s retry hcs hst hc hr hnil hcand =>
    obtain ⟨hcur, hrow⟩ := currentStart_row hcs hs.startsKeyed
    obtain ⟨s', hs', hp⟩ := hs.current _ hcur
    rw [hrow, Option.some.injEq] at hs'
    subst hs'
    refine hcas hcs hc hnil (by rw [hcand]) ⟨hp.kind, ?_⟩
    intro start rid lease hacc
    replace hacc : s.state = .accepted start rid lease := hacc
    rw [hacc] at hst
    cases hst

theorem Sound.selected_step (hs : Sound d st) (h : Ran d ctx st op w v st') : st'.Selected := by
  intro hx
  have hstays : w.creates = [] → ((w.candidate st.process).currentExecution.isSome = true →
      (w.candidate st.process).selectedTurnId.isSome = true) → st'.process.selectedTurnId.isSome = true := by
    intro hc hsel
    obtain ⟨-, hcur, hs', -⟩ := h.stayed hc
    rw [hs']
    exact hsel (hcur ▸ hx)
  have hmoves : (w.creates = [] → (w.candidate st.process).currentExecution = none) →
      st'.process.selectedTurnId.isSome = true := by
    intro hx'
    rcases h.moved hx' with hnone | ⟨c, -, -, hsel | ⟨-, hcur, hsame⟩, -⟩
    · rw [hnone] at hx
      cases hx
    · rw [hsel]
      rfl
    · rw [hsame]
      exact hs.selected hcur
  cases h.decided.act with
  | keeps hc hr hk =>
    refine hstays hk.creates fun hcur => ?_
    rw [hk.current] at hcur
    rcases hk.selected with hsame | hnone | ⟨-, hsome⟩
    · rw [hsame]
      exact hs.selected hcur
    · rw [hnone] at hcur
      cases hcur
    · exact hsome
  | leaves hc hr hl hx' => exact hmoves hx'
  | succeeds payload hco hid hc hr hx' => exact hmoves hx'
  | supersedes hc hr hx' => exact hmoves hx'
  | accepts s resolved lease receipt hcs hst hlife hsel hc hr hnil hcand =>
    obtain ⟨m, hcand⟩ := hcand
    refine hstays hnil fun _ => ?_
    rw [hcand, hsel]
    rfl
  | fails id r patch hid hrow hp hc hr hnil hcur hsel =>
    refine hstays hnil fun hcur' => ?_
    rcases hsel with hsame | hturn | ⟨-, hsome⟩
    · rw [hsame]
      exact hs.selected (hcur ▸ hcur')
    · rw [hturn]
      rfl
    · exact hsome
  | failsBootstrap s resolved lease code message hcs hst hc hr hnil hcand =>
    refine hstays hnil fun hcur => ?_
    rw [hcand] at hcur ⊢
    exact hs.selected hcur
  | reschedules s retry hcs hst hc hr hnil hcand =>
    refine hstays hnil fun hcur => ?_
    rw [hcand] at hcur ⊢
    exact hs.selected hcur

theorem Sound.recordsKeyed_step (hs : Sound d st) (h : Ran d ctx st op w v st') : st'.RecordsKeyed := by
  intro k r' hr'
  cases hk : st.turnRecords.get? k with
  | none =>
    obtain ⟨c, -, hid, hsame, -⟩ := h.record_new hk hr'
    rw [hsame.id, hid]
  | some r =>
    obtain ⟨r'', hrow, hsame⟩ := h.record_same hk
    rw [hr', Option.some.injEq] at hrow
    rw [hrow, hsame.id]
    exact hs.recordsKeyed k r hk

/-- A start is accepted by `AcceptWorkerTurnStart` alone, which creates its record. -/
theorem Ran.newly_accepted (h : Ran d ctx st op w v st') (hkeyed : st.StartsKeyed) {k : String}
    {s' : TurnStartRecord} {start : ResolvedTurnStart} {rid lease : String} (hs' : st'.turnStarts.get? k = some s')
    (hst : s'.state = .accepted start rid lease) :
    st.turnStarts.get? k = some s' ∨ ∃ s l receipt, st.currentStart = some s ∧ st.turnStarts.get? k = some s ∧ k = s.id ∧
      s.state = .starting start ∧ SameStart s s' ∧ rid = s.proposedTurnRecordId ∧ lease = l.id ∧
      st.process.lifecycleStatus = .active ∧ st.process.selectedTurnId = some s.turnId ∧ w.creates = [] ∧
      w.turnRecordWrites = [.create (acceptedTurnRecord ctx st s start l receipt)] := by
  cases hk : st.turnStarts.get? k with
  | none =>
    obtain ⟨c, -, -, rfl⟩ := h.start_new hkeyed hk hs'
    rcases toState_kind c.state with h' | h' <;> rw [show c.state.toState = c.toRecord.state from rfl, hst] at h' <;>
      cases h'
  | some s =>
    have hsame : w.casWrites = [] → st.turnStarts.get? k = some s' := by
      intro hc
      rw [h.start_same hc hk] at hs'
      rw [← hs', hk]
    -- a state change to another state than `accepted` is of another start
    have hcas : ∀ {id kind state retry}, w.casWrites = [.casState id kind state retry] → state.kind ≠ .accepted →
        st.turnStarts.get? k = some s' := by
      intro id kind state retry hc hne
      rw [h.start_cas hc hk] at hs'
      split at hs'
      · cases hs'
        rw [show state = .accepted start rid lease from hst] at hne
        exact absurd rfl hne
      · rw [← hs', hk]
    rw [← hk]
    cases h.decided.act with
    | keeps hc => exact .inl (hsame hc)
    | leaves hc => exact .inl (hsame hc)
    | fails id r patch hid hrow hp hc => exact .inl (hsame hc)
    | succeeds payload hco hid hc => exact .inl (hsame hc)
    | failsBootstrap s₁ resolved l code message hcs hst₁ hc => exact .inl (hcas hc fun hkind => by cases hkind)
    | reschedules s₁ retry₁ hcs hst₁ hc =>
      refine .inl (hcas hc fun hkind => ?_)
      cases hs₁ : s₁.state with
      | accepted => rw [hs₁] at hst₁; cases hst₁
      | _ => rw [hs₁] at hkind; cases hkind
    | supersedes hc =>
      unfold supersededStart at hc
      split at hc
      · exact .inl (hcas hc fun hkind => by cases hkind)
      · exact .inl (hsame hc)
    | accepts s₁ resolved l receipt hcs hst₁ hlife hsel hc hrec hnil hcand =>
      by_cases hid : s₁.id = k
      · subst hid
        have hrow := (currentStart_row hcs hkeyed).2
        rw [h.start_cas hc hrow, if_pos rfl, Option.some.injEq] at hs'
        subst hs'
        cases hst
        exact .inr ⟨s₁, l, receipt, hcs, hrow, rfl, hst₁, ⟨rfl, rfl, rfl, rfl, rfl, rfl, rfl, rfl⟩, rfl, rfl, hlife, hsel, hnil,
          hrec⟩
      · rw [h.start_cas hc hk, if_neg hid] at hs'
        rw [← hs', hk]
        exact .inl rfl

theorem Sound.accepted_step (hs : Sound d st) (h : Ran d ctx st op w v st') {k : String} {s' : TurnStartRecord}
    {start : ResolvedTurnStart} {rid lease : String} (hs' : st'.turnStarts.get? k = some s')
    (hst : s'.state = .accepted start rid lease) :
    rid = s'.proposedTurnRecordId ∧ ∃ r, st'.turnRecords.get? rid = some r ∧ r.turnId = s'.turnId := by
  rcases h.newly_accepted hs.startsKeyed hs' hst with hold | ⟨s, l, receipt, -, hk, -, -, hsame, hrid, -, -, -, -, hrec⟩
  · obtain ⟨hrid, r, hr, hturn⟩ := hs.accepted k s' start rid lease hold hst
    obtain ⟨r', hr', hsame⟩ := h.record_same hr
    exact ⟨hrid, r', hr', hsame.turnId.trans hturn⟩
  · refine ⟨hrid.trans hsame.proposed.symm, acceptedTurnRecord ctx st s start l receipt, ?_, hsame.turnId.symm⟩
    rw [(h.record_created hrec).2, hrid]
    exact if_pos rfl

/-- Every accepted operation keeps a sound store. -/
theorem Sound.step (hs : Sound d st) (h : Ran d ctx st op w v st') : Sound d st' where
  gated := by
    intro x hx
    rw [h.committed.metadata] at hx
    rw [h.committed.current]
    exact h.prepared.gated x hx
  selected := hs.selected_step h
  recordsKeyed := hs.recordsKeyed_step h
  startsKeyed := h.startsKeyed hs.startsKeyed
  accepted _ _ _ _ _ := hs.accepted_step h
  current _ := hs.current_step h

theorem Sound.ran (hs : Sound d st) (h : op.run d ctx st = .ok st') :
    ∃ decision v, op.decide d ctx st = .ok decision ∧ prepareWrites d ctx st decision = .ok v ∧
      Ran d ctx st op decision.writes v st' :=
  Op.ran h hs.gated hs.selected hs.recordsKeyed

theorem Sound.leases (hs : Sound d st) (leases : List WorkerLease) : Sound d { st with leases } :=
  ⟨hs.gated, hs.selected, hs.recordsKeyed, hs.startsKeyed, hs.accepted, fun k hk =>
    (hs.current k hk).imp fun _ ⟨hrow, hp⟩ => ⟨hrow, hp.kind, hp.record⟩⟩

theorem Sound.next (hs : Sound d st) (e : Event) : Sound d (next d st e) := by
  cases e with
  | leases leases => exact hs.leases leases
  | op op ctx =>
    unfold Engine.next
    dsimp only
    cases hr : op.run d ctx st with
    | error e => exact hs
    | ok st' =>
      obtain ⟨decision, v, -, -, hran⟩ := hs.ran hr
      exact hs.step hran

/-- Every store a run reaches is sound. -/
theorem sound_of_run {h : Runs.Hist Event Result} (hr : Runs.Run (EngineStep d) st h st') (hs : Sound d st) : Sound d st' :=
  hr.inv (Sound d) hs fun _ _ _ _ hs hstep => hstep.1 ▸ hs.next _

/-- An invariant that every accepted operation keeps in sound stores holds after every run
whose steps meet `ok`. -/
theorem inv_of_run {ok : Store → Event → Prop} {I : Store → Prop} {h : Runs.Hist Event Result}
    (hr : Runs.Run (Runs.Guard (EngineStep d) ok) st h st') (hs : Sound d st) (h0 : I st)
    (hop : ∀ st op ctx w v st', Sound d st → I st → ok st (.op op ctx) → Ran d ctx st op w v st' → I st')
    (hl : ∀ st leases, I st → I { st with leases }) : I st' := by
  refine (hr.inv (fun st => Sound d st ∧ I st) ⟨hs, h0⟩ ?_).2
  rintro a e os b ⟨hsa, hia⟩ ⟨⟨rfl, -⟩, hok⟩
  refine ⟨hsa.next e, ?_⟩
  cases e with
  | leases leases => exact hl a leases hia
  | op op ctx =>
    unfold Engine.next
    dsimp only
    cases hr : op.run d ctx a with
    | error e => exact hia
    | ok st' =>
      obtain ⟨decision, v, -, -, hran⟩ := hsa.ran hr
      exact hop a op ctx _ v st' hsa hia hok hran

/-! ## A process to run -/

/-- A process that builds on a worker and is then reviewed by a human. -/
def demoDefinition : ProcessDefinition where
  id := "demo"
  turns turnId :=
    if turnId = "build" then some { turnType := .automatic }
    else if turnId = "review" then some { turnType := .human }
    else none
  entryTurnIds := ["build"]
  transitions turnId := if turnId = "build" then [{ nextTurnId := some "review", outcome := some "done" }] else []

def demoFresh : Store where
  process := { id := "agt", lifecycleStatus := .discovered, selectedTurnId := none, currentExecution := none }

theorem fresh_demo : Fresh demoFresh := ⟨rfl, rfl, rfl, rfl⟩

def demoContext (n : String) : Context where
  now := n
  fresh k := ⟨"tsr-" ++ n ++ toString k, "trn-" ++ n ++ toString k⟩

def demoLease (startRecordId : String) : WorkerLease where
  id := "lease"
  instanceId := "agt"
  workerId := "wkr"
  turnStartRecordId := some startRecordId
  bootstrapReceipt := some ⟨startRecordId, "lease", none⟩

/-- The process is started: its start awaits acceptance. -/
def demoStarted : List Event := [.op (.startProcess { startTurnId := "build" }) (demoContext "1")]

/-- Its start is accepted: its record runs. -/
def demoRunning : List Event :=
  demoStarted ++ [.leases [demoLease "tsr-10"], .op (.acceptWorkerTurnStart ⟨"lease", "tsr-10", "trn-10"⟩) (demoContext "2")]

/-- The worker reports that the turn failed. -/
def demoFailed : List Event :=
  demoRunning ++ [.op (.turnFailed { turnRecordId := "trn-10", turnId := "build", turnType := .automatic
                                     errorSummary := "exit 1", errorClass := some .pipelineError }) (demoContext "3")]

/-- The store after the events. -/
def afterDemo (es : List Event) : Store := es.foldl (next demoDefinition) demoFresh

theorem run_demo (es : List Event) : Runs.Run (EngineStep demoDefinition) demoFresh
    (Runs.play (next demoDefinition) (outputs demoDefinition) demoFresh es) (afterDemo es) :=
  Runs.run_play _ _ (fun _ _ => ⟨rfl, rfl⟩) _ _

theorem run_demo_guarded (ok : Store → Event → Bool) {es : List Event}
    (hok : Runs.allOk (next demoDefinition) ok demoFresh es = true) :
    Runs.Run (Runs.Guard (EngineStep demoDefinition) fun st e => ok st e = true) demoFresh
      (Runs.play (next demoDefinition) (outputs demoDefinition) demoFresh es) (afterDemo es) :=
  Runs.run_guarded _ _ (fun _ _ => ⟨rfl, rfl⟩) hok

end Leitwerk.Engine
