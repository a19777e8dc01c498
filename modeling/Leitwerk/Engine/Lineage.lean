import Leitwerk.Engine.Origins
import Leitwerk.Engine.Settlement
/-!
# The attempts of a process

A worker's record is an attempt: the start it was accepted with says which failed
attempt it recovers, if any. Over every run the accepted starts and the attempts
correspond one to one, an attempt counts one more than the one it recovers, and a
failed attempt is recovered by at most one other (`attempts_chain`).

An attempt that was recovered, or that a start waits to recover, is behind the
process: no operation changes it any more.
-/

namespace Leitwerk.Engine

variable {d : ProcessDefinition} {ctx : Context} {st st' : Store} {op : Op} {w v : Writes} {k q : String}

/-! ## The invariant -/

/-- A failed attempt of the turn that is not the current one. -/
def Store.Behind (st : Store) (q : String) (turnId : TurnId) : Prop :=
  ∃ r, st.turnRecords.get? q = some r ∧ r.status = .failed ∧ r.turnId = turnId ∧ st.currentTurnRecordId ≠ some q

/-- A start that recovers the attempt and was accepted or may still be. -/
def Store.Continues (st : Store) (k q : String) : Prop :=
  ∃ s, st.turnStarts.get? k = some s ∧ s.recoveryTurnRecordId = some q ∧
    (s.state.kind = .accepted ∨ st.process.currentExecution = some k)

/-- A record and the start it was accepted with. -/
structure TurnRecord.Attempts (r : TurnRecord) (k : String) (s : TurnStartRecord) : Prop where
  start : r.turnStartRecordId = some k
  turnId : r.turnId = s.turnId
  parent : r.parentTurnRecordId = s.recoveryTurnRecordId
  iteration : r.iteration = s.iteration

/-- How an attempt is counted, and what it recovers. -/
def Store.Numbered (st : Store) (r : TurnRecord) : Prop :=
  match r.parentTurnRecordId with
  | none => r.attemptNumber = 1
  | some q => r.turnStartRecordId.isSome = true ∧ ∃ failed, st.turnRecords.get? q = some failed ∧ failed.status = .failed ∧
      failed.turnId = r.turnId ∧ r.attemptNumber = failed.attemptNumber + 1

structure Store.Lineage (st : Store) : Prop where
  accepted : ∀ k s start rid lease, st.turnStarts.get? k = some s → s.state = .accepted start rid lease →
    ∃ r, st.turnRecords.get? rid = some r ∧ r.Attempts k s
  started : ∀ rid r k, st.turnRecords.get? rid = some r → r.turnStartRecordId = some k →
    ∃ s start lease, st.turnStarts.get? k = some s ∧ s.state = .accepted start rid lease
  numbered : ∀ rid r, st.turnRecords.get? rid = some r → st.Numbered r
  behind : ∀ k s q, st.turnStarts.get? k = some s → s.recoveryTurnRecordId = some q → st.Behind q s.turnId
  waits : ∀ x q, st.process.metadata.turnWait = some x → x.start.recoveryTurnRecordId = some q →
    st.Behind q x.start.turnId ∧ ∀ k, ¬ st.Continues k q
  once : ∀ k k' q, st.Continues k q → st.Continues k' q → k = k'

theorem lineage_fresh (h : Fresh st) : st.Lineage := by
  have hs : ∀ k, st.turnStarts.get? k = none := fun k => by rw [h.starts]; rfl
  have hr : ∀ k, st.turnRecords.get? k = none := fun k => by rw [h.records]; rfl
  refine ⟨?_, ?_, ?_, ?_, ?_, ?_⟩
  · intro k s start rid lease h'
    rw [hs] at h'
    cases h'
  · intro rid r k h'
    rw [hr] at h'
    cases h'
  · intro rid r h'
    rw [hr] at h'
    cases h'
  · intro k s q h'
    rw [hs] at h'
    cases h'
  · intro x q hx
    rw [h.wait] at hx
    cases hx
  · rintro k k' q ⟨s, h', -⟩
    rw [hs] at h'
    cases h'

/-! ## Where the execution goes -/

/-- An operation leaves the execution where it was, clears it or moves it to a start it creates;
only where it creates starts or clears it does it leave. -/
theorem Ran.execution (h : Ran d ctx st op w v st') :
    st'.process.currentExecution = st.process.currentExecution ∧ v.creates = [] ∨ st'.process.currentExecution = none ∨
      ∃ c ∈ v.creates, st'.process.currentExecution = some c.id := by
  have hstay : w.creates = [] → (w.candidate st.process).currentExecution = st.process.currentExecution →
      st'.process.currentExecution = st.process.currentExecution ∧ v.creates = [] := fun hc hx =>
    ⟨(h.stayed hc).2.1.trans hx, (h.stayed hc).1⟩
  have hmove : (w.creates = [] → (w.candidate st.process).currentExecution = none) →
      st'.process.currentExecution = none ∨ ∃ c ∈ v.creates, st'.process.currentExecution = some c.id := by
    intro hx
    rcases h.moved hx with hnone | ⟨c, hc, hcur, -⟩
    · exact .inl hnone
    · exact .inr ⟨c, hc, hcur⟩
  cases h.decided.act with
  | keeps hc hr hk => exact .inl (hstay hk.creates hk.current)
  | leaves hc hr hl hx => exact .inr (hmove hx)
  | succeeds payload hco hid hc hr hx => exact .inr (hmove hx)
  | supersedes hc hr hx => exact .inr (hmove hx)
  | accepts s resolved lease receipt hcs hst hlife hsel hc hr hnil hcand =>
    obtain ⟨m, hcand⟩ := hcand
    exact .inl (hstay hnil (by rw [hcand]))
  | fails id r patch hid hrow hp hc hr hnil hx hsel => exact .inl (hstay hnil hx)
  | failsBootstrap s resolved lease code message hcs hst hc hr hnil hcand => exact .inl (hstay hnil (by rw [hcand]))
  | reschedules s retry hcs hst hc hr hnil hcand => exact .inl (hstay hnil (by rw [hcand]))

/-- A row that was there is current after an operation only if it was before. -/
theorem Ran.current_old (h : Ran d ctx st op w v st') (hkeyed : st.StartsKeyed) {s : TurnStartRecord}
    (hk : st.turnStarts.get? k = some s) (hcur : st'.process.currentExecution = some k) :
    st.process.currentExecution = some k ∧ v.creates = [] := by
  rcases h.execution with ⟨hsame, hc⟩ | hnone | ⟨c, hc, hcur'⟩
  · exact ⟨hsame ▸ hcur, hc⟩
  · rw [hnone] at hcur
    cases hcur
  · rw [hcur, Option.some.injEq] at hcur'
    have := (h.start_created hkeyed hc).1
    rw [← hcur', hk] at this
    cases this

/-- The current record was current before, or the operation created it. -/
theorem Ran.currentTurnRecordId_old (h : Ran d ctx st op w v st') (hs : Sound d st)
    (hq : st'.currentTurnRecordId = some q) :
    st.currentTurnRecordId = some q ∧ v.creates = [] ∨ st.turnRecords.get? q = none := by
  obtain ⟨s', start, lease, hs', hst⟩ := currentTurnRecordId_iff.1 hq
  obtain ⟨hcur, hrow⟩ := currentStart_row hs' (h.startsKeyed hs.startsKeyed)
  rcases h.newly_accepted hs.startsKeyed hrow hst with hold | ⟨s, l, receipt, -, -, -, -, -, hrid, -, -, -, -, hrec⟩
  · obtain ⟨hcur', hc⟩ := h.current_old hs.startsKeyed hold hcur
    exact .inl ⟨currentTurnRecordId_iff.2 ⟨s', start, lease, currentStart_of_row hcur' hold, hst⟩, hc⟩
  · right
    rw [hrid]
    exact (h.record_created hrec).1

/-- What is behind the process stays behind it. -/
theorem Store.Behind.step {turnId : TurnId} (hb : st.Behind q turnId) (hs : Sound d st) (h : Ran d ctx st op w v st') :
    st'.Behind q turnId := by
  obtain ⟨r, hr, hf, ht, hcur⟩ := hb
  obtain ⟨r', hr', hstep⟩ := hs.record_step h hr
  obtain ⟨r'', hr'', hsame⟩ := h.record_same hr
  rw [hr', Option.some.injEq] at hr''
  subst hr''
  refine ⟨r', hr', ?_, hsame.turnId.trans ht, fun hcur' => ?_⟩
  · cases hstep with
    | same he => rw [he, hf]
    | fails _ hr' => exact hr'
    | succeeds _ _ _ hid => exact absurd hid hcur
    | supersedes hrun =>
      rw [hf] at hrun
      cases hrun
  · rcases h.currentTurnRecordId_old hs hcur' with ⟨hold, -⟩ | hnone
    · exact hcur hold
    · rw [hnone] at hr
      cases hr

/-- The failed current record is behind the process once the execution has left it. -/
theorem behind_left {r : TurnRecord} (hs : Sound d st) (h : Ran d ctx st op w v st') (hr : st.currentTurnRecord = some r)
    (hf : r.status = .failed) (hop : ∀ payload, op ≠ .turnOutcome payload) (hleft : st'.currentTurnRecordId ≠ some r.id) :
    st'.Behind r.id r.turnId := by
  obtain ⟨id, hid, hrow⟩ := Option.bind_eq_some_iff.1 hr
  obtain rfl := hs.recordsKeyed id r hrow
  obtain ⟨r', hr', hstep⟩ := hs.record_step h hrow
  obtain ⟨r'', hr'', hsame⟩ := h.record_same hrow
  rw [hr', Option.some.injEq] at hr''
  subst hr''
  refine ⟨r', hr', ?_, hsame.turnId, hleft⟩
  cases hstep with
  | same he => rw [he, hf]
  | fails _ hr' => exact hr'
  | succeeds _ _ hco =>
    obtain ⟨payload, hop', -⟩ := hco
    exact absurd hop' (hop payload)
  | supersedes hrun =>
    rw [hf] at hrun
    cases hrun

/-! ## One operation -/

/-- The origin of every start an operation commits, and of the one it leaves waiting. -/
theorem Sound.ran_origins (hs : Sound d st) (h : op.run d ctx st = .ok st') :
    ∃ w v, Ran d ctx st op w v st' ∧ Comes ctx st op w ∧
      (∀ c ∈ v.creates, ∃ c₀, Origin ctx st op c₀ ∧
        c = { c₀ with automaticRetry := c₀.automaticRetry.or (some ⟨c₀.id, 1, none⟩) }) ∧
      ∀ x, st'.process.metadata.turnWait = some x → Origin ctx st op x.start := by
  obtain ⟨decision, v, hd, hv, hran⟩ := hs.ran h
  have hc := Op.comes hd hs
  have hwaited : ∀ x, st.process.metadata.turnWait = some x → Origin ctx st op x.start := fun x => origin_waited
  obtain ⟨u, hu, rfl⟩ := prepareWrites_sourced sourceable_origin hv hwaited ⟨hc.starts, fun x hx => by
    obtain ⟨y, hy, hstart⟩ := hc.wait x hx
    exact hstart ▸ origin_waited hy⟩
  refine ⟨_, _, hran, hc, fun c hmem => ?_, fun x hx => ?_⟩
  · rw [startEpisodes, creates_mapCreates, List.mem_map] at hmem
    obtain ⟨c₀, hc₀, rfl⟩ := hmem
    exact ⟨c₀, hu.creates c₀ hc₀, rfl⟩
  · rw [hran.committed.metadata] at hx
    exact hu.wait x hx

/-- The lineage of a created start. -/
theorem Origin.behind {s : TurnStartInput} (ho : Origin ctx st op s) (hl : st.Lineage) (hs : Sound d st)
    (h : Ran d ctx st op w v st') (hleft : st'.currentTurnRecordId = none) (hq : s.recoveryTurnRecordId = some q) :
    st'.Behind q s.turnId := by
  cases ho with
  | selected hr =>
    rw [hr] at hq
    cases hq
  | recovers r hr hf hid hrec ht hop =>
    rw [hrec, Option.some.injEq] at hq
    subst hq
    rw [ht]
    exact behind_left hs h hr hf hop (by simp [hleft])
  | repeats failed hcs hst hid hrec ht =>
    rw [ht]
    exact (hl.behind _ _ q (currentStart_row hcs hs.startsKeyed).2 (hrec ▸ hq)).step hs h
  | waited x hx hid hrec ht =>
    rw [ht]
    exact (hl.waits x q hx (hrec ▸ hq)).1.step hs h

/-- A start that continues an attempt did so before, or is the new current one. -/
theorem Store.Continues.old (hc : st'.Continues k q) (hs : Sound d st) (h : Ran d ctx st op w v st') :
    st.Continues k q ∧ (st'.process.currentExecution = some k → st.process.currentExecution = some k) ∨
      st'.process.currentExecution = some k ∧ ∃ c ∈ v.creates, c.id = k ∧ c.recoveryTurnRecordId = some q := by
  obtain ⟨s', hs', hrec, hgoes⟩ := hc
  cases hk : st.turnStarts.get? k with
  | none =>
    right
    obtain ⟨c, hc, hid, rfl⟩ := h.start_new hs.startsKeyed hk hs'
    refine ⟨hgoes.resolve_left fun hacc => ?_, c, hc, hid, hrec⟩
    replace hacc : c.state.toState.kind = .accepted := hacc
    rcases toState_kind c.state with h' | h' <;> rw [h'] at hacc <;> cases hacc
  | some s =>
    left
    obtain ⟨s'', hs'', hsame, hmove⟩ := h.start_moves hs.startsKeyed hk
    rw [hs', Option.some.injEq] at hs''
    subst hs''
    refine ⟨⟨s, hk, hsame.recovery ▸ hrec, ?_⟩, fun hcur => (h.current_old hs.startsKeyed hk hcur).1⟩
    rcases hgoes with hacc | hcur
    · rcases hmove with hst | ⟨hcur, -⟩
      · exact .inl (hst ▸ hacc)
      · exact .inr hcur
    · exact .inr (h.current_old hs.startsKeyed hk hcur).1

theorem retried_kind {state : StartState} (h : (retriedStartState state).isSome = true) :
    state.kind ≠ .starting ∧ state.kind ≠ .accepted := by
  cases state with
  | starting start => cases h
  | accepted start rid lease => cases h
  | superseded start => cases h
  | preparationFailed f => exact ⟨StartStateKind.noConfusion, StartStateKind.noConfusion⟩
  | bootstrapFailed start lease code message => exact ⟨StartStateKind.noConfusion, StartStateKind.noConfusion⟩

/-- No older start goes on with an attempt that a new start of the operation recovers. -/
theorem Origin.alone {s : TurnStartInput} (ho : Origin ctx st op s) (hl : st.Lineage) (hs : Sound d st)
    (h : Ran d ctx st op w v st') (hq : s.recoveryTurnRecordId = some q) (hleft : st'.process.currentExecution ≠ some k)
    (hc : st.Continues k q) : ¬ st'.Continues k q := by
  cases ho with
  | selected hr =>
    rw [hr] at hq
    cases hq
  | recovers r hr hf hid hrec ht hop =>
    obtain ⟨s', hs', hrec', -⟩ := hc
    obtain ⟨-, -, -, -, hcur⟩ := hl.behind k s' q hs' hrec'
    obtain ⟨id, hid', hrow⟩ := Option.bind_eq_some_iff.1 hr
    rw [hrec, Option.some.injEq] at hq
    rw [← hq, hs.recordsKeyed id r hrow] at hcur
    exact absurd hid' hcur
  | repeats failed hcs hst hid hrec ht =>
    -- the start that is repeated has failed for good
    obtain ⟨hcur, hrow⟩ := currentStart_row hcs hs.startsKeyed
    obtain rfl := hl.once _ _ q hc ⟨failed, hrow, hrec ▸ hq, .inr hcur⟩
    obtain ⟨s', hs', -, hmove⟩ := h.start_moves hs.startsKeyed hrow
    obtain ⟨hstarting, haccepted⟩ := retried_kind hst
    rintro ⟨s'', hs'', -, hacc | hcur'⟩
    · rw [hs', Option.some.injEq] at hs''
      subst hs''
      rcases hmove with hsame | ⟨-, hkind, -⟩
      · exact haccepted (hsame ▸ hacc)
      · exact hstarting hkind
    · exact hleft hcur'
  | waited x hx hid hrec ht => exact absurd hc ((hl.waits x q hx (hrec ▸ hq)).2 k)

/-! ## Records -/

/-- A record that an operation creates is the acceptance's, or of no start. -/
theorem Ran.created_record (h : Ran d ctx st op w v st') (hs : Sound d st) (hcomes : Comes ctx st op w) {c : TurnRecord}
    (hc : .create c ∈ w.turnRecordWrites) :
    (∃ s start l receipt, st.currentStart = some s ∧ s.state = .starting start ∧
      c = acceptedTurnRecord ctx st s start l receipt ∧ w.turnRecordWrites = [.create c] ∧
      w.casWrites = [.casState s.id .starting (.accepted start s.proposedTurnRecordId l.id) none]) ∨
    c.turnStartRecordId = none ∧ c.parentTurnRecordId = none ∧ c.attemptNumber = 1 := by
  have hlogged : Logs ctx w → c.turnStartRecordId = none ∧ c.parentTurnRecordId = none ∧ c.attemptNumber = 1 := by
    intro hl
    rcases hcomes.records c hc with ⟨s, start, l, receipt, rfl⟩ | hnone
    · obtain ⟨r, heq, -, hstatus, -⟩ := hl _ hc
      cases heq
      cases hstatus
    · exact hnone
  cases h.decided.act with
  | keeps _ hl => exact .inr (hlogged hl)
  | leaves _ hl => exact .inr (hlogged hl)
  | accepts s resolved lease receipt hcs hst hlife hsel hcas hr hnil hcand =>
    rw [hr, List.mem_singleton] at hc
    cases hc
    exact .inl ⟨s, resolved, lease, receipt, hcs, hst, rfl, hr, hcas⟩
  | fails id r patch hid hrow hp hcas hr =>
    rw [hr, List.mem_singleton] at hc
    cases hc
  | failsBootstrap s resolved lease code message hcs hst hcas hr =>
    rw [hr] at hc
    cases hc
  | reschedules s retry hcs hst hcas hr =>
    rw [hr] at hc
    cases hc
  | succeeds payload hco hid hcas hr =>
    obtain ⟨-, r, -, hrow, -⟩ := hs.currentRecord hid
    obtain ⟨patch, hw, -⟩ := completionWrite_update ctx hrow
    rw [hr, hw, List.mem_singleton] at hc
    cases hc
  | supersedes hcas hr =>
    rw [hr] at hc
    exact (superseded_creates hc).elim

/-- A new record is of a start that was current and starting, or of no start. -/
theorem Ran.new_record (h : Ran d ctx st op w v st') (hs : Sound d st) (hcomes : Comes ctx st op w) {r : TurnRecord}
    (hk : st.turnRecords.get? k = none) (hr : st'.turnRecords.get? k = some r) :
    (∃ s s', st.turnStarts.get? s.id = some s ∧ st'.turnStarts.get? s.id = some s' ∧
      (∃ start lease, s'.state = .accepted start k lease) ∧ r.Attempts s.id s ∧
      r.attemptNumber = ((s.recoveryTurnRecordId.bind st.turnRecords.get?).map (·.attemptNumber)).getD 0 + 1) ∨
    r.turnStartRecordId = none ∧ r.parentTurnRecordId = none ∧ r.attemptNumber = 1 := by
  obtain ⟨c, hc, hid, hsame, -⟩ := h.record_new hk hr
  rcases h.created_record hs hcomes hc with ⟨s, start, l, receipt, hcs, -, rfl, -, hcas⟩ | ⟨hstart, hparent, hnum⟩
  · left
    obtain ⟨-, hrow⟩ := currentStart_row hcs hs.startsKeyed
    refine ⟨s, _, hrow, h.start_cas hcas hrow, ?_, ⟨hsame.start, hsame.turnId, hsame.parent, hsame.iteration⟩,
      hsame.attemptNumber⟩
    rw [if_pos rfl]
    exact ⟨start, l.id, by rw [← hid]; rfl⟩
  · exact .inr ⟨hsame.start.trans hstart, hsame.parent.trans hparent, hsame.attemptNumber.trans hnum⟩

/-! ## Every operation keeps it -/

theorem Store.Numbered.same {r r' : TurnRecord} (hn : st.Numbered r) (h : SameRecord r r') : st.Numbered r' := by
  unfold Store.Numbered at *
  rw [h.parent, h.attemptNumber, h.start, h.turnId]
  exact hn

/-- What an attempt recovers is there after an operation as well. -/
theorem Store.Lineage.numbered_old (hl : st.Lineage) (hs : Sound d st) (h : Ran d ctx st op w v st') {r : TurnRecord}
    (hn : st.Numbered r) (hr : st.turnRecords.get? k = some r) : st'.Numbered r := by
  unfold Store.Numbered at *
  split at hn
  · exact hn
  · rename_i q hq
    obtain ⟨hsome, failed, hfailed, hf, ht, hnum⟩ := hn
    obtain ⟨k', hk'⟩ := Option.isSome_iff_exists.1 hsome
    obtain ⟨s, start, lease, hs', hst⟩ := hl.started k r k' hr hk'
    obtain ⟨r', hr', hatt⟩ := hl.accepted k' s start k lease hs' hst
    rw [hr, Option.some.injEq] at hr'
    subst hr'
    obtain ⟨failed', hfailed', hf', -⟩ := (hl.behind k' s q hs' (hatt.parent ▸ hq)).step hs h
    obtain ⟨failed'', hfailed'', hsame⟩ := h.record_same hfailed
    rw [hfailed', Option.some.injEq] at hfailed''
    subst hfailed''
    exact ⟨hsome, failed', hfailed', hf', hsame.turnId.trans ht, by rw [hsame.attemptNumber, hnum]⟩

theorem TurnRecord.Attempts.same {r r' : TurnRecord} {s s' : TurnStartRecord} (ha : r.Attempts k s) (hr : SameRecord r r')
    (hs : SameStart s s') : r'.Attempts k s' where
  start := hr.start.trans ha.start
  turnId := hr.turnId.trans (ha.turnId.trans hs.turnId.symm)
  parent := hr.parent.trans (ha.parent.trans hs.recovery.symm)
  iteration := hr.iteration.trans (ha.iteration.trans hs.iteration.symm)

theorem Store.Lineage.accepted_step (hl : st.Lineage) (hs : Sound d st) (h : Ran d ctx st op w v st') {s' : TurnStartRecord}
    {start : ResolvedTurnStart} {rid lease : String} (hs' : st'.turnStarts.get? k = some s')
    (hst : s'.state = .accepted start rid lease) : ∃ r, st'.turnRecords.get? rid = some r ∧ r.Attempts k s' := by
  rcases h.newly_accepted hs.startsKeyed hs' hst with hold | ⟨s, l, receipt, -, -, rfl, -, hsame, rfl, -, -, -, -, hrec⟩
  · obtain ⟨r, hr, hatt⟩ := hl.accepted k s' start rid lease hold hst
    obtain ⟨r', hr', hsame⟩ := h.record_same hr
    exact ⟨r', hr', hatt.same hsame ⟨rfl, rfl, rfl, rfl, rfl, rfl, rfl, rfl⟩⟩
  · have hatt : (acceptedTurnRecord ctx st s start l receipt).Attempts s.id s := ⟨rfl, rfl, rfl, rfl⟩
    refine ⟨_, ?_, hatt.same (.refl _) hsame⟩
    rw [(h.record_created hrec).2]
    exact if_pos rfl

theorem Store.Lineage.started_step (hl : st.Lineage) (hs : Sound d st) (h : Ran d ctx st op w v st') (hcomes : Comes ctx st op w)
    {rid : String} {r' : TurnRecord} (hr' : st'.turnRecords.get? rid = some r') (hk : r'.turnStartRecordId = some k) :
    ∃ s start lease, st'.turnStarts.get? k = some s ∧ s.state = .accepted start rid lease := by
  cases hrid : st.turnRecords.get? rid with
  | none =>
    rcases h.new_record hs hcomes hrid hr' with ⟨s, s', -, hs', ⟨start, lease, hst⟩, hatt, -⟩ | ⟨hnone, -⟩
    · rw [hatt.start, Option.some.injEq] at hk
      subst hk
      exact ⟨s', start, lease, hs', hst⟩
    · rw [hnone] at hk
      cases hk
  | some r =>
    obtain ⟨r'', hr'', hsame⟩ := h.record_same hrid
    rw [hr', Option.some.injEq] at hr''
    subst hr''
    obtain ⟨s, start, lease, hs', hst⟩ := hl.started rid r k hrid (hsame.start ▸ hk)
    obtain ⟨s', hs'', -, hmove⟩ := h.start_moves hs.startsKeyed hs'
    refine ⟨s', start, lease, hs'', ?_⟩
    rcases hmove with hkeep | ⟨-, hkind, -⟩
    · exact hkeep.trans hst
    · rw [hst] at hkind
      cases hkind

theorem Store.Lineage.numbered_step (hl : st.Lineage) (hs : Sound d st) (h : Ran d ctx st op w v st') (hcomes : Comes ctx st op w)
    {r' : TurnRecord} (hr' : st'.turnRecords.get? k = some r') : st'.Numbered r' := by
  cases hk : st.turnRecords.get? k with
  | some r =>
    obtain ⟨r'', hr'', hsame⟩ := h.record_same hk
    rw [hr', Option.some.injEq] at hr''
    subst hr''
    exact (hl.numbered_old hs h (hl.numbered k r hk) hk).same hsame
  | none =>
    unfold Store.Numbered
    rcases h.new_record hs hcomes hk hr' with ⟨s, -, hrow, -, -, hatt, hnum⟩ | ⟨-, hparent, hnum⟩
    · rw [hatt.parent, hnum]
      cases hq : s.recoveryTurnRecordId with
      | none => rfl
      | some q =>
        have hb := hl.behind s.id s q hrow hq
        obtain ⟨failed', hfailed', hf, ht, -⟩ := hb.step hs h
        obtain ⟨failed, hfailed, -⟩ := hb
        obtain ⟨failed'', hfailed'', hsame⟩ := h.record_same hfailed
        rw [hfailed', Option.some.injEq] at hfailed''
        subst hfailed''
        refine ⟨by rw [hatt.start]; rfl, failed', hfailed', hf, ht.trans hatt.turnId.symm, ?_⟩
        rw [Option.bind_some, hfailed, hsame.attemptNumber]
        rfl
    · rw [hparent]
      exact hnum

/-- The row of a created start accepts nothing yet. -/
theorem Ran.current_created (h : Ran d ctx st op w v st') (hs : Sound d st) (hc : v.creates ≠ []) :
    st'.currentTurnRecordId = none := by
  cases hq : st'.currentTurnRecordId with
  | none => rfl
  | some q =>
    obtain ⟨s, start, lease, hs', hst⟩ := currentTurnRecordId_iff.1 hq
    rcases h.execution with ⟨-, hnil⟩ | hnone | ⟨c, hmem, hcur⟩
    · exact absurd hnil hc
    · rw [Store.currentStart, hnone] at hs'
      cases hs'
    · rw [currentStart_of_row hcur (h.start_created hs.startsKeyed hmem).2.1, Option.some.injEq] at hs'
      subst hs'
      replace hst : c.state.toState = .accepted start q lease := hst
      rcases toState_kind c.state with hk | hk <;> rw [hst] at hk <;> cases hk

theorem Store.Lineage.step (hl : st.Lineage) (hs : Sound d st) (hrun : op.run d ctx st = .ok st') : st'.Lineage := by
  obtain ⟨w, v, h, hcomes, hcreates, hwaits⟩ := hs.ran_origins hrun
  have hs' : Sound d st' := hs.step h
  -- a created start recovers what the start it was prepared from does
  have horigin : ∀ c ∈ v.creates, ∃ c₀, Origin ctx st op c₀ ∧ c₀.recoveryTurnRecordId = c.recoveryTurnRecordId ∧
      c₀.turnId = c.turnId := by
    intro c hc
    obtain ⟨c₀, ho, rfl⟩ := hcreates c hc
    exact ⟨c₀, ho, rfl, rfl⟩
  refine ⟨fun _ _ _ _ _ => hl.accepted_step hs h, fun _ _ _ => hl.started_step hs h hcomes,
    fun _ _ => hl.numbered_step hs h hcomes, ?_, ?_, ?_⟩
  · intro k s' q hs₁ hq
    cases hk : st.turnStarts.get? k with
    | none =>
      obtain ⟨c, hc, -, rfl⟩ := h.start_new hs.startsKeyed hk hs₁
      obtain ⟨c₀, ho, hrec, ht⟩ := horigin c hc
      have hb := ho.behind hl hs h (h.current_created hs (List.ne_nil_of_mem hc)) (hrec.trans hq)
      rwa [ht] at hb
    | some s =>
      obtain ⟨s'', hs'', hsame, -⟩ := h.start_moves hs.startsKeyed hk
      rw [hs₁, Option.some.injEq] at hs''
      subst hs''
      rw [hsame.turnId]
      exact (hl.behind k s q hk (hsame.recovery ▸ hq)).step hs h
  · intro x q hx hq
    have hnone := (hs'.gated x hx).2
    refine ⟨(hwaits x hx).behind hl hs h ?_ hq, fun k hc => ?_⟩
    · rw [Store.currentTurnRecordId, Store.currentStart, hnone]
      rfl
    · rcases hc.old hs h with ⟨hold, -⟩ | ⟨hcur, -⟩
      · exact (hwaits x hx).alone hl hs h hq (by simp [hnone]) hold hc
      · rw [hnone] at hcur
        cases hcur
  · intro k k' q hc hc'
    -- a start that is new is current, and no other goes on with what it recovers
    have hnew : ∀ {j j' : String}, st'.Continues j' q → st'.process.currentExecution = some j →
        (∃ c ∈ v.creates, c.id = j ∧ c.recoveryTurnRecordId = some q) → j = j' := by
      rintro j j' hj' hcur ⟨c, hmem, -, hrec⟩
      obtain ⟨c₀, ho, hrec₀, -⟩ := horigin c hmem
      by_contra hne
      have hleft : st'.process.currentExecution ≠ some j' := by
        rw [hcur]
        simpa using hne
      rcases hj'.old hs h with ⟨hold, -⟩ | ⟨hcur', -⟩
      · exact ho.alone hl hs h (hrec₀.trans hrec) hleft hold hj'
      · exact hleft hcur'
    rcases hc.old hs h with ⟨hold, -⟩ | ⟨hcur, hmem⟩
    · rcases hc'.old hs h with ⟨hold', -⟩ | ⟨hcur', hmem'⟩
      · exact hl.once k k' q hold hold'
      · exact (hnew hc hcur' hmem').symm
    · exact hnew hc' hcur hmem

/-! ## Over whole runs -/

theorem lineage_of_run {h : Runs.Hist Event Result} (hr : Runs.Run (EngineStep d) st h st') (hs : Sound d st)
    (hl : st.Lineage) : Sound d st' ∧ st'.Lineage := by
  refine hr.inv (fun st => Sound d st ∧ st.Lineage) ⟨hs, hl⟩ ?_
  rintro a e os b ⟨hs, hl⟩ ⟨rfl, -⟩
  refine ⟨hs.next e, ?_⟩
  cases e with
  | leases leases => exact ⟨hl.accepted, hl.started, hl.numbered, hl.behind, hl.waits, hl.once⟩
  | op op ctx =>
    unfold Engine.next
    dsimp only
    cases hrun : op.run d ctx a with
    | error e => exact hl
    | ok b => exact hl.step hs hrun

/-- The attempts of a process. -/
structure Store.Chains (st : Store) : Prop where
  /-- An accepted start has the record it proposed, of its turn and its item. -/
  accepted : ∀ k s start rid lease, st.turnStarts.get? k = some s → s.state = .accepted start rid lease →
    rid = s.proposedTurnRecordId ∧ ∃ r, st.turnRecords.get? rid = some r ∧ r.Attempts k s
  /-- A record that names a start is the one the start was accepted with. -/
  started : ∀ rid r k, st.turnRecords.get? rid = some r → r.turnStartRecordId = some k →
    ∃ s start lease, st.turnStarts.get? k = some s ∧ s.state = .accepted start rid lease
  /-- An attempt that recovers none is the first; any other follows a failed one of its turn. -/
  numbered : ∀ rid r, st.turnRecords.get? rid = some r → st.Numbered r
  /-- Two attempts do not recover the same one. -/
  single : ∀ rid rid' r r' q, st.turnRecords.get? rid = some r → st.turnRecords.get? rid' = some r' →
    r.parentTurnRecordId = some q → r'.parentTurnRecordId = some q → rid = rid'

/-- The start of an attempt that recovers another. -/
theorem Store.Lineage.recovery (hl : st.Lineage) {rid : String} {r : TurnRecord} (hr : st.turnRecords.get? rid = some r)
    (hq : r.parentTurnRecordId = some q) :
    ∃ k s start lease, st.turnStarts.get? k = some s ∧ s.state = .accepted start rid lease ∧ st.Continues k q := by
  have hn := hl.numbered rid r hr
  unfold Store.Numbered at hn
  rw [hq] at hn
  obtain ⟨k, hk⟩ := Option.isSome_iff_exists.1 hn.1
  obtain ⟨s, start, lease, hs, hst⟩ := hl.started rid r k hr hk
  obtain ⟨r', hr', hatt⟩ := hl.accepted k s start rid lease hs hst
  rw [hr, Option.some.injEq] at hr'
  subst hr'
  exact ⟨k, s, start, lease, hs, hst, s, hs, hatt.parent ▸ hq, .inl (by rw [hst]; rfl)⟩

/-- Over every run of a process its attempts form chains of failed ones, each ended by at most one that may still go on. -/
theorem attempts_chain {h : Runs.Hist Event Result} (hf : Fresh st) (hr : Runs.Run (EngineStep d) st h st') : st'.Chains := by
  obtain ⟨hs, hl⟩ := lineage_of_run hr (sound_fresh hf) (lineage_fresh hf)
  refine ⟨fun k s start rid lease hk hst => ?_, hl.started, hl.numbered, fun rid rid' r r' q hr₁ hr₂ hq hq' => ?_⟩
  · exact ⟨(hs.accepted k s start rid lease hk hst).1, hl.accepted k s start rid lease hk hst⟩
  · obtain ⟨k, s, start, lease, hk, hst, hc⟩ := hl.recovery hr₁ hq
    obtain ⟨k', s', start', lease', hk', hst', hc'⟩ := hl.recovery hr₂ hq'
    obtain rfl := hl.once k k' q hc hc'
    rw [hk, Option.some.injEq] at hk'
    subst hk'
    rw [hst] at hst'
    cases hst'
    rfl

/-- The failed turn is retried, and the retry is accepted. -/
def demoRetried : List Event :=
  demoFailed ++ [.op (.retryFailedTurn {}) (demoContext "4"), .leases [demoLease "tsr-40"],
    .op (.acceptWorkerTurnStart ⟨"lease", "tsr-40", "trn-40"⟩) (demoContext "5")]

theorem attempts_chain_demo : (afterDemo demoRetried).Chains ∧
    ((afterDemo demoRetried).turnRecords.get? "trn-40").map (fun r => (r.attemptNumber, r.parentTurnRecordId)) =
      some (2, some "trn-10") :=
  ⟨attempts_chain fresh_demo (run_demo demoRetried), by decide +kernel⟩

end Leitwerk.Engine
