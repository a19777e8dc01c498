import Leitwerk.Engine.Run
/-!
# Rows after an operation

What an accepted operation leaves of the row of each key: only the current start
and the current record change, a new start is one the prepared writes created,
and a new record is one the decision created.
-/

namespace Leitwerk.Engine

variable {d : ProcessDefinition} {ctx : Context} {st st' : Store} {op : Op} {w v : Writes} {k : String}

/-! ## Keys -/

/-- The rows of the start table are under their ids. -/
def Store.StartsKeyed (st : Store) : Prop := ∀ k s, st.turnStarts.get? k = some s → s.id = k

theorem currentStart_row {s : TurnStartRecord} (h : st.currentStart = some s) (hk : st.StartsKeyed) :
    st.process.currentExecution = some s.id ∧ st.turnStarts.get? s.id = some s := by
  obtain ⟨id, hcur, hrow⟩ := Option.bind_eq_some_iff.1 h
  have hid : s.id = id := hk id s hrow
  rw [hid]
  exact ⟨hcur, hrow⟩

theorem currentStart_of_row {s : TurnStartRecord} (hcur : st.process.currentExecution = some k)
    (hrow : st.turnStarts.get? k = some s) : st.currentStart = some s := by
  rw [Store.currentStart, hcur]
  exact hrow

/-- The current record is the one the current start was accepted with. -/
theorem currentTurnRecordId_iff {rid : String} : st.currentTurnRecordId = some rid ↔
    ∃ s start lease, st.currentStart = some s ∧ s.state = .accepted start rid lease := by
  unfold Store.currentTurnRecordId
  cases hs : st.currentStart with
  | none => simp
  | some s =>
    cases hst : s.state with
    | accepted start id lease => simp [hst]
    | preparationFailed failure => simp [hst]
    | starting start => simp [hst]
    | bootstrapFailed start lease code summary => simp [hst]
    | superseded start => simp [hst]

/-- The start of a starting execution. -/
theorem startingExecution_iff {id : String} {resolved : ResolvedTurnStart} : startingExecution st = some (id, resolved) ↔
    ∃ s, st.currentStart = some s ∧ s.id = id ∧ s.state = .starting resolved := by
  unfold startingExecution
  cases hs : st.currentStart with
  | none => simp
  | some s =>
    cases hst : s.state with
    | starting start => simp [hst]
    | preparationFailed failure => simp [hst]
    | accepted start id lease => simp [hst]
    | bootstrapFailed start lease code summary => simp [hst]
    | superseded start => simp [hst]

/-! ## Start rows -/

/-- Whether the start has left `starting` for good. -/
def StartState.settled : StartState → Bool
  | .accepted .. | .bootstrapFailed .. | .superseded _ => true
  | .preparationFailed _ | .starting _ => false

/-- The state change of an act is of the current start, and leaves `starting` if it moves at all. -/
theorem Act.cas {replaces parks misroutes : Prop} {completes : String → Prop} (h : Act ctx st replaces parks misroutes completes w) :
    w.casWrites = [] ∨ ∃ s state retry, st.currentStart = some s ∧
      w.casWrites = [.casState s.id s.state.kind state retry] ∧
      (state = s.state ∨ s.state.kind = .starting ∧ state.settled = true) := by
  cases h with
  | keeps hc => exact .inl hc
  | leaves hc => exact .inl hc
  | fails id r patch hid hrow hp hc => exact .inl hc
  | succeeds payload hco hid hc => exact .inl hc
  | accepts s resolved lease receipt hs hst hlife hsel hc =>
    have hkind : s.state.kind = .starting := by rw [hst]; rfl
    exact .inr ⟨s, _, _, hs, by rw [hkind]; exact hc, .inr ⟨hkind, rfl⟩⟩
  | failsBootstrap s resolved lease code message hs hst hc =>
    have hkind : s.state.kind = .starting := by rw [hst]; rfl
    exact .inr ⟨s, _, _, hs, by rw [hkind]; exact hc, .inr ⟨hkind, rfl⟩⟩
  | reschedules s retry hs hst hc => exact .inr ⟨s, _, _, hs, hc, .inl rfl⟩
  | supersedes hc =>
    cases hx : startingExecution st with
    | none =>
      left
      rw [hc, supersededStart, hx]
    | some x =>
      obtain ⟨id, resolved⟩ := x
      obtain ⟨s, hs, rfl, hst⟩ := startingExecution_iff.1 hx
      have hkind : s.state.kind = .starting := by rw [hst]; rfl
      refine .inr ⟨s, .superseded (some resolved), none, hs, ?_, .inr ⟨hkind, rfl⟩⟩
      rw [hc, supersededStart, hx, hkind]

theorem Ran.start_row (h : Ran d ctx st op w v st') {s : TurnStartRecord} (hk : st.turnStarts.get? k = some s) :
    st'.turnStarts.get? k = some (w.casWrites.foldl (fun s x => casRow x k s) s) := by
  rw [starts_row h.committed.starts hk, foldl_casRow]
  exact congrArg (fun l => some (l.foldl (fun s x => casRow x k s) s)) h.prepared.cas

theorem Ran.start_same (h : Ran d ctx st op w v st') (hc : w.casWrites = []) {s : TurnStartRecord}
    (hk : st.turnStarts.get? k = some s) : st'.turnStarts.get? k = some s := by
  rw [h.start_row hk, hc]
  rfl

theorem Ran.start_cas (h : Ran d ctx st op w v st') {id : String} {kind : StartStateKind} {state : StartState}
    {retry : Option StartupRetryState} (hc : w.casWrites = [.casState id kind state retry]) {s : TurnStartRecord}
    (hk : st.turnStarts.get? k = some s) : st'.turnStarts.get? k =
      some (if id = k then { s with state := state, automaticRetry := retry.or s.automaticRetry } else s) := by
  rw [h.start_row hk, hc]
  rfl

/-- Only the current start changes. -/
theorem Ran.start_other (h : Ran d ctx st op w v st') (hkeyed : st.StartsKeyed) {s : TurnStartRecord}
    (hk : st.turnStarts.get? k = some s) (hne : st.process.currentExecution ≠ some k) :
    st'.turnStarts.get? k = some s := by
  rcases h.decided.act.cas with hc | ⟨r, state, retry, hr, hc, -⟩
  · exact h.start_same hc hk
  · have hid : r.id ≠ k := by
      rintro rfl
      exact hne (currentStart_row hr hkeyed).1
    rw [h.start_cas hc hk, if_neg hid]

/-- The row of a key after an operation is of the same start, in the same state or settled. -/
theorem Ran.start_moves (h : Ran d ctx st op w v st') (hkeyed : st.StartsKeyed) {s : TurnStartRecord}
    (hk : st.turnStarts.get? k = some s) : ∃ s', st'.turnStarts.get? k = some s' ∧ SameStart s s' ∧
      (s'.state = s.state ∨ st.process.currentExecution = some k ∧ s.state.kind = .starting ∧
        s'.state.settled = true) := by
  by_cases hcur : st.process.currentExecution = some k
  · rcases h.decided.act.cas with hc | ⟨r, state, retry, hr, hc, hmove⟩
    · exact ⟨s, h.start_same hc hk, ⟨rfl, rfl, rfl, rfl, rfl, rfl, rfl, rfl⟩, .inl rfl⟩
    · obtain ⟨hid, hrow⟩ := currentStart_row hr hkeyed
      rw [hcur, Option.some.injEq] at hid
      subst hid
      rw [hk, Option.some.injEq] at hrow
      subst hrow
      refine ⟨_, h.start_cas hc hk, ?_, ?_⟩
      · rw [if_pos rfl]
        exact ⟨rfl, rfl, rfl, rfl, rfl, rfl, rfl, rfl⟩
      · rw [if_pos rfl]
        exact hmove.imp_right fun hm => ⟨hcur, hm⟩
  · exact ⟨s, h.start_other hkeyed hk hcur, ⟨rfl, rfl, rfl, rfl, rfl, rfl, rfl, rfl⟩, .inl rfl⟩

/-- A created start's row is what was created. -/
theorem Ran.start_created (h : Ran d ctx st op w v st') (hkeyed : st.StartsKeyed) {c : TurnStartInput}
    (hc : c ∈ v.creates) : st.turnStarts.get? c.id = none ∧ st'.turnStarts.get? c.id = some c.toRecord ∧
      ∀ k r, st.turnStarts.get? k = some r → r.proposedTurnRecordId ≠ c.proposedTurnRecordId := by
  obtain ⟨hnone, hprop, l, hl, hrow⟩ := starts_created h.committed.starts (mem_creates.1 hc)
  refine ⟨hnone, ?_, hprop⟩
  rw [hrow]
  refine congrArg some ?_
  -- the state changes among the writes are of a start that was there before
  have hid : ∀ x ∈ l, casRow x c.id = id := by
    intro x hx
    funext s
    cases x with
    | create c' => rfl
    | casState id kind state retry =>
      have hmem : TurnStartWrite.casState id kind state retry ∈ v.casWrites := List.mem_filter.2 ⟨hl _ hx, rfl⟩
      rw [h.prepared.cas] at hmem
      rcases h.decided.act.cas with h0 | ⟨r, state', retry', hr, h0, -⟩
      · rw [h0] at hmem
        cases hmem
      · rw [h0, List.mem_singleton] at hmem
        cases hmem
        refine casRow_ne ?_ _ _ _ _
        intro heq
        rw [← heq, (currentStart_row hr hkeyed).2] at hnone
        cases hnone
  clear hl hrow
  induction l with
  | nil => rfl
  | cons x l ih =>
    rw [List.foldl_cons, hid x List.mem_cons_self]
    exact ih fun y hy => hid y (List.mem_cons_of_mem _ hy)

/-- A new start row is one the prepared writes created. -/
theorem Ran.start_new (h : Ran d ctx st op w v st') (hkeyed : st.StartsKeyed) {s : TurnStartRecord}
    (hk : st.turnStarts.get? k = none) (hk' : st'.turnStarts.get? k = some s) :
    ∃ c ∈ v.creates, c.id = k ∧ s = c.toRecord := by
  obtain ⟨c, hc, hid⟩ := starts_new h.committed.starts hk hk'
  have hmem := mem_creates.2 hc
  refine ⟨c, hmem, hid, ?_⟩
  have := (h.start_created hkeyed hmem).2.1
  rw [hid, hk', Option.some.injEq] at this
  exact this

theorem Ran.startsKeyed (h : Ran d ctx st op w v st') (hkeyed : st.StartsKeyed) : st'.StartsKeyed := by
  intro k s' hs'
  cases hk : st.turnStarts.get? k with
  | none =>
    obtain ⟨c, -, hid, rfl⟩ := h.start_new hkeyed hk hs'
    exact hid
  | some s =>
    obtain ⟨r, hr, hsame, -⟩ := h.start_moves hkeyed hk
    rw [hs', Option.some.injEq] at hr
    rw [hr, hsame.id]
    exact hkeyed k s hk

/-! ## Record rows -/

/-- Two states of one turn record: what no update touches agrees. -/
structure SameRecord (r r' : TurnRecord) : Prop where
  id : r'.id = r.id
  turnId : r'.turnId = r.turnId
  attemptNumber : r'.attemptNumber = r.attemptNumber
  parent : r'.parentTurnRecordId = r.parentTurnRecordId
  start : r'.turnStartRecordId = r.turnStartRecordId
  iteration : r'.iteration = r.iteration

theorem SameRecord.refl (r : TurnRecord) : SameRecord r r := ⟨rfl, rfl, rfl, rfl, rfl, rfl⟩

theorem SameRecord.trans {a b c : TurnRecord} (h : SameRecord a b) (h' : SameRecord b c) : SameRecord a c :=
  ⟨h'.id.trans h.id, h'.turnId.trans h.turnId, h'.attemptNumber.trans h.attemptNumber, h'.parent.trans h.parent,
    h'.start.trans h.start, h'.iteration.trans h.iteration⟩

theorem patchRow_same (x : TurnRecordWrite) (k : String) (r : TurnRecord) : SameRecord r (patchRow x k r) := by
  cases x with
  | create c => exact .refl r
  | update id patch =>
    unfold patchRow
    dsimp only
    split
    · exact ⟨rfl, rfl, rfl, rfl, rfl, rfl⟩
    · exact .refl r

theorem foldl_patchRow_same (ws : List TurnRecordWrite) (k : String) (r : TurnRecord) :
    SameRecord r (ws.foldl (fun r x => patchRow x k r) r) := by
  induction ws generalizing r with
  | nil => exact .refl r
  | cons x ws ih => exact (patchRow_same x k r).trans (ih _)

theorem patchRow_self (k : String) (patch : TurnRecordPatch) (r : TurnRecord) :
    patchRow (.update k patch) k r = patch.apply r := if_pos rfl

theorem patchRow_ne {id : String} (h : id ≠ k) (patch : TurnRecordPatch) (r : TurnRecord) :
    patchRow (.update id patch) k r = r := if_neg h

theorem foldl_patchRow_creates {ws : List TurnRecordWrite} (h : ∀ x ∈ ws, ∃ c, x = .create c) (k : String)
    (r : TurnRecord) : ws.foldl (fun r x => patchRow x k r) r = r := by
  induction ws with
  | nil => rfl
  | cons x ws ih =>
    obtain ⟨c, rfl⟩ := h x List.mem_cons_self
    exact ih fun y hy => h y (List.mem_cons_of_mem _ hy)

theorem Ran.record_row (h : Ran d ctx st op w v st') {r : TurnRecord} (hk : st.turnRecords.get? k = some r) :
    st'.turnRecords.get? k = some (w.turnRecordWrites.foldl (fun r x => patchRow x k r) r) := by
  rw [← h.prepared.records]
  exact records_row h.committed.records hk

theorem Ran.record_same (h : Ran d ctx st op w v st') {r : TurnRecord} (hk : st.turnRecords.get? k = some r) :
    ∃ r', st'.turnRecords.get? k = some r' ∧ SameRecord r r' :=
  ⟨_, h.record_row hk, foldl_patchRow_same _ _ _⟩

/-- Decisions that only log, or write no record, leave every record as it was. -/
theorem Ran.record_logged (h : Ran d ctx st op w v st') (hl : Logs ctx w) {r : TurnRecord}
    (hk : st.turnRecords.get? k = some r) : st'.turnRecords.get? k = some r := by
  rw [h.record_row hk, foldl_patchRow_creates]
  intro x hx
  obtain ⟨c, hc, -⟩ := hl x hx
  exact ⟨c, hc⟩

/-- A decision that updates one record leaves every other as it was. -/
theorem Ran.record_updated (h : Ran d ctx st op w v st') {id : String} {patch : TurnRecordPatch}
    (hw : w.turnRecordWrites = [.update id patch]) {r : TurnRecord} (hk : st.turnRecords.get? k = some r) :
    st'.turnRecords.get? k = some (if id = k then patch.apply r else r) := by
  rw [h.record_row hk, hw, List.foldl_cons, List.foldl_nil]
  rfl

theorem Ran.record_created (h : Ran d ctx st op w v st') {c : TurnRecord} (hw : w.turnRecordWrites = [.create c]) :
    st.turnRecords.get? c.id = none ∧
      ∀ k, st'.turnRecords.get? k = if k = c.id then some c else st.turnRecords.get? k := by
  have hrec := h.committed.records
  rw [h.prepared.records, hw, applyAll_one] at hrec
  exact Table.create_eq_some hrec

/-- A new record is one the writes created, unless an update of the same writes touches it. -/
theorem records_new {t t' : Table String TurnRecord} {ws : List TurnRecordWrite} {r : TurnRecord}
    (h : applyAll applyTurnRecordWrite t ws = some t') (hk : t.get? k = none) (hk' : t'.get? k = some r) :
    ∃ c, .create c ∈ ws ∧ c.id = k ∧ SameRecord c r ∧ ((∀ x ∈ ws, ∃ c, x = .create c) → r = c) := by
  induction ws generalizing t with
  | nil =>
    cases h
    rw [hk] at hk'
    cases hk'
  | cons x ws ih =>
    obtain ⟨u, hx, hu⟩ := applyAll_cons.1 h
    cases hku : u.get? k with
    | none =>
      obtain ⟨c, hc, hid, hsame, hone⟩ := ih hu hku
      exact ⟨c, List.mem_cons_of_mem _ hc, hid, hsame, fun hall => hone fun y hy => hall y (List.mem_cons_of_mem _ hy)⟩
    | some c =>
      obtain ⟨rfl, hid⟩ := applyTurnRecordWrite_new hx hk hku
      have hrow := records_row hu hku
      rw [hk', Option.some.injEq] at hrow
      subst hrow
      exact ⟨c, List.mem_cons_self, hid, foldl_patchRow_same _ _ _, fun hall =>
        foldl_patchRow_creates (fun y hy => hall y (List.mem_cons_of_mem _ hy)) _ _⟩

theorem Ran.record_new (h : Ran d ctx st op w v st') {r : TurnRecord} (hk : st.turnRecords.get? k = none)
    (hk' : st'.turnRecords.get? k = some r) : ∃ c, .create c ∈ w.turnRecordWrites ∧ c.id = k ∧ SameRecord c r ∧
      ((∀ x ∈ w.turnRecordWrites, ∃ c, x = .create c) → r = c) := by
  have hrec := h.committed.records
  rw [h.prepared.records] at hrec
  exact records_new hrec hk hk'

end Leitwerk.Engine
