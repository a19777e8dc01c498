import Leitwerk.Engine.Settling
/-!
# What a commit leaves in the tables

`commitWrites` applies the writes of each table in order. A start row changes by
the state changes for its key alone and a created start is a new row; a record
row changes by its updates; the process is what the writes left of it.
-/

namespace Leitwerk.Engine

variable {w v : Writes} {st st' : Store} {now : String}

/-! ## Start rows -/

/-- What a start write makes of the row of a key. -/
def casRow (x : TurnStartWrite) (k : String) (s : TurnStartRecord) : TurnStartRecord :=
  match x with
  | .casState id _ state retry =>
    if id = k then { s with state := state, automaticRetry := retry.or s.automaticRetry } else s
  | .create _ => s

/-- Two states of one start: all but its state and its episode agree. -/
structure SameStart (s s' : TurnStart σ) : Prop where
  id : s'.id = s.id
  turnId : s'.turnId = s.turnId
  turnType : s'.turnType = s.turnType
  proposed : s'.proposedTurnRecordId = s.proposedTurnRecordId
  startKind : s'.startKind = s.startKind
  recovery : s'.recoveryTurnRecordId = s.recoveryTurnRecordId
  continuation : s'.continuation = s.continuation
  iteration : s'.iteration = s.iteration

theorem casRow_same (x : TurnStartWrite) (k : String) (s : TurnStartRecord) : SameStart s (casRow x k s) := by
  unfold casRow
  split
  · split <;> exact ⟨rfl, rfl, rfl, rfl, rfl, rfl, rfl, rfl⟩
  · exact ⟨rfl, rfl, rfl, rfl, rfl, rfl, rfl, rfl⟩

section
variable {t t' : Table String TurnStartRecord} {x : TurnStartWrite} {k : String} {s : TurnStartRecord}

theorem casRow_self (k : String) (kind : StartStateKind) (state : StartState) (retry : Option StartupRetryState)
    (s : TurnStartRecord) :
    casRow (.casState k kind state retry) k s = { s with state := state, automaticRetry := retry.or s.automaticRetry } :=
  if_pos rfl

theorem casRow_ne {id : String} (h : id ≠ k) (kind : StartStateKind) (state : StartState)
    (retry : Option StartupRetryState) (s : TurnStartRecord) : casRow (.casState id kind state retry) k s = s :=
  if_neg h

/-- A created start is a new row, and proposes a record no other start proposes. -/
theorem applyTurnStartWrite_create {c : TurnStartInput} (h : applyTurnStartWrite t (.create c) = some t') :
    t.get? c.id = none ∧ (∀ j, t'.get? j = if j = c.id then some c.toRecord else t.get? j) ∧
      ∀ k r, t.get? k = some r → r.proposedTurnRecordId ≠ c.proposedTurnRecordId := by
  replace h : (if (t.values.any fun r => r.proposedTurnRecordId = c.proposedTurnRecordId) = true then none
    else t.create c.id c.toRecord) = some t' := h
  split at h
  · cases h
  · rename_i hno
    obtain ⟨hnone, hget⟩ := Table.create_eq_some h
    refine ⟨hnone, hget, fun k r hr heq => hno ?_⟩
    exact List.any_eq_true.2 ⟨r, Table.mem_values.2 ⟨k, hr⟩, by simpa using heq⟩

/-- A state change found the state it expected. -/
theorem applyTurnStartWrite_cas {id : String} {kind : StartStateKind} {state : StartState}
    {retry : Option StartupRetryState} (h : applyTurnStartWrite t (.casState id kind state retry) = some t') :
    (∃ s, t.get? id = some s ∧ s.state.kind = kind) ∧
      t' = t.modify id fun s => { s with state := state, automaticRetry := retry.or s.automaticRetry } := by
  replace h : compareAndSetState t id kind state retry = some t' := h
  unfold compareAndSetState at h
  split at h
  · rename_i s hs
    split at h
    · rename_i hkind
      cases h
      exact ⟨⟨s, hs, hkind⟩, rfl⟩
    · cases h
  · cases h

theorem applyTurnStartWrite_row (h : applyTurnStartWrite t x = some t') (hk : t.get? k = some s) :
    t'.get? k = some (casRow x k s) := by
  cases x with
  | create c =>
    obtain ⟨hnone, hget, -⟩ := applyTurnStartWrite_create h
    rw [hget, if_neg]
    · exact hk
    · rintro rfl
      rw [hnone] at hk
      cases hk
  | casState id kind state retry =>
    obtain ⟨-, rfl⟩ := applyTurnStartWrite_cas h
    by_cases hid : id = k
    · rw [hid, Table.get?_modify_self, hk, casRow_self]
      rfl
    · rw [Table.get?_modify_ne _ _ (Ne.symm hid), hk, casRow_ne hid]

/-- A row that was not there is one the write created. -/
theorem applyTurnStartWrite_new (h : applyTurnStartWrite t x = some t') (hk : t.get? k = none)
    (hk' : t'.get? k = some s) : ∃ c, x = .create c ∧ c.id = k := by
  cases x with
  | create c =>
    obtain ⟨-, hget, -⟩ := applyTurnStartWrite_create h
    by_cases hid : k = c.id
    · exact ⟨c, rfl, hid.symm⟩
    · rw [hget, if_neg hid, hk] at hk'
      cases hk'
  | casState id kind state retry =>
    obtain ⟨-, rfl⟩ := applyTurnStartWrite_cas h
    rw [Table.get?_modify, hk] at hk'
    split at hk' <;> cases hk'
end

section
variable {t t' : Table String TurnStartRecord} {ws : List TurnStartWrite} {k : String} {s : TurnStartRecord}

theorem applyAll_cons {σ ω : Type} {f : σ → ω → Option σ} {a b : σ} {x : ω} {l : List ω} :
    applyAll f a (x :: l) = some b ↔ ∃ c, f a x = some c ∧ applyAll f c l = some b := by
  show (f a x).bind _ = some b ↔ _
  rw [Option.bind_eq_some_iff]

theorem starts_row (h : applyAll applyTurnStartWrite t ws = some t') (hk : t.get? k = some s) :
    t'.get? k = some (ws.foldl (fun s x => casRow x k s) s) := by
  induction ws generalizing t s with
  | nil =>
    cases h
    exact hk
  | cons x ws ih =>
    obtain ⟨u, hx, hu⟩ := applyAll_cons.1 h
    exact ih hu (applyTurnStartWrite_row hx hk)

/-- Only the state changes among the writes change a row. -/
theorem foldl_casRow (ws : List TurnStartWrite) (k : String) (s : TurnStartRecord) :
    ws.foldl (fun s x => casRow x k s) s = (ws.filter (·.create?.isNone)).foldl (fun s x => casRow x k s) s := by
  induction ws generalizing s with
  | nil => rfl
  | cons x ws ih =>
    cases x with
    | create c => exact ih s
    | casState => exact ih _

theorem starts_new (h : applyAll applyTurnStartWrite t ws = some t') (hk : t.get? k = none) (hk' : t'.get? k = some s) :
    ∃ c, .create c ∈ ws ∧ c.id = k := by
  induction ws generalizing t with
  | nil =>
    cases h
    rw [hk] at hk'
    cases hk'
  | cons x ws ih =>
    obtain ⟨u, hx, hu⟩ := applyAll_cons.1 h
    cases hku : u.get? k with
    | none =>
      obtain ⟨c, hc, hid⟩ := ih hu hku
      exact ⟨c, List.mem_cons_of_mem _ hc, hid⟩
    | some r =>
      obtain ⟨c, rfl, hid⟩ := applyTurnStartWrite_new hx hk hku
      exact ⟨c, List.mem_cons_self, hid⟩

theorem starts_created (h : applyAll applyTurnStartWrite t ws = some t') {c : TurnStartInput} (hc : .create c ∈ ws) :
    t.get? c.id = none ∧ (∀ k r, t.get? k = some r → r.proposedTurnRecordId ≠ c.proposedTurnRecordId) ∧
      ∃ l : List TurnStartWrite, (∀ x ∈ l, x ∈ ws) ∧ t'.get? c.id = some (l.foldl (fun s x => casRow x c.id s) c.toRecord) := by
  induction ws generalizing t with
  | nil => cases hc
  | cons x ws ih =>
    obtain ⟨u, hx, hu⟩ := applyAll_cons.1 h
    rcases List.mem_cons.1 hc with rfl | hc
    · obtain ⟨hnone, hget, hprop⟩ := applyTurnStartWrite_create hx
      exact ⟨hnone, hprop, ws, fun x hx => List.mem_cons_of_mem _ hx, starts_row hu (by rw [hget, if_pos rfl])⟩
    · obtain ⟨hnone, hprop, l, hl, hrow⟩ := ih hu hc
      refine ⟨?_, fun k r hr => ?_, l, fun x hx => List.mem_cons_of_mem _ (hl x hx), hrow⟩
      · cases hk : t.get? c.id with
        | none => rfl
        | some r =>
          rw [applyTurnStartWrite_row hx hk] at hnone
          cases hnone
      · have := hprop k _ (applyTurnStartWrite_row hx hr)
        rwa [(casRow_same x k r).proposed] at this

/-- The state changes found the state they expected. -/
theorem starts_expected (h : applyAll applyTurnStartWrite t ws = some t') {id : String} {kind : StartStateKind}
    {state : StartState} {retry : Option StartupRetryState}
    (hc : ws.filter (·.create?.isNone) = [.casState id kind state retry]) (hk : t.get? id = some s) :
    s.state.kind = kind := by
  induction ws generalizing t with
  | nil => cases hc
  | cons x ws ih =>
    obtain ⟨u, hx, hu⟩ := applyAll_cons.1 h
    cases x with
    | create c => exact ih hu hc (applyTurnStartWrite_row hx hk)
    | casState id' kind' state' retry' =>
      rw [List.filter_cons_of_pos rfl] at hc
      cases (List.cons_eq_cons.1 hc).1
      obtain ⟨⟨r, hr, hkind⟩, -⟩ := applyTurnStartWrite_cas hx
      rw [hk] at hr
      cases hr
      exact hkind
end

/-! ## Record rows -/

/-- What a record write makes of the row of a key. -/
def patchRow (x : TurnRecordWrite) (k : String) (r : TurnRecord) : TurnRecord :=
  match x with
  | .update id input => if id = k then input.apply r else r
  | .create _ => r

theorem applyTurnRecordWrite_row {t t' : Table String TurnRecord} {x : TurnRecordWrite} {k : String} {r : TurnRecord}
    (h : applyTurnRecordWrite t x = some t') (hk : t.get? k = some r) : t'.get? k = some (patchRow x k r) := by
  cases x with
  | create c =>
    obtain ⟨hnone, hget⟩ := Table.create_eq_some h
    rw [hget, if_neg]
    · exact hk
    · rintro rfl
      rw [hnone] at hk
      cases hk
  | update id input =>
    cases h
    rw [Table.get?_modify, hk]
    by_cases hid : k = id
    · rw [if_pos hid]
      exact congrArg some (if_pos hid.symm).symm
    · rw [if_neg hid]
      exact congrArg some (if_neg (Ne.symm hid)).symm

theorem records_row {t t' : Table String TurnRecord} {ws : List TurnRecordWrite} {k : String} {r : TurnRecord}
    (h : applyAll applyTurnRecordWrite t ws = some t') (hk : t.get? k = some r) :
    t'.get? k = some (ws.foldl (fun r x => patchRow x k r) r) := by
  induction ws generalizing t r with
  | nil =>
    cases h
    exact hk
  | cons x ws ih =>
    obtain ⟨u, hx, hu⟩ := applyAll_cons.1 h
    exact ih hu (applyTurnRecordWrite_row hx hk)

/-- A record that was not there is one the write created. -/
theorem applyTurnRecordWrite_new {t t' : Table String TurnRecord} {x : TurnRecordWrite} {k : String} {r : TurnRecord}
    (h : applyTurnRecordWrite t x = some t') (hk : t.get? k = none) (hk' : t'.get? k = some r) :
    x = .create r ∧ r.id = k := by
  cases x with
  | create c =>
    obtain ⟨-, hget⟩ := Table.create_eq_some h
    rw [hget] at hk'
    split at hk'
    · rename_i hid
      cases hk'
      exact ⟨rfl, hid.symm⟩
    · rw [hk] at hk'
      cases hk'
  | update id input =>
    cases h
    rw [Table.get?_modify, hk] at hk'
    split at hk' <;> cases hk'

theorem applyAll_one {σ ω : Type} {f : σ → ω → Option σ} {a b : σ} {x : ω} : applyAll f a [x] = some b ↔ f a x = some b := by
  rw [applyAll_cons]
  constructor
  · rintro ⟨c, h, hc⟩
    cases hc
    exact h
  · exact fun h => ⟨b, h, rfl⟩

/-! ## The committed store -/

/-- What a commit leaves, table by table. -/
structure Committed (st : Store) (w : Writes) (st' : Store) : Prop where
  id : st'.process.id = st.process.id
  lifecycle : st'.process.lifecycleStatus = (w.candidate st.process).lifecycleStatus
  selected : st'.process.selectedTurnId = (w.candidate st.process).selectedTurnId
  current : st'.process.currentExecution = (w.candidate st.process).currentExecution
  metadata : st'.process.metadata = (w.candidate st.process).metadata
  starts : applyAll applyTurnStartWrite st.turnStarts w.turnStartWrites = some st'.turnStarts
  records : applyAll applyTurnRecordWrite st.turnRecords w.turnRecordWrites = some st'.turnRecords
  runs : applyAll applyMappedRunWrite st.mappedRuns w.mappedRunWrites = some st'.mappedRuns
  leases : st'.leases = st.leases

theorem commitWrites_ok (h : commitWrites now st w = some st') (ht : Tracked st.process w) : Committed st w st' := by
  unfold commitWrites at h
  obtain ⟨runs, hruns, h⟩ := Option.bind_eq_some_iff.1 h
  obtain ⟨starts, hstarts, h⟩ := Option.bind_eq_some_iff.1 h
  obtain ⟨records, hrecords, h⟩ := Option.bind_eq_some_iff.1 h
  cases h
  by_cases hc : w.changedFields = []
  · have hp := (ht hc).1
    refine ⟨?_, ?_, ?_, ?_, ?_, hstarts, hrecords, hruns, rfl⟩ <;> simp [hc, hp]
  · have hne : w.changedFields.isEmpty = false := by simpa using hc
    refine ⟨?_, ?_, ?_, ?_, ?_, hstarts, hrecords, hruns, rfl⟩ <;> simp only [hne] <;> rfl

end Leitwerk.Engine
