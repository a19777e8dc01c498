import Leitwerk.Engine.SingleAttempt
/-!
# Turn records settle once

A record runs until an operation settles it, and every update names only the
columns it changes. What a record's status promises about its other columns
therefore depends on what the updates before it left there.
-/

namespace Leitwerk.Engine

variable {d : ProcessDefinition} {ctx : Context} {st st' : Store} {op : Op} {w v : Writes} {k : String}

/-- The columns of a record agree with its status. -/
structure TurnRecord.Agrees (r : TurnRecord) : Prop where
  succeeded : r.status = .succeeded → r.errorSummary = none ∧ r.errorClass = none
  running : r.status = .running → r.endedAt = none ∧ r.errorSummary = none ∧ r.errorClass = none

/-- Whether an outcome, if the event is one, finds its record running. -/
def completesRunning (st : Store) : Event → Bool
  | .op (.turnOutcome payload) _ =>
    !(st.currentTurnRecordId == some payload.turnRecordId && st.currentTurnRecord.any (·.status == .failed))
  | _ => true

/-! ## One record, one operation -/

/-- What an operation makes of a record that it changes: such a record runs or has failed. -/
inductive RecordStep (st : Store) (op : Op) (k : String) (r r' : TurnRecord) : Prop
  | same (h : r' = r)
  | fails (hr : r.status = .running ∨ r.status = .failed) (hr' : r'.status = .failed)
  | succeeds (hr : r.status = .running ∨ r.status = .failed) (hr' : r'.status = .succeeded)
      (hco : op.Completes k) (hid : st.currentTurnRecordId = some k) (hcr : st.currentTurnRecord = some r)
      (he : r'.errorSummary = r.errorSummary) (hc : r'.errorClass = r.errorClass)
  | supersedes (hr : r.status = .running) (hr' : r'.status = .superseded)

theorem Sound.record_step (hs : Sound d st) (h : Ran d ctx st op w v st') {r : TurnRecord}
    (hr : st.turnRecords.get? k = some r) : ∃ r', st'.turnRecords.get? k = some r' ∧ RecordStep st op k r r' := by
  have hlogged : Logs ctx w → ∃ r', st'.turnRecords.get? k = some r' ∧ RecordStep st op k r r' :=
    fun hl => ⟨r, h.record_logged hl hr, .same rfl⟩
  -- an update of another record keeps this one
  have hupdated : ∀ {id patch}, w.turnRecordWrites = [.update id patch] →
      (id = k → RecordStep st op k r (patch.apply r)) → ∃ r', st'.turnRecords.get? k = some r' ∧ RecordStep st op k r r' := by
    intro id patch hw hstep
    refine ⟨_, h.record_updated hw hr, ?_⟩
    split
    · rename_i hid
      exact hstep hid
    · exact .same rfl
  cases h.decided.act with
  | keeps hc hl hk => exact hlogged hl
  | leaves hc hl hlive hx => exact hlogged hl
  | failsBootstrap s resolved lease code message hcs hst hc hrec hnil hcand => exact hlogged (logs_nil hrec)
  | reschedules s retry hcs hst hc hrec hnil hcand => exact hlogged (logs_nil hrec)
  | accepts s resolved lease receipt hcs hst hlife hsel hc hrec hnil hcand =>
    obtain ⟨hnone, hget⟩ := h.record_created hrec
    refine ⟨r, ?_, .same rfl⟩
    rw [hget, if_neg]
    · exact hr
    · rintro rfl
      rw [hnone] at hr
      cases hr
  | fails id r₀ patch hid hrow hp hc hrec hnil hx hsel =>
    refine hupdated hrec ?_
    rintro rfl
    obtain ⟨-, r₁, -, hr₁, -, -, -, hstatus⟩ := hs.currentRecord hid
    rw [hr, Option.some.injEq] at hr₁
    refine .fails (hr₁ ▸ hstatus) ?_
    rw [TurnRecordPatch.apply, hp]
    rfl
  | succeeds payload hco hid hc hrec hx =>
    obtain ⟨-, r₁, -, hr₁, hcr, -, -, hstatus⟩ := hs.currentRecord hid
    have hw : w.turnRecordWrites = [.update payload.turnRecordId
        { turnType := some payload.turnType, status := some .succeeded, resultPiEntryId := some payload.resultPiEntryId
          turnResultMarkdown := some payload.turnResultMarkdown, endedAt := some (some ctx.now) }] := by
      rw [hrec, completionWrite, hr₁]
    refine hupdated hw ?_
    rintro rfl
    rw [hr, Option.some.injEq] at hr₁
    exact .succeeds (hr₁ ▸ hstatus) rfl hco hid (hr₁ ▸ hcr) rfl rfl
  | supersedes hc hrec hx =>
    unfold supersededRecord at hrec
    split at hrec
    · rename_i r₀ hcr
      split at hrec
      · rename_i hrun
        refine hupdated hrec ?_
        rintro rfl
        obtain ⟨id, -, hrow⟩ := Option.bind_eq_some_iff.1 hcr
        rw [hs.recordsKeyed id r₀ hrow, hrow, Option.some.injEq] at hr
        exact .supersedes (hr ▸ hrun) rfl
      · exact hlogged (logs_nil hrec)
    · exact hlogged (logs_nil hrec)

/-! ## Agreement -/

/-- A record that an operation creates agrees with its status. -/
theorem Sound.record_created_agrees (hs : Sound d st) (h : Ran d ctx st op w v st') {r : TurnRecord}
    (hk : st.turnRecords.get? k = none) (hr : st'.turnRecords.get? k = some r) : r.Agrees := by
  obtain ⟨c, hc, hid, -, hone⟩ := h.record_new hk hr
  have hlogged : Logs ctx w → r.Agrees := by
    intro hl
    have hall : ∀ x ∈ w.turnRecordWrites, ∃ c, x = .create c := fun x hx => (hl x hx).imp fun _ h => h.1
    obtain ⟨c', heq, -, hstatus, he, hcl⟩ := hl _ hc
    cases heq
    rw [hone hall]
    refine ⟨fun _ => ⟨he, hcl⟩, fun hrun => ?_⟩
    rw [hstatus] at hrun
    cases hrun
  cases h.decided.act with
  | keeps hc hl hk => exact hlogged hl
  | leaves hc hl hlive hx => exact hlogged hl
  | failsBootstrap s resolved lease code message hcs hst hc hrec hnil hcand => exact hlogged (logs_nil hrec)
  | reschedules s retry hcs hst hc hrec hnil hcand => exact hlogged (logs_nil hrec)
  | accepts s resolved lease receipt hcs hst hlife hsel hcw hrec hnil hcand =>
    rw [hrec, List.mem_singleton] at hc
    cases hc
    rw [hone fun x hx => by rw [hrec, List.mem_singleton] at hx; exact ⟨_, hx⟩]
    exact ⟨nofun, fun _ => ⟨rfl, rfl, rfl⟩⟩
  | fails id r₀ patch hid' hrow hp hcw hrec hnil hx hsel =>
    rw [hrec, List.mem_singleton] at hc
    cases hc
  | succeeds payload hco hid' hcw hrec hx =>
    obtain ⟨-, r₁, -, hr₁, -⟩ := hs.currentRecord hid'
    obtain ⟨patch, hw, -⟩ := completionWrite_update ctx hr₁
    rw [hrec, hw, List.mem_singleton] at hc
    cases hc
  | supersedes hcw hrec hx =>
    rw [hrec, supersededRecord] at hc
    split at hc
    · split at hc
      · rw [List.mem_singleton] at hc
        cases hc
      · cases hc
    · cases hc

/-- Nothing is asked of a record that neither succeeded nor runs. -/
theorem agrees_of_status {r : TurnRecord} {status : TurnRecordStatus} (h : r.status = status) (hs : status ≠ .succeeded)
    (hr : status ≠ .running) : r.Agrees :=
  ⟨fun h' => absurd (h.symm.trans h') hs, fun h' => absurd (h.symm.trans h') hr⟩

theorem agrees_step (hs : Sound d st) (hi : ∀ k r, st.turnRecords.get? k = some r → r.Agrees)
    (hok : completesRunning st (.op op ctx) = true) (h : Ran d ctx st op w v st') :
    ∀ k r, st'.turnRecords.get? k = some r → r.Agrees := by
  intro k r' hr'
  cases hk : st.turnRecords.get? k with
  | none => exact hs.record_created_agrees h hk hr'
  | some r =>
    obtain ⟨r'', hrow, hstep⟩ := hs.record_step h hk
    rw [hr', Option.some.injEq] at hrow
    subst hrow
    have hagr := hi k r hk
    cases hstep with
    | same heq => exact heq ▸ hagr
    | fails _ hf => exact agrees_of_status hf nofun nofun
    | supersedes _ hf => exact agrees_of_status hf nofun nofun
    | succeeds hstatus hf hco hid hcr he hc =>
      refine ⟨fun _ => ?_, fun hrun => ?_⟩
      · rw [he, hc]
        rcases hstatus with hrun | hfailed
        · exact (hagr.running hrun).2
        · -- the outcome of a failed record is the one the run leaves out
          obtain ⟨payload, rfl, rfl⟩ := hco
          simp [completesRunning, hid, hcr, hfailed] at hok
      · rw [hf] at hrun
        cases hrun

/-! ## Every run -/

/-- In a run whose outcomes all find their record running, a succeeded record has no error and a
running one no end. A succeeded or superseded record never changes again, and a failed one stays
failed until an outcome of the same record makes it succeed. -/
theorem records_settle {st₀ : Store} {h : Runs.Hist Event Result} (h₀ : Fresh st₀)
    (hr : Runs.Run (Runs.Guard (EngineStep d) fun st e => completesRunning st e = true) st₀ h st) :
    (∀ k r, st.turnRecords.get? k = some r → (r.status = .succeeded → r.errorSummary = none ∧ r.errorClass = none) ∧
      (r.status = .running → r.endedAt = none)) ∧
    ∀ e k r, st.turnRecords.get? k = some r → ∃ r', (next d st e).turnRecords.get? k = some r' ∧
      (r.status = .succeeded ∨ r.status = .superseded → r' = r) ∧
      (r.status = .failed → r'.status = .failed ∨
        r'.status = .succeeded ∧ ∃ payload ctx, e = .op (.turnOutcome payload) ctx ∧ payload.turnRecordId = k) := by
  have hs : Sound d st := sound_of_run hr.of_guard (sound_fresh h₀)
  have hagrees : ∀ k r, st.turnRecords.get? k = some r → r.Agrees :=
    inv_of_run (I := fun st => ∀ k r, st.turnRecords.get? k = some r → r.Agrees) hr (sound_fresh h₀)
      (fun k r hrow => by rw [h₀.records] at hrow; cases hrow)
      (fun st op ctx w v st' hs hi hok hran => agrees_step hs hi hok hran) (fun st leases hi => hi)
  refine ⟨fun k r hrow => ⟨(hagrees k r hrow).succeeded, fun hrun => ((hagrees k r hrow).running hrun).1⟩,
    fun e k r hrow => ?_⟩
  cases e with
  | leases leases => exact ⟨r, hrow, fun _ => rfl, .inl⟩
  | op op ctx =>
    unfold next
    dsimp only
    cases hrun : op.run d ctx st with
    | error why => exact ⟨r, hrow, fun _ => rfl, .inl⟩
    | ok st' =>
      obtain ⟨decision, v, -, -, hran⟩ := hs.ran hrun
      obtain ⟨r', hrow', hstep⟩ := hs.record_step hran hrow
      refine ⟨r', hrow', fun hover => ?_, fun hfailed => ?_⟩
      · cases hstep with
        | same heq => exact heq
        | fails h => rcases hover with ho | ho <;> rcases h with h | h <;> rw [ho] at h <;> cases h
        | succeeds h => rcases hover with ho | ho <;> rcases h with h | h <;> rw [ho] at h <;> cases h
        | supersedes h => rcases hover with ho | ho <;> rw [ho] at h <;> cases h
      · cases hstep with
        | same heq => exact .inl (heq ▸ hfailed)
        | fails _ h => exact .inl h
        | succeeds _ h hco =>
          obtain ⟨payload, rfl, hid⟩ := hco
          exact .inr ⟨h, payload, ctx, rfl, hid⟩
        | supersedes h =>
          rw [hfailed] at h
          cases h

theorem records_settle_demo : (∀ k r, (afterDemo demoFailed).turnRecords.get? k = some r →
      (r.status = .succeeded → r.errorSummary = none ∧ r.errorClass = none) ∧ (r.status = .running → r.endedAt = none)) ∧
    ∀ e k r, (afterDemo demoFailed).turnRecords.get? k = some r → ∃ r',
      (next demoDefinition (afterDemo demoFailed) e).turnRecords.get? k = some r' ∧
      (r.status = .succeeded ∨ r.status = .superseded → r' = r) ∧
      (r.status = .failed → r'.status = .failed ∨
        r'.status = .succeeded ∧ ∃ payload ctx, e = .op (.turnOutcome payload) ctx ∧ payload.turnRecordId = k) :=
  records_settle fresh_demo (run_demo_guarded completesRunning (by decide +kernel))

/-- The outcome that arrives after the failure of its record was reported. -/
def demoLateOutcome : List Event :=
  demoFailed ++ [.op (.turnOutcome { turnRecordId := "trn-10", turnId := "build", turnType := .automatic
                                     outcome := "done" }) (demoContext "4")]

/-- A record that succeeds by a late outcome keeps the error it failed with. -/
theorem late_outcome_keeps_error : ¬ ∀ (d : ProcessDefinition) (st₀ st : Store) (h : Runs.Hist Event Result), Fresh st₀ →
    Runs.Run (EngineStep d) st₀ h st → ∀ k r, st.turnRecords.get? k = some r → r.status = .succeeded →
      r.errorSummary = none := by
  intro hall
  have hrow : ((afterDemo demoLateOutcome).turnRecords.get? "trn-10").any
      (fun r => r.status == .succeeded && r.errorSummary == some "exit 1") = true := by decide +kernel
  obtain ⟨r, hr, hr'⟩ := (Option.any_eq_true _ _).1 hrow
  rw [Bool.and_eq_true, beq_iff_eq, beq_iff_eq] at hr'
  have := hall demoDefinition demoFresh _ _ fresh_demo (run_demo demoLateOutcome) "trn-10" r hr hr'.1
  rw [hr'.2] at this
  cases this

end Leitwerk.Engine
