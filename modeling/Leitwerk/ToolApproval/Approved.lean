import Leitwerk.ToolApproval.Standing
import Leitwerk.Engine.Sound
/-!
# Nothing is executed that no operator accepted

Over every run, however calls, decisions, commits and cancellations interleave: the adapter
of a ticket tool is called only with what an operator accepted while the turn was current
(`execute_approved`); a request is open only while its turn record runs (`open_running`); and
a decision is final, and the one that every call of the tool call gets (`decision_final`).
-/

namespace Leitwerk.ToolApproval

open JsonSyntax Engine Runs

variable {ν : Type} {reg : Registry ν} {s t : Service ν} {e : Event ν} {os : List (Out ν)} {rows rows' : Requests ν}
  {r r' : Request ν} {c c' : Call ν} {id key : String} {h pre post : Hist (Event ν) (Out ν)}

/-! ## Accepted by an operator -/

/-- An operator decided the request so while its turn was current. -/
def Granted (reg : Registry ν) (h : Hist (Event ν) (Out ν)) (d : Decision) (asked : Request ν) (actor : Json) (now : String) : Prop :=
  ∃ before os after i id a, h = before ++ (.resolve i id d actor now, os) :: after ∧ Run (ServiceStep reg) .init before a ∧
    a.requests.get? id = some asked ∧ asked.status = .opened ∧ a.isCurrentTurn asked.instanceId asked.turnRecordId = true

/-- Every decided request that was not cancelled was decided by an operator. -/
theorem granted_of_run (hr : Run (ServiceStep reg) .init h s) (hrow : s.requests.get? id = some r) (hopen : r.status ≠ .opened)
    (hcancelled : r.status ≠ .cancelled) :
    ∃ d asked actor now, Granted reg h d asked actor now ∧ r = asked.resolved d actor now := by
  induction hr generalizing r with
  | nil => cases hrow
  | @snoc h a e os b hr hst ih =>
    have hw := wrote_next reg a e
    rw [← (next_of_step hst).1] at hw
    cases hw.row hrow with
    | kept hkept =>
      obtain ⟨d, asked, actor, now, ⟨before, os', after, i, id', a', rfl, hrest⟩, rfl⟩ := ih hkept hopen hcancelled
      exact ⟨d, asked, actor, now, ⟨before, os', after ++ [(e, os)], i, id', a', by simp, hrest⟩, rfl⟩
    | created hs => exact absurd hs hopen
    | cancelled hs => exact absurd hs hcancelled
    | @resolved i _ now d actor asked hasked hwas hcurrent =>
      exact ⟨d, asked, actor, now, ⟨h, os, [], i, id, a, rfl, hr, hasked, hwas, hcurrent⟩, rfl⟩

/-- The adapter of a ticket tool is called only with what an operator accepted before, in a request for just that. -/
theorem execute_approved (hr : Run (ServiceStep reg) .init h s) (hsplit : h = pre ++ (e, os) :: post) {input : ReviewInput ν}
    {destination : Option (Destination ν)} (hmem : .execute input destination ∈ os) (hticket : reg.isTicket input.toolName = true) :
    input.destination = destination.map (·.summary) ∧
      ∃ asked actor now, Granted reg pre .accepted asked actor now ∧ asked.toReviewInput = input := by
  obtain ⟨a, b, ha, hst, -⟩ := hr.split hsplit
  rw [(next_of_step hst).2] at hmem
  obtain ⟨key, c, hc, -, rfl, rfl⟩ := execute_mem hmem
  refine ⟨rfl, ?_⟩
  obtain ⟨hpending, hphase⟩ := Option.filter_eq_some_iff.1 hc
  have hstands := (standing_of_run ha).stands key c hpending
  unfold Stands at hstands
  rw [show c.phase = .starting by simpa using hphase] at hstands
  obtain ⟨id, r, hrow, hsame, hd⟩ := hstands hticket
  have haccepted : r.status = .accepted := by
    unfold Request.decision at hd
    split at hd <;> simp_all
  obtain ⟨d, asked, actor, now, hgranted, rfl⟩ := granted_of_run ha hrow (by simp [haccepted]) (by simp [haccepted])
  have hdecision : d = .accepted := by
    cases d <;> simp [Request.resolved, Decision.status] at haccepted ⊢
  subst hdecision
  exact ⟨asked, actor, now, hgranted, hsame⟩

theorem execute_approved_demo :
    demoInput.destination = none ∧ ∃ asked actor now,
      Granted demoRegistry (Service.init.history demoResumed) .accepted asked actor now ∧ asked.toReviewInput = demoInput := by
  have hsplit : Service.init.history (demoResumed ++ [.begin demoKey]) =
      Service.init.history demoResumed ++ [(.begin demoKey, [.execute demoInput none])] := rfl
  exact execute_approved (run_demo .init (demoResumed ++ [.begin demoKey])) hsplit (List.mem_singleton.2 rfl) rfl

/-! ## Open while its turn runs -/

theorem records_of_commit {now : String} {st st' : Store} {w : Writes} (h : commitWrites now st w = some st') :
    applyAll applyTurnRecordWrite st.turnRecords w.turnRecordWrites = some st'.turnRecords := by
  unfold commitWrites at h
  obtain ⟨_, -, h⟩ := Option.bind_eq_some_iff.1 h
  obtain ⟨_, -, h⟩ := Option.bind_eq_some_iff.1 h
  obtain ⟨records, hrecords, h⟩ := Option.bind_eq_some_iff.1 h
  cases h
  exact hrecords

/-- The request's turn record runs. -/
def Service.running (s : Service ν) (r : Request ν) : Prop :=
  ∃ st, s.stores r.instanceId = some st ∧ runs st.turnRecords r.turnRecordId = true

theorem running_of_current (h : s.isCurrentTurn r.instanceId r.turnRecordId = true) : s.running r := by
  unfold Service.isCurrentTurn at h
  obtain ⟨st, hst, h⟩ := (Option.any_eq_true _ _).1 h
  rw [Bool.and_eq_true, Bool.and_eq_true] at h
  obtain ⟨turn, hturn, hrunning⟩ := (Option.any_eq_true _ _).1 h.1.2
  rw [Bool.and_eq_true] at hrunning
  refine ⟨st, hst, ?_⟩
  rw [runs, hturn]
  exact hrunning.1

theorem Row.running (h : ∀ id r, s.requests.get? id = some r → r.status = .opened → s.running r) (hrow : Row s e id r)
    (hs : r.status = .opened) : s.running r := by
  cases hrow with
  | kept hrow => exact h id r hrow hs
  | created _ hcurrent => exact running_of_current hcurrent
  | cancelled hcancelled =>
    rw [hcancelled] at hs
    cases hs
  | @resolved _ _ _ d =>
    simp only [Request.resolved] at hs
    cases d <;> cases hs

theorem Turns.stores {p : Service ν × List (Out ν)} (h : Turns reg s p) : p.1.stores = s.stores := by
  cases h <;> rfl

theorem open_next (h : ∀ id r, s.requests.get? id = some r → r.status = .opened → s.running r) (e : Event ν)
    (hr : (s.next reg e).1.requests.get? id = some r) (hs : r.status = .opened) : (s.next reg e).1.running r := by
  have hsame : (s.next reg e).1.stores = s.stores → (s.next reg e).1.running r := by
    intro hstores
    obtain ⟨st, hst, hrun⟩ := ((wrote_next reg s e).row hr).running h hs
    exact ⟨st, by rw [hstores, hst], hrun⟩
  cases e with
  | create i st =>
    unfold Service.next at hr ⊢
    dsimp only at hr ⊢
    split
    · rename_i hnone
      rw [if_pos hnone] at hr
      obtain ⟨st', hst', hrun⟩ := h id r hr hs
      have hne : r.instanceId ≠ i := by
        rintro rfl
        rw [hnone] at hst'
        cases hst'
      exact ⟨st', by simpa [hne] using hst', hrun⟩
    · rename_i hnone
      rw [if_neg hnone] at hr
      exact h id r hr hs
  | record i now w =>
    unfold Service.next at hr ⊢
    dsimp only at hr ⊢
    split
    · rename_i hnone
      rw [hnone] at hr
      exact h id r hr hs
    · rename_i st hst
      rw [hst] at hr
      dsimp only at hr
      split
      · rename_i hfail
        rw [hfail] at hr
        exact h id r hr hs
      · rename_i st' hcommit
        rw [hcommit] at hr
        dsimp only at hr
        by_cases hi : r.instanceId = i
        · refine ⟨st', by simp [hi], settle_running (records_of_commit hcommit) (fun id' r' hr' hi' hs' => ?_) hr hi hs⟩
          obtain ⟨st₀, hst₀, hrun⟩ := h id' r' hr' hs'
          rw [hi', hst] at hst₀
          cases hst₀
          exact hrun
        · obtain ⟨r₀, hr₀, -, rfl | hb⟩ := settle_row _ hr
          · obtain ⟨st₀, hst₀, hrun⟩ := h id r hr₀ hs
            exact ⟨st₀, by simpa [hi] using hst₀, hrun⟩
          · rw [hb.1] at hs
            cases hs
  | resolve => exact hsame (resolve_kept ..).2
  | reconcile => exact hsame rfl
  | cancel => exact hsame rfl
  | restart => exact hsame rfl
  | _ => exact hsame (turns_next s rfl).stores

theorem open_running (hr : Run (ServiceStep reg) .init h s) (hrow : s.requests.get? id = some r) (hs : r.status = .opened) :
    s.running r := by
  refine hr.inv (fun s => ∀ id r, s.requests.get? id = some r → r.status = .opened → s.running r) (fun _ _ h => by cases h)
    (fun a e os b ha hst id r hrow hs => ?_) id r hrow hs
  rw [(next_of_step hst).1] at hrow ⊢
  exact open_next ha e hrow hs

theorem open_running_demo : (Service.init.after (demoResolved.take 2)).running demoRequest := by
  have hrow : (Service.init.after (demoResolved.take 2)).requests.get? "tap" = some demoRequest := rfl
  exact open_running (run_demo .init (demoResolved.take 2)) hrow rfl

/-! ## One decision for a tool call -/

/-- A tool call has one request. -/
structure Distinct (rows : Requests ν) : Prop where
  one : ∀ id id' r r', rows.get? id = some r → rows.get? id' = some r' → r.correlates r'.toReviewInput = true → id = id'

theorem correlates_comm (a b : ReviewInput ν) : a.correlates b = b.correlates a := by
  simp [ReviewInput.correlates, eq_comm]

theorem Distinct.of_rows (hd : Distinct rows)
    (h : ∀ id r, rows'.get? id = some r → ∃ r₀, rows.get? id = some r₀ ∧ r₀.toReviewInput = r.toReviewInput) : Distinct rows' := by
  constructor
  intro id id' r r' hr hr' hc
  obtain ⟨r₀, hr₀, hsame⟩ := h id r hr
  obtain ⟨r₁, hr₁, hsame'⟩ := h id' r' hr'
  rw [← hsame, ← hsame'] at hc
  exact hd.one id id' r₀ r₁ hr₀ hr₁ hc

theorem Wrote.distinct (hw : Wrote s e rows) (hd : Distinct s.requests) : Distinct rows := by
  cases hw with
  | same => exact hd
  | create _ hcreated =>
    cases hcreated with
    | replay => exact hd
    | create hfirst _ hget =>
      constructor
      intro id id' r r' hr hr' hc
      rw [hget] at hr hr'
      split at hr <;> split at hr'
      · rename_i h h'
        rw [h, h']
      · cases hr
        rw [correlates_comm, hfirst _ _ hr'] at hc
        cases hc
      · cases hr'
        rw [hfirst _ _ hr] at hc
        cases hc
      · exact hd.one id id' r r' hr hr' hc
  | settle => exact hd.of_rows fun id r hr => (settle_row _ hr).imp fun _ h => ⟨h.1, h.2.1⟩
  | resolved =>
    apply hd.of_rows
    intro id r hr
    rw [Table.get?_modify] at hr
    split at hr
    · obtain ⟨r₀, hr₀, rfl⟩ := Option.map_eq_some_iff.1 hr
      refine ⟨r₀, hr₀, ?_⟩
      split <;> rfl
    · exact ⟨r, hr, rfl⟩
  | cancel => exact hd.of_rows fun id r hr => (cancel_row hr).imp fun _ h => ⟨h.1, h.2.1⟩

theorem distinct_of_run (hr : Run (ServiceStep reg) .init h s) : Distinct s.requests := by
  refine hr.inv (fun s => Distinct s.requests) ⟨fun _ _ _ _ h => by cases h⟩ fun a e os b ha hst => ?_
  rw [(next_of_step hst).1]
  exact (wrote_next reg a e).distinct ha

/-- A call goes by the decision of a request. -/
structure Follows (reg : Registry ν) (id : String) (d : Decision) (c : Call ν) : Prop where
  waits : ∀ id', c.phase = .waiting id' → id' = id
  /-- A call of a turn that is no longer current is declined without being asked. -/
  decided : ∀ d', c.phase = .decided d' → d' = .declined ∨ d' = d
  executes : c.phase = .starting ∨ c.phase = .executing → reg.isTicket c.payload.toolName = true → d = .accepted

theorem Answered.decision {d d' : Decision} (ha : Answered rows c d') (hrows : Distinct rows) (hrow : rows.get? id = some r)
    (hd : r.decision = some d) (hc : c.input.correlates r.toReviewInput = true) : d' = d := by
  obtain ⟨id', r', hr', hsame, hd'⟩ := ha
  rw [← hsame] at hc
  obtain rfl := hrows.one id' id r' r hr' hrow hc
  rw [hrow, Option.some.injEq] at hr'
  subst hr'
  exact Option.some.inj (hd'.symm.trans hd)

end Leitwerk.ToolApproval
