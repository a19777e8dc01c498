import Leitwerk.ToolApproval.Gate
/-!
# What a step does to requests and calls

What an event does is summed up twice: what becomes of the call it is about (`Turns`), and
what becomes of the rows (`Wrote`, `Row`). `Stands` is what a pending call has to show for the
phase it is in, which every step keeps.
-/

namespace Leitwerk.ToolApproval

open JsonSyntax Engine Runs

variable {ν : Type} {reg : Registry ν} {s t : Service ν} {e : Event ν} {os : List (Out ν)} {rows rows' : Requests ν}
  {r r' : Request ν} {c c' : Call ν} {id key : String} {p : Service ν × List (Out ν)}

/-! ## What a pending call has to show -/

/-- A request of the call has been decided so. -/
def Answered (rows : Requests ν) (c : Call ν) (d : Decision) : Prop :=
  ∃ id r, rows.get? id = some r ∧ r.toReviewInput = c.input ∧ r.decision = some d

def Stands (reg : Registry ν) (rows : Requests ν) (c : Call ν) : Prop :=
  match c.phase with
  | .resolving => True
  | .waiting id => ∃ r, rows.get? id = some r ∧ r.toReviewInput = c.input
  | .decided d => d = .declined ∨ Answered rows c d
  | .starting | .executing => reg.isTicket c.payload.toolName = true → Answered rows c .accepted

structure Standing (reg : Registry ν) (s : Service ν) : Prop where
  stands : ∀ k c, s.pending.get? k = some c → Stands reg s.requests c

theorem decided_of_decision {d : Decision} (h : r.decision = some d) : r.status ≠ .opened := by
  intro hs
  simp [Request.decision, hs] at h

theorem opened_of_decision (h : r.decision = none) : r.status = .opened := by
  by_contra hs
  unfold Request.decision at h
  split at h <;> simp_all

theorem Answered.later {d : Decision} (hl : Later rows rows') (h : Answered rows c d) : Answered rows' c d := by
  obtain ⟨id, r, hr, hsame, hd⟩ := h
  obtain ⟨r', hr', -, hfinal⟩ := hl.becomes id r hr
  obtain rfl := hfinal (decided_of_decision hd)
  exact ⟨id, r', hr', hsame, hd⟩

theorem Stands.later (hl : Later rows rows') (h : Stands reg rows c) : Stands reg rows' c := by
  unfold Stands at h ⊢
  split <;> rename_i hp <;> rw [hp] at h
  · trivial
  · obtain ⟨r, hr, hsame⟩ := h
    obtain ⟨r', hr', hb, -⟩ := hl.becomes _ r hr
    exact ⟨r', hr', hb.trans hsame⟩
  · exact h.imp id (·.later hl)
  · exact fun ht => (h ht).later hl
  · exact fun ht => (h ht).later hl

/-! ## What becomes of the call an event is about -/

/-- The call stays as it is, has its result, moves on without a request, or asks for one. An
adapter is called only for a call that starts and is not aborted. -/
inductive Turns (reg : Registry ν) (s : Service ν) : Service ν × List (Out ν) → Prop
  | stay {os : List (Out ν)} (silent : ∀ input destination, .execute input destination ∉ os) : Turns reg s (s, os)
  | finish (key : String) (c : Call ν) (a : Answer ν) : Turns reg s (s.finish key c a)
  | move {key : String} {c : Call ν} {os : List (Out ν)} (stands : Standing reg s → Stands reg s.requests c)
      (waits : ∀ id, c.phase ≠ .waiting id)
      (executes : ∀ input destination, .execute input destination ∈ os →
        ∃ c, s.at key .starting = some c ∧ c.aborted = false ∧ input = c.input ∧ destination = c.ticketDestination) :
      Turns reg s (s.put key c, os)
  | ask {rows : Requests ν} {id newId now key : String} {r : Request ν} {c c' : Call ν}
      (current : s.isCurrentTurn c.input.instanceId c.input.turnRecordId = true)
      (created : Created s.requests newId now c.input rows id r) (same : c'.input = c.input)
      (phase : c'.phase = match r.decision with
        | some d => .decided d
        | none => .waiting id) : Turns reg s (({ s with requests := rows } : Service ν).put key c', [])

theorem turns_execute (hc : Standing reg s → reg.isTicket c.payload.toolName = true → Answered s.requests c .accepted) :
    Turns reg s (s.execute reg key c) := by
  unfold Service.execute
  split
  · exact .finish ..
  · split
    · exact .finish ..
    · exact .move hc (by simp) (by simp)

theorem turns_review (s : Service ν) (newId now key : String) (c : Call ν) : Turns reg s (s.review reg newId now key c) := by
  unfold Service.review
  split
  · exact .finish ..
  · split
    · rename_i hcurrent
      split
      · exact .finish ..
      · rename_i hcreate
        exact .ask hcurrent (createIdempotent_ok hcreate) rfl rfl
    · exact .move (fun _ => .inl rfl) (by simp) (by simp)

theorem turns_handle (s : Service ν) (i newId now : String) (p : Payload ν) : Turns reg s (s.handle reg i p newId now) := by
  have hresolving : ∀ {key : String} {c : Call ν}, c.phase = .resolving → Turns reg s (s.put key c, []) := by
    intro key c hp
    exact .move (fun _ => by simp [Stands, hp]) (by simp [hp]) (by simp)
  unfold Service.handle
  dsimp only
  split
  · exact .stay (by simp)
  · split
    · exact .stay (by simp)
    · split
      · exact turns_review ..
      · split
        · exact hresolving rfl
        · split
          · exact .stay (by simp)
          · exact hresolving rfl
      · rename_i hticket _
        apply turns_execute
        intro _ ht
        unfold Registry.isTicket at ht
        split at ht
        · rename_i destinations htool
          cases destinations <;> simp_all
        · cases ht

/-- The events about one call. -/
def Event.isCall : Event ν → Bool
  | .handle .. | .destination .. | .resume .. | .begin .. | .settle .. => true
  | _ => false

theorem turns_next (s : Service ν) (he : e.isCall = true) : Turns reg s (s.next reg e) := by
  cases e with
  | handle => exact turns_handle ..
  | destination =>
    unfold Service.next
    dsimp only
    split
    · exact .stay (by simp)
    · exact .finish ..
    · exact turns_review ..
  | resume =>
    unfold Service.next
    dsimp only
    split
    · exact .stay (by simp)
    · rename_i c hk
      split
      · rename_i d hp
        unfold Service.resume
        split
        · exact .finish ..
        · exact .finish ..
        · refine turns_execute fun h _ => ?_
          have hstands := h.stands _ _ hk
          unfold Stands at hstands
          rw [hp] at hstands
          exact hstands.resolve_left (by simp)
      · exact .stay (by simp)
  | begin =>
    unfold Service.next
    dsimp only
    split
    · exact .stay (by simp)
    · rename_i c hc
      split
      · exact .finish ..
      · rename_i ha
        obtain ⟨hk, hp⟩ := Option.filter_eq_some_iff.1 hc
        refine .move (fun h => ?_) (by simp) fun input destination hmem => ?_
        · have hstands := h.stands _ _ hk
          unfold Stands at hstands
          rw [show c.phase = .starting by simpa using hp] at hstands
          exact hstands
        · simp only [List.mem_singleton, Out.execute.injEq] at hmem
          exact ⟨c, hc, by simpa using ha, hmem.1, hmem.2⟩
  | settle =>
    unfold Service.next
    dsimp only
    split
    · exact .stay (by simp)
    · split
      · exact .finish ..
      · split <;> exact .finish ..
  | _ => cases he

theorem resolve_kept (s : Service ν) (i id now : String) (d : Decision) (actor : Json) :
    (s.resolve i id d actor now).pending = s.pending ∧ (s.resolve i id d actor now).stores = s.stores := by
  unfold Service.resolve
  split
  · exact ⟨rfl, rfl⟩
  · split
    · split <;> exact ⟨rfl, rfl⟩
    · exact ⟨rfl, rfl⟩

/-- An adapter is called for a call that starts and is not aborted. -/
theorem execute_mem {input : ReviewInput ν} {destination : Option (Destination ν)}
    (hmem : .execute input destination ∈ (s.next reg e).2) :
    ∃ key c, s.at key .starting = some c ∧ c.aborted = false ∧ input = c.input ∧ destination = c.ticketDestination := by
  have hcall : Turns reg s (s.next reg e) →
      ∃ key c, s.at key .starting = some c ∧ c.aborted = false ∧ input = c.input ∧ destination = c.ticketDestination := by
    intro hturns
    generalize s.next reg e = p at hmem hturns
    cases hturns with
    | stay hsilent => exact absurd hmem (hsilent _ _)
    | finish => simp [Service.finish] at hmem
    | @move key c os _ _ hexecutes => exact ⟨key, hexecutes _ _ hmem⟩
    | ask => cases hmem
  cases e with
  | create =>
    unfold Service.next at hmem
    dsimp only at hmem
    split at hmem <;> cases hmem
  | record =>
    unfold Service.next at hmem
    dsimp only at hmem
    split at hmem
    · cases hmem
    · split at hmem <;> cases hmem
  | reconcile => cases hmem
  | resolve => cases hmem
  | cancel => cases hmem
  | restart => cases hmem
  | _ => exact hcall (turns_next s rfl)

/-! ## What a step does to the requests -/

/-- The requests after an event. -/
inductive Wrote (s : Service ν) : Event ν → Requests ν → Prop
  | same (e : Event ν) : Wrote s e s.requests
  | create {e : Event ν} {rows : Requests ν} {id now id' : String} {input : ReviewInput ν} {r : Request ν}
      (current : s.isCurrentTurn input.instanceId input.turnRecordId = true) (created : Created s.requests id now input rows id' r) :
      Wrote s e rows
  | settle {i now : String} {w : Writes} (st : Store) :
      Wrote s (.record i now w) (settleRequests i now st.turnRecords w.turnRecordWrites s.requests)
  | resolved {i id now : String} {d : Decision} {actor : Json} {r : Request ν} (row : s.requests.get? id = some r)
      (named : listed i r.instanceId = true) (isOpen : r.status = .opened)
      (current : s.isCurrentTurn r.instanceId r.turnRecordId = true) :
      Wrote s (.resolve i id d actor now)
        (s.requests.modify id fun r => if r.status = .opened then r.resolved d actor now else r)
  | cancel {e : Event ν} {i turnRecordId now : String} (cause : e.decides i = true ∨ e.reconciles i = true) :
      Wrote s e (cancelOpenByTurn s.requests i turnRecordId now)

theorem wrote_resolve (s : Service ν) (i id now : String) (d : Decision) (actor : Json) :
    Wrote s (.resolve i id d actor now) (s.resolve i id d actor now).requests := by
  unfold Service.resolve
  split
  · exact .same _
  · rename_i r hr
    obtain ⟨hrow, hfound⟩ := Option.filter_eq_some_iff.1 hr
    simp only [Bool.and_eq_true, decide_eq_true_eq] at hfound
    split
    · rename_i hcurrent
      split
      · rename_i hresolve
        rw [resolveRow_ok hresolve]
        exact .resolved hrow hfound.1 hfound.2 hcurrent
      · exact .same _
    · exact .cancel (.inl (by simp [Event.decides, listed]))

theorem Turns.wrote (h : Turns reg s p) (e : Event ν) : Wrote s e p.1.requests := by
  cases h with
  | stay => exact .same e
  | finish => exact .same e
  | move => exact .same e
  | ask hcurrent hcreated => exact .create hcurrent hcreated

theorem wrote_next (reg : Registry ν) (s : Service ν) (e : Event ν) : Wrote s e (s.next reg e).1.requests := by
  cases e with
  | create =>
    unfold Service.next
    dsimp only
    split <;> exact .same _
  | record =>
    unfold Service.next
    dsimp only
    split
    · exact .same _
    · split
      · exact .same _
      · exact .settle _
  | reconcile => exact .same _
  | resolve => exact wrote_resolve ..
  | cancel => exact .cancel (.inr (by simp [Event.reconciles, listed]))
  | restart => exact .same _
  | _ => exact (turns_next s rfl).wrote _

theorem Wrote.later (h : Wrote s e rows) : Later s.requests rows := by
  cases h with
  | same => exact .refl _
  | create _ hcreated => exact hcreated.later
  | settle => exact later_settle ..
  | resolved => exact later_modify ..
  | cancel => exact later_cancel ..

/-- Where a row comes from that is there after an event. -/
inductive Row (s : Service ν) : Event ν → String → Request ν → Prop
  | kept {e : Event ν} {id : String} {r : Request ν} (row : s.requests.get? id = some r) : Row s e id r
  | created {e : Event ν} {id : String} {r : Request ν} (isOpen : r.status = .opened)
      (current : s.isCurrentTurn r.instanceId r.turnRecordId = true) : Row s e id r
  | cancelled {e : Event ν} {id : String} {r : Request ν} (status : r.status = .cancelled)
      (cause : e.decides r.instanceId = true ∨ e.reconciles r.instanceId = true) : Row s e id r
  | resolved {i id now : String} {d : Decision} {actor : Json} {r : Request ν} (row : s.requests.get? id = some r)
      (isOpen : r.status = .opened) (current : s.isCurrentTurn r.instanceId r.turnRecordId = true)
      (named : listed i r.instanceId = true) : Row s (.resolve i id d actor now) id (r.resolved d actor now)

theorem Wrote.row (hw : Wrote s e rows) (hr : rows.get? id = some r) : Row s e id r := by
  cases hw with
  | same => exact .kept hr
  | create hcurrent hcreated =>
    cases hcreated with
    | replay => exact .kept hr
    | create _ _ hget =>
      rw [hget] at hr
      split at hr
      · cases hr
        exact .created rfl hcurrent
      · exact .kept hr
  | settle st =>
    obtain ⟨r₀, hr₀, -, rfl | ⟨hs, hi⟩⟩ := settle_row _ hr
    · exact .kept hr₀
    · exact .cancelled hs (.inl (by simp [Event.decides, hi]))
  | @resolved i id' now d actor asked hrow hnamed hopen hcurrent =>
    rw [Table.get?_modify] at hr
    split at hr
    · rename_i hid
      subst hid
      rw [hrow, Option.map_some, if_pos hopen, Option.some.injEq] at hr
      rw [← hr]
      exact .resolved hrow hopen hcurrent hnamed
    · exact .kept hr
  | cancel hcause =>
    obtain ⟨r₀, hr₀, -, rfl | ⟨hs, hi⟩⟩ := cancel_row hr
    · exact .kept hr₀
    · exact .cancelled hs (hi ▸ hcause)

/-! ## Every step keeps what the calls show -/

theorem Stands.reconciled (h : Stands reg rows c) (i : String) : Stands reg rows (c.reconciled rows i) := by
  unfold Call.reconciled
  split
  · rename_i id hp
    split
    · rename_i r hr
      split
      · rename_i d hd
        obtain ⟨hrow, -⟩ := Option.filter_eq_some_iff.1 hr
        have hstands := h
        unfold Stands at hstands
        rw [hp] at hstands
        obtain ⟨r', hr', hsame⟩ := hstands
        rw [hrow] at hr'
        cases hr'
        exact .inr ⟨id, r, hrow, hsame, hd⟩
      · exact h
    · exact h
  · exact h

theorem Standing.put (h : Standing reg s) (key : String) (hc : Stands reg s.requests c) : Standing reg (s.put key c) := by
  constructor
  intro k c' hk
  rw [show (s.put key c).pending = s.pending.put key c from rfl, Table.get?_put] at hk
  split at hk
  · cases hk
    exact hc
  · exact h.stands k c' hk

theorem Turns.standing (h : Standing reg s) (ht : Turns reg s p) : Standing reg p.1 := by
  cases ht with
  | stay => exact h
  | finish key c a =>
    constructor
    intro k c' hk
    rw [show (s.finish key c a).1.pending = s.pending.remove key from rfl, Table.get?_remove] at hk
    split at hk
    · cases hk
    · exact h.stands k c' hk
  | move hstands => exact h.put _ (hstands h)
  | @ask rows id newId now key r c c' _ hcreated hsame hphase =>
    have hrows : Standing reg { s with requests := rows } := ⟨fun k c hk => (h.stands k c hk).later hcreated.later⟩
    obtain ⟨hrow, hinput⟩ := hcreated.get
    apply hrows.put
    unfold Stands
    rw [hphase]
    cases hd : r.decision with
    | none => exact ⟨r, hrow, hinput.trans hsame.symm⟩
    | some d => exact .inr ⟨id, r, hrow, hinput.trans hsame.symm, hd⟩

theorem standing_next (h : Standing reg s) (e : Event ν) : Standing reg (s.next reg e).1 := by
  cases e with
  | create =>
    unfold Service.next
    dsimp only
    split <;> exact ⟨h.stands⟩
  | record =>
    unfold Service.next
    dsimp only
    split
    · exact h
    · split
      · exact h
      · exact ⟨fun k c hk => (h.stands k c hk).later (later_settle ..)⟩
  | reconcile i =>
    constructor
    intro k c' hk
    obtain ⟨c, hc, rfl⟩ := Option.map_eq_some_iff.1 ((Table.get?_map ..).symm.trans hk)
    exact (h.stands k c hc).reconciled i
  | resolve i id d actor now =>
    constructor
    intro k c hk
    rw [show (s.next reg (.resolve i id d actor now)).1.pending = s.pending from (resolve_kept ..).1] at hk
    exact (h.stands k c hk).later (wrote_resolve ..).later
  | cancel i turnRecordId toolCallId toolName now =>
    constructor
    intro k c' hk
    obtain ⟨c₁, hc₁, rfl⟩ := Option.map_eq_some_iff.1 ((Table.get?_map ..).symm.trans hk)
    apply Stands.reconciled
    rw [Table.get?_modify] at hc₁
    split at hc₁
    · obtain ⟨c, hc, rfl⟩ := Option.map_eq_some_iff.1 hc₁
      exact (h.stands k c hc).later (later_cancel ..)
    · exact (h.stands k c₁ hc₁).later (later_cancel ..)
  | restart =>
    constructor
    intro k c hk
    cases hk
  | _ => exact (turns_next s rfl).standing h

theorem next_of_step (hst : ServiceStep reg s e os t) : t = (s.next reg e).1 ∧ os = (s.next reg e).2 := by
  rw [show s.next reg e = (t, os) from hst]
  exact ⟨rfl, rfl⟩

theorem standing_of_run {h : Hist (Event ν) (Out ν)} (hr : Run (ServiceStep reg) .init h s) : Standing reg s := by
  refine hr.inv (Standing reg) ⟨fun k c hk => by cases hk⟩ fun a e os b ha hst => ?_
  rw [(next_of_step hst).1]
  exact standing_next ha e

end Leitwerk.ToolApproval
