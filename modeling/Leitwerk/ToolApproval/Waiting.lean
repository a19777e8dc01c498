import Leitwerk.ToolApproval.Approved
/-!
# No call waits for what is decided

A call waits in memory for a row of the database. Commits of the engine and the transaction
of `resolve` change the row and reconcile the calls only later, with other events in between;
but a call never waits for a decided request longer than that (`waiting_owed`).
-/

namespace Leitwerk.ToolApproval

open JsonSyntax Engine Runs

variable {ν : Type} {reg : Registry ν} {s t : Service ν} {e : Event ν} {os : List (Out ν)} {rows : Requests ν} {r : Request ν}
  {c : Call ν} {id k : String} {h : Hist (Event ν) (Out ν)}

/-- The calls that wait for a decided request in `t` have waited for it in `s`. -/
structure Waits (s t : Service ν) : Prop where
  before : ∀ k c id r, t.pending.get? k = some c → c.phase = .waiting id → t.requests.get? id = some r →
    r.status = .opened ∨ ∃ c₀, s.pending.get? k = some c₀ ∧ c₀.phase = .waiting id

theorem waits_of_same (h : t.pending = s.pending) : Waits s t :=
  ⟨fun _ c _ _ hk hp _ => .inr ⟨c, h ▸ hk, hp⟩⟩

theorem Turns.waits {p : Service ν × List (Out ν)} (h : Turns reg s p) : Waits s p.1 := by
  constructor
  intro k c' id r hk hp hr
  cases h with
  | stay => exact .inr ⟨c', hk, hp⟩
  | finish key c a =>
    rw [show (s.finish key c a).1.pending = s.pending.remove key from rfl, Table.get?_remove] at hk
    split at hk
    · cases hk
    · exact .inr ⟨c', hk, hp⟩
  | @move key c os _ hwaits =>
    rw [show (s.put key c, os).1.pending = s.pending.put key c from rfl, Table.get?_put] at hk
    split at hk
    · cases hk
      exact absurd hp (hwaits id)
    · exact .inr ⟨c', hk, hp⟩
  | @ask rows id' newId now key request c c₁ _ hcreated _ hphase =>
    dsimp only at hk hr
    rw [show (({ s with requests := rows } : Service ν).put key c₁).pending = s.pending.put key c₁ from rfl, Table.get?_put] at hk
    split at hk
    · cases hk
      rw [hphase] at hp
      split at hp
      · cases hp
      · rename_i hd
        cases hp
        rw [show (({ s with requests := rows } : Service ν).put key c').requests = rows from rfl, hcreated.get.1,
          Option.some.injEq] at hr
        subst hr
        exact .inl (opened_of_decision hd)
    · exact .inr ⟨c', hk, hp⟩

/-- A call that still waits once the requests of its instance are reconciled waits for an open one. -/
theorem reconciled_waits {i : String} (hp : (c.reconciled rows i).phase = .waiting id) :
    c.phase = .waiting id ∧ ∀ r, rows.get? id = some r → listed i r.instanceId = true → r.status = .opened := by
  unfold Call.reconciled at hp
  split at hp
  · rename_i id' hphase
    split at hp
    · rename_i r₀ hr₀
      obtain ⟨hrow, -⟩ := Option.filter_eq_some_iff.1 hr₀
      split at hp
      · cases hp
      · rename_i hd
        rw [hphase, Phase.waiting.injEq] at hp
        subst hp
        refine ⟨hphase, fun r hr _ => ?_⟩
        rw [hrow, Option.some.injEq] at hr
        subst hr
        exact opened_of_decision hd
    · rename_i hnone
      rw [hphase, Phase.waiting.injEq] at hp
      subst hp
      refine ⟨hphase, fun r hr hl => ?_⟩
      simp [hr, hl] at hnone
  · rename_i hphase
    exact absurd hp (hphase id)

/-- What a step does to a call that waits for a decided request: it has waited before, and the
event is none that reconciles the request's instance. -/
theorem waits_next (hk : (s.next reg e).1.pending.get? k = some c) (hp : c.phase = .waiting id)
    (hr : (s.next reg e).1.requests.get? id = some r) :
    r.status = .opened ∨ (∃ c₀, s.pending.get? k = some c₀ ∧ c₀.phase = .waiting id) ∧ e.reconciles r.instanceId = false := by
  have hother : Waits s (s.next reg e).1 → e.reconciles r.instanceId = false → r.status = .opened ∨
      (∃ c₀, s.pending.get? k = some c₀ ∧ c₀.phase = .waiting id) ∧ e.reconciles r.instanceId = false :=
    fun hw he => (hw.before k c id r hk hp hr).imp_right fun hc => ⟨hc, he⟩
  cases e with
  | create =>
    refine hother (waits_of_same ?_) rfl
    unfold Service.next
    dsimp only
    split <;> rfl
  | record =>
    refine hother (waits_of_same ?_) rfl
    unfold Service.next
    dsimp only
    split
    · rfl
    · split <;> rfl
  | reconcile i =>
    obtain ⟨c₀, hc₀, rfl⟩ := Option.map_eq_some_iff.1 ((Table.get?_map ..).symm.trans hk)
    obtain ⟨hphase, hall⟩ := reconciled_waits hp
    cases hl : listed i r.instanceId with
    | true => exact .inl (hall r hr hl)
    | false => exact .inr ⟨⟨c₀, hc₀, hphase⟩, hl⟩
  | resolve => exact hother (waits_of_same (resolve_kept ..).1) rfl
  | cancel i turnRecordId toolCallId toolName now =>
    obtain ⟨c₀, hc₀, rfl⟩ := Option.map_eq_some_iff.1 ((Table.get?_map ..).symm.trans hk)
    obtain ⟨hphase, hall⟩ := reconciled_waits hp
    cases hl : listed i r.instanceId with
    | true => exact .inl (hall r hr hl)
    | false =>
      refine .inr ⟨?_, hl⟩
      rw [Table.get?_modify] at hc₀
      split at hc₀
      · obtain ⟨c₁, hc₁, rfl⟩ := Option.map_eq_some_iff.1 hc₀
        exact ⟨c₁, hc₁, hphase⟩
      · exact ⟨c₀, hc₀, hphase⟩
  | restart => cases hk
  | _ => exact hother (turns_next s rfl).waits rfl

/-- Since an event that decided requests of the instance, nothing has reconciled it. -/
def Owed (h : Hist (Event ν) (Out ν)) (instanceId : String) : Prop :=
  ∃ before e os after, h = before ++ (e, os) :: after ∧ e.decides instanceId = true ∧ ∀ x ∈ after, x.1.reconciles instanceId = false

/-- A call waits for its own request, which is open, or the events that decide it have yet to reconcile it. -/
theorem waiting_owed (hr : Run (ServiceStep reg) .init h s) (hk : s.pending.get? k = some c) (hp : c.phase = .waiting id) :
    ∃ r, s.requests.get? id = some r ∧ r.toReviewInput = c.input ∧ (r.status = .opened ∨ Owed h r.instanceId) := by
  have hstands := (standing_of_run hr).stands k c hk
  unfold Stands at hstands
  rw [hp] at hstands
  obtain ⟨r, hrow, hsame⟩ := hstands
  refine ⟨r, hrow, hsame, ?_⟩
  clear hsame
  induction hr generalizing c r with
  | nil => cases hk
  | @snoc h a e os b hr hst ih =>
    rw [(next_of_step hst).1] at hk hrow
    rcases waits_next hk hp hrow with hopen | ⟨⟨c₀, hc₀, hp₀⟩, hquiet⟩
    · exact .inl hopen
    · by_cases hs : r.status = .opened
      · exact .inl hs
      · right
        have howed : ∀ r₀, a.requests.get? id = some r₀ → r₀.status ≠ .opened → r₀ = r → Owed (h ++ [(e, os)]) r.instanceId := by
          intro r₀ hr₀ hne heq
          subst heq
          obtain ⟨before, e', os', after, rfl, hdecides, hafter⟩ := (ih hc₀ hp₀ r₀ hr₀).resolve_left hne
          refine ⟨before, e', os', after ++ [(e, os)], by simp, hdecides, fun x hx => ?_⟩
          rcases List.mem_append.1 hx with hx | hx
          · exact hafter x hx
          · rw [List.mem_singleton.1 hx]
            exact hquiet
        cases (wrote_next reg a e).row hrow with
        | kept hkept => exact howed r hkept hs rfl
        | created hopen => exact absurd hopen hs
        | cancelled _ hcause => exact ⟨h, e, os, [], rfl, hcause.resolve_right (by simp [hquiet]), by simp⟩
        | @resolved i _ now d actor asked _ _ _ hnamed => exact ⟨h, _, os, [], rfl, hnamed, by simp⟩

theorem waiting_owed_demo : ∃ r, (Service.init.after demoResolved).requests.get? "tap" = some r ∧ r.toReviewInput = demoInput ∧
    (r.status = .opened ∨ Owed (Service.init.history demoResolved) r.instanceId) := by
  have hcall : (Service.init.after demoResolved).pending.get? demoKey = some { demoCall with phase := .waiting "tap" } := rfl
  have hwaits := waiting_owed (run_demo .init demoResolved) hcall rfl
  exact hwaits

end Leitwerk.ToolApproval
