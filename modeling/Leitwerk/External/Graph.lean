import Leitwerk.External.Movement
/-!
# Every step of a process follows its graph

A run of a process meets the operations of the engine, the fires of its external
sources and their observations. `Moves` is what a step may do to the selected
turn, and a turn that is selected is one of the graph.
-/

namespace Leitwerk.External

open Engine

variable {Payload : Type} {d : ProcessDefinition} {x : ExternalTurns Payload} {st st' : Store}

/-! ## Runs -/

/-- What a process meets. The generations of its armings and the merge of a product reference are
those of the moment. -/
inductive Event (Payload : Type) where
  | engine (event : Engine.Event)
  | fire (fire : FireInput Payload) (ctx : Context) (generationFor : ExternalArming Payload → String)
      (productRefState : Option Json → String → Option Json)
  | observe (input : ExternalObservationInput) (ctx : Context) (generationFor : ExternalArming Payload → String)

/-- The committed store of an accepted event. -/
def run (d : ProcessDefinition) (x : ExternalTurns Payload) (st : Store) : Event Payload → Except Rejection Store
  | .engine (.op op ctx) => op.run d ctx st
  | .engine (.leases leases) => .ok { st with leases }
  | .fire fire ctx generationFor productRefState => runFire d x generationFor st ctx productRefState fire
  | .observe input ctx generationFor => runObservation d x generationFor st ctx input

def next (d : ProcessDefinition) (x : ExternalTurns Payload) (st : Store) (e : Event Payload) : Store :=
  match run d x st e with
  | .ok st' => st'
  | .error _ => st

def outputs (d : ProcessDefinition) (x : ExternalTurns Payload) (st : Store) (e : Event Payload) : List Rejection :=
  match run d x st e with
  | .ok _ => []
  | .error why => [why]

/-- A step of a process with external sources. -/
def Step (d : ProcessDefinition) (x : ExternalTurns Payload) : Runs.Step Store (Event Payload) Rejection :=
  fun st e os st' => st' = next d x st e ∧ os = outputs d x st e

/-! ## What an event asks for -/

/-- What an event asks its process to move by. -/
def Event.Requests (d : ProcessDefinition) (x : ExternalTurns Payload) (st : Store) : Event Payload → Ask → Prop
  | .engine (.op op ctx), ask => op.Requests d ctx st ask
  | .fire input _ generationFor _, ask => ∃ arming turnId, fireArming d x generationFor st input = .ok arming ∧
      arming.spec.route.toTurnId = some turnId ∧ ask = .request (some arming.transitionTrigger) turnId
  | _, _ => False

/-- The turn of the current record, where the event fails or recovers that. -/
def Event.Returns (st : Store) : Event Payload → TurnId → Prop
  | .engine (.op op _), turnId => op.Returns st turnId
  | _, _ => False

/-- The turn an observation interrupts the process for. -/
def Event.Interrupts : Event Payload → TurnId → Prop
  | .engine (.op op _), turnId => op.Interrupts turnId
  | _, _ => False

/-- Whether the event reports the failure of a record under another turn. -/
def Event.misnames (st : Store) : Event Payload → Bool
  | .engine (.op op _) => op.misnames st
  | _ => false

/-- The turn a step selects before empty mapped turns route on. -/
inductive Selected (d : ProcessDefinition) (x : ExternalTurns Payload) (st : Store) (e : Event Payload) (b : TurnId) : Prop
  | stays (hp : st.process.selectedTurnId = some b)
  | enters (trigger : Option String) (hp : st.process.selectedTurnId = none) (hl : st.process.lifecycleStatus = .discovered)
      (hd : b ∈ d.entryTurnIds) (ha : e.Requests d x st (.request trigger b))
  | follows (ask : Ask) (a : TurnId) (hp : st.process.selectedTurnId = some a) (ha : e.Requests d x st ask)
      (hf : Follows d ask a b) (hd : (d.turns b).isSome = true)
  | returns (hr : e.Returns st b)
  | interrupts (hi : e.Interrupts b) (hd : (d.turns b).isSome = true)

/-- How a step moves the selected turn. -/
structure Moves (d : ProcessDefinition) (x : ExternalTurns Payload) (st : Store) (e : Event Payload) (st' : Store) : Prop where
  selected : ∀ b, st'.process.selectedTurnId = some b →
    ∃ a, Selected d x st e a ∧ Relation.ReflTransGen (Passes d) a b
  ended : st'.process.selectedTurnId = none → st.process.selectedTurnId = none ∨
    Closes st'.process.lifecycleStatus ∨ Closes st.process.lifecycleStatus

theorem Moves.refl (e : Event Payload) : Moves d x st e st :=
  ⟨fun b hb => ⟨b, .stays hb, .refl⟩, fun hn => .inl hn⟩

/-- A decision that lands somewhere, and what its commit makes of that. -/
theorem moves_of_lands {e : Event Payload} {w v : Writes}
    (h : Lands d (e.Requests d x st) (e.Returns st) e.Interrupts st.process (w.candidate st.process))
    (ht : Trails d st.process w v) (hc : Committed st v st') : Moves d x st e st' := by
  refine ⟨fun b hb => ?_, fun hn => ?_⟩
  · rw [hc.selected] at hb
    obtain ⟨a, ha, hwalk⟩ := ht.selected b hb
    refine ⟨a, ?_, hwalk⟩
    cases h with
    | stays hq => exact .stays (hq.symm.trans ha)
    | enters trigger turnId hp hl hd hask hq =>
      rw [hq, Option.some.injEq] at ha
      exact ha ▸ .enters trigger hp hl hd hask
    | follows ask c turnId hp hask hf hd hq =>
      rw [hq, Option.some.injEq] at ha
      subst ha
      exact .follows ask c hp hask hf hd
    | returns turnId hr hq =>
      rw [hq, Option.some.injEq] at ha
      exact ha ▸ .returns hr
    | interrupts turnId hi hd hq =>
      rw [hq, Option.some.injEq] at ha
      subst ha
      exact .interrupts hi hd
    | ends hq =>
      rw [hq] at ha
      cases ha
  · rw [hc.selected] at hn
    rw [hc.lifecycle]
    rcases ht.ended hn with hclosed | ⟨hbase, hl⟩
    · exact .inr (.inl hclosed)
    · cases h with
      | stays hq => exact .inl (hq.symm.trans hbase)
      | ends _ hclosed =>
        right
        rw [hl]
        exact hclosed
      | enters _ _ _ _ _ _ hq => rw [hbase] at hq; cases hq
      | follows _ _ _ _ _ _ _ hq => rw [hbase] at hq; cases hq
      | returns _ _ hq => rw [hbase] at hq; cases hq
      | interrupts _ _ _ hq => rw [hbase] at hq; cases hq

/-! ## Every event is a decision that is committed -/

/-- What an accepted event other than a change of leases or a failed fire did. -/
structure Acted (d : ProcessDefinition) (x : ExternalTurns Payload) (st : Store) (e : Event Payload) (st' : Store) : Prop where
  ran : ∃ ctx op w v, Ran d ctx st op w v st'
  moves : e.misnames st = false → Moves d x st e st'

/-- Writes that are recorded, by what they decide. -/
theorem acted_of_record {ctx : Context} (op : Op) {e : Event Payload} {decision : Decision} (hs : Sound d st)
    (ctx' : Context) (hrec : record d ctx st decision = .ok st')
    (hd : Decided d ctx' st (op.Exempts st) (op.Asks d ctx' st) (op.replacesExecution d ctx' st = true)
      (op.parksExecution d ctx' st = true) (op.misroutes d ctx' st = true) op.Completes decision.writes)
    (hl : e.misnames st = false →
      Lands d (e.Requests d x st) (e.Returns st) e.Interrupts st.process (decision.writes.candidate st.process)) :
    Acted d x st e st' := by
  obtain ⟨v, hv, hc⟩ := record_ok hrec
  have hwait : st.process.metadata.turnWait.isSome = true → st.process.currentExecution = none := fun hw =>
    have ⟨y, hy⟩ := Option.isSome_iff_exists.1 hw
    (hs.gated y hy).2
  have hprep := prepareWrites_ok hv hwait hd.pointer hd.typed hd.wait hd.tracked fun _ => Op.exempts_not_asks
  have htrails := prepareWrites_trails hv hwait hd.pointer hd.typed hd.wait hd.tracked (fun _ => Op.exempts_not_asks) hs.selected
  have hcommitted := commitWrites_ok hc hprep.tracked
  exact ⟨⟨ctx', op, _, v, hd, hprep, hcommitted⟩, fun hm => moves_of_lands (hl hm) htrails hcommitted⟩

theorem acted_op {op : Op} {ctx : Context} (hs : Sound d st) (h : op.run d ctx st = .ok st') :
    Acted d x st (.engine (.op op ctx)) st' := by
  unfold Op.run at h
  split at h
  · cases h
  cases hd : op.decide d ctx st with
  | error e => rw [hd] at h; cases h
  | ok decision =>
    rw [hd] at h
    exact acted_of_record op hs ctx h (Op.decide_ok hd hs.gated hs.selected hs.recordsKeyed) (Op.decide_lands hd)

/-- A consumed fire lands where its arming leads. -/
theorem lands_fire {ctx : Context} {arming : ExternalArming Payload} {w t : Writes} {e : Event Payload} {returns interrupts : TurnId → Prop}
    (hp : st.process.selectedTurnId = some arming.turnId) (hw : Prelude ctx st.process w)
    (ht : buildServerTransitionWrites d (w.candidate st.process)
      (transitionTarget arming.spec.route arming.transitionTrigger) (ctx.fresh 0) = .ok t)
    (ha : ∀ turnId, arming.spec.route.toTurnId = some turnId →
      e.Requests d x st (.request (some arming.transitionTrigger) turnId)) :
    Lands d (e.Requests d x st) returns interrupts st.process ((mergeWrites w t).candidate st.process) := by
  have htr := buildServerTransitionWrites_ok ht
  have hcand : (mergeWrites w t).candidate st.process = t.candidate (w.candidate st.process) := candidate_merge w t _
  have hsel := htr.selected
  have hcheck := htr.checked
  have hclosed : ∀ toTurnId, (transitionTarget arming.spec.route arming.transitionTrigger).turnId = some toTurnId →
      toTurnId = none → Closes (t.candidate (w.candidate st.process)).lifecycleStatus :=
    fun toTurnId hto => htr.closes (hcheck toTurnId hto) hto
  rw [hcand]
  unfold transitionTarget at hsel hcheck hclosed
  cases hto : arming.spec.route.toTurnId with
  | none =>
    simp only [hto] at hsel hclosed
    exact .ends hsel (.inl (hclosed _ rfl rfl))
  | some turnId =>
    simp only [hto] at hsel hcheck
    rcases follows_of_check (hcheck _ rfl) rfl with hsame | ⟨hnone, -⟩ | ⟨a, hsome, hf, hd⟩
    · exact .stays (hsel.trans (hsame.symm.trans hw.selected))
    · rw [hw.selected, hp] at hnone
      cases hnone
    · rw [hw.selected] at hsome
      exact .follows _ a turnId hsome (ha turnId hto) hf hd hsel

theorem acted_fire {fire : FireInput Payload} {ctx : Context} {generationFor : ExternalArming Payload → String}
    {refState : Option Json → String → Option Json} (hs : Sound d st)
    (h : runFire d x generationFor st ctx refState fire = .ok st') :
    st' = st ∨ Acted d x st (.fire fire ctx generationFor refState) st' := by
  cases ha : fireArming d x generationFor st fire with
  | error e => simp [runFire, decideFireExternalSource, ha, bind, Except.bind] at h
  | ok arming =>
    cases hd : decideFire d ctx refState st arming fire with
    | error e => simp [runFire, decideFireExternalSource, ha, hd, bind, Except.bind] at h
    | ok decision =>
      simp only [runFire, decideFireExternalSource, ha, hd, bind, Except.bind, pure, Except.pure] at h
      cases decision with
      | failed why =>
        cases h
        exact .inl rfl
      | consumed u product =>
        right
        obtain ⟨hp, hdeclared⟩ := resolveArming_some (fireArming_resolved ha)
        obtain ⟨w, t, rfl, hw, ht⟩ := decideFire_consumed hd
        have hreplaces := replaces_target (hw.selected.trans hp) hdeclared (buildServerTransitionWrites_ok ht).checked
        -- an action that takes the same route decides the same
        refine acted_of_record .executeAction hs (actionContext ctx (transitionTarget arming.spec.route
          arming.transitionTrigger)) h (decided_fire hs.gated hw ht (hreplaces _) (hreplaces st.process)) fun _ => ?_
        exact lands_fire hp hw ht fun turnId hto => ⟨arming, turnId, ha, hto, rfl⟩

theorem acted_observe {input : ExternalObservationInput} {ctx : Context} {generationFor : ExternalArming Payload → String}
    (hs : Sound d st) (h : runObservation d x generationFor st ctx input = .ok st') :
    Acted d x st (.observe input ctx generationFor) st' := by
  have hstate : ∀ state, record d ctx st { writes := stateWrites st.process state } = .ok st' →
      Acted d x st (.observe input ctx generationFor) st' := by
    intro state hrec
    refine acted_of_record (.updateRefs state) hs ctx hrec (decideUpdateRefs_ok rfl hs.gated) fun _ => ?_
    exact .stays ((sameMove_state _ _).selected _)
  unfold runObservation at h
  cases hw : decideObserveExternalSource d x generationFor st input with
  | error e => rw [hw] at h; cases h
  | ok w =>
    rw [hw] at h
    replace h : record d ctx st { writes := w } = .ok st' := h
    -- an observation writes the state it reports, or nothing
    have hwrites : ∃ state, w = stateWrites st.process state := by
      unfold decideObserveExternalSource at hw
      split at hw
      · cases hw
      split at hw
      · unfold decideObservation at hw
        split at hw
        · cases hw
        split at hw
        · cases hw
        split at hw
        · cases hw
          exact ⟨none, rfl⟩
        · rename_i state _
          cases hw
          exact ⟨some state, rfl⟩
        · cases hw
      · cases hw
    obtain ⟨state, rfl⟩ := hwrites
    exact hstate state h

/-- What an accepted event did: it acted, or changed at most the leases. -/
theorem acted_of_run {e : Event Payload} (hs : Sound d st) (h : run d x st e = .ok st') :
    (∃ leases, st' = { st with leases }) ∨ Acted d x st e st' := by
  cases e with
  | engine event =>
    cases event with
    | op op ctx => exact .inr (acted_op hs h)
    | leases leases =>
      cases h
      exact .inl ⟨leases, rfl⟩
  | fire fire ctx generationFor refState =>
    rcases acted_fire hs h with rfl | hacted
    · exact .inl ⟨_, rfl⟩
    · exact .inr hacted
  | observe input ctx generationFor => exact .inr (acted_observe hs h)

theorem sound_next (hs : Sound d st) (e : Event Payload) : Sound d (next d x st e) := by
  unfold next
  cases h : run d x st e with
  | error why => exact hs
  | ok st' =>
    rcases acted_of_run hs h with ⟨leases, rfl⟩ | ⟨⟨ctx, op, w, v, hran⟩, -⟩
    · exact hs.leases leases
    · exact hs.step hran

theorem moves_next {e : Event Payload} (hs : Sound d st) (hm : e.misnames st = false) : Moves d x st e (next d x st e) := by
  unfold next
  cases h : run d x st e with
  | error why => exact .refl e
  | ok st' =>
    rcases acted_of_run hs h with ⟨leases, rfl⟩ | hacted
    · exact ⟨fun b hb => ⟨b, .stays hb, .refl⟩, fun hn => .inl hn⟩
    · exact hacted.moves hm

/-! ## The selected turn is one of the graph -/

/-- The turns a process is at are declared: the selected one, and those that were accepted. -/
structure Charted (d : ProcessDefinition) (st : Store) : Prop where
  selected : ∀ a, st.process.selectedTurnId = some a → (d.turns a).isSome = true
  accepted : ∀ k s start rid lease, st.turnStarts.get? k = some s → s.state = .accepted start rid lease →
    (d.turns s.turnId).isSome = true

/-- Empty mapped turns route on to declared turns. -/
theorem declared_of_passes {a b : TurnId} (h : Relation.ReflTransGen (Passes d) a b) (ha : (d.turns a).isSome = true) :
    (d.turns b).isSome = true := by
  induction h with
  | refl => exact ha
  | tail _ hpass ih =>
    obtain ⟨spec, frozen, collected, p, q, -, -, -, -, -, rfl | ⟨-, hd⟩⟩ := hpass
    · exact ih
    · exact hd

/-- The turn of the current record was accepted. -/
theorem Charted.returns {e : Event Payload} {b : TurnId} (hc : Charted d st) (hs : Sound d st) (h : e.Returns st b) :
    (d.turns b).isSome = true := by
  have hrecord : ∀ r, st.currentTurnRecord = some r → (d.turns r.turnId).isSome = true := by
    intro r hr
    obtain ⟨rid, hid, -⟩ := Option.bind_eq_some_iff.1 hr
    obtain ⟨s, r', hcs, -, hr', -, hturn, -⟩ := hs.currentRecord hid
    rw [hr, Option.some.injEq] at hr'
    subst hr'
    obtain ⟨s', start, lease, hcs', hst⟩ := currentTurnRecordId_iff.1 hid
    rw [hcs, Option.some.injEq] at hcs'
    subst hcs'
    rw [hturn]
    exact hc.accepted _ _ _ _ _ (currentStart_row hcs hs.startsKeyed).2 hst
  cases e with
  | engine event =>
    cases event with
    | op op ctx => cases op <;> first | exact h.elim | (obtain ⟨r, hr, rfl⟩ := h; exact hrecord r hr)
    | leases => exact h.elim
  | fire => exact h.elim
  | observe => exact h.elim

theorem Charted.selected_step {e : Event Payload} (hentry : ∀ t ∈ d.entryTurnIds, (d.turns t).isSome = true)
    (hc : Charted d st) (hs : Sound d st) (h : Moves d x st e st') {b : TurnId} (hb : st'.process.selectedTurnId = some b) :
    (d.turns b).isSome = true := by
  obtain ⟨a, ha, hwalk⟩ := h.selected b hb
  refine declared_of_passes hwalk ?_
  cases ha with
  | stays hp => exact hc.selected a hp
  | enters trigger hp hl hd hask => exact hentry a hd
  | follows ask c hp hask hf hd => exact hd
  | returns hr => exact hc.returns hs hr
  | interrupts hi hd => exact hd

theorem Charted.next {e : Event Payload} (hentry : ∀ t ∈ d.entryTurnIds, (d.turns t).isSome = true) (hc : Charted d st)
    (hs : Sound d st) (hm : e.misnames st = false) : Charted d (next d x st e) := by
  refine ⟨fun a ha => hc.selected_step hentry hs (moves_next hs hm) ha, ?_⟩
  unfold External.next
  cases h : run d x st e with
  | error why => exact hc.accepted
  | ok st' =>
    rcases acted_of_run hs h with ⟨leases, rfl⟩ | ⟨⟨ctx, op, w, v, hran⟩, -⟩
    · exact hc.accepted
    · intro k s start rid lease hk hst
      rcases hran.newly_accepted hs.startsKeyed hk hst with hold | ⟨s', -, -, -, -, -, -, hsame, -, -, -, hsel, -⟩
      · exact hc.accepted k s start rid lease hold hst
      · rw [hsame.turnId]
        exact hc.selected _ hsel

theorem charted_of_run {st₀ : Store} {h : Runs.Hist (Event Payload) Rejection}
    (hentry : ∀ t ∈ d.entryTurnIds, (d.turns t).isSome = true) (h0 : Fresh st₀) (hnone : st₀.process.selectedTurnId = none)
    (hr : Runs.Run (Runs.Guard (Step d x) fun st e => e.misnames st = false) st₀ h st) : Sound d st ∧ Charted d st := by
  refine hr.inv (fun st => Sound d st ∧ Charted d st) ⟨sound_fresh h0, fun a ha => ?_, fun k s _ _ _ hk => ?_⟩ ?_
  · rw [hnone] at ha
    cases ha
  · rw [h0.starts] at hk
    cases hk
  · rintro a e os b ⟨hs, hc⟩ ⟨⟨rfl, -⟩, hm⟩
    exact ⟨sound_next hs e, hc.next hentry hs hm⟩

/-- In every store a run reaches, the selected turn is one of the graph, and whatever comes next
moves it along the graph. -/
theorem moves_along_graph {st₀ : Store} {h : Runs.Hist (Event Payload) Rejection}
    (hentry : ∀ t ∈ d.entryTurnIds, (d.turns t).isSome = true) (h0 : Fresh st₀) (hnone : st₀.process.selectedTurnId = none)
    (hr : Runs.Run (Runs.Guard (Step d x) fun st e => e.misnames st = false) st₀ h st) :
    (∀ a, st.process.selectedTurnId = some a → (d.turns a).isSome = true) ∧
      ∀ e, e.misnames st = false → Moves d x st e (next d x st e) := by
  obtain ⟨hs, hc⟩ := charted_of_run hentry h0 hnone hr
  exact ⟨hc.selected, fun e hm => moves_next hs hm⟩

/-! ## A process to run -/

/-- A process that a human reviews, with a gated turn nothing leads to. -/
def maintainedDefinition : ProcessDefinition where
  id := "demo"
  turns turnId :=
    if turnId = "review" then some { turnType := .human }
    else if turnId = "repair" then some { turnType := .automatic, waitFor := true }
    else none
  entryTurnIds := ["review"]
  transitions _ := []

def underReview : List (Event Unit) := [.engine (.op (.startProcess { startTurnId := "review" }) (demoContext "1"))]

/-- The store after the events. -/
def afterEvents (es : List (Event Unit)) : Store := es.foldl (next maintainedDefinition {}) demoFresh

/-- An observation that interrupts the review for the repair. -/
def repairObserved : Event Unit :=
  .engine (.op (.processObservation { expected := (afterEvents underReview).process, interrupt := some "repair" })
    (demoContext "2"))

theorem moves_along_graph_review :
    (∀ a, (afterEvents underReview).process.selectedTurnId = some a → (maintainedDefinition.turns a).isSome = true) ∧
      ∀ e : Event Unit, e.misnames (afterEvents underReview) = false →
        Moves maintainedDefinition {} (afterEvents underReview) e (next maintainedDefinition {} (afterEvents underReview) e) :=
  moves_along_graph (by decide) fresh_demo rfl (Runs.Run.single ⟨⟨rfl, rfl⟩, rfl⟩)

/-- A change of the selected turn that only entries, declared transitions, recoveries and ends explain. -/
def Declares (d : ProcessDefinition) (x : ExternalTurns Payload) (st : Store) (e : Event Payload) (st' : Store) : Prop :=
  st'.process.selectedTurnId ≠ st.process.selectedTurnId →
    (st.process.selectedTurnId = none ∧ st.process.lifecycleStatus = .discovered ∧
      ∃ b ∈ d.entryTurnIds, st'.process.selectedTurnId = some b) ∨
    (∃ ask a b, st.process.selectedTurnId = some a ∧ st'.process.selectedTurnId = some b ∧ e.Requests d x st ask ∧
      Follows d ask a b) ∨
    (∃ b, st'.process.selectedTurnId = some b ∧ e.Returns st b) ∨
    st'.process.selectedTurnId = none ∧ Closes st'.process.lifecycleStatus

/-- An observation interrupts a process for a turn no transition leads to. -/
theorem observation_leaves_graph : ¬ ∀ (d : ProcessDefinition) (x : ExternalTurns Unit) (st₀ st : Store)
    (h : Runs.Hist (Event Unit) Rejection), (∀ t ∈ d.entryTurnIds, (d.turns t).isSome = true) → Fresh st₀ →
    st₀.process.selectedTurnId = none → Runs.Run (Step d x) st₀ h st → ∀ e, Declares d x st e (next d x st e) := by
  intro hall
  have hdeclares := hall maintainedDefinition {} demoFresh _ _ (by decide) fresh_demo rfl
    (Runs.run_play _ _ (fun _ _ => ⟨rfl, rfl⟩) demoFresh underReview) repairObserved
  have hbefore : (afterEvents underReview).process.selectedTurnId = some "review" := by decide +kernel
  have hafter : (next maintainedDefinition {} (afterEvents underReview) repairObserved).process.selectedTurnId =
      some "repair" := by decide +kernel
  unfold Declares at hdeclares
  rw [show List.foldl (next maintainedDefinition {}) demoFresh underReview = afterEvents underReview from rfl, hafter,
    hbefore] at hdeclares
  rcases hdeclares (by decide) with ⟨h, -⟩ | ⟨ask, a, b, -, -, h, -⟩ | ⟨b, -, h⟩ | ⟨h, -⟩
  · cases h
  · exact h
  · exact h
  · cases h

end Leitwerk.External
