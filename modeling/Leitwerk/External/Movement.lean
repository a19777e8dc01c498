import Leitwerk.Engine.Decisions.Moving
import Leitwerk.External.Fire
/-!
# What a consumed fire decides

A fire writes effects and a settled record before its transition (`Prelude`), and
decides with both what an action would that replaces the execution.
-/

namespace Leitwerk.External

open Engine

variable {Payload : Type} {d : ProcessDefinition} {x : ExternalTurns Payload} {generationFor : ExternalArming Payload → String}
  {ctx : Context} {refState : Option Json → String → Option Json} {st st' : Store} {arming : ExternalArming Payload}
  {fire : FireInput Payload} {w : Writes}

/-! ## What a fire writes -/

/-- The writes of a fire before its transition: effects and a settled record. -/
structure Prelude (ctx : Context) (p : Process) (w : Writes) : Prop where
  selected : (w.candidate p).selectedTurnId = p.selectedTurnId
  current : (w.candidate p).currentExecution = p.currentExecution
  starts : w.turnStartWrites = []
  admission : w.waitForAdmission = none
  wait : (w.candidate p).metadata.turnWait = p.metadata.turnWait ∨ (w.candidate p).metadata.turnWait = none
  tracked : Tracked p w
  logs : Logs ctx w

theorem effects_state (p : Process) (state : Option Json) : Effects p (stateWrites p state) where
  selected := (sameMove_state p state).selected
  current := (sameMove_state p state).current
  starts := (sameMove_state p state).starts
  records := (sameMove_state p state).records
  admission := (sameMove_state p state).admission
  wait := .inl (congrArg _ ((sameMove_state p state).metadata p))
  tracked := tracked_state p p state

/-- Effects compare no state, so it does not matter that a new one was written before. -/
theorem appendProcessEffects_state (p : Process) (state : Option Json) (effects : ProcessPatchEffect) :
    appendProcessEffects p p.metadata (stateWrites p state) effects =
      appendProcessEffects ((stateWrites p state).candidate p) p.metadata (stateWrites p state) effects := by
  have hcand : ∃ s, (stateWrites p state).candidate p = { p with stateJson := s } := by
    cases state with
    | none => exact ⟨p.stateJson, rfl⟩
    | some state =>
      unfold stateWrites applyProcessPatchField
      dsimp only
      split
      · exact ⟨p.stateJson, rfl⟩
      · exact ⟨some state, rfl⟩
  obtain ⟨s, hs⟩ := hcand
  rw [hs]
  rfl

theorem effects_fire {projects : Json} {input event : Payload}
    (h : buildExternalSourceEffectWrites st.process projects arming input event = .ok w) : Effects st.process w := by
  unfold buildExternalSourceEffectWrites at h
  split at h
  · cases h
    exact effects_empty _
  split at h
  · cases h
  rename_i plan _
  split at h
  · cases h
  · cases h
    rw [appendProcessEffects_state]
    exact (effects_state st.process plan.state).append plan.effects (.inl rfl)

theorem sameMove_publish (p : Process) (w : Writes) (published : Option PublishedInput) :
    SameMove {} (publishWrites refState p w published) ∧ Tracked p (publishWrites refState p w published) := by
  unfold publishWrites
  split
  · exact ⟨.refl, tracked_empty _ rfl rfl⟩
  · dsimp only
    split
    · exact ⟨.apply quiet_stateJson _, (tracked_empty _ rfl rfl).apply _⟩
    · exact ⟨.refl, tracked_empty _ rfl rfl⟩

theorem prelude_fire {published : Option PublishedInput} (he : Effects st.process w) :
    Prelude ctx st.process (mergeWrites w
      { publishWrites refState st.process w published with turnRecordWrites := fireRecordWrites d ctx arming published }) := by
  obtain ⟨hm, ht⟩ : SameMove {} (publishWrites refState st.process w published) ∧
      Tracked st.process (publishWrites refState st.process w published) := sameMove_publish _ _ _
  generalize publishWrites refState st.process w published = v at hm ht
  have hcand : ∀ q, (mergeWrites w { v with turnRecordWrites := fireRecordWrites d ctx arming published }).candidate q =
      v.candidate (w.candidate q) := fun q => candidate_merge w _ q
  refine ⟨?_, ?_, ?_, ?_, ?_, he.tracked.merge (.inl ht), ?_⟩
  · rw [hcand, hm.selected]
    exact he.selected _
  · rw [hcand, hm.current]
    exact he.current _
  · rw [turnStartWrites_merge, he.starts]
    exact hm.starts
  · rw [waitForAdmission_merge, he.admission]
    exact (congrArg (·.or none) hm.admission)
  · rw [hcand, hm.metadata]
    exact he.wait
  · intro y hy
    rw [turnRecordWrites_merge, he.records, List.nil_append] at hy
    replace hy : y ∈ fireRecordWrites d ctx arming published := hy
    unfold fireRecordWrites at hy
    split at hy
    · cases hy
    · rw [List.mem_singleton.1 hy]
      exact ⟨_, rfl, rfl, rfl, rfl, rfl⟩

/-- What a transition makes of the execution, it makes after the writes of a fire, too. -/
theorem Prelude.pointer {t : Writes} {exempt asked : TurnId → Prop} (h : Prelude ctx p w)
    (ht : Pointer exempt asked (w.candidate p) t) : Pointer exempt asked p (mergeWrites w t) := by
  have hcand : (mergeWrites w t).candidate p = t.candidate (w.candidate p) := candidate_merge w t p
  have hc : (mergeWrites w t).creates = t.creates := creates_of_starts (by rw [turnStartWrites_merge, h.starts]; rfl)
  have hllm : (mergeWrites w t).llmCreates = t.llmCreates := llmCreates_of_creates hc
  cases ht with
  | kept hs hx => exact .kept (hc.trans hs) (by rw [hcand, hx, h.current])
  | cleared hs hx => exact .cleared (hllm.trans hs) (by rw [hcand, hx])
  | reserved s hs hl hx hsel hst =>
    refine .reserved s (hc ▸ hs) (hllm.trans hl) (by rw [hcand, hx]) ?_ (by rw [hcand]; exact hst)
    rw [hcand, hc]
    rw [h.current, h.selected] at hsel
    exact hsel

/-- The target of an arming replaces the execution: a declared turn, or none. -/
theorem replaces_target {route : ExternalRoute} {trigger : String} {a : TurnId} (hp : p.selectedTurnId = some a)
    (hd : (d.turns a).isSome = true)
    (hcheck : ∀ toTurnId, (transitionTarget route trigger).turnId = some toTurnId →
      checkTurnSelection d p ((transitionTarget route trigger).selection p toTurnId) = .ok ()) (q : Process) :
    (transitionTarget route trigger).replacesExecution d q = true := by
  unfold transitionTarget at hcheck ⊢
  cases hto : route.toTurnId with
  | none =>
    simp only [ServerTransitionRequest.replacesExecution, TurnSelectionWritesInput.replacesExecution,
      ServerTransitionRequest.selection]
  | some turnId =>
    simp only [hto] at hcheck
    have hdeclared := declared_of_check (hcheck _ rfl) rfl hp hd
    exact replaces_of_derived rfl rfl hdeclared

/-- The action of a process that would take the route of a fire. -/
def actionContext (ctx : Context) (request : ServerTransitionRequest) : Context :=
  { ctx with planProcessAction := fun _ => .ok { plan := { transitionRequest := some request } } }

/-- A consumed fire decides what an action would that replaces the execution. -/
theorem decided_fire {request : ServerTransitionRequest} {t : Writes} {exempt asked : TurnId → Prop}
    {replaces parks misroutes : Prop} {completes : String → Prop} (hg : Gated d st.process) (h : Prelude ctx st.process w)
    (ht : buildServerTransitionWrites d (w.candidate st.process) request (ctx.fresh 0) = .ok t)
    (hrep : request.replacesExecution d (w.candidate st.process) = true) (hr : replaces) :
    Decided d (actionContext ctx request) st exempt asked replaces parks misroutes completes (mergeWrites w t) := by
  have htr := buildServerTransitionWrites_ok ht
  have hcand : (mergeWrites w t).candidate st.process = t.candidate (w.candidate st.process) := candidate_merge w t _
  have hstarts : (mergeWrites w t).turnStartWrites = t.turnStartWrites := by rw [turnStartWrites_merge, h.starts]; rfl
  have hc : (mergeWrites w t).creates = t.creates := creates_of_starts hstarts
  have hadm : (mergeWrites w t).waitForAdmission = none := by
    rw [waitForAdmission_merge, htr.routes.admission, h.admission]
    rfl
  refine ⟨h.pointer ((pointer_of_routed htr.routed).mono (fun _ h => h) fun _ => False.elim), ?_, ?_, h.tracked.merge (.inr htr.routes.tracked), ?_⟩
  · unfold Typed
    rw [hc]
    exact typed_of_routed htr.routed
  · refine ⟨fun x hx => ?_, fun hx => ?_, fun s hs ha => ?_⟩
    · rw [hcand, htr.metadata] at hx
      rcases h.wait with hsame | hnone
      · exact (hg x (hsame.symm.trans hx)).1
      · rw [hnone] at hx
        cases hx
    · rw [hcand, htr.metadata] at hx
      rcases h.wait with hsame | hnone
      · rwa [hsame] at hx
      · rw [hnone] at hx
        cases hx
    · rw [startAdmitted_reserved (htr.routes.starts s (hc ▸ hs)) hadm] at ha
      cases ha
  · refine .leaves ?_ ?_ (.inr hr) fun h0 => ?_
    · rw [Writes.casWrites, hstarts]
      exact cas_of_routed htr.routed
    · rw [Logs, turnRecordWrites_merge, htr.routes.records, List.append_nil]
      exact h.logs
    · rw [hcand]
      rcases htr.replaced hrep with ⟨-, hx⟩ | ⟨s, hs, -⟩
      · exact hx
      · rw [hc, Writes.creates, hs] at h0
        cases h0

theorem resolveArming_some {armingId : String} (h : resolveArming d x st armingId = some arming) :
    st.process.selectedTurnId = some arming.turnId ∧ (d.turns arming.turnId).isSome = true := by
  have hmem := List.mem_of_find?_eq_some h
  unfold listArmingsForProcess selectedWaitingTurn at hmem
  split at hmem
  · cases hmem
  rename_i turnId hsel
  split at hsel
  · split at hmem
    · cases hmem
    rename_i turn hturn
    split at hmem
    · obtain ⟨i, hi, rfl⟩ := List.mem_mapIdx.1 hmem
      exact ⟨hsel, Option.isSome_of_mem hturn⟩
    · obtain ⟨spec, -, rfl⟩ := List.mem_map.1 hmem
      exact ⟨hsel, Option.isSome_of_mem hturn⟩
  · cases hsel

theorem fireArming_resolved (h : fireArming d x generationFor st fire = .ok arming) :
    resolveArming d x st fire.armingId = some arming := by
  unfold fireArming at h
  split at h
  · cases h
  · cases h
  · rename_i a generation hr hg
    split at h
    · cases h
      exact hr
    · cases h
  · rename_i a hr hg
    cases h
    exact hr

/-- A consumed fire, by its arming, what it writes before its transition, and the transition. -/
theorem decideFire_consumed {u : Writes} {product : Option String}
    (h : decideFire d ctx refState st arming fire = .ok (.consumed u product)) :
    ∃ w t, u = mergeWrites w t ∧ Prelude ctx st.process w ∧
      buildServerTransitionWrites d (w.candidate st.process) (transitionTarget arming.spec.route arming.transitionTrigger)
        (ctx.fresh 0) = .ok t := by
  unfold decideFire at h
  dsimp only at h
  split at h
  · cases h
  split at h
  · cases h
  split at h
  · cases h
  rename_i effectWrites he
  split at h
  · cases h
  rename_i published hp
  set w := mergeWrites effectWrites
    { publishWrites refState st.process effectWrites published with
      turnRecordWrites := fireRecordWrites d ctx arming published } with hw
  cases ht : buildServerTransitionWrites d (w.candidate st.process)
      (transitionTarget arming.spec.route arming.transitionTrigger) (ctx.fresh 0) with
  | error e => rw [ht] at h; cases h
  | ok t =>
    rw [ht] at h
    cases h
    exact ⟨w, t, rfl, prelude_fire (effects_fire he), ht⟩

end Leitwerk.External
