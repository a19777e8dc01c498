import Leitwerk.Engine.Sound
/-!
# Where an operation moves its process

A selection follows a transition that is declared on the selected turn for the
request or the outcome behind it. `Lands` says where a decision's writes may
select a turn, `Passes` how an empty mapped turn routes on in the same commit;
`Moves` puts both together for one accepted operation.
-/

namespace Leitwerk.Engine

variable {d : ProcessDefinition} {ctx : Context} {st st' : Store} {op : Op} {p q : Process} {w v base : Writes}
  {ids : FreshIds}

/-! ## Declared steps -/

/-- What asks for a turn: a request with its trigger, or the outcome of the selected turn. -/
inductive Ask where
  | request (trigger : Option String) (turnId : TurnId)
  | outcome (name : String)

/-- Whether a transition is declared for what asks. -/
def Ask.Matches : Ask → TurnTransition → Prop
  | .request trigger turnId, t =>
    t.nextTurnId = some turnId ∧ t.lifecycleStatus = none ∧ matchesTrigger t.trigger trigger = true
  | .outcome name, t => t.trigger = none ∧ (t.outcome = none ∨ t.outcome = some name)

/-- A transition declared on `a` for what asks leads to `b`. -/
def Follows (d : ProcessDefinition) (ask : Ask) (a b : TurnId) : Prop :=
  ∃ t ∈ d.transitions a, ask.Matches t ∧ t.nextTurnId = some b

/-- The statuses a process without a selected turn has. -/
def Closes (status : LifecycleStatus) : Prop := status = .completed ∨ status = .aborted ∨ status = .discovered

/-- An empty mapped turn routes on, by the trigger its collected results name. -/
def Passes (d : ProcessDefinition) (a b : TurnId) : Prop :=
  ∃ (spec : MappedLlmTurnSpec) (frozen : MappedFreezeResult) (collected : MappedCollectResult) (p q : Process),
    getMappedTurnSpec d a = some spec ∧ spec.freezeItems p = .ok frozen ∧ frozen.items = [] ∧
    spec.collectResults q [] = .ok collected ∧ collected.nextTurnId = some b ∧
    (a = b ∨ Follows d (.request (some collected.trigger) b) a b ∧ (d.turns b).isSome = true)

/-- What an accepted selection of a turn rests on. -/
theorem follows_of_check {input : TurnSelectionWritesInput} {turnId : TurnId} (h : checkTurnSelection d p input = .ok ())
    (hto : input.toTurnId = some turnId) :
    p.selectedTurnId = some turnId ∨
      p.selectedTurnId = none ∧ p.lifecycleStatus = .discovered ∧ turnId ∈ d.entryTurnIds ∨
      ∃ a, p.selectedTurnId = some a ∧ Follows d (.request input.trigger turnId) a turnId ∧ (d.turns turnId).isSome = true := by
  unfold checkTurnSelection at h
  simp only [hto] at h
  split at h
  · cases h
  split at h
  · cases h
  split at h
  · rename_i hsame
    exact .inl hsame.symm
  right
  unfold tryTransition at h
  cases hp : p.selectedTurnId with
  | none =>
    simp only [hp] at h
    split at h
    · cases h
    rename_i hdisc
    split at h
    · cases h
    · rename_i hentry
      exact .inl ⟨rfl, not_not.1 hdisc, not_not.1 hentry⟩
  | some a =>
    simp only [hp] at h
    split at h
    · cases h
    split at h
    · cases h
    rename_i hdeclared
    split at h
    · cases h
    rename_i hne
    obtain ⟨t, ht⟩ := List.exists_mem_of_ne_nil _ (by simpa using hne)
    obtain ⟨hmem, hcond⟩ := List.mem_filter.1 ht
    simp only [Bool.and_eq_true, beq_iff_eq, Option.isNone_iff_eq_none] at hcond
    exact .inr ⟨a, rfl, ⟨t, hmem, ⟨hcond.1.2, hcond.1.1, hcond.2⟩, hcond.1.2⟩,
      by simpa [Option.isSome_iff_ne_none] using hdeclared⟩

/-- Selecting no turn takes a status a process without one has. -/
theorem closes_of_check {input : TurnSelectionWritesInput} (h : checkTurnSelection d p input = .ok ())
    (hto : input.toTurnId = none) : Closes (input.targetLifecycleStatus d p) := by
  unfold checkTurnSelection at h
  simp only [hto] at h
  split at h
  · cases h
  split at h
  · cases h
  split at h
  · rename_i hclosed
    exact hclosed
  · cases h

/-- A selection of no turn leaves its status, unless the process had it before. -/
theorem Selects.closes {input : TurnSelectionWritesInput} (h : Selects d p ids input w)
    (hcheck : checkTurnSelection d p input = .ok ()) (hto : input.toTurnId = none) :
    Closes (w.candidate p).lifecycleStatus := by
  have hclosed := closes_of_check hcheck hto
  rcases h.lifecycle with ⟨-, hl⟩ | ⟨s, hs, -⟩
  · rw [hl]
    split
    · rename_i hsame
      exact hsame ▸ hclosed
    · exact hclosed
  · rw [(h.cleared hto).1] at hs
    cases hs

/-- A request for no turn leaves its status, unless the process had it before. -/
theorem Transits.closes {request : ServerTransitionRequest} {toTurnId : Option TurnId} (h : Transits d p ids request w)
    (hcheck : checkTurnSelection d p (request.selection p toTurnId) = .ok ()) (hto : request.turnId = some toTurnId)
    (hnone : toTurnId = none) : Closes (w.candidate p).lifecycleStatus := by
  have hclosed := closes_of_check hcheck hnone
  have htarget : request.targetLifecycle d p = some ((request.selection p toTurnId).targetLifecycleStatus d p) := by
    rw [ServerTransitionRequest.targetLifecycle, hto]
  rcases h.lifecycle with ⟨-, hl⟩ | ⟨s, hs, -⟩
  · rw [hl, htarget]
    dsimp only
    split
    · rename_i hsame
      exact hsame ▸ hclosed
    · exact hclosed
  · -- a start is of the turn that is selected
    cases h.routed with
    | kept h0 => rw [h0] at hs; cases hs
    | cleared h0 => rw [h0] at hs; cases hs
    | reserved r _ _ hsel =>
      rw [h.selected, hto, hnone] at hsel
      cases hsel

/-! ## From a decision to its commit -/

/-- `w` selects a turn the empty mapped turns lead to from the one `base` selects, or none, with
a status that fits. -/
structure Trails (d : ProcessDefinition) (p : Process) (base w : Writes) : Prop where
  selected : ∀ b, (w.candidate p).selectedTurnId = some b →
    ∃ a, (base.candidate p).selectedTurnId = some a ∧ Relation.ReflTransGen (Passes d) a b
  ended : (w.candidate p).selectedTurnId = none → Closes (w.candidate p).lifecycleStatus ∨
    (base.candidate p).selectedTurnId = none ∧ (w.candidate p).lifecycleStatus = (base.candidate p).lifecycleStatus

theorem Trails.refl (d : ProcessDefinition) (p : Process) (w : Writes) : Trails d p w w :=
  ⟨fun b hb => ⟨b, hb, .refl⟩, fun hn => .inr ⟨hn, rfl⟩⟩

/-- Writes that leave the selection, and without one the status. -/
theorem Trails.of_same (h : Trails d p base w) (hs : (v.candidate p).selectedTurnId = (w.candidate p).selectedTurnId)
    (hl : (w.candidate p).selectedTurnId = none → (v.candidate p).lifecycleStatus = (w.candidate p).lifecycleStatus) :
    Trails d p base v := by
  refine ⟨fun b hb => h.selected b (hs ▸ hb), fun hn => ?_⟩
  rw [hs] at hn
  rw [hl hn]
  exact h.ended hn

theorem Trails.of_sameMove (h : Trails d p base w) (hm : SameMove w v) : Trails d p base v :=
  h.of_same (hm.selected p) fun _ => hm.lifecycle p

theorem Trails.defer (h : Trails d p base w) (metadata : Option DecisionMetadata) (waitId : String) :
    Trails d p base (deferTurnWaitStarts d p metadata waitId w) := by
  refine h.of_same (deferKeeps d p metadata waitId w).selected fun hn => ?_
  rcases deferral_cases d p metadata waitId w with ⟨hv, -⟩ | ⟨hv, -⟩ | ⟨start, -, hsel, -, -, hv⟩
  · rw [hv, lifecycle_dropStale]
  · rw [hv]
  · -- only a start of the selected turn is put off
    rw [hn] at hsel
    cases hsel

/-- The route of an empty mapped turn. -/
theorem Trails.route {u routed : Writes} {turnId : TurnId} {spec : MappedLlmTurnSpec} {frozen : MappedFreezeResult} {q : Process}
    (h : Trails d p base u) (hsel : (u.candidate p).selectedTurnId = some turnId)
    (hspec : getMappedTurnSpec d turnId = some spec) (hfreeze : spec.freezeItems q = .ok frozen) (hnil : frozen.items = [])
    (hr : collectAndRoute d (u.candidate p) spec [] ids = .ok routed) : Trails d p base (mergeWrites u routed) := by
  unfold collectAndRoute at hr
  cases hc : spec.collectResults (u.candidate p) [] with
  | error e => rw [hc] at hr; cases hr
  | ok collected =>
    rw [hc] at hr
    replace hr : buildServerTransitionWrites d (u.candidate p)
      { turnId := some collected.nextTurnId
        lifecycleStatus := collected.lifecycleStatus.map TerminalStatus.toLifecycle
        trigger := some collected.trigger, state := some collected.state } ids = .ok routed := hr
    have ht := buildServerTransitionWrites_ok hr
    have hcand : (mergeWrites u routed).candidate p = routed.candidate (u.candidate p) := candidate_merge u routed p
    have hselected : ((mergeWrites u routed).candidate p).selectedTurnId = collected.nextTurnId := by
      rw [hcand]
      exact ht.selected
    have hcheck := ht.checked collected.nextTurnId rfl
    obtain ⟨a, ha, hwalk⟩ := h.selected turnId hsel
    refine ⟨fun b hb => ⟨a, ha, hwalk.tail ⟨spec, frozen, collected, q, u.candidate p, hspec, hfreeze, hnil, hc, ?_, ?_⟩⟩,
      fun hn => .inl ?_⟩
    · rw [← hselected]
      exact hb
    · rw [hselected] at hb
      rcases follows_of_check hcheck hb with hsame | ⟨hnone, -⟩ | ⟨x, hx, hfollows, hdeclared⟩
      · rw [hsel] at hsame
        exact .inl (Option.some.inj hsame)
      · rw [hsel] at hnone
        cases hnone
      · rw [hsel] at hx
        cases hx
        exact .inr ⟨hfollows, hdeclared⟩
    · rw [hcand]
      exact ht.closes hcheck rfl (hselected ▸ hn)

theorem Trails.mapped (h : Trails d st.process base w) (hv : planMappedTurnEntries d ctx st w = .ok v) :
    Trails d st.process base v := by
  refine planMappedEntries_inv (fun _ w => Trails d st.process base w) (Trails d st.process base) ?_ ?_ ?_ ?_ h hv
  · intro _ w hw
    exact hw.defer none ctx.waitId
  · intro b w hw
    exact hw.of_sameMove (sameMove_leaveActiveRun _ _ _ _)
  · intro b w start spec runId frozen first rest hw _ _ _
    -- giving the start its item leaves the process as the frozen run did
    have hf := hw.of_sameMove (sameMove_freezeRun st.activeMappedRun b (w.candidate st.process) start.turnId runId frozen w)
    exact ⟨hf.selected, hf.ended⟩
  · intro b w start spec runId frozen k routed hw he hf hnil hr
    obtain ⟨-, -, -, -, -, hsel, hspec⟩ := mappedEntry_some he
    have hm := sameMove_freezeRun st.activeMappedRun b (w.candidate st.process) start.turnId runId frozen w
    have hu := hw.of_sameMove hm
    exact Trails.route (u := (freezeRun st.activeMappedRun b (w.candidate st.process) start.turnId runId frozen w).removeCreate
      (entersTurn (w.candidate st.process).selectedTurnId)) ⟨hu.selected, hu.ended⟩ ((hm.selected _).trans hsel) hspec hf hnil hr

/-- Model preparation changes the status only with an LLM start. -/
theorem Trails.model {metadata : Option DecisionMetadata} (h : Trails d p base w)
    (hllm : (w.candidate p).selectedTurnId = none → w.llmCreates = [])
    (hv : runModelPreparation d ctx p metadata w = .ok v) : Trails d p base v := by
  have hstarts : ∀ {s}, (w.candidate p).selectedTurnId = none → .create s ∈ w.turnStartWrites → s.turnType ≠ .llm := by
    intro s hn hs hty
    have hmem : s ∈ w.llmCreates := mem_llmCreates.2 ⟨mem_creates.2 hs, hty⟩
    rw [hllm hn] at hmem
    cases hmem
  have hflight : ∀ {u : Writes}, SameMove w u → Preflighted ctx p u v → Trails d p base v := by
    intro u hu huv
    have htu := h.of_sameMove hu
    cases huv with
    | skipped hp hv => exact hv ▸ htu
    | prepared pf hp hv =>
      refine htu.of_same ((prepareTurnStarts_ok hv).1.selected p) fun hn => ?_
      rw [hu.selected] at hn
      rw [hu.starts, prepareTurnStarts_none fun s hs => hstarts hn hs] at hv
      cases hv
      rfl
  cases runModelPreparation_ok hv with
  | kept hv => exact hflight .refl hv
  | selected id provenance hv => exact hflight (.modelSelection p id provenance) hv
  | parked s hs summary hv =>
    subst hv
    refine h.of_same (selectedTurnId_applyLifecycle _) fun hn => ?_
    -- a parked start is an LLM start
    obtain ⟨hmem, hty⟩ := mem_of_find hs
    exact absurd (beq_iff_eq.1 hty) (hstarts hn (mem_creates.1 hmem))

theorem Pointer.no_llm {exempt asked : TurnId → Prop} (h : Pointer exempt asked p w)
    (hp : p.currentExecution.isSome = true → p.selectedTurnId.isSome = true) (hn : (w.candidate p).selectedTurnId = none) :
    w.llmCreates = [] := by
  cases h with
  | kept hs _ => rw [Writes.llmCreates, hs]; rfl
  | cleared hs _ => exact hs
  | reserved s _ _ _ hsel _ =>
    rcases hsel with hsel | ⟨-, hcur, -, hsame⟩
    · rw [hn] at hsel
      cases hsel
    · have := hp hcur
      rw [← hsame, hn] at this
      cases this

/-- Where the writes that `record` commits leave the selection of the decision's. -/
theorem prepareWrites_trails {decision : Decision} {exempt asked : TurnId → Prop} (hv : prepareWrites d ctx st decision = .ok v)
    (hp : st.process.metadata.turnWait.isSome = true → st.process.currentExecution = none)
    (hpt : Pointer exempt asked st.process decision.writes) (hty : Typed d decision.writes)
    (hw : WaitOk d st.process decision.writes) (ht : Tracked st.process decision.writes)
    (hex : ∀ t, exempt t → ¬ asked t) (hsel : st.Selected) : Trails d st.process decision.writes v := by
  obtain ⟨w₂, w₄, hm, hr, rfl⟩ := prepareWrites_steps hv
  have h₁ := prepared_first hp hpt hty hw ht hex decision.metadata ctx.waitId
  have t₁ := (Trails.refl d st.process decision.writes).defer decision.metadata ctx.waitId
  have h₂ := (h₁.mapped hm).defer decision.metadata ctx.waitId
  have t₂ := (t₁.mapped hm).defer decision.metadata ctx.waitId
  have t₄ := t₂.model (h₂.pointer.no_llm hsel) hr
  exact ⟨t₄.selected, t₄.ended⟩

end Leitwerk.Engine
