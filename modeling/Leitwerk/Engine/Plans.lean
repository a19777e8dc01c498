import Mathlib.Logic.Relation
import Leitwerk.Engine.Pointer
/-!
# What a plan's writes do

A plan of the definition's code is lifecycle effects and at most one transition
request. The effects touch neither the selection nor the execution; the request
selects a turn (`Selects`) or only sets the lifecycle status. `Planned` says what
their merged writes leave of a process.
-/

namespace Leitwerk.Engine

variable {d : ProcessDefinition} {p : Process} {w v : Writes} {ids : FreshIds}

/-! ## Effects -/

/-- What lifecycle effects leave alone. -/
structure Effects (p : Process) (w : Writes) : Prop where
  selected : ∀ q, (w.candidate q).selectedTurnId = q.selectedTurnId
  current : ∀ q, (w.candidate q).currentExecution = q.currentExecution
  starts : w.turnStartWrites = []
  records : w.turnRecordWrites = []
  admission : w.waitForAdmission = none
  wait : (w.candidate p).metadata.turnWait = p.metadata.turnWait ∨ (w.candidate p).metadata.turnWait = none
  tracked : Tracked p w

/-- The lifecycle status a list of effects leads to. -/
def effectsLifecycle (start : LifecycleStatus) (effects : List ProcessPatchEffect) : LifecycleStatus :=
  effects.foldl (fun status e => e.lifecycleStatus.getD status) start

theorem effects_empty (p : Process) : Effects p {} where
  selected _ := rfl
  current _ := rfl
  starts := rfl
  records := rfl
  admission := rfl
  wait := .inl rfl
  tracked := tracked_empty _ rfl rfl

/-- A patched field that is neither the selection, the execution nor the metadata. -/
theorem Effects.apply {α : Type} {f : Field α} (h : Effects p w) (q : Process) (x : α)
    (hs : ∀ y r, (f.set y r).selectedTurnId = r.selectedTurnId)
    (hx : ∀ y r, (f.set y r).currentExecution = r.currentExecution)
    (hm : ∀ y r, (f.set y r).metadata = r.metadata) : Effects p (applyProcessPatchField w q f x) where
  selected r := (apply_other (·.selectedTurnId) hs x).trans (h.selected r)
  current r := (apply_other (·.currentExecution) hx x).trans (h.current r)
  starts := (turnStartWrites_apply _ _ _ _).trans h.starts
  records := (turnRecordWrites_apply _ _ _ _).trans h.records
  admission := (waitForAdmission_apply _ _ _ _).trans h.admission
  wait := by rw [apply_other (·.metadata) hm x]; exact h.wait
  tracked := h.tracked.apply x

theorem Effects.applyField {α : Type} {f : Field α} (h : Effects p w) (q : Process) (x : Option α)
    (hs : ∀ y r, (f.set y r).selectedTurnId = r.selectedTurnId)
    (hx : ∀ y r, (f.set y r).currentExecution = r.currentExecution)
    (hm : ∀ y r, (f.set y r).metadata = r.metadata) : Effects p (applyEffectField q w f x) := by
  cases x with
  | none => exact h
  | some x => exact h.apply q x hs hx hm

/-- Effects on the process the writes leave so far; `seen` is the metadata a handler worked from. -/
theorem Effects.append (h : Effects p w) (effects : ProcessPatchEffect) {seen : Metadata}
    (hseen : seen.turnWait = p.metadata.turnWait ∨ seen.turnWait = none) :
    Effects p (appendProcessEffects (w.candidate p) seen w effects) := by
  unfold appendProcessEffects
  have h₁ := h.applyField (f := .lifecycleStatus) (w.candidate p) effects.lifecycleStatus
    (fun _ _ => rfl) (fun _ _ => rfl) (fun _ _ => rfl)
  have h₂ := h₁.applyField (f := .planRevision) (w.candidate p) effects.planRevision
    (fun _ _ => rfl) (fun _ _ => rfl) (fun _ _ => rfl)
  have h₃ := h₂.applyField (f := .externalId) (w.candidate p) effects.externalId
    (fun _ _ => rfl) (fun _ _ => rfl) (fun _ _ => rfl)
  have h₄ := h₃.applyField (f := .externalUrl) (w.candidate p) effects.externalUrl
    (fun _ _ => rfl) (fun _ _ => rfl) (fun _ _ => rfl)
  cases hm : effects.metadata with
  | none => exact h₄
  | some e =>
    -- the metadata is compared with what the writes held before these effects
    have hwait : (e.rewrite seen).turnWait = p.metadata.turnWait ∨ (e.rewrite seen).turnWait = none := by
      rcases e.scheduling seen with he | he
      · rw [he]; exact hseen
      · exact .inr he
    refine ⟨fun r => (selectedTurnId_applyMetadata _).trans (h₄.selected r),
      fun r => (currentExecution_applyMetadata _).trans (h₄.current r), ?_, ?_, ?_, ?_, h₄.tracked.apply _⟩
    · exact (turnStartWrites_apply _ _ _ _).trans h₄.starts
    · exact (turnRecordWrites_apply _ _ _ _).trans h₄.records
    · exact (waitForAdmission_apply _ _ _ _).trans h₄.admission
    · have hsame : ∀ (v : Writes), (v.candidate p).metadata = (w.candidate p).metadata →
          ((applyProcessPatchField v (w.candidate p) .metadata (e.rewrite seen)).candidate p).metadata = e.rewrite seen :=
        fun v hv => get_apply (f := Field.metadata) (p := p) (q := w.candidate p) hv _
      have hmeta : ∀ {α : Type} (f : Field α) (v : Writes) (x : Option α),
          (∀ y r, (f.set y r).metadata = r.metadata) →
          ((applyEffectField (w.candidate p) v f x).candidate p).metadata = (v.candidate p).metadata := by
        intro α f v x hf
        cases x with
        | none => rfl
        | some x => exact apply_other (·.metadata) hf x
      refine (hwait.imp ?_ ?_) <;> intro he <;> rw [← he]
      all_goals
        refine congrArg Metadata.turnWait (hsame _ ?_)
        rw [hmeta .externalUrl _ _ fun _ _ => rfl, hmeta .externalId _ _ fun _ _ => rfl,
          hmeta .planRevision _ _ fun _ _ => rfl, hmeta .lifecycleStatus _ _ fun _ _ => rfl]

theorem lifecycle_append (w : Writes) (effects : ProcessPatchEffect) (seen : Metadata) :
    ((appendProcessEffects (w.candidate p) seen w effects).candidate p).lifecycleStatus =
      effects.lifecycleStatus.getD (w.candidate p).lifecycleStatus := by
  have hkeep : ∀ {α : Type} (f : Field α) (v : Writes) (x : Option α),
      (∀ y r, (f.set y r).lifecycleStatus = r.lifecycleStatus) →
      ((applyEffectField (w.candidate p) v f x).candidate p).lifecycleStatus = (v.candidate p).lifecycleStatus := by
    intro α f v x hf
    cases x with
    | none => rfl
    | some x => exact apply_other (·.lifecycleStatus) hf x
  unfold appendProcessEffects
  rw [hkeep .metadata _ _ fun _ _ => rfl, hkeep .externalUrl _ _ fun _ _ => rfl, hkeep .externalId _ _ fun _ _ => rfl,
    hkeep .planRevision _ _ fun _ _ => rfl]
  cases effects.lifecycleStatus with
  | none => rfl
  | some x => exact get_apply (f := Field.lifecycleStatus) (p := p) (q := w.candidate p) rfl x

theorem effects_appendAll (h : Effects p w) (effects : List ProcessPatchEffect) :
    Effects p (appendLifecycleEffects p w effects) ∧
      ((appendLifecycleEffects p w effects).candidate p).lifecycleStatus =
        effectsLifecycle (w.candidate p).lifecycleStatus effects := by
  induction effects generalizing w with
  | nil => exact ⟨h, rfl⟩
  | cons e rest ih =>
    have := ih (h.append e (.inl rfl))
    rw [lifecycle_append] at this
    exact this

/-! ## A transition request -/

/-- Whether a request replaces or clears the execution of the process. -/
def ServerTransitionRequest.replacesExecution (d : ProcessDefinition) (p : Process) (request : ServerTransitionRequest) :
    Bool :=
  match request.turnId with
  | some toTurnId => (request.selection p toTurnId).replacesExecution d p
  | none => false

/-- The lifecycle status a request asks for. -/
def ServerTransitionRequest.targetLifecycle (d : ProcessDefinition) (p : Process) (request : ServerTransitionRequest) :
    Option LifecycleStatus :=
  match request.turnId with
  | some toTurnId => some ((request.selection p toTurnId).targetLifecycleStatus d p)
  | none => request.lifecycleStatus

/-- `b` is `a`, or the definition leads from `a` to it: along declared transitions, or to no turn. -/
def Reach (d : ProcessDefinition) (a b : Option TurnId) : Prop :=
  b = none ∨ ∃ t u, a = some t ∧ b = some u ∧
    Relation.ReflTransGen (fun x y => ∃ tr ∈ d.transitions x, tr.nextTurnId = some y) t u

theorem Reach.refl (d : ProcessDefinition) (a : Option TurnId) : Reach d a a := by
  cases a with
  | none => exact .inl rfl
  | some t => exact .inr ⟨t, t, rfl, rfl, .refl⟩

theorem Reach.trans {a b c : Option TurnId} (h : Reach d a b) (h' : Reach d b c) : Reach d a c := by
  rcases h' with rfl | ⟨t, u, rfl, rfl, htu⟩
  · exact .inl rfl
  · rcases h with hb | ⟨x, y, rfl, hy, hxy⟩
    · cases hb
    · cases hy
      exact .inr ⟨x, u, rfl, rfl, hxy.trans htu⟩

/-- A turn selection that was checked follows a declared transition, from any turn. -/
theorem reach_of_check {input : TurnSelectionWritesInput} (h : checkTurnSelection d p input = .ok ())
    (hp : p.selectedTurnId.isSome = true) : Reach d p.selectedTurnId input.toTurnId := by
  unfold checkTurnSelection at h
  dsimp only at h
  split at h
  · cases h
  split at h
  · cases h
  split at h
  · rename_i hto
    exact .inl hto
  · rename_i turnId hto
    split at h
    · rename_i hsame
      rw [hto, hsame]
      exact Reach.refl d _
    · obtain ⟨t, ht⟩ := Option.isSome_iff_exists.1 hp
      rw [ht] at h ⊢
      unfold tryTransition at h
      dsimp only at h
      split at h
      · cases h
      split at h
      · cases h
      split at h
      · cases h
      · -- one of the transitions of the selected turn leads to the target
        rename_i hne
        obtain ⟨tr, htr⟩ := List.exists_mem_of_ne_nil _ (by simpa using hne)
        obtain ⟨hmem, hcond⟩ := List.mem_filter.1 htr
        simp only [Bool.and_eq_true, beq_iff_eq] at hcond
        exact .inr ⟨t, turnId, rfl, hto, .single ⟨tr, hmem, hcond.1.2⟩⟩

/-- What the writes of an accepted request do; a lifecycle status the process has already is
not among them. -/
structure Transits (d : ProcessDefinition) (p : Process) (ids : FreshIds) (request : ServerTransitionRequest)
    (w : Writes) : Prop where
  selected : (w.candidate p).selectedTurnId = request.turnId.getD p.selectedTurnId
  checked : ∀ toTurnId, request.turnId = some toTurnId → checkTurnSelection d p (request.selection p toTurnId) = .ok ()
  routes : Routes p ids w
  routed : Routed d False p w
  kept : request.replacesExecution d p = false → w.turnStartWrites = [] ∧
    (w.candidate p).currentExecution = p.currentExecution
  replaced : request.replacesExecution d p = true →
    w.turnStartWrites = [] ∧ (w.candidate p).currentExecution = none ∨
      ∃ s, w.turnStartWrites = [.create s] ∧ (w.candidate p).currentExecution = some s.id
  metadata : ∀ q, (w.candidate q).metadata = q.metadata
  lifecycle : (∀ s, w.turnStartWrites = [.create s] → s.turnType = .automatic) ∧
      (∀ q, (w.candidate q).lifecycleStatus = match request.targetLifecycle d p with
        | some target => if target = p.lifecycleStatus then q.lifecycleStatus else target
        | none => q.lifecycleStatus) ∨
    ∃ s, w.turnStartWrites = [.create s] ∧ s.begins = false ∧
      (p.lifecycleStatus ≠ .error → ∀ q, (w.candidate q).lifecycleStatus = .error)

/-- The writes of a changed state move nothing. -/
theorem sameMove_state (p : Process) (state : Option Json) : SameMove {} (stateWrites p state) := by
  cases state with
  | none => exact .refl
  | some state => exact .apply quiet_stateJson _

theorem tracked_state (p q : Process) (state : Option Json) : Tracked q (stateWrites p state) := by
  cases state with
  | none => exact tracked_empty _ rfl rfl
  | some state => exact (tracked_empty _ rfl rfl).apply _

theorem patch_state (p : Process) (state : Option Json) :
    (stateWrites p state).processPatch.lifecycleStatus = none := by
  cases state with
  | none => rfl
  | some state =>
    unfold stateWrites applyProcessPatchField
    dsimp only
    split <;> rfl

theorem Routes.of_sameMove (h : Routes p ids w) (hm : SameMove w v) (ht : Tracked p v) : Routes p ids v where
  starts := by rw [hm.creates]; exact h.starts
  records := hm.records.trans h.records
  admission := hm.admission.trans h.admission
  wait := by rw [hm.metadata]; exact h.wait
  tracked := ht

/-- A request that only sets the lifecycle status, or nothing. -/
theorem transits_status {request : ServerTransitionRequest} (hto : request.turnId = none) (hm : SameMove {} w)
    (ht : Tracked p w) (hp : w.processPatch.lifecycleStatus = none) :
    Transits d p ids request (match request.lifecycleStatus with
      | some lifecycleStatus => applyProcessPatchField w p .lifecycleStatus lifecycleStatus
      | none => w) := by
  have hkeep : request.replacesExecution d p = false := by rw [ServerTransitionRequest.replacesExecution, hto]
  have htarget : request.targetLifecycle d p = request.lifecycleStatus := by
    rw [ServerTransitionRequest.targetLifecycle, hto]
  cases hl : request.lifecycleStatus with
  | none =>
    refine ⟨?_, by simp [hto], ⟨reserved_of_no_starts hm.starts, hm.records, hm.admission, .inl (congrArg _ (hm.metadata p)), ht⟩,
      .kept hm.starts (hm.current p), fun _ => ⟨hm.starts, hm.current p⟩, fun hk => absurd hk (by simp [hkeep]),
      hm.metadata, .inl ⟨fun s h => absurd (hm.starts.symm.trans h) (by simp), fun q => ?_⟩⟩
    · rw [hto]
      exact hm.selected p
    · rw [htarget, hl]
      exact hm.lifecycle q
  | some status =>
    have hs : (applyProcessPatchField w p .lifecycleStatus status).turnStartWrites = [] := by
      rw [turnStartWrites_apply]
      exact hm.starts
    have hx : ((applyProcessPatchField w p .lifecycleStatus status).candidate p).currentExecution = p.currentExecution := by
      rw [currentExecution_applyLifecycle]
      exact hm.current p
    refine ⟨?_, by simp [hto], ⟨reserved_of_no_starts hs, ?_, ?_, .inl ?_, ht.apply _⟩, .kept hs hx, fun _ => ⟨hs, hx⟩,
      fun hk => absurd hk (by simp [hkeep]), fun q => ?_, .inl ⟨fun s h => absurd (hs.symm.trans h) (by simp), fun q => ?_⟩⟩
    · rw [selectedTurnId_applyLifecycle, hto]
      exact hm.selected p
    · rw [turnRecordWrites_apply]
      exact hm.records
    · rw [waitForAdmission_apply]
      exact hm.admission
    · rw [metadata_applyLifecycle]
      exact congrArg _ (hm.metadata p)
    · rw [metadata_applyLifecycle]
      exact hm.metadata q
    · rw [htarget, hl]
      exact lifecycle_apply hp p q status

/-- A request that selects a turn moves the process as its selection does. -/
theorem transits_selection {request : ServerTransitionRequest} {toTurnId : Option TurnId} {selection : Writes}
    (hto : request.turnId = some toTurnId) (hcheck : checkTurnSelection d p (request.selection p toTurnId) = .ok ())
    (hsel : Selects d p ids (request.selection p toTurnId) selection) :
    Transits d p ids request (mergeWrites selection (stateWrites p request.state)) := by
  have hm : SameMove selection (mergeWrites selection (stateWrites p request.state)) :=
    SameMove.merge (sameMove_state p request.state)
  have hr : request.replacesExecution d p = (request.selection p toTurnId).replacesExecution d p := by
    rw [ServerTransitionRequest.replacesExecution, hto]
  refine ⟨?_, ?_, ?_, hsel.routed.of_sameMove hm, ?_, ?_, fun q => (hm.metadata q).trans (hsel.metadata q), ?_⟩
  · rw [hm.selected, hsel.selected, hto]
    rfl
  · intro t ht
    obtain rfl : toTurnId = t := by simpa [hto] using ht
    exact hcheck
  · exact hsel.routes.of_sameMove hm (hsel.routes.tracked.merge (.inl (tracked_state p p request.state)))
  · intro hk
    obtain ⟨hs, hx⟩ := hsel.keeps (hr ▸ hk)
    exact ⟨hm.starts.trans hs, (hm.current p).trans hx⟩
  · intro hk
    rcases hsel.replaces (hr ▸ hk) with ⟨hs, hx⟩ | ⟨s, hs, hx⟩
    · exact .inl ⟨hm.starts.trans hs, (hm.current p).trans hx⟩
    · exact .inr ⟨s, hm.starts.trans hs, (hm.current p).trans hx⟩
  · rcases hsel.lifecycle with ⟨ha, hl⟩ | ⟨s, hs, hb, hl⟩
    · refine .inl ⟨fun s h => ha s (hm.starts.symm.trans h), fun q => ?_⟩
      rw [hm.lifecycle, hl, ServerTransitionRequest.targetLifecycle, hto]
    · exact .inr ⟨s, hm.starts.trans hs, hb, fun hp q => (hm.lifecycle q).trans (hl hp q)⟩

theorem buildServerTransitionWrites_ok {request : ServerTransitionRequest}
    (h : buildServerTransitionWrites d p request ids = .ok w) : Transits d p ids request w := by
  unfold buildServerTransitionWrites at h
  dsimp only at h
  cases hto : request.turnId with
  | some toTurnId =>
    rw [hto] at h
    dsimp only at h
    cases hb : buildTurnSelectionWrites d p (request.selection p toTurnId) ids with
    | error e => rw [hb] at h; cases h
    | ok selection =>
      rw [hb] at h
      cases h
      obtain ⟨hcheck, hsel⟩ := buildTurnSelectionWrites_ok hb
      exact transits_selection hto hcheck hsel
  | none =>
    rw [hto] at h
    dsimp only at h
    split at h
    · cases h
    · cases h
      have hm := sameMove_state p request.state
      refine transits_status hto ?_ (tracked_state p p request.state) (patch_state p request.state)
      exact ⟨hm.lifecycle, hm.selected, hm.current, hm.metadata, hm.starts, hm.records, hm.admission⟩

/-- The selection of an accepted request follows a declared transition. -/
theorem Transits.reach {request : ServerTransitionRequest} (h : Transits d p ids request w)
    (hp : p.selectedTurnId.isSome = true) : Reach d p.selectedTurnId (w.candidate p).selectedTurnId := by
  rw [h.selected]
  cases hto : request.turnId with
  | none => exact Reach.refl d _
  | some toTurnId => exact reach_of_check (h.checked toTurnId hto) hp

/-! ## A plan -/

/-- Whether a plan replaces or clears the execution of the process. -/
def ProcessPlan.replacesExecution (d : ProcessDefinition) (p : Process) (plan : ProcessPlan) : Bool :=
  plan.transitionRequest.any (·.replacesExecution d p)

/-- The lifecycle status a plan asks for: its transition's, unless the process has that already. -/
def ProcessPlan.lifecycleStatus (d : ProcessDefinition) (p : Process) (plan : ProcessPlan) : LifecycleStatus :=
  match plan.transitionRequest.bind (·.targetLifecycle d p) with
  | some target =>
    if target = p.lifecycleStatus then effectsLifecycle p.lifecycleStatus plan.lifecycleEffects else target
  | none => effectsLifecycle p.lifecycleStatus plan.lifecycleEffects

/-- The turn a plan selects, if it selects one. -/
def ProcessPlan.turnId (plan : ProcessPlan) : Option (Option TurnId) := plan.transitionRequest.bind (·.turnId)

/-- The automatic turn a plan reserves a start of in a process it stops. -/
def ProcessPlan.Asks (d : ProcessDefinition) (p : Process) (plan : ProcessPlan) (turnId : TurnId) : Prop :=
  plan.lifecycleStatus d p = .error ∧ plan.replacesExecution d p = true ∧
    plan.turnId.getD p.selectedTurnId = some turnId ∧ d.workerTurnType turnId = some .automatic

/-- Whether a plan stops the process with a start that awaits neither a model nor a predicate. -/
def ProcessPlan.stopsStart (d : ProcessDefinition) (p : Process) (plan : ProcessPlan) : Bool :=
  plan.lifecycleStatus d p == .error && plan.replacesExecution d p &&
    (plan.turnId.getD p.selectedTurnId).any fun turnId =>
      d.workerTurnType turnId == some .automatic && !turnWaitPredicate d (some turnId)

theorem ProcessPlan.Asks.stops {plan : ProcessPlan} {turnId : TurnId} (h : plan.Asks d p turnId)
    (hg : turnWaitPredicate d (some turnId) = false) : plan.stopsStart d p = true := by
  obtain ⟨hl, hr, ht, hty⟩ := h
  rw [stopsStart, hl, hr, ht, Option.any_some, hty, hg]
  rfl

/-- A plan that keeps the execution and selects another turn selects some turn. -/
theorem ProcessPlan.turnId_isSome (plan : ProcessPlan) (hr : plan.replacesExecution d p = false)
    (hne : plan.turnId.getD p.selectedTurnId ≠ p.selectedTurnId) :
    (plan.turnId.getD p.selectedTurnId).isSome = true := by
  unfold ProcessPlan.replacesExecution at hr
  unfold ProcessPlan.turnId at hne ⊢
  cases hreq : plan.transitionRequest with
  | none => rw [hreq] at hne; exact absurd rfl hne
  | some request =>
    rw [hreq, Option.any_some, ServerTransitionRequest.replacesExecution] at hr
    rw [hreq] at hne
    rw [Option.bind_some] at hne ⊢
    cases hto : request.turnId with
    | none => rw [hto] at hne; exact absurd rfl hne
    | some toTurnId =>
      rw [hto] at hr
      cases toTurnId with
      | none => cases hr
      | some turnId => rfl

/-- What the writes of an accepted plan do. -/
structure Planned (d : ProcessDefinition) (p : Process) (ids : FreshIds) (plan : ProcessPlan) (w : Writes) : Prop where
  selected : (w.candidate p).selectedTurnId = plan.turnId.getD p.selectedTurnId
  checked : ∀ request ∈ plan.transitionRequest, ∀ toTurnId, request.turnId = some toTurnId →
    checkTurnSelection d p (request.selection p toTurnId) = .ok ()
  routes : Routes p ids w
  routed : Routed d (plan.lifecycleStatus d p = .error) p w
  kept : plan.replacesExecution d p = false → w.turnStartWrites = [] ∧
    (w.candidate p).currentExecution = p.currentExecution
  replaced : plan.replacesExecution d p = true →
    w.turnStartWrites = [] ∧ (w.candidate p).currentExecution = none ∨
      ∃ s, w.turnStartWrites = [.create s] ∧ (w.candidate p).currentExecution = some s.id
  lifecycle : (w.candidate p).lifecycleStatus = plan.lifecycleStatus d p ∨
    ∃ s, w.turnStartWrites = [.create s] ∧ s.begins = false ∧
      (p.lifecycleStatus ≠ .error → (w.candidate p).lifecycleStatus = .error)

/-- Effects merged in front of a transition's writes. -/
theorem planned_merge {plan : ProcessPlan} {request : ServerTransitionRequest} (he : Effects p w)
    (hl : (w.candidate p).lifecycleStatus = effectsLifecycle p.lifecycleStatus plan.lifecycleEffects)
    (hreq : plan.transitionRequest = some request) (ht : Transits d p ids request v) :
    Planned d p ids plan (mergeWrites w v) := by
  have hs : (mergeWrites w v).turnStartWrites = v.turnStartWrites := by
    rw [turnStartWrites_merge, he.starts]
    exact List.nil_append _
  have hx : ((mergeWrites w v).candidate p).currentExecution = (v.candidate p).currentExecution := by
    rw [candidate_merge]
    exact congrArg v.processPatch.currentExecution.getD (he.current p)
  have hsel : ((mergeWrites w v).candidate p).selectedTurnId = (v.candidate p).selectedTurnId := by
    rw [candidate_merge]
    exact congrArg v.processPatch.selectedTurnId.getD (he.selected p)
  have hplan : plan.replacesExecution d p = request.replacesExecution d p := by
    rw [ProcessPlan.replacesExecution, hreq]
    rfl
  have hlife : ((mergeWrites w v).candidate p).lifecycleStatus = plan.lifecycleStatus d p ∨
      ∃ s, v.turnStartWrites = [.create s] ∧ s.begins = false ∧
        (p.lifecycleStatus ≠ .error → ((mergeWrites w v).candidate p).lifecycleStatus = .error) := by
    rw [candidate_merge]
    rcases ht.lifecycle with ⟨-, h⟩ | ⟨s, hv, hb, h⟩
    · left
      rw [h, ProcessPlan.lifecycleStatus, hreq, hl]
      rfl
    · exact .inr ⟨s, hv, hb, fun hp => h hp _⟩
  have hc : (mergeWrites w v).creates = v.creates := creates_of_starts hs
  refine ⟨?_, ?_, ⟨by rw [hc]; exact ht.routes.starts, ?_, ?_, ?_, he.tracked.merge (.inl ht.routes.tracked)⟩, ?_, ?_, ?_, ?_⟩
  · rw [hsel, ht.selected, ProcessPlan.turnId, hreq]
    rfl
  · intro r hr toTurnId hto
    obtain rfl : request = r := by simpa [hreq] using hr
    exact ht.checked toTurnId hto
  · rw [turnRecordWrites_merge, he.records, ht.routes.records]
    rfl
  · rw [waitForAdmission_merge, he.admission, ht.routes.admission]
    rfl
  · rw [candidate_merge, ht.metadata]
    exact he.wait
  · cases ht.routed with
    | kept h1 h2 => exact .kept (hs.trans h1) (hx.trans h2)
    | cleared h1 h2 => exact .cleared (hs.trans h1) (hx.trans h2)
    | reserved s h1 h2 h3 h4 h5 h6 =>
      refine .reserved s (hs.trans h1) (hx.trans h2) (hsel.trans h3) h4 ?_ ?_
      · intro hb he
        rcases hlife with h | ⟨s', hs', hb', -⟩
        · exact h.symm.trans he
        · rw [h1] at hs'
          cases hs'
          rw [hb] at hb'
          cases hb'
      · intro hllm
        refine ⟨(h6 hllm).1, fun hp => ?_⟩
        rcases ht.lifecycle with ⟨ha, -⟩ | ⟨s', -, -, h⟩
        · rw [ha s h1] at hllm
          cases hllm
        · rw [candidate_merge]
          exact h hp _
  · intro hk
    obtain ⟨h1, h2⟩ := ht.kept (hplan ▸ hk)
    exact ⟨hs.trans h1, hx.trans h2⟩
  · intro hk
    rcases ht.replaced (hplan ▸ hk) with ⟨h1, h2⟩ | ⟨s, h1, h2⟩
    · exact .inl ⟨hs.trans h1, hx.trans h2⟩
    · exact .inr ⟨s, hs.trans h1, hx.trans h2⟩
  · rcases hlife with h | ⟨s, h1, h2, h3⟩
    · exact .inl h
    · exact .inr ⟨s, hs.trans h1, h2, h3⟩

theorem planWrites_ok {plan : ProcessPlan} (h : planWrites d p plan ids = .ok w) : Planned d p ids plan w := by
  obtain ⟨he, hl⟩ := effects_appendAll (effects_empty p) plan.lifecycleEffects
  unfold planWrites at h
  cases hreq : plan.transitionRequest with
  | some request =>
    rw [hreq] at h
    dsimp only at h
    cases hb : buildServerTransitionWrites d p request ids with
    | error e => rw [hb] at h; cases h
    | ok transition =>
      rw [hb] at h
      cases h
      exact planned_merge he hl hreq (buildServerTransitionWrites_ok hb)
  | none =>
    rw [hreq] at h
    cases h
    have hm : SameMove (appendLifecycleEffects p {} plan.lifecycleEffects)
        (mergeWrites (appendLifecycleEffects p {} plan.lifecycleEffects) {}) := SameMove.merge SameMove.refl
    refine ⟨?_, by simp [hreq], ⟨reserved_of_no_starts (hm.starts.trans he.starts), hm.records.trans he.records, hm.admission.trans he.admission, ?_, ?_⟩, ?_, ?_, ?_, .inl ?_⟩
    · rw [hm.selected, he.selected, ProcessPlan.turnId, hreq]
      rfl
    · rw [hm.metadata]
      exact he.wait
    · exact he.tracked.merge (.inl (tracked_empty _ rfl rfl))
    · exact .kept (hm.starts.trans he.starts) ((hm.current p).trans (he.current p))
    · exact fun _ => ⟨hm.starts.trans he.starts, (hm.current p).trans (he.current p)⟩
    · intro hk
      rw [ProcessPlan.replacesExecution, hreq] at hk
      cases hk
    · rw [hm.lifecycle, hl, ProcessPlan.lifecycleStatus, hreq]
      rfl

/-- The selection of an accepted plan follows declared transitions. -/
theorem Planned.reach {plan : ProcessPlan} (h : Planned d p ids plan w) (hp : p.selectedTurnId.isSome = true) :
    Reach d p.selectedTurnId (w.candidate p).selectedTurnId := by
  rw [h.selected]
  cases hreq : plan.transitionRequest with
  | none =>
    rw [ProcessPlan.turnId, hreq]
    exact Reach.refl d _
  | some request =>
    rw [ProcessPlan.turnId, hreq]
    cases hto : request.turnId with
    | none =>
      rw [Option.bind_some, hto]
      exact Reach.refl d _
    | some toTurnId =>
      rw [Option.bind_some, hto]
      exact reach_of_check (h.checked request hreq toTurnId hto) hp

end Leitwerk.Engine
