import Leitwerk.External.Graph
/-!
# Generations of external subscriptions

A generation is a digest of the arming it is handed out for, the plan revision of
its process and the latest `turn_selected` event. Events are only ever added, so
once another one is written no earlier generation is accepted or handed out again.
-/

namespace Leitwerk.External

open Engine

variable {Payload : Type} {d : ProcessDefinition} {x : ExternalTurns Payload} {st st' st'' st₀ : Store} {ctx : Context}
  {w v : Writes} {p : Process}

/-! ## Generations -/

/-- What a generation is the digest of. -/
structure GenerationSource where
  instanceId : String
  id : String
  revision : Nat
  selectionId : Option Nat
  config : Json
  resolved : Option Json
  deriving DecidableEq

/-- The latest `turn_selected` event, by its place among them, or null. -/
def latestSelection (st : Store) : Option Nat :=
  match st.turnSelectedEvents.length with
  | 0 => none
  | n + 1 => some n

def generationSource (st : Store) (arming : ExternalArming Payload) : GenerationSource where
  instanceId := st.process.id
  id := arming.id
  revision := st.process.planRevision
  selectionId := latestSelection st
  config := arming.spec.config
  resolved := arming.resolved

/-- `generationFor`; `digest` is the SHA-256 of the JSON of its source. -/
def generationFor (digest : GenerationSource → String) (st : Store) (arming : ExternalArming Payload) : String :=
  digest (generationSource st arming)

/-- `currentGenerations`. -/
def currentGenerations (d : ProcessDefinition) (x : ExternalTurns Payload) (digest : GenerationSource → String) (st : Store) :
    List (String × String) :=
  (listArmingsForProcess d x st.process st.projects).map fun arming => (arming.id, generationFor digest st arming)

/-! ## Reports of providers -/

/-- What a provider reports for an arming. -/
inductive Report (Payload : Type) where
  | fire (fire : FireInput Payload) (ctx : Context) (productRefState : Option Json → String → Option Json)
  | observe (input : ExternalObservationInput) (ctx : Context)

def Report.armingId : Report Payload → String
  | .fire input _ _ => input.armingId
  | .observe input _ => input.armingId

/-- The generation a report carries; a fire with an empty one carries none. -/
def Report.generation : Report Payload → Option String
  | .fire input _ _ => input.generation.filter (· ≠ "")
  | .observe input _ => some input.generation

/-- What a process meets: operations, changes of its leases and reports. -/
inductive Input (Payload : Type) where
  | engine (event : Engine.Event)
  | report (report : Report Payload)

section
variable (d : ProcessDefinition) (x : ExternalTurns Payload) (digest : GenerationSource → String)

/-- A report compares its generation with those of the store it meets. -/
def Input.event (st : Store) : Input Payload → Event Payload
  | .engine event => .engine event
  | .report (.fire fire ctx productRefState) => .fire fire ctx (generationFor digest st) productRefState
  | .report (.observe input ctx) => .observe input ctx (generationFor digest st)

/-- The report is accepted and leaves `st'`. -/
def Accepts (st : Store) (report : Report Payload) (st' : Store) : Prop :=
  run d x st (Input.event digest st (.report report)) = .ok st'

/-- A step of a process whose subscriptions have generations. -/
def FencedStep : Runs.Step Store (Input Payload) Rejection :=
  fun st input os st' => Step d x st (input.event digest st) os st'

end

/-! ## Events are only added -/

theorem events_commit {now : String} (h : commitWrites now st w = some st') :
    st'.turnSelectedEvents = st.turnSelectedEvents ++ w.turnSelectedEvents := by
  unfold commitWrites at h
  obtain ⟨runs, -, h⟩ := Option.bind_eq_some_iff.1 h
  obtain ⟨starts, -, h⟩ := Option.bind_eq_some_iff.1 h
  obtain ⟨records, -, h⟩ := Option.bind_eq_some_iff.1 h
  cases h
  rfl

theorem events_record {decision : Decision} (h : record d ctx st decision = .ok st') :
    ∃ v, prepareWrites d ctx st decision = .ok v ∧ st'.turnSelectedEvents = st.turnSelectedEvents ++ v.turnSelectedEvents := by
  obtain ⟨v, hv, hc⟩ := record_ok h
  exact ⟨v, hv, events_commit hc⟩

theorem events_run {e : Event Payload} (h : run d x st e = .ok st') : st.turnSelectedEvents <+: st'.turnSelectedEvents := by
  have hrecord : ∀ {ctx decision}, record d ctx st decision = .ok st' → st.turnSelectedEvents <+: st'.turnSelectedEvents := by
    intro ctx decision hrec
    obtain ⟨v, -, hv⟩ := events_record hrec
    exact hv ▸ List.prefix_append _ _
  cases e with
  | engine event =>
    cases event with
    | leases leases =>
      cases h
      exact List.prefix_refl _
    | op op ctx =>
      replace h : op.run d ctx st = .ok st' := h
      unfold Op.run at h
      split at h
      · cases h
      cases hd : op.decide d ctx st with
      | error why => rw [hd] at h; cases h
      | ok decision =>
        rw [hd] at h
        exact hrecord h
  | fire fire ctx generationFor refState =>
    replace h : runFire d x generationFor st ctx refState fire = .ok st' := h
    unfold runFire at h
    cases hd : decideFireExternalSource d x generationFor st ctx refState fire with
    | error why => rw [hd] at h; cases h
    | ok decision =>
      obtain ⟨arming, decision⟩ := decision
      rw [hd] at h
      cases decision with
      | failed why =>
        cases h
        exact List.prefix_refl _
      | consumed writes product => exact hrecord h
  | observe input ctx generationFor =>
    replace h : runObservation d x generationFor st ctx input = .ok st' := h
    unfold runObservation at h
    cases hd : decideObserveExternalSource d x generationFor st input with
    | error why => rw [hd] at h; cases h
    | ok writes =>
      rw [hd] at h
      exact hrecord h

theorem events_next (e : Event Payload) : st.turnSelectedEvents <+: (next d x st e).turnSelectedEvents := by
  unfold next
  cases h : run d x st e with
  | error why => exact List.prefix_refl _
  | ok st' => exact events_run h

theorem events_of_run {digest : GenerationSource → String} {h : Runs.Hist (Input Payload) Rejection}
    (hr : Runs.Run (FencedStep d x digest) st h st') : st.turnSelectedEvents <+: st'.turnSelectedEvents := by
  refine hr.inv (fun st' => st.turnSelectedEvents <+: st'.turnSelectedEvents) (List.prefix_refl _) ?_
  rintro a input os b ha ⟨rfl, -⟩
  exact ha.trans (events_next _)

/-! ## What a commit adds to the events of a decision -/

@[simp] theorem events_apply {α : Type} (w : Writes) (p : Process) (f : Engine.Field α) (y : α) :
    (applyProcessPatchField w p f y).turnSelectedEvents = w.turnSelectedEvents := by
  unfold applyProcessPatchField
  split <;> rfl

@[simp] theorem events_writeTurnWait (w : Writes) (p : Process) (wait : Option PendingTurnWait) :
    (writeTurnWait w p wait).turnSelectedEvents = w.turnSelectedEvents := events_apply _ _ _ _

@[simp] theorem events_defer (p : Process) (metadata : Option DecisionMetadata) (waitId : String) (w : Writes) :
    (deferTurnWaitStarts d p metadata waitId w).turnSelectedEvents = w.turnSelectedEvents := by
  rcases deferral_cases d p metadata waitId w with ⟨hv, -⟩ | ⟨hv, -⟩ | ⟨start, -, -, -, -, hv⟩
  · rw [hv]
    rcases dropStale_cases p w with ⟨h, -⟩ | ⟨h, -⟩
    · rw [h]
    · rw [h, events_writeTurnWait]
  · rw [hv]
  · rw [hv]
    exact events_writeTurnWait _ _ _

theorem events_leaveActiveRun (active : Option MappedRun) (b : Bool) (w : Writes) :
    (leaveActiveRun p active b w).turnSelectedEvents = w.turnSelectedEvents := by
  unfold leaveActiveRun
  split
  · dsimp only
    split <;> rfl
  · rfl

theorem events_freezeRun (active : Option MappedRun) (b : Bool) (turnId : TurnId) (runId : String) (frozen : MappedFreezeResult)
    (w : Writes) : (freezeRun active b p turnId runId frozen w).turnSelectedEvents = w.turnSelectedEvents := by
  unfold freezeRun
  dsimp only
  split
  · rw [events_apply]
    split <;> rfl
  · split <;> rfl

theorem events_mapped (h : planMappedTurnEntries d ctx st w = .ok v) : w.turnSelectedEvents <+: v.turnSelectedEvents := by
  refine planMappedEntries_inv (fun _ u => w.turnSelectedEvents <+: u.turnSelectedEvents)
    (fun u => w.turnSelectedEvents <+: u.turnSelectedEvents) ?_ ?_ ?_ ?_ (List.prefix_refl _) h
  · intro _ u hu
    rwa [events_defer]
  · intro b u hu
    rwa [events_leaveActiveRun]
  · intro b u start spec runId frozen first rest hu _ _ _
    exact (events_freezeRun (p := u.candidate st.process) st.activeMappedRun b start.turnId runId frozen u).symm ▸ hu
  · intro b u start spec runId frozen k routed hu _ _ _ _
    -- the route of an empty run adds its own event
    refine hu.trans ?_
    rw [← events_freezeRun (p := u.candidate st.process) st.activeMappedRun b start.turnId runId frozen u]
    exact List.prefix_append _ _

theorem events_prepareTurnStarts {preflight : Process → TurnStartInput → PreflightVerdict} {next : Process}
    {done rest : List TurnStartWrite} (h : prepareTurnStarts preflight next done w rest = .ok v) :
    v.turnSelectedEvents = w.turnSelectedEvents := by
  induction rest generalizing next done w with
  | nil => cases h; rfl
  | cons write rest ih =>
    unfold prepareTurnStarts at h
    split at h
    · cases h; rfl
    · rename_i s rest' heq
      cases heq
      split at h
      · cases hp : prepareStart (preflight next s) s with
        | error why => rw [hp] at h; cases h
        | ok prepared =>
          rw [hp] at h
          exact ih (w := prepared.write w) h
      · exact ih h
    · rename_i heq
      cases heq
      exact ih h

theorem events_model {metadata : Option DecisionMetadata} (h : runModelPreparation d ctx p metadata w = .ok v) :
    v.turnSelectedEvents = w.turnSelectedEvents := by
  have hflight : ∀ {u : Writes}, u.turnSelectedEvents = w.turnSelectedEvents → Preflighted ctx p u v →
      v.turnSelectedEvents = w.turnSelectedEvents := by
    intro u hu huv
    cases huv with
    | skipped hp hv => exact hv ▸ hu
    | prepared preflight hp hv => exact (events_prepareTurnStarts hv).trans hu
  cases runModelPreparation_ok h with
  | kept hv => exact hflight rfl hv
  | selected id provenance hv =>
    refine hflight ?_ hv
    simp [writeModelSelection]
  | parked s hs summary hv =>
    subst hv
    exact events_apply _ _ _ _

/-- What is committed has the events of the decision, and perhaps more. -/
theorem events_prepareWrites {decision : Decision} (h : prepareWrites d ctx st decision = .ok v) :
    decision.writes.turnSelectedEvents <+: v.turnSelectedEvents := by
  obtain ⟨w₂, w₄, hm, hr, rfl⟩ := prepareWrites_steps h
  have h₂ := events_mapped hm
  rw [events_defer] at h₂
  have h₄ := events_model hr
  rw [events_defer] at h₄
  exact h₄.symm ▸ h₂

/-! ## What a selection adds -/

@[simp] theorem events_reserve (p : Process) (w : Writes) (turnId : TurnId) (turnType : WorkerTurnType) (ids : FreshIds) :
    (reserveSelectedTurnStart p w turnId turnType ids).turnSelectedEvents = w.turnSelectedEvents := by
  unfold reserveSelectedTurnStart
  dsimp only
  split <;> simp

theorem events_turnSelection (d : ProcessDefinition) (p : Process) (input : TurnSelectionWritesInput) (ids : FreshIds) :
    (turnSelectionWrites d p input ids).turnSelectedEvents =
      if p.selectedTurnId = input.toTurnId then [] else [⟨p.selectedTurnId, input.toTurnId⟩] := by
  unfold turnSelectionWrites
  dsimp only
  split
  · split <;> simp
  all_goals simp

/-- A request for another turn, or for none, writes an event. -/
theorem events_transition {request : ServerTransitionRequest} {ids : FreshIds} {toTurnId : Option TurnId}
    (h : buildServerTransitionWrites d p request ids = .ok w) (hto : request.turnId = some toTurnId)
    (hne : p.selectedTurnId ≠ toTurnId) : w.turnSelectedEvents ≠ [] := by
  unfold buildServerTransitionWrites at h
  simp only [hto, buildTurnSelectionWrites] at h
  cases hc : checkTurnSelection d p (request.selection p toTurnId) with
  | error why => rw [hc] at h; cases h
  | ok _ =>
    rw [hc] at h
    cases h
    have hsel := events_turnSelection d p (request.selection p toTurnId) ids
    rw [if_neg (show p.selectedTurnId ≠ (request.selection p toTurnId).toTurnId from hne)] at hsel
    intro hnil
    replace hnil : (turnSelectionWrites d p (request.selection p toTurnId) ids).turnSelectedEvents ++ _ = [] := hnil
    rw [hsel] at hnil
    cases hnil

theorem transitionTarget_turnId (route : ExternalRoute) (trigger : String) :
    (transitionTarget route trigger).turnId = some route.toTurnId := by
  unfold transitionTarget
  split <;> simp_all

/-! ## What is accepted -/

section
variable {digest : GenerationSource → String} {report : Report Payload} {arming : ExternalArming Payload} {g : String}

theorem resolveArming_mem {armingId : String} (h : resolveArming d x st armingId = some arming) :
    arming ∈ listArmingsForProcess d x st.process st.projects := List.mem_of_find?_eq_some h

theorem fireArming_current {generation : ExternalArming Payload → String} {fire : FireInput Payload}
    (h : fireArming d x generation st fire = .ok arming) (hg : fire.generation.filter (· ≠ "") = some g) :
    generation arming = g := by
  unfold fireArming at h
  rw [hg] at h
  split at h
  · cases h
  · rename_i heq
    cases heq
  · rename_i current generation' hr heq
    cases heq
    split at h
    · rename_i hsame
      cases h
      exact hsame
    · cases h
  · rename_i heq
    cases heq

/-- An accepted report carries the generation its arming has now. -/
theorem accepts_current {report : Report Payload} (h : Accepts d x digest st report st') (hg : report.generation = some g) :
    ∃ current, resolveArming d x st report.armingId = some current ∧ generationFor digest st current = g := by
  cases report with
  | fire input ctx refState =>
    replace h : runFire d x (generationFor digest st) st ctx refState input = .ok st' := h
    unfold runFire decideFireExternalSource at h
    cases ha : fireArming d x (generationFor digest st) st input with
    | error why => rw [ha] at h; cases h
    | ok current => exact ⟨current, fireArming_resolved ha, fireArming_current ha hg⟩
  | observe input ctx =>
    cases hg
    replace h : runObservation d x (generationFor digest st) st ctx input = .ok st' := h
    unfold runObservation at h
    cases hd : decideObserveExternalSource d x (generationFor digest st) st input with
    | error why => rw [hd] at h; cases h
    | ok writes =>
      unfold decideObserveExternalSource at hd
      split at hd
      · cases hd
      rename_i current hr
      split at hd
      · rename_i hsame
        exact ⟨current, hr, hsame⟩
      · cases hd

/-- `g` is handed out for the arming. -/
def HandsOut (d : ProcessDefinition) (x : ExternalTurns Payload) (digest : GenerationSource → String) (st : Store)
    (arming : ExternalArming Payload) (g : String) : Prop :=
  arming ∈ listArmingsForProcess d x st.process st.projects ∧ generationFor digest st arming = g

/-- What a generation was handed out for in `st₀` is still so in `st`. -/
structure Current (st₀ : Store) (arming : ExternalArming Payload) (st : Store) (current : ExternalArming Payload) : Prop where
  id : current.id = arming.id
  events : st.turnSelectedEvents = st₀.turnSelectedEvents
  revision : st.process.planRevision = st₀.process.planRevision
  config : current.spec.config = arming.spec.config
  resolved : current.resolved = arming.resolved

theorem latestSelection_length (h : latestSelection st = latestSelection st₀) :
    st.turnSelectedEvents.length = st₀.turnSelectedEvents.length := by
  unfold latestSelection at h
  split at h <;> split at h <;> simp_all

/-- One generation is of one source. -/
theorem current_of_generation {current : ExternalArming Payload} (hdigest : Function.Injective digest)
    (hp : st₀.turnSelectedEvents <+: st.turnSelectedEvents)
    (h : generationFor digest st current = generationFor digest st₀ arming) : Current st₀ arming st current := by
  have hsource := hdigest h
  simp only [generationSource, GenerationSource.mk.injEq] at hsource
  obtain ⟨-, hid, hrevision, hselection, hconfig, hresolved⟩ := hsource
  exact ⟨hid, (hp.eq_of_length (latestSelection_length hselection).symm).symm, hrevision, hconfig, hresolved⟩

/-! ## Consumed fires -/

/-- The fire is consumed by the arming and leaves `st'`. -/
def Consumes (d : ProcessDefinition) (x : ExternalTurns Payload) (digest : GenerationSource → String) (st : Store)
    (fire : FireInput Payload) (ctx : Context) (refState : Option Json → String → Option Json)
    (arming : ExternalArming Payload) (st' : Store) : Prop :=
  (∃ writes product,
      decideFireExternalSource d x (generationFor digest st) st ctx refState fire = .ok (arming, .consumed writes product)) ∧
    runFire d x (generationFor digest st) st ctx refState fire = .ok st'

/-- A consumed fire that leads to another turn, or to none, writes an event. -/
theorem Consumes.departs {fire : FireInput Payload} {refState : Option Json → String → Option Json}
    (h : Consumes d x digest st fire ctx refState arming st') (hroute : arming.spec.route.toTurnId ≠ some arming.turnId) :
    st'.turnSelectedEvents ≠ st.turnSelectedEvents := by
  obtain ⟨⟨u, product, hdecide⟩, hrun⟩ := h
  simp only [runFire, hdecide, bind, Except.bind] at hrun
  unfold decideFireExternalSource at hdecide
  cases ha : fireArming d x (generationFor digest st) st fire with
  | error why => rw [ha] at hdecide; cases hdecide
  | ok arming' =>
    rw [ha] at hdecide
    cases hd : decideFire d ctx refState st arming' fire with
    | error why => simp [hd, bind, Except.bind] at hdecide
    | ok decision =>
      simp only [hd, bind, Except.bind, pure, Except.pure, Except.ok.injEq, Prod.mk.injEq] at hdecide
      obtain ⟨rfl, rfl⟩ := hdecide
      obtain ⟨w, t, rfl, hw, ht⟩ := decideFire_consumed hd
      have hsel := (resolveArming_some (fireArming_resolved ha)).1
      have hevents : t.turnSelectedEvents ≠ [] := by
        refine events_transition ht (transitionTarget_turnId _ _) ?_
        rw [hw.selected, hsel]
        exact hroute.symm
      obtain ⟨v, hv, hst⟩ := events_record hrun
      have hprefix : (mergeWrites w t).turnSelectedEvents <+: v.turnSelectedEvents := events_prepareWrites hv
      rw [hst]
      intro hsame
      rw [List.append_right_eq_self.1 hsame, List.prefix_nil] at hprefix
      exact hevents (List.append_eq_nil_iff.1 hprefix).2

/-! ## The fence -/

/-- No report with the generation is accepted, and no arming has it. -/
def Retired (d : ProcessDefinition) (x : ExternalTurns Payload) (digest : GenerationSource → String) (st : Store)
    (g : String) : Prop :=
  (∀ report st', report.generation = some g → ¬ Accepts d x digest st report st') ∧ ∀ arming, ¬ HandsOut d x digest st arming g

/-- External subscriptions are fenced by generation. -/
structure Fenced (d : ProcessDefinition) (x : ExternalTurns Payload) (digest : GenerationSource → String) : Prop where
  current : ∀ {st₀ st st' h report arming g}, HandsOut d x digest st₀ arming g → Runs.Run (FencedStep d x digest) st₀ h st →
    report.generation = some g → Accepts d x digest st report st' →
    ∃ current, resolveArming d x st report.armingId = some current ∧ Current st₀ arming st current
  retired : ∀ {st₀ st h arming g}, HandsOut d x digest st₀ arming g → Runs.Run (FencedStep d x digest) st₀ h st →
    st.turnSelectedEvents ≠ st₀.turnSelectedEvents → Retired d x digest st g
  consumed : ∀ {st st' st'' h fire ctx refState arming g}, Consumes d x digest st fire ctx refState arming st' →
    fire.generation.filter (· ≠ "") = some g → arming.spec.route.toTurnId ≠ some arming.turnId →
    Runs.Run (FencedStep d x digest) st' h st'' → Retired d x digest st'' g

/-- Once an event was added, a generation from before it is neither accepted nor handed out. -/
theorem retired_of_events (hdigest : Function.Injective digest) (hout : HandsOut d x digest st₀ arming g)
    (hp : st₀.turnSelectedEvents <+: st.turnSelectedEvents) (hne : st.turnSelectedEvents ≠ st₀.turnSelectedEvents) :
    Retired d x digest st g := by
  have hother : ∀ current, generationFor digest st current ≠ g := fun current hcurrent =>
    hne (current_of_generation hdigest hp (hcurrent.trans hout.2.symm)).events
  refine ⟨fun report st' hg hok => ?_, fun current hcurrent => hother current hcurrent.2⟩
  obtain ⟨current, -, hcurrent⟩ := accepts_current hok hg
  exact hother current hcurrent

/-- The generation a fire is consumed with is that of its arming. -/
theorem Consumes.handsOut {fire : FireInput Payload} {refState : Option Json → String → Option Json}
    (h : Consumes d x digest st fire ctx refState arming st') (hg : fire.generation.filter (· ≠ "") = some g) :
    HandsOut d x digest st arming g := by
  obtain ⟨⟨u, product, hdecide⟩, -⟩ := h
  unfold decideFireExternalSource at hdecide
  cases ha : fireArming d x (generationFor digest st) st fire with
  | error why => rw [ha] at hdecide; cases hdecide
  | ok arming' =>
    rw [ha] at hdecide
    cases hd : decideFire d ctx refState st arming' fire with
    | error why => simp [hd, bind, Except.bind] at hdecide
    | ok decision =>
      simp only [hd, bind, Except.bind, pure, Except.pure, Except.ok.injEq, Prod.mk.injEq] at hdecide
      obtain ⟨rfl, -⟩ := hdecide
      exact ⟨resolveArming_mem (fireArming_resolved ha), fireArming_current ha hg⟩

theorem subscriptions_fenced (hdigest : Function.Injective digest) : Fenced d x digest where
  current hout hr hg hok := by
    obtain ⟨current, hresolve, hcurrent⟩ := accepts_current hok hg
    exact ⟨current, hresolve, current_of_generation hdigest (events_of_run hr) (hcurrent.trans hout.2.symm)⟩
  retired hout hr hne := retired_of_events hdigest hout (events_of_run hr) hne
  consumed hc hg hroute hr := by
    rename_i st st' st'' h fire ctx refState arming g
    have hstep : st.turnSelectedEvents <+: st'.turnSelectedEvents := events_run (e := .fire fire ctx _ refState) hc.2
    have hrest := events_of_run hr
    refine retired_of_events hdigest (hc.handsOut hg) (hstep.trans hrest) fun hsame => ?_
    -- the events cannot go back to what they were before the fire
    rw [hsame] at hrest
    exact hc.departs hroute (hstep.eq_of_length (Nat.le_antisymm hstep.length_le hrest.length_le)).symm
end

/-! ## A digest -/

/-- No code begins another one. -/
def PrefixFree {α : Type} (code : α → List Char) : Prop := ∀ a b r s, code a ++ r = code b ++ s → a = b ∧ r = s

/-- Every character escaped, and a quote. -/
def textCode : List Char → List Char
  | [] => ['"']
  | c :: cs => '\\' :: c :: textCode cs

theorem prefixFree_text : PrefixFree textCode := by
  intro a
  induction a with
  | nil =>
    intro b r s h
    cases b with
    | nil => exact ⟨rfl, by simpa [textCode] using h⟩
    | cons c cs => simp [textCode] at h
  | cons c cs ih =>
    intro b r s h
    cases b with
    | nil => simp [textCode] at h
    | cons c' cs' =>
      simp only [textCode, List.cons_append, List.cons.injEq, true_and] at h
      obtain ⟨rfl, h⟩ := h
      obtain ⟨rfl, rfl⟩ := ih cs' r s h
      exact ⟨rfl, rfl⟩

theorem PrefixFree.comp {α β : Type} {code : α → List Char} (h : PrefixFree code) {f : β → α} (hf : Function.Injective f) :
    PrefixFree fun b => code (f b) := fun _ _ r s hab =>
  have ⟨hfab, hrs⟩ := h _ _ r s hab
  ⟨hf hfab, hrs⟩

def optionCode {α : Type} (code : α → List Char) : Option α → List Char
  | none => ['n']
  | some a => 's' :: code a

theorem PrefixFree.option {α : Type} {code : α → List Char} (h : PrefixFree code) : PrefixFree (optionCode code) := by
  intro a b r s hab
  cases a <;> cases b <;> simp only [optionCode, List.cons_append, List.nil_append, List.cons.injEq, true_and] at hab
  · exact ⟨rfl, hab⟩
  · exact absurd hab.1 (by decide)
  · exact absurd hab.1 (by decide)
  · obtain ⟨rfl, rfl⟩ := h _ _ _ _ hab
    exact ⟨rfl, rfl⟩

def stringCode (t : String) : List Char := textCode t.toList

def natCode (n : Nat) : List Char := textCode (List.replicate n '1')

/-- A digest that keeps its source readable. -/
def plainDigest (source : GenerationSource) : String :=
  String.ofList (stringCode source.instanceId ++ (stringCode source.id ++ (natCode source.revision ++
    (optionCode natCode source.selectionId ++ (stringCode source.config ++ optionCode stringCode source.resolved)))))

theorem prefixFree_string : PrefixFree stringCode := prefixFree_text.comp fun _ _ => String.toList_inj.1

theorem prefixFree_nat : PrefixFree natCode := prefixFree_text.comp fun _ _ h => by simpa using congrArg List.length h

theorem plainDigest_injective : Function.Injective plainDigest := by
  rintro ⟨instanceId, id, revision, selectionId, config, resolved⟩ ⟨instanceId', id', revision', selectionId', config', resolved'⟩ h
  replace h := String.ofList_injective h
  obtain ⟨rfl, h⟩ := prefixFree_string _ _ _ _ h
  obtain ⟨rfl, h⟩ := prefixFree_string _ _ _ _ h
  obtain ⟨rfl, h⟩ := prefixFree_nat _ _ _ _ h
  obtain ⟨rfl, h⟩ := prefixFree_nat.option _ _ _ _ h
  obtain ⟨rfl, h⟩ := prefixFree_string _ _ _ _ h
  obtain ⟨rfl, -⟩ := prefixFree_string.option resolved resolved' [] [] (by simpa using h)
  rfl

/-! ## A process that watches -/

/-- A process at an external turn. -/
def watchedDefinition : ProcessDefinition where
  id := "demo"
  turns turnId := if turnId = "watch" then some { turnType := .external } else none
  entryTurnIds := ["watch"]
  transitions _ := []

/-- Its two triggers: one leads back to the turn, the other completes the process. -/
def watchedTurns : ExternalTurns Unit where
  transitions turnId :=
    if turnId = "watch" then
      [{ actionId := "", sourceKind := "poll", config := "\x7b\x7d", route := { toTurnId := some "watch" } },
       { actionId := "", sourceKind := "poll", config := "\x7b\x7d", route := { complete := true } }]
    else []

/-- The process once it was started. -/
def watching : Store :=
  next watchedDefinition watchedTurns demoFresh (.engine (.op (.startProcess { startTurnId := "watch" }) (demoContext "1")))

/-- The arming of one of its triggers. -/
def watchArming (index : Nat) (route : ExternalRoute) : ExternalArming Unit :=
  let id := "watch:poll:" ++ toString index
  { id, turnId := "watch", transitionTrigger := id
    spec := { actionId := "", sourceKind := "poll", config := "\x7b\x7d", route }, resolved := none }

def loopArming : ExternalArming Unit := watchArming 0 { toTurnId := some "watch" }

def endArming : ExternalArming Unit := watchArming 1 { complete := true }

/-- A fire with the generation the arming has in the store. -/
def fireOf (st : Store) (arming : ExternalArming Unit) : FireInput Unit where
  armingId := arming.id
  generation := some (generationFor plainDigest st arming)
  input := ()
  event := ()

/-- What a fire of the arming writes and publishes, and the store it is committed to. -/
def fired (st : Store) (arming : ExternalArming Unit) (ctx : Context) : Option (Writes × Option String × Store) :=
  match decideFire watchedDefinition ctx (fun _ _ => none) st arming { armingId := arming.id, input := (), event := () } with
  | .ok (.consumed writes product) =>
    match record watchedDefinition ctx st { writes } with
    | .ok st' => some (writes, product, st')
    | .error _ => none
  | _ => none

def afterFire (st : Store) (arming : ExternalArming Unit) (ctx : Context) : Store :=
  (fired st arming ctx).elim st (·.2.2)

theorem plainDigest_ne (source : GenerationSource) : plainDigest source ≠ "" := by
  intro h
  have hlen := congrArg (List.length ∘ String.toList) h
  have htext : ∀ cs, 0 < (textCode cs).length := by
    intro cs
    cases cs <;> simp [textCode]
  have := htext source.instanceId.toList
  simp only [plainDigest, Function.comp, String.toList_ofList, List.length_append, stringCode, String.toList_empty,
    List.length_nil] at hlen
  omega

theorem armings_watch {projects : Json} (h : selectedWaitingTurn p = some "watch") :
    listArmingsForProcess watchedDefinition watchedTurns p projects = [loopArming, endArming] := by
  unfold listArmingsForProcess
  rw [h]
  rfl

theorem fireOf_generation (st : Store) (arming : ExternalArming Unit) :
    (fireOf st arming).generation.filter (· ≠ "") = some (generationFor plainDigest st arming) := by
  simp [fireOf, Option.filter, generationFor, plainDigest_ne]

/-- A fire with the current generation is consumed as one without would be. -/
theorem consumes_fireOf (st₀ st : Store) (ctx : Context) {arming : ExternalArming Unit}
    (hr : resolveArming watchedDefinition watchedTurns st arming.id = some arming)
    (hg : generationSource st₀ arming = generationSource st arming) (hf : (fired st arming ctx).isSome = true) :
    Consumes watchedDefinition watchedTurns plainDigest st (fireOf st₀ arming) ctx (fun _ _ => none) arming
      (afterFire st arming ctx) := by
  have ha : fireArming watchedDefinition watchedTurns (generationFor plainDigest st) st (fireOf st₀ arming) = .ok arming := by
    unfold fireArming
    rw [fireOf_generation, show resolveArming watchedDefinition watchedTurns st (fireOf st₀ arming).armingId = some arming from hr]
    exact if_pos (congrArg plainDigest hg.symm)
  obtain ⟨⟨writes, product, st'⟩, hfired⟩ := Option.isSome_iff_exists.1 hf
  have hafter : afterFire st arming ctx = st' := by
    unfold afterFire
    rw [hfired]
    rfl
  unfold fired at hfired
  split at hfired
  · rename_i writes' product' hd
    split at hfired
    · rename_i st'' hrec
      cases hfired
      have hdecide : decideFireExternalSource watchedDefinition watchedTurns (generationFor plainDigest st) st ctx (fun _ _ => none)
          (fireOf st₀ arming) = .ok (arming, .consumed writes product) := by
        unfold decideFireExternalSource
        rw [ha]
        exact congrArg (Except.map (arming, ·)) hd
      refine ⟨⟨writes, product, hdecide⟩, ?_⟩
      unfold runFire
      rw [hdecide, hafter]
      exact hrec
    · cases hfired
  · cases hfired

theorem watch_selected : selectedWaitingTurn watching.process = some "watch" := by decide +kernel

/-- A fire that completes the process retires its generation. -/
theorem subscriptions_fenced_watching :
    Consumes watchedDefinition watchedTurns plainDigest watching (fireOf watching endArming) (demoContext "2") (fun _ _ => none)
        endArming (afterFire watching endArming (demoContext "2")) ∧
      Retired watchedDefinition watchedTurns plainDigest (afterFire watching endArming (demoContext "2"))
        (generationFor plainDigest watching endArming) := by
  have hconsumes : Consumes watchedDefinition watchedTurns plainDigest watching (fireOf watching endArming) (demoContext "2")
      (fun _ _ => none) endArming (afterFire watching endArming (demoContext "2")) := by
    refine consumes_fireOf watching watching (demoContext "2") ?_ rfl (by decide +kernel)
    unfold resolveArming
    rw [armings_watch watch_selected]
    rfl
  exact ⟨hconsumes, (subscriptions_fenced plainDigest_injective).consumed hconsumes (fireOf_generation _ _)
    (by simp [endArming, watchArming]) .nil⟩

/-- A fire that leads back to its turn is consumed, and its generation is accepted again. -/
theorem loop_keeps_generation : ¬ ∀ (d : ProcessDefinition) (x : ExternalTurns Unit) (digest : GenerationSource → String)
    (st₀ st st' st'' : Store) (h h' : Runs.Hist (Input Unit) Rejection) (fire : FireInput Unit) (ctx : Context)
    (refState : Option Json → String → Option Json) (arming : ExternalArming Unit) (g : String),
    Function.Injective digest → Fresh st₀ → Runs.Run (FencedStep d x digest) st₀ h st →
    Consumes d x digest st fire ctx refState arming st' → fire.generation.filter (· ≠ "") = some g →
    Runs.Run (FencedStep d x digest) st' h' st'' →
    ∀ report st₃, report.generation = some g → ¬ Accepts d x digest st'' report st₃ := by
  intro hall
  have hresolve : ∀ {st}, selectedWaitingTurn st.process = some "watch" →
      resolveArming watchedDefinition watchedTurns st loopArming.id = some loopArming := by
    intro st hst
    unfold resolveArming
    rw [armings_watch hst]
    rfl
  have hstart : Runs.Run (FencedStep watchedDefinition watchedTurns plainDigest) demoFresh _ watching :=
    .single (e := .engine (.op (.startProcess { startTurnId := "watch" }) (demoContext "1"))) ⟨rfl, rfl⟩
  have hfirst := consumes_fireOf watching watching (demoContext "2") (hresolve watch_selected) rfl (by decide +kernel)
  -- the fire selected the turn the process was at
  have hsecond := consumes_fireOf watching (afterFire watching loopArming (demoContext "2")) (demoContext "3")
    (hresolve (by decide +kernel)) (by decide +kernel) (by decide +kernel)
  exact hall _ _ _ _ _ _ _ _ [] _ _ _ _ _ plainDigest_injective fresh_demo hstart hfirst (fireOf_generation _ _) .nil
    (.fire (fireOf watching loopArming) (demoContext "3") fun _ _ => none) _ (fireOf_generation _ _) hsecond.2

end Leitwerk.External
