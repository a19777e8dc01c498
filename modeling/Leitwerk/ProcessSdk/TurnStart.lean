import Leitwerk.EntryRefs.Patch
/-!
# Where an LLM turn starts

`turn-start-resolution.ts` of the domain, the checks of `turn-semantics.ts` on
where a turn starts, and the tree strategy of the worker. A reference that names
no entry is replaced by its fallback, so what a branch type promises is decided
by the selection its fallbacks end in (`settles`).
-/

namespace Leitwerk.ProcessSdk

open EntryRefs (SemanticEntryRefKey)

/-! ## Selections -/

/-- What a `semantic_ref` or a `product_ref` selection refers to. -/
inductive StartReference where
  | semantic (ref : SemanticEntryRefKey)
  | product (productName : String)
  deriving DecidableEq

/-- `ProcessTurnStartFallback`. -/
inductive StartFallback where
  | currentLeaf
  | sessionRoot
  | entry (entryId : String)
  deriving DecidableEq

/-- `ProcessTurnStartSelection`; a reference with a fallback is a constructor of its own. -/
inductive StartSelection where
  | plain (start : StartFallback)
  | ref (reference : StartReference)
  | refOr (reference : StartReference) (fallback : StartSelection)
  deriving DecidableEq

/-- `ProcessTurnStartTarget`. -/
inductive StartTarget where
  | currentLeaf
  | entry (entryId : String)
  | root
  deriving DecidableEq

/-- `ProcessTurnStartResolution`. -/
structure StartResolution where
  forkPiEntryId : Option String
  startTarget : StartTarget
  deriving DecidableEq

def defaultProcessTurnStartSelection : PathType → StartFallback
  | .primary | .leafBranch => .currentLeaf
  | .rootBranch => .sessionRoot

/-! ## Resolution -/

/-- The session tree and the references of a process, as a start is resolved against them. -/
structure StartContext where
  currentLeafId : Option String
  rootEntryId : Option String
  semanticEntryRefs : SemanticEntryRefKey → Option String := fun _ => none
  productRefs : String → Option String := fun _ => none
  entryExists : Option (String → Bool) := none

def resolveExistingProcessEntryId (entryId : Option String) (entryExists : Option (String → Bool)) : Option String :=
  entryId.filter fun id => id ≠ "" && entryExists.all fun entryExists => entryExists id

def resolveProcessSemanticRefEntryId (ctx : StartContext) (ref : SemanticEntryRefKey) : Option String :=
  (resolveExistingProcessEntryId (ctx.semanticEntryRefs ref) ctx.entryExists).or
    (match ref with
      | .currentPrimaryPathLeaf => resolveExistingProcessEntryId ctx.currentLeafId ctx.entryExists
      | .rootEntry => resolveExistingProcessEntryId ctx.rootEntryId ctx.entryExists
      | .plan | .review => none)

def resolveProcessProductRefEntryId (ctx : StartContext) (productName : String) : Option String :=
  if trim productName = "" then none
  else resolveExistingProcessEntryId (ctx.productRefs (trim productName)) ctx.entryExists

def StartReference.entryId (ctx : StartContext) : StartReference → Option String
  | .semantic ref => resolveProcessSemanticRefEntryId ctx ref
  | .product productName => resolveProcessProductRefEntryId ctx productName

/-- `resolveProcessTurnStartTarget` of a selection that refers to nothing. -/
def resolvePlainStart (ctx : StartContext) : StartFallback → StartResolution
  | .currentLeaf => ⟨resolveExistingProcessEntryId ctx.currentLeafId ctx.entryExists, .currentLeaf⟩
  | .sessionRoot => ⟨none, .root⟩
  | .entry entryId => ⟨some entryId, .entry entryId⟩

/-- `resolveProcessTurnStartTarget`. -/
def resolveProcessTurnStartTarget (branchType : PathType) (ctx : StartContext) : StartSelection → StartResolution
  | .plain start => resolvePlainStart ctx start
  | .ref reference =>
    match reference.entryId ctx with
    | some entryId => ⟨some entryId, .entry entryId⟩
    | none => resolvePlainStart ctx (defaultProcessTurnStartSelection branchType)
  | .refOr reference fallback =>
    match reference.entryId ctx with
    | some entryId => ⟨some entryId, .entry entryId⟩
    | none => resolveProcessTurnStartTarget branchType ctx fallback

/-- The selection that the fallbacks of a selection end in. -/
def StartSelection.settles (branchType : PathType) : StartSelection → StartFallback
  | .plain start => start
  | .ref _ => defaultProcessTurnStartSelection branchType
  | .refOr _ fallback => fallback.settles branchType

/-- A start is at an entry that is referred to, or where the fallbacks end. -/
theorem resolve_cases (branchType : PathType) (ctx : StartContext) (selection : StartSelection) :
    (∃ entryId, (resolveProcessTurnStartTarget branchType ctx selection).startTarget = .entry entryId) ∨
      resolveProcessTurnStartTarget branchType ctx selection = resolvePlainStart ctx (selection.settles branchType) := by
  induction selection with
  | plain start => exact .inr rfl
  | ref reference =>
    unfold resolveProcessTurnStartTarget
    cases reference.entryId ctx with
    | some entryId => exact .inl ⟨entryId, rfl⟩
    | none => exact .inr rfl
  | refOr reference fallback ih =>
    unfold resolveProcessTurnStartTarget
    cases reference.entryId ctx with
    | some entryId => exact .inl ⟨entryId, rfl⟩
    | none => exact ih

/-- A process whose session is empty and that has no references yet. -/
def bareContext : StartContext where
  currentLeafId := none
  rootEntryId := none

theorem entryId_bare (reference : StartReference) : reference.entryId bareContext = none := by
  cases reference with
  | semantic ref => cases ref <;> rfl
  | product productName =>
    show resolveProcessProductRefEntryId bareContext productName = none
    unfold resolveProcessProductRefEntryId
    split <;> rfl

/-- With no references a start is where the fallbacks end. -/
theorem resolve_bare (branchType : PathType) (selection : StartSelection) :
    resolveProcessTurnStartTarget branchType bareContext selection =
      resolvePlainStart bareContext (selection.settles branchType) := by
  induction selection with
  | plain start => rfl
  | ref reference =>
    unfold resolveProcessTurnStartTarget
    rw [entryId_bare]
    rfl
  | refOr reference fallback ih =>
    unfold resolveProcessTurnStartTarget
    rw [entryId_bare]
    exact ih

theorem plain_currentLeaf {ctx : StartContext} {start : StartFallback} :
    (resolvePlainStart ctx start).startTarget = .currentLeaf ↔ start = .currentLeaf := by
  cases start <;> simp [resolvePlainStart]

theorem plain_root {ctx : StartContext} {start : StartFallback} :
    (resolvePlainStart ctx start).startTarget = .root ↔ start = .sessionRoot := by
  cases start <;> simp [resolvePlainStart]

/-! ## Validation -/

/-- What an LLM turn declares about its start; the errors are those of the checks of the rest of its
definition, before and after the checks of the start. -/
structure LlmTurnDefinition where
  branchType : PathType
  context : String := "full"
  startFrom : Option StartSelection := none
  restorePrimaryLeafAfterTurn : Option Bool := none
  errorsBefore : List String := []
  errorsAfter : List String := []

/-- `resolveProcessTurnStartSelection`. -/
def LlmTurnDefinition.startSelection (turnDef : LlmTurnDefinition) : StartSelection :=
  turnDef.startFrom.getD (.plain (defaultProcessTurnStartSelection turnDef.branchType))

/-- `/^[a-z][a-z0-9-]*$/`. -/
def isValidProcessProductName (value : String) : Bool := EntryRefs.isValidProcessProductName (JsString.lit value)

def validateProcessProductName (name : String) : List String :=
  if isValidProcessProductName name then []
  else ["Invalid process product name '" ++ name ++ "'. Product names must match ^[a-z][a-z0-9-]*$"]

def StartReference.errors : StartReference → List String
  | .semantic _ => []
  | .product productName => validateProcessProductName productName

def validateTurnStartSelection (turnId : String) : String → StartSelection → List String
  | context, .plain (.entry entryId) =>
    if trim entryId = "" then ["LLM turn '" ++ turnId ++ "' " ++ context ++ " entry id must be non-empty"] else []
  | _, .plain _ => []
  | _, .ref reference => reference.errors
  | context, .refOr reference fallback =>
    reference.errors ++ validateTurnStartSelection turnId (context ++ " fallback") fallback

/-- The errors of a branch type that starts where it must not. -/
def branchStartErrors (turnId : String) (turnDef : LlmTurnDefinition) : List String :=
  (if turnDef.branchType = .rootBranch ∧ turnDef.startSelection = .plain .currentLeaf then
    ["LLM turn '" ++ turnId ++ "' uses branchType 'root_branch' but starts from the current leaf"] else []) ++
  (if turnDef.branchType = .leafBranch ∧ turnDef.startSelection = .plain .sessionRoot then
    ["LLM turn '" ++ turnId ++ "' uses branchType 'leaf_branch' but starts from the session root"] else [])

def validateLlmTurnDefinition (turnId : String) (turnDef : LlmTurnDefinition) : List String :=
  turnDef.errorsBefore ++ branchStartErrors turnId turnDef ++
    validateTurnStartSelection turnId "startFrom" turnDef.startSelection ++ turnDef.errorsAfter

/-! ## The tree strategy of the worker -/

/-- `TurnTreePlan`. -/
structure TurnTreePlan where
  pathType : PathType
  forkPiEntryId : Option String
  savedPrimaryLeafId : Option String
  restorePrimaryLeafAfterTurn : Bool
  startTarget : StartTarget

/-- `resolvePreTurnTargetStartSelection`, by whether the first input is for the leaf of the primary path. -/
def resolvePreTurnTargetStartSelection (targetsPrimaryLeaf : Bool) : Option StartSelection :=
  if targetsPrimaryLeaf then some (.ref (.semantic .currentPrimaryPathLeaf)) else none

def resolveContextAwareTurnStartSelection (turnDef : LlmTurnDefinition) (preTurnStartSelection : Option StartSelection)
    (hasPreTurnTargetedInputs : Bool) : StartSelection :=
  match preTurnStartSelection with
  | some selection => selection
  | none =>
    if hasPreTurnTargetedInputs then turnDef.startSelection
    else if turnDef.context = "fresh" ∧ turnDef.branchType = .primary then .plain .sessionRoot
    else if turnDef.context = "fresh_seeded" ∧ turnDef.branchType = .primary ∧ turnDef.startFrom.isNone then .plain .sessionRoot
    else turnDef.startSelection

def planTurnTreeExecution (turnDef : LlmTurnDefinition) (ctx : StartContext) (preTurnStartSelection : Option StartSelection)
    (hasPreTurnTargetedInputs : Bool) : TurnTreePlan :=
  let start := resolveProcessTurnStartTarget turnDef.branchType ctx
    (resolveContextAwareTurnStartSelection turnDef preTurnStartSelection hasPreTurnTargetedInputs)
  { pathType := turnDef.branchType
    forkPiEntryId := start.forkPiEntryId
    savedPrimaryLeafId := ctx.currentLeafId
    restorePrimaryLeafAfterTurn := turnDef.restorePrimaryLeafAfterTurn.getD (turnDef.branchType ≠ .primary)
    startTarget := start.startTarget }

/-- `positionHandleForTurn`, by the leaf of the session tree before and after it. -/
def positionHandleForTurn (leafId : Option String) (plan : TurnTreePlan) : Option String :=
  match plan.startTarget with
  | .entry entryId => some entryId
  | .root => none
  | .currentLeaf => leafId

/-- The leaf a turn starts at. -/
def StartTarget.leaf (currentLeafId : Option String) : StartTarget → Option String
  | .entry entryId => some entryId
  | .root => none
  | .currentLeaf => currentLeafId

/-! ## What branch types bind -/

/-- A declared branch type binds the start of its turn, and the worker starts where the domain says. -/
structure BindsStart (turnDef : LlmTurnDefinition) : Prop where
  root : turnDef.branchType = .rootBranch → ∀ ctx,
    (resolveProcessTurnStartTarget turnDef.branchType ctx turnDef.startSelection).startTarget ≠ .currentLeaf
  leaf : turnDef.branchType = .leafBranch → ∀ ctx,
    (resolveProcessTurnStartTarget turnDef.branchType ctx turnDef.startSelection).startTarget ≠ .root
  worker : ∀ ctx preTurnStartSelection hasPreTurnTargetedInputs,
    positionHandleForTurn ctx.currentLeafId
        (planTurnTreeExecution turnDef ctx preTurnStartSelection hasPreTurnTargetedInputs) =
      (resolveProcessTurnStartTarget turnDef.branchType ctx
        (resolveContextAwareTurnStartSelection turnDef preTurnStartSelection hasPreTurnTargetedInputs)).startTarget.leaf
          ctx.currentLeafId
  branch : turnDef.branchType ≠ .primary → ∀ ctx hasPreTurnTargetedInputs,
    (planTurnTreeExecution turnDef ctx none hasPreTurnTargetedInputs).startTarget =
      (resolveProcessTurnStartTarget turnDef.branchType ctx turnDef.startSelection).startTarget

/-- The fallbacks of a turn do not end where its branch type must not start. -/
def SettlesWithin (turnDef : LlmTurnDefinition) : Prop :=
  (turnDef.branchType = .rootBranch → turnDef.startSelection.settles turnDef.branchType ≠ .currentLeaf) ∧
  (turnDef.branchType = .leafBranch → turnDef.startSelection.settles turnDef.branchType ≠ .sessionRoot)

theorem position_plan (turnDef : LlmTurnDefinition) (ctx : StartContext) (preTurnStartSelection : Option StartSelection)
    (hasPreTurnTargetedInputs : Bool) :
    positionHandleForTurn ctx.currentLeafId
        (planTurnTreeExecution turnDef ctx preTurnStartSelection hasPreTurnTargetedInputs) =
      (resolveProcessTurnStartTarget turnDef.branchType ctx
        (resolveContextAwareTurnStartSelection turnDef preTurnStartSelection hasPreTurnTargetedInputs)).startTarget.leaf
          ctx.currentLeafId := by
  unfold positionHandleForTurn planTurnTreeExecution StartTarget.leaf
  dsimp only

theorem contextAware_branch {turnDef : LlmTurnDefinition} (h : turnDef.branchType ≠ .primary) (hasPreTurnTargetedInputs : Bool) :
    resolveContextAwareTurnStartSelection turnDef none hasPreTurnTargetedInputs = turnDef.startSelection := by
  simp [resolveContextAwareTurnStartSelection, h]

/-- Where the fallbacks end decides whether a start can be at the current leaf. -/
theorem never_currentLeaf (branchType : PathType) (selection : StartSelection) :
    (∀ ctx, (resolveProcessTurnStartTarget branchType ctx selection).startTarget ≠ .currentLeaf) ↔
      selection.settles branchType ≠ .currentLeaf := by
  constructor
  · intro h hsettles
    apply h bareContext
    rw [resolve_bare, hsettles]
    rfl
  · intro h ctx hstart
    rcases resolve_cases branchType ctx selection with ⟨entryId, hentry⟩ | hplain
    · rw [hentry] at hstart
      cases hstart
    · rw [hplain] at hstart
      exact h (plain_currentLeaf.1 hstart)

theorem never_root (branchType : PathType) (selection : StartSelection) :
    (∀ ctx, (resolveProcessTurnStartTarget branchType ctx selection).startTarget ≠ .root) ↔
      selection.settles branchType ≠ .sessionRoot := by
  constructor
  · intro h hsettles
    apply h bareContext
    rw [resolve_bare, hsettles]
    rfl
  · intro h ctx hstart
    rcases resolve_cases branchType ctx selection with ⟨entryId, hentry⟩ | hplain
    · rw [hentry] at hstart
      cases hstart
    · rw [hplain] at hstart
      exact h (plain_root.1 hstart)

/-- A turn binds its start exactly when its fallbacks end within its branch type. -/
theorem bindsStart_iff (turnDef : LlmTurnDefinition) : BindsStart turnDef ↔ SettlesWithin turnDef := by
  constructor
  · intro h
    exact ⟨fun hb => (never_currentLeaf _ _).1 (h.root hb), fun hb => (never_root _ _).1 (h.leaf hb)⟩
  · rintro ⟨hroot, hleaf⟩
    refine ⟨fun hb => (never_currentLeaf _ _).2 (hroot hb), fun hb => (never_root _ _).2 (hleaf hb),
      position_plan turnDef, fun hb ctx hasPreTurnTargetedInputs => ?_⟩
    unfold planTurnTreeExecution
    rw [contextAware_branch hb]

/-- The validator sees to that where there is no fallback. -/
theorem settlesWithin_of_valid {turnId : String} {turnDef : LlmTurnDefinition}
    (h : validateLlmTurnDefinition turnId turnDef = [])
    (hno : ∀ reference fallback, turnDef.startSelection ≠ .refOr reference fallback) : SettlesWithin turnDef := by
  simp only [validateLlmTurnDefinition, List.append_eq_nil_iff] at h
  obtain ⟨⟨⟨-, hbranch⟩, -⟩, -⟩ := h
  simp only [branchStartErrors, List.append_eq_nil_iff, ite_eq_right_iff, List.cons_ne_nil, imp_false, not_and] at hbranch
  obtain ⟨hroot, hleaf⟩ := hbranch
  cases hs : turnDef.startSelection with
  | plain start =>
    refine ⟨fun hb hsettles => hroot hb ?_, fun hb hsettles => hleaf hb ?_⟩
    · rw [hs] at hsettles ⊢
      exact congrArg _ hsettles
    · rw [hs] at hsettles ⊢
      exact congrArg _ hsettles
  | ref reference =>
    refine ⟨fun hb hsettles => ?_, fun hb hsettles => ?_⟩
    · rw [hs, hb] at hsettles
      cases hsettles
    · rw [hs, hb] at hsettles
      cases hsettles
  | refOr reference fallback => exact absurd hs (hno reference fallback)

/-- A review of a plan that starts at the plan, or at the current leaf while there is none. -/
def planReview : LlmTurnDefinition where
  branchType := .rootBranch
  startFrom := some (.refOr (.product "plan") (.plain .currentLeaf))

/-- It is accepted, and starts at the current leaf of a process without a plan. -/
theorem fallback_leaves_branch : ¬ ∀ turnId turnDef, validateLlmTurnDefinition turnId turnDef = [] → BindsStart turnDef := by
  intro hall
  exact (hall "review" planReview (by decide +kernel)).root rfl bareContext rfl

end Leitwerk.ProcessSdk
