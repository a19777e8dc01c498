/-!
# Values both sides of the protocol use

The enumerations of `packages/domain/src/domain-model.ts` and the payloads of
the facts a worker reports about a turn. Identifiers are the source's strings.
A JSON value that the modelled code only passes on is its text (`Json`).
-/

namespace Leitwerk

/-- A JSON value no modelled function looks into, as its text. -/
abbrev Json := String

/-- `WorkerErrorClass`. -/
inductive ErrorClass where
  | llmError | gitError | piCrash | pipelineError | infrastructure | protocolError | operatorAbort
  deriving DecidableEq

/-- `isWorkerErrorClass`: the names of the error classes, read back. -/
def ErrorClass.ofString? : String → Option ErrorClass
  | "llm_error" => some .llmError
  | "git_error" => some .gitError
  | "pi_crash" => some .piCrash
  | "pipeline_error" => some .pipelineError
  | "infrastructure" => some .infrastructure
  | "protocol_error" => some .protocolError
  | "operator_abort" => some .operatorAbort
  | _ => none

/-- `ProcessTurnType`. -/
inductive TurnType where
  | llm | human | external | automatic
  deriving DecidableEq

/-- `ProcessTurnRecordPathType`. -/
inductive PathType where
  | primary | rootBranch | leafBranch
  deriving DecidableEq

/-- `ProcessLifecycleStatus`. -/
inductive LifecycleStatus where
  | discovered | active | waiting | error | completed | aborted
  deriving DecidableEq

/-- The string of a lifecycle status. -/
def LifecycleStatus.text : LifecycleStatus → String
  | .discovered => "discovered"
  | .active => "active"
  | .waiting => "waiting"
  | .error => "error"
  | .completed => "completed"
  | .aborted => "aborted"

/-- `TurnFailureCode`. -/
inductive TurnFailureCode where
  | branchDrift
  deriving DecidableEq

/-- The characters `String.prototype.trim` removes. -/
def isWhiteSpace (c : Char) : Bool :=
  (9 ≤ c.toNat && c.toNat ≤ 13) || (0x2000 ≤ c.toNat && c.toNat ≤ 0x200a) ||
    [0x20, 0xa0, 0x1680, 0x2028, 0x2029, 0x202f, 0x205f, 0x3000, 0xfeff].contains c.toNat

/-- `s.trim()`. -/
def trim (s : String) : String :=
  String.ofList ((s.toList.dropWhile isWhiteSpace).reverse.dropWhile isWhiteSpace).reverse

/-- `trimToNull`. -/
def trimToNull (text : Option String) : Option String := (text.map trim).filter (· ≠ "")

/-- `s.trim() !== ""`. -/
def nonBlank (s : String) : Bool := s.toList.any (!isWhiteSpace ·)

/-! ## What a worker reports about a turn -/

/-- `FailedTurnRecoveryContext`. -/
structure FailedTurnRecoveryContext where
  suggestedContinuePrompt : String
  failureCode : String
  missingToolNames : Option (List String) := none
  deriving DecidableEq

/-- `TransportErrorDetails`: bounded, allowlisted names and codes of nested causes. -/
structure TransportErrorDetails where
  causes : List (Option String × Option String × Option Nat)
  truncated : Bool := false
  deriving DecidableEq

/-- The `failureDetails` of a failed turn: a record the turn reported, or the
details of a failed mandatory snapshot. -/
inductive FailureDetails where
  | record (json : Json)
  | snapshot (reason : String) (transport : TransportErrorDetails)
  deriving DecidableEq

/-- `WorkerTurnOutcomePayload`. -/
structure TurnOutcomePayload where
  turnRecordId : String
  turnId : String
  turnType : TurnType
  outcome : String
  params : Json
  pathType : PathType
  forkPiEntryId : Option String
  resultPiEntryId : Option String
  turnResultMarkdown : Option String
  resultSummary : Option String
  rootEntryId : Option String
  deriving DecidableEq

/-- `WorkerTurnFailedPayload`. -/
structure TurnFailedPayload where
  turnRecordId : String
  turnId : String
  turnType : TurnType
  pathType : PathType
  errorSummary : String
  errorClass : ErrorClass
  forkPiEntryId : Option String
  resultPiEntryId : Option String
  failureCode : Option TurnFailureCode
  failureDetails : Option FailureDetails
  recoveryContext : Option FailedTurnRecoveryContext
  deriving DecidableEq

/-- `WorkerLifecycleParkedPayload`. -/
structure LifecycleParkedPayload where
  selectedTurnId : Option String
  reason : Option String
  errorClass : Option ErrorClass
  deriving DecidableEq

/-- `WorkerFailedPayload`. -/
structure WorkerFailedPayload where
  state : String
  errorCode : String
  message : String
  errorClass : ErrorClass
  selectedTurnId : Option String
  deriving DecidableEq

end Leitwerk
