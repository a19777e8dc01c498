import Leitwerk.Lib.JsonText
import Mathlib.Algebra.GroupWithZero.Nat
/-!
# Merging pending external fires

Fires of one merge key wait as one row: `QueueExternalSourceFire` merges each new
fire into it, and draining merges the rows of a group. What is merged is stored
like a fire that was never merged, and is told by its lists of provider records.
-/

namespace Leitwerk.External.PendingFires

open JsString (lit trim Trimmed)
open JsonSyntax

variable {ν : Type}

/-- An object: its keys and values in their order. -/
abbrev Record (ν : Type) := List (JsString × JsonTree ν)

/-- The fields of a `PendingExternalSourceFire` that are merged. -/
structure Fire (ν : Type) where
  input : Record ν
  event : Record ν
  queuedCount : ℕ

def normalizeRecord : JsonTree ν → Record ν
  | .obj fields => fields
  | _ => []

/-- `INSTRUCTION_KEYS`. -/
def instructionKeys : List JsString := [lit "instruction", lit "bodyMarkdown", lit "message", lit "text", lit "content"]

/-- The text under a key, trimmed, unless it is blank. -/
def textOf : Option (JsonTree ν) → Option JsString
  | some (.str s) => if JsString.trim s = [] then none else some (JsString.trim s)
  | _ => none

/-- The first text that counts as the instruction of an input. -/
def instructionOf (input : Record ν) : Option JsString := instructionKeys.findSome? fun key => textOf (input.lookup key)

def mergeInstructionText (values : List (Record ν)) : Option JsString :=
  let parts := values.filterMap instructionOf
  if parts = [] then none else some ((lit "\n\n").intercalate parts)

def providerInputsKey : JsString := lit "providerInputs"

def providerEventsKey : JsString := lit "providerEvents"

/-- What was merged before is told by its list; anything else is one record, unless it is empty. -/
def providerRecordsFrom (value : Record ν) (key : JsString) : List (Record ν) :=
  match value.lookup key with
  | some (.arr nested) => (nested.map normalizeRecord).filter fun entry => !entry.isEmpty
  | _ => if value.isEmpty then [] else [value]

/-- The keys under which the merged instruction is stored: those that the input has. -/
def instructionSlots (input : Record ν) : List JsString :=
  let keys := instructionKeys.filter fun key => (input.lookup key).isSome
  if keys = [] then [lit "instruction"] else keys

def withInstruction (input : Record ν) : Option JsString → Record ν
  | none => input
  | some instruction => (instructionSlots input).foldl (fun merged key => addField merged (key, .str instruction)) input

def providerInputs (fires : List (Fire ν)) : List (Record ν) :=
  fires.flatMap fun fire => providerRecordsFrom fire.input providerInputsKey

def providerEvents (fires : List (Fire ν)) : List (Record ν) :=
  fires.flatMap fun fire => providerRecordsFrom fire.event providerEventsKey

def mergePendingFires : List (Fire ν) → Fire ν
  | [] => ⟨[], [], 0⟩
  | first :: rest =>
    let fires := first :: rest
    let mergedInput := withInstruction first.input (mergeInstructionText (fires.map (·.input)))
    { input :=
        if (providerInputs fires).isEmpty then mergedInput
        else addField mergedInput (providerInputsKey, .arr ((providerInputs fires).map .obj))
      event :=
        addField ((providerEvents fires).head?.getD first.event) (providerEventsKey, .arr ((providerEvents fires).map .obj))
      queuedCount := (fires.map (·.queuedCount)).sum }

/-- `QueueExternalSourceFire`: the row of a merge key after one more fire. -/
def queueFire (existing : Option (Fire ν)) (fireInput fireEvent : Record ν) : Fire ν :=
  match existing with
  | some existing => mergePendingFires [existing, ⟨fireInput, fireEvent, 1⟩]
  | none => ⟨fireInput, fireEvent, 1⟩

end Leitwerk.External.PendingFires
