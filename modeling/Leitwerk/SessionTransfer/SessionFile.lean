import Leitwerk.Lib.Json
import Leitwerk.Lib.JsonStringify
import Leitwerk.Lib.Lines
/-!
# Rewriting a Pi session file

`rewritePiSession` of `format.ts` takes a text of JSON lines, a header and
entries that form a tree, to the text of the same session in another directory.
It leaves out blank lines wherever they are, but reads the header from the first
line of the text. So what it accepts are the valid sessions whose first line is
not blank, and what it writes it accepts and writes again.
-/

namespace Leitwerk.SessionTransfer.SessionFile

open JsString (lit trim digits)
open JsonSyntax
open OwnKeys (ordered)

/-- What is used of `node:path` and of dates. -/
structure Host where
  isAbsolute : JsString → Bool
  resolve : JsString → JsString
  /-- `Number.isFinite(Date.parse(text))`. -/
  isDate : JsString → Bool
  resolve_absolute : ∀ p, isAbsolute (resolve p) = true
  absolute_ne_blank : ∀ p, isAbsolute p = true → JsString.trim p ≠ []

inductive Failure
  /-- `JSON.parse` throws. -/
  | syntaxError (text : JsString)
  | error (message : JsString)

abbrev Result := Except Failure

def fail {α : Type} (message : JsString) : Result α := .error (.error message)

abbrev Fields (ν : Type) := List (JsString × JsonTree ν)

/-- `RewrittenPiSession`. -/
structure RewrittenPiSession (ν : Type) where
  content : JsString
  header : Fields ν
  entryCount : ℕ

/-! ## Lines and dates -/

def newline : UInt16 := 0x0a

/-- A line without the carriage return at its end. -/
def stripCarriageReturn (line : JsString) : JsString := if line.getLast? = some 0x0d then line.dropLast else line

/-- `content.split(/\r?\n/)`. What follows the last separator keeps its carriage return. -/
def physicalLines (content : JsString) : List JsString :=
  (Lines.split newline content).dropLast.map stripCarriageReturn ++ (Lines.split newline content).getLast?.toList

def sessionLines (content : JsString) : List JsString := (physicalLines content).filter fun line => JsString.trim line ≠ []

/-- What follows `count` digits. -/
def afterDigits (count : ℕ) (s : JsString) : Option JsString :=
  if count ≤ s.length ∧ (s.take count).all isDigit then some (s.drop count) else none

/-- What follows this unit. -/
def afterUnit (u : UInt16) : JsString → Option JsString
  | [] => none
  | v :: rest => if v = u then some rest else none

/-- `Z|[+-]\d{2}:\d{2}`, to the end. -/
def isZone (s : JsString) : Bool :=
  s = lit "Z" ||
    ((afterUnit 0x2b s <|> afterUnit 0x2d s) >>= afterDigits 2 >>= afterUnit 0x3a >>= afterDigits 2) = some []

/-- The regular expression for timestamps. -/
def isIsoDatetime (s : JsString) : Bool :=
  match afterDigits 4 s >>= afterUnit 0x2d >>= afterDigits 2 >>= afterUnit 0x2d >>= afterDigits 2 >>= afterUnit 0x54 >>=
    afterDigits 2 >>= afterUnit 0x3a >>= afterDigits 2 >>= afterUnit 0x3a >>= afterDigits 2 with
  | none => false
  | some rest =>
    match afterUnit 0x2e rest with
    | none => isZone rest
    | some fraction => isDigits (fraction.takeWhile isDigit) && isZone (fraction.dropWhile isDigit)

example : isIsoDatetime (lit "2026-09-01T00:00:00.000Z") = true := by decide

/-! ## `format.ts` -/

variable {ν : Type} [DecidableEq ν] (numbers : Numbers ν) (host : Host)

/-- The string in a field. -/
def textField (fields : Fields ν) (key : String) : Option JsString :=
  match getField fields (lit key) with
  | some (.str s) => some s
  | _ => none

/-- `object`. -/
def object (tree : JsonTree ν) (label : JsString) : Result (Fields ν) :=
  match tree with
  | .obj fields => .ok fields
  | _ => fail (label ++ lit " must be an object")

/-- `string`, of a field. -/
def string (fields : Fields ν) (key : String) (label : JsString) : Result JsString :=
  match textField fields key with
  | some s => if JsString.trim s = [] then fail (label ++ lit " must be a non-empty string") else .ok s
  | none => fail (label ++ lit " must be a non-empty string")

def parsePiSessionHeader (content : JsString) : Result (Fields ν) :=
  let firstLine := (physicalLines content).headD []
  if firstLine = [] then fail (lit "Pi session is empty")
  else
    match jsonParse numbers firstLine with
    | none => .error (.syntaxError firstLine)
    | some (.obj fields) =>
      if textField fields "type" = some (lit "session") then .ok fields else fail (lit "Pi session header is invalid")
    | some _ => fail (lit "Pi session header is invalid")

/-- The object on a line. -/
def parseLine (index : ℕ) (line : JsString) : Result (Fields ν) :=
  match jsonParse numbers line with
  | none => fail (lit "Session line " ++ digits 10 (index + 1) ++ lit " is not valid JSON")
  | some tree => object tree (lit "session line " ++ digits 10 (index + 1))

def parseLines (index : ℕ) : List JsString → Result (List (Fields ν))
  | [] => .ok []
  | line :: lines => do
    let entry ← parseLine numbers index line
    let others ← parseLines (index + 1) lines
    return entry :: others

def isVersion3 (fields : Fields ν) : Bool :=
  match getField fields (lit "version") with
  | some (.num x) => x = numbers.read (lit "3")
  | _ => false

/-- What is checked of the header after its type. -/
def checkHeader (header : Fields ν) (expectedSourceCwd : Option JsString) : Result Unit :=
  if !isVersion3 numbers header then fail (lit "unsupported_pi_session_version")
  else do
    let _ ← string header "id" (lit "session header.id")
    let sourceCwd ← string header "cwd" (lit "session header.cwd")
    if !host.isAbsolute sourceCwd then fail (lit "Transferred session cwd must be absolute")
    else if expectedSourceCwd.any (· ≠ sourceCwd) then fail (lit "Transferred session cwd does not match the transfer manifest")
    else
      let timestamp ← string header "timestamp" (lit "session header.timestamp")
      if !isIsoDatetime timestamp || !host.isDate timestamp then
        fail (lit "Transferred session timestamp must be an ISO datetime")
      else .ok ()

/-- Whether an entry is a root or has its parent among these. -/
def hasParent (ids : List JsString) (entry : Fields ν) : Bool :=
  match getField entry (lit "parentId") with
  | some .null => true
  | some (.str parentId) => ids.contains parentId
  | _ => false

/-- The loop over the entries, after those with these ids. -/
def checkEntries (index : ℕ) (ids : List JsString) : List (Fields ν) → Result Unit
  | [] => .ok ()
  | entry :: entries =>
    let label := lit "session line " ++ digits 10 (index + 1)
    if textField entry "type" = some (lit "session") then fail (lit "Transferred session contains a second header")
    else do
      let _ ← string entry "type" (label ++ lit ".type")
      let id ← string entry "id" (label ++ lit ".id")
      if id ∈ ids then fail (lit "Transferred session contains duplicate entry id '" ++ id ++ lit "'")
      else if !hasParent ids entry then fail (lit "Transferred session entry '" ++ id ++ lit "' has an invalid parent")
      else checkEntries (index + 1) (id :: ids) entries

/-- `{ ...rest, cwd: path.resolve(localCwd) }`. -/
def relocate (localCwd : JsString) (header : Fields ν) : Fields ν :=
  setField (header.filter fun f => f.1 ≠ lit "parentSession") (lit "cwd") (.str (host.resolve localCwd))

/-- The text of a session. -/
def sessionText (entries : List (Fields ν)) : JsString :=
  Lines.join newline (entries.map fun fields => stringify numbers (.obj fields)) ++ [newline]

def rewritePiSession (content localCwd : JsString) (expectedSourceCwd : Option JsString) : Result (RewrittenPiSession ν) :=
  if sessionLines content = [] then fail (lit "Transferred Pi session is empty")
  else do
    let parsed ← parseLines numbers 0 (sessionLines content)
    let sourceHeader ← parsePiSessionHeader numbers content
    checkHeader numbers host sourceHeader expectedSourceCwd
    checkEntries 1 [] parsed.tail
    let header := relocate host localCwd sourceHeader
    return { content := sessionText numbers (header :: parsed.tail), header, entryCount := parsed.length - 1 }

/-! ## Valid sessions -/

/-- A version 3 header. -/
structure ValidHeader (header : Fields ν) : Prop where
  type : textField header "type" = some (lit "session")
  version : getField header (lit "version") = some (.num (numbers.read (lit "3")))
  id : ∃ id, textField header "id" = some id ∧ JsString.trim id ≠ []
  cwd : ∃ cwd, textField header "cwd" = some cwd ∧ JsString.trim cwd ≠ [] ∧ host.isAbsolute cwd = true
  timestamp : ∃ timestamp, textField header "timestamp" = some timestamp ∧ JsString.trim timestamp ≠ [] ∧
    isIsoDatetime timestamp = true ∧ host.isDate timestamp = true

/-- Entries with a type and an id of their own, none of them a header, that come after others with the ids `earlier`: each
is a root or has its parent among those or before it. -/
structure ValidEntries (earlier : List JsString) (entries : List (Fields ν)) : Prop where
  typed : ∀ e ∈ entries, ∃ type, textField e "type" = some type ∧ JsString.trim type ≠ [] ∧ type ≠ lit "session"
  named : ∀ e ∈ entries, ∃ id, textField e "id" = some id ∧ JsString.trim id ≠ [] ∧ id ∉ earlier
  unique : entries.Pairwise fun e e' => textField e "id" ≠ textField e' "id"
  parents : ∀ (i : ℕ) e, entries[i]? = some e → getField e (lit "parentId") = some .null ∨
    ∃ parentId, textField e "parentId" = some parentId ∧
      (parentId ∈ earlier ∨ ∃ j < i, ∃ e', entries[j]? = some e' ∧ textField e' "id" = some parentId)

/-- The lines of a text that are not blank are a header and entries. -/
structure IsSession (content : JsString) (header : Fields ν) (entries : List (Fields ν)) : Prop where
  lines : (sessionLines content).map (jsonParse numbers) = (header :: entries).map fun fields => some (.obj fields)
  header : ValidHeader numbers host header
  entries : ValidEntries [] entries

end Leitwerk.SessionTransfer.SessionFile
