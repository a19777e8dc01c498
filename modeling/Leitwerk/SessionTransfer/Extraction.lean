import Leitwerk.SessionTransfer.FileSystem
import Mathlib.Algebra.Group.Nat.Defs
/-!
# Extraction of a transfer archive

`extractTransferArchive` of `archive.ts`, over the entries its tar stream
yields. Every call may fail, and so may the stream at every entry and every
chunk: a broken or oversized archive and a cancelled transfer are such failures.
-/

namespace Leitwerk.SessionTransfer

open JsString (lit)
open PiResource (slash backslash dot dotDot normalize)

inductive EntryType
  | file
  | directory
  | symlink
  | other (type : JsString)
  deriving DecidableEq

/-- A header of the archive with the chunks of its content. -/
structure Entry where
  name : JsString
  type : Option EntryType
  size : Option Int
  mode : Option Nat
  mtime : Option Int
  linkname : Option JsString
  chunks : List Utf8.Bytes

structure Limits where
  maxEntries : Nat
  maxLogicalBytes : Nat

structure DirectoryMetadata where
  target : Path
  mode : Nat
  mtime : Int

/-- What the extraction knows between two entries. -/
structure Progress (M : Type) where
  entriesProcessed : Nat
  logicalBytesProcessed : Nat
  manifest : Option M
  seen : List JsString
  symlinks : LinkMap
  directoryMetadata : List DirectoryMetadata

def Progress.start {M : Type} : Progress M := ⟨0, 0, none, [], Table.empty, []⟩

def manifestName : JsString := lit "manifest.json"

def sessionName : JsString := lit "session.jsonl"

def workspaceName : JsString := lit "workspace"

def workspacePrefix : JsString := lit "workspace/"

def manifestMaxBytes : Nat := 1024 * 1024

def maxSafeInteger : Nat := 2 ^ 53 - 1

/-! ## Paths as texts and as components -/

/-- One component added to an absolute path. -/
def pathStep (current : Path) (segment : JsString) : Path :=
  if segment = [] ∨ segment = dot then current
  else if segment = dotDot then current.dropLast
  else current ++ [segment]

/-- `path.resolve(root, ...segments)` of segments without slashes. -/
def resolvePath (root : Path) (segments : List JsString) : Path := segments.foldl pathStep root

/-- `path.relative`, in components. -/
def relative : Path → Path → Path
  | r :: root, t :: target => if r = t then relative root target else (r :: root).map (fun _ => dotDot) ++ t :: target
  | root, target => root.map (fun _ => dotDot) ++ target

/-- `isPathInside`. -/
def isPathInside (root candidate : Path) : Bool := (relative root candidate).head? ≠ some dotDot

def failIf (c : Prop) [Decidable c] (message : JsString) : Fs Unit := if c then fail message else pure ()

/-- `value.replaceAll("\\", "/")`. -/
def forwardSlashes (value : JsString) : JsString := value.map fun u => if u = backslash then slash else u

/-- `assertSafeRelativePath`. -/
def assertSafeRelativePath (value label : JsString) : Fs JsString := do
  failIf (0 ∈ value ∨ isAbsolute value = true) (label ++ lit " must be relative")
  failIf (normalize (forwardSlashes value) = dotDot ∨ dotDot ++ [slash] <+: normalize (forwardSlashes value) ∨
    normalize (forwardSlashes value) = dot) (label ++ lit " escapes its root")
  return normalize (forwardSlashes value)

/-- `name.replace(/\/$/, "")`. -/
def withoutSlash (name : JsString) : JsString := if name.getLast? = some slash then name.dropLast else name

section Extract

variable (world : World)

/-- The loop of `assertNoSymlinkParents`. -/
def assertNoSymlinks : Path → List JsString → Fs Unit
  | _, [] => pure ()
  | current, segment :: rest => do
    tryCatch
      (do
        failIf ((← lstat world (pathStep current segment)) matches .symlink _)
          (lit "Archive path traverses symlink '" ++ segment ++ lit "'"))
      fun failure => if failure = .system .enoent then pure () else throw failure
    assertNoSymlinks (pathStep current segment) rest

def assertNoSymlinkParents (root target : Path) : Fs Unit := assertNoSymlinks world root (relative root target.dropLast)

/-- `streamBuffer`: the chunks so far and those that follow. -/
def streamBuffer (limit : Nat) (label : JsString) : Utf8.Bytes → List Utf8.Bytes → Fs Utf8.Bytes
  | buffer, [] => do
    next world
    return buffer
  | buffer, chunk :: chunks => do
    next world
    failIf (limit < (buffer ++ chunk).length) (label ++ lit " is too large")
    streamBuffer limit label (buffer ++ chunk) chunks

/-- The chunks of an entry written to its file, with its size and the logical bytes so far. -/
def writeChunks (limits : Limits) (handle : Path) : Nat → Nat → List Utf8.Bytes → Fs (Nat × Nat)
  | actualSize, logicalBytes, [] => do
    next world
    return (actualSize, logicalBytes)
  | actualSize, logicalBytes, chunk :: chunks => do
    next world
    failIf (maxSafeInteger < actualSize + chunk.length ∨ limits.maxLogicalBytes < logicalBytes + chunk.length)
      (lit "Transfer logical byte limit exceeded")
    write world handle chunk
    writeChunks limits handle (actualSize + chunk.length) (logicalBytes + chunk.length) chunks

variable {M : Type} (parseManifest : Utf8.Bytes → Except JsString M)

def extractDirectory (progress : Progress M) (entry : Entry) (name : JsString) (target : Path) (mode : Nat) (mtime : Int) :
    Fs (Progress M) := do
  failIf (entry.size ≠ some 0) (lit "Directory '" ++ name ++ lit "' has content")
  next world
  mkdir world target (mode ||| 0o700)
  return { progress with directoryMetadata := progress.directoryMetadata ++ [⟨target, mode, mtime⟩] }

def extractSymlink (progress : Progress M) (entry : Entry) (name : JsString) (target : Path) : Fs (Progress M) := do
  failIf (entry.size ≠ some 0) (lit "Symlink '" ++ name ++ lit "' has content")
  next world
  failIf (¬ workspacePrefix <+: name) (lit "Archive symlink is outside the workspace: " ++ name)
  failIf (isAbsolute (entry.linkname.getD []) = true) (lit "Absolute archive symlink '" ++ name ++ lit "'")
  mkdirRecursive world target.dropLast 0o700
  symlink world (entry.linkname.getD []) target
  return { progress with symlinks := progress.symlinks.put (name.drop workspacePrefix.length) (entry.linkname.getD []) }

def extractManifest (progress : Progress M) (entry : Entry) (target : Path) : Fs (Progress M) := do
  let content ← streamBuffer world manifestMaxBytes (lit "Transfer manifest") [] entry.chunks
  writeFile world target content 0o600
  match parseManifest content with
  | .error message => fail message
  | .ok manifest => return { progress with manifest := some manifest }

def extractContent (limits : Limits) (progress : Progress M) (entry : Entry) (name : JsString) (target : Path) (mode : Nat)
    (mtime : Int) : Fs (Progress M) := do
  let handle ← openNew world target mode
  let (actualSize, logicalBytes) ← writeChunks world limits handle 0 progress.logicalBytesProcessed entry.chunks
  failIf ((actualSize : Int) ≠ entry.size.getD 0) (lit "Archive entry '" ++ name ++ lit "' size does not match its content")
  chmod world target mode
  utimes world target mtime
  return { progress with logicalBytesProcessed := logicalBytes }

def extractFile (limits : Limits) (progress : Progress M) (entry : Entry) (name : JsString) (target : Path) (mode : Nat)
    (mtime : Int) : Fs (Progress M) := do
  failIf (entry.size.getD 0 < 0 ∨ maxSafeInteger < entry.size.getD 0) (lit "Invalid size for archive entry '" ++ name ++ lit "'")
  mkdirRecursive world target.dropLast 0o700
  if name = manifestName then extractManifest world parseManifest progress entry target
  else extractContent world limits progress entry name target mode mtime

/-- The handler of the stream's `entry` event. -/
def extractEntry (limits : Limits) (root : Path) (progress : Progress M) (entry : Entry) : Fs (Progress M) := do
  next world
  let name ← assertSafeRelativePath (withoutSlash entry.name) (lit "archive path")
  failIf (name ∈ progress.seen) (lit "Duplicate archive path '" ++ name ++ lit "'")
  failIf (limits.maxEntries < progress.entriesProcessed + 1) (lit "Transfer entry limit exceeded")
  failIf (progress.entriesProcessed + 1 = 1 ∧ name ≠ manifestName) (lit "manifest.json must be the first archive entry")
  failIf (name ≠ manifestName ∧ name ≠ sessionName ∧ name ≠ workspaceName ∧ ¬ workspacePrefix <+: name)
    (lit "Unexpected archive path '" ++ name ++ lit "'")
  let target := resolvePath root (Lines.split slash name)
  failIf (isPathInside root target = false) (lit "Archive path escapes output: " ++ name)
  assertNoSymlinkParents world root target
  let mode := entry.mode.getD (if entry.type = some .directory then 0o755 else 0o600) &&& 0o7777
  let mtime := entry.mtime.getD 0
  let progress := { progress with seen := progress.seen ++ [name], entriesProcessed := progress.entriesProcessed + 1 }
  match entry.type with
  | some .directory => extractDirectory world progress entry name target mode mtime
  | some .symlink => extractSymlink world progress entry name target
  | some (.other type) => do
    next world
    fail (lit "Unsupported tar entry type '" ++ type ++ lit "' for '" ++ name ++ lit "'")
  | some .file | none => extractFile world parseManifest limits progress entry name target mode mtime

/-- The attributes of the directories, deepest last written first. -/
def restoreDirectories : List DirectoryMetadata → Fs Unit
  | [] => pure ()
  | directory :: rest => do
    chmod world directory.target directory.mode
    utimes world directory.target directory.mtime
    restoreDirectories rest

/-- The root file that marks whose directory this is. -/
def writeMarker (root : Path) (name value : JsString) : Fs Unit := do
  let markerName ← assertSafeRelativePath name (lit "ownership marker")
  failIf (slash ∈ markerName) (lit "Ownership marker must be a root file")
  writeFile world (pathStep root markerName) (Utf8.encode (value ++ lit "\n")) 0o600

structure ExtractInput where
  outputRoot : Path
  limits : Limits
  /-- Name and value. -/
  ownershipMarker : Option (JsString × JsString)
  entries : List Entry

def writeOwnershipMarker (input : ExtractInput) : Fs Unit :=
  match input.ownershipMarker with
  | some (name, value) => writeMarker world input.outputRoot name value
  | none => pure ()

def checkSymlinks (symlinks : LinkMap) : Fs Unit :=
  match assertConfinedSymlinks symlinks with
  | .error refusal => fail refusal.message
  | .ok _ => pure ()

/-- What is extracted once the root is there. -/
def extractInto (input : ExtractInput) : Fs M := do
  writeOwnershipMarker world input
  let progress ← input.entries.foldlM (extractEntry world parseManifest input.limits input.outputRoot) Progress.start
  next world
  checkSymlinks progress.symlinks
  restoreDirectories world progress.directoryMetadata.reverse
  match progress.manifest with
  | none => fail (lit "Transfer manifest is missing")
  | some manifest => do
    failIf (workspaceName ∉ progress.seen ∨ sessionName ∉ progress.seen) (lit "Transfer archive is incomplete")
    return manifest

/-- `extractTransferArchive`. -/
def extractTransferArchive (input : ExtractInput) : Fs M := do
  mkdir world input.outputRoot 0o700
  extractInto world parseManifest input

end Extract

end Leitwerk.SessionTransfer
