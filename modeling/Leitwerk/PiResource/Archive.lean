import Leitwerk.Lib.Comparison
import Leitwerk.PiResource.Path
import Mathlib.Algebra.GroupWithZero.Nat
/-!
# Archives of resource files

`pi-resource-bundle.ts`: the writer of deterministic ustar archives and the
parser that is to accept them. A block is the list of its 512 bytes, field after
field; the parser goes through what is left of the archive.
-/

namespace Leitwerk.PiResource

open JsString (lit digits)
open Utf8 (Bytes encode decode)
open Comparison

/-- `BLOCK_SIZE`. -/
def blockSize : Nat := 512

/-- `PiResourceFile`. -/
structure ResourceFile where
  path : JsString
  content : Bytes
  deriving DecidableEq

/-- `PiResourceBundle`. -/
structure Bundle where
  digest : JsString
  bytes : Bytes
  deriving DecidableEq

def zeros (n : Nat) : Bytes := List.replicate n 0

/-- `s.padStart(length, "0")`. -/
def padStart (length : Nat) (s : JsString) : JsString := List.replicate (length - s.length) 0x30 ++ s

/-! ## Writing -/

/-- `writeString`, into a part of the block that is zero. -/
def writeString (length : Nat) (value : JsString) : Result Bytes :=
  if length < (encode value).length then fail (lit "header value too long: " ++ value)
  else .ok (encode value ++ zeros (length - (encode value).length))

/-- `writeOctal`. -/
def writeOctal (length value : Nat) : Result Bytes :=
  let encoded := padStart (length - 1) (digits 8 value)
  if length - 1 < encoded.length then fail (lit "numeric header value too large: " ++ digits 10 value)
  else do return (← writeString (length - 1) encoded) ++ [0]

def sum (bytes : Bytes) : Nat := (bytes.map UInt8.toNat).sum

/-- `header`: name, mode, user, group, size and time; the checksum, which counts
itself as blanks; type, link, magic, version, and the rest of the block. -/
def header (name : JsString) (size : Nat) : Result Bytes := do
  if 100 < (encode name).length then fail (lit "path exceeds canonical ustar name limit: " ++ name)
  else
    let nameField ← writeString 100 name
    let mode ← writeOctal 8 0o644
    let uid ← writeOctal 8 0
    let gid ← writeOctal 8 0
    let sizeField ← writeOctal 12 size
    let mtime ← writeOctal 12 0
    let magic ← writeString 6 (lit "ustar")
    let version ← writeString 2 (lit "00")
    let front := nameField ++ mode ++ uid ++ gid ++ sizeField ++ mtime
    let back := [0x30] ++ zeros 100 ++ magic ++ version ++ zeros 247
    let checksum ← writeString 8
      (padStart 6 (digits 8 (sum (front ++ List.replicate 8 0x20 ++ back))) ++ [0, 0x20])
    return front ++ checksum ++ back

/-- `padding`. -/
def padding (size : Nat) : Bytes := zeros ((blockSize - size % blockSize) % blockSize)

/-- `Buffer.compare`. -/
def bufferCompare : Bytes → Bytes → Int
  | [], [] => 0
  | [], _ :: _ => -1
  | _ :: _, [] => 1
  | a :: as, b :: bs => if a.toNat < b.toNat then -1 else if b.toNat < a.toNat then 1 else bufferCompare as bs

/-- The validated files, where no two have one path. -/
def normalizeFiles (seen : List JsString) : List ResourceFile → Result (List ResourceFile)
  | [] => .ok []
  | file :: files => do
    let resourcePath ← validateResourceRelativePath file.path
    if resourcePath ∈ seen then fail (lit "duplicate path '" ++ resourcePath ++ lit "'")
    else return { path := resourcePath, content := file.content } :: (← normalizeFiles (resourcePath :: seen) files)

/-- How the writer orders files. -/
def compareFiles (left right : ResourceFile) : Int := bufferCompare (encode left.path) (encode right.path)

/-- The entries of the archive. -/
def writeFiles : List ResourceFile → Result Bytes
  | [] => .ok []
  | file :: files => do
    let block ← header file.path file.content.length
    return block ++ file.content ++ padding file.content.length ++ (← writeFiles files)

/-- `createCanonicalPiResourceBundle`. The digest is a parameter. -/
def createCanonicalPiResourceBundle (sha256Digest : Bytes → JsString) (files : List ResourceFile) : Result Bundle := do
  let normalized ← normalizeFiles [] files
  let entries ← writeFiles (sort compareFiles normalized)
  let bytes := entries ++ zeros (blockSize * 2)
  return { digest := sha256Digest bytes, bytes }

/-! ## Parsing -/

/-- `readNullString`. -/
def readNullString (block : Bytes) (start length : Nat) : JsString :=
  decode (((block.drop start).take length).takeWhile (· != 0))

/-- `Number.parseInt(raw, 8)`, which is zero for no digits here. -/
def parseOctal (raw : JsString) : Nat := raw.foldl (fun n u => 8 * n + (u.toNat - 48)) 0

/-- `readOctal`. -/
def readOctal (block : Bytes) (start length : Nat) : Result Nat :=
  let raw := (readNullString block start length).trim
  if raw.all fun u => 0x30 ≤ u.toNat && u.toNat ≤ 0x37 then .ok (parseOctal raw) else fail (lit "non-octal numeric field")

/-- `verifyChecksum`, where the bytes from 148 to 155 count as blanks. -/
def verifyChecksum (block : Bytes) : Result Unit := do
  let expected ← readOctal block 148 8
  if sum (block.take 148) + 8 * 32 + sum (block.drop 156) = expected then return ()
  else fail (lit "header checksum mismatch")

def allZero (block : Bytes) : Bool := block.all (· == 0)

/-- `name` and `size` of the header block that an entry begins with. -/
def readHeader (paths : List JsString) (block : Bytes) : Result (JsString × Nat) := do
  verifyChecksum block
  if readNullString block 257 6 ≠ lit "ustar" then fail (lit "unsupported tar format")
  else
    let type := readNullString block 156 1
    if type ≠ [] ∧ type ≠ lit "0" then fail (lit "unsupported entry type '" ++ type ++ lit "'")
    else if readNullString block 157 100 ≠ [] ∨ readNullString block 345 155 ≠ [] then
      fail (lit "links and ustar path prefixes are unsupported")
    else
      let name ← validateResourceRelativePath (readNullString block 0 100)
      if name ∈ paths then fail (lit "duplicate path '" ++ name ++ lit "'")
      else return (name, ← readOctal block 124 12)

/-- How much an entry takes after its header. -/
def paddedSize (size : Nat) : Nat := size + (blockSize - size % blockSize) % blockSize

/-- The loop, over what is left of the archive. Each round takes a block, so as
many rounds as there are bytes do not run out (`verifyFrom_of_parsed`). -/
def verifyFrom : Nat → List JsString → Bytes → Result (List ResourceFile)
  | 0, _, _ => fail (lit "missing end blocks")
  | rounds + 1, paths, rest =>
    if rest = [] then fail (lit "missing end blocks")
    else if allZero (rest.take blockSize) then
      if allZero ((rest.drop blockSize).take blockSize) = false then fail (lit "missing end blocks")
      else if rest.length ≠ blockSize * 2 then fail (lit "data after end blocks")
      else .ok []
    else do
      let (name, size) ← readHeader paths (rest.take blockSize)
      if rest.length < blockSize + size then fail (lit "truncated file content")
      else
        let file : ResourceFile := { path := name, content := (rest.drop blockSize).take size }
        return file :: (← verifyFrom rounds (name :: paths) (rest.drop (blockSize + paddedSize size)))

/-- `verifyCanonicalPiResourceBundle`. -/
def verifyCanonicalPiResourceBundle (sha256Digest : Bytes → JsString) (bytes : Bytes) (expectedDigest : Option JsString) :
    Result (List ResourceFile) :=
  if expectedDigest.getD [] ≠ [] ∧ expectedDigest ≠ some (sha256Digest bytes) then fail (lit "content digest mismatch")
  else if bytes.length < blockSize * 2 ∨ bytes.length % blockSize ≠ 0 then fail (lit "invalid archive length")
  else verifyFrom bytes.length [] bytes

end Leitwerk.PiResource
