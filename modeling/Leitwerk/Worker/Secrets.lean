import Leitwerk.Lib.Replacing
import Leitwerk.Lib.Utf8
import Mathlib.Data.List.Sort
/-!
# What redaction leaves of a message

`extractSecretValuesFromPayload` and `redactSecrets` of
`packages/worker/src/runtime/failure-policy.ts`, on strings of UTF-16 units.

The secrets are replaced one after the other, in the order in which they were
found. An occurrence that overlaps one replaced before is no longer there to be
found, and what the other did not cover of it stays readable: of `abcdef` the
secrets `abc` and `abcdef` leave `def`. `redacts_iff` says that this is the only
way, as long as no secret reaches into a mark.
-/

namespace Leitwerk.Worker.Secrets

open Replacing JsString

/-! ## The secrets of a start payload -/

/-- `WorkerDockerRegistryCredential`, as far as it is secret. -/
structure DockerRegistryCredential where
  username : JsString
  password : JsString
  deriving DecidableEq

/-- `WorkerRepositoryCredential`, as far as it is secret. -/
inductive RepositoryCredential where
  | gitSsh (privateKey : JsString)
  | gitHttps (password : JsString)
  deriving DecidableEq

/-- The secret parts of a `WorkerStartPayload`. `credentialValues` are the
values of the credential of an LLM bootstrap, a value that is no string being
`none`; the other two are empty where the payload has none. -/
structure StartSecrets where
  credentialValues : List (Option JsString) := []
  dockerRegistryCredentials : List DockerRegistryCredential := []
  repositoryCredentials : List RepositoryCredential := []
  deriving DecidableEq

/-- `secrets.add(value)`. -/
def add (secrets : List JsString) (value : JsString) : List JsString :=
  if secrets.contains value then secrets else secrets ++ [value]

/-- A digit of base 64. -/
def base64Digit (n : Nat) : UInt16 :=
  (if n < 26 then 65 + n else if n < 52 then 71 + n else if n < 62 then n - 4 else if n = 62 then 43 else 47).toUInt16

/-- `bytes.toString("base64")`. -/
def base64 : Utf8.Bytes → JsString
  | [] => []
  | [a] => [base64Digit (a.toNat / 4), base64Digit (a.toNat % 4 * 16), 61, 61]
  | [a, b] =>
    [base64Digit (a.toNat / 4), base64Digit (a.toNat % 4 * 16 + b.toNat / 16), base64Digit (b.toNat % 16 * 4), 61]
  | a :: b :: c :: rest =>
    base64Digit (a.toNat / 4) :: base64Digit (a.toNat % 4 * 16 + b.toNat / 16) ::
      base64Digit (b.toNat % 16 * 4 + c.toNat / 64) :: base64Digit (c.toNat % 64) :: base64 rest

/-- A digit of base 16, in upper case. -/
def hexDigit (n : Nat) : UInt16 := (if n < 10 then 48 + n else 55 + n).toUInt16

/-- The characters `encodeURIComponent` leaves as they are. -/
def isUnreserved (b : UInt8) : Bool :=
  (48 ≤ b.toNat && b.toNat ≤ 57) || (65 ≤ b.toNat && b.toNat ≤ 90) || (97 ≤ b.toNat && b.toNat ≤ 122) ||
    (lit "-_.!~*'()").contains b.toNat.toUInt16

/-- `encodeURIComponent`, which throws where a half of a surrogate pair stands alone. -/
def encodeURIComponent (value : JsString) : Option JsString :=
  if Utf8.isWellFormed value then
    some ((Utf8.encode value).flatMap fun b =>
      if isUnreserved b then [b.toNat.toUInt16] else [37, hexDigit (b.toNat / 16), hexDigit (b.toNat % 16)])
  else none

/-- The values of one registry credential. -/
def dockerRegistryValues (credential : DockerRegistryCredential) : Option (List JsString) := do
  let encoded ← encodeURIComponent credential.password
  return [credential.password, base64 (Utf8.encode (credential.username ++ lit ":" ++ credential.password)),
    base64 (Utf8.encode credential.password), encoded]

/-- `extractDockerRegistrySecretValues`: the longest first. -/
def extractDockerRegistrySecretValues (payload : StartSecrets) : Option (List JsString) := do
  let values ← payload.dockerRegistryCredentials.mapM dockerRegistryValues
  let secrets := values.flatten.foldl add []
  return (secrets.filter fun secret => !secret.isEmpty).insertionSort fun a b => b.length ≤ a.length

/-- The values of one repository credential. -/
def repositoryValues (credential : RepositoryCredential) : Option (List JsString) :=
  let value := match credential with
    | .gitSsh privateKey => privateKey
    | .gitHttps password => password
  if value.isEmpty then some [] else (encodeURIComponent value).map fun encoded => [value, encoded]

/-- `extractSecretValuesFromPayload`; `none` where it throws. -/
def extractSecretValuesFromPayload (payload : Option StartSecrets) : Option (List JsString) :=
  match payload with
  | none => some []
  | some payload => do
    let credentials := payload.credentialValues.filterMap fun value =>
      (value.map JsString.trim).filter fun value => !value.isEmpty
    let docker ← extractDockerRegistrySecretValues payload
    let repositories ← payload.repositoryCredentials.mapM repositoryValues
    return (credentials ++ docker ++ repositories.flatten).foldl add []

/-! ## Redaction -/

/-- The mark of a secret. -/
def redacted : JsString := lit "<redacted>"

/-- `redactSecrets`. -/
def redactSecrets (message : JsString) (secrets : List JsString) : JsString :=
  secrets.foldl (fun result secret => if secret.isEmpty then result else replaceAll id redacted secret result) message

/-- The same, where each unit keeps the position of the message it stems from. -/
def tracedSecrets (message : JsString) (secrets : List JsString) : Labelled UInt16 := traced redacted secrets message

theorem tracedSecrets_text (message : JsString) (secrets : List JsString) :
    (tracedSecrets message secrets).map Prod.fst = redactSecrets message secrets := map_traced _ _ _

open Classical in
/-- The positions of a message that lie in no occurrence of a secret, in order. -/
noncomputable def uncovered (secrets : List JsString) (message : JsString) : List Nat :=
  (List.range message.length).filter fun p => ¬Covered secrets message p

/-- Redaction as it is meant: the text consists of marks and exactly the
uncovered units of the message in their order. -/
def RedactsText (secrets : List JsString) (message : JsString) : Prop :=
  ∃ pieces, redactSecrets message secrets = (spell redacted message pieces).map Prod.fst ∧
    pieces.filterMap id = uncovered secrets message

/-- The same of the units themselves: no unit of a covered position survives,
even where it happens to read like a part of a mark. -/
def Redacts (secrets : List JsString) (message : JsString) : Prop :=
  ∃ pieces, tracedSecrets message secrets = spell redacted message pieces ∧
    pieces.filterMap id = uncovered secrets message

theorem Redacts.text {secrets : List JsString} {message : JsString} (h : Redacts secrets message) :
    RedactsText secrets message := by
  obtain ⟨pieces, ht, hp⟩ := h
  exact ⟨pieces, by rw [← tracedSecrets_text, ht], hp⟩

/-- No secret reaches into a mark: when its turn comes, in the message with
the occurrences taken before it replaced, every occurrence of it lies between
the marks. -/
def Apart (secrets : List JsString) (message : JsString) : Prop :=
  apart redacted secrets ((labelled message).map .kept) = true

instance (secrets : List JsString) (message : JsString) : Decidable (Apart secrets message) :=
  inferInstanceAs (Decidable (_ = true))

/-- An occurrence that is not taken, since it overlaps one taken before, is
covered all the same by those that are. -/
def Absorbed (secrets : List JsString) (message : JsString) : Prop :=
  ∀ p, Covered secrets message p → Hidden secrets message p

theorem mem_uncovered {secrets : List JsString} {message : JsString} {p : Nat} :
    p ∈ uncovered secrets message ↔ p < message.length ∧ ¬Covered secrets message p := by
  simp [uncovered]

theorem covered_lt {secrets : List JsString} {message : JsString} {p : Nat} (h : Covered secrets message p) :
    p < message.length := by
  obtain ⟨k, i, ⟨_, hpre⟩, hi, hp⟩ := h
  have hlen := hpre.length_le
  rw [List.length_drop] at hlen
  omega

/-- What survives is what is not hidden. -/
theorem labels_uncovered {secrets : List JsString} {message : JsString} :
    labels (layout secrets message) = uncovered secrets message ↔ Absorbed secrets message := by
  constructor
  · intro h p hc
    by_contra hh
    have hmem := (labels_layout secrets message p).2 ⟨covered_lt hc, hh⟩
    rw [h, mem_uncovered] at hmem
    exact hmem.2 hc
  · intro h
    obtain ⟨hcov, _⟩ := layout_marks secrets message
    rw [labels_eq hcov, Nat.sub_zero, ← List.range_eq_range', uncovered]
    refine List.filter_congr fun p hp => ?_
    have hlabels := labels_layout secrets message p
    rw [labels_eq hcov, Nat.sub_zero, ← List.range_eq_range', List.mem_filter] at hlabels
    have hlt := List.mem_range.1 hp
    have hiff : (!within (marks 0 (layout secrets message)) p) = true ↔ ¬Covered secrets message p := by
      rw [← and_iff_right hp (b := (!within (marks 0 (layout secrets message)) p) = true), hlabels,
        and_iff_right hlt]
      exact not_congr ⟨Hidden.covered, h p⟩
    by_cases hc : Covered secrets message p
    · simpa [hc] using hiff
    · simpa [hc] using hiff

/-- Where no secret reaches into a mark, redaction does what it is meant to do
exactly when every occurrence it cannot take is covered by those it took. -/
theorem redacts_iff_absorbed {secrets : List JsString} {message : JsString} (h : Apart secrets message) :
    Redacts secrets message ↔ Absorbed secrets message := by
  obtain ⟨hcov, _⟩ := layout_marks secrets message
  have htext : tracedSecrets message secrets = spell redacted message (pieces (layout secrets message)) := by
    rw [tracedSecrets, traced_layout h, spell_pieces redacted hcov]
  rw [← labels_uncovered]
  constructor
  · rintro ⟨ps, ht, hp⟩
    have hlt : ∀ p, some p ∈ ps → p < message.length := by
      intro p hmem
      have hunc : p ∈ uncovered secrets message := hp ▸ List.mem_filterMap.2 ⟨some p, hmem, rfl⟩
      exact (mem_uncovered.1 hunc).1
    have hlt' : ∀ p, some p ∈ pieces (layout secrets message) → p < message.length := by
      intro p hmem
      have hl : p ∈ labels (layout secrets message) := pieces_labels (layout secrets message) ▸
        List.mem_filterMap.2 ⟨some p, hmem, rfl⟩
      exact ((labels_layout secrets message p).1 hl).1
    rw [← pieces_labels, ← hp, ← origins_spell redacted hlt, ← origins_spell redacted hlt', ← ht, htext]
  · intro hl
    exact ⟨_, htext, by rw [pieces_labels, hl]⟩

/-- The uncovered units of a message, in order. -/
noncomputable def uncoveredUnits (secrets : List JsString) (message : JsString) : JsString :=
  (uncovered secrets message).filterMap (message[·]?)

theorem survivors_redacts {secrets : List JsString} {message : JsString} (h : Redacts secrets message) :
    survivors (tracedSecrets message secrets) = uncoveredUnits secrets message := by
  obtain ⟨ps, ht, hp⟩ := h
  rw [ht, survivors_spell, hp, uncoveredUnits]

/-- A payload with two credential values, one of which begins with the other. -/
def demoSecrets : StartSecrets where
  credentialValues := [some (lit "abc"), some (lit "abcdef")]

theorem marks_length {m : JsString} {ps : List (Option Nat)} (h : ps.filterMap id = []) :
    ((spell redacted m ps).map Prod.fst).length = 10 * ps.length := by
  induction ps with
  | nil => rfl
  | cons piece ps ih =>
    cases piece with
    | some p => simp at h
    | none =>
      have ih' := ih (by simpa using h)
      simp only [spell, List.length_map] at ih'
      have hmark : (unlabelled redacted).length = 10 := by decide
      simp only [spell, List.flatMap_cons, List.map_append, List.length_append, List.length_map, ih', hmark,
        List.length_cons]
      omega

end Leitwerk.Worker.Secrets
