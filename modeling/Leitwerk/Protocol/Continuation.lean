import Leitwerk.Domain
import Leitwerk.Lib.Climbing
/-!
# Where a failed turn is continued

`turn-continuation.ts`: the entry a turn is continued from, and the slice of the
session that leads to it from the fork. Both climb the parent links of the same
entries, the one to look for the fork and the other up to it.
-/

namespace Leitwerk.Protocol

open Climbing (climb climb_iff Above Parent)

/-- `ContinuationTreeEntry`, without its message. -/
structure ContinuationTreeEntry where
  id : String
  parentId : Option String
  timestamp : String
  type : String
  deriving DecidableEq

/-- `ContinuationTurnRecordLike`. -/
structure ContinuationTurnRecord where
  forkPiEntryId : Option String := none
  resultPiEntryId : Option String := none
  startedAt : Option String := none
  status : Option String := none

/-- `ContinuationSliceBounds`. -/
structure ContinuationSliceBounds where
  endedAt : Option String := none

/-! ## The tree -/

section
variable (entries : List ContinuationTreeEntry)

/-- `entriesById.get`; of entries with one id the map keeps the last. -/
def getEntry (id : String) : Option ContinuationTreeEntry := entries.reverse.find? (·.id = id)

/-- The entry a climb goes on with. -/
def parentEntry (entry : ContinuationTreeEntry) : Option ContinuationTreeEntry :=
  (entry.parentId.filter (· ≠ "")).bind (getEntry entries)

/-- `branchContainsAncestor`; a climb passes every entry once at most. -/
def branchContainsAncestor (entryId ancestorId : String) : Bool :=
  (climb (·.id) (parentEntry entries) (·.id = ancestorId) (entries.length + 1) [] (getEntry entries entryId)).2
end

/-! ## The leaf and the slice -/

section
variable (compareTimestampStrings : String → String → Int)

def happenedOnOrAfterStart (entryTimestamp : String) (startedAt : Option String) : Bool :=
  startedAt.all fun startedAt => 0 ≤ compareTimestampStrings entryTimestamp startedAt

def happenedOnOrBeforeEnd (entryTimestamp : String) (endedAt : Option String) : Bool :=
  endedAt.all fun endedAt => compareTimestampStrings entryTimestamp endedAt ≤ 0

variable (entries : List ContinuationTreeEntry) (record : ContinuationTurnRecord) (bounds : ContinuationSliceBounds)

/-- Whether an entry lies between the start of the record and the end bound. -/
def withinBounds (entry : ContinuationTreeEntry) : Bool :=
  happenedOnOrAfterStart compareTimestampStrings entry.timestamp (trimToNull record.startedAt) &&
    happenedOnOrBeforeEnd compareTimestampStrings entry.timestamp (trimToNull bounds.endedAt)

def isContinuableEntryWithinBounds (entry : ContinuationTreeEntry) : Bool :=
  (entry.type = "message" || entry.type = "compaction") && withinBounds compareTimestampStrings record bounds entry

def isExplicitLeafUsable (leafId : String) : Bool :=
  (getEntry entries leafId).any (isContinuableEntryWithinBounds compareTimestampStrings record bounds) &&
    (trimToNull record.forkPiEntryId).all (branchContainsAncestor entries leafId)

/-- What the search for a leaf stops at: a continuable entry below the ancestor, if there is one. -/
def isCandidate (ancestorId : Option String) (entry : ContinuationTreeEntry) : Bool :=
  isContinuableEntryWithinBounds compareTimestampStrings record bounds entry &&
    ancestorId.all (branchContainsAncestor entries entry.id)

def findLatestContinuableEntryIdOnBranch (ancestorId : Option String) : Option String :=
  (entries.reverse.find? (isCandidate compareTimestampStrings entries record bounds ancestorId)).map (·.id)

/-- The result the record names, where that can be used. -/
def usableExplicitLeaf : Option String :=
  (trimToNull record.resultPiEntryId).filter (isExplicitLeafUsable compareTimestampStrings entries record bounds)

def resolveTurnContinuationLeafEntryId : Option String :=
  match usableExplicitLeaf compareTimestampStrings entries record bounds with
  | some leafId =>
    if record.status ≠ some "failed" then some leafId
    else findLatestContinuableEntryIdOnBranch compareTimestampStrings entries record bounds (some leafId)
  | none =>
    findLatestContinuableEntryIdOnBranch compareTimestampStrings entries record bounds (trimToNull record.forkPiEntryId)

/-- The climb of `buildSlice` from the leaf to the fork. -/
def climbToFork (leafId : String) : List ContinuationTreeEntry × Bool :=
  climb (·.id) (parentEntry entries) (fun entry => some entry.id = trimToNull record.forkPiEntryId) (entries.length + 1) []
    (getEntry entries leafId)

def buildSlice : List ContinuationTreeEntry :=
  match (resolveTurnContinuationLeafEntryId compareTimestampStrings entries record bounds).filter (· ≠ "") with
  | none => []
  | some leafId =>
    if (trimToNull record.forkPiEntryId).isSome ∧ (climbToFork entries record leafId).2 = false then []
    else (climbToFork entries record leafId).1.reverse.filter (withinBounds compareTimestampStrings record bounds)

def hasTurnContinuationProgress : Bool :=
  (resolveTurnContinuationLeafEntryId compareTimestampStrings entries record bounds).isSome
end

/-! ## Climbs of the tree -/

variable {compare : String → String → Int} {entries : List ContinuationTreeEntry} {record : ContinuationTurnRecord}
  {bounds : ContinuationSliceBounds} {entry : ContinuationTreeEntry} {leafId : String}

theorem getEntry_some {id : String} (h : getEntry entries id = some entry) : entry ∈ entries ∧ entry.id = id :=
  ⟨List.mem_reverse.1 (List.mem_of_find?_eq_some h), by simpa using List.find?_some h⟩

theorem getEntry_mem (hids : (entries.map (·.id)).Nodup) (h : entry ∈ entries) : getEntry entries entry.id = some entry := by
  cases hfind : getEntry entries entry.id with
  | none => exact absurd (List.find?_eq_none.1 hfind entry (List.mem_reverse.2 h)) (by simp)
  | some found =>
    obtain ⟨hmem, hid⟩ := getEntry_some hfind
    rw [List.inj_on_of_nodup_map hids hmem h hid]

theorem parentEntry_mem {a b : ContinuationTreeEntry} (h : parentEntry entries a = some b) : b ∈ entries := by
  obtain ⟨id, -, hb⟩ := Option.bind_eq_some_iff.1 h
  exact (getEntry_some hb).1

theorem entryTree (hids : (entries.map (·.id)).Nodup) : Climbing.Tree (·.id) (parentEntry entries) entries where
  closed _ _ h := parentEntry_mem h
  keyed _ ha _ hb h := List.inj_on_of_nodup_map hids ha hb h

theorem branchContainsAncestor_iff (hids : (entries.map (·.id)).Nodup) (h : entry ∈ entries) (ancestorId : String) :
    branchContainsAncestor entries entry.id ancestorId = true ↔
      ∃ ancestor, Above (parentEntry entries) entry ancestor ∧ ancestor.id = ancestorId := by
  unfold branchContainsAncestor
  rw [getEntry_mem hids h, climb_iff (entryTree hids) h (by omega)]
  simp

/-- A leaf below the fork has a climb that ends at the fork. -/
theorem climbToFork_found (hids : (entries.map (·.id)).Nodup) (h : entry ∈ entries) {forkId : String}
    (hfork : trimToNull record.forkPiEntryId = some forkId) (hb : branchContainsAncestor entries entry.id forkId = true) :
    (climbToFork entries record entry.id).2 = true := by
  obtain ⟨ancestor, habove, hid⟩ := (branchContainsAncestor_iff hids h forkId).1 hb
  unfold climbToFork
  rw [getEntry_mem hids h, climb_iff (entryTree hids) h (by omega)]
  exact ⟨ancestor, habove, by simp [hfork, hid]⟩

/-! ## The resolved leaf -/

theorem trimToNull_ne {text : Option String} {s : String} (h : trimToNull text = some s) : s ≠ "" := by
  simpa using (Option.filter_eq_some_iff.1 h).2

theorem usableExplicitLeaf_some (h : usableExplicitLeaf compare entries record bounds = some leafId) :
    leafId ≠ "" ∧ ∃ entry ∈ entries, entry.id = leafId ∧
      isContinuableEntryWithinBounds compare record bounds entry = true ∧
      (trimToNull record.forkPiEntryId).all (branchContainsAncestor entries entry.id) = true := by
  obtain ⟨htrim, husable⟩ := Option.filter_eq_some_iff.1 h
  simp only [isExplicitLeafUsable, Bool.and_eq_true, Option.any_eq_true] at husable
  obtain ⟨⟨entry, hget, hcontinuable⟩, hfork⟩ := husable
  obtain ⟨hmem, rfl⟩ := getEntry_some hget
  exact ⟨trimToNull_ne htrim, entry, hmem, rfl, hcontinuable, hfork⟩

/-- The search finds the last candidate. -/
theorem findLatest_some {ancestorId : Option String}
    (h : findLatestContinuableEntryIdOnBranch compare entries record bounds ancestorId = some leafId) :
    ∃ before entry after, entries = before ++ entry :: after ∧ entry.id = leafId ∧
      isCandidate compare entries record bounds ancestorId entry = true ∧
      ∀ later ∈ after, isCandidate compare entries record bounds ancestorId later = false := by
  obtain ⟨entry, hfind, hid⟩ := Option.map_eq_some_iff.1 h
  obtain ⟨hcandidate, after, before, heq, hnone⟩ := List.find?_eq_some_iff_append.1 hfind
  refine ⟨before.reverse, entry, after.reverse, ?_, hid, hcandidate, fun later hlater => ?_⟩
  · have hrev := congrArg List.reverse heq
    simpa using hrev
  · simpa using hnone later (List.mem_reverse.1 hlater)

theorem findLatest_last {ancestorId : Option String} {before after : List ContinuationTreeEntry}
    (heq : entries = before ++ entry :: after) (hcandidate : isCandidate compare entries record bounds ancestorId entry = true)
    (hnone : ∀ later ∈ after, isCandidate compare entries record bounds ancestorId later = false) :
    findLatestContinuableEntryIdOnBranch compare entries record bounds ancestorId = some entry.id := by
  unfold findLatestContinuableEntryIdOnBranch
  have hfind : entries.reverse.find? (isCandidate compare entries record bounds ancestorId) = some entry := by
    refine List.find?_eq_some_iff_append.2 ⟨hcandidate, after.reverse, before.reverse, ?_, fun later hlater => ?_⟩
    · have hrev := congrArg List.reverse heq
      simpa using hrev
    · simpa using hnone later (List.mem_reverse.1 hlater)
  rw [hfind]
  rfl

/-- A resolved leaf is continuable, within the bounds, and the fork or below it. -/
theorem resolved_leaf (hids : (entries.map (·.id)).Nodup)
    (h : resolveTurnContinuationLeafEntryId compare entries record bounds = some leafId) :
    ∃ entry ∈ entries, entry.id = leafId ∧ isContinuableEntryWithinBounds compare record bounds entry = true ∧
      (trimToNull record.forkPiEntryId).all (branchContainsAncestor entries entry.id) = true := by
  unfold resolveTurnContinuationLeafEntryId at h
  split at h
  · rename_i explicit hexplicit
    obtain ⟨-, target, htarget, rfl, hcontinuable, hfork⟩ := usableExplicitLeaf_some hexplicit
    split at h
    · cases h
      exact ⟨target, htarget, rfl, hcontinuable, hfork⟩
    · obtain ⟨before, entry, after, heq, rfl, hcandidate, -⟩ := findLatest_some h
      have hmem : entry ∈ entries := heq ▸ List.mem_append_right _ List.mem_cons_self
      simp only [isCandidate, Option.all_some, Bool.and_eq_true] at hcandidate
      refine ⟨entry, hmem, rfl, hcandidate.1, ?_⟩
      -- what is above the explicit leaf is above every entry below that leaf
      obtain ⟨target', habove, hid⟩ := (branchContainsAncestor_iff hids hmem _).1 hcandidate.2
      cases hf : trimToNull record.forkPiEntryId with
      | none => rfl
      | some forkId =>
        rw [hf, Option.all_some] at hfork
        obtain ⟨fork, hfork', hforkId⟩ := (branchContainsAncestor_iff hids htarget forkId).1 hfork
        have hsame : target' = target := by
          rcases Relation.ReflTransGen.cases_tail habove with rfl | ⟨c, -, hc⟩
          · exact List.inj_on_of_nodup_map hids hmem htarget hid
          · exact List.inj_on_of_nodup_map hids (parentEntry_mem hc) htarget hid
        subst hsame
        exact (branchContainsAncestor_iff hids hmem forkId).2 ⟨fork, habove.trans hfork', hforkId⟩
  · obtain ⟨before, entry, after, heq, rfl, hcandidate, -⟩ := findLatest_some h
    have hmem : entry ∈ entries := heq ▸ List.mem_append_right _ List.mem_cons_self
    simp only [isCandidate, Bool.and_eq_true] at hcandidate
    exact ⟨entry, hmem, rfl, hcandidate.1, hcandidate.2⟩

/-! ## Sound slices -/

/-- What continuing a turn relies on. -/
structure ContinuationSound (compare : String → String → Int) (entries : List ContinuationTreeEntry)
    (record : ContinuationTurnRecord) (bounds : ContinuationSliceBounds) : Prop where
  leaf : ∀ leafId, resolveTurnContinuationLeafEntryId compare entries record bounds = some leafId →
    ∃ entry ∈ entries, entry.id = leafId ∧ isContinuableEntryWithinBounds compare record bounds entry = true ∧
      ∀ forkId, trimToNull record.forkPiEntryId = some forkId →
        entry.id ≠ forkId ∧ ∃ fork, Above (parentEntry entries) entry fork ∧ fork.id = forkId
  progress : hasTurnContinuationProgress compare entries record bounds = true ↔ buildSlice compare entries record bounds ≠ []
  slice : buildSlice compare entries record bounds ≠ [] → ∃ path,
    buildSlice compare entries record bounds = path.filter (withinBounds compare record bounds) ∧
    List.IsChain (fun above below => parentEntry entries below = some above) path ∧ (path.map (·.id)).Nodup ∧
    (∀ entry ∈ path, entry ∈ entries ∧ trimToNull record.forkPiEntryId ≠ some entry.id) ∧
    (buildSlice compare entries record bounds).getLast?.map (·.id) =
      resolveTurnContinuationLeafEntryId compare entries record bounds

/-- The resolved leaf is an entry with an id, other than the fork. -/
def LeafAdvances (compare : String → String → Int) (entries : List ContinuationTreeEntry)
    (record : ContinuationTurnRecord) (bounds : ContinuationSliceBounds) : Prop :=
  ∀ leafId, resolveTurnContinuationLeafEntryId compare entries record bounds = some leafId →
    leafId ≠ "" ∧ trimToNull record.forkPiEntryId ≠ some leafId

/-- The slice of an advancing leaf is what its climb passed, the leaf last. -/
theorem buildSlice_advances (hids : (entries.map (·.id)).Nodup)
    (h : resolveTurnContinuationLeafEntryId compare entries record bounds = some leafId) (hne : leafId ≠ "") :
    buildSlice compare entries record bounds =
      (climbToFork entries record leafId).1.reverse.filter (withinBounds compare record bounds) := by
  obtain ⟨entry, hmem, rfl, -, hfork⟩ := resolved_leaf hids h
  unfold buildSlice
  rw [h, Option.filter_some, if_pos (by simpa using hne)]
  dsimp only
  rw [if_neg]
  rintro ⟨hsome, hnot⟩
  obtain ⟨forkId, hf⟩ := Option.isSome_iff_exists.1 hsome
  rw [hf, Option.all_some] at hfork
  rw [climbToFork_found hids hmem hf hfork] at hnot
  cases hnot

/-- A climb that starts off the fork passes its start first. -/
theorem climbToFork_first (hids : (entries.map (·.id)).Nodup) (hmem : entry ∈ entries)
    (hfork : trimToNull record.forkPiEntryId ≠ some entry.id) : ∃ rest, (climbToFork entries record entry.id).1 = entry :: rest := by
  unfold climbToFork
  rw [getEntry_mem hids hmem, Climbing.climb_some (by simp) (by simpa using hfork.symm)]
  exact ⟨_, rfl⟩

theorem climbToFork_path (entries : List ContinuationTreeEntry) (record : ContinuationTurnRecord) (leafId : String) :
    List.IsChain (fun above below => parentEntry entries below = some above) (climbToFork entries record leafId).1.reverse ∧
      ((climbToFork entries record leafId).1.reverse.map (·.id)).Nodup ∧
      ∀ entry ∈ (climbToFork entries record leafId).1.reverse,
        entry ∈ entries ∧ trimToNull record.forkPiEntryId ≠ some entry.id := by
  have hclimb : ((climbToFork entries record leafId).1.map (·.id)).Nodup ∧ ∀ entry ∈ (climbToFork entries record leafId).1,
      decide (some entry.id = trimToNull record.forkPiEntryId) = false ∧ entry.id ∉ ([] : List String) := Climbing.climb_passes
  obtain ⟨hnodup, hpass⟩ := hclimb
  refine ⟨List.isChain_reverse.2 Climbing.climb_chain, ?_, fun entry hentry => ?_⟩
  · rw [List.map_reverse, List.nodup_reverse]
    exact hnodup
  · rw [List.mem_reverse] at hentry
    refine ⟨?_, fun hf => by simpa [hf] using (hpass entry hentry).1⟩
    obtain ⟨start, hstart, habove⟩ := Climbing.climb_above hentry
    rcases Relation.ReflTransGen.cases_tail habove with rfl | ⟨c, -, hc⟩
    · exact (getEntry_some hstart).1
    · exact parentEntry_mem hc

theorem buildSlice_last (hids : (entries.map (·.id)).Nodup)
    (h : resolveTurnContinuationLeafEntryId compare entries record bounds = some leafId) (hne : leafId ≠ "")
    (hfork : trimToNull record.forkPiEntryId ≠ some leafId) :
    (buildSlice compare entries record bounds).getLast?.map (·.id) = some leafId := by
  obtain ⟨entry, hmem, rfl, hcontinuable, -⟩ := resolved_leaf hids h
  obtain ⟨rest, hfirst⟩ := climbToFork_first hids hmem hfork
  simp only [isContinuableEntryWithinBounds, Bool.and_eq_true] at hcontinuable
  rw [buildSlice_advances hids h hne, hfirst, List.reverse_cons, List.filter_append,
    List.filter_cons_of_pos hcontinuable.2]
  simp

theorem sound_of_advances (hids : (entries.map (·.id)).Nodup) (h : LeafAdvances compare entries record bounds) :
    ContinuationSound compare entries record bounds := by
  have hnone : resolveTurnContinuationLeafEntryId compare entries record bounds = none →
      buildSlice compare entries record bounds = [] := by
    intro hresolve
    unfold buildSlice
    rw [hresolve]
    rfl
  refine ⟨fun leafId hleaf => ?_, ?_, fun hslice => ?_⟩
  · obtain ⟨entry, hmem, rfl, hcontinuable, hfork⟩ := resolved_leaf hids hleaf
    refine ⟨entry, hmem, rfl, hcontinuable, fun forkId hf => ?_⟩
    rw [hf, Option.all_some] at hfork
    refine ⟨?_, (branchContainsAncestor_iff hids hmem forkId).1 hfork⟩
    rintro rfl
    exact (h _ hleaf).2 hf
  · unfold hasTurnContinuationProgress
    cases hresolve : resolveTurnContinuationLeafEntryId compare entries record bounds with
    | none => simp [hnone hresolve]
    | some leafId =>
      have hlast := buildSlice_last hids hresolve (h leafId hresolve).1 (h leafId hresolve).2
      refine ⟨fun _ hnil => ?_, fun _ => rfl⟩
      rw [hnil] at hlast
      cases hlast
  · cases hresolve : resolveTurnContinuationLeafEntryId compare entries record bounds with
    | none => exact absurd (hnone hresolve) hslice
    | some leafId =>
      obtain ⟨hchain, hnodup, hpath⟩ := climbToFork_path entries record leafId
      exact ⟨_, buildSlice_advances hids hresolve (h leafId hresolve).1, hchain, hnodup, hpath,
        buildSlice_last hids hresolve (h leafId hresolve).1 (h leafId hresolve).2⟩

theorem advances_of_sound (h : ContinuationSound compare entries record bounds) :
    LeafAdvances compare entries record bounds := by
  intro leafId hleaf
  have hslice : buildSlice compare entries record bounds ≠ [] := h.progress.1 (by simp [hasTurnContinuationProgress, hleaf])
  have hne : leafId ≠ "" := by
    rintro rfl
    apply hslice
    unfold buildSlice
    rw [hleaf]
    rfl
  refine ⟨hne, fun hfork => ?_⟩
  obtain ⟨entry, -, hid, -, hbelow⟩ := h.leaf leafId hleaf
  exact (hbelow leafId hfork).1 hid

/-! ## When the leaf advances -/

/-- A candidate that is the fork, or has no id, is followed by a later candidate. -/
def Overtaken (compare : String → String → Int) (entries : List ContinuationTreeEntry)
    (record : ContinuationTurnRecord) (bounds : ContinuationSliceBounds) (ancestorId : Option String) : Prop :=
  ∀ before entry after, entries = before ++ entry :: after →
    isCandidate compare entries record bounds ancestorId entry = true →
    (entry.id = "" ∨ trimToNull record.forkPiEntryId = some entry.id) →
    ∃ later ∈ after, isCandidate compare entries record bounds ancestorId later = true

/-- A result that is taken as it is is not the fork; where the branch is searched, the fork is overtaken. -/
def ForkLeftBehind (compare : String → String → Int) (entries : List ContinuationTreeEntry)
    (record : ContinuationTurnRecord) (bounds : ContinuationSliceBounds) : Prop :=
  match usableExplicitLeaf compare entries record bounds with
  | some leafId =>
    if record.status ≠ some "failed" then trimToNull record.forkPiEntryId ≠ some leafId
    else Overtaken compare entries record bounds (some leafId)
  | none => Overtaken compare entries record bounds (trimToNull record.forkPiEntryId)

theorem overtaken_iff {ancestorId : Option String} : Overtaken compare entries record bounds ancestorId ↔
    ∀ leafId, findLatestContinuableEntryIdOnBranch compare entries record bounds ancestorId = some leafId →
      leafId ≠ "" ∧ trimToNull record.forkPiEntryId ≠ some leafId := by
  constructor
  · intro h leafId hleaf
    obtain ⟨before, entry, after, heq, rfl, hcandidate, hnone⟩ := findLatest_some hleaf
    by_contra hbad
    obtain ⟨later, hlater, hcand⟩ := h before entry after heq hcandidate (by tauto)
    rw [hnone later hlater] at hcand
    cases hcand
  · intro h before entry after heq hcandidate hbad
    by_contra hno
    push Not at hno
    obtain ⟨hne, hfork⟩ := h entry.id (findLatest_last heq hcandidate fun later hlater => by simpa using hno later hlater)
    exact hbad.elim hne hfork

theorem forkLeftBehind_iff : ForkLeftBehind compare entries record bounds ↔ LeafAdvances compare entries record bounds := by
  unfold ForkLeftBehind LeafAdvances resolveTurnContinuationLeafEntryId
  split
  · rename_i leafId hexplicit
    have hne := (usableExplicitLeaf_some hexplicit).1
    split
    · simp [hne]
    · exact overtaken_iff
  · exact overtaken_iff

/-- Continuing a turn is sound exactly when the fork is left behind. -/
theorem continuation_sound_iff (hids : (entries.map (·.id)).Nodup) :
    ContinuationSound compare entries record bounds ↔ ForkLeftBehind compare entries record bounds :=
  ⟨fun h => forkLeftBehind_iff.2 (advances_of_sound h), fun h => sound_of_advances hids (forkLeftBehind_iff.1 h)⟩

/-! ## A turn without progress -/

/-- One message, which a failed turn forked from. -/
def forkOnly : List ContinuationTreeEntry := [⟨"fork", none, "2026-01-01T00:00:00Z", "message"⟩]

def failedAtFork : ContinuationTurnRecord := { forkPiEntryId := some "fork", status := some "failed" }

theorem continuation_sound_forkOnly :
    ContinuationSound (fun _ _ => 0) forkOnly failedAtFork {} ↔ ForkLeftBehind (fun _ _ => 0) forkOnly failedAtFork {} :=
  continuation_sound_iff (by decide)

/-- It has progress, and its slice is empty. -/
theorem fork_is_no_progress : ¬ ∀ (compare : String → String → Int) (entries : List ContinuationTreeEntry)
    (record : ContinuationTurnRecord) (bounds : ContinuationSliceBounds), (entries.map (·.id)).Nodup →
    ContinuationSound compare entries record bounds := by
  intro hall
  have hsound := hall (fun _ _ => 0) forkOnly failedAtFork {} (by decide)
  have hprogress : hasTurnContinuationProgress (fun _ _ => 0) forkOnly failedAtFork {} = true := by decide
  exact hsound.progress.1 hprogress (by decide)

end Leitwerk.Protocol
