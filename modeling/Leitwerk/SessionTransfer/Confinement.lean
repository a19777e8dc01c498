import Leitwerk.Lib.Following
import Leitwerk.Lib.Table
import Leitwerk.PiResource.Path
import Mathlib.Data.List.Perm.Subperm
/-!
# Confinement of symlinks

`assertConfinedSymlinks` of `symlink-confinement.ts`: every link of a workspace
is resolved component by component, with the results of links that are done kept
in a memo. The check accepts a map exactly when following each link's path from
the workspace root ends there, however the links are ordered and whatever the
memo already holds.
-/

namespace Leitwerk.SessionTransfer

open JsString (lit)
open PiResource (slash backslash dot dotDot)

/-- A path from the workspace root, or from the root of the file system. -/
abbrev Path := List JsString

/-- Link paths and their targets. -/
abbrev LinkMap := Table JsString JsString

abbrev Memo := List (JsString × Path)

inductive Refusal
  | escapes
  | notPortable (candidate : JsString)
  | cycle (candidate : JsString)
  /-- The recursion of the model is too shallow: never the outcome, `assertConfined_depth`. -/
  | outOfDepth
  deriving DecidableEq

def Refusal.message : Refusal → JsString
  | .escapes => lit "Symlink escapes the workspace"
  | .notPortable candidate => lit "Absolute symlink is not portable: " ++ candidate
  | .cycle candidate => lit "Symlink cycle in workspace: " ++ candidate
  | .outOfDepth => []

def isLetter (u : UInt16) : Bool := (0x41 ≤ u && u ≤ 0x5a) || (0x61 ≤ u && u ≤ 0x7a)

/-- `path.posix.isAbsolute`. -/
def posixIsAbsolute (path : JsString) : Bool := path.head? = some slash

/-- `path.win32.isAbsolute`. -/
def win32IsAbsolute : JsString → Bool
  | [] => false
  | u :: rest =>
    u = slash || u = backslash ||
      match rest with
      | colon :: separator :: _ => isLetter u && colon = 0x3a && (separator = slash || separator = backslash)
      | _ => false

def isAbsolute (path : JsString) : Bool := posixIsAbsolute path || win32IsAbsolute path

section Resolve

variable (links : LinkMap)

/-- What `resolve` does with the set of links in progress, segments, the path they start from and the memo. -/
abbrev Resolver := List JsString → List JsString → Path → Memo → Except Refusal (Path × Memo)

/-- The loop of `resolve`; a link's target is resolved by `expand`. -/
def resolveSegments (expand : Resolver) (resolving : List JsString) :
    List JsString → Path → Memo → Except Refusal (Path × Memo)
  | [], resolved, memo => .ok (resolved, memo)
  | segment :: segments, resolved, memo =>
    if segment = [] ∨ segment = dot then resolveSegments expand resolving segments resolved memo
    else if segment = dotDot then
      if resolved = [] then .error .escapes
      else resolveSegments expand resolving segments resolved.dropLast memo
    else
      match links.get? (Lines.join slash (resolved ++ [segment])) with
      | none => resolveSegments expand resolving segments (resolved ++ [segment]) memo
      | some target =>
        if isAbsolute target then .error (.notPortable (Lines.join slash (resolved ++ [segment])))
        else if Lines.join slash (resolved ++ [segment]) ∈ resolving then
          .error (.cycle (Lines.join slash (resolved ++ [segment])))
        else
          match memo.lookup (Lines.join slash (resolved ++ [segment])) with
          | some destination => resolveSegments expand resolving segments destination memo
          | none =>
            match expand (Lines.join slash (resolved ++ [segment]) :: resolving) (Lines.split slash target) resolved memo with
            | .error refusal => .error refusal
            | .ok (destination, memo) =>
              resolveSegments expand resolving segments destination
                ((Lines.join slash (resolved ++ [segment]), destination) :: memo)

/-- `resolve`, to a depth of recursion. -/
def resolve : Nat → Resolver
  | 0 => fun _ _ _ _ => .error .outOfDepth
  | depth + 1 => resolveSegments links (resolve depth)

/-- The loop over the links. -/
def resolveNames (depth : Nat) : List JsString → Memo → Except Refusal Memo
  | [], memo => .ok memo
  | name :: names, memo =>
    match resolve links depth [] (Lines.split slash name) [] memo with
    | .error refusal => .error refusal
    | .ok (_, memo) => resolveNames depth names memo

def LinkMap.names (links : LinkMap) : List JsString := links.rows.map Prod.fst

/-- The check with a depth of recursion and a memo to start from. -/
def assertConfinedFrom (depth : Nat) (memo : Memo) : Except Refusal Unit :=
  match resolveNames links depth (LinkMap.names links) memo with
  | .error refusal => .error refusal
  | .ok _ => .ok ()

/-- `assertConfinedSymlinks`. No more links are in progress at a time than there are. -/
def assertConfinedSymlinks : Except Refusal Unit := assertConfinedFrom links (links.rows.length + 1) []

end Resolve

/-! ## What it means to follow a link -/

/-- A component of a path. -/
def hop (segment : JsString) : Hop JsString :=
  if segment = [] ∨ segment = dot then .stay else if segment = dotDot then .up else .name segment

def hops (path : JsString) : List (Hop JsString) := (Lines.split slash path).map hop

/-- The target of a link, when it may be followed. -/
def follow (target : JsString) : Option (List (Hop JsString)) := if isAbsolute target then none else some (hops target)

/-- The links of a workspace by the components of their paths; every other name is a plain directory. -/
def linkAt (links : LinkMap) : Following.Links JsString :=
  fun path => (links.rows.find? fun link => Lines.split slash link.1 = path).map fun link => follow link.2

/-- Following a link from the workspace root ends in the workspace. -/
def Confined (links : LinkMap) (name : JsString) : Prop := ∃ d, Following.Ends (linkAt links) ([], hops name) d

/-! ## Components and texts -/

/-- What splitting a text leaves. -/
def SlashFree (path : Path) : Prop := ∀ segment ∈ path, slash ∉ segment

theorem slashFree_split (text : JsString) : SlashFree (Lines.split slash text) := fun _ h => Lines.notMem_of_split slash h

theorem SlashFree.concat {path : Path} {segment : JsString} (h : SlashFree path) (hs : slash ∉ segment) :
    SlashFree (path ++ [segment]) := by
  intro s hmem
  rcases List.mem_append.1 hmem with hmem | hmem
  · exact h s hmem
  · rwa [List.mem_singleton.1 hmem]

theorem SlashFree.dropLast {path : Path} (h : SlashFree path) : SlashFree path.dropLast :=
  fun s hs => h s (List.dropLast_subset _ hs)

theorem hop_name {segment a : JsString} (h : hop segment = .name a) : a = segment := by
  unfold hop at h
  split at h
  · cases h
  · split at h
    · cases h
    · exact (Hop.name.inj h).symm

theorem slashFree_map_hop {segments : List JsString} (h : SlashFree segments) {a : JsString}
    (ha : Hop.name a ∈ segments.map hop) : slash ∉ a := by
  obtain ⟨segment, hmem, heq⟩ := List.mem_map.1 ha
  rw [hop_name heq]
  exact h segment hmem

variable {links : LinkMap}

/-- The code looks a link up by the text of its path. -/
theorem linkAt_eq {resolved : Path} {segment : JsString} (h : SlashFree (resolved ++ [segment])) :
    linkAt links (resolved ++ [segment]) = (links.get? (Lines.join slash (resolved ++ [segment]))).map follow := by
  have hkey : ∀ name : JsString, decide (Lines.split slash name = resolved ++ [segment]) = true ↔
      name = Lines.join slash (resolved ++ [segment]) := by
    intro name
    rw [decide_eq_true_iff]
    constructor
    · intro hname
      rw [← hname, Lines.join_split]
    · rintro rfl
      exact Lines.split_join slash (by simp) h
  rw [← Table.find_map_snd links hkey, Option.map_map]
  rfl

theorem linkAt_names {path : Path} {target : List (Hop JsString)} (h : linkAt links path = some (some target))
    {a : JsString} (ha : Hop.name a ∈ target) : slash ∉ a := by
  unfold linkAt at h
  obtain ⟨link, -, hlink⟩ := Option.map_eq_some_iff.1 h
  unfold follow at hlink
  split at hlink
  · cases hlink
  · rw [Option.some.injEq] at hlink
    subst hlink
    exact slashFree_map_hop (slashFree_split _) ha

theorem SlashFree.walk {n : Nat} {segments : List JsString} {r d : Path} (h : Following.Walk (linkAt links) n r (segments.map hop) d)
    (hr : SlashFree r) (hs : SlashFree segments) : SlashFree d :=
  h.names (P := fun a => slash ∉ a) (fun _ _ ht _ ha => linkAt_names ht ha) hr fun _ ha => slashFree_map_hop hs ha

/-! ## The check accepts only what is confined -/

/-- What the memo says about a link is where following its target leads. -/
def MemoSound (links : LinkMap) (memo : Memo) : Prop :=
  ∀ resolved segment target destination, SlashFree (resolved ++ [segment]) →
    links.get? (Lines.join slash (resolved ++ [segment])) = some target →
    memo.lookup (Lines.join slash (resolved ++ [segment])) = some destination →
    ∃ n, Following.Walk (linkAt links) n resolved (hops target) destination

theorem memoSound_nil : MemoSound links [] := by
  intro _ _ _ _ _ _ h
  cases h

/-- Paths are told apart by their texts. -/
theorem join_concat_inj {r r' : Path} {s s' : JsString} (h : SlashFree (r ++ [s])) (h' : SlashFree (r' ++ [s']))
    (heq : Lines.join slash (r ++ [s]) = Lines.join slash (r' ++ [s'])) : r = r' ∧ s = s' := by
  have hsplit := congrArg (Lines.split slash) heq
  rw [Lines.split_join slash (by simp) h, Lines.split_join slash (by simp) h'] at hsplit
  have hinj := List.append_inj' hsplit rfl
  exact ⟨hinj.1, List.singleton_inj.1 hinj.2⟩

theorem MemoSound.cons {memo : Memo} (h : MemoSound links memo) {resolved destination : Path} {segment target : JsString} {n : Nat}
    (hfree : SlashFree (resolved ++ [segment])) (hget : links.get? (Lines.join slash (resolved ++ [segment])) = some target)
    (hw : Following.Walk (linkAt links) n resolved (hops target) destination) :
    MemoSound links ((Lines.join slash (resolved ++ [segment]), destination) :: memo) := by
  intro r s t d hfree' hget' hlook
  by_cases heq : Lines.join slash (r ++ [s]) = Lines.join slash (resolved ++ [segment])
  · obtain ⟨rfl, rfl⟩ := join_concat_inj hfree' hfree heq
    rw [hget, Option.some.injEq] at hget'
    rw [List.lookup_cons, beq_iff_eq.2 rfl, Option.some.injEq] at hlook
    subst hget' hlook
    exact ⟨n, hw⟩
  · rw [List.lookup_cons, beq_eq_false_iff_ne.2 heq] at hlook
    exact h r s t d hfree' hget' hlook

/-- What a resolver returns is where its segments lead, and it leaves a sound memo. -/
def Sound (links : LinkMap) (resolver : Resolver) : Prop :=
  ∀ resolving segments resolved memo destination memo', SlashFree segments → SlashFree resolved → MemoSound links memo →
    resolver resolving segments resolved memo = .ok (destination, memo') →
    (∃ n, Following.Walk (linkAt links) n resolved (segments.map hop) destination) ∧ MemoSound links memo'

theorem hop_stay {segment : JsString} (h : segment = [] ∨ segment = dot) : hop segment = .stay := if_pos h

theorem hop_dotDot : hop dotDot = .up := by decide

theorem hop_ordinary {segment : JsString} (h : ¬ (segment = [] ∨ segment = dot)) (hup : segment ≠ dotDot) :
    hop segment = .name segment := by
  unfold hop
  rw [if_neg h, if_neg hup]

theorem resolveSegments_sound {expand : Resolver} (hexpand : Sound links expand) : Sound links (resolveSegments links expand) := by
  intro resolving segments
  induction segments with
  | nil =>
    intro resolved memo destination memo' _ _ hmemo h
    simp only [resolveSegments, Except.ok.injEq, Prod.mk.injEq] at h
    obtain ⟨rfl, rfl⟩ := h
    exact ⟨⟨0, .done⟩, hmemo⟩
  | cons segment segments ih =>
    intro resolved memo destination memo' hsegs hres hmemo h
    have hrest : SlashFree segments := fun s hs => hsegs s (List.mem_cons_of_mem _ hs)
    have hfree : SlashFree (resolved ++ [segment]) := hres.concat (hsegs segment List.mem_cons_self)
    rw [resolveSegments] at h
    rw [List.map_cons]
    by_cases hstay : segment = [] ∨ segment = dot
    · rw [if_pos hstay] at h
      obtain ⟨⟨n, hw⟩, hmemo'⟩ := ih _ _ _ _ hrest hres hmemo h
      rw [hop_stay hstay]
      exact ⟨⟨n, .stay hw⟩, hmemo'⟩
    rw [if_neg hstay] at h
    by_cases hup : segment = dotDot
    · rw [if_pos hup] at h
      split at h
      · cases h
      · rename_i hne
        obtain ⟨⟨n, hw⟩, hmemo'⟩ := ih _ _ _ _ hrest hres.dropLast hmemo h
        rw [hup, hop_dotDot]
        exact ⟨⟨n, .up hne hw⟩, hmemo'⟩
    rw [if_neg hup] at h
    rw [hop_ordinary hstay hup]
    have hlink : linkAt links (resolved ++ [segment]) = _ := linkAt_eq hfree
    cases hget : links.get? (Lines.join slash (resolved ++ [segment])) with
    | none =>
      rw [hget] at h hlink
      obtain ⟨⟨n, hw⟩, hmemo'⟩ := ih _ _ _ _ hrest hfree hmemo h
      exact ⟨⟨n, .name hlink hw⟩, hmemo'⟩
    | some target =>
      rw [hget] at h hlink
      simp only [Option.map_some, follow] at h hlink
      split at h
      · cases h
      rename_i habs
      rw [if_neg habs] at hlink
      split at h
      · cases h
      -- the destination is remembered, or found now
      have hdone : ∀ mid memo₁, (∃ n, Following.Walk (linkAt links) n resolved (hops target) mid) → MemoSound links memo₁ →
          resolveSegments links expand resolving segments mid memo₁ = .ok (destination, memo') →
          (∃ n, Following.Walk (linkAt links) n resolved (.name segment :: segments.map hop) destination) ∧
            MemoSound links memo' := by
        rintro mid memo₁ ⟨n, hw⟩ hmemo₁ hcont
        obtain ⟨⟨m, hw'⟩, hmemo'⟩ := ih _ _ _ _ hrest (SlashFree.walk hw hres (slashFree_split target)) hmemo₁ hcont
        exact ⟨⟨_, .link hlink hw hw'⟩, hmemo'⟩
      split at h
      · rename_i mid hlook
        exact hdone mid memo (hmemo _ _ _ _ hfree hget hlook) hmemo h
      · split at h
        · cases h
        · rename_i mid memo₁ hexp
          obtain ⟨⟨n, hw⟩, hmemo₁⟩ := hexpand _ _ _ _ _ _ (slashFree_split target) hres hmemo hexp
          exact hdone mid _ ⟨n, hw⟩ (hmemo₁.cons hfree hget hw) h

theorem resolve_sound (depth : Nat) : Sound links (resolve links depth) := by
  induction depth with
  | zero =>
    intro _ _ _ _ _ _ _ _ _ h
    cases h
  | succ depth ih => exact resolveSegments_sound ih

/-! ## The check accepts what is confined -/

/-- Links in progress whose expansions take at least `n` links: none of them is expanded within one of fewer. -/
def Pending (links : LinkMap) (resolving : List JsString) (n : Nat) : Prop :=
  ∀ resolved segment target, SlashFree (resolved ++ [segment]) → Lines.join slash (resolved ++ [segment]) ∈ resolving →
    links.get? (Lines.join slash (resolved ++ [segment])) = some target →
    ∀ k d, Following.Walk (linkAt links) k resolved (hops target) d → n ≤ k

theorem Pending.mono {resolving : List JsString} {n m : Nat} (h : Pending links resolving n) (hle : m ≤ n) :
    Pending links resolving m :=
  fun r s t hfree hmem hget k d hw => Nat.le_trans hle (h r s t hfree hmem hget k d hw)

theorem Pending.cons {resolving : List JsString} {n : Nat} (h : Pending links resolving n) {resolved mid : Path}
    {segment target : JsString} (hfree : SlashFree (resolved ++ [segment]))
    (hget : links.get? (Lines.join slash (resolved ++ [segment])) = some target)
    (hw : Following.Walk (linkAt links) n resolved (hops target) mid) :
    Pending links (Lines.join slash (resolved ++ [segment]) :: resolving) n := by
  intro r s t hfree' hmem hget' k d hw'
  by_cases heq : Lines.join slash (r ++ [s]) = Lines.join slash (resolved ++ [segment])
  · obtain ⟨rfl, rfl⟩ := join_concat_inj hfree' hfree heq
    rw [hget, Option.some.injEq] at hget'
    subst hget'
    exact Nat.le_of_eq (hw.unique hw').1
  · exact h r s t hfree' ((List.mem_cons.1 hmem).resolve_left heq) hget' k d hw'

/-- The links in progress are distinct links of the map. -/
def InProgress (links : LinkMap) (resolving : List JsString) : Prop :=
  resolving.Nodup ∧ ∀ candidate ∈ resolving, links.get? candidate ≠ none

theorem InProgress.cons {resolving : List JsString} (h : InProgress links resolving) {candidate target : JsString}
    (hnew : candidate ∉ resolving) (hget : links.get? candidate = some target) : InProgress links (candidate :: resolving) := by
  refine ⟨List.nodup_cons.2 ⟨hnew, h.1⟩, ?_⟩
  intro c hc
  rcases List.mem_cons.1 hc with rfl | hc
  · simp [hget]
  · exact h.2 c hc

/-- There is room for the links in progress. -/
theorem InProgress.length_le {resolving : List JsString} (h : InProgress links resolving) :
    resolving.length ≤ links.rows.length := by
  have hsub : resolving ⊆ links.rows.map Prod.fst := by
    intro c hc
    by_contra hnot
    exact h.2 c hc (Table.lookup_eq_none_iff.2 hnot)
  simpa using (List.subperm_of_subset h.1 hsub).length_le

/-- A resolver reaches the end of every walk that none of the links in progress is part of. -/
def Complete (links : LinkMap) (resolving : List JsString) (resolver : List JsString → Path → Memo → Except Refusal (Path × Memo)) :
    Prop :=
  ∀ n segments resolved memo destination, SlashFree segments → SlashFree resolved → MemoSound links memo →
    Pending links resolving n → Following.Walk (linkAt links) n resolved (segments.map hop) destination →
    ∃ memo', resolver segments resolved memo = .ok (destination, memo')

theorem resolveSegments_complete {expand : Resolver} (hsound : Sound links expand) {resolving : List JsString}
    (hexpand : ∀ candidate target, candidate ∉ resolving → links.get? candidate = some target →
      Complete links (candidate :: resolving) (expand (candidate :: resolving))) :
    Complete links resolving (resolveSegments links expand resolving) := by
  intro n segments
  induction segments generalizing n with
  | nil =>
    intro resolved memo destination _ _ _ _ hw
    cases hw
    exact ⟨memo, rfl⟩
  | cons segment segments ih =>
    intro resolved memo destination hsegs hres hmemo hpend hw
    have hrest : SlashFree segments := fun s hs => hsegs s (List.mem_cons_of_mem _ hs)
    have hfree : SlashFree (resolved ++ [segment]) := hres.concat (hsegs segment List.mem_cons_self)
    rw [resolveSegments]
    rw [List.map_cons] at hw
    by_cases hstay : segment = [] ∨ segment = dot
    · rw [hop_stay hstay] at hw
      rw [if_pos hstay]
      cases hw with
      | stay hw => exact ih _ _ _ _ hrest hres hmemo hpend hw
    rw [if_neg hstay]
    by_cases hup : segment = dotDot
    · rw [hup, hop_dotDot] at hw
      rw [if_pos hup]
      cases hw with
      | up hne hw =>
        rw [if_neg hne]
        exact ih _ _ _ _ hrest hres.dropLast hmemo hpend hw
    rw [if_neg hup]
    rw [hop_ordinary hstay hup] at hw
    have hlink : linkAt links (resolved ++ [segment]) = _ := linkAt_eq hfree
    cases hw with
    | name hnone hw =>
      rw [hlink, Option.map_eq_none_iff] at hnone
      rw [hnone]
      exact ih _ _ _ _ hrest hfree hmemo hpend hw
    | @link n₁ n₂ _ _ t mid _ _ hl ht hw =>
      rw [hlink] at hl
      obtain ⟨target, hget, hfollow⟩ := Option.map_eq_some_iff.1 hl
      unfold follow at hfollow
      split at hfollow
      · cases hfollow
      rename_i habs
      rw [Option.some.injEq] at hfollow
      subst hfollow
      -- a link in progress takes more links than this walk has
      have hnew : Lines.join slash (resolved ++ [segment]) ∉ resolving := by
        intro hmem
        have hle := hpend _ _ _ hfree hmem hget _ _ ht
        omega
      have hmid : SlashFree mid := SlashFree.walk ht hres (slashFree_split target)
      rw [hget]
      dsimp only
      rw [if_neg habs, if_neg hnew]
      cases hlook : memo.lookup (Lines.join slash (resolved ++ [segment])) with
      | some remembered =>
        obtain ⟨k, hk⟩ := hmemo _ _ _ _ hfree hget hlook
        obtain ⟨-, rfl⟩ := ht.unique hk
        exact ih _ _ _ _ hrest hmid hmemo (hpend.mono (by omega)) hw
      | none =>
        obtain ⟨memo₁, hexp⟩ := hexpand _ _ hnew hget n₁ _ _ memo _ (slashFree_split target) hres hmemo
          ((hpend.mono (by omega)).cons hfree hget ht) ht
        have hmemo₁ := (hsound _ _ _ _ _ _ (slashFree_split target) hres hmemo hexp).2
        rw [hexp]
        exact ih _ _ _ _ hrest hmid (hmemo₁.cons hfree hget ht) (hpend.mono (by omega)) hw

theorem resolve_complete (depth : Nat) (resolving : List JsString) (h : InProgress links resolving)
    (hroom : links.rows.length + 1 ≤ depth + resolving.length) : Complete links resolving (resolve links depth resolving) := by
  induction depth generalizing resolving with
  | zero =>
    exfalso
    have hle := h.length_le
    omega
  | succ depth ih =>
    apply resolveSegments_complete (resolve_sound depth)
    intro candidate target hnew hget
    apply ih _ (h.cons hnew hget)
    rw [List.length_cons]
    omega

/-! ## The depth of the recursion -/

theorem resolveSegments_congr {expand expand' : Resolver} {resolving : List JsString}
    (hexpand : ∀ candidate target, candidate ∉ resolving → links.get? candidate = some target →
      ∀ segments resolved memo, expand (candidate :: resolving) segments resolved memo =
        expand' (candidate :: resolving) segments resolved memo ∧
        expand (candidate :: resolving) segments resolved memo ≠ .error .outOfDepth)
    (segments : List JsString) (resolved : Path) (memo : Memo) :
    resolveSegments links expand resolving segments resolved memo = resolveSegments links expand' resolving segments resolved memo ∧
      resolveSegments links expand resolving segments resolved memo ≠ .error .outOfDepth := by
  induction segments generalizing resolved memo with
  | nil => exact ⟨rfl, by simp [resolveSegments]⟩
  | cons segment segments ih =>
    rw [resolveSegments, resolveSegments]
    split
    · exact ih _ _
    split
    · split
      · exact ⟨rfl, by simp⟩
      · exact ih _ _
    cases hget : links.get? (Lines.join slash (resolved ++ [segment])) with
    | none => exact ih _ _
    | some target =>
      dsimp only
      split
      · exact ⟨rfl, by simp⟩
      split
      · exact ⟨rfl, by simp⟩
      rename_i hnew
      split
      · exact ih _ _
      · obtain ⟨heq, hne⟩ := hexpand _ _ hnew hget (Lines.split slash target) resolved memo
        rw [← heq]
        split
        · rename_i hres
          rw [hres] at hne
          exact ⟨rfl, hne⟩
        · exact ih _ _

/-- A deeper recursion than there are links changes nothing. -/
theorem resolve_depth (depth depth' : Nat) (resolving : List JsString) (h : InProgress links resolving)
    (hroom : links.rows.length + 1 ≤ depth + resolving.length) (hroom' : links.rows.length + 1 ≤ depth' + resolving.length)
    (segments : List JsString) (resolved : Path) (memo : Memo) :
    resolve links depth resolving segments resolved memo = resolve links depth' resolving segments resolved memo ∧
      resolve links depth resolving segments resolved memo ≠ .error .outOfDepth := by
  have hle := h.length_le
  induction depth generalizing depth' resolving segments resolved memo with
  | zero => omega
  | succ depth ih =>
    obtain _ | depth' := depth'
    · omega
    apply resolveSegments_congr
    intro candidate target hnew hget segments resolved memo
    have hcons := h.cons hnew hget
    have hle' := hcons.length_le
    rw [List.length_cons] at hle'
    exact ih depth' _ hcons (by rw [List.length_cons]; omega) (by rw [List.length_cons]; omega) segments resolved memo
      (by rw [List.length_cons]; omega)

/-! ## The whole check -/

theorem inProgress_nil : InProgress links [] := ⟨List.nodup_nil, by simp⟩

theorem pending_nil (n : Nat) : Pending links [] n := by
  intro _ _ _ _ h
  cases h

theorem slashFree_nil : SlashFree [] := by
  intro _ h
  cases h

theorem resolveNames_iff {depth : Nat} (hdepth : links.rows.length < depth) (names : List JsString) {memo : Memo}
    (hmemo : MemoSound links memo) :
    (∃ memo', resolveNames links depth names memo = .ok memo') ↔ ∀ name ∈ names, Confined links name := by
  induction names generalizing memo with
  | nil => simp [resolveNames]
  | cons name names ih =>
    rw [resolveNames, List.forall_mem_cons]
    constructor
    · rintro ⟨memo', h⟩
      split at h
      · cases h
      · rename_i d memo₁ hres
        obtain ⟨⟨n, hw⟩, hmemo₁⟩ := resolve_sound depth _ _ _ _ _ _ (slashFree_split name) slashFree_nil hmemo hres
        exact ⟨⟨d, hw.ends⟩, (ih hmemo₁).1 ⟨memo', h⟩⟩
    · rintro ⟨⟨d, hd⟩, hrest⟩
      obtain ⟨n, hw⟩ := Following.walk_of_ends hd
      obtain ⟨memo₁, hres⟩ := resolve_complete depth [] inProgress_nil (Nat.succ_le_of_lt hdepth) n _ _ memo d (slashFree_split name)
        slashFree_nil hmemo (pending_nil n) hw
      have hmemo₁ := (resolve_sound depth _ _ _ _ _ _ (slashFree_split name) slashFree_nil hmemo hres).2
      rw [hres]
      exact (ih hmemo₁).2 hrest

theorem resolveNames_depth {depth depth' : Nat} (h : links.rows.length < depth) (h' : links.rows.length < depth')
    (names : List JsString) (memo : Memo) :
    resolveNames links depth names memo = resolveNames links depth' names memo ∧
      resolveNames links depth names memo ≠ .error .outOfDepth := by
  induction names generalizing memo with
  | nil => exact ⟨rfl, by simp [resolveNames]⟩
  | cons name names ih =>
    obtain ⟨heq, hne⟩ := resolve_depth depth depth' [] inProgress_nil (Nat.succ_le_of_lt h) (Nat.succ_le_of_lt h')
      (Lines.split slash name) [] memo
    rw [resolveNames, resolveNames, ← heq]
    split
    · rename_i hres
      rw [hres] at hne
      exact ⟨rfl, by simpa using hne⟩
    · exact ih _

/-- The verdict, whatever the memo remembers. -/
theorem assertConfinedFrom_iff {depth : Nat} (hdepth : links.rows.length < depth) {memo : Memo} (hmemo : MemoSound links memo) :
    assertConfinedFrom links depth memo = .ok () ↔ ∀ name ∈ LinkMap.names links, Confined links name := by
  rw [← resolveNames_iff hdepth _ hmemo]
  unfold assertConfinedFrom
  split
  · rename_i h
    simp [h]
  · rename_i memo' h
    simp [h]

/-- The recursion is never deeper than there are links. -/
theorem assertConfined_depth {depth : Nat} (hdepth : links.rows.length < depth) :
    assertConfinedFrom links depth [] = assertConfinedSymlinks links ∧ assertConfinedSymlinks links ≠ .error .outOfDepth := by
  obtain ⟨heq, hne⟩ := resolveNames_depth (Nat.lt_succ_self links.rows.length) hdepth (LinkMap.names links) []
  unfold assertConfinedSymlinks assertConfinedFrom
  rw [← heq]
  refine ⟨rfl, ?_⟩
  split
  · rename_i h
    rw [h] at hne
    simpa using hne
  · simp

/-- The links of a map do not depend on the order of its entries. -/
theorem linkAt_perm {links' : LinkMap} (h : links.rows.Perm links'.rows) : linkAt links = linkAt links' := by
  funext path
  unfold linkAt
  congr 1
  have hkey : ∀ r ∈ links.rows, ∀ r' ∈ links.rows, Lines.split slash r.1 = path → Lines.split slash r'.1 = path → r = r' := by
    intro r hr r' hr' hp hp'
    have hname : r.1 = r'.1 := by rw [← Lines.join_split slash r.1, hp, ← hp', Lines.join_split]
    exact List.inj_on_of_nodup_map links.nodup hr hr' hname
  cases hfind : links.rows.find? fun link => Lines.split slash link.1 = path with
  | none =>
    symm
    rw [List.find?_eq_none] at hfind ⊢
    exact fun r hr => hfind r (h.mem_iff.2 hr)
  | some r =>
    have hp := List.find?_some hfind
    obtain ⟨r', hr'⟩ : ∃ r', (links'.rows.find? fun link => Lines.split slash link.1 = path) = some r' := by
      rw [← Option.isSome_iff_exists, List.find?_isSome]
      exact ⟨r, h.mem_iff.1 (List.mem_of_find?_eq_some hfind), hp⟩
    have hp' := List.find?_some hr'
    rw [decide_eq_true_iff] at hp hp'
    rw [hr', hkey r (List.mem_of_find?_eq_some hfind) r' (h.mem_iff.2 (List.mem_of_find?_eq_some hr')) hp hp']

theorem accepts_perm {links' : LinkMap} (h : links.rows.Perm links'.rows) :
    assertConfinedSymlinks links = .ok () ↔ assertConfinedSymlinks links' = .ok () := by
  unfold assertConfinedSymlinks
  rw [assertConfinedFrom_iff (Nat.lt_succ_self _) memoSound_nil, assertConfinedFrom_iff (Nat.lt_succ_self _) memoSound_nil]
  have hnames : ∀ name, name ∈ LinkMap.names links ↔ name ∈ LinkMap.names links' := fun name => (h.map Prod.fst).mem_iff
  simp only [hnames, Confined, linkAt_perm h]

end Leitwerk.SessionTransfer
