import Leitwerk.Lib.Growing
import Leitwerk.Lib.JsString
/-!
# Views of a session tree

`createReadonlyEntryTree` of `session-entry-tree.ts` and `createReadonlyPiSessionTree`
of `pi-session-tree.ts`. The entries of a session name their parents, in whatever
order and with whatever links. `getTree` loses none and repeats none, and
`getBranch` ends, too.
-/

namespace Leitwerk.Protocol.SessionTree

open JsString (lit trim)
open Growing

/-- What is read of a record of the file: `none` where a field is no string. -/
structure FileEntry where
  type : Option JsString
  id : Option JsString
  /-- `some none` is `null`. -/
  parentId : Option (Option JsString)
  timestamp : Option JsString
  targetId : Option JsString
  label : Option JsString

/-- An entry that `isSessionEntry` lets through. -/
structure SessionEntry where
  type : JsString
  id : JsString
  parentId : Option JsString
  timestamp : JsString
  targetId : Option JsString
  label : Option JsString
  type_ne_blank : JsString.trim type ≠ []
  no_header : type ≠ lit "session"
  id_ne_blank : JsString.trim id ≠ []
  deriving DecidableEq

/-- `isSessionEntry`. -/
def isSessionEntry (entry : FileEntry) : Option SessionEntry :=
  match entry.type, entry.id, entry.parentId, entry.timestamp with
  | some type, some id, some parentId, some timestamp =>
    if h : JsString.trim type ≠ [] ∧ type ≠ lit "session" ∧ JsString.trim id ≠ [] then
      some { type, id, parentId, timestamp, targetId := entry.targetId, label := entry.label,
             type_ne_blank := h.1, no_header := h.2.1, id_ne_blank := h.2.2 }
    else none
  | _, _, _, _ => none

/-- `PiSessionTreeNode`. -/
inductive PiSessionTreeNode
  | mk (entry : SessionEntry) (children : List PiSessionTreeNode) (label : Option JsString)

variable (entries : List SessionEntry)

/-! ## `session-entry-tree.ts` -/

/-- `entriesById.get`; of entries with one id the last is found. -/
def getEntry (id : JsString) : Option SessionEntry := entries.reverse.find? fun entry => entry.id = id

/-- `childrenByParentId.get`. Entries with a blank parent are listed nowhere. -/
def getChildren (parentId : JsString) : List SessionEntry :=
  entries.filter fun entry => entry.parentId = some parentId ∧ JsString.trim parentId ≠ []

def leafId : Option JsString := entries.getLast?.map (·.id)

/-- The entry the loop of `getBranch` goes on with. -/
def parentEntry (entry : SessionEntry) : Option SessionEntry :=
  match entry.parentId with
  | none => none
  | some parentId => if parentId = [] then none else getEntry entries parentId

/-- `getBranch`, where the loop may go round `fuel` times. -/
def getBranch (fuel : ℕ) (fromId : Option JsString) : Option (List SessionEntry) :=
  match fromId <|> leafId entries with
  | none => some []
  | some id => if id = [] then some [] else ascend (·.id) (parentEntry entries) fuel [] [] (getEntry entries id)

/-! ## `pi-session-tree.ts` -/

/-- What an entry does to the labels by target. -/
def setLabel (labels : JsString → Option JsString) (entry : SessionEntry) : JsString → Option JsString :=
  let targetId := JsString.trim (entry.targetId.getD [])
  if entry.type ≠ lit "label" ∨ targetId = [] then labels
  else Function.update labels targetId (entry.label.filter fun label => JsString.trim label ≠ [])

/-- `labelsByTargetId`. -/
def labelsByTargetId : JsString → Option JsString := entries.foldl setLabel fun _ => none

/-- `buildTreeNode`, with what was visited before and is visited then. -/
def buildTreeNode : ℕ → SessionEntry → List JsString → Option (PiSessionTreeNode × List JsString)
  | 0, _, _ => none
  | fuel + 1, entry, visited =>
    (each (buildTreeNode fuel) (fresh (·.id) (entry.id :: visited) (getChildren entries entry.id))
      (entry.id :: visited)).map fun p => (.mk entry p.1 (labelsByTargetId entries entry.id), p.2)

def rootEntries : List SessionEntry :=
  entries.filter fun entry =>
    match entry.parentId with
    | none => true
    | some parentId => (getEntry entries parentId).isNone

def getTree (fuel : ℕ) : Option (List PiSessionTreeNode) :=
  forest (·.id) (buildTreeNode entries fuel) (rootEntries entries) entries

/-! ## Shapes -/

mutual

/-- A node without its labels. -/
def PiSessionTreeNode.shape : PiSessionTreeNode → Rose SessionEntry
  | .mk entry children _ => .node entry (shapeAll children)

def shapeAll : List PiSessionTreeNode → List (Rose SessionEntry)
  | [] => []
  | node :: nodes => node.shape :: shapeAll nodes

end

variable {entries}

theorem shapeAll_eq (nodes : List PiSessionTreeNode) : shapeAll nodes = nodes.map PiSessionTreeNode.shape := by
  induction nodes with
  | nil => rfl
  | cons node nodes ih => rw [shapeAll, ih, List.map_cons]

/-- What is built has the shape that is grown. -/
theorem shape_buildTreeNode (fuel : ℕ) (entry : SessionEntry) (visited : List JsString) :
    (buildTreeNode entries fuel entry visited).map (fun p => (p.1.shape, p.2)) =
      grow (·.id) (fun entry => getChildren entries entry.id) fuel entry visited := by
  induction fuel generalizing entry visited with
  | zero => rfl
  | succ fuel ih =>
    have hsteps : (fun entry visited => (buildTreeNode entries fuel entry visited).map fun p => (p.1.shape, p.2)) =
        grow (·.id) (fun entry => getChildren entries entry.id) fuel := by
      funext entry visited
      exact ih entry visited
    rw [buildTreeNode, grow, ← hsteps, ← each_map, Option.map_map, Option.map_map]
    apply Option.map_congr
    intro p _
    simp only [Function.comp_apply, PiSessionTreeNode.shape, shapeAll_eq]

theorem shape_getTree (fuel : ℕ) :
    (getTree entries fuel).map (List.map PiSessionTreeNode.shape) =
      forest (·.id) (grow (·.id) (fun entry => getChildren entries entry.id) fuel) (rootEntries entries) entries := by
  rw [getTree, forest_map]
  have hsteps : (fun entry visited => (buildTreeNode entries fuel entry visited).map fun p => (p.1.shape, p.2)) =
      grow (·.id) (fun entry => getChildren entries entry.id) fuel := by
    funext entry visited
    exact shape_buildTreeNode fuel entry visited
  rw [hsteps]

theorem buildTreeNode_mono {fuel fuel' : ℕ} (hle : fuel ≤ fuel') (entry : SessionEntry) (visited : List JsString)
    (p : PiSessionTreeNode × List JsString) (h : buildTreeNode entries fuel entry visited = some p) :
    buildTreeNode entries fuel' entry visited = some p := by
  induction fuel generalizing fuel' entry visited p with
  | zero => cases h
  | succ fuel ih =>
    cases fuel' with
    | zero => omega
    | succ fuel' =>
      rw [buildTreeNode] at h ⊢
      obtain ⟨q, hq, rfl⟩ := Option.map_eq_some_iff.1 h
      rw [each_mono (fun entry visited p => ih (by omega) entry visited p) hq, Option.map_some]

/-! ## Links -/

section Links

variable (hids : (entries.map (·.id)).Nodup)

include hids

theorem getEntry_eq_some {id : JsString} {entry : SessionEntry} : getEntry entries id = some entry ↔ entry ∈ entries ∧ entry.id = id := by
  constructor
  · intro h
    exact ⟨List.mem_reverse.1 (List.mem_of_find?_eq_some h), by simpa using List.find?_some h⟩
  · rintro ⟨hmem, rfl⟩
    cases hfind : getEntry entries entry.id with
    | none => simpa using List.find?_eq_none.1 hfind entry (List.mem_reverse.2 hmem)
    | some other =>
      have hother := List.mem_reverse.1 (List.mem_of_find?_eq_some hfind)
      have hid : other.id = entry.id := by simpa using List.find?_some hfind
      rw [eq_of_key hids hother hmem hid]

theorem family : Family (·.id) (·.parentId) entries fun entry => getChildren entries entry.id where
  keyed := hids
  down_eq entry _ := by
    apply List.filter_congr
    intro child _
    simp [entry.id_ne_blank]

theorem parentEntry_eq_some (entry parent : SessionEntry) :
    parentEntry entries entry = some parent ↔ parent ∈ entries ∧ entry.parentId = some parent.id := by
  unfold parentEntry
  cases entry.parentId with
  | none => simp
  | some parentId =>
    have hne : parent.id ≠ [] := fun heq => parent.id_ne_blank (by rw [heq]; rfl)
    by_cases hblank : parentId = []
    · simp [hblank, hne.symm]
    · simp only [hblank, if_false, getEntry_eq_some hids, Option.some.injEq, eq_comm]

/-- The roots are the entries whose parent is null or missing. -/
theorem mem_rootEntries {entry : SessionEntry} (h : entry ∈ entries) :
    entry ∈ rootEntries entries ↔ Parentless (·.id) (·.parentId) entries entry := by
  rw [rootEntries, List.mem_filter, and_iff_right h]
  change _ ↔ ∀ parent ∈ entries, entry.parentId ≠ some parent.id
  cases hparent : entry.parentId with
  | none => simp
  | some parentId =>
    rw [Option.isNone_iff_eq_none, Option.eq_none_iff_forall_ne_some]
    refine forall_congr' fun parent => ?_
    rw [Ne, getEntry_eq_some hids, not_and, Ne, Option.some.injEq, eq_comm]

end Links

/-! ## No entry is lost or repeated -/

/-- The forest has every entry once, below its parent and beside its siblings in the order of the list, or as a root: first
those without a parent. A branch leads from the farthest entry above down to an entry, and is the path to it in the forest
where it begins at an entry without a parent. -/
theorem sessionTree_lossless (hids : (entries.map (·.id)).Nodup) :
    ∃ forest : List PiSessionTreeNode, (∀ fuel, entries.length < fuel → getTree entries fuel = some forest) ∧
      (flattenAll (forest.map PiSessionTreeNode.shape)).Perm entries ∧
      (∀ tree ∈ forest.map PiSessionTreeNode.shape, Shaped (·.id) (·.parentId) entries tree) ∧
      (∃ others, (forest.map PiSessionTreeNode.shape).map Rose.value = rootEntries entries ++ others ∧ others.Sublist entries) ∧
      (∀ entry ∈ entries, Parentless (·.id) (·.parentId) entries entry → entry ∈ (forest.map PiSessionTreeNode.shape).map Rose.value) ∧
      ∀ entry ∈ entries, ∃ branch, (∀ fuel, entries.length < fuel → getBranch entries fuel (some entry.id) = some branch) ∧
        Branch (·.id) (·.parentId) entries entry branch ∧
        (Rooted (·.id) (·.parentId) entries entry → Leads (forest.map PiSessionTreeNode.shape) branch ∧
          ∀ path, Leads (forest.map PiSessionTreeNode.shape) path → path.getLast? = some entry → path = branch) := by
  have hroots : (rootEntries entries).Sublist entries := List.filter_sublist
  obtain ⟨trees, hgrown, hforest⟩ := forest_isForest (family hids) hroots
    (fun entry h => mem_rootEntries hids h) (Nat.lt_succ_self entries.length)
  rw [← shape_getTree] at hgrown
  obtain ⟨forest, htree, rfl⟩ := Option.map_eq_some_iff.1 hgrown
  obtain ⟨others, hvalues, hothers⟩ := hforest.values
  refine ⟨forest, fun fuel hfuel => ?_, hforest.perm, hforest.shaped, ⟨others, hvalues, hothers⟩, ?_, ?_⟩
  · exact forest_mono (buildTreeNode_mono hfuel) htree
  · intro entry hmem hparentless
    rw [hvalues]
    exact List.mem_append_left _ ((mem_rootEntries hids hmem).2 hparentless)
  · intro entry hmem
    obtain ⟨branch, hascend, hbranch⟩ := ascend_start hids (fun entry _ parent => parentEntry_eq_some hids entry parent) hmem
      (Nat.lt_succ_self entries.length)
    refine ⟨branch, fun fuel hfuel => ?_, hbranch, fun hrooted => ?_⟩
    · have hne : entry.id ≠ [] := fun heq => entry.id_ne_blank (by rw [heq]; rfl)
      have hstart := (getEntry_eq_some hids).2 ⟨hmem, rfl⟩
      have hfrom : (some entry.id <|> leafId entries) = some entry.id := rfl
      rw [getBranch, hfrom]
      dsimp only
      rw [if_neg hne, hstart]
      exact ascend_mono hfuel hascend
    · have hpath : ∀ path, Leads (forest.map PiSessionTreeNode.shape) path → path.getLast? = some entry → path = branch :=
        fun path hpath hlast => hforest.path_eq hids hpath hbranch.line (hbranch.head hids hrooted) hlast hbranch.last
      obtain ⟨path, hleads, hlast⟩ := exists_leads (hforest.perm.mem_iff.2 hmem)
      exact ⟨hpath path hleads hlast ▸ hleads, hpath⟩

/-- An entry below itself, one below it that is listed before it, and one without a parent. -/
def loop : List SessionEntry :=
  [{ type := lit "message", id := lit "a", parentId := some (lit "b"), timestamp := [], targetId := none, label := none,
     type_ne_blank := by decide, no_header := by decide, id_ne_blank := by decide },
   { type := lit "message", id := lit "b", parentId := some (lit "b"), timestamp := [], targetId := none, label := none,
     type_ne_blank := by decide, no_header := by decide, id_ne_blank := by decide },
   { type := lit "message", id := lit "c", parentId := none, timestamp := [], targetId := none, label := none,
     type_ne_blank := by decide, no_header := by decide, id_ne_blank := by decide }]

theorem sessionTree_lossless_loop :
    ∃ forest, getTree loop 4 = some forest ∧ (flattenAll (forest.map PiSessionTreeNode.shape)).Perm loop := by
  obtain ⟨forest, htree, hperm, -⟩ := @sessionTree_lossless loop (by decide)
  exact ⟨forest, htree 4 (by decide), hperm⟩

end Leitwerk.Protocol.SessionTree
