import Leitwerk.Lib.Effects
import Leitwerk.Lib.Utf8
import Leitwerk.SessionTransfer.Confinement
/-!
# The file system an archive is extracted into

Nodes by their place: the components of a path that meets no link. A path as a
program writes it is walked from the root, links are followed where they stand
and a step upwards is taken from where the walk is. Nodes are added below
directories and keep their kind, so a walk that succeeded keeps its end
(`walk_grows`). The operations are the calls of `node:fs/promises` the archive
code makes; any of them may fail.
-/

namespace Leitwerk.SessionTransfer

open JsString (lit)
open PiResource (slash dot dotDot Ordinary)

/-- What a node is, apart from its content and its attributes. -/
inductive Kind
  | directory
  | file
  | symlink (target : JsString)
  deriving DecidableEq

structure Node where
  kind : Kind
  content : Utf8.Bytes
  mode : Nat
  mtime : Int
  deriving DecidableEq

inductive Errno
  | enoent
  | enotdir
  | eloop
  | eexist
  | eio
  deriving DecidableEq

/-- Every node but the root stands in a directory. -/
structure FileSystem where
  node : Path → Option Node
  root : (node []).map Node.kind = some .directory
  rooted : ∀ path name, node (path ++ [name]) ≠ none → (node path).map Node.kind = some .directory

namespace FileSystem

def kindAt (fs : FileSystem) (path : Path) : Option Kind := (fs.node path).map Node.kind

theorem kindAt_root (fs : FileSystem) : fs.kindAt [] = some .directory := fs.root

theorem kindAt_parent (fs : FileSystem) {path : Path} {name : JsString} (h : fs.kindAt (path ++ [name]) ≠ none) :
    fs.kindAt path = some .directory :=
  fs.rooted path name fun hnone => h (by simp [kindAt, hnone])

theorem kindAt_eq_none {fs : FileSystem} {path : Path} : fs.kindAt path = none ↔ fs.node path = none := Option.map_eq_none_iff

/-- A new node in a directory. -/
def create (fs : FileSystem) (path : Path) (node : Node) : Option FileSystem :=
  if h : fs.node path = none ∧ fs.kindAt path.dropLast = some .directory then
    some
      { node := fun q => if q = path then some node else fs.node q
        root := by
          have hne : path ≠ [] := by
            rintro rfl
            simpa [h.1] using fs.root
          rw [if_neg (Ne.symm hne)]
          exact fs.root
        rooted := by
          intro q name hq
          have hqdir : (fs.node q).map Node.kind = some .directory := by
            by_cases hpath : q ++ [name] = path
            · simpa [kindAt, ← hpath] using h.2
            · rw [if_neg hpath] at hq
              exact fs.rooted q name hq
          have hne : q ≠ path := by
            rintro rfl
            simp [h.1] at hqdir
          rwa [if_neg hne] }
  else none

/-- A change of a node that leaves its kind. -/
def alter (fs : FileSystem) (path : Path) (f : Node → Node) (hf : ∀ node, (f node).kind = node.kind) : FileSystem :=
  have hkind : ∀ q, ((if q = path then (fs.node q).map f else fs.node q).map Node.kind) = (fs.node q).map Node.kind := by
    intro q
    split
    · rw [Option.map_map]
      congr 1
      funext node
      exact hf node
    · rfl
  { node := fun q => if q = path then (fs.node q).map f else fs.node q
    root := by
      rw [hkind]
      exact fs.root
    rooted := by
      intro q name hq
      rw [hkind]
      apply fs.rooted q name
      intro hnone
      apply hq
      split <;> simp [hnone] }

/-! ## Walks -/

section Walk

variable (fs : FileSystem) (nofollow : Bool)

/-- A walk from a directory; what a link leads to is walked by `expand`. -/
def walkWith (expand : Path → List JsString → Except Errno Path) : Path → List JsString → Except Errno Path
  | here, [] => .ok here
  | here, segment :: rest =>
    if segment = [] ∨ segment = dot then walkWith expand here rest
    else if segment = dotDot then walkWith expand here.dropLast rest
    else
      match fs.kindAt (here ++ [segment]) with
      | some .directory => walkWith expand (here ++ [segment]) rest
      | some (.symlink target) =>
        if nofollow ∧ rest = [] then .ok (here ++ [segment])
        else expand (if posixIsAbsolute target then [] else here) (Lines.split slash target ++ rest)
      | some .file => if rest = [] then .ok (here ++ [segment]) else .error .enotdir
      | none => if rest = [] then .ok (here ++ [segment]) else .error .enoent

/-- A walk that follows no more links than the limit. -/
def walk : Nat → Path → List JsString → Except Errno Path
  | 0 => walkWith fs nofollow fun _ _ => .error .eloop
  | limit + 1 => walkWith fs nofollow (walk limit)

end Walk

/-- The links one walk may follow. -/
def linkLimit : Nat := 40

/-- Where a path leads. With `nofollow` a link that the path ends with is its end. -/
def locate (fs : FileSystem) (nofollow : Bool) (path : Path) : Except Errno Path := fs.walk nofollow linkLimit [] path

/-! ## Growth -/

/-- Every node is still there and of the same kind. -/
def Grows (g fs : FileSystem) : Prop := ∀ path kind, g.kindAt path = some kind → fs.kindAt path = some kind

theorem Grows.refl (fs : FileSystem) : Grows fs fs := fun _ _ h => h

theorem Grows.trans {f g h : FileSystem} (hfg : Grows f g) (hgh : Grows g h) : Grows f h :=
  fun path kind hk => hgh path kind (hfg path kind hk)

theorem create_spec {fs fs' : FileSystem} {path : Path} {node : Node} (h : fs.create path node = some fs') :
    fs.node path = none ∧ fs'.node path = some node ∧ (∀ q, q ≠ path → fs'.node q = fs.node q) := by
  unfold create at h
  split at h
  · rename_i hfree
    cases h
    exact ⟨hfree.1, if_pos rfl, fun q hq => if_neg hq⟩
  · cases h

theorem create_grows {fs fs' : FileSystem} {path : Path} {node : Node} (h : fs.create path node = some fs') : Grows fs fs' := by
  obtain ⟨hnone, -, hother⟩ := create_spec h
  intro q kind hq
  have hne : q ≠ path := by
    rintro rfl
    simp [kindAt, hnone] at hq
  unfold kindAt at hq ⊢
  rw [hother q hne, hq]

theorem kindAt_alter (fs : FileSystem) (path : Path) (f : Node → Node) (hf : ∀ node, (f node).kind = node.kind) (q : Path) :
    (fs.alter path f hf).kindAt q = fs.kindAt q := by
  unfold alter kindAt
  dsimp only
  split
  · rw [Option.map_map]
    congr 1
    funext node
    exact hf node
  · rfl

theorem alter_node (fs : FileSystem) {path q : Path} (f : Node → Node) (hf : ∀ node, (f node).kind = node.kind) (h : q ≠ path) :
    (fs.alter path f hf).node q = fs.node q :=
  if_neg h

theorem walkWith_grows {g fs : FileSystem} (hgrows : Grows g fs) {expand expand' : Path → List JsString → Except Errno Path}
    (hexpand : ∀ here rest p, expand here rest = .ok p → expand' here rest = .ok p) {here p : Path} {segments : List JsString}
    (h : g.walkWith true expand here segments = .ok p) : fs.walkWith true expand' here segments = .ok p := by
  induction segments generalizing here with
  | nil => exact h
  | cons segment rest ih =>
    rw [walkWith] at h ⊢
    split
    · rename_i hstay
      rw [if_pos hstay] at h
      exact ih h
    rename_i hstay
    rw [if_neg hstay] at h
    split
    · rename_i hup
      rw [if_pos hup] at h
      exact ih h
    rename_i hup
    rw [if_neg hup] at h
    by_cases hrest : rest = []
    · -- the last segment ends the walk whatever stands there
      subst hrest
      have hp : here ++ [segment] = p := by
        split at h <;> simpa [walkWith] using h
      rw [← hp]
      split <;> simp [walkWith]
    · cases hkind : g.kindAt (here ++ [segment]) with
      | none => simp [hkind, hrest] at h
      | some kind =>
        rw [hkind] at h
        rw [hgrows _ _ hkind]
        cases kind with
        | directory => exact ih h
        | file => simp [hrest] at h
        | symlink target =>
          simp only [hrest, and_false, if_false] at h ⊢
          exact hexpand _ _ _ h

/-- A walk that does not follow its last segment ends where it did. -/
theorem walk_grows {g fs : FileSystem} (hgrows : Grows g fs) (limit : Nat) {here p : Path} {segments : List JsString}
    (h : g.walk true limit here segments = .ok p) : fs.walk true limit here segments = .ok p := by
  induction limit generalizing here p segments with
  | zero => exact walkWith_grows hgrows (fun _ _ _ h => by cases h) h
  | succ limit ih => exact walkWith_grows hgrows (fun _ _ _ h => ih h) h

/-! ## Below a directory -/

theorem kindAt_above (fs : FileSystem) {path below : Path} (hne : below ≠ []) (h : fs.kindAt (path ++ below) ≠ none) :
    fs.kindAt path = some .directory := by
  induction below using List.reverseRecOn with
  | nil => exact absurd rfl hne
  | append_singleton below name ih =>
    rw [← List.append_assoc] at h
    have hdir := fs.kindAt_parent h
    rcases eq_or_ne below [] with rfl | hbelow
    · simpa using hdir
    · exact ih hbelow (by simp [hdir])

theorem walkWith_append {fs : FileSystem} {nofollow : Bool} {top : Path} (htop : fs.kindAt top = some .directory)
    {rest : List JsString} {expand expand' : Path → List JsString → Except Errno Path}
    (hexpand : ∀ here segments, expand here segments = .ok top → ∃ m, expand' here (segments ++ rest) = fs.walk nofollow m top rest)
    (hend : ∃ m, fs.walkWith nofollow expand' top rest = fs.walk nofollow m top rest) {here : Path} {segments : List JsString}
    (h : fs.walkWith true expand here segments = .ok top) :
    ∃ m, fs.walkWith nofollow expand' here (segments ++ rest) = fs.walk nofollow m top rest := by
  induction segments generalizing here with
  | nil =>
    rw [walkWith, Except.ok.injEq] at h
    rwa [h]
  | cons segment segments ih =>
    rw [walkWith] at h
    rw [List.cons_append, walkWith]
    split
    · rename_i hstay
      rw [if_pos hstay] at h
      exact ih h
    rename_i hstay
    rw [if_neg hstay] at h
    split
    · rename_i hup
      rw [if_pos hup] at h
      exact ih h
    rename_i hup
    rw [if_neg hup] at h
    -- a directory is neither a file nor a link that ends a walk, nor missing
    have hlast : here ++ [segment] = top → fs.kindAt (here ++ [segment]) = some .directory := by
      intro heq
      rw [heq, htop]
    cases hkind : fs.kindAt (here ++ [segment]) with
    | none =>
      exfalso
      simp only [hkind] at h hlast
      split at h
      · exact absurd (hlast (Except.ok.inj h)) (by simp)
      · cases h
    | some kind =>
      rw [hkind] at h hlast
      cases kind with
      | directory => exact ih h
      | file =>
        exfalso
        dsimp only at h
        split at h
        · exact absurd (hlast (Except.ok.inj h)) (by simp)
        · cases h
      | symlink target =>
        dsimp only at h ⊢
        split at h
        · exact absurd (hlast (Except.ok.inj h)) (by simp)
        · rename_i hmore
          have hne : segments ≠ [] := fun hnil => hmore ⟨rfl, hnil⟩
          rw [if_neg (by simp [hne]), ← List.append_assoc]
          exact hexpand _ _ h

/-- What follows a path to a directory is walked from that directory. -/
theorem walk_append {fs : FileSystem} {nofollow : Bool} {top : Path} (htop : fs.kindAt top = some .directory)
    {rest : List JsString} (limit : Nat) {here : Path} {segments : List JsString} (h : fs.walk true limit here segments = .ok top) :
    ∃ m, fs.walk nofollow limit here (segments ++ rest) = fs.walk nofollow m top rest := by
  induction limit generalizing here segments with
  | zero => exact walkWith_append htop (fun _ _ h => by cases h) ⟨0, rfl⟩ h
  | succ limit ih => exact walkWith_append htop (fun _ _ h => ih h) ⟨limit + 1, rfl⟩ h

/-- No link stands below `top` on the way. -/
def NoLinks (fs : FileSystem) (top way : Path) : Prop :=
  ∀ q, q ≠ [] → q <+: way → ∀ target, fs.kindAt (top ++ q) ≠ some (.symlink target)

theorem NoLinks.nil {fs : FileSystem} {top : Path} : NoLinks fs top [] :=
  fun _ hne hpre => absurd (List.prefix_nil.1 hpre) hne

theorem NoLinks.tail {fs : FileSystem} {top way : Path} {name : JsString} (h : NoLinks fs top (name :: way)) :
    NoLinks fs (top ++ [name]) way := by
  intro q _ hpre target
  rw [List.append_assoc]
  exact h (name :: q) (by simp) (List.cons_prefix_cons.2 ⟨rfl, hpre⟩) target

theorem NoLinks.mono {fs : FileSystem} {top way way' : Path} (h : NoLinks fs top way) (hpre : way' <+: way) : NoLinks fs top way' :=
  fun q hne hq => h q hne (hq.trans hpre)

theorem NoLinks.concat {fs : FileSystem} {top way : Path} {name : JsString} (h : NoLinks fs top way)
    (hlast : ∀ target, fs.kindAt (top ++ (way ++ [name])) ≠ some (.symlink target)) : NoLinks fs top (way ++ [name]) := by
  intro q hne hpre
  rcases List.prefix_concat_iff.1 hpre with rfl | hpre
  · exact hlast
  · exact h q hne hpre

/-- The part of a path no segment of which may be a link for the walk to be plain. -/
def way (nofollow : Bool) (segments : List JsString) : List JsString := if nofollow then segments.dropLast else segments

/-- With no link on its way, a walk goes from segment to segment. -/
theorem walkWith_ordinary {fs : FileSystem} {nofollow : Bool} {top : Path} {segments : List JsString}
    {expand : Path → List JsString → Except Errno Path} (hord : ∀ s ∈ segments, Ordinary s)
    (hlinks : NoLinks fs top (way nofollow segments)) :
    (∀ p, fs.walkWith nofollow expand top segments = .ok p → p = top ++ segments) ∧
      (fs.walkWith nofollow expand top segments = .error .enoent → fs.kindAt (top ++ segments) = none) := by
  induction segments generalizing top with
  | nil => simp [walkWith]
  | cons segment rest ih =>
    obtain ⟨hempty, hdot, hup⟩ := hord segment List.mem_cons_self
    have hrest : ∀ s ∈ rest, Ordinary s := fun s hs => hord s (List.mem_cons_of_mem _ hs)
    have hskip : ¬ (segment = [] ∨ segment = dot) := by simp [hempty, hdot]
    rw [walkWith, if_neg hskip, if_neg hup]
    by_cases hlast : nofollow = true ∧ rest = []
    · obtain ⟨rfl, rfl⟩ := hlast
      split <;> simp [walkWith, eq_comm]
    -- the segment is on the way, and so is the way of the rest
    obtain ⟨more, hmore, htail⟩ : ∃ more, way nofollow (segment :: rest) = segment :: more ∧ way nofollow rest = more := by
      cases nofollow with
      | false => exact ⟨rest, rfl, rfl⟩
      | true =>
        have hne : rest ≠ [] := fun h => hlast ⟨rfl, h⟩
        exact ⟨rest.dropLast, List.dropLast_cons_of_ne_nil hne, rfl⟩
    rw [hmore] at hlinks
    have hnolink := hlinks [segment] (by simp) (List.cons_prefix_cons.2 ⟨rfl, List.nil_prefix⟩)
    have hcons : top ++ segment :: rest = (top ++ [segment]) ++ rest := by simp
    rw [hcons]
    cases hkind : fs.kindAt (top ++ [segment]) with
    | none =>
      dsimp only
      split
      · rename_i hnil
        simp [hnil]
      · rename_i hne
        refine ⟨by simp, fun _ => ?_⟩
        by_contra hnot
        have hdir := fs.kindAt_above hne hnot
        simp [hkind] at hdir
    | some kind =>
      cases kind with
      | directory => exact ih hrest (by rw [htail]; exact hlinks.tail)
      | file =>
        dsimp only
        split
        · rename_i hnil
          simp [hnil]
        · simp
      | symlink target => exact absurd hkind (hnolink target)

theorem walk_ordinary {fs : FileSystem} {nofollow : Bool} (limit : Nat) {top : Path} {segments : List JsString}
    (hord : ∀ s ∈ segments, Ordinary s) (hlinks : NoLinks fs top (way nofollow segments)) :
    (∀ p, fs.walk nofollow limit top segments = .ok p → p = top ++ segments) ∧
      (fs.walk nofollow limit top segments = .error .enoent → fs.kindAt (top ++ segments) = none) := by
  cases limit with
  | zero => exact walkWith_ordinary hord hlinks
  | succ limit => exact walkWith_ordinary hord hlinks

/-- A path to a directory and then on, with no link on the way. -/
theorem locate_below {fs : FileSystem} {nofollow : Bool} {root top : Path} (hroot : fs.locate true root = .ok top)
    (htop : fs.kindAt top = some .directory) {segments : List JsString} (hord : ∀ s ∈ segments, Ordinary s)
    (hlinks : NoLinks fs top (way nofollow segments)) :
    (∀ p, fs.locate nofollow (root ++ segments) = .ok p → p = top ++ segments) ∧
      (fs.locate nofollow (root ++ segments) = .error .enoent → fs.kindAt (top ++ segments) = none) := by
  obtain ⟨m, hm⟩ : ∃ m, fs.walk nofollow linkLimit [] (root ++ segments) = fs.walk nofollow m top segments :=
    walk_append htop linkLimit hroot
  unfold locate
  rw [hm]
  exact walk_ordinary m hord hlinks

end FileSystem

/-! ## Calls -/

/-- Which calls the operating system fails, and what the time is at each. -/
structure World where
  fault : Nat → Bool
  now : Nat → Int

/-- The file system and how many calls were made. -/
structure Disk where
  fs : FileSystem
  calls : Nat

inductive Failure
  | system (errno : Errno)
  | thrown (message : JsString)
  deriving DecidableEq

/-- An `async` function over the file system. -/
abbrev Fs := StateAction Failure Disk

/-- `throw new Error(message)`. -/
def fail {α : Type} (message : JsString) : Fs α := throw (.thrown message)

section Calls

variable (world : World)

def call {α : Type} (op : FileSystem → Int → Except Errno (α × FileSystem)) : Fs α := fun disk =>
  if world.fault disk.calls then (.error (.system .eio), { disk with calls := disk.calls + 1 })
  else
    match op disk.fs (world.now disk.calls) with
    | .error errno => (.error (.system errno), { disk with calls := disk.calls + 1 })
    | .ok (a, fs) => (.ok a, { fs, calls := disk.calls + 1 })

/-- The node a path leads to. -/
def FileSystem.lookup (fs : FileSystem) (nofollow : Bool) (path : Path) : Except Errno (Path × Node) :=
  match fs.locate nofollow path with
  | .error errno => .error errno
  | .ok p =>
    match fs.node p with
    | none => .error .enoent
    | some node => .ok (p, node)

/-- A new node at a path, refused when anything stands there. -/
def FileSystem.make (fs : FileSystem) (path : Path) (node : Node) : Except Errno (Path × FileSystem) :=
  match fs.locate true path with
  | .error errno => .error errno
  | .ok p =>
    if fs.node p ≠ none then .error .eexist
    else
      match fs.create p node with
      | none => .error .enoent
      | some fs => .ok (p, fs)

/-- A change of the attributes of the node a path leads to. -/
def FileSystem.change (fs : FileSystem) (path : Path) (f : Node → Node) (hf : ∀ node, (f node).kind = node.kind) :
    Except Errno (Unit × FileSystem) :=
  match fs.lookup false path with
  | .error errno => .error errno
  | .ok (p, _) => .ok ((), fs.alter p f hf)

/-- A stream that yields what comes next, or ends with an error. -/
def next : Fs Unit := call world fun fs _ => .ok ((), fs)

def lstat (path : Path) : Fs Kind := call world fun fs _ => (fs.lookup true path).map fun found => (found.2.kind, fs)

def stat (path : Path) : Fs Kind := call world fun fs _ => (fs.lookup false path).map fun found => (found.2.kind, fs)

/-- `mkdir(path, { recursive: false, mode })`. -/
def mkdir (path : Path) (mode : Nat) : Fs Unit :=
  call world fun fs now => (fs.make path ⟨.directory, [], mode, now⟩).map fun made => ((), made.2)

def symlink (target : JsString) (path : Path) : Fs Unit :=
  call world fun fs now =>
    if target = [] then .error .enoent else (fs.make path ⟨.symlink target, [], 0o777, now⟩).map fun made => ((), made.2)

/-- `open(path, "wx", mode)`: the handle of a new file. -/
def openNew (path : Path) (mode : Nat) : Fs Path := call world fun fs now => fs.make path ⟨.file, [], mode, now⟩

/-- `handle.write(bytes)`. -/
def write (handle : Path) (bytes : Utf8.Bytes) : Fs Unit :=
  call world fun fs now =>
    .ok ((), fs.alter handle (fun node => { node with content := node.content ++ bytes, mtime := now }) fun _ => rfl)

def chmod (path : Path) (mode : Nat) : Fs Unit :=
  call world fun fs _ => fs.change path (fun node => { node with mode }) fun _ => rfl

def utimes (path : Path) (mtime : Int) : Fs Unit :=
  call world fun fs _ => fs.change path (fun node => { node with mtime }) fun _ => rfl

/-- `writeFile(path, bytes, { flag: "wx", mode })`. -/
def writeFile (path : Path) (bytes : Utf8.Bytes) (mode : Nat) : Fs Unit := do
  let handle ← openNew world path mode
  write world handle bytes

/-- What `mkdir` does when a directory cannot be made: it may be there already. -/
def mkdirFailed (path : Path) (failure : Failure) : Fs Unit :=
  if failure = .system .enotdir ∨ failure = .system .enoent then throw failure
  else do if (← stat world path) = .directory then pure () else throw (.system .eexist)

/-- `mkdir(path, { recursive: true, mode })` for the path with the deepest name first. -/
def mkdirUp (mode : Nat) : List JsString → Fs Unit
  | [] => tryCatch (mkdir world [] mode) (mkdirFailed world [])
  | name :: up =>
    tryCatch (mkdir world (up.reverse ++ [name]) mode) fun failure =>
      if failure = .system .enoent then do
        mkdirUp mode up
        tryCatch (mkdir world (up.reverse ++ [name]) mode) (mkdirFailed world (up.reverse ++ [name]))
      else mkdirFailed world (up.reverse ++ [name]) failure

/-- `mkdir(path, { recursive: true, mode })`. -/
def mkdirRecursive (path : Path) (mode : Nat) : Fs Unit := mkdirUp world mode path.reverse

end Calls

end Leitwerk.SessionTransfer
