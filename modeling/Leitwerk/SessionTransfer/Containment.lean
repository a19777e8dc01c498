import Leitwerk.SessionTransfer.Extraction
/-!
# Extraction stays in its root

Whatever an archive holds and wherever the extraction stops, every node that is
new or changed stands at or below the directory the output root leads to. Each
call is made on a path below the root none of whose parents is a link, so that it
lands below that directory; nodes never change their kind, so a directory made
earlier is still one when its attributes are restored.
-/

namespace Leitwerk.SessionTransfer

open StateAction
open JsString (lit)
open PiResource (slash backslash dot dotDot Ordinary)

namespace FileSystem

/-- Since `before` only places at or below `top` changed, and since `g` the tree only grew. -/
structure Kept (before g : FileSystem) (top : Path) (fs : FileSystem) : Prop where
  grows : Grows g fs
  outside : ∀ p, ¬ top <+: p → fs.node p = before.node p

/-- The root leads to a directory. -/
structure Root (g : FileSystem) (root top : Path) : Prop where
  leads : g.locate true root = .ok top
  directory : g.kindAt top = some .directory

variable {before g fs fs' : FileSystem} {root top : Path}

theorem Kept.leads (h : Kept before g top fs) (hroot : Root g root top) : Root fs root top :=
  ⟨walk_grows h.grows linkLimit hroot.leads, h.grows _ _ hroot.directory⟩

/-- A change at one place below `top`. -/
theorem Kept.step (h : Kept before g top fs) {p : Path} (hgrows : Grows fs fs') (hother : ∀ q, q ≠ p → fs'.node q = fs.node q)
    (hp : top <+: p) : Kept before g top fs' := by
  refine ⟨h.grows.trans hgrows, fun q hq => ?_⟩
  have hne : q ≠ p := by
    rintro rfl
    exact hq hp
  rw [hother q hne, h.outside q hq]

theorem alter_grows (fs : FileSystem) (path : Path) (f : Node → Node) (hf : ∀ node, (f node).kind = node.kind) :
    Grows fs (fs.alter path f hf) := by
  intro q kind hq
  rwa [kindAt_alter]

theorem Kept.alter (h : Kept before g top fs) {p : Path} (f : Node → Node) (hf : ∀ node, (f node).kind = node.kind)
    (hp : top <+: p) : Kept before g top (fs.alter p f hf) :=
  h.step (alter_grows fs p f hf) (fun _ hq => alter_node fs f hf hq) hp

theorem NoLinks.alter {way : Path} (h : NoLinks fs top way) (p : Path) (f : Node → Node)
    (hf : ∀ node, (f node).kind = node.kind) : NoLinks (fs.alter p f hf) top way := by
  intro q hne hpre target
  rw [kindAt_alter]
  exact h q hne hpre target

theorem make_spec {path p : Path} {node : Node} (h : fs.make path node = .ok (p, fs')) :
    fs.locate true path = .ok p ∧ fs.create p node = some fs' := by
  unfold make at h
  split at h
  · cases h
  · rename_i hloc
    split at h
    · cases h
    · split at h
      · cases h
      · rename_i hcreate
        cases h
        exact ⟨hloc, hcreate⟩

/-- What is made at a path below the root stands at that place below `top`. -/
theorem Kept.make (h : Kept before g top fs) (hroot : Root g root top) {segments p : Path} {node : Node}
    (hord : ∀ s ∈ segments, Ordinary s) (hlinks : NoLinks fs top segments.dropLast)
    (hmake : fs.make (root ++ segments) node = .ok (p, fs')) :
    p = top ++ segments ∧ Kept before g top fs' ∧ fs'.kindAt (top ++ segments) = some node.kind ∧
      ∀ q, q ≠ top ++ segments → fs'.kindAt q = fs.kindAt q := by
  obtain ⟨hloc, hcreate⟩ := make_spec hmake
  have hr := h.leads hroot
  have hway : NoLinks fs top (way true segments) := hlinks
  obtain rfl := (locate_below hr.leads hr.directory hord hway).1 p hloc
  obtain ⟨-, hnew, hother⟩ := create_spec hcreate
  refine ⟨rfl, h.step (create_grows hcreate) hother ⟨segments, rfl⟩, by simp [kindAt, hnew], ?_⟩
  intro q hq
  rw [kindAt, kindAt, hother q hq]

/-- A node that is not a link puts none in the way. -/
theorem NoLinks.make {way : Path} (h : NoLinks fs top way) {p : Path} {kind : Kind} (hnew : fs'.kindAt p = some kind)
    (hkind : ∀ target, kind ≠ .symlink target) (hother : ∀ q, q ≠ p → fs'.kindAt q = fs.kindAt q) : NoLinks fs' top way := by
  intro q hne hpre target
  by_cases hq : top ++ q = p
  · rw [hq, hnew]
    simpa using hkind target
  · rw [hother _ hq]
    exact h q hne hpre target

theorem lookup_spec {nofollow : Bool} {path p : Path} {node : Node} (h : fs.lookup nofollow path = .ok (p, node)) :
    fs.locate nofollow path = .ok p ∧ fs.node p = some node := by
  unfold lookup at h
  split at h
  · cases h
  · rename_i hloc
    split at h
    · cases h
    · rename_i hnode
      cases h
      exact ⟨hloc, hnode⟩

theorem change_spec {path : Path} {f : Node → Node} {hf : ∀ node, (f node).kind = node.kind} {u : Unit}
    (h : fs.change path f hf = .ok (u, fs')) : ∃ p, fs.locate false path = .ok p ∧ fs' = fs.alter p f hf := by
  unfold change at h
  split at h
  · cases h
  · rename_i hlook
    cases h
    exact ⟨_, (lookup_spec hlook).1, rfl⟩

end FileSystem

open FileSystem

/-! ## Calls -/

theorem ok_of_map {ε α β : Type} {x : Except ε α} {f : α → β} {b : β} (h : x.map f = .ok b) : ∃ a, x = .ok a ∧ f a = b := by
  cases x with
  | error e => cases h
  | ok a => exact ⟨a, rfl, Except.ok.inj h⟩

/-- A condition on the file system of a disk. -/
abbrev On (P : FileSystem → Prop) : Disk → Prop := fun disk => P disk.fs

section Calls

variable {world : World} {before g : FileSystem} {root top : Path} {α : Type}

theorem call_triple {op : FileSystem → Int → Except Errno (α × FileSystem)} {P : FileSystem → Prop} {Q : α → FileSystem → Prop}
    {E : Failure → FileSystem → Prop} (hok : ∀ fs now a fs', P fs → op fs now = .ok (a, fs') → Q a fs')
    (hfail : ∀ fs errno, P fs → (errno = .eio ∨ ∃ now, op fs now = .error errno) → E (.system errno) fs) :
    Triple (On P) (call world op) (fun a => On (Q a)) (fun e => On (E e)) := by
  intro disk hP
  unfold call
  by_cases hfault : world.fault disk.calls = true
  · rw [if_pos hfault]
    exact hfail _ _ hP (.inl rfl)
  · rw [if_neg hfault]
    cases hop : op disk.fs (world.now disk.calls) with
    | error errno => exact hfail _ _ hP (.inr ⟨_, hop⟩)
    | ok made => exact hok _ _ _ _ hP hop

/-- A call that only changes what it may. -/
theorem call_keeps {op : FileSystem → Int → Except Errno (α × FileSystem)} {P : FileSystem → Prop}
    (hok : ∀ fs now a fs', P fs → op fs now = .ok (a, fs') → P fs') : Keeps (On P) (call world op) :=
  call_triple hok fun _ _ h _ => h

theorem next_keeps {P : FileSystem → Prop} : Keeps (On P) (next world) := by
  apply call_keeps
  intro fs now a fs' hP h
  cases h
  exact hP

theorem stat_keeps {P : FileSystem → Prop} (path : Path) : Keeps (On P) (stat world path) := by
  apply call_keeps
  intro fs now a fs' hP h
  obtain ⟨found, -, heq⟩ := ok_of_map h
  cases heq
  exact hP

theorem failIf_triple {c : Prop} [Decidable c] {message : JsString} {P : Disk → Prop} {E : Failure → Disk → Prop}
    (hfail : ∀ s, P s → c → E (.thrown message) s) : Triple P (failIf c message) (fun _ s => P s ∧ ¬ c) E := by
  intro s hP
  unfold failIf
  by_cases hc : c
  · rw [if_pos hc]
    exact hfail s hP hc
  · rw [if_neg hc]
    exact ⟨hP, hc⟩

theorem failIf_keeps {c : Prop} [Decidable c] {message : JsString} {I : Disk → Prop} : Keeps I (failIf c message) :=
  (failIf_triple fun _ h _ => h).conseq (fun _ h => h) (fun _ _ h => h.1) fun _ _ h => h

theorem mkdirFailed_keeps {P : FileSystem → Prop} (path : Path) (failure : Failure) :
    Keeps (On P) (mkdirFailed world path failure) := by
  apply Keeps.ite
  · exact Keeps.throw _
  · exact Keeps.bind (stat_keeps path) fun _ => Keeps.ite (Keeps.pure _) (Keeps.throw _)

theorem pathStep_ordinary {segment : JsString} (h : Ordinary segment) (current : Path) :
    pathStep current segment = current ++ [segment] := by
  unfold pathStep
  rw [if_neg (by simp [h.1, h.2.1]), if_neg h.2.2]

/-- What holds while an entry is extracted: only places below `top` changed, and no link stands on a way from there. -/
def Clear (before g : FileSystem) (top way : Path) (fs : FileSystem) : Prop := Kept before g top fs ∧ NoLinks fs top way

theorem kept_of_clear {x : Fs α} {way : Path} (h : Keeps (On (Clear before g top way)) x) :
    Triple (On (Clear before g top way)) x (fun _ => On (Clear before g top way)) fun _ => On (Kept before g top) :=
  h.conseq (fun _ h => h) (fun _ _ h => h) fun _ _ h => h.1

theorem relative_append (root segments : Path) : relative root (root ++ segments) = segments := by
  induction root with
  | nil => simp [relative]
  | cons r root ih => simpa [relative] using ih

theorem dropLast_target (root parents : Path) (segment : JsString) :
    (root ++ (parents ++ [segment])).dropLast = root ++ parents := by
  rw [← List.append_assoc, List.dropLast_concat]

section Below

variable (hroot : Root g root top)

include hroot

/-- `lstat` below the root, when no parent is a link. -/
theorem lstat_below {done : Path} {name : JsString} (hord : ∀ s ∈ done ++ [name], Ordinary s) :
    Triple (On (Clear before g top done)) (lstat world (root ++ (done ++ [name])))
      (fun kind => On fun fs => Clear before g top done fs ∧ fs.kindAt (top ++ (done ++ [name])) = some kind)
      fun failure => On fun fs => Clear before g top done fs ∧
        (failure = .system .enoent → fs.kindAt (top ++ (done ++ [name])) = none) := by
  have hbelow : ∀ fs, Clear before g top done fs →
      (∀ p, fs.locate true (root ++ (done ++ [name])) = .ok p → p = top ++ (done ++ [name])) ∧
      (fs.locate true (root ++ (done ++ [name])) = .error .enoent → fs.kindAt (top ++ (done ++ [name])) = none) := by
    rintro fs ⟨hkept, hlinks⟩
    have hr := hkept.leads hroot
    have hway : NoLinks fs top (way true (done ++ [name])) := by simpa [way] using hlinks
    exact locate_below hr.leads hr.directory hord hway
  apply call_triple
  · intro fs now kind fs' hclear hop
    obtain ⟨⟨p, node⟩, hlook, heq⟩ := ok_of_map hop
    obtain ⟨hloc, hnode⟩ := lookup_spec hlook
    obtain rfl := (hbelow fs hclear).1 p hloc
    cases heq
    exact ⟨hclear, by simp [kindAt, hnode]⟩
  · intro fs errno hclear herr
    refine ⟨hclear, fun hno => ?_⟩
    cases hno
    rcases herr with herr | ⟨now, herr⟩
    · cases herr
    · unfold FileSystem.lookup at herr
      cases hloc : fs.locate true (root ++ (done ++ [name])) with
      | error e =>
        rw [hloc] at herr
        cases herr
        exact (hbelow fs hclear).2 hloc
      | ok p =>
        obtain rfl := (hbelow fs hclear).1 p hloc
        cases hnode : fs.node (top ++ (done ++ [name])) with
        | none => exact kindAt_eq_none.2 hnode
        | some node =>
          rw [hloc] at herr
          simp [hnode, Except.map] at herr

/-- `mkdir` below the root. -/
theorem mkdir_below {parents : Path} {name : JsString} {mode : Nat} (hord : ∀ s ∈ parents ++ [name], Ordinary s) :
    Triple (On (Clear before g top parents)) (mkdir world (root ++ (parents ++ [name])) mode)
      (fun _ => On fun fs => Kept before g top fs ∧ fs.kindAt (top ++ (parents ++ [name])) = some .directory)
      fun _ => On (Kept before g top) := by
  apply call_triple _ fun _ _ h _ => h.1
  rintro fs now ⟨⟩ fs' ⟨hkept, hlinks⟩ hop
  obtain ⟨⟨p, made⟩, hmake, heq⟩ := ok_of_map hop
  cases heq
  obtain ⟨-, hkept', hnew, -⟩ := hkept.make hroot hord (by simpa using hlinks) hmake
  exact ⟨hkept', hnew⟩

/-- On a longer way too, a new directory is no link. -/
theorem mkdir_on_way {segments whole : Path} {mode : Nat} (hord : ∀ s ∈ segments, Ordinary s) (hpre : segments <+: whole) :
    Keeps (On (Clear before g top whole)) (mkdir world (root ++ segments) mode) := by
  apply call_keeps
  rintro fs now ⟨⟩ fs' ⟨hkept, hlinks⟩ hop
  obtain ⟨⟨p, made⟩, hmake, heq⟩ := ok_of_map hop
  cases heq
  obtain ⟨-, hkept', hnew, hother⟩ := hkept.make hroot hord (hlinks.mono ((List.dropLast_prefix _).trans hpre)) hmake
  exact ⟨hkept', hlinks.make hnew (by simp) hother⟩

/-- The root is there, so that making it never looks for its parents. -/
theorem mkdir_root {whole : Path} {mode : Nat} :
    Triple (On (Clear before g top whole)) (mkdir world root mode) (fun _ => On (Clear before g top whole))
      fun failure => On fun fs => Clear before g top whole fs ∧ failure ≠ .system .enoent := by
  have hthere : ∀ fs, Clear before g top whole fs → ∀ node, fs.make root node = .error .eexist := by
    rintro fs ⟨hkept, -⟩ node
    have hr := hkept.leads hroot
    have hne : fs.node top ≠ none := by
      intro hnone
      have hdir := hr.directory
      simp [kindAt, hnone] at hdir
    unfold FileSystem.make
    rw [hr.leads]
    simp [hne]
  apply call_triple
  · intro fs now a fs' hclear hop
    rw [hthere fs hclear] at hop
    cases hop
  · intro fs errno hclear herr
    refine ⟨hclear, ?_⟩
    rcases herr with rfl | ⟨now, herr⟩
    · simp
    · rw [hthere fs hclear] at herr
      cases herr
      simp

theorem openNew_below {segments : Path} {name : JsString} {mode : Nat} (hord : ∀ s ∈ segments ++ [name], Ordinary s) :
    Triple (On (Clear before g top segments)) (openNew world (root ++ (segments ++ [name])) mode)
      (fun handle => On fun fs => Clear before g top (segments ++ [name]) fs ∧ handle = top ++ (segments ++ [name]))
      fun _ => On (Kept before g top) := by
  apply call_triple _ fun _ _ h _ => h.1
  rintro fs now handle fs' ⟨hkept, hlinks⟩ hmake
  obtain ⟨hhandle, hkept', hnew, hother⟩ := hkept.make hroot hord (by simpa using hlinks) hmake
  exact ⟨⟨hkept', (hlinks.make hnew (by simp) hother).concat (by simp [hnew])⟩, hhandle⟩

theorem symlink_below {parents : Path} {name target : JsString} (hord : ∀ s ∈ parents ++ [name], Ordinary s) :
    Triple (On (Clear before g top parents)) (symlink world target (root ++ (parents ++ [name])))
      (fun _ => On (Kept before g top)) fun _ => On (Kept before g top) := by
  apply call_triple _ fun _ _ h _ => h.1
  rintro fs now ⟨⟩ fs' ⟨hkept, hlinks⟩ hop
  split at hop
  · cases hop
  · obtain ⟨⟨p, made⟩, hmake, heq⟩ := ok_of_map hop
    cases heq
    exact (hkept.make hroot hord (by simpa using hlinks) hmake).2.1

/-- A change of attributes below the root, where no link stands on the way. -/
theorem change_below {segments : Path} (hord : ∀ s ∈ segments, Ordinary s) {f : Node → Node}
    {hf : ∀ node, (f node).kind = node.kind} {fs fs' : FileSystem} {u : Unit} (hclear : Clear before g top segments fs)
    (h : fs.change (root ++ segments) f hf = .ok (u, fs')) : Clear before g top segments fs' ∧ Grows fs fs' := by
  obtain ⟨hkept, hlinks⟩ := hclear
  obtain ⟨p, hloc, rfl⟩ := change_spec h
  have hr := hkept.leads hroot
  have hway : NoLinks fs top (way false segments) := hlinks
  obtain rfl := (locate_below hr.leads hr.directory hord hway).1 p hloc
  exact ⟨⟨hkept.alter f hf ⟨segments, rfl⟩, hlinks.alter _ f hf⟩, alter_grows fs _ f hf⟩

theorem chmod_below {segments : Path} {mode : Nat} (hord : ∀ s ∈ segments, Ordinary s) :
    Keeps (On (Clear before g top segments)) (chmod world (root ++ segments) mode) :=
  call_keeps fun _ _ _ _ hclear h => (change_below hroot hord hclear h).1

theorem utimes_below {segments : Path} {mtime : Int} (hord : ∀ s ∈ segments, Ordinary s) :
    Keeps (On (Clear before g top segments)) (utimes world (root ++ segments) mtime) :=
  call_keeps fun _ _ _ _ hclear h => (change_below hroot hord hclear h).1

/-- Making the directories on the way to a path makes nothing above the root. -/
theorem mkdirRecursive_below {segments : Path} {mode : Nat} (hord : ∀ s ∈ segments, Ordinary s) :
    Keeps (On (Clear before g top segments)) (mkdirRecursive world (root ++ segments) mode) := by
  have hways : ∀ way, way <+: segments → Keeps (On (Clear before g top segments)) (mkdirUp world mode (root ++ way).reverse) := by
    intro way
    induction way using List.reverseRecOn with
    | nil =>
      intro _
      rw [List.append_nil]
      -- the root is a directory: `mkdir` fails there, and not for want of a parent
      rcases root.eq_nil_or_concat with hnil | ⟨up, name, hup⟩
      · rw [hnil] at hroot ⊢
        exact Keeps.tryCatch ((mkdir_root hroot).conseq (fun _ h => h) (fun _ _ h => h) fun _ _ h => h.1)
          fun failure => mkdirFailed_keeps [] failure
      · have hrev : root.reverse = name :: up.reverse := by simp [hup]
        have hpath : up.reverse.reverse ++ [name] = root := by simp [hup]
        rw [hrev, mkdirUp, hpath]
        apply Triple.tryCatch (mkdir_root hroot)
        intro failure
        by_cases hno : failure = .system .enoent
        · exact fun _ h => absurd hno h.2
        · rw [if_neg hno]
          exact (mkdirFailed_keeps root failure).conseq (fun _ h => h.1) (fun _ _ h => h) fun _ _ h => h
    | append_singleton way name ih =>
      intro hpre
      have hway : way <+: segments := (List.prefix_append _ _).trans hpre
      have hordWay : ∀ s ∈ way ++ [name], Ordinary s := fun s hs => hord s (hpre.subset hs)
      have hrev : (root ++ (way ++ [name])).reverse = name :: (root ++ way).reverse := by simp
      have hpath : (root ++ way).reverse.reverse ++ [name] = root ++ (way ++ [name]) := by simp
      rw [hrev, mkdirUp, hpath]
      have hmake : Keeps (On (Clear before g top segments)) (mkdir world (root ++ (way ++ [name])) mode) :=
        mkdir_on_way hroot hordWay hpre
      apply Keeps.tryCatch hmake
      intro failure
      apply Keeps.ite
      · exact Keeps.bind (ih hway) fun _ => Keeps.tryCatch hmake fun failure => mkdirFailed_keeps _ failure
      · exact mkdirFailed_keeps _ failure
  exact hways segments (List.prefix_refl _)

/-- When no parent was found to be a link, none is. -/
theorem assertNoSymlinks_below (rest done : Path) (hord : ∀ s ∈ done ++ rest, Ordinary s) :
    Triple (On (Clear before g top done)) (assertNoSymlinks world (root ++ done) rest)
      (fun _ => On (Clear before g top (done ++ rest))) fun _ => On (Kept before g top) := by
  induction rest generalizing done with
  | nil =>
    rw [List.append_nil]
    exact Triple.pure fun _ h => h
  | cons segment rest ih =>
    have hord' : ∀ s ∈ (done ++ [segment]) ++ rest, Ordinary s := by simpa using hord
    have hsegment : ∀ s ∈ done ++ [segment], Ordinary s := fun s hs => hord' s (List.mem_append_left _ hs)
    have hstep : pathStep (root ++ done) segment = root ++ (done ++ [segment]) := by
      rw [pathStep_ordinary (hord segment (by simp)), List.append_assoc]
    rw [assertNoSymlinks, hstep, show done ++ segment :: rest = (done ++ [segment]) ++ rest by simp]
    refine Triple.bind (Q := fun _ => On (Clear before g top (done ++ [segment]))) ?_ fun _ => ih _ hord'
    refine Triple.tryCatch (E := fun failure => On fun fs => Clear before g top done fs ∧
      (failure = .system .enoent → fs.kindAt (top ++ (done ++ [segment])) = none)) ?_ fun failure => ?_
    · refine Triple.bind (lstat_below hroot hsegment) fun kind => ?_
      refine (failIf_triple ?_).conseq (fun _ h => h) ?_ fun _ _ h => h
      · exact fun _ h _ => ⟨h.1, by simp⟩
      · rintro _ disk ⟨⟨⟨hkept, hlinks⟩, hkind⟩, hnot⟩
        refine ⟨hkept, hlinks.concat fun target htarget => hnot ?_⟩
        rw [hkind, Option.some.injEq] at htarget
        rw [htarget]
    · by_cases hno : failure = .system .enoent
      · rw [if_pos hno]
        refine Triple.pure ?_
        rintro disk ⟨⟨hkept, hlinks⟩, hnone⟩
        exact ⟨hkept, hlinks.concat (by simp [hnone hno])⟩
      · rw [if_neg hno]
        exact Triple.throw fun _ h => h.1.1

theorem assertNoSymlinkParents_below {parents : Path} {segment : JsString} (hord : ∀ s ∈ parents ++ [segment], Ordinary s) :
    Triple (On (Kept before g top)) (assertNoSymlinkParents world root (root ++ (parents ++ [segment])))
      (fun _ => On (Clear before g top parents)) fun _ => On (Kept before g top) := by
  have hbelow : Triple (On (Clear before g top [])) (assertNoSymlinks world (root ++ []) parents) _ _ :=
    assertNoSymlinks_below hroot parents [] fun s hs => hord s (List.mem_append_left _ hs)
  unfold assertNoSymlinkParents
  rw [dropLast_target, relative_append]
  rw [List.append_nil] at hbelow
  exact hbelow.conseq (fun _ h => ⟨h, NoLinks.nil⟩) (fun _ _ h => h) fun _ _ h => h

end Below

/-! ## Entries -/

theorem streamBuffer_keeps {P : FileSystem → Prop} (limit : Nat) (label : JsString) (chunks : List Utf8.Bytes) (buffer : Utf8.Bytes) :
    Keeps (On P) (streamBuffer world limit label buffer chunks) := by
  induction chunks generalizing buffer with
  | nil => exact Keeps.bind next_keeps fun _ => Keeps.pure _
  | cons chunk chunks ih => exact Keeps.bind next_keeps fun _ => Keeps.bind failIf_keeps fun _ => ih _

theorem write_keeps {way : Path} {handle : Path} (hhandle : top <+: handle) (bytes : Utf8.Bytes) :
    Keeps (On (Clear before g top way)) (write world handle bytes) := by
  apply call_keeps
  rintro fs now ⟨⟩ fs' ⟨hkept, hlinks⟩ h
  cases h
  exact ⟨hkept.alter _ _ hhandle, hlinks.alter _ _ _⟩

theorem writeChunks_keeps {way : Path} {handle : Path} (hhandle : top <+: handle) (limits : Limits) (chunks : List Utf8.Bytes)
    (actualSize logicalBytes : Nat) :
    Keeps (On (Clear before g top way)) (writeChunks world limits handle actualSize logicalBytes chunks) := by
  induction chunks generalizing actualSize logicalBytes with
  | nil => exact Keeps.bind next_keeps fun _ => Keeps.pure _
  | cons chunk chunks ih =>
    exact Keeps.bind next_keeps fun _ => Keeps.bind failIf_keeps fun _ => Keeps.bind (write_keeps hhandle chunk) fun _ => ih _ _

section Entries

variable {M : Type} {parseManifest : Utf8.Bytes → Except JsString M} (hroot : Root g root top)

/-- A directory of the archive, where it was made. -/
def Known (root top : Path) (fs : FileSystem) (directory : DirectoryMetadata) : Prop :=
  ∃ segments, (∀ s ∈ segments, Ordinary s) ∧ directory.target = root ++ segments ∧ fs.kindAt (top ++ segments) = some .directory

theorem Known.grows {fs fs' : FileSystem} {directory : DirectoryMetadata} (h : Known root top fs directory) (hgrows : Grows fs fs') :
    Known root top fs' directory := by
  obtain ⟨segments, hord, htarget, hkind⟩ := h
  exact ⟨segments, hord, htarget, hgrows _ _ hkind⟩

/-- An entry adds at most a directory that it made. -/
def Extended (root top : Path) (fs : FileSystem) (progress progress' : Progress M) : Prop :=
  ∀ directory ∈ progress'.directoryMetadata, directory ∈ progress.directoryMetadata ∨ Known root top fs directory

theorem extended_of_eq {fs : FileSystem} {progress progress' : Progress M}
    (h : progress'.directoryMetadata = progress.directoryMetadata) : Extended root top fs progress progress' := by
  intro directory hmem
  rw [h] at hmem
  exact .inl hmem

variable {progress : Progress M} {entry : Entry} {name : JsString} {limits : Limits} {mode : Nat} {mtime : Int}

include hroot

theorem extractDirectory_below {parents : Path} {segment : JsString} (hord : ∀ s ∈ parents ++ [segment], Ordinary s) :
    Triple (On (Clear before g top parents))
      (extractDirectory world progress entry name (root ++ (parents ++ [segment])) mode mtime)
      (fun progress' => On fun fs => Kept before g top fs ∧ Extended root top fs progress progress')
      fun _ => On (Kept before g top) := by
  apply Triple.bind (kept_of_clear failIf_keeps)
  intro _
  apply Triple.bind (kept_of_clear next_keeps)
  intro _
  apply Triple.bind (mkdir_below hroot hord)
  intro _
  apply Triple.pure
  rintro disk ⟨hk, hkind⟩
  refine ⟨hk, fun directory hmem => ?_⟩
  rcases List.mem_append.1 hmem with hmem | hmem
  · exact .inl hmem
  · rw [List.mem_singleton.1 hmem]
    exact .inr ⟨_, hord, rfl, hkind⟩

theorem extractSymlink_below {parents : Path} {segment : JsString} (hord : ∀ s ∈ parents ++ [segment], Ordinary s) :
    Triple (On (Clear before g top parents)) (extractSymlink world progress entry name (root ++ (parents ++ [segment])))
      (fun progress' => On fun fs => Kept before g top fs ∧ Extended root top fs progress progress')
      fun _ => On (Kept before g top) := by
  unfold extractSymlink
  rw [dropLast_target]
  apply Triple.bind (kept_of_clear failIf_keeps)
  intro _
  apply Triple.bind (kept_of_clear next_keeps)
  intro _
  apply Triple.bind (kept_of_clear failIf_keeps)
  intro _
  apply Triple.bind (kept_of_clear failIf_keeps)
  intro _
  apply Triple.bind (kept_of_clear (mkdirRecursive_below hroot fun s hs => hord s (List.mem_append_left _ hs)))
  intro _
  apply Triple.bind (symlink_below hroot hord)
  intro _
  exact Triple.pure fun _ h => ⟨h, extended_of_eq rfl⟩

/-- The two kinds of files, once their directory is there. -/
theorem extractFile_below {segments : Path} {segment : JsString} (hord : ∀ s ∈ segments ++ [segment], Ordinary s) :
    Triple (On (Clear before g top segments))
      (extractFile world parseManifest limits progress entry name (root ++ (segments ++ [segment])) mode mtime)
      (fun progress' => On fun fs => Kept before g top fs ∧ Extended root top fs progress progress')
      fun _ => On (Kept before g top) := by
  have hbelow : top <+: top ++ (segments ++ [segment]) := ⟨_, rfl⟩
  unfold extractFile
  rw [dropLast_target]
  apply Triple.bind (kept_of_clear failIf_keeps)
  intro _
  apply Triple.bind (kept_of_clear (mkdirRecursive_below hroot fun s hs => hord s (List.mem_append_left _ hs)))
  intro _
  split
  · apply Triple.bind (kept_of_clear (streamBuffer_keeps _ _ _ _))
    intro content
    refine Triple.bind (Q := fun _ => On (Kept before g top)) ?_ fun _ => ?_
    · refine Triple.bind (openNew_below hroot hord) fun handle => ?_
      rintro disk ⟨hclear, rfl⟩
      exact (kept_of_clear (write_keeps hbelow content)).conseq (fun _ h => h) (fun _ _ h => h.1) (fun _ _ h => h) disk hclear
    · split
      · exact Triple.throw fun _ h => h
      · exact Triple.pure fun _ h => ⟨h, extended_of_eq rfl⟩
  · refine Triple.bind (openNew_below hroot hord) fun handle => ?_
    refine Triple.bind (Q := fun _ => On (Clear before g top (segments ++ [segment]))) ?_ fun sizes => ?_
    · rintro disk ⟨hclear, rfl⟩
      exact kept_of_clear (writeChunks_keeps hbelow limits entry.chunks 0 progress.logicalBytesProcessed) disk hclear
    · apply Triple.bind (kept_of_clear failIf_keeps)
      intro _
      apply Triple.bind (kept_of_clear (chmod_below hroot hord))
      intro _
      apply Triple.bind (kept_of_clear (utimes_below hroot hord))
      intro _
      exact Triple.pure fun _ h => ⟨h.1, extended_of_eq rfl⟩

end Entries

/-! ## Names -/

/-- A name that `assertSafeRelativePath` lets through. -/
def Safe (name : JsString) : Prop :=
  ∃ value, name = PiResource.normalize value ∧ PiResource.normalize value ≠ dotDot ∧
    ¬ dotDot ++ [slash] <+: PiResource.normalize value ∧ PiResource.normalize value ≠ dot

theorem assertSafeRelativePath_spec {P : Disk → Prop} (value label : JsString) :
    Triple P (assertSafeRelativePath value label) (fun name s => P s ∧ Safe name) fun _ => P := by
  refine Triple.bind (failIf_triple fun _ h _ => h) fun _ => ?_
  refine Triple.bind (failIf_triple fun _ h _ => h.1) fun _ => ?_
  refine Triple.pure fun s h => ⟨h.1.1, _, rfl, ?_⟩
  have hsafe := h.2
  push Not at hsafe
  exact hsafe

theorem resolvePath_ordinary (root : Path) {segments : List JsString} (hord : ∀ s ∈ segments, Ordinary s) :
    resolvePath root segments = root ++ segments := by
  unfold resolvePath
  induction segments generalizing root with
  | nil => simp
  | cons segment rest ih =>
    rw [List.foldl_cons, pathStep_ordinary (hord segment List.mem_cons_self), ih _ fun s hs => hord s (List.mem_cons_of_mem _ hs)]
    simp

/-- A safe name leads below any root it is resolved from. -/
theorem Safe.segments {name : JsString} (h : Safe name) :
    ∃ segments, (∀ s ∈ segments, Ordinary s) ∧ (∀ root, resolvePath root (Lines.split slash name) = root ++ segments) ∧
      (segments = [] → name = dot ++ [slash]) := by
  obtain ⟨value, rfl, hup, hup', hdot⟩ := h
  have hsegs := PiResource.ordinary_of_normalize hup hup'
  refine ⟨PiResource.segments value, fun s hs => (hsegs s hs).1, fun root => ?_, fun hnil => ?_⟩
  · unfold PiResource.normalize at hdot ⊢
    by_cases hnil : PiResource.segments value = []
    · rw [if_pos hnil] at hdot ⊢
      split
      · rw [hnil]
        have hsplit : Lines.split slash (dot ++ [slash]) = [dot, []] := by decide
        rw [hsplit]
        simp [resolvePath, pathStep]
      · rename_i hend
        rw [if_neg hend] at hdot
        exact absurd rfl hdot
    · rw [if_neg hnil]
      have hjoin : Lines.split slash (Lines.join slash (PiResource.segments value)) = PiResource.segments value :=
        Lines.split_join slash hnil fun s hs => Lines.notMem_of_split slash (hsegs s hs).2
      have hord := resolvePath_ordinary root fun s hs => (hsegs s hs).1
      split
      · rw [Lines.split_append_nl, hjoin]
        unfold resolvePath at hord ⊢
        rw [List.foldl_append, hord]
        simp [Lines.split, pathStep]
      · rw [List.append_nil, hjoin, hord]
  · unfold PiResource.normalize at hdot ⊢
    rw [if_pos hnil] at hdot ⊢
    split
    · rfl
    · rename_i hend
      rw [if_neg hend] at hdot
      exact absurd rfl hdot

section Run

variable {M : Type} {parseManifest : Utf8.Bytes → Except JsString M}

theorem extractEntry_below (hroot : Root g root top) (limits : Limits) (progress : Progress M) (entry : Entry) :
    Triple (On (Kept before g top)) (extractEntry world parseManifest limits root progress entry)
      (fun progress' => On fun fs => Kept before g top fs ∧ Extended root top fs progress progress')
      fun _ => On (Kept before g top) := by
  refine Triple.bind next_keeps fun _ => ?_
  refine Triple.bind (assertSafeRelativePath_spec _ _) fun name => ?_
  refine Triple.bind (failIf_triple fun _ h _ => h.1) fun _ => ?_
  refine Triple.bind (failIf_triple fun _ h _ => h.1.1) fun _ => ?_
  refine Triple.bind (failIf_triple fun _ h _ => h.1.1.1) fun _ => ?_
  refine Triple.bind (failIf_triple fun _ h _ => h.1.1.1.1) fun _ => ?_
  rintro disk ⟨⟨⟨⟨⟨hkept, hsafe⟩, -⟩, -⟩, -⟩, hname⟩
  obtain ⟨segments, hord, htarget, hnil⟩ := hsafe.segments
  have hne : segments ≠ [] := by
    intro h
    rw [hnil h] at hname
    exact hname (by decide)
  obtain ⟨parents, segment, rfl⟩ : ∃ parents segment, segments = parents ++ [segment] :=
    ⟨_, _, (List.dropLast_concat_getLast hne).symm⟩
  rw [htarget root]
  -- what is known of the name is used up: the rest starts from the file system alone
  suffices hrest : Triple (On (Kept before g top)) _ _ _ from hrest disk hkept
  refine Triple.bind (failIf_triple fun _ h _ => h) fun _ => ?_
  refine Triple.bind ((assertNoSymlinkParents_below hroot hord).conseq (fun _ h => h.1) (fun _ _ h => h) fun _ _ h => h) fun _ => ?_
  dsimp only
  split
  · exact extractDirectory_below hroot hord
  · exact extractSymlink_below hroot hord
  · exact Triple.bind (kept_of_clear next_keeps) fun _ => Triple.throw fun _ h => h.1
  · exact extractFile_below hroot hord
  · exact extractFile_below hroot hord

/-- The directories so far are where they were made. -/
def Tracked (before g : FileSystem) (root top : Path) (directories : List DirectoryMetadata) (fs : FileSystem) : Prop :=
  Kept before g top fs ∧ ∀ directory ∈ directories, Known root top fs directory

theorem extractEntry_tracked (hroot : Root g root top) (limits : Limits) (progress : Progress M) (entry : Entry) :
    Triple (On (Tracked before g root top progress.directoryMetadata)) (extractEntry world parseManifest limits root progress entry)
      (fun progress' => On (Tracked before g root top progress'.directoryMetadata)) fun _ => On (Kept before g top) := by
  rintro disk ⟨hkept, hknown⟩
  -- the file system before the entry is what it grows from
  have hself : Kept before disk.fs top disk.fs := ⟨Grows.refl _, hkept.outside⟩
  have hweaken : ∀ fs, Kept before disk.fs top fs → Kept before g top fs :=
    fun fs h => ⟨hkept.grows.trans h.grows, h.outside⟩
  refine (extractEntry_below (hkept.leads hroot) limits progress entry).conseq (fun _ h => h) ?_
    (fun _ _ h => hweaken _ h) disk hself
  rintro progress' disk' ⟨hkept', hext⟩
  refine ⟨hweaken _ hkept', fun directory hmem => ?_⟩
  rcases hext directory hmem with hmem | hnew
  · exact (hknown directory hmem).grows hkept'.grows
  · exact hnew

theorem Known.noLinks {fs : FileSystem} {segments : Path} (h : fs.kindAt (top ++ segments) = some .directory) :
    NoLinks fs top segments := by
  rintro q - ⟨rest, rfl⟩ target hlink
  rw [← List.append_assoc] at h
  have hdir : fs.kindAt (top ++ q) = some .directory := by
    rcases eq_or_ne rest [] with rfl | hne
    · simpa using h
    · exact fs.kindAt_above hne (by rw [h]; simp)
  simp [hdir] at hlink

/-- Restoring the attributes of a directory below the root. -/
theorem change_tracked (hroot : Root g root top) {directories : List DirectoryMetadata} {directory : DirectoryMetadata}
    (hmem : directory ∈ directories) {f : Node → Node} {hf : ∀ node, (f node).kind = node.kind} {fs fs' : FileSystem} {u : Unit}
    (h : Tracked before g root top directories fs) (hchange : fs.change directory.target f hf = .ok (u, fs')) :
    Tracked before g root top directories fs' := by
  obtain ⟨hkept, hknown⟩ := h
  obtain ⟨segments, hord, htarget, hkind⟩ := hknown directory hmem
  rw [htarget] at hchange
  obtain ⟨⟨hkept', -⟩, hgrows⟩ := change_below hroot hord ⟨hkept, Known.noLinks hkind⟩ hchange
  exact ⟨hkept', fun d hd => (hknown d hd).grows hgrows⟩

theorem restoreDirectories_keeps (hroot : Root g root top) {directories : List DirectoryMetadata} (rest : List DirectoryMetadata)
    (hsub : rest ⊆ directories) : Keeps (On (Tracked before g root top directories)) (restoreDirectories world rest) := by
  induction rest with
  | nil => exact Keeps.pure _
  | cons directory rest ih =>
    have hmem := hsub List.mem_cons_self
    apply Keeps.bind
    · exact call_keeps fun _ _ _ _ h hchange => change_tracked hroot hmem h hchange
    intro _
    apply Keeps.bind
    · exact call_keeps fun _ _ _ _ h hchange => change_tracked hroot hmem h hchange
    · exact fun _ => ih fun d hd => hsub (List.mem_cons_of_mem _ hd)

theorem writeMarker_below (hroot : Root g root top) (name value : JsString) :
    Keeps (On (Kept before g top)) (writeMarker world root name value) := by
  refine Triple.bind (assertSafeRelativePath_spec _ _) fun markerName => ?_
  refine Triple.bind (failIf_triple fun _ h _ => h.1) fun _ => ?_
  rintro disk ⟨⟨hkept, hsafe⟩, hslash⟩
  obtain ⟨segments, hord, htarget, hnil⟩ := hsafe.segments
  have hsplit : Lines.split slash markerName = [markerName] := Lines.split_of_notMem slash hslash
  have hpath : pathStep root markerName = root ++ segments := by
    rw [← htarget root, hsplit]
    rfl
  have hsegments : segments = [] ++ [markerName] := by
    have hself : pathStep [] markerName = segments := by
      have htop := htarget []
      rwa [hsplit] at htop
    have hne : segments ≠ [] := by
      intro h
      exact hslash (by rw [hnil h]; simp)
    unfold pathStep at hself
    split at hself
    · exact absurd hself.symm hne
    · split at hself
      · exact absurd hself.symm hne
      · exact hself.symm
  rw [hpath]
  rw [hsegments] at hord ⊢
  suffices hwrite : Triple (On (Clear before g top [])) _ _ _ from hwrite disk ⟨hkept, NoLinks.nil⟩
  refine Triple.bind (openNew_below hroot hord) fun handle => ?_
  rintro disk' ⟨hclear, rfl⟩
  exact (kept_of_clear (write_keeps ⟨_, rfl⟩ _)).conseq (fun _ h => h) (fun _ _ h => h.1) (fun _ _ h => h) disk' hclear

theorem extractInto_below {input : ExtractInput} (hroot : Root g input.outputRoot top) :
    Triple (On (Kept before g top)) (extractInto world parseManifest input) (fun _ => On (Kept before g top))
      fun _ => On (Kept before g top) := by
  refine Triple.bind (Q := fun _ => On (Kept before g top)) ?_ fun _ => ?_
  · unfold writeOwnershipMarker
    split
    · exact writeMarker_below hroot _ _
    · exact Keeps.pure _
  have hloop : Triple (On (Tracked before g input.outputRoot top (Progress.start : Progress M).directoryMetadata))
      (input.entries.foldlM (extractEntry world parseManifest input.limits input.outputRoot) Progress.start)
      (fun progress => On (Tracked before g input.outputRoot top progress.directoryMetadata)) fun _ => On (Kept before g top) :=
    Triple.foldlM (Q := fun progress : Progress M => On (Tracked before g input.outputRoot top progress.directoryMetadata)) input.entries
      (fun progress entry _ => extractEntry_tracked hroot input.limits progress entry) Progress.start
  refine Triple.bind (hloop.conseq (fun _ h => ⟨h, by simp [Progress.start]⟩) (fun _ _ h => h) fun _ _ h => h) fun progress => ?_
  have hkept : ∀ {α : Type} {x : Fs α}, Keeps (On (Tracked before g input.outputRoot top progress.directoryMetadata)) x →
      Triple (On (Tracked before g input.outputRoot top progress.directoryMetadata)) x
        (fun _ => On (Tracked before g input.outputRoot top progress.directoryMetadata)) fun _ => On (Kept before g top) :=
    fun h => h.conseq (fun _ h => h) (fun _ _ h => h) fun _ _ h => h.1
  apply Triple.bind (hkept next_keeps)
  intro _
  refine Triple.bind (hkept ?_) fun _ => ?_
  · unfold checkSymlinks
    split
    · exact Keeps.throw _
    · exact Keeps.pure _
  apply Triple.bind (hkept (restoreDirectories_keeps hroot _ fun d hd => List.mem_reverse.1 hd))
  intro _
  split
  · exact Triple.throw fun _ h => h.1
  · exact Triple.bind (hkept failIf_keeps) fun _ => Triple.pure fun _ h => h.1

/-- Every node that is new or changed stands at or below where `root` leads. -/
def StaysBelow (before : FileSystem) (root : Path) (after : FileSystem) : Prop :=
  ∀ p, after.node p ≠ before.node p → ∃ top, after.locate true root = .ok top ∧ top <+: p

theorem staysBelow_refl (before : FileSystem) (root : Path) : StaysBelow before root before := fun _ h => absurd rfl h

theorem staysBelow_of_kept {fs : FileSystem} (h : Kept before g top fs) (hroot : Root g root top) : StaysBelow before root fs := by
  intro p hp
  refine ⟨top, (h.leads hroot).leads, ?_⟩
  by_contra hout
  exact hp (h.outside p hout)

/-- Making the root: it is new, and a directory. -/
theorem mkdir_outputRoot (before : FileSystem) (root : Path) (mode : Nat) :
    Triple (On (· = before)) (mkdir world root mode) (fun _ => On fun g => ∃ top, Root g root top ∧ Kept before g top g)
      fun _ => On (· = before) := by
  apply call_triple _ fun _ _ h _ => h
  rintro _ now ⟨⟩ fs' rfl hop
  obtain ⟨⟨top, made⟩, hmake, heq⟩ := ok_of_map hop
  cases heq
  obtain ⟨hloc, hcreate⟩ := make_spec hmake
  obtain ⟨-, hnew, hother⟩ := create_spec hcreate
  refine ⟨top, ⟨walk_grows (create_grows hcreate) linkLimit hloc, by simp [kindAt, hnew]⟩, Grows.refl _, fun p hp => hother p ?_⟩
  rintro rfl
  exact hp (List.prefix_refl _)

theorem extractTransferArchive_staysBelow (input : ExtractInput) (before : FileSystem) :
    Triple (On (· = before)) (extractTransferArchive world parseManifest input)
      (fun _ => On (StaysBelow before input.outputRoot)) fun _ => On (StaysBelow before input.outputRoot) := by
  refine Triple.bind ((mkdir_outputRoot before input.outputRoot 0o700).conseq (fun _ h => h) (fun _ _ h => h) ?_) fun _ => ?_
  · rintro _ disk rfl
    exact staysBelow_refl _ _
  · rintro disk ⟨top, hroot, hkept⟩
    exact (extractInto_below hroot).conseq (fun _ h => h) (fun _ _ h => staysBelow_of_kept h hroot)
      (fun _ _ h => staysBelow_of_kept h hroot) disk hkept

end Run

end Calls

/-- Two links that chain, the later one through a parent of the earlier one's target. -/
def chained : LinkMap := ⟨[(lit "alias", lit "sub/directory"), (lit "sub/link", lit "../alias/../missing")], by decide⟩

def chainedBackwards : LinkMap := ⟨[(lit "sub/link", lit "../alias/../missing"), (lit "alias", lit "sub/directory")], by decide⟩

/-- A file system with nothing in it. -/
def bare : FileSystem where
  node path := if path = [] then some ⟨.directory, [], 0o755, 0⟩ else none
  root := rfl
  rooted path name h := absurd (if_neg (by simp)) h

/-- A parent is taken of where a link leads, not of where it stands. -/
example : assertConfinedSymlinks ⟨[(lit "a", lit "."), (lit "sub/b", lit "../a/../outside")], by decide⟩ = .error .escapes := by
  decide +kernel

/-- A name with a slash at its end is the path of no link. -/
example : assertConfinedSymlinks ⟨[(lit "a/", lit "../../outside")], by decide⟩ = .ok () := by decide +kernel

end Leitwerk.SessionTransfer
