import Leitwerk.PiResource.Fields
import Mathlib.Data.List.Perm.Basic
/-!
# Writing and parsing archives

What the parser accepts, entry after entry, and that it reads back what the
writer made of files whose paths its UTF-8 gives back. A path with a NUL is cut
there by the parser, and half of a surrogate pair is read as U+FFFD.
-/

namespace Leitwerk.PiResource

open JsString (lit digits)
open Utf8 (Bytes encode decode)
open Comparison
open Results (ok_of_bind)

/-! ## What the loop accepts -/

/-- An archive of which the parser returns the files: entries of a header,
content and bytes up to the next block, then the end blocks. -/
inductive Parsed : List JsString → Bytes → List ResourceFile → Prop
  | done (paths : List JsString) : Parsed paths (zeros (blockSize * 2)) []
  | entry {paths : List JsString} {block content pad rest : Bytes} {name : JsString} {files : List ResourceFile}
      (length : block.length = blockSize) (notEnd : allZero block = false)
      (read : readHeader paths block = .ok (name, content.length))
      (padded : content.length + pad.length = paddedSize content.length) (tail : Parsed (name :: paths) rest files) :
      Parsed paths (block ++ content ++ pad ++ rest) ({ path := name, content } :: files)

theorem blockSize_eq : blockSize = 512 := rfl

theorem paddedSize_mod (size : Nat) :
    paddedSize size % 512 = 0 ∧ size ≤ paddedSize size ∧ paddedSize size < size + 512 := by
  unfold paddedSize
  rw [blockSize_eq]
  omega

theorem Parsed.length_mod {paths : List JsString} {bytes : Bytes} {files : List ResourceFile} (h : Parsed paths bytes files) :
    bytes.length % 512 = 0 ∧ 1024 ≤ bytes.length := by
  induction h with
  | done paths =>
    rw [length_zeros]
    exact ⟨rfl, le_refl _⟩
  | @entry paths block content pad rest name files length notEnd read padded tail ih =>
    have := paddedSize_mod content.length
    rw [blockSize_eq] at length
    simp only [List.length_append]
    omega

theorem allZero_iff {bytes : Bytes} : allZero bytes = true ↔ bytes = zeros bytes.length := by
  unfold allZero zeros
  rw [List.all_eq_true, List.eq_replicate_iff]
  constructor
  · intro h
    exact ⟨rfl, fun b hb => by simpa using h b hb⟩
  · intro h b hb
    rw [h.2 b hb]
    rfl

theorem take_zeros (m n : Nat) : (zeros n).take m = zeros (min m n) := by
  unfold zeros
  exact List.take_replicate

theorem drop_zeros (m n : Nat) : (zeros n).drop m = zeros (n - m) := by
  unfold zeros
  exact List.drop_replicate

theorem allZero_zeros (n : Nat) : allZero (zeros n) = true := by
  rw [allZero_iff, length_zeros]

/-- As many rounds as there are bytes are enough. -/
theorem verifyFrom_of_parsed {paths : List JsString} {bytes : Bytes} {files : List ResourceFile}
    (h : Parsed paths bytes files) {rounds : Nat} (hrounds : bytes.length ≤ rounds) :
    verifyFrom rounds paths bytes = .ok files := by
  induction h generalizing rounds with
  | done paths =>
    rw [length_zeros] at hrounds
    obtain ⟨n, rfl⟩ : ∃ n, rounds = n + 1 := ⟨rounds - 1, by rw [blockSize_eq] at hrounds; omega⟩
    have hne : zeros (blockSize * 2) ≠ [] := by
      apply List.ne_nil_of_length_pos
      rw [length_zeros, blockSize_eq]
      decide
    unfold verifyFrom
    rw [if_neg hne, take_zeros, drop_zeros, take_zeros, if_pos (allZero_zeros _), allZero_zeros, if_neg (by simp),
      length_zeros, if_neg (by simp)]
  | @entry paths block content pad rest name files length notEnd read padded tail ih =>
    have hlength : (block ++ content ++ pad ++ rest).length = blockSize + content.length + pad.length + rest.length := by
      rw [List.length_append, List.length_append, List.length_append, length]
    rw [hlength, blockSize_eq] at hrounds
    obtain ⟨n, rfl⟩ : ∃ n, rounds = n + 1 := ⟨rounds - 1, by omega⟩
    have hne : block ++ content ++ pad ++ rest ≠ [] := by
      apply List.ne_nil_of_length_pos
      rw [hlength, blockSize_eq]
      omega
    have hblock : (block ++ content ++ pad ++ rest).take blockSize = block := by
      rw [List.append_assoc, List.append_assoc, ← length, List.take_left]
    have hcontent : ((block ++ content ++ pad ++ rest).drop blockSize).take content.length = content := by
      rw [List.append_assoc, List.append_assoc, ← length, List.drop_left, List.take_left]
    have hrest : (block ++ content ++ pad ++ rest).drop (blockSize + paddedSize content.length) = rest := by
      have heq : blockSize + paddedSize content.length = (block ++ content ++ pad).length := by
        rw [List.length_append, List.length_append, length]
        omega
      rw [heq, List.drop_left]
    unfold verifyFrom
    rw [if_neg hne, hblock, if_neg (by simp [notEnd]), read]
    simp only [bind, Except.bind]
    rw [if_neg (by rw [hlength]; omega), hcontent, hrest, ih (by omega)]
    rfl

theorem parsed_of_verifyFrom {rounds : Nat} {paths : List JsString} {bytes : Bytes} {files : List ResourceFile}
    (h : verifyFrom rounds paths bytes = .ok files) (hmod : bytes.length % 512 = 0) : Parsed paths bytes files := by
  induction rounds generalizing paths bytes files with
  | zero => cases h
  | succ rounds ih =>
    unfold verifyFrom at h
    split at h
    · cases h
    · rename_i hne
      have hpos : 0 < bytes.length := List.length_pos_of_ne_nil hne
      split at h
      · rename_i hfirst
        split at h
        · cases h
        · rename_i hsecond
          split at h
          · cases h
          · rename_i hlength
            cases h
            push Not at hlength
            rw [Bool.not_eq_false] at hsecond
            have hbytes : bytes = zeros (blockSize * 2) := by
              rw [allZero_iff, List.length_take] at hfirst
              rw [allZero_iff, List.length_take, List.length_drop] at hsecond
              have htail : (bytes.drop blockSize).take blockSize = bytes.drop blockSize := by
                rw [List.take_of_length_le]
                rw [List.length_drop]
                omega
              rw [← List.take_append_drop blockSize bytes, ← htail, hfirst, hsecond, hlength]
              unfold zeros
              rw [List.replicate_append_replicate, blockSize_eq]
              rfl
            rw [hbytes]
            exact .done paths
      · rename_i hend
        obtain ⟨⟨name, size⟩, hread, h⟩ := ok_of_bind h
        dsimp only at h
        split at h
        · cases h
        · rename_i hfits
          obtain ⟨tail, htail, h⟩ := ok_of_bind h
          cases h
          have hpadded := paddedSize_mod size
          rw [blockSize_eq] at hfits
          have hcontent : ((bytes.drop blockSize).take size).length = size := by
            rw [List.length_take, List.length_drop, blockSize_eq]
            omega
          have hsplit : bytes = bytes.take blockSize ++ (bytes.drop blockSize).take size ++
              (bytes.drop (blockSize + size)).take (paddedSize size - size) ++
              bytes.drop (blockSize + paddedSize size) := by
            have hdrop : (bytes.drop (blockSize + size)).drop (paddedSize size - size) =
                bytes.drop (blockSize + paddedSize size) := by
              rw [List.drop_drop]
              congr 1
              omega
            rw [List.append_assoc, ← hdrop, List.take_append_drop, List.append_assoc, ← List.drop_drop,
              List.take_append_drop, List.take_append_drop]
          apply hsplit.symm.subst
            (motive := fun bytes' => Parsed paths bytes' ({ path := name, content := (bytes.drop blockSize).take size } :: tail))
          apply Parsed.entry
          · rw [List.length_take, blockSize_eq]
            omega
          · simpa using hend
          · rw [hread, hcontent]
          · rw [hcontent, List.length_take, List.length_drop, blockSize_eq]
            omega
          · apply ih htail
            rw [List.length_drop, blockSize_eq]
            omega

/-- What `verifyCanonicalPiResourceBundle` accepts. -/
theorem verify_iff {sha256Digest : Bytes → JsString} {bytes : Bytes} {expected : Option JsString} {files : List ResourceFile} :
    verifyCanonicalPiResourceBundle sha256Digest bytes expected = .ok files ↔
      ¬ (expected.getD [] ≠ [] ∧ expected ≠ some (sha256Digest bytes)) ∧ Parsed [] bytes files := by
  unfold verifyCanonicalPiResourceBundle
  rw [blockSize_eq]
  constructor
  · intro h
    split at h
    · cases h
    · rename_i hdigest
      split at h
      · cases h
      · rename_i hlength
        exact ⟨hdigest, parsed_of_verifyFrom h (by omega)⟩
  · rintro ⟨hdigest, h⟩
    have := h.length_mod
    rw [if_neg hdigest, if_neg (by omega)]
    exact verifyFrom_of_parsed h (le_refl _)

/-! ## What the writer makes of files -/

/-- A file as it is written: its path validated, its content as it is. -/
def IsNormalized (file normalized : ResourceFile) : Prop :=
  validateResourceRelativePath file.path = .ok normalized.path ∧ normalized.content = file.content

theorem normalizeFiles_iff {seen : List JsString} {files normalized : List ResourceFile} :
    normalizeFiles seen files = .ok normalized ↔
      List.Forall₂ IsNormalized files normalized ∧ (normalized.map (·.path)).Nodup ∧ ∀ n ∈ normalized, n.path ∉ seen := by
  induction files generalizing seen normalized with
  | nil =>
    rw [List.forall₂_nil_left_iff]
    constructor
    · intro h
      cases h
      simp
    · rintro ⟨rfl, -⟩
      rfl
  | cons file files ih =>
    constructor
    · intro h
      obtain ⟨path, hpath, h⟩ := ok_of_bind h
      split at h
      · cases h
      · rename_i hnew
        obtain ⟨rest, hrest, h⟩ := ok_of_bind h
        cases h
        obtain ⟨hall, hnodup, hseen⟩ := ih.1 hrest
        refine ⟨.cons ⟨hpath, rfl⟩ hall, ?_, ?_⟩
        · rw [List.map_cons, List.nodup_cons]
          refine ⟨?_, hnodup⟩
          intro hmem
          obtain ⟨n, hn, hpathEq⟩ := List.mem_map.1 hmem
          exact hseen n hn (by simp [hpathEq])
        · intro n hn
          rcases List.mem_cons.1 hn with rfl | hn
          · exact hnew
          · exact fun hmem => hseen n hn (List.mem_cons_of_mem _ hmem)
    · rintro ⟨hall, hnodup, hseen⟩
      obtain ⟨n, rest, ⟨hpath, hcontent⟩, hrest, rfl⟩ := List.forall₂_cons_left_iff.1 hall
      rw [List.map_cons, List.nodup_cons] at hnodup
      have hih : normalizeFiles (n.path :: seen) files = .ok rest := by
        apply ih.2 ⟨hrest, hnodup.2, ?_⟩
        intro m hm hmem
        rcases List.mem_cons.1 hmem with heq | hmem
        · exact hnodup.1 (List.mem_map.2 ⟨m, hm, heq⟩)
        · exact hseen m (List.mem_cons_of_mem _ hm) hmem
      unfold normalizeFiles
      rw [hpath]
      simp only [bind, Except.bind]
      rw [if_neg (hseen n List.mem_cons_self), hih, ← hcontent]
      rfl

/-- Files of which each can be written under its path and read again. -/
structure Writable (files : List ResourceFile) : Prop where
  readable : ∀ f ∈ files, Readable f.path
  valid : ∀ f ∈ files, validateResourceRelativePath f.path = .ok f.path
  nodup : (files.map (·.path)).Nodup

theorem Writable.perm {files files' : List ResourceFile} (h : Writable files) (hp : files.Perm files') : Writable files' :=
  ⟨fun f hf => h.readable f (hp.mem_iff.2 hf), fun f hf => h.valid f (hp.mem_iff.2 hf), (hp.map _).nodup_iff.1 h.nodup⟩

/-- Paths that can be read back differ in their bytes. -/
theorem Writable.strictTotal {files : List ResourceFile} (h : Writable files) : StrictTotalOn compareFiles files := by
  refine ⟨?_, fun _ _ _ _ _ _ => bufferCompare_trans, ?_⟩
  · intro a _ b _ hab hba
    have := (compareFiles_antisymm a b).1 hab
    omega
  · intro a ha b hb hne
    have hanti := compareFiles_antisymm b a
    by_contra hnone
    push Not at hnone
    have hbytes : encode a.path = encode b.path := bufferCompare_eq (by unfold compareFiles at *; omega)
    have hpath : a.path = b.path := Utf8.encode_injective (h.readable a ha).1 (h.readable b hb).1 hbytes
    exact hne (List.inj_on_of_nodup_map h.nodup ha hb hpath)

theorem Writable.sorted {files : List ResourceFile} (h : Writable files) :
    (sort compareFiles files).Pairwise fun a b => compareFiles a b < 0 := by
  have hle := pairwise_sort compareFiles_antisymm h.strictTotal
  have hwritten := h.perm (sort_perm compareFiles files).symm
  have hnodup : (sort compareFiles files).Nodup := hwritten.nodup.of_map _
  apply (hle.and hnodup).imp_of_mem
  rintro a b ha hb ⟨hab, hne⟩
  have hanti := compareFiles_antisymm b a
  rcases hwritten.strictTotal.total a ha b hb hne with hlt | hgt
  · exact hlt
  · omega

/-- The parser reads back what is written. -/
theorem parsed_written {files : List ResourceFile} (h : Writable files) {paths : List JsString}
    (hnew : ∀ f ∈ files, f.path ∉ paths) {entries : Bytes} (hwrite : writeFiles files = .ok entries) :
    Parsed paths (entries ++ zeros (blockSize * 2)) files := by
  induction files generalizing paths entries with
  | nil =>
    cases hwrite
    exact .done paths
  | cons file files ih =>
    obtain ⟨block, hblock, hwrite⟩ := ok_of_bind hwrite
    obtain ⟨rest, hrest, hwrite⟩ := ok_of_bind hwrite
    cases hwrite
    obtain ⟨front, back, hheader⟩ := header_isHeader hblock
    have hnodup := h.nodup
    rw [List.map_cons, List.nodup_cons] at hnodup
    have hread := hheader.read (h.readable file List.mem_cons_self) (h.valid file List.mem_cons_self)
      (hnew file List.mem_cons_self)
    have htail : Writable files := ⟨fun f hf => h.readable f (List.mem_cons_of_mem _ hf),
      fun f hf => h.valid f (List.mem_cons_of_mem _ hf), hnodup.2⟩
    have hparsed : Parsed (file.path :: paths) (rest ++ zeros (blockSize * 2)) files := by
      apply ih htail _ hrest
      intro f hf hmem
      rcases List.mem_cons.1 hmem with heq | hmem
      · exact hnodup.1 (List.mem_map.2 ⟨f, hf, heq⟩)
      · exact hnew f (List.mem_cons_of_mem _ hf) hmem
    rw [List.append_assoc]
    apply Parsed.entry hheader.length hheader.not_allZero hread _ hparsed
    unfold padding paddedSize
    rw [length_zeros]

theorem create_ok {sha256Digest : Bytes → JsString} {files : List ResourceFile} {bundle : Bundle}
    (h : createCanonicalPiResourceBundle sha256Digest files = .ok bundle) :
    ∃ normalized entries, normalizeFiles [] files = .ok normalized ∧ writeFiles (sort compareFiles normalized) = .ok entries ∧
      bundle = { digest := sha256Digest (entries ++ zeros (blockSize * 2)), bytes := entries ++ zeros (blockSize * 2) } := by
  obtain ⟨normalized, hnormalized, h⟩ := ok_of_bind h
  obtain ⟨entries, hentries, h⟩ := ok_of_bind h
  cases h
  exact ⟨normalized, entries, hnormalized, hentries, rfl⟩

theorem create_of_write {sha256Digest : Bytes → JsString} {files normalized : List ResourceFile} {entries : Bytes}
    (hnormalized : normalizeFiles [] files = .ok normalized) (hentries : writeFiles (sort compareFiles normalized) = .ok entries) :
    createCanonicalPiResourceBundle sha256Digest files =
      .ok { digest := sha256Digest (entries ++ zeros (blockSize * 2)), bytes := entries ++ zeros (blockSize * 2) } := by
  unfold createCanonicalPiResourceBundle
  rw [hnormalized]
  simp only [bind, Except.bind, hentries]
  rfl

/-! ## What the parser returns -/

theorem readHeader_ok {paths : List JsString} {block : Bytes} {name : JsString} {size : Nat}
    (h : readHeader paths block = .ok (name, size)) :
    validateResourceRelativePath (readNullString block 0 100) = .ok name ∧ name ∉ paths := by
  obtain ⟨-, -, h⟩ := ok_of_bind h
  split at h
  · cases h
  · dsimp only at h
    split at h
    · cases h
    · split at h
      · cases h
      · obtain ⟨path, hpath, h⟩ := ok_of_bind h
        split at h
        · cases h
        · rename_i hnew
          obtain ⟨octal, -, h⟩ := ok_of_bind h
          cases h
          exact ⟨hpath, hnew⟩

theorem readable_readNullString (block : Bytes) (start length : Nat) : Readable (readNullString block start length) := by
  refine ⟨Utf8.decode_wellFormed _, Utf8.zero_notMem_decode ?_⟩
  intro hmem
  have := List.mem_takeWhile_imp hmem
  simp at this

/-- What the parser returns can be written. -/
theorem Parsed.writable {paths : List JsString} {bytes : Bytes} {files : List ResourceFile} (h : Parsed paths bytes files) :
    Writable files ∧ ∀ f ∈ files, f.path ∉ paths := by
  induction h with
  | done paths => exact ⟨⟨by simp, by simp, by simp⟩, by simp⟩
  | @entry paths block content pad rest name files length notEnd read padded tail ih =>
    obtain ⟨hvalid, hnew⟩ := readHeader_ok read
    obtain ⟨hfiles, hpaths⟩ := ih
    have hraw := readable_readNullString block 0 100
    refine ⟨⟨?_, ?_, ?_⟩, ?_⟩
    · intro f hf
      rcases List.mem_cons.1 hf with rfl | hf
      · exact ⟨wellFormed_validated hvalid hraw.1, zero_notMem_validated hvalid hraw.2⟩
      · exact hfiles.readable f hf
    · intro f hf
      rcases List.mem_cons.1 hf with rfl | hf
      · exact validate_idem hvalid
      · exact hfiles.valid f hf
    · rw [List.map_cons, List.nodup_cons]
      refine ⟨?_, hfiles.nodup⟩
      intro hmem
      obtain ⟨f, hf, heq⟩ := List.mem_map.1 hmem
      exact hpaths f hf (by simp [heq])
    · intro f hf
      rcases List.mem_cons.1 hf with rfl | hf
      · exact hnew
      · exact fun hmem => hpaths f hf (List.mem_cons_of_mem _ hmem)

/-! ## The round trip -/

/-- Parsing the bundle returns its files under their validated paths, byte for
byte and sorted, and the files in any order make the same bundle. -/
def RoundTrips (sha256Digest : Bytes → JsString) (files : List ResourceFile) (bundle : Bundle) : Prop :=
  (∃ normalized parsed, List.Forall₂ IsNormalized files normalized ∧
    verifyCanonicalPiResourceBundle sha256Digest bundle.bytes (some bundle.digest) = .ok parsed ∧
    parsed.Perm normalized ∧ parsed.Pairwise fun a b => compareFiles a b < 0) ∧
  ∀ files' : List ResourceFile, files'.Perm files → createCanonicalPiResourceBundle sha256Digest files' = .ok bundle

/-- Every path, as it is written, is free of NUL and of unpaired surrogates. -/
def PathsReadable (files : List ResourceFile) : Prop :=
  ∀ file ∈ files, ∀ path, validateResourceRelativePath file.path = .ok path → Utf8.isWellFormed path ∧ (0 : UInt16) ∉ path

theorem pathsReadable_of_roundTrips {sha256Digest : Bytes → JsString} {files : List ResourceFile} {bundle : Bundle}
    (h : RoundTrips sha256Digest files bundle) : PathsReadable files := by
  obtain ⟨⟨normalized, parsed, hall, hverify, hperm, -⟩, -⟩ := h
  obtain ⟨hwritable, -⟩ := (verify_iff.1 hverify).2.writable
  intro file hfile path hpath
  -- the file is written under the path, and what is parsed holds it
  have hmem : ∃ n ∈ normalized, IsNormalized file n := by
    clear hperm hpath hwritable hverify
    induction hall with
    | nil => cases hfile
    | @cons f n files normalized hfn _ ih =>
      rcases List.mem_cons.1 hfile with rfl | hfile
      · exact ⟨n, List.mem_cons_self, hfn⟩
      · obtain ⟨m, hm, hnorm⟩ := ih hfile
        exact ⟨m, List.mem_cons_of_mem _ hm, hnorm⟩
  obtain ⟨n, hn, hvalid, -⟩ := hmem
  rw [hvalid] at hpath
  cases hpath
  exact hwritable.readable n (hperm.mem_iff.2 hn)

theorem writable_of_readable {files normalized : List ResourceFile} (h : PathsReadable files)
    (hnormalized : normalizeFiles [] files = .ok normalized) : Writable normalized := by
  obtain ⟨hall, hnodup, -⟩ := normalizeFiles_iff.1 hnormalized
  have hsource : ∀ n ∈ normalized, ∃ f ∈ files, IsNormalized f n := by
    clear hnodup hnormalized h
    induction hall with
    | nil => simp
    | @cons f n files normalized hfn _ ih =>
      intro m hm
      rcases List.mem_cons.1 hm with rfl | hm
      · exact ⟨f, List.mem_cons_self, hfn⟩
      · obtain ⟨f', hf', hnorm⟩ := ih m hm
        exact ⟨f', List.mem_cons_of_mem _ hf', hnorm⟩
  refine ⟨?_, ?_, hnodup⟩
  · intro n hn
    obtain ⟨f, hf, hvalid, -⟩ := hsource n hn
    exact h f hf n.path hvalid
  · intro n hn
    obtain ⟨f, hf, hvalid, -⟩ := hsource n hn
    exact validate_idem hvalid

/-- The order of the files does not matter where their paths can be read back. -/
theorem create_perm {sha256Digest : Bytes → JsString} {files files' normalized : List ResourceFile} {bundle : Bundle}
    (h : createCanonicalPiResourceBundle sha256Digest files = .ok bundle)
    (hnormalized : normalizeFiles [] files = .ok normalized) (hwritable : Writable normalized) (hp : files'.Perm files) :
    createCanonicalPiResourceBundle sha256Digest files' = .ok bundle := by
  obtain ⟨normalized₂, entries, hnormalized₂, hentries, rfl⟩ := create_ok h
  rw [hnormalized] at hnormalized₂
  cases hnormalized₂
  obtain ⟨hall, hnodup, -⟩ := normalizeFiles_iff.1 hnormalized
  obtain ⟨normalized', hall', hperm⟩ := List.perm_comp_forall₂ hp hall
  have hnormalized' : normalizeFiles [] files' = .ok normalized' :=
    normalizeFiles_iff.2 ⟨hall', (hperm.map _).nodup_iff.2 hnodup, by simp⟩
  have hsorted : sort compareFiles normalized' = sort compareFiles normalized :=
    (sort_eq_of_perm compareFiles_antisymm hwritable.strictTotal hperm.symm).symm
  exact create_of_write hnormalized' (by rw [hsorted, hentries])

/-- A bundle that was created round-trips if and only if its paths can be read back. -/
theorem roundTrips_iff_pathsReadable {sha256Digest : Bytes → JsString} {files : List ResourceFile} {bundle : Bundle}
    (h : createCanonicalPiResourceBundle sha256Digest files = .ok bundle) :
    RoundTrips sha256Digest files bundle ↔ PathsReadable files := by
  refine ⟨pathsReadable_of_roundTrips, ?_⟩
  intro hreadable
  obtain ⟨normalized, entries, hnormalized, hentries, hbundle⟩ := create_ok h
  have hwritable := writable_of_readable hreadable hnormalized
  refine ⟨⟨normalized, sort compareFiles normalized, (normalizeFiles_iff.1 hnormalized).1, ?_, sort_perm _ _,
    hwritable.sorted⟩, fun files' hp => create_perm h hnormalized hwritable hp⟩
  rw [hbundle, verify_iff]
  exact ⟨fun hdigest => hdigest.2 rfl,
    parsed_written (hwritable.perm (sort_perm _ _).symm) (by simp) hentries⟩

theorem exists_ok {α : Type} {x : Result α} (h : x.isOk = true) : ∃ a, x = .ok a := by
  cases x with
  | error message => cases h
  | ok a => exact ⟨a, rfl⟩

theorem roundTrips_iff_pathsReadable_at :
    ∃ bundle, createCanonicalPiResourceBundle (fun bytes => digits 16 (sum bytes))
        [{ path := lit "b/../a", content := [7] }] = .ok bundle ∧
      RoundTrips (fun bytes => digits 16 (sum bytes)) [{ path := lit "b/../a", content := [7] }] bundle := by
  obtain ⟨bundle, hbundle⟩ := exists_ok (x := createCanonicalPiResourceBundle (fun bytes => digits 16 (sum bytes))
    [{ path := lit "b/../a", content := [7] }]) (by decide +kernel)
  refine ⟨bundle, hbundle, (roundTrips_iff_pathsReadable hbundle).2 ?_⟩
  intro file hfile path hpath
  rw [List.mem_singleton.1 hfile] at hpath
  have hvalid : validateResourceRelativePath (lit "b/../a") = .ok (lit "a") := by decide
  rw [hvalid] at hpath
  cases hpath
  decide

/-- A path with a NUL is created, and is not what is read back. -/
theorem nul_does_not_roundTrip :
    ¬ ∃ sha256Digest : Bytes → JsString, ∀ files bundle, createCanonicalPiResourceBundle sha256Digest files = .ok bundle →
      RoundTrips sha256Digest files bundle := by
  rintro ⟨sha256Digest, hall⟩
  obtain ⟨entries, hentries⟩ := exists_ok (x := writeFiles (sort compareFiles [{ path := [0x61, 0, 0x62], content := [] }]))
    (by decide +kernel)
  have hvalid : validateResourceRelativePath [0x61, 0, 0x62] = .ok [0x61, 0, 0x62] := by decide
  have hnormalized : normalizeFiles [] [{ path := [0x61, 0, 0x62], content := [] }] =
      .ok [{ path := [0x61, 0, 0x62], content := [] }] := by decide
  have hreadable := pathsReadable_of_roundTrips (hall _ _ (create_of_write hnormalized hentries))
  exact (hreadable _ List.mem_cons_self _ hvalid).2 (by decide)

end Leitwerk.PiResource
