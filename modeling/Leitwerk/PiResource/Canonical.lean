import Leitwerk.PiResource.RoundTrip
/-!
# Archives that are created again

Which of the archives the parser accepts the writer makes from the files that
are returned. The parser reads the name, the size, the type and the checksum of
a header; it asks neither for the other fields nor for zeros after a content,
nor for an order.
-/

namespace Leitwerk.PiResource

open JsString (lit digits)
open Utf8 (Bytes encode decode)
open Comparison
open Results (ok_of_bind)

/-- A path below the directory it is resolved in. -/
def SafePath (path : JsString) : Prop :=
  path ≠ [] ∧ path.head? ≠ some slash ∧ backslash ∉ path ∧ dotDot ∉ Lines.split slash path

/-- An archive laid out as the writer does it: each header is, byte for byte,
that of the name and the length it holds, the name is validated and after the
one before, and zeros fill the content's last block. -/
inductive Canonical : Bytes → Bytes → Prop
  | done (previous : Bytes) : Canonical previous (zeros (blockSize * 2))
  | entry {previous block content rest : Bytes}
      (written : header (readNullString block 0 100) content.length = .ok block)
      (valid : validateResourceRelativePath (readNullString block 0 100) = .ok (readNullString block 0 100))
      (later : bufferCompare previous (encode (readNullString block 0 100)) < 0)
      (tail : Canonical (encode (readNullString block 0 100)) rest) :
      Canonical previous (block ++ content ++ padding content.length ++ rest)

/-! ## Safe paths -/

theorem split_ordinary {ords : List JsString} (hne : ords ≠ []) (hslash : ∀ s ∈ ords, slash ∉ s) (trailing : Bool) :
    Lines.split slash (Lines.join slash ords ++ if trailing then [slash] else []) =
      ords ++ if trailing then [[]] else [] := by
  have hjoin := Lines.split_join slash hne hslash
  cases trailing with
  | true =>
    rw [if_pos rfl, Lines.split_append_nl, hjoin]
    rfl
  | false => rw [if_neg (by simp), List.append_nil, hjoin, if_neg (by simp), List.append_nil]

theorem safePath_of_validate {path : JsString} (h : validateResourceRelativePath path = .ok path) : SafePath path := by
  have hplain : ¬ (path = [] ∨ path.head? = some slash ∨ backslash ∈ path) := by
    unfold validateResourceRelativePath at h
    split at h
    · cases h
    · assumption
  push Not at hplain
  refine ⟨hplain.1, hplain.2.1, hplain.2.2, ?_⟩
  rcases validated_form h with rfl | ⟨ords, trailing, hne, -, hords, rfl⟩
  · decide
  · rw [split_ordinary hne fun s hs => (hords s hs).2.1, List.mem_append, not_or]
    constructor
    · intro hmem
      exact (hords _ hmem).1.2.2 rfl
    · cases trailing <;> decide

/-! ## Canonical archives and the files they hold -/

theorem bufferCompare_irrefl (a : Bytes) : bufferCompare a a = 0 := bufferCompare_antisymm.self a

/-- A canonical archive is what the writer makes of files in order. -/
theorem Canonical.files {previous bytes : Bytes} (h : Canonical previous bytes) :
    ∃ files entries, Writable files ∧ (files.Pairwise fun a b => compareFiles a b < 0) ∧
      (∀ f ∈ files, bufferCompare previous (encode f.path) < 0) ∧ writeFiles files = .ok entries ∧
      bytes = entries ++ zeros (blockSize * 2) := by
  induction h with
  | done previous => exact ⟨[], [], ⟨by simp, by simp, by simp⟩, .nil, by simp, rfl, rfl⟩
  | @entry previous block content rest written valid later tail ih =>
    obtain ⟨files, entries, hwritable, hsorted, hafter, hwrite, rfl⟩ := ih
    have hreadable := readable_readNullString block 0 100
    obtain ⟨name, hname⟩ : ∃ name, readNullString block 0 100 = name := ⟨_, rfl⟩
    rw [hname] at written valid later hafter hreadable
    refine ⟨{ path := name, content } :: files, block ++ content ++ padding content.length ++ entries, ⟨?_, ?_, ?_⟩, ?_,
      ?_, ?_, ?_⟩
    · intro f hf
      rcases List.mem_cons.1 hf with rfl | hf
      · exact hreadable
      · exact hwritable.readable f hf
    · intro f hf
      rcases List.mem_cons.1 hf with rfl | hf
      · exact valid
      · exact hwritable.valid f hf
    · rw [List.map_cons, List.nodup_cons]
      refine ⟨?_, hwritable.nodup⟩
      intro hmem
      obtain ⟨f, hf, heq⟩ := List.mem_map.1 hmem
      have hlt := hafter f hf
      dsimp only at heq
      rw [heq, bufferCompare_irrefl] at hlt
      exact absurd hlt (by decide)
    · rw [List.pairwise_cons]
      exact ⟨fun f hf => hafter f hf, hsorted⟩
    · intro f hf
      rcases List.mem_cons.1 hf with rfl | hf
      · exact later
      · exact bufferCompare_trans later (hafter f hf)
    · unfold writeFiles
      rw [written, hwrite]
      rfl
    · simp only [List.append_assoc]

/-- What the writer makes of files in order is canonical. -/
theorem canonical_written {files : List ResourceFile} (h : Writable files)
    (hsorted : files.Pairwise fun a b => compareFiles a b < 0) {previous : Bytes}
    (hafter : ∀ f ∈ files, bufferCompare previous (encode f.path) < 0) {entries : Bytes}
    (hwrite : writeFiles files = .ok entries) : Canonical previous (entries ++ zeros (blockSize * 2)) := by
  induction files generalizing previous entries with
  | nil =>
    cases hwrite
    exact .done previous
  | cons file files ih =>
    obtain ⟨block, hblock, hwrite⟩ := ok_of_bind hwrite
    obtain ⟨rest, hrest, hwrite⟩ := ok_of_bind hwrite
    cases hwrite
    obtain ⟨front, back, hheader⟩ := header_isHeader hblock
    have hname := hheader.name (h.readable file List.mem_cons_self)
    rw [List.pairwise_cons] at hsorted
    have hnodup := h.nodup
    rw [List.map_cons, List.nodup_cons] at hnodup
    have htail : Writable files := ⟨fun f hf => h.readable f (List.mem_cons_of_mem _ hf),
      fun f hf => h.valid f (List.mem_cons_of_mem _ hf), hnodup.2⟩
    rw [List.append_assoc]
    apply Canonical.entry
    · rw [hname]
      exact hblock
    · rw [hname]
      exact h.valid file List.mem_cons_self
    · rw [hname]
      exact hafter file List.mem_cons_self
    · rw [hname]
      exact ih htail hsorted.2 (fun f hf => hsorted.1 f hf) hrest

theorem sort_of_sorted {files : List ResourceFile} (h : files.Pairwise fun a b => compareFiles a b < 0) :
    sort compareFiles files = files := by
  apply List.Pairwise.insertionSort_eq
  exact h.imp fun hlt => le_of_lt hlt

theorem normalizeFiles_writable {files : List ResourceFile} (h : Writable files) : normalizeFiles [] files = .ok files :=
  normalizeFiles_iff.2 ⟨List.forall₂_same.2 fun f hf => ⟨h.valid f hf, rfl⟩, h.nodup, by simp⟩

theorem parsed_unique {paths : List JsString} {bytes : Bytes} {files files' : List ResourceFile}
    (h : Parsed paths bytes files) (h' : Parsed paths bytes files') : files = files' := by
  have hfiles := verifyFrom_of_parsed h (le_refl _)
  rw [verifyFrom_of_parsed h' (le_refl _)] at hfiles
  cases hfiles
  rfl

/-- The writer makes an accepted archive again exactly if it is canonical. -/
theorem recreated_iff (sha256Digest : Bytes → JsString) {bytes : Bytes} {files : List ResourceFile} (h : Parsed [] bytes files) :
    (∃ bundle, createCanonicalPiResourceBundle sha256Digest files = .ok bundle ∧ bundle.bytes = bytes) ↔ Canonical [] bytes := by
  have hwritable := h.writable.1
  have hnormalized := normalizeFiles_writable hwritable
  constructor
  · rintro ⟨bundle, hbundle, rfl⟩
    obtain ⟨normalized, entries, hnormalized₂, hentries, rfl⟩ := create_ok hbundle
    rw [hnormalized] at hnormalized₂
    cases hnormalized₂
    apply canonical_written (hwritable.perm (sort_perm _ _).symm) hwritable.sorted _ hentries
    intro f hf
    have hne := (safePath_of_validate (hwritable.valid f ((sort_perm _ _).mem_iff.1 hf))).1
    cases hbytes : encode f.path with
    | nil => exact absurd (Utf8.encode_injective (t := []) (hwritable.readable f ((sort_perm _ _).mem_iff.1 hf)).1 rfl hbytes) hne
    | cons b rest => simp [bufferCompare]
  · intro hcanonical
    obtain ⟨files', entries, hwritable', hsorted, -, hwrite, rfl⟩ := hcanonical.files
    obtain rfl := parsed_unique h (parsed_written hwritable' (by simp) hwrite)
    exact ⟨_, create_of_write hnormalized (by rw [sort_of_sorted hsorted, hwrite]), rfl⟩

/-- Canonical archives of the same files are the same. -/
theorem canonical_unique {bytes bytes' : Bytes} {files files' : List ResourceFile} (h : Parsed [] bytes files)
    (h' : Parsed [] bytes' files') (hp : files'.Perm files) (hcanonical : Canonical [] bytes) (hcanonical' : Canonical [] bytes') :
    bytes' = bytes := by
  obtain ⟨bundle, hbundle, rfl⟩ := (recreated_iff (fun _ => []) h).2 hcanonical
  obtain ⟨bundle', hbundle', rfl⟩ := (recreated_iff (fun _ => []) h').2 hcanonical'
  have hcreated := create_perm hbundle (normalizeFiles_writable h.writable.1) h.writable.1 hp
  rw [hbundle'] at hcreated
  cases hcreated
  rfl

/-- An archive that is accepted holds safe paths, each once; the files it holds
make it again if and only if it is canonical, and of the archives that hold the
same files, in whatever order, one is. -/
theorem accepted_recreated_iff {sha256Digest : Bytes → JsString} {bytes : Bytes} {expected : Option JsString}
    {files : List ResourceFile} (h : verifyCanonicalPiResourceBundle sha256Digest bytes expected = .ok files) :
    (files.map (·.path)).Nodup ∧ (∀ f ∈ files, SafePath f.path) ∧
      ((∃ bundle, createCanonicalPiResourceBundle sha256Digest files = .ok bundle ∧ bundle.bytes = bytes) ↔
        Canonical [] bytes) ∧
      ∀ bytes' expected' files', verifyCanonicalPiResourceBundle sha256Digest bytes' expected' = .ok files' →
        files'.Perm files → Canonical [] bytes → (Canonical [] bytes' ↔ bytes' = bytes) := by
  obtain ⟨-, hparsed⟩ := verify_iff.1 h
  have hwritable := hparsed.writable.1
  refine ⟨hwritable.nodup, fun f hf => safePath_of_validate (hwritable.valid f hf), recreated_iff _ hparsed, ?_⟩
  intro bytes' expected' files' h' hp hcanonical
  constructor
  · exact canonical_unique hparsed (verify_iff.1 h').2 hp hcanonical
  · rintro rfl
    exact hcanonical

theorem accepted_recreated_iff_at :
    ∃ bytes, verifyCanonicalPiResourceBundle (fun bytes => digits 16 (sum bytes)) bytes none =
        .ok [{ path := lit "a", content := [7] }] ∧
      ∃ bundle, createCanonicalPiResourceBundle (fun bytes => digits 16 (sum bytes)) [{ path := lit "a", content := [7] }] =
        .ok bundle ∧ bundle.bytes = bytes := by
  have hwritable : Writable [{ path := lit "a", content := [7] }] := by
    refine ⟨?_, ?_, by simp⟩ <;> simp only [List.forall_mem_singleton] <;> (try unfold Readable) <;> decide
  obtain ⟨entries, hwrite⟩ := exists_ok (x := writeFiles [{ path := lit "a", content := [7] }]) (by decide +kernel)
  have h : verifyCanonicalPiResourceBundle (fun bytes => digits 16 (sum bytes)) (entries ++ zeros (blockSize * 2)) none =
      .ok [{ path := lit "a", content := [7] }] :=
    verify_iff.2 ⟨fun hdigest => hdigest.1 rfl, parsed_written hwritable (by simp) hwrite⟩
  have hcanonical : Canonical [] (entries ++ zeros (blockSize * 2)) :=
    canonical_written hwritable (List.pairwise_singleton _ _) (by decide) hwrite
  exact ⟨_, h, (accepted_recreated_iff h).2.2.1.2 hcanonical⟩

/-- What follows a content up to the next block may be anything. -/
theorem dirty_padding_accepted :
    ¬ ∃ sha256Digest : Bytes → JsString, ∀ bytes expected files,
      verifyCanonicalPiResourceBundle sha256Digest bytes expected = .ok files →
        ∃ bundle, createCanonicalPiResourceBundle sha256Digest files = .ok bundle ∧ bundle.bytes = bytes := by
  rintro ⟨sha256Digest, hall⟩
  obtain ⟨block, hblock⟩ := exists_ok (x := header (lit "a") 1) (by decide +kernel)
  obtain ⟨front, back, hheader⟩ := header_isHeader hblock
  have hread : readHeader [] block = .ok (lit "a", 1) :=
    hheader.read (by unfold Readable; decide) (by decide) (by simp)
  have hparsed : Parsed [] (block ++ [7] ++ List.replicate 511 1 ++ zeros (blockSize * 2))
      [{ path := lit "a", content := [7] }] := by
    apply Parsed.entry hheader.length hheader.not_allZero hread _ (.done _)
    rw [List.length_replicate]
    rfl
  obtain ⟨bundle, hbundle, hbytes⟩ := hall _ none _ (verify_iff.2 ⟨fun hdigest => hdigest.1 rfl, hparsed⟩)
  obtain ⟨normalized, entries, hnormalized, hentries, rfl⟩ := create_ok hbundle
  rw [normalizeFiles_writable hparsed.writable.1] at hnormalized
  cases hnormalized
  -- the writer's padding is zero
  have hsorted : sort compareFiles [{ path := lit "a", content := [7] }] = [{ path := lit "a", content := [7] }] := rfl
  have hwritten : writeFiles [{ path := lit "a", content := [7] }] = .ok (block ++ [7] ++ zeros 511 ++ []) := by
    unfold writeFiles
    simp only [List.length_singleton, hblock, bind, Except.bind]
    rfl
  rw [hsorted, hwritten] at hentries
  cases hentries
  rw [List.append_nil] at hbytes
  have hpadding : zeros 511 = List.replicate 511 1 := by
    have htail := List.append_cancel_right hbytes
    exact List.append_cancel_left htail
  have hfirst : (zeros 511).head? = some 1 := by
    rw [hpadding]
    rfl
  exact absurd hfirst (by decide)

end Leitwerk.PiResource
