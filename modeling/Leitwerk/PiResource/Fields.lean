import Leitwerk.PiResource.Archive
import Leitwerk.Lib.Results
/-!
# The fields of a header block

What the parser reads of a block the writer made: a name without NUL whose
surrogates are paired, the size, and the checksum.
-/

namespace Leitwerk.PiResource

open JsString (lit digits)
open Utf8 (Bytes encode decode)
open Comparison
open Results (ok_of_bind)

/-! ## Comparing bytes -/

theorem bufferCompare_antisymm : Antisymmetric bufferCompare := by
  intro a b
  induction a generalizing b with
  | nil => cases b <;> simp [bufferCompare]
  | cons x a ih =>
    cases b with
    | nil => simp [bufferCompare]
    | cons y b =>
      have hback : bufferCompare (y :: b) (x :: a) =
          if y.toNat < x.toNat then -1 else if x.toNat < y.toNat then 1 else bufferCompare b a := rfl
      rw [hback, bufferCompare]
      by_cases hlt : x.toNat < y.toNat
      · rw [if_pos hlt, if_neg (by omega), if_pos hlt]
        decide
      · rw [if_neg hlt, if_neg hlt]
        split
        · decide
        · exact ih b

theorem bufferCompare_eq {a b : Bytes} (h : bufferCompare a b = 0) : a = b := by
  induction a generalizing b with
  | nil =>
    cases b with
    | nil => rfl
    | cons y b => cases h
  | cons x a ih =>
    cases b with
    | nil => cases h
    | cons y b =>
      unfold bufferCompare at h
      split at h
      · cases h
      · split at h
        · cases h
        · have hxy : x = y := UInt8.toNat_inj.1 (by omega)
          rw [hxy, ih h]

theorem bufferCompare_trans {a b c : Bytes} (hab : bufferCompare a b < 0) (hbc : bufferCompare b c < 0) :
    bufferCompare a c < 0 := by
  induction a generalizing b c with
  | nil =>
    cases c with
    | nil => cases b <;> simp [bufferCompare] at hab hbc
    | cons z c => simp [bufferCompare]
  | cons x a ih =>
    cases b with
    | nil => simp [bufferCompare] at hab
    | cons y b =>
      cases c with
      | nil => simp [bufferCompare] at hbc
      | cons z c =>
        unfold bufferCompare at hab hbc ⊢
        split at hab
        · rw [if_pos]
          · decide
          · split at hbc
            · omega
            · split at hbc
              · omega
              · omega
        · split at hab
          · omega
          · split at hbc
            · rw [if_pos (by omega)]
              decide
            · split at hbc
              · omega
              · rw [if_neg (by omega), if_neg (by omega)]
                exact ih hab hbc

theorem compareFiles_antisymm : Antisymmetric compareFiles := fun _ _ => bufferCompare_antisymm _ _

/-! ## Texts in fields -/

/-- A text that its bytes give back. -/
def Readable (s : JsString) : Prop := Utf8.isWellFormed s ∧ (0 : UInt16) ∉ s

theorem length_zeros (n : Nat) : (zeros n).length = n := List.length_replicate

theorem takeWhile_text {s : JsString} (h : Readable s) {rest : Bytes} (hrest : rest = [] ∨ rest.head? = some 0) :
    (encode s ++ rest).takeWhile (· != 0) = encode s := by
  have hall : ∀ b ∈ encode s, (b != 0) = true := by
    intro b hb
    rw [bne_iff_ne]
    rintro rfl
    exact Utf8.zero_notMem_encode h.1 h.2 hb
  rw [List.takeWhile_append_of_pos hall]
  rcases hrest with rfl | hhead
  · simp
  · cases rest with
    | nil => cases hhead
    | cons b rest =>
      obtain rfl : b = 0 := by simpa using hhead
      simp

theorem readNullString_mid (X F Y : Bytes) {start length : Nat} (hX : X.length = start) (hF : F.length = length) :
    readNullString (X ++ F ++ Y) start length = decode (F.takeWhile (· != 0)) := by
  subst hX hF
  unfold readNullString
  rw [List.append_assoc, List.drop_left, List.take_left]

/-- A field that holds a text, and bytes of which the first is zero. -/
theorem readNullString_text {X Y rest : Bytes} {s : JsString} (h : Readable s) {start length : Nat} (hX : X.length = start)
    (hF : (encode s ++ rest).length = length) (hrest : rest = [] ∨ rest.head? = some 0) :
    readNullString (X ++ (encode s ++ rest) ++ Y) start length = s := by
  rw [readNullString_mid X _ Y hX hF, takeWhile_text h hrest, Utf8.decode_encode h.1]

theorem head_zeros {n : Nat} : zeros n = [] ∨ (zeros n).head? = some 0 := by
  cases n with
  | zero => exact .inl rfl
  | succ n => exact .inr rfl

theorem encode_ascii {s : JsString} (h : ∀ u ∈ s, u.toNat < 0x80) : encode s = s.map fun u => Utf8.byte u.toNat := by
  induction s with
  | nil => rfl
  | cons u s ih =>
    have hu := h u List.mem_cons_self
    have hh : Utf8.isHigh u = false := by
      simp only [Utf8.isHigh, Bool.and_eq_false_iff, decide_eq_false_iff_not]
      omega
    have hl : Utf8.isLow u = false := by
      simp only [Utf8.isLow, Bool.and_eq_false_iff, decide_eq_false_iff_not]
      omega
    unfold encode
    simp only [hh, hl, if_false, Bool.false_eq_true]
    rw [ih fun v hv => h v (List.mem_cons_of_mem _ hv), Utf8.encodeUnit, if_pos hu]
    rfl

/-! ## Octal digits -/

/-- Octal digits and nothing else. -/
def Octal (s : JsString) : Prop := ∀ u ∈ s, 0x30 ≤ u.toNat ∧ u.toNat ≤ 0x37

theorem digits_octal (n : Nat) :
    digits 8 n = if n < 8 then [Utf8.unit (48 + n)] else digits 8 (n / 8) ++ [Utf8.unit (48 + n % 8)] := by
  have hdigit : ∀ d < 8, (Nat.digitChar d).toNat.toUInt16 = Utf8.unit (48 + d) := by
    intro d hd
    rw [Nat.toNat_digitChar_of_lt_ten (by omega)]
    rfl
  unfold digits
  rw [Nat.toDigits_eq_if (by decide)]
  split
  · rename_i h
    rw [List.map_singleton, hdigit n h]
  · rw [List.map_append, List.map_singleton, hdigit _ (Nat.mod_lt n (by decide))]

theorem octal_digits (n : Nat) : Octal (digits 8 n) := by
  induction n using Nat.strongRecOn with
  | ind n ih =>
    rw [digits_octal]
    intro u hu
    split at hu
    · rw [List.mem_singleton.1 hu, Utf8.unit_toNat (by omega)]
      omega
    · rcases List.mem_append.1 hu with hu | hu
      · exact ih (n / 8) (by omega) u hu
      · rw [List.mem_singleton.1 hu, Utf8.unit_toNat (by omega)]
        omega

theorem parseOctal_digits (n : Nat) : parseOctal (digits 8 n) = n := by
  induction n using Nat.strongRecOn with
  | ind n ih =>
    rw [digits_octal]
    unfold parseOctal at ih ⊢
    split
    · rw [List.foldl_cons, List.foldl_nil, Utf8.unit_toNat (by omega)]
      omega
    · rw [List.foldl_append, ih (n / 8) (by omega), List.foldl_cons, List.foldl_nil, Utf8.unit_toNat (by omega)]
      omega

theorem octal_padStart (length n : Nat) : Octal (padStart length (digits 8 n)) := by
  intro u hu
  rcases List.mem_append.1 hu with hu | hu
  · rw [List.eq_of_mem_replicate hu]
    decide
  · exact octal_digits n u hu

theorem parseOctal_padStart (length n : Nat) : parseOctal (padStart length (digits 8 n)) = n := by
  have hzeros : ∀ k, (List.replicate k (0x30 : UInt16)).foldl (fun n u => 8 * n + (u.toNat - 48)) 0 = 0 := by
    intro k
    induction k with
    | zero => rfl
    | succ k ih => exact ih
  have hdigits := parseOctal_digits n
  unfold parseOctal padStart at *
  rw [List.foldl_append, hzeros, hdigits]

theorem Octal.readable {s : JsString} (h : Octal s) : Readable s := by
  constructor
  · induction s with
    | nil => rfl
    | cons u s ih =>
      have hu := h u List.mem_cons_self
      rw [Utf8.isWellFormed_cons]
      · exact ih fun v hv => h v (List.mem_cons_of_mem _ hv)
      · simp only [Utf8.isHigh, Bool.and_eq_false_iff, decide_eq_false_iff_not]
        omega
      · simp only [Utf8.isLow, Bool.and_eq_false_iff, decide_eq_false_iff_not]
        omega
  · intro hmem
    have h0 := (h 0 hmem).1
    exact absurd h0 (by decide)

theorem Octal.trim {s : JsString} (h : Octal s) : s.trim = s := by
  have hspace : ∀ u ∈ s, JsString.isSpace u = false := by
    intro u hu
    obtain ⟨h48, h55⟩ := h u hu
    have hcases : u.toNat = 48 ∨ u.toNat = 49 ∨ u.toNat = 50 ∨ u.toNat = 51 ∨ u.toNat = 52 ∨ u.toNat = 53 ∨
        u.toNat = 54 ∨ u.toNat = 55 := by omega
    unfold JsString.isSpace
    rcases hcases with h | h | h | h | h | h | h | h <;> rw [h] <;> decide
  exact JsString.trim_eq_self (fun u hu => hspace u (List.mem_of_head? hu)) (fun u hu => hspace u (List.mem_of_getLast? hu))

theorem Octal.encode_length {s : JsString} (h : Octal s) : (encode s).length = s.length := by
  rw [encode_ascii, List.length_map]
  intro u hu
  have := (h u hu).2
  omega

/-- A number that is read from the octal digits a field holds. -/
theorem readOctal_field {X Y rest : Bytes} {start length size : Nat} (width : Nat) (hX : X.length = start)
    (hF : (encode (padStart width (digits 8 size)) ++ rest).length = length) (hrest : rest = [] ∨ rest.head? = some 0) :
    readOctal (X ++ (encode (padStart width (digits 8 size)) ++ rest) ++ Y) start length = .ok size := by
  have hoctal := octal_padStart width size
  have hall : (padStart width (digits 8 size)).all (fun u => 0x30 ≤ u.toNat && u.toNat ≤ 0x37) = true := by
    rw [List.all_eq_true]
    intro u hu
    obtain ⟨h48, h55⟩ := hoctal u hu
    rw [Bool.and_eq_true, decide_eq_true_eq, decide_eq_true_eq]
    exact ⟨h48, h55⟩
  unfold readOctal
  rw [readNullString_text hoctal.readable hX hF hrest]
  simp only [hoctal.trim, hall, if_true, parseOctal_padStart]

/-! ## The block of an entry -/

theorem encode_magic : encode (lit "ustar") = [0x75, 0x73, 0x74, 0x61, 0x72] := by decide +kernel

theorem encode_version : encode (lit "00") = [0x30, 0x30] := by decide +kernel

theorem writeString_ok {length : Nat} {value : JsString} {field : Bytes} (h : writeString length value = .ok field) :
    (encode value).length ≤ length ∧ field = encode value ++ zeros (length - (encode value).length) := by
  unfold writeString at h
  split at h
  · cases h
  · cases h
    exact ⟨by omega, rfl⟩

theorem writeString_length {length : Nat} {value : JsString} {field : Bytes} (h : writeString length value = .ok field) :
    field.length = length := by
  obtain ⟨hle, rfl⟩ := writeString_ok h
  rw [List.length_append, length_zeros]
  omega

theorem writeOctal_ok {length value : Nat} {field : Bytes} (h : writeOctal (length + 1) value = .ok field) :
    field = encode (padStart length (digits 8 value)) ++ [0] ∧ field.length = length + 1 := by
  unfold writeOctal at h
  rw [Nat.add_sub_cancel] at h
  dsimp only at h
  split at h
  · cases h
  · rename_i hlong
    obtain ⟨text, htext, h⟩ := ok_of_bind h
    cases h
    have hwidth : length ≤ (padStart length (digits 8 value)).length := by
      unfold padStart
      rw [List.length_append, List.length_replicate]
      omega
    have hlength := (octal_padStart length value).encode_length
    obtain ⟨-, rfl⟩ := writeString_ok htext
    have hnone : length - (encode (padStart length (digits 8 value))).length = 0 := by omega
    rw [hnone]
    refine ⟨by simp [zeros], ?_⟩
    simp only [zeros, List.replicate_zero, List.append_nil, List.length_append, List.length_singleton]
    omega

/-- What the writer makes of a name and a size: the fields before the checksum,
the checksum, and those after it. -/
structure IsHeader (name : JsString) (size : Nat) (block front back : Bytes) : Prop where
  nameFits : (encode name).length ≤ 100
  front_eq : ∃ mode ids mtime : Bytes, mode.length = 8 ∧ ids.length = 16 ∧ mtime.length = 12 ∧
    (encode (padStart 11 (digits 8 size)) ++ [0]).length = 12 ∧
    front = (encode name ++ zeros (100 - (encode name).length)) ++ (mode ++ ids) ++
      (encode (padStart 11 (digits 8 size)) ++ [0]) ++ mtime
  back_eq : back = [0x30] ++ zeros 100 ++ (encode (lit "ustar") ++ [0]) ++ encode (lit "00") ++ zeros 247
  block_eq : ∃ rest : Bytes, rest.head? = some 0 ∧
    (encode (padStart 6 (digits 8 (sum (front ++ List.replicate 8 0x20 ++ back)))) ++ rest).length = 8 ∧
    block = front ++ (encode (padStart 6 (digits 8 (sum (front ++ List.replicate 8 0x20 ++ back)))) ++ rest) ++ back

theorem encode_append_ascii {s t : JsString} (hs : ∀ u ∈ s, u.toNat < 0x80) (ht : ∀ u ∈ t, u.toNat < 0x80) :
    encode (s ++ t) = encode s ++ encode t := by
  rw [encode_ascii hs, encode_ascii ht, ← List.map_append, encode_ascii]
  intro u hu
  rcases List.mem_append.1 hu with hu | hu
  · exact hs u hu
  · exact ht u hu

theorem header_isHeader {name : JsString} {size : Nat} {block : Bytes} (h : header name size = .ok block) :
    ∃ front back, IsHeader name size block front back := by
  unfold header at h
  split at h
  · cases h
  · obtain ⟨nameField, hname, h⟩ := ok_of_bind h
    obtain ⟨mode, hmode, h⟩ := ok_of_bind h
    obtain ⟨uid, huid, h⟩ := ok_of_bind h
    obtain ⟨gid, hgid, h⟩ := ok_of_bind h
    obtain ⟨sizeField, hsize, h⟩ := ok_of_bind h
    obtain ⟨mtime, hmtime, h⟩ := ok_of_bind h
    obtain ⟨magic, hmagic, h⟩ := ok_of_bind h
    obtain ⟨version, hversion, h⟩ := ok_of_bind h
    obtain ⟨checksum, hchecksum, h⟩ := ok_of_bind h
    cases h
    obtain ⟨hfits, rfl⟩ := writeString_ok hname
    obtain ⟨rfl, hsizeLength⟩ := writeOctal_ok hsize
    obtain ⟨-, rfl⟩ := writeString_ok hmagic
    obtain ⟨-, rfl⟩ := writeString_ok hversion
    have hchecksumLength := writeString_length hchecksum
    obtain ⟨-, hchecksumText⟩ := writeString_ok hchecksum
    have hmagicField : encode (lit "ustar") ++ zeros (6 - (encode (lit "ustar")).length) = encode (lit "ustar") ++ [0] := by
      rw [encode_magic]
      rfl
    have hversionField : encode (lit "00") ++ zeros (2 - (encode (lit "00")).length) = encode (lit "00") := by
      rw [encode_version]
      rfl
    rw [hmagicField, hversionField] at hchecksumText ⊢
    refine ⟨encode name ++ zeros (100 - (encode name).length) ++ mode ++ uid ++ gid ++
        (encode (padStart 11 (digits 8 size)) ++ [0]) ++ mtime, _, hfits,
      ⟨mode, uid ++ gid, mtime, (writeOctal_ok hmode).2, ?_, (writeOctal_ok hmtime).2, hsizeLength, ?_⟩, rfl, ?_⟩
    · rw [List.length_append, (writeOctal_ok huid).2, (writeOctal_ok hgid).2]
    · simp only [List.append_assoc]
    · -- the digits of the sum, a NUL and a blank
      rw [encode_append_ascii] at hchecksumText
      · rw [List.append_assoc (encode (padStart 6 _))] at hchecksumText
        rw [hchecksumText] at hchecksumLength ⊢
        exact ⟨_, rfl, hchecksumLength, rfl⟩
      · intro u hu
        have := (octal_padStart _ _ u hu).2
        omega
      · exact JsString.forall_of_all (by decide)

theorem IsHeader.front_length {name : JsString} {size : Nat} {block front back : Bytes}
    (h : IsHeader name size block front back) : front.length = 148 := by
  have hfits := h.nameFits
  obtain ⟨mode, ids, mtime, hmode, hids, hmtime, hsize, rfl⟩ := h.front_eq
  simp only [List.length_append, length_zeros] at hsize ⊢
  omega

theorem IsHeader.back_length {name : JsString} {size : Nat} {block front back : Bytes}
    (h : IsHeader name size block front back) : back.length = 356 := by
  have hmagic : (encode (lit "ustar") ++ [0]).length = 6 := by rw [encode_magic]; rfl
  have hversion : (encode (lit "00")).length = 2 := by rw [encode_version]; rfl
  rw [h.back_eq]
  simp only [List.length_append, length_zeros, List.length_singleton] at hmagic ⊢
  omega

theorem IsHeader.length {name : JsString} {size : Nat} {block front back : Bytes}
    (h : IsHeader name size block front back) : block.length = blockSize := by
  obtain ⟨rest, -, hlength, rfl⟩ := h.block_eq
  rw [List.length_append, List.length_append, hlength, h.front_length, h.back_length]
  rfl

/-- A header holds a type, so it is no end block. -/
theorem IsHeader.not_allZero {name : JsString} {size : Nat} {block front back : Bytes}
    (h : IsHeader name size block front back) : allZero block = false := by
  obtain ⟨rest, -, -, rfl⟩ := h.block_eq
  rw [h.back_eq]
  unfold allZero
  rw [List.all_eq_false]
  exact ⟨0x30, by simp, by decide⟩

theorem IsHeader.verifyChecksum {name : JsString} {size : Nat} {block front back : Bytes}
    (h : IsHeader name size block front back) : verifyChecksum block = .ok () := by
  obtain ⟨rest, hrest, hlength, hblock⟩ := h.block_eq
  unfold PiResource.verifyChecksum
  have hread : readOctal block 148 8 = .ok (sum (front ++ List.replicate 8 0x20 ++ back)) := by
    rw [hblock]
    exact readOctal_field 6 h.front_length hlength (.inr hrest)
  have hfront : block.take 148 = front := by
    rw [hblock, List.append_assoc, ← h.front_length, List.take_left]
  have hback : block.drop 156 = back := by
    have h156 : 156 = (front ++ (encode (padStart 6 (digits 8 (sum (front ++ List.replicate 8 0x20 ++ back)))) ++ rest)).length := by
      rw [List.length_append, hlength, h.front_length]
    rw [hblock, h156, List.drop_left]
  rw [hread, hfront, hback]
  have hsum : sum front + 8 * 32 + sum back = sum (front ++ List.replicate 8 0x20 ++ back) := by
    simp [sum]
    omega
  change (if _ then _ else _ : Result Unit) = _
  rw [if_pos hsum]
  rfl

/-- A text that stands between the bytes of a block. -/
theorem readNullString_at {block X Y rest : Bytes} {s : JsString} (h : Readable s) {start length : Nat}
    (hblock : block = X ++ (encode s ++ rest) ++ Y) (hX : X.length = start) (hF : (encode s ++ rest).length = length)
    (hrest : rest = [] ∨ rest.head? = some 0) : readNullString block start length = s := by
  rw [hblock, readNullString_text h hX hF hrest]

/-- The fields after the checksum are those the parser asks for. -/
theorem IsHeader.constants {name : JsString} {size : Nat} {block front back : Bytes}
    (h : IsHeader name size block front back) :
    readNullString block 257 6 = lit "ustar" ∧ readNullString block 156 1 = lit "0" ∧
      readNullString block 157 100 = [] ∧ readNullString block 345 155 = [] := by
  obtain ⟨rest, -, hlength, hblock⟩ := h.block_eq
  obtain ⟨checksum, hchecksum⟩ : ∃ checksum, checksum =
      encode (padStart 6 (digits 8 (sum (front ++ List.replicate 8 0x20 ++ back)))) ++ rest := ⟨_, rfl⟩
  rw [← hchecksum] at hlength hblock
  rw [h.back_eq] at hblock
  have hfront := h.front_length
  have hzeros : zeros 247 = zeros 80 ++ zeros 155 ++ zeros 12 := by
    unfold zeros
    rw [List.replicate_append_replicate, List.replicate_append_replicate]
  have hmagic : (encode (lit "ustar")).length = 5 := by rw [encode_magic]; rfl
  have hversion : (encode (lit "00")).length = 2 := by rw [encode_version]; rfl
  have hempty : encode ([] : JsString) = [] := rfl
  have hreadable : Readable (lit "ustar") ∧ Readable (lit "0") ∧ Readable [] := by
    unfold Readable
    decide +kernel
  have hustar : block = (front ++ checksum ++ [0x30] ++ zeros 100) ++ (encode (lit "ustar") ++ [0]) ++
      (encode (lit "00") ++ zeros 247) := by
    rw [hblock]
    simp only [List.append_assoc]
  have htype : block = (front ++ checksum) ++ (encode (lit "0") ++ []) ++
      (zeros 100 ++ (encode (lit "ustar") ++ [0]) ++ encode (lit "00") ++ zeros 247) := by
    rw [hblock]
    simp only [List.append_assoc, List.append_nil]
    rfl
  have hlink : block = (front ++ checksum ++ [0x30]) ++ (encode [] ++ zeros 100) ++
      ((encode (lit "ustar") ++ [0]) ++ encode (lit "00") ++ zeros 247) := by
    rw [hblock, hempty]
    simp only [List.append_assoc, List.nil_append]
  have hprefix : block = (front ++ checksum ++ [0x30] ++ zeros 100 ++ (encode (lit "ustar") ++ [0]) ++
      encode (lit "00") ++ zeros 80) ++ (encode [] ++ zeros 155) ++ zeros 12 := by
    rw [hblock, hempty, hzeros]
    simp only [List.append_assoc, List.nil_append]
  refine ⟨readNullString_at hreadable.1 hustar ?_ (by rw [encode_magic]; rfl) (.inr rfl),
    readNullString_at hreadable.2.1 htype ?_ (by decide) (.inl rfl),
    readNullString_at hreadable.2.2 hlink ?_ (length_zeros 100) head_zeros,
    readNullString_at hreadable.2.2 hprefix ?_ (length_zeros 155) head_zeros⟩
  all_goals
    simp only [List.length_append, length_zeros, List.length_singleton]
    omega

theorem IsHeader.name {name : JsString} {size : Nat} {block front back : Bytes}
    (h : IsHeader name size block front back) (hname : Readable name) : readNullString block 0 100 = name := by
  have hfits := h.nameFits
  obtain ⟨rest, -, -, hblock⟩ := h.block_eq
  obtain ⟨mode, ids, mtime, -, -, -, -, hfront⟩ := h.front_eq
  have hparts : ∃ Y, block = [] ++ (encode name ++ zeros (100 - (encode name).length)) ++ Y := by
    rw [hblock, hfront]
    simp only [List.append_assoc, List.nil_append]
    exact ⟨_, rfl⟩
  obtain ⟨Y, hY⟩ := hparts
  refine readNullString_at hname hY rfl ?_ head_zeros
  rw [List.length_append, length_zeros]
  omega

theorem IsHeader.size {name : JsString} {size : Nat} {block front back : Bytes}
    (h : IsHeader name size block front back) : readOctal block 124 12 = .ok size := by
  have hfits := h.nameFits
  obtain ⟨rest, -, -, hblock⟩ := h.block_eq
  obtain ⟨mode, ids, mtime, hmode, hids, -, hsize, hfront⟩ := h.front_eq
  have hparts : ∃ Y, block = ((encode name ++ zeros (100 - (encode name).length)) ++ (mode ++ ids)) ++
      (encode (padStart 11 (digits 8 size)) ++ [0]) ++ Y := by
    rw [hblock, hfront]
    simp only [List.append_assoc]
    exact ⟨_, rfl⟩
  obtain ⟨Y, hY⟩ := hparts
  rw [hY]
  refine readOctal_field 11 ?_ hsize (.inr rfl)
  simp only [List.length_append, length_zeros]
  omega

/-- What a header holds is read from it. -/
theorem IsHeader.read {name : JsString} {size : Nat} {block front back : Bytes} (h : IsHeader name size block front back)
    (hname : Readable name) (hvalid : validateResourceRelativePath name = .ok name) {paths : List JsString}
    (hnew : name ∉ paths) : readHeader paths block = .ok (name, size) := by
  obtain ⟨hmagic, htype, hlink, hprefix⟩ := h.constants
  unfold readHeader
  rw [h.verifyChecksum, hmagic, htype, hlink, hprefix, h.name hname, hvalid, h.size]
  simp only [bind, Except.bind]
  rw [if_neg (by simp), if_neg (by simp), if_neg (by simp), if_neg hnew]
  rfl

end Leitwerk.PiResource
