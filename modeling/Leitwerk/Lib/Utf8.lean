import Leitwerk.Lib.JsString
/-!
# UTF-8 of strings of UTF-16 units

`encode` writes a half of a surrogate pair that stands alone as the replacement
character, and `decode` reads every maximal part that is no character as one. So
`decode` undoes `encode` on the strings that are well formed, and what it reads
is always well formed.
-/

namespace Utf8

/-- A byte sequence. -/
abbrev Bytes := List UInt8

def byte (n : Nat) : UInt8 := UInt8.ofNat n

def unit (n : Nat) : UInt16 := UInt16.ofNat n

def isHigh (u : UInt16) : Bool := 0xd800 ≤ u.toNat && u.toNat < 0xdc00

def isLow (u : UInt16) : Bool := 0xdc00 ≤ u.toNat && u.toNat < 0xe000

/-- The replacement character. -/
def replacement : Bytes := [0xef, 0xbf, 0xbd]

def replacementUnit : UInt16 := 0xfffd

/-- The bytes of a unit that is no half of a pair. -/
def encodeUnit (n : Nat) : Bytes :=
  if n < 0x80 then [byte n]
  else if n < 0x800 then [byte (0xc0 + n / 64), byte (0x80 + n % 64)]
  else [byte (0xe0 + n / 4096), byte (0x80 + n / 64 % 64), byte (0x80 + n % 64)]

/-- The bytes of a pair, whose offset from the first character above the basic plane is `n`. -/
def encodePair (n : Nat) : Bytes :=
  [byte (0xf0 + (n + 0x10000) / 262144), byte (0x80 + (n + 0x10000) / 4096 % 64),
    byte (0x80 + (n + 0x10000) / 64 % 64), byte (0x80 + (n + 0x10000) % 64)]

/-- `Buffer.from(s, "utf8")`. -/
def encode : JsString → Bytes
  | [] => []
  | u :: rest =>
    if isHigh u then
      match rest with
      | [] => replacement
      | v :: rest' =>
        if isLow v then encodePair ((u.toNat - 0xd800) * 1024 + (v.toNat - 0xdc00)) ++ encode rest'
        else replacement ++ encode (v :: rest')
    else if isLow u then replacement ++ encode rest
    else encodeUnit u.toNat ++ encode rest

/-- Whether no half of a pair stands alone. -/
def isWellFormed : JsString → Bool
  | [] => true
  | u :: rest =>
    if isHigh u then
      match rest with
      | [] => false
      | v :: rest' => isLow v && isWellFormed rest'
    else !isLow u && isWellFormed rest

def isTail (b : UInt8) : Bool := 0x80 ≤ b.toNat && b.toNat < 0xc0

/-- Whether `b` may follow the first byte `a` of three: no overlong form, no surrogate. -/
def isSecondOf3 (a b : UInt8) : Bool :=
  isTail b && (a.toNat != 0xe0 || 0xa0 ≤ b.toNat) && (a.toNat != 0xed || b.toNat < 0xa0)

/-- Whether `b` may follow the first byte `a` of four: no overlong form, nothing above U+10FFFF. -/
def isSecondOf4 (a b : UInt8) : Bool :=
  isTail b && (a.toNat != 0xf0 || 0x90 ≤ b.toNat) && (a.toNat != 0xf4 || b.toNat < 0x90)

/-- The units of a character above the basic plane. -/
def pairUnits (n : Nat) : JsString := [unit (0xd800 + (n - 0x10000) / 1024), unit (0xdc00 + (n - 0x10000) % 1024)]

/-- The character that begins with `a`, and what is left after it. A part that is
no character ends before the byte that may not follow. -/
def readChar (a : UInt8) (rest : Bytes) : JsString × Bytes :=
  if a.toNat < 0x80 then ([unit a.toNat], rest)
  else if 0xc2 ≤ a.toNat ∧ a.toNat < 0xe0 then
    match rest with
    | b :: rest' =>
      if isTail b then ([unit ((a.toNat - 0xc0) * 64 + (b.toNat - 0x80))], rest') else ([replacementUnit], rest)
    | [] => ([replacementUnit], [])
  else if 0xe0 ≤ a.toNat ∧ a.toNat < 0xf0 then
    match rest with
    | b :: c :: rest' =>
      if isSecondOf3 a b then
        if isTail c then
          ([unit ((a.toNat - 0xe0) * 4096 + (b.toNat - 0x80) * 64 + (c.toNat - 0x80))], rest')
        else ([replacementUnit], c :: rest')
      else ([replacementUnit], rest)
    | [b] => ([replacementUnit], if isSecondOf3 a b then [] else [b])
    | [] => ([replacementUnit], [])
  else if 0xf0 ≤ a.toNat ∧ a.toNat < 0xf5 then
    match rest with
    | b :: c :: d :: rest' =>
      if isSecondOf4 a b then
        if isTail c then
          if isTail d then
            (pairUnits ((a.toNat - 0xf0) * 262144 + (b.toNat - 0x80) * 4096 + (c.toNat - 0x80) * 64 +
              (d.toNat - 0x80)), rest')
          else ([replacementUnit], d :: rest')
        else ([replacementUnit], c :: d :: rest')
      else ([replacementUnit], rest)
    | [b, c] => ([replacementUnit], if isSecondOf4 a b then if isTail c then [] else [c] else [b, c])
    | [b] => ([replacementUnit], if isSecondOf4 a b then [] else [b])
    | [] => ([replacementUnit], [])
  else ([replacementUnit], rest)

/-- The characters of at most `n` steps. -/
def decodeWithin : Nat → Bytes → JsString
  | 0, _ => []
  | _, [] => []
  | n + 1, a :: rest => (readChar a rest).1 ++ decodeWithin n (readChar a rest).2

/-- `buffer.toString("utf8")`. -/
def decode (bytes : Bytes) : JsString := decodeWithin bytes.length bytes

theorem byte_toNat {n : Nat} (h : n < 256) : (byte n).toNat = n := by
  unfold byte
  rw [UInt8.toNat_ofNat']
  omega

theorem unit_toNat {n : Nat} (h : n < 65536) : (unit n).toNat = n := by
  unfold unit
  rw [UInt16.toNat_ofNat']
  omega

theorem unit_self (u : UInt16) : unit u.toNat = u := by
  unfold unit
  exact UInt16.ofNat_toNat

/-! ## Reading what was written -/

/-- What the decoder reads: a character of one to four bytes, or a part that is no character. -/
inductive Read (a : UInt8) (rest : Bytes) : JsString × Bytes → Prop
  | one (h : a.toNat < 0x80) : Read a rest ([unit a.toNat], rest)
  | two (b : UInt8) (rest' : Bytes) (h : rest = b :: rest') (ha : 0xc2 ≤ a.toNat ∧ a.toNat < 0xe0) (hb : isTail b = true) :
      Read a rest ([unit ((a.toNat - 0xc0) * 64 + (b.toNat - 0x80))], rest')
  | three (b c : UInt8) (rest' : Bytes) (h : rest = b :: c :: rest') (ha : 0xe0 ≤ a.toNat ∧ a.toNat < 0xf0)
      (hb : isSecondOf3 a b = true) (hc : isTail c = true) :
      Read a rest ([unit ((a.toNat - 0xe0) * 4096 + (b.toNat - 0x80) * 64 + (c.toNat - 0x80))], rest')
  | four (b c d : UInt8) (rest' : Bytes) (h : rest = b :: c :: d :: rest') (ha : 0xf0 ≤ a.toNat ∧ a.toNat < 0xf5)
      (hb : isSecondOf4 a b = true) (hc : isTail c = true) (hd : isTail d = true) :
      Read a rest (pairUnits ((a.toNat - 0xf0) * 262144 + (b.toNat - 0x80) * 4096 + (c.toNat - 0x80) * 64 +
        (d.toNat - 0x80)), rest')
  | replaced (left : Bytes) (h : left <:+ rest) : Read a rest ([replacementUnit], left)

theorem read_readChar (a : UInt8) (rest : Bytes) : Read a rest (readChar a rest) := by
  rw [readChar.eq_def]
  by_cases h1 : a.toNat < 0x80
  · rw [if_pos h1]
    exact .one h1
  rw [if_neg h1]
  by_cases h2 : 0xc2 ≤ a.toNat ∧ a.toNat < 0xe0
  · rw [if_pos h2]
    cases rest with
    | nil => exact .replaced _ List.nil_suffix
    | cons b rest =>
      dsimp only
      split
      · rename_i hb
        exact .two b rest rfl h2 hb
      · exact .replaced _ (List.suffix_refl _)
  rw [if_neg h2]
  by_cases h3 : 0xe0 ≤ a.toNat ∧ a.toNat < 0xf0
  · rw [if_pos h3]
    match rest with
    | [] => exact .replaced _ List.nil_suffix
    | [b] =>
      refine .replaced _ ?_
      split
      · exact List.nil_suffix
      · exact List.suffix_refl _
    | b :: c :: rest =>
      dsimp only
      split
      · rename_i hb
        split
        · rename_i hc
          exact .three b c rest rfl h3 hb hc
        · exact .replaced _ (List.suffix_cons _ _)
      · exact .replaced _ (List.suffix_refl _)
  rw [if_neg h3]
  by_cases h4 : 0xf0 ≤ a.toNat ∧ a.toNat < 0xf5
  · rw [if_pos h4]
    match rest with
    | [] => exact .replaced _ List.nil_suffix
    | [b] =>
      refine .replaced _ ?_
      split
      · exact List.nil_suffix
      · exact List.suffix_refl _
    | [b, c] =>
      refine .replaced _ ?_
      split
      · split
        · exact List.nil_suffix
        · exact List.suffix_cons _ _
      · exact List.suffix_refl _
    | b :: c :: d :: rest =>
      dsimp only
      split
      · rename_i hb
        split
        · rename_i hc
          split
          · rename_i hd
            exact .four b c d rest rfl h4 hb hc hd
          · exact .replaced _ ((List.suffix_cons _ _).trans (List.suffix_cons _ _))
        · exact .replaced _ (List.suffix_cons _ _)
      · exact .replaced _ (List.suffix_refl _)
  · rw [if_neg h4]
    exact .replaced _ (List.suffix_refl _)

theorem readChar_suffix (a : UInt8) (rest : Bytes) : (readChar a rest).2 <:+ rest := by
  have hread := read_readChar a rest
  generalize readChar a rest = read at hread
  cases hread with
  | one => exact List.suffix_refl _
  | two b rest' h => exact h ▸ List.suffix_cons _ _
  | three b c rest' h => exact h ▸ (List.suffix_cons _ _).trans (List.suffix_cons _ _)
  | four b c d rest' h => exact h ▸ ((List.suffix_cons _ _).trans (List.suffix_cons _ _)).trans (List.suffix_cons _ _)
  | replaced left h => exact h

theorem decodeWithin_enough {n : Nat} {bytes : Bytes} (h : bytes.length ≤ n) : decodeWithin n bytes = decode bytes := by
  induction n using Nat.strong_induction_on generalizing bytes with
  | _ n ih =>
    cases bytes with
    | nil => cases n <;> rfl
    | cons a rest =>
      obtain ⟨m, rfl⟩ : ∃ m, n = m + 1 := ⟨n - 1, by rw [List.length_cons] at h; omega⟩
      have hle := (readChar_suffix a rest).length_le
      rw [List.length_cons] at h
      have hleft : decodeWithin m (readChar a rest).2 = decode (readChar a rest).2 := ih m (by omega) (by omega)
      have hright : decodeWithin rest.length (readChar a rest).2 = decode (readChar a rest).2 := ih rest.length (by omega) hle
      show (readChar a rest).1 ++ decodeWithin m (readChar a rest).2 =
        (readChar a rest).1 ++ decodeWithin rest.length (readChar a rest).2
      rw [hleft, hright]

/-- One step of the decoder. -/
theorem decode_cons (a : UInt8) (rest : Bytes) :
    decode (a :: rest) = (readChar a rest).1 ++ decode (readChar a rest).2 := by
  rw [← decodeWithin_enough (readChar_suffix a rest).length_le]
  rfl

theorem decode_encodeUnit {u : UInt16} (hhigh : isHigh u = false) (hlow : isLow u = false) (rest : Bytes) :
    decode (encodeUnit u.toNat ++ rest) = u :: decode rest := by
  have hlt := u.toNat_lt
  have hsurrogate : ¬ (0xd800 ≤ u.toNat ∧ u.toNat < 0xe000) := by
    simp only [isHigh, isLow, Bool.and_eq_false_iff, decide_eq_false_iff_not] at hhigh hlow
    omega
  unfold encodeUnit
  by_cases h1 : u.toNat < 0x80
  · rw [if_pos h1]
    have ha := byte_toNat (n := u.toNat) (by omega)
    have hread : readChar (byte u.toNat) rest = ([u], rest) := by
      rw [readChar.eq_def, ha, if_pos h1, unit_self]
    rw [List.cons_append, List.nil_append, decode_cons, hread]
    rfl
  · rw [if_neg h1]
    by_cases h2 : u.toNat < 0x800
    · rw [if_pos h2]
      have ha := byte_toNat (n := 0xc0 + u.toNat / 64) (by omega)
      have hb := byte_toNat (n := 0x80 + u.toNat % 64) (by omega)
      have htail : isTail (byte (0x80 + u.toNat % 64)) = true := by
        simp only [isTail, hb, Bool.and_eq_true, decide_eq_true_eq]
        omega
      have hval : (0xc0 + u.toNat / 64 - 0xc0) * 64 + (0x80 + u.toNat % 64 - 0x80) = u.toNat := by omega
      have hread : readChar (byte (0xc0 + u.toNat / 64)) (byte (0x80 + u.toNat % 64) :: rest) = ([u], rest) := by
        rw [readChar.eq_def, ha, if_neg (by omega), if_pos (by omega)]
        simp only [hb, htail, if_true, hval, unit_self]
      rw [List.cons_append, List.cons_append, List.nil_append, decode_cons, hread]
      rfl
    · rw [if_neg h2]
      have ha := byte_toNat (n := 0xe0 + u.toNat / 4096) (by omega)
      have hb := byte_toNat (n := 0x80 + u.toNat / 64 % 64) (by omega)
      have hc := byte_toNat (n := 0x80 + u.toNat % 64) (by omega)
      have hsecond : isSecondOf3 (byte (0xe0 + u.toNat / 4096)) (byte (0x80 + u.toNat / 64 % 64)) = true := by
        simp only [isSecondOf3, isTail, ha, hb, Bool.and_eq_true, Bool.or_eq_true, decide_eq_true_eq, bne_iff_ne]
        omega
      have htail : isTail (byte (0x80 + u.toNat % 64)) = true := by
        simp only [isTail, hc, Bool.and_eq_true, decide_eq_true_eq]
        omega
      have hval : (0xe0 + u.toNat / 4096 - 0xe0) * 4096 + (0x80 + u.toNat / 64 % 64 - 0x80) * 64 +
          (0x80 + u.toNat % 64 - 0x80) = u.toNat := by omega
      have hread : readChar (byte (0xe0 + u.toNat / 4096))
          (byte (0x80 + u.toNat / 64 % 64) :: byte (0x80 + u.toNat % 64) :: rest) = ([u], rest) := by
        rw [readChar.eq_def, ha, if_neg (by omega), if_neg (by omega), if_pos (by omega)]
        simp only [hb, hc, hsecond, htail, if_true, hval, unit_self]
      rw [List.cons_append, List.cons_append, List.cons_append, List.nil_append, decode_cons, hread]
      rfl

theorem decode_encodePair {u v : UInt16} (hu : isHigh u) (hv : isLow v) (rest : Bytes) :
    decode (encodePair ((u.toNat - 0xd800) * 1024 + (v.toNat - 0xdc00)) ++ rest) = u :: v :: decode rest := by
  simp only [isHigh, isLow, Bool.and_eq_true, decide_eq_true_eq] at hu hv
  obtain ⟨m, hm⟩ : ∃ m, (u.toNat - 0xd800) * 1024 + (v.toNat - 0xdc00) = m := ⟨_, rfl⟩
  obtain ⟨n, hn⟩ : ∃ n, m + 0x10000 = n := ⟨_, rfl⟩
  rw [hm]
  have hle : n < 0x110000 := by omega
  have hge : 0x10000 ≤ n := by omega
  have ha := byte_toNat (n := 0xf0 + n / 262144) (by omega)
  have hb := byte_toNat (n := 0x80 + n / 4096 % 64) (by omega)
  have hc := byte_toNat (n := 0x80 + n / 64 % 64) (by omega)
  have hd := byte_toNat (n := 0x80 + n % 64) (by omega)
  have hsecond : isSecondOf4 (byte (0xf0 + n / 262144)) (byte (0x80 + n / 4096 % 64)) = true := by
    simp only [isSecondOf4, isTail, ha, hb, Bool.and_eq_true, Bool.or_eq_true, decide_eq_true_eq, bne_iff_ne]
    omega
  have htailc : isTail (byte (0x80 + n / 64 % 64)) = true := by
    simp only [isTail, hc, Bool.and_eq_true, decide_eq_true_eq]
    omega
  have htaild : isTail (byte (0x80 + n % 64)) = true := by
    simp only [isTail, hd, Bool.and_eq_true, decide_eq_true_eq]
    omega
  have hval : (0xf0 + n / 262144 - 0xf0) * 262144 + (0x80 + n / 4096 % 64 - 0x80) * 4096 +
      (0x80 + n / 64 % 64 - 0x80) * 64 + (0x80 + n % 64 - 0x80) = n := by
    rw [Nat.add_sub_cancel_left, Nat.add_sub_cancel_left, Nat.add_sub_cancel_left, Nat.add_sub_cancel_left]
    have hthird : n / 64 % 64 * 64 + n % 64 = n % 4096 := by
      rw [Nat.mul_comm, Nat.add_comm]
      exact (Nat.mod_mul (x := n) (a := 64) (b := 64)).symm
    have hsecond : n / 4096 % 64 * 4096 + n % 4096 = n % 262144 := by
      rw [Nat.mul_comm, Nat.add_comm]
      exact (Nat.mod_mul (x := n) (a := 4096) (b := 64)).symm
    have hfirst : n / 262144 * 262144 + n % 262144 = n := Nat.div_add_mod' n 262144
    rw [Nat.add_assoc, Nat.add_assoc, hthird, hsecond, hfirst]
  have hhigh : 0xd800 + (n - 0x10000) / 1024 = u.toNat := by omega
  have hlow : 0xdc00 + (n - 0x10000) % 1024 = v.toNat := by omega
  have hread : readChar (byte (0xf0 + n / 262144))
      (byte (0x80 + n / 4096 % 64) :: byte (0x80 + n / 64 % 64) :: byte (0x80 + n % 64) :: rest) = ([u, v], rest) := by
    rw [readChar.eq_def, ha, if_neg (by omega), if_neg (by omega), if_neg (by omega), if_pos (by omega)]
    simp only [hb, hc, hd, hsecond, htailc, htaild, if_true, hval, pairUnits, hhigh, hlow, unit_self]
  rw [encodePair, hn]
  simp only [List.cons_append, List.nil_append]
  rw [decode_cons, hread]
  rfl

theorem decode_encode {s : JsString} (h : isWellFormed s) : decode (encode s) = s := by
  fun_induction isWellFormed s with
  | case1 => rfl
  | case2 u hu => cases h
  | case3 u hu v rest ih =>
    rw [Bool.and_eq_true] at h
    have hstep : encode (u :: v :: rest) =
        encodePair ((u.toNat - 0xd800) * 1024 + (v.toNat - 0xdc00)) ++ encode rest := by
      rw [encode.eq_def]
      simp only [hu, h.1, if_true]
    rw [hstep, decode_encodePair hu h.1, ih h.2]
  | case4 u rest hu ih =>
    rw [Bool.and_eq_true, Bool.not_eq_true'] at h
    have hstep : encode (u :: rest) = encodeUnit u.toNat ++ encode rest := by
      rw [encode.eq_def]
      simp only [hu, h.1, if_false, Bool.false_eq_true]
    rw [hstep, decode_encodeUnit (by simpa using hu) h.1, ih h.2]

/-- Well-formed strings are told apart by their bytes. -/
theorem encode_injective {s t : JsString} (hs : isWellFormed s) (ht : isWellFormed t) (h : encode s = encode t) : s = t := by
  rw [← decode_encode hs, h, decode_encode ht]

/-! ## What is read -/

theorem isWellFormed_cons {u : UInt16} (hhigh : isHigh u = false) (hlow : isLow u = false) (s : JsString) :
    isWellFormed (u :: s) = isWellFormed s := by
  rw [isWellFormed.eq_def]
  simp [hhigh, hlow]

theorem isWellFormed_pair {u v : UInt16} (hu : isHigh u) (hv : isLow v) (s : JsString) :
    isWellFormed (u :: v :: s) = isWellFormed s := by
  rw [isWellFormed.eq_def]
  simp [hu, hv]

theorem not_surrogate {n : Nat} (h : n < 0xd800 ∨ 0xe000 ≤ n) (hn : n < 65536) :
    isHigh (unit n) = false ∧ isLow (unit n) = false := by
  have := unit_toNat hn
  simp only [isHigh, isLow, this, Bool.and_eq_false_iff, decide_eq_false_iff_not]
  omega

/-- A character that is read is well formed, and it is NUL only for the byte zero. -/
theorem readChar_units (a : UInt8) (rest : Bytes) :
    ((∃ u, (readChar a rest).1 = [u] ∧ isHigh u = false ∧ isLow u = false ∧ (u = 0 → a = 0)) ∨
      ∃ u v, (readChar a rest).1 = [u, v] ∧ isHigh u ∧ isLow v) := by
  have hread := read_readChar a rest
  generalize readChar a rest = read at hread
  have hzero : (0 : UInt16).toNat = 0 := rfl
  cases hread with
  | one ha =>
    left
    obtain ⟨hh, hl⟩ := not_surrogate (n := a.toNat) (by omega) (by omega)
    refine ⟨_, rfl, hh, hl, fun h => ?_⟩
    have hz := congrArg UInt16.toNat h
    rw [unit_toNat (by omega)] at hz
    exact UInt8.toNat_inj.1 hz
  | two b rest' _ ha hb =>
    left
    simp only [isTail, Bool.and_eq_true, decide_eq_true_eq] at hb
    obtain ⟨hh, hl⟩ := not_surrogate (n := (a.toNat - 0xc0) * 64 + (b.toNat - 0x80)) (by omega) (by omega)
    refine ⟨_, rfl, hh, hl, fun h => ?_⟩
    have hz := congrArg UInt16.toNat h
    rw [unit_toNat (by omega)] at hz
    omega
  | three b c rest' _ ha hb hc =>
    left
    simp only [isSecondOf3, isTail, Bool.and_eq_true, Bool.or_eq_true, decide_eq_true_eq, bne_iff_ne] at hb hc
    obtain ⟨hh, hl⟩ := not_surrogate
      (n := (a.toNat - 0xe0) * 4096 + (b.toNat - 0x80) * 64 + (c.toNat - 0x80)) (by omega) (by omega)
    refine ⟨_, rfl, hh, hl, fun h => ?_⟩
    have hz := congrArg UInt16.toNat h
    rw [unit_toNat (by omega)] at hz
    omega
  | four b c d rest' _ ha hb hc hd =>
    right
    simp only [isSecondOf4, isTail, Bool.and_eq_true, Bool.or_eq_true, decide_eq_true_eq, bne_iff_ne] at hb hc hd
    refine ⟨_, _, rfl, ?_, ?_⟩
    · rw [isHigh, unit_toNat (by omega), Bool.and_eq_true, decide_eq_true_eq, decide_eq_true_eq]
      omega
    · rw [isLow, unit_toNat (by omega), Bool.and_eq_true, decide_eq_true_eq, decide_eq_true_eq]
      omega
  | replaced left _ => exact .inl ⟨_, rfl, by decide, by decide, fun h => absurd h (by decide)⟩

theorem decode_wellFormed (bytes : Bytes) : isWellFormed (decode bytes) := by
  induction hn : bytes.length using Nat.strong_induction_on generalizing bytes with
  | _ n ih =>
    cases bytes with
    | nil => rfl
    | cons a rest =>
      have hlt := (readChar_suffix a rest).length_le
      rw [List.length_cons] at hn
      have hrest := ih (readChar a rest).2.length (by omega) (readChar a rest).2 rfl
      rw [decode_cons]
      rcases readChar_units a rest with ⟨u, hu, hh, hl, -⟩ | ⟨u, v, huv, hh, hl⟩
      · rw [hu, List.singleton_append, isWellFormed_cons hh hl]
        exact hrest
      · rw [huv]
        show isWellFormed (u :: v :: decode _)
        rw [isWellFormed_pair hh hl]
        exact hrest

/-- Bytes without a zero are read as a string without NUL. -/
theorem zero_notMem_decode {bytes : Bytes} (h : (0 : UInt8) ∉ bytes) : (0 : UInt16) ∉ decode bytes := by
  induction hn : bytes.length using Nat.strong_induction_on generalizing bytes with
  | _ n ih =>
    cases bytes with
    | nil => simp [decode, decodeWithin]
    | cons a rest =>
      have hsub := readChar_suffix a rest
      have hlt := hsub.length_le
      rw [List.length_cons] at hn
      rw [List.mem_cons, not_or] at h
      have hrest := ih (readChar a rest).2.length (by omega) (fun hm => h.2 (hsub.mem hm)) rfl
      rw [decode_cons, List.mem_append, not_or]
      refine ⟨?_, hrest⟩
      rcases readChar_units a rest with ⟨u, hu, -, -, hzero⟩ | ⟨u, v, huv, hh, hl⟩
      · rw [hu, List.mem_singleton]
        intro h0
        exact h.1 (hzero h0.symm).symm
      · rw [huv]
        intro hmem
        rcases List.mem_cons.1 hmem with h0 | hmem
        · rw [← h0] at hh
          exact absurd hh (by decide)
        · rw [← List.mem_singleton.1 hmem] at hl
          exact absurd hl (by decide)

/-- Bytes that stand for no text are none. -/
theorem decode_ne_nil {bytes : Bytes} (h : bytes ≠ []) : decode bytes ≠ [] := by
  obtain ⟨a, rest, rfl⟩ := List.exists_cons_of_ne_nil h
  rw [decode_cons]
  rcases readChar_units a rest with ⟨u, hu, -⟩ | ⟨u, v, huv, -⟩
  · simp [hu]
  · simp [huv]

theorem mem_encodeUnit_zero {u : UInt16} (h : (0 : UInt8) ∈ encodeUnit u.toNat) : u = 0 := by
  have hlt := u.toNat_lt
  have hbyte : ∀ n, 0 < n → n < 256 → (0 : UInt8) ≠ byte n := by
    intro n hpos hn heq
    have := congrArg UInt8.toNat heq
    rw [byte_toNat hn] at this
    have hzero : (0 : UInt8).toNat = 0 := rfl
    omega
  unfold encodeUnit at h
  split at h
  · by_contra hu
    have hpos : 0 < u.toNat := by
      rcases Nat.eq_zero_or_pos u.toNat with h0 | h0
      · exact absurd (UInt16.toNat_inj.1 h0) hu
      · exact h0
    exact hbyte _ hpos (by omega) (List.mem_singleton.1 h)
  · exfalso
    split at h
    · simp only [List.mem_cons, List.not_mem_nil, or_false] at h
      rcases h with h | h <;> exact hbyte _ (by omega) (by omega) h
    · simp only [List.mem_cons, List.not_mem_nil, or_false] at h
      rcases h with h | h | h <;> exact hbyte _ (by omega) (by omega) h

/-- Only NUL is written as a zero. -/
theorem zero_notMem_encode {s : JsString} (hs : isWellFormed s) (h : (0 : UInt16) ∉ s) : (0 : UInt8) ∉ encode s := by
  fun_induction isWellFormed s with
  | case1 => simp [encode]
  | case2 u hu => cases hs
  | case3 u hu v rest ih =>
    rw [Bool.and_eq_true] at hs
    simp only [List.mem_cons, not_or] at h
    have hstep : encode (u :: v :: rest) =
        encodePair ((u.toNat - 0xd800) * 1024 + (v.toNat - 0xdc00)) ++ encode rest := by
      rw [encode.eq_def]
      simp only [hu, hs.1, if_true]
    rw [hstep, List.mem_append, not_or]
    refine ⟨?_, ih hs.2 h.2.2⟩
    have hu' := hu
    have hv' := hs.1
    simp only [isHigh, isLow, Bool.and_eq_true, decide_eq_true_eq] at hu' hv'
    have hbyte : ∀ n, 0 < n → n < 256 → (0 : UInt8) ≠ byte n := by
      intro n hpos hn heq
      have := congrArg UInt8.toNat heq
      rw [byte_toNat hn] at this
      have hzero : (0 : UInt8).toNat = 0 := rfl
      omega
    intro hmem
    simp only [encodePair, List.mem_cons, List.not_mem_nil, or_false] at hmem
    rcases hmem with hm | hm | hm | hm <;> exact hbyte _ (by omega) (by omega) hm
  | case4 u rest hu ih =>
    rw [Bool.and_eq_true, Bool.not_eq_true'] at hs
    simp only [List.mem_cons, not_or] at h
    have hstep : encode (u :: rest) = encodeUnit u.toNat ++ encode rest := by
      rw [encode.eq_def]
      simp only [hu, hs.1, if_false, Bool.false_eq_true]
    rw [hstep, List.mem_append, not_or]
    exact ⟨fun hmem => h.1 (mem_encodeUnit_zero hmem).symm, ih hs.2 h.2⟩

/-- Where no byte stands for more than ASCII, no unit does. -/
theorem isWellFormed_of_ascii {s : JsString} (h : ∀ b ∈ encode s, b.toNat < 0x80) : isWellFormed s := by
  have hreplacement : ∀ {rest : Bytes}, ¬ ∀ b ∈ replacement ++ rest, b.toNat < 0x80 := fun hall =>
    absurd (hall 0xef (by simp [replacement])) (by decide)
  fun_induction encode s with
  | case1 => rfl
  | case2 u hu => exact absurd (by simpa using h) (@hreplacement [])
  | case3 u hu v rest' hv ih =>
    rw [isWellFormed_pair hu hv]
    exact ih fun b hb => h b (List.mem_append_right _ hb)
  | case4 u hu v rest' hv ih => exact absurd h hreplacement
  | case5 u rest' hu hlow ih => exact absurd h hreplacement
  | case6 u rest' hu hlow ih =>
    rw [isWellFormed_cons (by simpa using hu) (by simpa using hlow)]
    exact ih fun b hb => h b (List.mem_append_right _ hb)

end Utf8
