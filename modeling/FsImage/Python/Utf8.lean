import FsImage.Python.Text

/-! UTF-8 as Python's `str.encode()` and strict `bytes.decode()` apply it.

The decoder accepts exactly the shortest encodings of scalar values. A stray
continuation byte, a truncated sequence, an overlong form, a surrogate or a
value past `U+10FFFF` makes it fail where Python raises `UnicodeDecodeError`:
the bounds on the decoded value below exclude the same sequences as CPython's
table of valid first and second bytes. Decoding an encoding gives the text back.
-/

set_option autoImplicit false

namespace FsImage.Python

/-- A continuation byte, `10xxxxxx`. -/
def isCont (b : UInt8) : Bool := 0x80 ≤ b.toNat && b.toNat < 0xC0

/-- The character of scalar value `v`, when `v` is at least `least` (the
smallest value that needs this many bytes) and is a scalar value at all. -/
def scalar? (v least : Nat) : Option Char :=
  if least ≤ v ∧ v < 0x110000 ∧ (v < 0xD800 ∨ 0xE000 ≤ v) then some (Char.ofNat v) else none

/-- What a leading byte announces: how many continuation bytes follow, the
value bits it carries, and the least value a sequence of that length may
encode. -/
structure Lead where
  count : Nat
  bits : Nat
  least : Nat

/-- The leading bytes UTF-8 allows; `none` for a continuation byte or
`F8`–`FF`. -/
def leadByte (b : Nat) : Option Lead :=
  if b < 0x80 then some ⟨0, b, 0⟩
  else if b < 0xC0 then none
  else if b < 0xE0 then some ⟨1, b - 0xC0, 0x80⟩
  else if b < 0xF0 then some ⟨2, b - 0xE0, 0x800⟩
  else if b < 0xF8 then some ⟨3, b - 0xF0, 0x10000⟩
  else none

/-- Reads `n` continuation bytes onto the value `acc`. -/
def readConts : Nat → Nat → Bytes → Option (Nat × Bytes)
  | 0, acc, rest => some (acc, rest)
  | n + 1, acc, b :: rest => if isCont b then readConts n (acc * 0x40 + (b.toNat - 0x80)) rest else none
  | _ + 1, _, [] => none

/-- Reads one encoded character off the front. -/
def readChar : Bytes → Option (Char × Bytes)
  | [] => none
  | b0 :: rest =>
    (leadByte b0.toNat).bind fun lead =>
      (readConts lead.count lead.bits rest).bind fun read =>
        (scalar? read.1 lead.least).map (·, read.2)

/-- The decoding loop, allowed `fuel` characters. -/
def utf8DecodeFuel : Nat → Bytes → Option Str
  | 0, bytes => if bytes = [] then some [] else none
  | _ + 1, [] => some []
  | fuel + 1, b :: bs =>
    (readChar (b :: bs)).bind fun read => (utf8DecodeFuel fuel read.2).map (read.1 :: ·)

/-- `bytes.decode()`: `none` where Python raises `UnicodeDecodeError`. Every
character takes a byte at least, so as many passes as bytes are enough. -/
def utf8Decode (bytes : Bytes) : Option Str := utf8DecodeFuel bytes.length bytes

@[simp] theorem utf8Decode_nil : utf8Decode [] = some [] := rfl

/-- The UTF-8 encoding of one character. -/
def utf8EncodeChar (c : Char) : Bytes :=
  let v := c.toNat
  if v < 0x80 then [UInt8.ofNat v]
  else if v < 0x800 then [UInt8.ofNat (0xC0 + v / 0x40), UInt8.ofNat (0x80 + v % 0x40)]
  else if v < 0x10000 then
    [UInt8.ofNat (0xE0 + v / 0x1000), UInt8.ofNat (0x80 + v / 0x40 % 0x40), UInt8.ofNat (0x80 + v % 0x40)]
  else
    [UInt8.ofNat (0xF0 + v / 0x40000), UInt8.ofNat (0x80 + v / 0x1000 % 0x40),
      UInt8.ofNat (0x80 + v / 0x40 % 0x40), UInt8.ofNat (0x80 + v % 0x40)]

/-- `s.encode()`. -/
def utf8Encode (s : Str) : Bytes := s.flatMap utf8EncodeChar

@[simp] theorem utf8Encode_nil : utf8Encode [] = [] := rfl

@[simp] theorem utf8Encode_cons (c : Char) (s : Str) :
    utf8Encode (c :: s) = utf8EncodeChar c ++ utf8Encode s := rfl

@[simp] theorem utf8Encode_append (s t : Str) : utf8Encode (s ++ t) = utf8Encode s ++ utf8Encode t := by
  simp [utf8Encode]

theorem scalar?_toNat (c : Char) (least : Nat) (atLeast : least ≤ c.toNat) :
    scalar? c.toNat least = some c := by
  have valid : c.toNat < 0xD800 ∨ (0xDFFF < c.toNat ∧ c.toNat < 0x110000) := c.valid
  rw [scalar?, if_pos (by omega), Char.ofNat_toNat]

theorem byte_toNat (n : Nat) (small : n < 0x100) : (UInt8.ofNat n).toNat = n :=
  UInt8.toNat_ofNat_of_lt small

theorem isCont_ofNat (n : Nat) (small : n < 0x40) : isCont (UInt8.ofNat (0x80 + n)) = true := by
  simp [isCont, byte_toNat _ (by omega : 0x80 + n < 0x100)]; omega

theorem readConts_length (n acc : Nat) (bytes : Bytes) (read : Nat × Bytes)
    (ok : readConts n acc bytes = some read) : read.2.length + n = bytes.length := by
  induction n generalizing acc bytes with
  | zero => cases ok; rfl
  | succ n ih =>
    cases bytes with
    | nil => cases ok
    | cons b rest =>
      simp only [readConts] at ok
      split at ok
      · have := ih _ _ ok; simp; omega
      · cases ok

theorem readChar_shorter (bytes : Bytes) (read : Char × Bytes) (ok : readChar bytes = some read) :
    read.2.length < bytes.length := by
  cases bytes with
  | nil => cases ok
  | cons b0 rest =>
    simp only [readChar, Option.bind_eq_some, Option.map_eq_some'] at ok
    obtain ⟨lead, -, conts, readOk, c, -, rfl⟩ := ok
    have := readConts_length _ _ _ _ readOk
    simp; omega

theorem utf8DecodeFuel_enough (fuel : Nat) (bytes : Bytes) (enough : bytes.length ≤ fuel) :
    utf8DecodeFuel fuel bytes = utf8Decode bytes := by
  induction fuel using Nat.strong_induction_on generalizing bytes with
  | _ fuel ih =>
    cases bytes with
    | nil => cases fuel <;> rfl
    | cons b bs =>
      simp only [List.length_cons] at enough
      obtain ⟨fuel, rfl⟩ : ∃ rest, fuel = rest + 1 := ⟨fuel - 1, by omega⟩
      rw [utf8Decode, List.length_cons, utf8DecodeFuel, utf8DecodeFuel]
      cases h : readChar (b :: bs) with
      | none => rfl
      | some read =>
        have shorter := readChar_shorter _ _ h
        simp only [Option.some_bind, List.length_cons] at shorter ⊢
        rw [ih fuel (by omega) read.2 (by omega), ih bs.length (by omega) read.2 (by omega)]

/-- The decoder reads one character and decodes what follows it. -/
theorem utf8Decode_cons (b : UInt8) (bs : Bytes) :
    utf8Decode (b :: bs) = (readChar (b :: bs)).bind fun read => (utf8Decode read.2).map (read.1 :: ·) := by
  rw [utf8Decode, List.length_cons, utf8DecodeFuel]
  cases h : readChar (b :: bs) with
  | none => rfl
  | some read =>
    have shorter := readChar_shorter _ _ h
    simp only [Option.some_bind, List.length_cons] at shorter ⊢
    rw [utf8DecodeFuel_enough bs.length read.2 (by omega)]

@[simp] theorem readConts_zero (acc : Nat) (rest : Bytes) : readConts 0 acc rest = some (acc, rest) := rfl

theorem readConts_succ_cont (n acc m : Nat) (rest : Bytes) :
    readConts (n + 1) acc (UInt8.ofNat (0x80 + m % 0x40) :: rest) = readConts n (acc * 0x40 + m % 0x40) rest := by
  have small : m % 0x40 < 0x40 := Nat.mod_lt _ (by decide)
  rw [readConts, if_pos (isCont_ofNat _ small), byte_toNat _ (by omega), Nat.add_sub_cancel_left]

/-- Reading an encoded character gives it back with the rest untouched. -/
theorem readChar_encodeChar_append (c : Char) (rest : Bytes) :
    readChar (utf8EncodeChar c ++ rest) = some (c, rest) := by
  have valid : c.toNat < 0xD800 ∨ (0xDFFF < c.toNat ∧ c.toNat < 0x110000) := c.valid
  simp only [utf8EncodeChar]
  split
  · simp (disch := omega) only [List.singleton_append, readChar, byte_toNat, leadByte, if_pos, Option.some_bind,
      readConts, scalar?_toNat]
    rfl
  split
  · simp (disch := omega) only [List.cons_append, List.nil_append, readChar, byte_toNat, leadByte, if_pos, if_neg,
      Option.some_bind, readConts_succ_cont, readConts_zero]
    rw [show (0xC0 + c.toNat / 0x40 - 0xC0) * 0x40 + c.toNat % 0x40 = c.toNat by omega,
      scalar?_toNat c _ (by omega)]
    rfl
  split
  · simp (disch := omega) only [List.cons_append, List.nil_append, readChar, byte_toNat, leadByte, if_pos, if_neg,
      Option.some_bind, readConts_succ_cont, readConts_zero]
    rw [show ((0xE0 + c.toNat / 0x1000 - 0xE0) * 0x40 + c.toNat / 0x40 % 0x40) * 0x40 + c.toNat % 0x40 =
      c.toNat by omega, scalar?_toNat c _ (by omega)]
    rfl
  · simp (disch := omega) only [List.cons_append, List.nil_append, readChar, byte_toNat, leadByte, if_pos, if_neg,
      Option.some_bind, readConts_succ_cont, readConts_zero]
    rw [show (((0xF0 + c.toNat / 0x40000 - 0xF0) * 0x40 + c.toNat / 0x1000 % 0x40) * 0x40 +
      c.toNat / 0x40 % 0x40) * 0x40 + c.toNat % 0x40 = c.toNat by omega, scalar?_toNat c _ (by omega)]
    rfl

/-- Decoding reads an encoded character back and goes on with the rest. -/
theorem utf8Decode_encodeChar_append (c : Char) (rest : Bytes) :
    utf8Decode (utf8EncodeChar c ++ rest) = (utf8Decode rest).map (c :: ·) := by
  obtain ⟨b, bs, split⟩ : ∃ b bs, utf8EncodeChar c ++ rest = b :: bs := by
    simp only [utf8EncodeChar]; split <;> [skip; split <;> [skip; split]] <;> exact ⟨_, _, rfl⟩
  rw [split, utf8Decode_cons, ← split, readChar_encodeChar_append]
  rfl

/-- Decoding an encoding gives the text back, whatever follows it. -/
theorem utf8Decode_encode_append (s : Str) (rest : Bytes) :
    utf8Decode (utf8Encode s ++ rest) = (utf8Decode rest).map (s ++ ·) := by
  induction s with
  | nil => simp
  | cons c s ih =>
    rw [utf8Encode_cons, List.append_assoc, utf8Decode_encodeChar_append, ih, Option.map_map]
    rfl

theorem utf8Decode_encode (s : Str) : utf8Decode (utf8Encode s) = some s := by
  simpa using utf8Decode_encode_append s []

theorem utf8Encode_injective (s t : Str) (same : utf8Encode s = utf8Encode t) : s = t := by
  simpa [utf8Decode_encode] using congrArg utf8Decode same

/-- A character below `0x80` is its own byte; every byte of a longer
sequence has its high bit set. -/
theorem utf8EncodeChar_bytes (c : Char) (b : UInt8) (member : b ∈ utf8EncodeChar c) :
    b.toNat = c.toNat ∨ 0x80 ≤ b.toNat := by
  have valid : c.toNat < 0xD800 ∨ (0xDFFF < c.toNat ∧ c.toNat < 0x110000) := c.valid
  unfold utf8EncodeChar at member
  dsimp only at member
  split_ifs at member <;> simp only [List.mem_cons, List.not_mem_nil, or_false] at member <;>
    rcases member with rfl | rfl | rfl | rfl <;> rw [byte_toNat _ (by omega)] <;> omega

theorem zero_not_mem_utf8Encode (s : Str) (noNul : '\x00' ∉ s) : (0 : UInt8) ∉ utf8Encode s := by
  simp only [utf8Encode, List.mem_flatMap, not_exists, not_and]
  intro c member zero
  rcases utf8EncodeChar_bytes c 0 zero with same | high
  · have isNul : c = '\x00' := by rw [← Char.ofNat_toNat c, ← same]; rfl
    exact noNul (isNul ▸ member)
  · exact absurd high (by decide)

end FsImage.Python
