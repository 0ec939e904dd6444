import Mathlib.Data.List.Basic

namespace utf8

/-- A sequence that lacks `owed` bytes, of which the next is from `low` to `high`. -/
structure Pending where
  owed : Nat
  value : Nat
  low : Nat
  high : Nat
  deriving DecidableEq

/-- What a byte gives where no sequence is open: a character, a sequence that it opens, or the
replacement character where no sequence begins with it. -/
def first (byte : Nat) : List Char × Option Pending :=
  if byte < 0x80 then ([Char.ofNat byte], none)
  else if byte < 0xC2 then (['\uFFFD'], none)
  else if byte < 0xE0 then ([], some ⟨1, byte - 0xC0, 0x80, 0xBF⟩)
  else if byte = 0xE0 then ([], some ⟨2, 0, 0xA0, 0xBF⟩)
  else if byte = 0xED then ([], some ⟨2, 0xD, 0x80, 0x9F⟩)
  else if byte < 0xF0 then ([], some ⟨2, byte - 0xE0, 0x80, 0xBF⟩)
  else if byte = 0xF0 then ([], some ⟨3, 0, 0x90, 0xBF⟩)
  else if byte < 0xF4 then ([], some ⟨3, byte - 0xF0, 0x80, 0xBF⟩)
  else if byte = 0xF4 then ([], some ⟨3, 4, 0x80, 0x8F⟩)
  else (['\uFFFD'], none)

/-- What a byte gives in a sequence. One that cannot follow breaks it off, and is read anew. -/
def follow (pending : Pending) (byte : Nat) : List Char × Option Pending :=
  if pending.low ≤ byte ∧ byte ≤ pending.high then
    if pending.owed = 1 then ([Char.ofNat (pending.value * 64 + (byte - 0x80))], none)
    else ([], some ⟨pending.owed - 1, pending.value * 64 + (byte - 0x80), 0x80, 0xBF⟩)
  else ('\uFFFD' :: (first byte).1, (first byte).2)

/-- The text of some bytes. A sequence that is open at the end is replaced as a broken one. -/
def decode : Option Pending → List UInt8 → List Char
  | none, [] => []
  | some _, [] => ['\uFFFD']
  | none, byte :: bytes => (first byte.toNat).1 ++ decode (first byte.toNat).2 bytes
  | some pending, byte :: bytes => (follow pending byte.toNat).1 ++ decode (follow pending byte.toNat).2 bytes

def from_utf8_lossy (bytes : List UInt8) : List Char := decode none bytes

def encode (text : List Char) : List UInt8 := text.flatMap String.utf8EncodeChar

theorem encode_append (first second : List Char) : encode (first ++ second) = encode first ++ encode second :=
  List.flatMap_append

theorem encode_flatten (pieces : List (List Char)) : encode pieces.flatten = (pieces.map encode).flatten := by
  induction pieces with
  | nil => rfl
  | cons piece pieces ih => rw [List.flatten_cons, encode_append, ih, List.map_cons, List.flatten_cons]

/-- The first byte of two. -/
theorem first_of_two {lead : Nat} (hlow : 2 ≤ lead) (hhigh : lead < 32) :
    first (lead + 0xC0) = ([], some ⟨1, lead, 0x80, 0xBF⟩) := by
  rw [first, if_neg (by omega), if_neg (by omega), if_pos (by omega), Nat.add_sub_cancel]

/-- The first byte of three bounds the second where the value would be too small or a surrogate. -/
theorem first_of_three : ∀ lead < 16, first (lead + 0xE0) =
    ([], some ⟨2, lead, if lead = 0 then 0xA0 else 0x80, if lead = 0xD then 0x9F else 0xBF⟩) := by
  decide

/-- The first byte of four bounds the second where the value would be too small or too great. -/
theorem first_of_four : ∀ lead < 5, first (lead + 0xF0) =
    ([], some ⟨3, lead, if lead = 0 then 0x90 else 0x80, if lead = 4 then 0x8F else 0xBF⟩) := by
  decide

variable {bytes : List UInt8}

theorem decode_first {byte : Nat} (hbyte : byte < 256) :
    decode none (UInt8.ofNat byte :: bytes) = (first byte).1 ++ decode (first byte).2 bytes := by
  rw [decode, UInt8.toNat_ofNat_of_lt' hbyte]

/-- A byte that may follow closes a sequence that lacks only it. -/
theorem decode_last {value low high rest : Nat} (hrest : rest < 64) (hlow : low ≤ rest + 0x80)
    (hhigh : rest + 0x80 ≤ high) :
    decode (some ⟨1, value, low, high⟩) (UInt8.ofNat (rest + 0x80) :: bytes) =
      Char.ofNat (value * 64 + rest) :: decode none bytes := by
  rw [decode, UInt8.toNat_ofNat_of_lt' (by simp only [UInt8.size]; omega), follow, if_pos ⟨hlow, hhigh⟩, if_pos rfl,
    Nat.add_sub_cancel]
  rfl

/-- A byte that may follow leaves a sequence that lacks more with one less to come. -/
theorem decode_next {owed value low high rest : Nat} (hrest : rest < 64) (hlow : low ≤ rest + 0x80)
    (hhigh : rest + 0x80 ≤ high) :
    decode (some ⟨owed + 2, value, low, high⟩) (UInt8.ofNat (rest + 0x80) :: bytes) =
      decode (some ⟨owed + 1, value * 64 + rest, 0x80, 0xBF⟩) bytes := by
  have howed : owed + 2 ≠ 1 := by omega
  rw [decode, UInt8.toNat_ofNat_of_lt' (by simp only [UInt8.size]; omega), follow, if_pos ⟨hlow, hhigh⟩, if_neg howed,
    Nat.add_sub_cancel]
  rfl

/-- What encodes a character is read as it. -/
theorem decode_char (c : Char) : decode none (String.utf8EncodeChar c ++ bytes) = c :: decode none bytes := by
  have hvalid : c.val.toNat < 0xD800 ∨ 0xDFFF < c.val.toNat ∧ c.val.toNat < 0x110000 := c.valid
  have hchar : Char.ofNat c.val.toNat = c := Char.ofNat_toNat c
  generalize hvalue : c.val.toNat = v at hvalid hchar
  rw [String.utf8EncodeChar, hvalue]
  split
  · rw [List.singleton_append, decode_first (by omega), first, if_pos (by omega), hchar]
    rfl
  split
  · rw [List.cons_append, List.singleton_append, decode_first (by omega), first_of_two (by omega) (by omega),
      List.nil_append, decode_last (by omega) (by omega) (by omega), ← hchar]
    congr 2
    omega
  split
  · rw [List.cons_append, List.cons_append, List.singleton_append, decode_first (by omega),
      first_of_three _ (by omega), List.nil_append, decode_next (by omega) (by split <;> omega) (by split <;> omega),
      decode_last (by omega) (by omega) (by omega), ← hchar]
    congr 2
    omega
  · have hlead : v / 262144 % 8 = v / 262144 := by omega
    rw [List.cons_append, List.cons_append, List.cons_append, List.singleton_append, hlead, decode_first (by omega),
      first_of_four _ (by omega), List.nil_append, decode_next (by omega) (by split <;> omega) (by split <;> omega),
      decode_next (by omega) (by omega) (by omega), decode_last (by omega) (by omega) (by omega), ← hchar]
    congr 2
    omega

/-- Text that is encoded is read again. -/
theorem from_utf8_lossy_encode (text : List Char) : from_utf8_lossy (encode text) = text := by
  induction text with
  | nil => rfl
  | cons c text ih =>
    have hchar := @decode_char (encode text) c
    rw [from_utf8_lossy, encode, List.flatMap_cons]
    exact hchar.trans (congrArg (c :: ·) ih)

end utf8
