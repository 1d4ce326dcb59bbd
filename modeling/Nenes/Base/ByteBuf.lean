import Nenes.Base.Unicode

set_option autoImplicit false

namespace ByteBuf

abbrev Bytes := List UInt8
abbrev JString := Unicode.Units

def ofString (s : String) : JString := Unicode.encodeUtf16 s.toList

-- Java's narrowing and wrapping of integers; reads and writes below work on
-- the readable bytes only and return what stays readable.
def toInt (x : Int) : Int := x.bmod (2 ^ 32)
def toLong (x : Int) : Int := x.bmod (2 ^ 64)

def writeInt (x : Int) : Bytes := BigEndian.encode 4 (BigEndian.unsigned 32 x)
def writeLong (x : Int) : Bytes := BigEndian.encode 8 (BigEndian.unsigned 64 x)

-- none is the IndexOutOfBoundsException or IllegalArgumentException of a read
-- past the writer index or of a negative length.
def readBytes (length : Int) (buf : Bytes) : Option (Bytes × Bytes) :=
  if 0 ≤ length ∧ length ≤ buf.length then some (buf.take length.toNat, buf.drop length.toNat) else none

def readInt (buf : Bytes) : Option (Int × Bytes) :=
  (readBytes 4 buf).map fun read => (BigEndian.signed 32 (BigEndian.value read.1), read.2)

def readLong (buf : Bytes) : Option (Int × Bytes) :=
  (readBytes 8 buf).map fun read => (BigEndian.signed 64 (BigEndian.value read.1), read.2)

def getBytes (s : JString) : Bytes := Unicode.encodeUtf8 (Unicode.decodeUtf16 s)
def toStringUtf8 (buf : Bytes) : JString := Unicode.encodeUtf16 (Unicode.decodeUtf8 buf)

theorem to_int_small (x : Int) (low : -2 ^ 31 ≤ x) (high : x < 2 ^ 31) : toInt x = x :=
  Int.bmod_eq_of_le_mul_two (by omega) (by omega)

theorem to_long_small (x : Int) (low : -2 ^ 63 ≤ x) (high : x < 2 ^ 63) : toLong x = x :=
  Int.bmod_eq_of_le_mul_two (by omega) (by omega)

theorem to_int_range (x : Int) : -2 ^ 31 ≤ toInt x ∧ toInt x < 2 ^ 31 := by
  have low : -((2 ^ 32 : Nat) : Int) / 2 ≤ x.bmod (2 ^ 32) := Int.le_bmod (by decide)
  have high : x.bmod (2 ^ 32) < ((2 ^ 32 : Nat) + 1) / 2 := Int.bmod_lt (by decide)
  simp only [toInt]
  omega

theorem to_long_range (x : Int) : -2 ^ 63 ≤ toLong x ∧ toLong x < 2 ^ 63 := by
  have low : -((2 ^ 64 : Nat) : Int) / 2 ≤ x.bmod (2 ^ 64) := Int.le_bmod (by decide)
  have high : x.bmod (2 ^ 64) < ((2 ^ 64 : Nat) + 1) / 2 := Int.bmod_lt (by decide)
  simp only [toLong]
  omega

@[simp] theorem write_int_length (x : Int) : (writeInt x).length = 4 := BigEndian.encode_length _ _
@[simp] theorem write_long_length (x : Int) : (writeLong x).length = 8 := BigEndian.encode_length _ _

theorem read_bytes_append (field rest : Bytes) (length : Int) (sized : length = field.length) :
    readBytes length (field ++ rest) = some (field, rest) := by
  have inside : 0 ≤ length ∧ length ≤ (field ++ rest).length := by
    rw [List.length_append]
    omega
  have size : length.toNat = field.length := by omega
  rw [readBytes, if_pos inside, size, List.take_left, List.drop_left]

theorem read_bytes_some (length : Int) (buf field rest : Bytes) (read : readBytes length buf = some (field, rest)) :
    buf = field ++ rest ∧ length = field.length := by
  by_cases inside : 0 ≤ length ∧ length ≤ buf.length
  · rw [readBytes, if_pos inside] at read
    cases read
    refine ⟨(List.take_append_drop _ _).symm, ?_⟩
    rw [List.length_take]
    omega
  · rw [readBytes, if_neg inside] at read
    cases read

theorem read_int_write (x : Int) (rest : Bytes) (low : -2 ^ 31 ≤ x) (high : x < 2 ^ 31) :
    readInt (writeInt x ++ rest) = some (x, rest) := by
  have bound : BigEndian.unsigned 32 x < 256 ^ 4 := by simp only [BigEndian.unsigned]; omega
  rw [readInt, read_bytes_append _ _ 4 (by simp), Option.map_some, writeInt, BigEndian.value_encode,
    Nat.mod_eq_of_lt bound, BigEndian.signed_unsigned 32 x (by omega) (by omega)]

theorem write_int_same (x y : Int) : writeInt x = writeInt y ↔ x % 2 ^ 32 = y % 2 ^ 32 := by
  have range : ∀ z : Int, BigEndian.unsigned 32 z < 256 ^ 4 ∧ (BigEndian.unsigned 32 z : Int) = z % 2 ^ 32 := by
    intro z
    simp only [BigEndian.unsigned]
    omega
  constructor
  · intro same
    have values := congrArg BigEndian.value same
    rw [writeInt, writeInt, BigEndian.value_encode, BigEndian.value_encode, Nat.mod_eq_of_lt (range x).1,
      Nat.mod_eq_of_lt (range y).1] at values
    rw [← (range x).2, ← (range y).2, values]
  · intro same
    rw [writeInt, writeInt, BigEndian.unsigned, BigEndian.unsigned, same]

theorem read_long_write (x : Int) (rest : Bytes) (low : -2 ^ 63 ≤ x) (high : x < 2 ^ 63) :
    readLong (writeLong x ++ rest) = some (x, rest) := by
  have bound : BigEndian.unsigned 64 x < 256 ^ 8 := by simp only [BigEndian.unsigned]; omega
  rw [readLong, read_bytes_append _ _ 8 (by simp), Option.map_some, writeLong, BigEndian.value_encode,
    Nat.mod_eq_of_lt bound, BigEndian.signed_unsigned 64 x (by omega) (by omega)]

theorem read_int_some (buf rest : Bytes) (x : Int) (read : readInt buf = some (x, rest)) :
    buf = writeInt x ++ rest ∧ -2 ^ 31 ≤ x ∧ x < 2 ^ 31 := by
  obtain ⟨⟨field, tail⟩, fieldRead, same⟩ := Option.map_eq_some_iff.mp read
  obtain ⟨rfl, rfl⟩ := Prod.mk.inj same
  obtain ⟨split, width⟩ := read_bytes_some 4 buf field tail fieldRead
  have length : field.length = 4 := by omega
  have bound : BigEndian.value field < 2 ^ 32 := by simpa [length] using BigEndian.value_bound field
  refine ⟨?_, to_int_range _⟩
  rw [writeInt, BigEndian.unsigned_signed 32 _ bound, ← length, BigEndian.encode_value, split]

theorem read_long_some (buf rest : Bytes) (x : Int) (read : readLong buf = some (x, rest)) :
    buf = writeLong x ++ rest ∧ -2 ^ 63 ≤ x ∧ x < 2 ^ 63 := by
  obtain ⟨⟨field, tail⟩, fieldRead, same⟩ := Option.map_eq_some_iff.mp read
  obtain ⟨rfl, rfl⟩ := Prod.mk.inj same
  obtain ⟨split, width⟩ := read_bytes_some 8 buf field tail fieldRead
  have length : field.length = 8 := by omega
  have bound : BigEndian.value field < 2 ^ 64 := by simpa [length] using BigEndian.value_bound field
  refine ⟨?_, to_long_range _⟩
  rw [writeLong, BigEndian.unsigned_signed 64 _ bound, ← length, BigEndian.encode_value, split]

theorem get_bytes_text (text : List Char) : getBytes (Unicode.encodeUtf16 text) = Unicode.encodeUtf8 text := by
  rw [getBytes, Unicode.decode_encode_utf16]

theorem to_string_utf8_text (text : List Char) : toStringUtf8 (Unicode.encodeUtf8 text) = Unicode.encodeUtf16 text := by
  rw [toStringUtf8, Unicode.decode_encode_utf8]

theorem starts_with_ascii (text : List Char) (buf : Bytes) (ascii : ∀ c ∈ text, c.toNat < 0x80) :
    Unicode.encodeUtf16 text <+: toStringUtf8 buf ↔ Unicode.asciiBytes text <+: buf := by
  rw [toStringUtf8, Unicode.encode_utf16_ascii_prefix text _ ascii, Unicode.decode_utf8_ascii_prefix text buf ascii]

theorem to_string_utf8_ascii_mem (u : UInt16) (buf : Bytes) (ascii : u.toNat < 0x80) :
    u ∈ toStringUtf8 buf ↔ UInt8.ofNat u.toNat ∈ buf := by
  have code : (Char.ofNat u.toNat).toNat = u.toNat := Unicode.char_of_code _ (by omega)
  rw [toStringUtf8, Unicode.encode_utf16_ascii_mem u _ ascii, Unicode.decode_utf8_ascii_mem _ buf (by omega), code]

end ByteBuf
