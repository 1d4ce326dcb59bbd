import Mathlib.Data.Nat.Init
import Mathlib.Algebra.Order.Group.Nat
import Mathlib.Algebra.Ring.Int.Defs

set_option autoImplicit false

namespace BigEndian

abbrev Bytes := List UInt8

-- Most significant byte first, as DataOutput and Netty's ByteBuf write it.
def value : Bytes → Nat
  | [] => 0
  | byte :: tail => byte.toNat * 256 ^ tail.length + value tail

def encode : Nat → Nat → Bytes
  | 0, _ => []
  | width + 1, n => UInt8.ofNat (n / 256 ^ width) :: encode width n

@[simp] theorem encode_length (width n : Nat) : (encode width n).length = width := by
  induction width with
  | zero => rfl
  | succ width ih => simp [encode, ih]

theorem value_encode (width n : Nat) : value (encode width n) = n % 256 ^ width := by
  induction width with
  | zero => simp [encode, value, Nat.mod_one]
  | succ width ih =>
      have byte : (UInt8.ofNat (n / 256 ^ width)).toNat = n / 256 ^ width % 256 := by simp
      rw [encode, value, encode_length, ih, byte, Nat.pow_succ, Nat.mod_mul, Nat.add_comm, Nat.mul_comm]

theorem value_bound (bytes : Bytes) : value bytes < 256 ^ bytes.length := by
  induction bytes with
  | nil => simp [value]
  | cons byte tail ih =>
      have small : byte.toNat < 256 := byte.toNat_lt
      have scaled : byte.toNat * 256 ^ tail.length ≤ 255 * 256 ^ tail.length :=
        Nat.mul_le_mul_right _ (by omega)
      rw [value, List.length_cons, Nat.pow_succ]
      omega

theorem encode_shifted (width a n : Nat) : encode width (a * 256 ^ width + n) = encode width n := by
  induction width generalizing a with
  | zero => rfl
  | succ width ih =>
      have split : a * 256 ^ (width + 1) + n = (a * 256) * 256 ^ width + n := by
        rw [Nat.pow_succ, Nat.mul_assoc, Nat.mul_comm 256]
      have quotient : ((a * 256) * 256 ^ width + n) / 256 ^ width = a * 256 + n / 256 ^ width := by
        rw [Nat.add_comm, Nat.add_mul_div_right _ _ (Nat.pow_pos (by omega)), Nat.add_comm]
      rw [split, encode, encode, ih, quotient]
      congr 1
      apply UInt8.toNat_inj.mp
      simp

theorem encode_value (bytes : Bytes) : encode bytes.length (value bytes) = bytes := by
  induction bytes with
  | nil => rfl
  | cons byte tail ih =>
      have positive : 0 < 256 ^ tail.length := Nat.pow_pos (by omega)
      have top : (byte.toNat * 256 ^ tail.length + value tail) / 256 ^ tail.length = byte.toNat := by
        rw [Nat.add_comm, Nat.add_mul_div_right _ _ positive, Nat.div_eq_of_lt (value_bound tail), Nat.zero_add]
      rw [List.length_cons, value, encode, top, encode_shifted, ih]
      simp

-- Two's complement reading and writing of a machine integer of the given width.
def signed (bits n : Nat) : Int := Int.bmod n (2 ^ bits)

def unsigned (bits : Nat) (x : Int) : Nat := (x % 2 ^ bits).toNat

theorem signed_unsigned (bits : Nat) (x : Int) (low : -(2 ^ bits) ≤ x * 2) (high : x * 2 < 2 ^ bits) :
    signed bits (unsigned bits x) = x := by
  have positive : (0 : Int) < 2 ^ bits := Int.pow_pos (by decide)
  have reduced : ((x % 2 ^ bits).toNat : Int) = x % ((2 ^ bits : Nat) : Int) := by
    rw [Int.toNat_of_nonneg (Int.emod_nonneg x (Int.ne_of_gt positive))]
    simp
  rw [signed, unsigned, reduced, Int.emod_bmod]
  exact Int.bmod_eq_of_le_mul_two (by simpa using low) (by simpa using high)

theorem unsigned_signed (bits n : Nat) (bound : n < 2 ^ bits) : unsigned bits (signed bits n) = n := by
  have same : (Int.bmod n (2 ^ bits)) % ((2 ^ bits : Nat) : Int) = (n : Int) % ((2 ^ bits : Nat) : Int) :=
    Int.bmod_emod
  have reduced : (n : Int) % ((2 ^ bits : Nat) : Int) = n := Int.emod_eq_of_lt (by omega) (by exact_mod_cast bound)
  have exact_value : (Int.bmod n (2 ^ bits)) % (2 ^ bits : Int) = n := by
    simpa using same.trans reduced
  rw [signed, unsigned, exact_value, Int.toNat_natCast]

end BigEndian
