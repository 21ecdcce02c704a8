import Mathlib.Data.List.Basic
import Mathlib.Tactic.Ring

namespace ByteString

abbrev Bytes := List UInt8

def littleEndian : Nat → Nat → Bytes
  | 0, _ => []
  | width + 1, value => UInt8.ofNat value :: littleEndian width (value / 256)

def valueOf : Bytes → Nat
  | [] => 0
  | byte :: rest => byte.toNat + 256 * valueOf rest

def takeNumber (width : Nat) (input : Bytes) : Option (Nat × Bytes) :=
  if input.length < width then none else some (valueOf (input.take width), input.drop width)

@[simp] theorem littleEndian_length (width value : Nat) : (littleEndian width value).length = width := by
  induction width generalizing value with
  | zero => rfl
  | succ width ih => simp only [littleEndian, List.length_cons, ih]

theorem valueOf_littleEndian (width value : Nat) : valueOf (littleEndian width value) = value % 256 ^ width := by
  induction width generalizing value with
  | zero => simp only [littleEndian, valueOf, Nat.pow_zero, Nat.mod_one]
  | succ width ih =>
    have low : (UInt8.ofNat value).toNat = value % 256 := by simp [UInt8.toNat_ofNat']
    simp only [littleEndian, valueOf, ih, low]
    rw [Nat.pow_succ', Nat.mod_mul]

theorem valueOf_littleEndian_of_lt {width value : Nat} (fits : value < 256 ^ width) :
    valueOf (littleEndian width value) = value := by
  rw [valueOf_littleEndian, Nat.mod_eq_of_lt fits]

theorem valueOf_lt (bytes : Bytes) : valueOf bytes < 256 ^ bytes.length := by
  induction bytes with
  | nil => simp [valueOf]
  | cons byte rest ih =>
    have small := byte.toNat_lt
    simp only [valueOf, List.length_cons, Nat.pow_succ']
    omega

theorem takeNumber_littleEndian (width value : Nat) (rest : Bytes) :
    takeNumber width (littleEndian width value ++ rest) = some (value % 256 ^ width, rest) := by
  have long : ¬ (littleEndian width value ++ rest).length < width := by
    simp only [List.length_append, littleEndian_length]
    omega
  simp only [takeNumber, if_neg long]
  rw [List.take_left' (littleEndian_length width value), List.drop_left' (littleEndian_length width value),
    valueOf_littleEndian]

end ByteString
