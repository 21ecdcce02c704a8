import ZonedStorage.Bytes.LittleEndian

namespace ZenFSModel.Crc32c

open ByteString

def polynomial : Nat := 0x82f63b78

def shiftBit (c : Nat) : Nat := if c % 2 = 1 then (c >>> 1) ^^^ polynomial else c >>> 1

def table0 (c : Nat) : Nat :=
  shiftBit (shiftBit (shiftBit (shiftBit (shiftBit (shiftBit (shiftBit (shiftBit c)))))))

def extendByte (l : Nat) (byte : UInt8) : Nat := table0 ((l &&& 0xff) ^^^ byte.toNat) ^^^ (l >>> 8)

def extend (crc : Nat) (data : Bytes) : Nat := data.foldl extendByte (crc ^^^ 0xffffffff) ^^^ 0xffffffff

def value (data : Bytes) : Nat := extend 0 data

/-- `Crc32cCombine`: the checksum of what comes first is carried past the length of the rest. -/
def combine (crc rest length : Nat) : Nat := (List.replicate length 0).foldl extendByte crc ^^^ rest

def maskDelta : Nat := 0xa282ead8

def mask (crc : Nat) : Nat := (((crc >>> 15) ||| (crc <<< 17) % 2 ^ 32) + maskDelta) % 2 ^ 32

def unmask (maskedCrc : Nat) : Nat :=
  let rot := (maskedCrc + (2 ^ 32 - maskDelta)) % 2 ^ 32
  (rot >>> 17) ||| (rot <<< 15) % 2 ^ 32

end ZenFSModel.Crc32c

namespace ZenFSProof.Crc32c

open ByteString ZenFSModel.Crc32c Nat

theorem shiftBit_lt {c : Nat} (small : c < 2 ^ 32) : shiftBit c < 2 ^ 32 := by
  have half : c >>> 1 < 2 ^ 32 := by
    rw [shiftRight_eq_div_pow]
    omega
  simp only [shiftBit]
  split
  · exact xor_lt_two_pow half (by decide)
  · exact half

theorem table0_lt {c : Nat} (small : c < 2 ^ 32) : table0 c < 2 ^ 32 := by
  simp only [table0]
  exact shiftBit_lt (shiftBit_lt (shiftBit_lt (shiftBit_lt
    (shiftBit_lt (shiftBit_lt (shiftBit_lt (shiftBit_lt small)))))))

theorem extendByte_lt {l : Nat} (small : l < 2 ^ 32) (byte : UInt8) : extendByte l byte < 2 ^ 32 := by
  have low : l &&& 0xff < 2 ^ 32 := lt_of_le_of_lt and_le_left small
  have byte_lt : byte.toNat < 2 ^ 32 := lt_trans byte.toNat_lt (by decide)
  have high : l >>> 8 < 2 ^ 32 := by
    rw [shiftRight_eq_div_pow]
    omega
  exact xor_lt_two_pow (table0_lt (xor_lt_two_pow low byte_lt)) high

variable {crc : Nat}

theorem extend_lt (small : crc < 2 ^ 32) (data : Bytes) : extend crc data < 2 ^ 32 := by
  have loop : ∀ l, l < 2 ^ 32 → data.foldl extendByte l < 2 ^ 32 := by
    induction data with
    | nil => exact fun _ bound => bound
    | cons byte rest ih => exact fun l bound => ih _ (extendByte_lt bound byte)
  exact xor_lt_two_pow (loop _ (xor_lt_two_pow small (by decide))) (by decide)

theorem shiftBit_xor (c d : Nat) : shiftBit (c ^^^ d) = shiftBit c ^^^ shiftBit d := by
  have cancel : ∀ a b : Nat, (a ^^^ polynomial) ^^^ (b ^^^ polynomial) = a ^^^ b := by
    intro a b
    rw [Nat.xor_comm b, Nat.xor_assoc, ← Nat.xor_assoc polynomial, Nat.xor_self, Nat.zero_xor]
  simp only [shiftBit, shiftRight_xor_distrib, xor_mod_two_eq_one]
  by_cases first : c % 2 = 1 <;> by_cases second : d % 2 = 1
  · simp [first, second, cancel]
  · simp only [first, second, iff_false, not_true_eq_false, not_false_eq_true, if_true, if_false]
    ac_rfl
  · simp only [first, second, iff_true, not_false_eq_true, if_true, if_false]
    ac_rfl
  · simp [first, second]

theorem extendByte_xor (l m : Nat) (byte : UInt8) : extendByte (l ^^^ m) byte = extendByte l byte ^^^ extendByte m 0 := by
  have zero : (0 : UInt8).toNat = 0 := rfl
  simp only [extendByte, table0, and_xor_distrib_right, shiftRight_xor_distrib, shiftBit_xor, zero, Nat.xor_zero]
  ac_rfl

theorem foldl_extendByte_xor (l m : Nat) (data : Bytes) : data.foldl extendByte (l ^^^ m) =
    data.foldl extendByte l ^^^ (List.replicate data.length 0).foldl extendByte m := by
  induction data generalizing l m with
  | nil => rfl
  | cons byte rest ih =>
    rw [List.foldl_cons, extendByte_xor, ih]
    rfl

theorem extend_extend (crc : Nat) (first second : Bytes) :
    extend (extend crc first) second = extend crc (first ++ second) := by
  rw [extend, extend, Nat.xor_assoc, Nat.xor_self, Nat.xor_zero, ← List.foldl_append]
  rfl

theorem combine_extend (crc : Nat) (second : Bytes) :
    combine crc (extend 0 second) second.length = extend crc second := by
  simp only [combine, extend, Nat.zero_xor]
  rw [Nat.xor_comm crc, foldl_extendByte_xor]
  ac_rfl

theorem rotate_back (small : crc < 2 ^ 32) : let rot := (crc >>> 15) ||| (crc <<< 17) % 2 ^ 32
    (rot >>> 17) ||| (rot <<< 15) % 2 ^ 32 = crc := by
  intro rot
  apply eq_of_testBit_eq
  intro i
  simp only [rot, testBit_or, testBit_mod_two_pow, testBit_shiftLeft, testBit_shiftRight]
  have high : ∀ j, 32 ≤ j → crc.testBit j = false := fun j above =>
    testBit_lt_two_pow (lt_of_lt_of_le small (Nat.pow_le_pow_right (by omega) above))
  by_cases low : i < 15
  · have up := high (15 + (17 + i)) (by omega)
    have position : 17 + i - 17 = i := by omega
    simp [up, position, show ¬ 15 ≤ i by omega, show 17 + i < 32 by omega]
  · by_cases mid : i < 32
    · have up := high (15 + (17 + i)) (by omega)
      have position : 15 + (i - 15) = i := by omega
      simp [up, mid, position, show 15 ≤ i by omega, show ¬ 17 + i < 32 by omega,
        show ¬ 17 ≤ i - 15 by omega]
    · have up := high (15 + (17 + i)) (by omega)
      simp [up, mid, high i (by omega), show ¬ 17 + i < 32 by omega]

theorem unmask_mask (small : crc < 2 ^ 32) : unmask (mask crc) = crc := by
  have rot_lt : (crc >>> 15) ||| (crc <<< 17) % 2 ^ 32 < 2 ^ 32 := by
    apply or_lt_two_pow
    · rw [shiftRight_eq_div_pow]
      omega
    · exact mod_lt _ (by decide)
  have rot : (mask crc + (2 ^ 32 - maskDelta)) % 2 ^ 32 = (crc >>> 15) ||| (crc <<< 17) % 2 ^ 32 := by
    simp only [mask, maskDelta]
    omega
  simp only [unmask, rot]
  exact rotate_back small

theorem mask_lt (crc : Nat) : mask crc < 2 ^ 32 := mod_lt _ (by decide)

example : value [0x31, 0x32, 0x33, 0x34, 0x35, 0x36, 0x37, 0x38, 0x39] = 0xe3069283 := by decide +kernel

end ZenFSProof.Crc32c

namespace ZenFSModel

open ByteString

/-- What the logs take from a checksum: values of 32 bits that can be extended and combined, and a mask that can be
    undone. -/
class Checksum where
  extend : Nat → Bytes → Nat
  combine : Nat → Nat → Nat → Nat
  mask : Nat → Nat
  unmask : Nat → Nat
  extend_lt : ∀ {crc}, crc < 2 ^ 32 → ∀ data, extend crc data < 2 ^ 32
  extend_extend : ∀ crc first second, extend (extend crc first) second = extend crc (first ++ second)
  combine_extend : ∀ crc rest, combine crc (extend 0 rest) rest.length = extend crc rest
  mask_lt : ∀ crc, mask crc < 2 ^ 32
  unmask_mask : ∀ {crc}, crc < 2 ^ 32 → unmask (mask crc) = crc

instance crc32c : Checksum where
  extend := Crc32c.extend
  combine := Crc32c.combine
  mask := Crc32c.mask
  unmask := Crc32c.unmask
  extend_lt := ZenFSProof.Crc32c.extend_lt
  extend_extend := ZenFSProof.Crc32c.extend_extend
  combine_extend := ZenFSProof.Crc32c.combine_extend
  mask_lt := ZenFSProof.Crc32c.mask_lt
  unmask_mask := ZenFSProof.Crc32c.unmask_mask

end ZenFSModel
