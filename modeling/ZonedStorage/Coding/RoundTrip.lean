import ZonedStorage.Coding.Coding
import Mathlib.Data.Nat.Bitwise

namespace ZenFSProof

open ByteString ZenFSModel List Nat

theorem getFixed32_put (value : Nat) (rest : Bytes) :
    getFixed32 (littleEndian 4 value ++ rest) = some (value % 2 ^ 32, rest) :=
  takeNumber_littleEndian 4 value rest

theorem getFixed64_put (value : Nat) (rest : Bytes) :
    getFixed64 (littleEndian 8 value ++ rest) = some (value % 2 ^ 64, rest) :=
  takeNumber_littleEndian 8 value rest

theorem continued_byte (v : Nat) :
    (UInt8.ofNat (v ||| 128)).toNat &&& 128 ≠ 0 ∧ (UInt8.ofNat (v ||| 128)).toNat &&& 127 = v % 128 := by
  have byte : (UInt8.ofNat (v ||| 128)).toNat = (v ||| 128) % 2 ^ 8 := UInt8.toNat_ofNat'
  rw [byte, show (128 : Nat) = 2 ^ 7 from rfl]
  constructor
  · intro clear
    have bit := congrArg (fun n => testBit n 7) clear
    simp only [testBit_and, testBit_mod_two_pow, testBit_or, testBit_two_pow,
      zero_testBit] at bit
    simp at bit
  · rw [show (127 : Nat) = 2 ^ 7 - 1 from rfl, and_two_pow_sub_one_eq_mod]
    apply eq_of_testBit_eq
    intro i
    simp only [testBit_mod_two_pow, testBit_or, testBit_two_pow]
    by_cases small : i < 7
    · simp [small, show i < 8 by omega, show ¬ 7 = i by omega]
    · simp [small]

variable {v : Nat}

theorem final_byte (small : v < 128) : (UInt8.ofNat v).toNat &&& 128 = 0 ∧ (UInt8.ofNat v).toNat = v := by
  have byte : (UInt8.ofNat v).toNat = v := by
    simp only [UInt8.toNat_ofNat']
    omega
  rw [byte]
  refine ⟨?_, rfl⟩
  apply eq_of_testBit_eq
  intro i
  rw [show (128 : Nat) = 2 ^ 7 from rfl, testBit_and, testBit_two_pow, zero_testBit]
  by_cases seven : 7 = i
  · subst seven
    rw [testBit_lt_two_pow (by omega), Bool.false_and]
  · simp [seven]

theorem low_bits_or (v shift : Nat) {width : Nat} (narrow : shift + 7 ≤ width) :
    (v % 2 ^ shift) ||| (((v >>> shift) % 128) <<< shift) % 2 ^ width = v % 2 ^ (shift + 7) := by
  apply eq_of_testBit_eq
  intro i
  rw [show (128 : Nat) = 2 ^ 7 from rfl]
  simp only [testBit_or, testBit_mod_two_pow, testBit_shiftLeft, testBit_shiftRight]
  by_cases low : i < shift
  · simp [low, show i < shift + 7 by omega, show ¬ shift ≤ i by omega]
  · have position : shift + (i - shift) = i := by omega
    by_cases mid : i < shift + 7
    · simp [low, mid, show i < width by omega, show shift ≤ i by omega, show i - shift < 7 by omega, position]
    · simp [low, mid, show ¬ i - shift < 7 by omega]

theorem last_bits_or {shift width : Nat} (fits : v < 2 ^ width) :
    (v % 2 ^ shift) ||| ((v >>> shift) <<< shift) % 2 ^ width = v := by
  apply eq_of_testBit_eq
  intro i
  simp only [testBit_or, testBit_mod_two_pow, testBit_shiftLeft, testBit_shiftRight]
  by_cases low : i < shift
  · simp [low, show ¬ shift ≤ i by omega]
  · have position : shift + (i - shift) = i := by omega
    by_cases high : i < width
    · simp [low, high, show shift ≤ i by omega, position]
    · have clear : v.testBit i = false := testBit_lt_two_pow
        (lt_of_lt_of_le fits (Nat.pow_le_pow_right (by omega) (by omega)))
      simp [low, high, clear]

theorem fallback_continue (rounds v shift : Nat) (narrow : shift + 7 ≤ 32) (rest : Bytes) :
    getVarint32PtrFallback (rounds + 1) shift (v % 2 ^ shift) (UInt8.ofNat (v >>> shift ||| 128) :: rest) =
      getVarint32PtrFallback rounds (shift + 7) (v % 2 ^ (shift + 7)) rest := by
  obtain ⟨more, bits⟩ := continued_byte (v >>> shift)
  simp only [getVarint32PtrFallback, if_pos more, bits, low_bits_or v shift narrow]

theorem fallback_finish (rounds : Nat) {shift : Nat} (fits : v < 2 ^ 32) (last : v >>> shift < 128) (rest : Bytes) :
    getVarint32PtrFallback (rounds + 1) shift (v % 2 ^ shift) (UInt8.ofNat (v >>> shift) :: rest) =
      some (v, rest) := by
  obtain ⟨stop, byte⟩ := final_byte last
  rw [getVarint32PtrFallback, if_neg (not_not_intro stop), byte, last_bits_or fits]

theorem fallback_start (rounds v : Nat) (rest : Bytes) :
    getVarint32PtrFallback (rounds + 1) 0 0 (UInt8.ofNat (v ||| 128) :: rest) =
      getVarint32PtrFallback rounds 7 (v % 2 ^ 7) rest := by
  have first := fallback_continue rounds v 0 (by omega) rest
  simpa only [pow_zero, mod_one, shiftRight_zero, zero_add] using first

theorem getVarint32_put (fits : v < 2 ^ 32) (rest : Bytes) :
    getVarint32 (encodeVarint32 v ++ rest) = some (v, rest) := by
  have shifts : ∀ k, v < 2 ^ (k + 7) → v >>> k < 128 := by
    intro k bound
    rw [shiftRight_eq_div_pow]
    exact Nat.div_lt_of_lt_mul (by rw [pow_add] at bound; exact bound)
  have more := (continued_byte v).1
  simp only [getVarint32, encodeVarint32]
  split
  · rename_i small
    obtain ⟨stop, byte⟩ := final_byte small
    rw [cons_append, nil_append, getVarint32Ptr, if_pos stop, byte]
  repeat' split
  all_goals simp only [cons_append, nil_append, getVarint32Ptr, if_neg more, fallback_start]
  · rename_i bound
    rw [fallback_finish 3 fits (shifts 7 bound)]
  · rename_i bound
    rw [fallback_continue _ _ 7 (by omega), fallback_finish 2 fits (shifts 14 bound)]
  · rename_i bound
    rw [fallback_continue _ _ 7 (by omega), fallback_continue _ _ 14 (by omega), fallback_finish 1 fits (shifts 21 bound)]
  · rw [fallback_continue _ _ 7 (by omega), fallback_continue _ _ 14 (by omega), fallback_continue _ _ 21 (by omega),
      fallback_finish 0 fits (shifts 28 (by omega))]

theorem getLengthPrefixedSlice_put {value : Bytes} (fits : value.length < 2 ^ 32) (rest : Bytes) :
    getLengthPrefixedSlice (putLengthPrefixedSlice [] value ++ rest) = some (value, rest) := by
  have count : getVarint32 (encodeVarint32 (value.length % 2 ^ 32) ++ (value ++ rest)) =
      some (value.length, value ++ rest) := by
    rw [mod_eq_of_lt fits]
    exact getVarint32_put fits _
  simp only [getLengthPrefixedSlice, putLengthPrefixedSlice, putVarint32, nil_append,
    append_assoc, count, length_append]
  rw [if_pos (by omega), take_left' rfl, drop_left' rfl]

theorem putLengthPrefixedSlice_ne_nil (value : Bytes) : putLengthPrefixedSlice [] value ≠ [] := by
  have coded : ∀ v, encodeVarint32 v ≠ [] := by
    intro v
    simp only [encodeVarint32]
    repeat' split
    all_goals exact cons_ne_nil _ _
  simp only [putLengthPrefixedSlice, putVarint32, nil_append]
  exact append_ne_nil_of_left_ne_nil (coded _) _

theorem getVarint64Ptr_last (fits : v < 2 ^ 64) (rest : Bytes) (rounds : Nat) {shift : Nat} (last : v >>> shift < 128) :
    getVarint64Ptr (rounds + 1) shift (v % 2 ^ shift) (encodeVarint64 (v >>> shift) ++ rest) = some (v, rest) := by
  obtain ⟨stop, byte⟩ := final_byte last
  rw [encodeVarint64, if_pos last, cons_append, getVarint64Ptr, if_neg (not_not_intro stop), byte, last_bits_or fits,
    nil_append]

theorem getVarint64Ptr_put (fits : v < 2 ^ 64) (rest : Bytes) (rounds : Nat) :
    ∀ shift, shift + 7 * rounds ≤ 63 → v >>> shift < 2 ^ (7 * (rounds + 1)) →
      getVarint64Ptr (rounds + 1) shift (v % 2 ^ shift) (encodeVarint64 (v >>> shift) ++ rest) = some (v, rest) := by
  induction rounds with
  | zero => exact fun _ _ last => getVarint64Ptr_last fits rest 0 last
  | succ rounds ih =>
    intro shift narrow small
    by_cases last : v >>> shift < 128
    · exact getVarint64Ptr_last fits rest (rounds + 1) last
    · obtain ⟨more, bits⟩ := continued_byte (v >>> shift &&& 127)
      have low : (v >>> shift &&& 127) % 128 = v >>> shift % 128 := by
        rw [show (127 : Nat) = 2 ^ 7 - 1 from rfl, and_two_pow_sub_one_eq_mod]
        omega
      have later : v >>> (shift + 7) < 2 ^ (7 * (rounds + 1)) := by
        have exponent : 7 * (rounds + 1 + 1) = 7 + 7 * (rounds + 1) := by omega
        rw [exponent, pow_add] at small
        rw [shiftRight_add, shiftRight_eq_div_pow]
        exact Nat.div_lt_of_lt_mul small
      have next := ih (shift + 7) (by omega) later
      rw [encodeVarint64, if_neg last, cons_append, getVarint64Ptr, if_pos more, bits, low,
        low_bits_or v shift (by omega), ← shiftRight_add]
      exact next

theorem getVarint64_put (fits : v < 2 ^ 64) (rest : Bytes) :
    getVarint64 (encodeVarint64 v ++ rest) = some (v, rest) := by
  have read := getVarint64Ptr_put fits rest 9 0 (by omega) (lt_of_lt_of_le fits (by decide))
  rwa [pow_zero, mod_one, shiftRight_zero] at read

end ZenFSProof
