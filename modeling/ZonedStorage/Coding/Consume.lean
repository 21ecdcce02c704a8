import ZonedStorage.Coding.Coding

namespace ZenFSProof

open ByteString ZenFSModel

section

variable {input rest : Bytes} {v : Nat}

variable {rounds shift result : Nat}

theorem getVarint32PtrFallback_read (read : getVarint32PtrFallback rounds shift result input = some (v, rest)) :
    rest.length < input.length ∧ (result < 2 ^ 32 → v < 2 ^ 32) := by
  induction rounds generalizing shift result input with
  | zero => cases read
  | succ rounds ih =>
    cases input with
    | nil => cases read
    | cons byte tail =>
      rw [getVarint32PtrFallback] at read
      split at read
      · obtain ⟨fewer, fits⟩ := ih read
        exact ⟨Nat.lt_succ_of_lt fewer, fun small => fits (Nat.or_lt_two_pow small (Nat.mod_lt _ (by decide)))⟩
      · cases read
        exact ⟨Nat.lt_succ_self _, fun small => Nat.or_lt_two_pow small (Nat.mod_lt _ (by decide))⟩

theorem getVarint32_read (read : getVarint32 input = some (v, rest)) : rest.length < input.length ∧ v < 2 ^ 32 := by
  cases input with
  | nil => cases read
  | cons byte tail =>
    rw [getVarint32, getVarint32Ptr] at read
    split at read
    · cases read
      exact ⟨Nat.lt_succ_self _, Nat.lt_trans byte.toNat_lt (by decide)⟩
    · obtain ⟨fewer, fits⟩ := getVarint32PtrFallback_read read
      exact ⟨fewer, fits (by decide)⟩

theorem getVarint64Ptr_shorter
    (read : getVarint64Ptr rounds shift result input = some (v, rest)) : rest.length < input.length := by
  induction rounds generalizing shift result input with
  | zero => cases read
  | succ rounds ih =>
    cases input with
    | nil => cases read
    | cons byte tail =>
      rw [getVarint64Ptr] at read
      split at read
      · have fewer := ih read
        rw [List.length_cons]
        omega
      · cases read
        exact Nat.lt_succ_self _

theorem getVarint64_shorter (read : getVarint64 input = some (v, rest)) : rest.length < input.length :=
  getVarint64Ptr_shorter read

theorem getLengthPrefixedSlice_shorter {value : Bytes} (read : getLengthPrefixedSlice input = some (value, rest)) :
    rest.length < input.length ∧ value.length < 2 ^ 32 := by
  rw [getLengthPrefixedSlice] at read
  split at read
  · cases read
  · rename_i len tail counted
    obtain ⟨shorter, small⟩ := getVarint32_read counted
    split at read
    · cases read
      rw [List.length_drop, List.length_take]
      omega
    · cases read

end

end ZenFSProof
