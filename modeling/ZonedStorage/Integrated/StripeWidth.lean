import Mathlib.Data.Nat.Log
import ZonedStorage.Integrated.Balloon

namespace EznsRbcIntegrated

def MAX_STRIPE_WIDTH : UInt32 := 16

namespace FragAwareBalloon

open UInt32

def doubled (width : UInt32) : Nat → UInt32 → Option UInt32
  | 0, _ => none
  | rounds + 1, power => if power * 2 ≤ width then doubled width rounds (power * 2) else some power

def roundToPowerOfTwo (rounds : Nat) (width : UInt32) : Option UInt32 :=
  if width ≤ 2 then some 2
  else (doubled width rounds 1).map (fun power => if MAX_STRIPE_WIDTH < power then MAX_STRIPE_WIDTH else power)

/-- The largest power of two that is not above the width, clamped to the widths of a stripe. -/
def stripeWidth (width : UInt32) : UInt32 :=
  .ofNat (max 2 (min (2 ^ Nat.log 2 width.toNat) MAX_STRIPE_WIDTH.toNat))

theorem ofNat_pow_double (exponent : Nat) : ofNat (2 ^ exponent) * 2 = .ofNat (2 ^ (exponent + 1)) := by
  rw [pow_succ, ofNat_mul]
  rfl

theorem pow_wraps (exponent : Nat) : (ofNat (2 ^ exponent)).toNat ≤ 2 ^ 31 := by
  rw [toNat_ofNat']
  rcases Nat.lt_or_ge exponent 32 with small | large
  · exact (Nat.mod_le _ _).trans (Nat.pow_le_pow_right (by decide) (by omega))
  · rw [Nat.mod_eq_zero_of_dvd (Nat.pow_dvd_pow 2 large)]
    exact Nat.zero_le _

theorem doubled_wide {width : UInt32} (wide : 2 ^ 31 ≤ width.toNat) (rounds exponent : Nat) :
    doubled width rounds (.ofNat (2 ^ exponent)) = none := by
  induction rounds generalizing exponent with
  | zero => rfl
  | succ rounds ih =>
    have next := (pow_wraps (exponent + 1)).trans wide
    rw [doubled, ofNat_pow_double, if_pos (le_iff_toNat_le.mpr next)]
    exact ih (exponent + 1)

theorem endless_rounding {width : UInt32} (wide : 2 ^ 31 ≤ width.toNat) (rounds : Nat) :
    roundToPowerOfTwo rounds width = none := by
  have large : ¬ width ≤ 2 := by
    intro small
    exact absurd (wide.trans (le_iff_toNat_le.mp small)) (by decide)
  rw [roundToPowerOfTwo, if_neg large]
  exact congrArg _ (doubled_wide wide rounds 0)

theorem doubled_narrow {width : UInt32} (narrow : width.toNat < 2 ^ 31) {rounds exponent : Nat}
    (below : 2 ^ exponent ≤ width.toNat) (enough : Nat.log 2 width.toNat < rounds + exponent) :
    doubled width rounds (.ofNat (2 ^ exponent)) = some (.ofNat (2 ^ Nat.log 2 width.toNat)) := by
  have positive : width.toNat ≠ 0 := (lt_of_lt_of_le (Nat.two_pow_pos exponent) below).ne'
  have reached : exponent ≤ Nat.log 2 width.toNat := (Nat.le_log_iff_pow_le (by decide) positive).mpr below
  induction rounds generalizing exponent with
  | zero => omega
  | succ rounds ih =>
    have next : (ofNat (2 ^ (exponent + 1))).toNat = 2 ^ (exponent + 1) := by
      refine toNat_ofNat_of_lt' ?_
      rw [pow_succ, size]
      omega
    by_cases further : 2 ^ (exponent + 1) ≤ width.toNat
    · rw [doubled, ofNat_pow_double, if_pos (le_iff_toNat_le.mpr (next.trans_le further))]
      exact ih further (by omega) ((Nat.le_log_iff_pow_le (by decide) positive).mpr further)
    · rw [doubled, ofNat_pow_double, if_neg (fun le => further (next ▸ le_iff_toNat_le.mp le)),
        Nat.log_eq_of_pow_le_of_lt_pow below (Nat.lt_of_not_le further)]

theorem stripeWidth_small {width : UInt32} (small : width ≤ 2) : stripeWidth width = 2 := by
  have exponent : Nat.log 2 width.toNat ≤ 1 := Nat.log_mono_right (le_iff_toNat_le.mp small)
  have power := Nat.pow_le_pow_right Nat.two_pos exponent
  rw [stripeWidth, Nat.max_eq_left ((min_le_left _ _).trans power)]
  rfl

theorem stripeWidth_large {width : UInt32} (large : 2 ≤ width.toNat) :
    (let power := ofNat (2 ^ Nat.log 2 width.toNat)
      if MAX_STRIPE_WIDTH < power then MAX_STRIPE_WIDTH else power) = stripeWidth width := by
  have exponent : 1 ≤ Nat.log 2 width.toNat := Nat.log_pos (by decide) large
  have power := Nat.pow_le_pow_right Nat.two_pos exponent
  have fits : 2 ^ Nat.log 2 width.toNat < 2 ^ 32 :=
    (Nat.pow_log_le_self 2 (by omega)).trans_lt width.toNat_lt
  have value := toNat_ofNat_of_lt' fits
  rw [stripeWidth, Nat.max_eq_right (le_min power (by decide))]
  simp only [lt_iff_toNat_lt, value]
  split
  case isTrue above => exact (congrArg ofNat (Nat.min_eq_right above.le)).symm
  case isFalse within => rw [Nat.min_eq_left (Nat.le_of_not_lt within)]

/-- Rounding returns for the widths of the lower half of the range, and for no other. -/
theorem roundToPowerOfTwo_iff (width : UInt32) :
    (∃ rounds, roundToPowerOfTwo rounds width = some (stripeWidth width)) ↔ width < 2147483648 := by
  rw [UInt32.lt_iff_toNat_lt]
  constructor
  · rintro ⟨rounds, returned⟩
    by_contra wide
    rw [endless_rounding (Nat.le_of_not_lt wide)] at returned
    cases returned
  · intro narrow
    refine ⟨Nat.log 2 width.toNat + 1, ?_⟩
    rw [roundToPowerOfTwo]
    split
    case isTrue small => rw [stripeWidth_small small]
    case isFalse large =>
      have more : 2 < width.toNat := Nat.lt_of_not_le (fun le => large (UInt32.le_iff_toNat_le.mpr le))
      have result := @doubled_narrow _ narrow (Nat.log 2 width.toNat + 1) 0 (by omega) (by omega)
      exact (congrArg (Option.map _) result).trans (congrArg some (stripeWidth_large more.le))

theorem rounding_of_half_range_is_endless :
    stripeWidth 2147483648 = 16 ∧ ∀ rounds, roundToPowerOfTwo rounds 2147483648 = none :=
  ⟨by decide +kernel, endless_rounding le_rfl⟩

end FragAwareBalloon

end EznsRbcIntegrated
