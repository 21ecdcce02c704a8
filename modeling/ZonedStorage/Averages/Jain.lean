import Mathlib.Algebra.Order.Field.Basic
import Mathlib.Algebra.BigOperators.Group.List.Basic
import Mathlib.Algebra.Order.BigOperators.Group.List
import Mathlib.Tactic.Linarith
import Mathlib.Tactic.Ring

namespace Averages

open List

variable {K : Type*} [Field K] [LinearOrder K] [IsStrictOrderedRing K]

def sumSq (xs : List K) : K := (xs.map (fun x => x * x)).sum

def jain (xs : List K) : K := xs.sum * xs.sum / (xs.length * sumSq xs)

def spread (xs : List K) : K := xs.length * sumSq xs - xs.sum * xs.sum

section

variable {x : K} {xs : List K}

omit [LinearOrder K] [IsStrictOrderedRing K] in
@[simp] theorem sumSq_cons (x : K) (xs : List K) : sumSq (x :: xs) = x * x + sumSq xs := by
  rw [sumSq, map_cons, sum_cons, sumSq]

omit [LinearOrder K] [IsStrictOrderedRing K] in
theorem sum_sq_sub (x : K) (xs : List K) :
    (xs.map (fun y => (x - y) * (x - y))).sum = xs.length * (x * x) - 2 * x * xs.sum + sumSq xs := by
  induction xs with
  | nil =>
    rw [sumSq]
    simp
  | cons y xs ih =>
    rw [map_cons, sum_cons, ih, length_cons, sum_cons, sumSq_cons]
    push_cast
    ring

omit [LinearOrder K] [IsStrictOrderedRing K] in
theorem spread_cons (x : K) (xs : List K) :
    spread (x :: xs) = spread xs + (xs.map (fun y => (x - y) * (x - y))).sum := by
  rw [spread, spread, sum_sq_sub, length_cons, sum_cons, sumSq_cons]
  push_cast
  ring

theorem sum_sq_sub_nonneg (x : K) (xs : List K) : 0 ≤ (xs.map (fun y => (x - y) * (x - y))).sum := by
  apply sum_nonneg
  intro square listed
  obtain ⟨y, _, rfl⟩ := mem_map.mp listed
  exact mul_self_nonneg _

theorem spread_nonneg (xs : List K) : 0 ≤ spread xs := by
  induction xs with
  | nil =>
    rw [spread, sumSq]
    simp
  | cons x xs ih =>
    rw [spread_cons]
    exact add_nonneg ih (sum_sq_sub_nonneg x xs)

theorem sum_sq_sub_eq_zero (x : K) (xs : List K) : (xs.map (fun y => (x - y) * (x - y))).sum = 0 ↔ ∀ y ∈ xs, y = x := by
  induction xs with
  | nil => simp
  | cons y xs ih =>
    rw [map_cons, sum_cons, add_eq_zero_iff_of_nonneg (mul_self_nonneg _) (sum_sq_sub_nonneg x xs), ih,
      mul_self_eq_zero, sub_eq_zero, forall_mem_cons]
    exact and_congr_left' eq_comm

theorem spread_eq_zero (xs : List K) : spread xs = 0 ↔ ∀ x ∈ xs, ∀ y ∈ xs, x = y := by
  induction xs with
  | nil =>
    rw [spread, sumSq]
    simp
  | cons x xs ih =>
    rw [spread_cons, add_eq_zero_iff_of_nonneg (spread_nonneg xs) (sum_sq_sub_nonneg x xs), ih, sum_sq_sub_eq_zero]
    constructor
    · rintro ⟨_, same⟩
      have first : ∀ y ∈ x :: xs, y = x := by
        intro y listed
        rcases mem_cons.mp listed with rfl | later
        · rfl
        · exact same y later
      intro y listed z listed'
      exact (first y listed).trans (first z listed').symm
    · intro same
      constructor
      · exact fun y listed z listed' => same y (mem_cons_of_mem _ listed) z (mem_cons_of_mem _ listed')
      · exact fun y listed => same y (mem_cons_of_mem _ listed) x mem_cons_self

theorem sumSq_le (nonneg : ∀ x ∈ xs, 0 ≤ x) : sumSq xs ≤ xs.sum * xs.sum := by
  induction xs with
  | nil =>
    rw [sumSq]
    simp
  | cons x xs ih =>
    obtain ⟨first, rest⟩ := forall_mem_cons.mp nonneg
    have sum : 0 ≤ xs.sum := sum_nonneg rest
    have earlier := ih rest
    have cross := mul_nonneg first sum
    rw [sumSq_cons, sum_cons]
    nlinarith only [earlier, cross]

end

section

variable {xs : List K}

theorem sumSq_pos (nonempty : xs ≠ []) (positive : ∀ x ∈ xs, 0 < x) : 0 < sumSq xs := by
  cases xs with
  | nil => exact absurd rfl nonempty
  | cons x xs =>
    have first : 0 < x := positive x mem_cons_self
    have rest : 0 ≤ sumSq xs := by
      apply sum_nonneg
      intro square listed
      obtain ⟨y, _, rfl⟩ := mem_map.mp listed
      exact mul_self_nonneg y
    rw [sumSq_cons]
    exact add_pos_of_pos_of_nonneg (mul_pos first first) rest

theorem length_mul_sumSq_pos (nonempty : xs ≠ []) (positive : ∀ x ∈ xs, 0 < x) : 0 < (xs.length : K) * sumSq xs :=
  mul_pos (Nat.cast_pos.mpr (length_pos_iff.mpr nonempty)) (sumSq_pos nonempty positive)

theorem jain_le_one (nonempty : xs ≠ []) (positive : ∀ x ∈ xs, 0 < x) : jain xs ≤ 1 := by
  have gap := spread_nonneg xs
  rw [spread] at gap
  rw [jain, div_le_one (length_mul_sumSq_pos nonempty positive)]
  linarith

theorem one_div_length_le_jain (nonempty : xs ≠ []) (positive : ∀ x ∈ xs, 0 < x) : 1 / (xs.length : K) ≤ jain xs := by
  have count : 0 < (xs.length : K) := Nat.cast_pos.mpr (length_pos_iff.mpr nonempty)
  have squares := sumSq_le (fun x listed => (positive x listed).le)
  rw [jain, div_le_div_iff₀ count (length_mul_sumSq_pos nonempty positive)]
  have scaled := mul_le_mul_of_nonneg_left squares count.le
  linarith

theorem jain_eq_one (nonempty : xs ≠ []) (positive : ∀ x ∈ xs, 0 < x) : jain xs = 1 ↔ ∀ x ∈ xs, ∀ y ∈ xs, x = y := by
  rw [← spread_eq_zero, spread, jain, div_eq_one_iff_eq (length_mul_sumSq_pos nonempty positive).ne', sub_eq_zero]
  exact eq_comm

omit [LinearOrder K] [IsStrictOrderedRing K] in
theorem jain_perm {ys : List K} (perm : xs.Perm ys) : jain xs = jain ys := by
  rw [jain, jain, sumSq, sumSq, perm.sum_eq, perm.length_eq, (perm.map _).sum_eq]

end

end Averages
