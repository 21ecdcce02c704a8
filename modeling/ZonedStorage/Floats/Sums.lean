import ZonedStorage.Averages.Jain
import ZonedStorage.Floats.Rounding

namespace Floats.Rounding

def sum (rounding : Rounding) (xs : List ℚ) : ℚ := xs.foldl (fun acc x => rounding.double (acc + x)) 0

def sumSquares (rounding : Rounding) (xs : List ℚ) : ℚ :=
  xs.foldl (fun acc x => rounding.double (acc + rounding.double (x * x))) 0

def fairness (rounding : Rounding) (metrics : List ℚ) : ℚ :=
  let sum := rounding.sum metrics
  rounding.double (rounding.double (sum * sum) /
    rounding.double (rounding.double metrics.length * rounding.sumSquares metrics))

theorem foldl_add (f : ℚ → ℚ) (xs : List ℚ) (acc : ℚ) :
    xs.foldl (fun acc x => acc + f x) acc = acc + (xs.map f).sum := by
  induction xs generalizing acc with
  | nil => simp
  | cons x xs ih =>
    rw [List.foldl_cons, ih, List.map_cons, List.sum_cons, add_assoc]

theorem fairness_exact (metrics : List ℚ) : Rounding.exact.fairness metrics = Averages.jain metrics := by
  have plain := foldl_add id metrics 0
  have squares := foldl_add (fun x => x * x) metrics 0
  rw [zero_add] at plain squares
  rw [List.map_id] at plain
  simp only [fairness, sum, sumSquares, exact, id_eq, Averages.jain, Averages.sumSq] at plain squares ⊢
  rw [plain, squares]

end Floats.Rounding
