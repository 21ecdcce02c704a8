import Mathlib.Data.Int.Log
import Mathlib.Data.Rat.Floor

namespace Floats

/-- The nearest integer, and the even one of two that are equally near. -/
def nearestEven (q : ℚ) : ℤ :=
  if q - q.floor < 1 / 2 then q.floor
  else if 1 / 2 < q - q.floor then q.floor + 1
  else if q.floor % 2 = 0 then q.floor
  else q.floor + 1

def roundTo (bits : ℕ) (q : ℚ) : ℚ :=
  if q = 0 then 0
  else
    let unit : ℚ := 2 ^ (Int.log 2 |q| + 1 - bits)
    nearestEven (q / unit) * unit

/-- What `float` and `double` operations make of their exact results. -/
structure Rounding where
  single : ℚ → ℚ
  double : ℚ → ℚ

namespace Rounding

/-- IEEE 754, away from the ends of the exponent range. -/
def ieee : Rounding := ⟨roundTo 24, roundTo 53⟩

def exact : Rounding := ⟨id, id⟩

end Rounding

end Floats
