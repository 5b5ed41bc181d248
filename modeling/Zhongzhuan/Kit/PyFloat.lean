import Mathlib

/-!
# Floats that a program compares, adds and takes the smaller of

The values of a Python `float`: the finite ones, here exact, the two infinities and `nan`.
Comparison with `nan` is false either way, so `<` is no linear order, and `min(a, b)` is
`b` only where `b < a`: whether it returns `nan` depends on the order of its arguments.
-/

namespace Zhongzhuan.Kit

/-- A float. -/
inductive PyFloat
  | finite (q : ℚ)
  | inf
  | negInf
  | nan
deriving DecidableEq, Repr

namespace PyFloat

/-- `a < b`. -/
def lt : PyFloat → PyFloat → Bool
  | .finite a, .finite b => decide (a < b)
  | .finite _, .inf | .negInf, .finite _ | .negInf, .inf => true
  | _, _ => false

/-- `a <= b`. -/
def le : PyFloat → PyFloat → Bool
  | .finite a, .finite b => decide (a ≤ b)
  | .finite _, .inf | .negInf, .finite _ | .negInf, .inf => true
  | .inf, .inf | .negInf, .negInf => true
  | _, _ => false

/-- `q + x` for a finite `q`. -/
def addTo (q : ℚ) : PyFloat → PyFloat
  | .finite x => .finite (q + x)
  | other => other

/-- `min(a, b)`. -/
def min (a b : PyFloat) : PyFloat := if b.lt a then b else a

@[simp] theorem lt_finite (a b : ℚ) : (finite a).lt (finite b) = decide (a < b) := rfl

@[simp] theorem le_finite (a b : ℚ) : (finite a).le (finite b) = decide (a ≤ b) := rfl

@[simp] theorem addTo_finite (q x : ℚ) : addTo q (finite x) = finite (q + x) := rfl

theorem min_finite_of_pos {x : PyFloat} {q : ℚ} (positive : (finite 0).lt x = true) :
    ∃ y, x.min (finite q) = finite y := by
  cases x with
  | finite a =>
      unfold min
      split
      · exact ⟨q, rfl⟩
      · exact ⟨a, rfl⟩
  | inf => exact ⟨q, rfl⟩
  | negInf => simp [lt] at positive
  | nan => simp [lt] at positive

theorem exists_not_lt {x : PyFloat} (below : x ≠ inf) :
    ∃ bound : ℚ, ∀ t, bound ≤ t → (finite t).lt x = false := by
  cases x with
  | finite a => exact ⟨a, fun t late => by simpa using late⟩
  | inf => exact absurd rfl below
  | negInf => exact ⟨0, fun _ _ => rfl⟩
  | nan => exact ⟨0, fun _ _ => rfl⟩

end PyFloat

end Zhongzhuan.Kit
