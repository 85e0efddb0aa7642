import Mathlib.Data.Rat.Sqrt

/-!
# Floating-point operations as a parameter

The operations a program performs on `f32` and `f64` values, without any law.  A
model over this class covers every rounding and every treatment of non-numbers;
the instance on the rationals is exact arithmetic.
-/

namespace Teleop.Lib

/-- Arithmetic, literals and comparisons of one floating-point format. -/
class FloatOps (F : Type) extends Zero F, Add F, Sub F, Mul F, Div F, Neg F where
  /-- A literal, or an integer converted with `as`. -/
  ofRat : ℚ → F
  lt : F → F → Bool
  le : F → F → Bool
  eq : F → F → Bool

/-- Conversions between a narrow and a wide format, and the wide format's `hypot`. -/
class FloatPair (S D : Type) where
  widen : S → D
  narrow : D → S
  hypot : D → D → D

namespace FloatOps

variable {F : Type} [FloatOps F]

/-- `clamp` for bounds in order; a value that compares with neither bound is kept. -/
def clamp (x low high : F) : F :=
  if lt x low then low else if lt high x then high else x

/-- `clamp` panics unless its bounds are in order, as a non-number never is. -/
def clampPanics (low high : F) : Bool := !le low high

/-- `max`, which prefers the operand that is a number. -/
def max (x y : F) : F := if lt x y || !eq x x then y else x

/-- `min`, which prefers the operand that is a number. -/
def min (x y : F) : F := if lt y x || !eq x x then y else x

def abs (x : F) : F := if lt x 0 then -x else x

end FloatOps

instance : FloatOps ℚ where
  ofRat := id
  lt x y := decide (x < y)
  le x y := decide (x ≤ y)
  eq x y := decide (x = y)

/-- Exact arithmetic in both formats; `hypot` is exact where the result is rational. -/
instance : FloatPair ℚ ℚ where
  widen := id
  narrow := id
  hypot x y := Rat.sqrt (x * x + y * y)

end Teleop.Lib
