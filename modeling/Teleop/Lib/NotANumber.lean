import Teleop.Lib.FloatOps

/-!
# Formats with a value that is no number

Any format with one more value, which is the result of every operation on it and compares
with nothing.  Division by zero yields it as well.
-/

namespace Teleop.Lib

/-- A value of `F`, or no number. -/
inductive OrNaN (F : Type) where
  | number (x : F)
  | nan
  deriving DecidableEq, Repr

namespace OrNaN

variable {F G : Type}

def map (f : F → G) : OrNaN F → OrNaN G
  | number x => number (f x)
  | nan => nan

def map₂ (f : F → F → G) : OrNaN F → OrNaN F → OrNaN G
  | number x, number y => number (f x y)
  | _, _ => nan

/-- A comparison, false where a side is no number. -/
def compare (relation : F → F → Bool) : OrNaN F → OrNaN F → Bool
  | number x, number y => relation x y
  | _, _ => false

@[simp] theorem map_eq_nan {f : F → G} {x : OrNaN F} : x.map f = nan ↔ x = nan := by
  cases x <;> simp [map]

@[simp] theorem map₂_eq_nan {f : F → F → G} {x y : OrNaN F} :
    x.map₂ f y = nan ↔ x = nan ∨ y = nan := by
  cases x <;> cases y <;> simp [map₂]

theorem numbers_of_compare {relation : F → F → Bool} {x y : OrNaN F}
    (related : x.compare relation y = true) : x ≠ nan ∧ y ≠ nan := by
  cases x <;> cases y <;> simp_all [compare]

section Operations

variable [FloatOps F]

instance : FloatOps (OrNaN F) where
  zero := number 0
  add := map₂ (· + ·)
  sub := map₂ (· - ·)
  mul := map₂ (· * ·)
  div x y := if y.compare FloatOps.eq (number 0) then nan else x.map₂ (· / ·) y
  neg := map (- ·)
  ofRat q := number (FloatOps.ofRat q)
  lt := compare FloatOps.lt
  le := compare FloatOps.le
  eq := compare FloatOps.eq

variable {x y low high : OrNaN F}

@[simp] theorem zero_ne_nan : (0 : OrNaN F) ≠ nan := nofun

@[simp] theorem ofRat_ne_nan (q : ℚ) : (FloatOps.ofRat q : OrNaN F) ≠ nan := nofun

@[simp] theorem add_eq_nan : x + y = nan ↔ x = nan ∨ y = nan := map₂_eq_nan

@[simp] theorem sub_eq_nan : x - y = nan ↔ x = nan ∨ y = nan := map₂_eq_nan

@[simp] theorem mul_eq_nan : x * y = nan ↔ x = nan ∨ y = nan := map₂_eq_nan

theorem numbers_of_lt (smaller : FloatOps.lt x y = true) : x ≠ nan ∧ y ≠ nan :=
  numbers_of_compare smaller

/-- Clamping neither makes nor hides a value that is no number, whatever the bounds. -/
@[simp] theorem clamp_eq_nan : FloatOps.clamp x low high = nan ↔ x = nan := by
  unfold FloatOps.clamp
  split
  case isTrue below => simp [numbers_of_lt below]
  case isFalse =>
      split
      case isTrue above => simp [numbers_of_lt above]
      case isFalse => rfl

end Operations

instance {S D : Type} [FloatPair S D] : FloatPair (OrNaN S) (OrNaN D) where
  widen := map (FloatPair.widen)
  narrow := map (FloatPair.narrow)
  hypot := map₂ (FloatPair.hypot S)

@[simp] theorem narrow_eq_nan {S D : Type} [FloatPair S D] {x : OrNaN D} :
    (FloatPair.narrow x : OrNaN S) = nan ↔ x = nan := map_eq_nan

@[simp] theorem widen_eq_nan {S D : Type} [FloatPair S D] {x : OrNaN S} :
    (FloatPair.widen x : OrNaN D) = nan ↔ x = nan := map_eq_nan

end OrNaN

end Teleop.Lib
