import Teleop.Cloud.Json
import Teleop.Lib.Binary64

/-!
# The numbers of the codec as doubles

`f64` as the codec uses it: a number is read by rounding its exact value, and written with
the fewest digits that read back as it.
-/

namespace Teleop.Cloud

open Teleop.Lib

namespace JsonDouble

/-- The multiple of `unit` next to `value` that reads as `value`, the nearer one of two. -/
def candidate (value unit : ℚ) : Option Nat :=
  let low := ⌊value / unit⌋.toNat
  let reads (multiple : Nat) : Bool := Binary64.nearest (multiple * unit) = value
  if reads low && (!reads (low + 1) || value / unit - low ≤ 1 / 2) then some low
  else if reads (low + 1) then some (low + 1)
  else none

/-- The fewest digits that read as `value`, and the power of ten they are taken at; `steps`
powers below `power` are tried. -/
def shortest (value : ℚ) : (steps : Nat) → (power : ℤ) → Nat × ℤ
  | 0, power => (⌊value / 10 ^ power⌋.toNat, power)
  | steps + 1, power =>
      match candidate value (10 ^ power) with
      | some digits => (digits, power)
      | none => shortest value steps (power - 1)

/-- Decimal text without an exponent. -/
def decimalText (digits : Nat) (power : ℤ) : String :=
  if 0 ≤ power then toString (digits * 10 ^ power.toNat)
  else
    let places := (-power).toNat
    let text := Nat.toDigits 10 digits
    let padded := List.replicate (places + 1 - text.length) '0' ++ text
    .ofList (padded.take (padded.length - places) ++ '.' :: padded.drop (padded.length - places))

/-- The text of a positive value; no double has digits below `10 ^ -1074`. -/
def displayPositive (value : ℚ) : String :=
  let power := Int.log 10 value + 1
  let (digits, power) := shortest value (power + 1074).toNat power
  decimalText digits power

def display : Binary64 → String
  | .finite value _ _ =>
      if value = 0 then "0"
      else if value < 0 then "-" ++ displayPositive (-value)
      else displayPositive value
  | .infinite true => "-inf"
  | .infinite false => "inf"
  | .nan => "NaN"

end JsonDouble

/-- Conversions to integers saturate, and give 0 for what is no number. -/
instance : JsonNumber Binary64 where
  isFinite
    | .finite _ _ _ => true
    | _ => false
  fract
    | .finite value _ _ => .round (value - truncate value)
    | _ => .nan
  toInt64
    | .finite value _ _ => .ofInt (max (-2 ^ 63) (min (truncate value) (2 ^ 63 - 1)))
    | .infinite true => Int64.minValue
    | .infinite false => Int64.maxValue
    | .nan => 0
  toUInt64
    | .finite value _ _ => .ofNat (min (truncate value).toNat (2 ^ 64 - 1))
    | .infinite true => 0
    | .infinite false => .ofNat (2 ^ 64 - 1)
    | .nan => 0
  parse b := (JsonParser.exactNumber b).map Binary64.round
  display := JsonDouble.display

end Teleop.Cloud
