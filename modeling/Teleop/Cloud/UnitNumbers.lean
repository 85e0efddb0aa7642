import Teleop.Cloud.JsonExact
import Teleop.Cloud.JsonRoundTrip
import Teleop.Cloud.Mcp

/-!
# Unit ids as JSON numbers

An id crosses the codec as a double in both directions.  Writing and reading change nothing
that a double holds; what is lost is lost when an id of 64 bits, or a number of a request,
is rounded to 53 bits and cut off to an id again.
-/

namespace Teleop.Cloud

open Teleop.Lib JsonParser

/-- The id that a number addresses as it is written in a request. -/
def addressed (number : ℚ) : UInt64 := JsonNumber.toUInt64 (Binary64.round number)

/-- The ids that survive: those a double holds, and the largest one, to which what is larger
saturates. -/
def KeptId (id : UInt64) : Prop :=
  Binary64.Representable (id.toNat : ℚ) ∨ id.toNat = 2 ^ 64 - 1

theorem addressed_natCast {n : Nat} (small : n < 2 ^ 64) :
    ∃ m : Nat, Binary64.nearest n = m ∧ (addressed n).toNat = min m (2 ^ 64 - 1) := by
  obtain ⟨m, same, -, representable, bounded, rounded⟩ := Binary64.round_natCast small
  refine ⟨m, same, ?_⟩
  rw [addressed, rounded]
  show (UInt64.ofNat (min (truncate ((m : Nat) : ℚ)).toNat (2 ^ 64 - 1))).toNat = _
  have whole : truncate (m : ℚ) = m := truncate_intCast m
  have fits : min m (2 ^ 64 - 1) < 2 ^ 64 := (Nat.min_le_right _ _).trans_lt (by decide)
  rw [whole, Int.toNat_natCast, UInt64.toNat_ofNat_of_lt' fits]

/-- An id addresses itself exactly if it is kept. -/
theorem addressed_id_iff (id : UInt64) : addressed id.toNat = id ↔ KeptId id := by
  obtain ⟨m, same, value⟩ := addressed_natCast id.toNat_lt
  rw [← UInt64.toNat_inj, value]
  constructor
  · intro back
    by_cases saturated : m ≤ 2 ^ 64 - 1
    · rw [Nat.min_eq_left saturated] at back
      rw [back] at same
      exact .inl (Binary64.nearest_eq_iff.mp same)
    · rw [Nat.min_eq_right (Nat.le_of_not_le saturated)] at back
      exact .inr back.symm
  · rintro (representable | largest)
    · rw [Binary64.nearest_of_representable representable] at same
      have exact : id.toNat = m := by exact_mod_cast same
      rw [← exact]
      exact Nat.min_eq_left (Nat.le_sub_one_of_lt id.toNat_lt)
    · have top : Binary64.nearest ((2 ^ 64 - 1 : Nat) : ℚ) = 2 ^ 64 := by decide +kernel
      rw [largest, top] at same
      have carried : 2 ^ 64 = m := by exact_mod_cast same
      rw [← carried, largest]
      decide

/-- A number addresses the unit it denotes exactly if it denotes an id that is kept. -/
theorem addressed_eq_iff (number : ℚ) : ((addressed number).toNat : ℚ) = number ↔
    ∃ id : UInt64, (id.toNat : ℚ) = number ∧ KeptId id := by
  constructor
  · intro same
    refine ⟨addressed number, same, ?_⟩
    rw [← addressed_id_iff, same]
  · rintro ⟨id, rfl, kept⟩
    rw [(addressed_id_iff id).mpr kept]

section Listing

/-- The id that the number of a listed unit addresses when a client sends it back. -/
def returned (info : UnitInfo) (operator : String) : Option UInt64 :=
  ((info.toJson : Json Binary64).get "id").bind fun number =>
    let sent : Json Binary64 := .obj [("unit_id", number), ("operator", .str operator)]
    match (Json.parse (utf8 sent.write) : Except String (Json Binary64)) with
    | .ok args => (args.get "unit_id").bind Json.asU64
    | .error _ => none

theorem readsBack_uint (id : UInt64) : ReadsBack (.uint id) := by
  obtain ⟨m, same, -, representable, bounded, rounded⟩ := Binary64.round_natCast id.toNat_lt
  obtain ⟨n, written, read⟩ := writeNumber_natCast representable bounded
  show ReadsBack (.num (Binary64.round id.toNat))
  rw [rounded]
  exact .number written read

theorem returned_eq (info : UnitInfo) (operator : String) :
    returned info operator = some (addressed info.id.toNat) := by
  have reported : (info.toJson : Json Binary64).get "id" = some (.uint info.id) := rfl
  have read : FieldsReadBack [("unit_id", .uint info.id), ("operator", .str operator)] :=
    .cons "unit_id" (readsBack_uint info.id) (.single "operator" (readsBack_str operator))
  have key : rawText "unit_id" = "unit_id" := rawText_eq_iff.mpr (ascii_iff_all.mpr (by decide))
  rw [returned, reported, Option.bind_some]
  simp only [read.obj.parse, Json.raw, Json.rawFields, key]
  rfl

end Listing

end Teleop.Cloud
