import Teleop.Cloud.JsonDouble

/-!
# The numbers of a text as they are written

Parsing looks at the numbers of a text only to convert them.  The values read with two
conversions differ in their numbers alone, so what the codec reads is the exact reading
with every number rounded.
-/

namespace Teleop.Cloud

open Teleop.Lib

namespace Json

variable {F G : Type} (f : F → G)

mutual

/-- The value with every number replaced. -/
def map : Json F → Json G
  | .null => .null
  | .bool value => .bool value
  | .num value => .num (f value)
  | .str value => .str value
  | .arr items => .arr (mapItems items)
  | .obj fields => .obj (mapFields fields)

def mapItems : List (Json F) → List (Json G)
  | [] => []
  | item :: rest => map item :: mapItems rest

def mapFields : List (String × Json F) → List (String × Json G)
  | [] => []
  | (key, value) :: rest => (key, map value) :: mapFields rest

end

@[simp] theorem mapItems_eq (items : List (Json F)) : mapItems f items = items.map (map f) := by
  induction items with
  | nil => rfl
  | cons item rest inductionHypothesis => rw [mapItems, inductionHypothesis, List.map_cons]

@[simp] theorem mapFields_eq (fields : List (String × Json F)) :
    mapFields f fields = fields.map fun field => (field.1, field.2.map f) := by
  induction fields with
  | nil => rfl
  | cons field rest inductionHypothesis => rw [mapFields, inductionHypothesis, List.map_cons]

@[simp] theorem asStr_map (json : Json F) : (json.map f).asStr = json.asStr := by
  cases json <;> rfl

@[simp] theorem get_map (json : Json F) (key : String) :
    (json.map f).get key = (json.get key).map (map f) := by
  cases json with
  | obj fields =>
      simp only [map, get, mapFields_eq, List.find?_map, Option.map_map]
      rfl
  | _ => rfl

end Json

namespace JsonParser

variable {F G : Type} [JsonNumber F] [JsonNumber G]

/-- A parsed value with every number replaced. -/
def mapNumbers (f : F → G) : Parsed (Json F) → Parsed (Json G) :=
  Except.map fun (value, rest) => (value.map f, rest)

/-- `f` takes the numbers of one conversion to those of the other. -/
def Converts (f : F → G) : Prop :=
  ∀ b, (JsonNumber.parse b : Option G) = (JsonNumber.parse b : Option F).map f

section Steps

variable {f : F → G}

theorem Converts.parseNumber (converts : Converts f) (b : List UInt8) :
    (parseNumber b : Parsed G) = (parseNumber b : Parsed F).map fun (value, rest) =>
      (f value, rest) := by
  have agree := converts (b.take (b.length - (skipNumber b).length))
  simp only [JsonParser.parseNumber, agree]
  cases (JsonNumber.parse (b.take (b.length - (skipNumber b).length)) : Option F) with
  | none => rfl
  | some value => rfl

omit [JsonNumber F] [JsonNumber G] in
theorem mapNumbers_orEmpty (closing : UInt8) (empty : Json F)
    {loop : List UInt8 → Parsed (Json F)} {other : List UInt8 → Parsed (Json G)}
    (looped : ∀ b, other b = mapNumbers f (loop b)) (b : List UInt8) :
    orEmpty closing (empty.map f) other b = mapNumbers f (orEmpty closing empty loop b) := by
  unfold orEmpty
  cases skipWs b with
  | nil => exact looped []
  | cons c rest =>
      dsimp only
      split
      · rfl
      · exact looped (c :: rest)

omit [JsonNumber F] [JsonNumber G] in
theorem mapNumbers_expect (value : Json F) (lit : String) (b : List UInt8) :
    expect (value.map f) lit b = mapNumbers f (expect value lit b) := by
  simp only [expect]
  split
  · rfl
  · rfl

end Steps

section Fuel

variable (f : F → G)

def ValuesMap (fuel : Nat) : Prop :=
  ∀ b, parseValue fuel b = mapNumbers f (parseValue fuel b)

def ItemsMap (fuel : Nat) : Prop :=
  ∀ items b, parseItems fuel (items.map (Json.map f)) b = mapNumbers f (parseItems fuel items b)

def FieldsMap (fuel : Nat) : Prop :=
  ∀ fields b, parseFields fuel (fields.map fun field => (field.1, field.2.map f)) b =
    mapNumbers f (parseFields fuel fields b)

variable {f} {fuel : Nat}

theorem ItemsMap.values (converts : Converts f) (items : ItemsMap f fuel)
    (fields : FieldsMap f fuel) : ValuesMap f (fuel + 1) := by
  intro b
  rw [parseValue, parseValue]
  cases skipWs b with
  | nil => rfl
  | cons c rest =>
      dsimp only
      split
      · cases parseString rest [] <;> rfl
      split
      · exact mapNumbers_orEmpty 0x7D (.obj []) (fields []) rest
      split
      · exact mapNumbers_orEmpty (byte ']') (.arr []) (items []) rest
      split
      · exact mapNumbers_expect (.bool true) "true" (c :: rest)
      split
      · exact mapNumbers_expect (.bool false) "false" (c :: rest)
      split
      · exact mapNumbers_expect .null "null" (c :: rest)
      split
      · rw [converts.parseNumber]
        cases (parseNumber (c :: rest) : Parsed F) <;> rfl
      · rfl

theorem ValuesMap.items (values : ValuesMap f fuel) (items : ItemsMap f fuel) :
    ItemsMap f (fuel + 1) := by
  intro found b
  rw [parseItems, parseItems, values]
  cases (parseValue fuel b : Parsed (Json F)) with
  | error failure => rfl
  | ok parsed =>
      obtain ⟨value, rest⟩ := parsed
      simp only [mapNumbers, Except.map]
      cases skipWs rest with
      | nil => rfl
      | cons c rest =>
          dsimp only
          split
          · have following := items (found ++ [value]) rest
            rw [List.map_append] at following
            exact following
          split
          · simp [Json.map]
          · rfl

theorem ValuesMap.fields (values : ValuesMap f fuel) (fields : FieldsMap f fuel) :
    FieldsMap f (fuel + 1) := by
  intro found b
  rw [parseFields, parseFields]
  cases skipWs b with
  | nil => rfl
  | cons c rest =>
      dsimp only
      split
      case isFalse => rfl
      cases parseString rest [] with
      | error failure => rfl
      | ok parsed =>
          obtain ⟨key, rest⟩ := parsed
          dsimp only
          cases skipWs rest with
          | nil => rfl
          | cons c rest =>
              dsimp only
              split
              case isFalse => rfl
              rw [values]
              cases (parseValue fuel rest : Parsed (Json F)) with
              | error failure => rfl
              | ok parsed =>
                  obtain ⟨value, rest⟩ := parsed
                  simp only [mapNumbers, Except.map]
                  cases skipWs rest with
                  | nil => rfl
                  | cons c rest =>
                      dsimp only
                      split
                      · have following := fields (found ++ [(key, value)]) rest
                        rw [List.map_append] at following
                        exact following
                      split
                      · simp [Json.map]
                      · rfl

theorem map_of_fuel (converts : Converts f) (fuel : Nat) :
    ValuesMap f fuel ∧ ItemsMap f fuel ∧ FieldsMap f fuel := by
  induction fuel with
  | zero => exact ⟨fun b => rfl, fun items b => rfl, fun fields b => rfl⟩
  | succ fuel inductionHypothesis =>
      obtain ⟨values, items, fields⟩ := inductionHypothesis
      exact ⟨items.values converts fields, values.items items, values.fields fields⟩

end Fuel

/-- Two conversions of the numbers of one text. -/
theorem Converts.parse {f : F → G} (converts : Converts f) (bytes : List UInt8) :
    (Json.parse bytes : Except String (Json G)) =
      (Json.parse bytes : Except String (Json F)).map (Json.map f) := by
  rw [Json.parse, Json.parse, (map_of_fuel converts _).1]
  cases (parseValue (2 * bytes.length + 1) bytes : Parsed (Json F)) with
  | error failure => cases failure <;> rfl
  | ok parsed =>
      obtain ⟨value, rest⟩ := parsed
      simp only [mapNumbers, Except.map]
      split
      · rfl
      · rfl

end JsonParser

/-- The codec rounds each number of a text, and leaves the rest as it is. -/
theorem Json.parse_round (bytes : List UInt8) :
    (Json.parse bytes : Except String (Json Binary64)) =
      (Json.parse bytes : Except String (Json ℚ)).map (Json.map Binary64.round) := by
  have converts : JsonParser.Converts Binary64.round := fun b => rfl
  exact converts.parse bytes

end Teleop.Cloud
