import Teleop.Analytics.FdrEntry
import Teleop.Link.Crc

/-!
# Samples of a flight log

How the payloads of a log are read, the features that training takes from them, and the dataset
they are stacked into.  Floats are carried as their bit patterns; what the target does with them
is a parameter.
-/

namespace Teleop.Analytics

open Teleop.Core Teleop.Lib

/-- Conversions and texts of floats, by their bit patterns. -/
structure Floats where
  /-- `as f32` of a small integer. -/
  ofNat : Nat → UInt32
  /-- `f64 as f32`. -/
  narrow : UInt64 → UInt32
  /-- Nanoseconds `as f64 / 1e6`. -/
  millis : UInt64 → UInt64
  /-- `{:?}` of an `f32`. -/
  debug : UInt32 → String
  /-- `{:.digits}` of an `f32`. -/
  fixed32 : (digits : Nat) → UInt32 → String
  /-- `{:.digits}` of an `f64`. -/
  fixed64 : (digits : Nat) → UInt64 → String

/-- A structure without padding, of which every bit pattern is a value. -/
structure PlainBytes (T : Type) where
  widths : List Nat
  ofFields : List Nat → Option T

/-- Copies a value out of the front of some bytes, if there are enough. -/
def PlainBytes.fromBytesAligned {T : Type} (plain : PlainBytes T) (data : List UInt8) :
    Option T :=
  if data.length < plain.widths.sum then none else plain.ofFields (decodeFields plain.widths data)

def plainCommand : PlainBytes (ControlCommand UInt32) where
  widths := Link.commandWidths
  ofFields := Link.commandOfFields

def plainImu : PlainBytes (ImuSample UInt32) where
  widths := [4, 2, 2, 8, 8, 4, 4, 4, 4, 4, 4]
  ofFields
    | [magic, version, reserved, seq, timestampNs, g0, g1, g2, a0, a1, a2] =>
        some {
          magic := .ofNat magic
          version := .ofNat version
          reserved := .ofNat reserved
          seq := .ofNat seq
          timestampNs := .ofNat timestampNs
          gyroRps := fun k => [UInt32.ofNat g0, .ofNat g1, .ofNat g2].get k
          accelG := fun k => [UInt32.ofNat a0, .ofNat a1, .ofNat a2].get k }
    | _ => none

def plainGps : PlainBytes (GpsSample UInt32 UInt64) where
  widths := [4, 2, 2, 8, 8, 8, 8, 8, 4, 4, 4, 4]
  ofFields
    | [magic, version, reserved, seq, timestampNs, latDeg, lonDeg, altM, speedMps, courseDeg,
        sats, fixOk] =>
        some {
          magic := .ofNat magic
          version := .ofNat version
          reserved := .ofNat reserved
          seq := .ofNat seq
          timestampNs := .ofNat timestampNs
          latDeg := .ofNat latDeg
          lonDeg := .ofNat lonDeg
          altM := .ofNat altM
          speedMps := .ofNat speedMps
          courseDeg := .ofNat courseDeg
          sats := .ofNat sats
          fixOk := .ofNat fixOk }
    | _ => none

def plainTelemetry : PlainBytes (TelemetryPacket UInt32) where
  widths := [4, 2, 2, 8, 8, 4, 4, 4, 4, 4, 4, 4, 4]
  ofFields
    | [magic, kind, reserved, seq, timestampNs, v0, v1, v2, v3, v4, v5, v6, v7] =>
        some {
          magic := .ofNat magic
          kind := .ofNat kind
          reserved := .ofNat reserved
          seq := .ofNat seq
          timestampNs := .ofNat timestampNs
          values := fun k => [UInt32.ofNat v0, .ofNat v1, .ofNat v2, .ofNat v3, .ofNat v4,
            .ofNat v5, .ofNat v6, .ofNat v7].get k }
    | _ => none

/-- `FLAG_AI_ORIGIN`. -/
def flagAiOrigin : UInt8 := 2

def isAiOrigin (c : ControlCommand UInt32) : Bool := c.flags &&& flagAiOrigin ≠ 0

/-- One training example. -/
structure Sample where
  features : List UInt32
  label : UInt32
  deriving DecidableEq, Repr

variable (floats : Floats)

/-- The sample in a payload; `none` if the payload is too short for its kind. -/
def extractFeatures (kind : RecordKind) (payload : List UInt8) : Option Sample :=
  match kind with
  | .control => do
      let c ← plainCommand.fromBytesAligned payload
      let mode := floats.ofNat c.mode.toNat
      let origin := floats.ofNat (if isAiOrigin c then 1 else 0)
      return { features := mode :: origin :: List.ofFn c.axes, label := mode }
  | .imu => do
      let s ← plainImu.fromBytesAligned payload
      return { features := List.ofFn s.gyroRps ++ List.ofFn s.accelG, label := 0 }
  | .gps => do
      let s ← plainGps.fromBytesAligned payload
      let fixOk := floats.ofNat s.fixOk.toNat
      return {
        features := [floats.narrow s.latDeg, floats.narrow s.lonDeg, floats.narrow s.altM,
          s.speedMps, s.courseDeg, floats.ofNat s.sats.toNat, fixOk]
        label := fixOk }
  | .telemetry => do
      let s ← plainTelemetry.fromBytesAligned payload
      return { features := List.ofFn s.values, label := floats.ofNat s.kind.toNat }
  | .endMarker => none

/-- `Vec::resize` with zeros. -/
def resize (row : List UInt32) (dim : Nat) : List UInt32 :=
  row.take dim ++ .replicate (dim - row.length) 0

@[simp] theorem length_resize (row : List UInt32) (dim : Nat) : (resize row dim).length = dim := by
  rw [resize, List.length_append, List.length_take, List.length_replicate]
  omega

/-- A stacked dataset: every row has `featureDim` features. -/
structure AiDataset where
  featureDim : Nat
  samples : List Sample
  deriving DecidableEq, Repr

namespace AiDataset

/-- The samples of some entries and the longest row; `none` where a payload is out of range. -/
def gather : List FdrEntry → List Sample → (dim : Nat) → Option (List Sample × Nat)
  | [], samples, dim => some (samples, dim)
  | e :: entries, samples, dim =>
      match e.kind? with
      | none => gather entries samples dim
      | some kind => do
          let payload ← e.payload?
          match extractFeatures floats kind payload with
          | none => gather entries samples dim
          | some s => gather entries (samples ++ [s]) (max dim s.features.length)

/-- The dataset of some entries, each row padded to the longest. -/
def fromEntries (entries : List FdrEntry) : Option AiDataset := do
  let (samples, dim) ← gather floats entries [] 0
  return {
    featureDim := dim
    samples := samples.map fun s => { s with features := resize s.features dim } }

variable {floats}

theorem length_features_of_fromEntries {entries : List FdrEntry} {dataset : AiDataset}
    (built : fromEntries floats entries = some dataset) :
    ∀ s ∈ dataset.samples, s.features.length = dataset.featureDim := by
  obtain ⟨⟨samples, dim⟩, _, stacked⟩ := Option.bind_eq_some_iff.mp built
  obtain rfl := Option.some.inj stacked
  intro s among
  obtain ⟨raw, _, rfl⟩ := List.mem_map.mp among
  exact length_resize raw.features dim

variable (floats) in
/-- The sample of an entry whose payload is its meaningful front. -/
def sampleOf (e : FdrEntry) : Option Sample :=
  e.kind?.bind fun kind => extractFeatures floats kind (e.payload.take e.payloadLen.toNat)

/-- Of entries within their frames the samples are gathered, and whatever else the entries hold
is passed over. -/
theorem gather_of_within {entries : List FdrEntry}
    (within : ∀ e ∈ entries, e.payloadLen.toNat ≤ MAX_PAYLOAD) (samples : List Sample)
    (dim : Nat) :
    ∃ longest, gather floats entries samples dim =
      some (samples ++ entries.filterMap (sampleOf floats), longest) := by
  induction entries generalizing samples dim with
  | nil => exact ⟨dim, by rw [List.filterMap_nil, List.append_nil]; rfl⟩
  | cons e entries inductionHypothesis =>
      have others := inductionHypothesis fun later listed =>
        within later (List.mem_cons_of_mem e listed)
      have payload : e.payload? = some (e.payload.take e.payloadLen.toNat) :=
        if_pos (within e List.mem_cons_self)
      unfold gather
      rw [List.filterMap_cons]
      cases kind : e.kind? with
      | none => simpa only [sampleOf, kind, Option.bind_none] using others samples dim
      | some kind' =>
          have same : sampleOf floats e =
              extractFeatures floats kind' (e.payload.take e.payloadLen.toNat) := by
            rw [sampleOf, kind, Option.bind_some]
          simp only [payload, Option.bind_eq_bind, Option.bind_some]
          rw [same]
          cases extractFeatures floats kind' (e.payload.take e.payloadLen.toNat) with
          | none => exact others samples dim
          | some s =>
              obtain ⟨longest, gathered⟩ := others (samples ++ [s]) (max dim s.features.length)
              exact ⟨longest, by simp [gathered]⟩

theorem fromEntries_of_within {entries : List FdrEntry}
    (within : ∀ e ∈ entries, e.payloadLen.toNat ≤ MAX_PAYLOAD) :
    ∃ dataset, fromEntries floats entries = some dataset ∧
      dataset.samples = (entries.filterMap (sampleOf floats)).map fun s =>
        { s with features := resize s.features dataset.featureDim } := by
  obtain ⟨longest, gathered⟩ := gather_of_within within [] 0
  rw [List.nil_append] at gathered
  rw [fromEntries, gathered]
  exact ⟨_, rfl, rfl⟩

end AiDataset

end Teleop.Analytics
