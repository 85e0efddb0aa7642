import Teleop.Lib.LinearProbing
import Teleop.Lib.Word
import Mathlib.Data.List.FinRange
import Mathlib.Data.List.Nodup

/-!
# Swarm neighbor discovery: the neighbor table

A fixed-capacity table of discovered units, open-addressed by unit id with
linear probing.  `observe` admits beacons under a clock-skew guard, an address
flap limit and wrap-safe sequence order; `expire` drops silent entries.
-/

namespace Teleop.Link

open Teleop.Lib

/-- IP address of a peer; flow label and scope are part of a v6 socket address. -/
inductive IpAddr where
  | v4 (bits : UInt32)
  | v6 (high low : UInt64) (flowinfo scopeId : UInt32)
  deriving DecidableEq, Repr

structure SocketAddr where
  ip : IpAddr
  port : UInt16
  deriving DecidableEq, Repr

/-- One discovered neighbor. -/
structure NeighborEntry where
  unitId : UInt64
  addr : SocketAddr
  lastSeenNs : UInt64
  lastSeq : UInt32
  lastFlapNs : UInt64
  deriving DecidableEq, Repr

/-- Neighbor-table admission policy. -/
structure MeshConfig where
  maxClockSkewNs : UInt64 := 30000000000
  flapCooldownNs : UInt64 := 2000000000
  deriving DecidableEq, Repr

/-- The table; a table without slots cannot be built. -/
structure NeighborTable where
  capacity : Nat
  positive : 0 < capacity
  slots : Fin capacity → Option NeighborEntry
  len : Nat
  cfg : MeshConfig

/-- What `observe` is told about one received beacon. -/
structure Beacon where
  unitId : UInt64
  addr : SocketAddr
  seq : UInt32
  tsNs : UInt64
  nowNs : UInt64
  deriving DecidableEq, Repr

namespace NeighborTable

/-- A table with `capacity` slots (at least one) and a custom admission policy. -/
def withConfig (capacity : Nat) (cfg : MeshConfig) : NeighborTable where
  capacity := max capacity 1
  positive := by omega
  slots _ := none
  len := 0
  cfg := cfg

def withCapacity (capacity : Nat) : NeighborTable := withConfig capacity {}

/-- Fibonacci hash: cheap avalanche across the low bits. -/
def probeStart (unitId : UInt64) : Nat := ((unitId * 0x9E3779B97F4A7C15) >>> 47).toNat

/-- `probe_start(unit_id) % cap`. -/
def home (table : NeighborTable) (unitId : UInt64) : Fin table.capacity :=
  ⟨probeStart unitId % table.capacity, Nat.mod_lt _ table.positive⟩

/-- The probe loop that `observe` and `find` share: at most `capacity` slots from the home
slot on, up to the first one that is free or holds the unit. -/
def place (table : NeighborTable) (unitId : UInt64) : Option (Fin table.capacity) :=
  LinearProbing.place NeighborEntry.unitId table.home table.slots unitId

def setSlot (table : NeighborTable) (slot : Fin table.capacity) (entry : NeighborEntry) :
    NeighborTable :=
  { table with slots := Function.update table.slots slot (some entry) }

/-- The four update branches for a known unit: flap suppressed, address changed, sequence
advanced, refreshed. -/
def refreshed (cfg : MeshConfig) (entry : NeighborEntry) (beacon : Beacon) :
    NeighborEntry × Bool :=
  let advanced := serialAhead beacon.seq entry.lastSeq
  if entry.addr ≠ beacon.addr then
    if saturatingSub beacon.nowNs entry.lastFlapNs < cfg.flapCooldownNs then
      ({ entry with lastSeenNs := beacon.nowNs }, false)
    else
      ({ entry with
          addr := beacon.addr
          lastFlapNs := beacon.nowNs
          lastSeenNs := beacon.nowNs
          lastSeq := if advanced then beacon.seq else entry.lastSeq }, true)
  else if advanced then
    ({ entry with lastSeq := beacon.seq, lastSeenNs := beacon.nowNs }, true)
  else
    ({ entry with lastSeenNs := beacon.nowNs }, false)

/-- The entry of a unit seen for the first time. -/
def inserted (beacon : Beacon) : NeighborEntry where
  unitId := beacon.unitId
  addr := beacon.addr
  lastSeenNs := beacon.nowNs
  lastSeq := beacon.seq
  lastFlapNs := beacon.nowNs

/-- Records a beacon; `true` when it is a new or advanced observation worth replying to. -/
def observe (table : NeighborTable) (beacon : Beacon) : NeighborTable × Bool :=
  if absDiff beacon.tsNs beacon.nowNs > table.cfg.maxClockSkewNs then (table, false)
  else
    match table.place beacon.unitId with
    | none => (table, false) -- table full: silently ignore
    | some slot =>
        match table.slots slot with
        | some entry =>
            let (entry, result) := refreshed table.cfg entry beacon
            (table.setSlot slot entry, result)
        | none => ({ table.setSlot slot (inserted beacon) with len := table.len + 1 }, true)

/-- Looks a neighbor up by id. -/
def find (table : NeighborTable) (unitId : UInt64) : Option NeighborEntry :=
  LinearProbing.lookup NeighborEntry.unitId table.home table.slots unitId

/-- Silent for longer than `ttl` at time `now`. -/
def silent (nowNs ttlNs : UInt64) (entry : NeighborEntry) : Bool :=
  decide (saturatingSub nowNs entry.lastSeenNs > ttlNs)

/-- The live entries in slot order. -/
def iter (table : NeighborTable) : List NeighborEntry :=
  (List.finRange table.capacity).filterMap table.slots

/-- Drops entries silent for longer than `ttl`; returns how many. -/
def expire (table : NeighborTable) (nowNs ttlNs : UInt64) : NeighborTable × Nat :=
  let removed := table.iter.countP (silent nowNs ttlNs)
  ({ table with
      slots := fun slot => (table.slots slot).filter fun entry => !silent nowNs ttlNs entry
      len := table.len - removed }, removed)

@[simp] theorem mem_iter (table : NeighborTable) (entry : NeighborEntry) :
    entry ∈ table.iter ↔ ∃ slot, table.slots slot = some entry := by
  simp [iter]

/-- Everything `observe` can do to the table. -/
theorem observe_cases (table : NeighborTable) (beacon : Beacon) :
    (table.observe beacon = (table, false) ∧
      (table.cfg.maxClockSkewNs < absDiff beacon.tsNs beacon.nowNs ∨
        table.place beacon.unitId = none)) ∨
    (∃ slot entry, table.place beacon.unitId = some slot ∧ table.slots slot = some entry ∧
      table.observe beacon =
        (table.setSlot slot (refreshed table.cfg entry beacon).1,
          (refreshed table.cfg entry beacon).2)) ∨
    (∃ slot, table.place beacon.unitId = some slot ∧ table.slots slot = none ∧
      table.observe beacon =
        ({ table.setSlot slot (inserted beacon) with len := table.len + 1 }, true)) := by
  unfold observe
  by_cases skewed : absDiff beacon.tsNs beacon.nowNs > table.cfg.maxClockSkewNs
  · exact .inl ⟨by rw [if_pos skewed], .inl skewed⟩
  · rw [if_neg skewed]
    cases placed : table.place beacon.unitId with
    | none => exact .inl ⟨rfl, .inr rfl⟩
    | some slot =>
        cases held : table.slots slot with
        | some entry => exact .inr (.inl ⟨slot, entry, rfl, held, by simp [held]⟩)
        | none => exact .inr (.inr ⟨slot, rfl, held, by simp [held]⟩)

/-- What an update of a known unit's entry keeps: its id; the sequence unless it moves
strictly ahead; the address and its flap time unless the cooldown has passed. -/
theorem refreshed_spec (cfg : MeshConfig) (entry : NeighborEntry) (beacon : Beacon) :
    (refreshed cfg entry beacon).1.unitId = entry.unitId ∧
    ((refreshed cfg entry beacon).1.lastSeq = entry.lastSeq ∨
      serialAhead (refreshed cfg entry beacon).1.lastSeq entry.lastSeq = true) ∧
    (((refreshed cfg entry beacon).1.addr = entry.addr ∧
        (refreshed cfg entry beacon).1.lastFlapNs = entry.lastFlapNs) ∨
      ((refreshed cfg entry beacon).1.addr ≠ entry.addr ∧
        (refreshed cfg entry beacon).1.lastFlapNs = beacon.nowNs ∧
        cfg.flapCooldownNs ≤ saturatingSub beacon.nowNs entry.lastFlapNs)) := by
  simp only [refreshed]
  split
  · rename_i moved
    split
    · simp
    · rename_i cooled
      refine ⟨rfl, ?_, .inr ⟨Ne.symm moved, rfl, UInt64.not_lt.mp cooled⟩⟩
      cases ahead : serialAhead beacon.seq entry.lastSeq <;> simp [ahead]
  · split
    · rename_i ahead
      exact ⟨rfl, .inr ahead, .inl ⟨rfl, rfl⟩⟩
    · simp

end NeighborTable

end Teleop.Link
