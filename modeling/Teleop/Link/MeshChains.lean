import Teleop.Link.Mesh
import Mathlib.Data.List.Pairwise

/-!
# Probe chains of the neighbor table

`find` stops at the first free slot, so the table answers correctly only while
every slot between a unit's home and its entry is occupied.  `observe` keeps
this; `expire` empties slots in place and does not.
-/

namespace Teleop.Link.NeighborTable

open Teleop.Lib Teleop.Lib.LinearProbing

inductive Operation where
  | observe (beacon : Beacon)
  | expire (nowNs ttlNs : UInt64)

def perform (table : NeighborTable) : Operation → NeighborTable
  | .observe beacon => (table.observe beacon).1
  | .expire nowNs ttlNs => (table.expire nowNs ttlNs).1

def run (table : NeighborTable) (operations : List Operation) : NeighborTable :=
  operations.foldl perform table

/-- The representation invariant as its readers see it: each unit at most once, `find`
returns exactly the live entries, and `len` counts them. -/
def Consistent (table : NeighborTable) : Prop :=
  (table.iter.map NeighborEntry.unitId).Nodup ∧
  (∀ entry ∈ table.iter, table.find entry.unitId = some entry) ∧
  (∀ unitId, (∀ entry ∈ table.iter, entry.unitId ≠ unitId) → table.find unitId = none) ∧
  table.len = table.iter.length

/-- The invariant on the slots themselves. -/
structure WellFormed (table : NeighborTable) : Prop where
  unique : Unique NeighborEntry.unitId table.slots
  linked : Linked NeighborEntry.unitId table.home table.slots
  counted : table.len = table.iter.length

/-- No entry that stays has an entry that goes between its home slot and its own slot. -/
def ExpiresBehind (table : NeighborTable) (nowNs ttlNs : UInt64) : Prop :=
  ∀ slot entry offset, table.slots slot = some entry → silent nowNs ttlNs entry = false →
    offset < table.capacity → along (table.home entry.unitId) offset = slot →
    ∀ before < offset, ∀ other,
      table.slots (along (table.home entry.unitId) before) = some other →
      silent nowNs ttlNs other = false

theorem nodup_iff_unique (table : NeighborTable) :
    (table.iter.map NeighborEntry.unitId).Nodup ↔ Unique NeighborEntry.unitId table.slots := by
  simp only [iter, List.map_filterMap]
  constructor
  · intro nodup i j a b heldA heldB same
    by_contra distinct
    have symmetric : Std.Symm fun i j : Fin table.capacity =>
        ∀ a, (table.slots i).map NeighborEntry.unitId = some a →
          ∀ b, (table.slots j).map NeighborEntry.unitId = some b → a ≠ b :=
      ⟨fun i j apart b heldB a heldA same => apart a heldA b heldB same.symm⟩
    have apart := (List.pairwise_filterMap.mp nodup).forall
      (List.mem_finRange i) (List.mem_finRange j) distinct
    exact apart a.unitId (by simp [heldA]) b.unitId (by simp [heldB]) same
  · intro unique
    apply List.Nodup.filterMap _ (List.nodup_finRange _)
    intro i j unitId memI memJ
    obtain ⟨a, heldA, idA⟩ := Option.map_eq_some_iff.mp memI
    obtain ⟨b, heldB, idB⟩ := Option.map_eq_some_iff.mp memJ
    exact unique i j a b heldA heldB (idA.trans idB.symm)

theorem consistent_iff_wellFormed (table : NeighborTable) :
    table.Consistent ↔ table.WellFormed := by
  constructor
  · rintro ⟨nodup, found, _, counted⟩
    have unique := (nodup_iff_unique table).mp nodup
    refine ⟨unique, ?_, counted⟩
    apply (lookup_complete_iff unique).mp
    intro slot entry held
    exact found entry ((mem_iter table entry).mpr ⟨slot, held⟩)
  · rintro ⟨unique, linked, counted⟩
    refine ⟨(nodup_iff_unique table).mpr unique, ?_, ?_, counted⟩
    · intro entry member
      obtain ⟨slot, held⟩ := (mem_iter table entry).mp member
      exact (lookup_complete_iff unique).mpr linked slot entry held
    · intro unitId absent
      apply lookup_eq_none
      intro slot entry held
      exact absent entry ((mem_iter table entry).mpr ⟨slot, held⟩)

theorem wellFormed_withConfig (capacity : Nat) (cfg : MeshConfig) :
    (withConfig capacity cfg).WellFormed where
  unique := by
    intro i j a b held
    cases held
  linked := by
    intro slot entry held
    cases held
  counted := by simp [withConfig, iter]

theorem iter_length (table : NeighborTable) : table.iter.length = occupied table.slots :=
  List.length_filterMap_eq_countP

theorem wellFormed_observe {table : NeighborTable} (wellFormed : table.WellFormed)
    (beacon : Beacon) : (table.observe beacon).1.WellFormed := by
  rcases table.observe_cases beacon with
    ⟨result, _⟩ | ⟨slot, entry, placed, held, result⟩ | ⟨slot, placed, free, result⟩
  · rw [result]
    exact wellFormed
  · rw [result]
    have known : (refreshed table.cfg entry beacon).1.unitId = beacon.unitId :=
      (refreshed_spec table.cfg entry beacon).1.trans (place_spec placed held)
    rw [place, ← known] at placed
    obtain ⟨unique, linked⟩ := store_at_place wellFormed.unique wellFormed.linked placed
    refine ⟨unique, linked, ?_⟩
    rw [iter_length]
    exact (wellFormed.counted.trans table.iter_length).trans (occupied_store_held held _).symm
  · rw [result]
    have placedNew : LinearProbing.place NeighborEntry.unitId table.home table.slots
        (inserted beacon).unitId = some slot := placed
    obtain ⟨unique, linked⟩ := store_at_place wellFormed.unique wellFormed.linked placedNew
    refine ⟨unique, linked, ?_⟩
    rw [iter_length]
    have counted := wellFormed.counted.trans table.iter_length
    exact (congrArg (· + 1) counted).trans (occupied_store_free free _).symm

theorem expire_slots (table : NeighborTable) (nowNs ttlNs : UInt64) (slot : Fin table.capacity)
    (entry : NeighborEntry) :
    (table.expire nowNs ttlNs).1.slots slot = some entry ↔
      table.slots slot = some entry ∧ silent nowNs ttlNs entry = false := by
  simp [expire, Option.filter_eq_some_iff]

theorem iter_expire (table : NeighborTable) (nowNs ttlNs : UInt64) :
    (table.expire nowNs ttlNs).1.iter =
      table.iter.filter fun entry => !silent nowNs ttlNs entry := by
  rw [iter, iter, List.filter_filterMap]
  rfl

/-- Expiry keeps the chains unbroken exactly when it removes nothing inside one. -/
theorem wellFormed_expire_iff {table : NeighborTable} (wellFormed : table.WellFormed)
    (nowNs ttlNs : UInt64) :
    (table.expire nowNs ttlNs).1.WellFormed ↔ table.ExpiresBehind nowNs ttlNs := by
  constructor
  · intro after slot entry offset held stays small reached before earlier other heldOther
    obtain ⟨offset', small', reached', occupied⟩ :=
      after.linked slot entry ((table.expire_slots nowNs ttlNs slot entry).mpr ⟨held, stays⟩)
    have sameOffset : offset' = offset :=
      along_injective small' small (reached'.trans reached.symm)
    obtain ⟨kept, heldKept⟩ :=
      Option.isSome_iff_exists.mp (occupied before (by omega))
    obtain ⟨heldBefore, staysOther⟩ := (table.expire_slots nowNs ttlNs _ kept).mp heldKept
    have same := heldBefore.symm.trans heldOther
    cases same
    exact staysOther
  · intro behind
    refine ⟨?_, ?_, ?_⟩
    · apply wellFormed.unique.mono
      intro slot entry held
      exact ((table.expire_slots nowNs ttlNs slot entry).mp held).1
    · intro slot entry held
      obtain ⟨heldBefore, stays⟩ := (table.expire_slots nowNs ttlNs slot entry).mp held
      obtain ⟨offset, small, reached, occupied⟩ := wellFormed.linked slot entry heldBefore
      refine ⟨offset, small, reached, ?_⟩
      intro before earlier
      obtain ⟨other, heldOther⟩ := Option.isSome_iff_exists.mp (occupied before earlier)
      have staysOther :=
        behind slot entry offset heldBefore stays small reached before earlier other heldOther
      exact Option.isSome_iff_exists.mpr
        ⟨other, (table.expire_slots nowNs ttlNs _ other).mpr ⟨heldOther, staysOther⟩⟩
    · have total := List.length_eq_countP_add_countP (silent nowNs ttlNs) (l := table.iter)
      have counted := wellFormed.counted
      rw [iter_expire, ← List.countP_eq_length_filter]
      simp only [expire]
      simp at total ⊢
      omega

theorem run_take_succ {table : NeighborTable} {operations : List Operation} {n : Nat}
    {operation : Operation} (performed : operations[n]? = some operation) :
    table.run (operations.take (n + 1)) = (table.run (operations.take n)).perform operation := by
  simp [run, List.take_add_one, performed]

/-- The table stays consistent through a run exactly when no `expire` of the run empties a
slot inside the probe chain of an entry that stays. -/
theorem consistent_iff_expiresBehind (capacity : Nat) (cfg : MeshConfig)
    (operations : List Operation) :
    (∀ n, ((withConfig capacity cfg).run (operations.take n)).Consistent) ↔
      ∀ n nowNs ttlNs, operations[n]? = some (.expire nowNs ttlNs) →
        ((withConfig capacity cfg).run (operations.take n)).ExpiresBehind nowNs ttlNs := by
  constructor
  · intro consistent n nowNs ttlNs performed
    have before := (consistent_iff_wellFormed _).mp (consistent n)
    have after := (consistent_iff_wellFormed _).mp (consistent (n + 1))
    rw [run_take_succ performed] at after
    exact (wellFormed_expire_iff before nowNs ttlNs).mp after
  · intro behind n
    apply (consistent_iff_wellFormed _).mpr
    induction n with
    | zero => exact wellFormed_withConfig capacity cfg
    | succ n inductionHypothesis =>
        cases performed : operations[n]? with
        | none =>
            rw [List.take_add_one, performed]
            simpa using inductionHypothesis
        | some operation =>
            rw [run_take_succ performed]
            cases operation with
            | observe beacon => exact wellFormed_observe inductionHypothesis beacon
            | expire nowNs ttlNs =>
                apply (wellFormed_expire_iff inductionHypothesis nowNs ttlNs).mpr
                exact behind n nowNs ttlNs performed

/-- Units 1 and 3 share a home slot in a table of two; unit 1 falls silent and expires. -/
def brokenChain : List Operation :=
  let addr : SocketAddr := ⟨.v4 0x7F000001, 1000⟩
  [.observe ⟨1, addr, 1, 0, 0⟩, .observe ⟨3, addr, 1, 10, 10⟩, .expire 10 5]

theorem brokenChain_inconsistent : ¬ ((withCapacity 2).run brokenChain).Consistent := by
  rintro ⟨_, found, _, _⟩
  have lost := found ⟨3, ⟨.v4 0x7F000001, 1000⟩, 10, 1, 10⟩ (by decide)
  revert lost
  decide

end Teleop.Link.NeighborTable
