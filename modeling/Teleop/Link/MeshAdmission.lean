import Teleop.Link.Mesh

/-!
# Neighbor admission over runs of `observe`

What a recorded entry can go through while beacons, honest or not, keep
arriving: its sequence moves only ahead, its address only after the cooldown,
and only beacons of its own unit touch it.
-/

namespace Teleop.Link.NeighborTable

open Teleop.Lib Teleop.Lib.LinearProbing

/-- The content of a slot by its position. -/
def entryAt (table : NeighborTable) (position : Nat) : Option NeighborEntry :=
  if inside : position < table.capacity then table.slots ⟨position, inside⟩ else none

def observeAll (table : NeighborTable) (beacons : List Beacon) : NeighborTable :=
  beacons.foldl (fun table beacon => (table.observe beacon).1) table

theorem entryAt_val (table : NeighborTable) (slot : Fin table.capacity) :
    table.entryAt slot = table.slots slot := by
  simp [entryAt]

theorem entryAt_setSlot (table : NeighborTable) (slot : Fin table.capacity) (entry : NeighborEntry)
    (position : Nat) :
    (table.setSlot slot entry).entryAt position =
      if position = slot then some entry else table.entryAt position := by
  by_cases inside : position < table.capacity
  · simp [entryAt, setSlot, inside, Function.update_apply, Fin.ext_iff]
  · have apart : position ≠ slot := by
      have := slot.isLt
      omega
    simp [entryAt, setSlot, inside, apart]

@[simp] theorem observe_cfg (table : NeighborTable) (beacon : Beacon) :
    (table.observe beacon).1.cfg = table.cfg := by
  rcases table.observe_cases beacon with ⟨result, _⟩ | ⟨_, _, _, _, result⟩ | ⟨_, _, _, result⟩ <;>
    simp [result, setSlot]

/-- One beacon leaves a position alone, refreshes the entry of its own unit there, or
inserts a new entry at a free position. -/
theorem observe_entryAt (table : NeighborTable) (beacon : Beacon) (position : Nat) :
    (table.observe beacon).1.entryAt position = table.entryAt position ∨
    (∃ entry, table.entryAt position = some entry ∧ entry.unitId = beacon.unitId ∧
      (table.observe beacon).1.entryAt position = some (refreshed table.cfg entry beacon).1) ∨
    (table.entryAt position = none ∧
      (table.observe beacon).1.entryAt position = some (inserted beacon)) := by
  rcases table.observe_cases beacon with
    ⟨result, _⟩ | ⟨slot, entry, placed, held, result⟩ | ⟨slot, placed, free, result⟩
  · exact .inl (by rw [result])
  · rw [result, entryAt_setSlot]
    by_cases here : position = slot
    · subst here
      rw [if_pos rfl, entryAt_val]
      exact .inr (.inl ⟨entry, held, place_spec placed held, rfl⟩)
    · rw [if_neg here]
      exact .inl rfl
  · have written : (table.observe beacon).1.entryAt position =
        (table.setSlot slot (inserted beacon)).entryAt position := by
      rw [result]
      rfl
    rw [written, entryAt_setSlot]
    by_cases here : position = slot
    · subst here
      rw [if_pos rfl, entryAt_val]
      exact .inr (.inr ⟨free, rfl⟩)
    · rw [if_neg here]
      exact .inl rfl

/-- What one beacon may do to a recorded entry. -/
theorem observe_recorded {table : NeighborTable} (beacon : Beacon) {position : Nat}
    {entry : NeighborEntry} (recorded : table.entryAt position = some entry) :
    ∃ after, (table.observe beacon).1.entryAt position = some after ∧
      after.unitId = entry.unitId ∧
      (after.lastSeq = entry.lastSeq ∨ serialAhead after.lastSeq entry.lastSeq = true) ∧
      ((after.addr = entry.addr ∧ after.lastFlapNs = entry.lastFlapNs) ∨
        (after.addr ≠ entry.addr ∧ after.lastFlapNs = beacon.nowNs ∧
          table.cfg.flapCooldownNs ≤ saturatingSub beacon.nowNs entry.lastFlapNs)) ∧
      (entry.unitId ≠ beacon.unitId → after = entry) := by
  rcases table.observe_entryAt beacon position with
    same | ⟨known, held, unit, refresh⟩ | ⟨free, _⟩
  · exact ⟨entry, same.trans recorded, rfl, .inl rfl, .inl ⟨rfl, rfl⟩, fun _ => rfl⟩
  · rw [recorded] at held
    cases held
    obtain ⟨unitId, seq, addr⟩ := refreshed_spec table.cfg entry beacon
    exact ⟨_, refresh, unitId, seq, addr, fun other => absurd unit other⟩
  · rw [recorded] at free
    cases free

/-- A skewed beacon, and the beacon of a new unit for a full table, change nothing. -/
theorem observe_rejects (table : NeighborTable) (beacon : Beacon)
    (rejected : table.cfg.maxClockSkewNs < absDiff beacon.tsNs beacon.nowNs ∨
      ((∀ entry ∈ table.iter, entry.unitId ≠ beacon.unitId) ∧
        ∀ slot, (table.slots slot).isSome)) :
    (table.observe beacon).1 = table := by
  rcases rejected with skewed | ⟨unknown, full⟩
  · simp [observe, skewed]
  · rcases table.observe_cases beacon with
      ⟨result, _⟩ | ⟨slot, entry, placed, held, _⟩ | ⟨slot, _, free, _⟩
    · rw [result]
    · exact absurd (place_spec placed held)
        (unknown entry ((mem_iter table entry).mpr ⟨slot, held⟩))
    · have := full slot
      rw [free] at this
      cases this

section Runs

variable {table : NeighborTable} {beacons : List Beacon}

/-- The table before the `n`-th beacon of a run. -/
def before (table : NeighborTable) (beacons : List Beacon) (n : Nat) : NeighborTable :=
  table.observeAll (beacons.take n)

theorem before_succ {n : Nat} {beacon : Beacon} (received : beacons[n]? = some beacon) :
    table.before beacons (n + 1) = ((table.before beacons n).observe beacon).1 := by
  simp [before, observeAll, List.take_add_one, received]

theorem before_cfg (n : Nat) : (table.before beacons n).cfg = table.cfg := by
  induction n with
  | zero => rfl
  | succ n inductionHypothesis =>
      cases received : beacons[n]? with
      | none => simpa [before, List.take_add_one, received] using inductionHypothesis
      | some beacon => rw [before_succ received, observe_cfg, inductionHypothesis]

/-- At step `n` of the run the address at `position` was written: by the insertion of the
entry, or by a change of the recorded address. -/
def WritesAddress (table : NeighborTable) (beacons : List Beacon) (n position : Nat) : Prop :=
  ∃ after, (table.before beacons (n + 1)).entryAt position = some after ∧
    ∀ entry, (table.before beacons n).entryAt position = some entry → after.addr ≠ entry.addr

/-- At step `n` of the run the address recorded at `position` changed. -/
def ChangesAddress (table : NeighborTable) (beacons : List Beacon) (n position : Nat) : Prop :=
  ∃ entry after, (table.before beacons n).entryAt position = some entry ∧
    (table.before beacons (n + 1)).entryAt position = some after ∧ after.addr ≠ entry.addr

/-- Writing an address stamps the entry with the time of the beacon. -/
theorem stamped_of_writesAddress {n position : Nat} {beacon : Beacon}
    (received : beacons[n]? = some beacon) (writes : WritesAddress table beacons n position) :
    ∃ after, (table.before beacons (n + 1)).entryAt position = some after ∧
      after.lastFlapNs = beacon.nowNs := by
  obtain ⟨after, recorded, differs⟩ := writes
  refine ⟨after, recorded, ?_⟩
  rw [before_succ received] at recorded
  cases held : (table.before beacons n).entryAt position with
  | none =>
      rcases (table.before beacons n).observe_entryAt beacon position with
        same | ⟨entry, heldEntry, _⟩ | ⟨_, new⟩
      · rw [same, held] at recorded
        cases recorded
      · rw [held] at heldEntry
        cases heldEntry
      · rw [recorded] at new
        cases new
        rfl
  | some entry =>
      obtain ⟨result, stored, _, _, addr, _⟩ := observe_recorded beacon held
      rw [stored] at recorded
      cases recorded
      rcases addr with ⟨same, _⟩ | ⟨_, stamp, _⟩
      · exact absurd same (differs entry held)
      · exact stamp

/-- From then on the stamp never falls below that time. -/
theorem stamp_le {position m n : Nat} {first : Beacon}
    (ordered : beacons.Pairwise fun a b => a.nowNs ≤ b.nowNs)
    (received : beacons[m]? = some first) (writes : WritesAddress table beacons m position)
    (later : m < n) (within : n ≤ beacons.length) :
    ∃ entry, (table.before beacons n).entryAt position = some entry ∧
      first.nowNs ≤ entry.lastFlapNs := by
  induction n, later using Nat.le_induction with
  | base =>
      obtain ⟨after, recorded, stamp⟩ := stamped_of_writesAddress received writes
      exact ⟨after, recorded, by rw [stamp]; exact UInt64.le_refl _⟩
  | succ n later inductionHypothesis =>
      obtain ⟨entry, recorded, bound⟩ := inductionHypothesis (by omega)
      have receivedNext : beacons[n]? = some beacons[n] := List.getElem?_eq_getElem (by omega)
      obtain ⟨after, stored, _, _, addr, _⟩ := observe_recorded beacons[n] recorded
      refine ⟨after, by rw [before_succ receivedNext]; exact stored, ?_⟩
      rcases addr with ⟨_, same⟩ | ⟨_, stamp, _⟩
      · rw [same]
        exact bound
      · rw [stamp]
        obtain ⟨inside, rfl⟩ := List.getElem?_eq_some_iff.mp received
        exact List.pairwise_iff_getElem.mp ordered m n inside (by omega) later

/-- Address changes at one position are at least the cooldown apart, from each other and
from the insertion of the entry. -/
theorem address_changes_apart {position m n : Nat} {first second : Beacon}
    (ordered : beacons.Pairwise fun a b => a.nowNs ≤ b.nowNs) (later : m < n)
    (receivedFirst : beacons[m]? = some first) (receivedSecond : beacons[n]? = some second)
    (writes : WritesAddress table beacons m position)
    (changes : ChangesAddress table beacons n position) :
    first.nowNs.toNat + table.cfg.flapCooldownNs.toNat ≤ second.nowNs.toNat := by
  obtain ⟨insideSecond, rfl⟩ := List.getElem?_eq_some_iff.mp receivedSecond
  obtain ⟨stamped, recorded, bound⟩ :=
    stamp_le ordered receivedFirst writes later (by omega)
  obtain ⟨entry, after, held, stored, moved⟩ := changes
  rw [recorded] at held
  cases held
  obtain ⟨result, storedResult, _, _, addr, _⟩ := observe_recorded beacons[n] recorded
  rw [before_succ receivedSecond, storedResult] at stored
  cases stored
  rcases addr with ⟨same, _⟩ | ⟨_, _, cooled⟩
  · exact absurd same moved
  · obtain ⟨insideFirst, rfl⟩ := List.getElem?_eq_some_iff.mp receivedFirst
    have increasing := List.pairwise_iff_getElem.mp ordered m n insideFirst insideSecond later
    rw [before_cfg, UInt64.le_iff_toNat_le, toNat_saturatingSub] at cooled
    rw [UInt64.le_iff_toNat_le] at bound increasing
    omega

end Runs

/-- Runs of `observe` on any table with nondecreasing times, under any admission policy:
the recorded sequence of an entry only moves strictly ahead in serial order, by less than
half a turn; only beacons of the entry's own unit alter it; skewed beacons and new units for
a full table change nothing; and address changes are the cooldown apart. -/
theorem admission_over_runs (table : NeighborTable) (beacons : List Beacon)
    (ordered : beacons.Pairwise fun a b => a.nowNs ≤ b.nowNs) :
    (∀ n beacon, beacons[n]? = some beacon →
      (∀ position entry, (table.before beacons n).entryAt position = some entry →
        ∃ after, (table.before beacons (n + 1)).entryAt position = some after ∧
          after.unitId = entry.unitId ∧
          (after.lastSeq = entry.lastSeq ∨
            0 < (after.lastSeq - entry.lastSeq).toNat ∧
              (after.lastSeq - entry.lastSeq).toNat < 2 ^ 31) ∧
          (entry.unitId ≠ beacon.unitId → after = entry)) ∧
      (table.cfg.maxClockSkewNs < absDiff beacon.tsNs beacon.nowNs ∨
        ((∀ entry ∈ (table.before beacons n).iter, entry.unitId ≠ beacon.unitId) ∧
          ∀ slot, ((table.before beacons n).slots slot).isSome) →
        table.before beacons (n + 1) = table.before beacons n)) ∧
    ∀ position m n first second, m < n →
      beacons[m]? = some first → beacons[n]? = some second →
      WritesAddress table beacons m position → ChangesAddress table beacons n position →
      first.nowNs.toNat + table.cfg.flapCooldownNs.toNat ≤ second.nowNs.toNat := by
  refine ⟨?_, ?_⟩
  · intro n beacon received
    rw [before_succ received]
    refine ⟨?_, ?_⟩
    · intro position entry recorded
      obtain ⟨after, stored, unit, seq, _, others⟩ := observe_recorded beacon recorded
      exact ⟨after, stored, unit, seq.imp_right (serialAhead_iff _ _).mp, others⟩
    · intro rejected
      apply observe_rejects
      rwa [before_cfg]
  · intro position m n first second later receivedFirst receivedSecond writes changes
    exact address_changes_apart ordered later receivedFirst receivedSecond writes changes

/-- A unit appears and moves to another port after the cooldown. -/
def movedUnit : List Beacon :=
  [⟨1, ⟨.v4 0x7F000001, 100⟩, 1, 1000, 1000⟩,
    ⟨1, ⟨.v4 0x7F000001, 200⟩, 1, 3100000000, 3100000000⟩]

theorem admission_of_movedUnit :
    WritesAddress (withCapacity 2) movedUnit 0 0 ∧ ChangesAddress (withCapacity 2) movedUnit 1 0 ∧
      1000 + 2000000000 ≤ 3100000000 := by
  have writes : WritesAddress (withCapacity 2) movedUnit 0 0 := by
    refine ⟨⟨1, ⟨.v4 0x7F000001, 100⟩, 1000, 1, 1000⟩, by decide, ?_⟩
    intro entry held
    cases held
  have changes : ChangesAddress (withCapacity 2) movedUnit 1 0 :=
    ⟨⟨1, ⟨.v4 0x7F000001, 100⟩, 1000, 1, 1000⟩,
      ⟨1, ⟨.v4 0x7F000001, 200⟩, 3100000000, 1, 3100000000⟩, by decide, by decide, by decide⟩
  exact ⟨writes, changes, (admission_over_runs (withCapacity 2) movedUnit (by decide)).2
    0 0 1 _ _ (by decide) rfl rfl writes changes⟩

end Teleop.Link.NeighborTable
