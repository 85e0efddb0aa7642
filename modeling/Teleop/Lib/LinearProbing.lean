import Mathlib.Data.Nat.Basic
import Mathlib.Logic.Function.Basic
import Mathlib.Data.Set.Function
import Mathlib.Data.List.FinRange

/-!
# Open addressing with linear probing

A table of `capacity` slots in which the entry of a key is looked for from the
key's home slot onwards, until a slot is free or holds the key.  The search
finds every stored entry exactly when the probe chains are unbroken: every slot
between an entry's home and its place is occupied.
-/

namespace Teleop.Lib.LinearProbing

universe u v

variable {capacity : Nat}

/-- The slot `offset` steps after `start`, wrapping at the end of the table. -/
def along (start : Fin capacity) (offset : Nat) : Fin capacity :=
  ⟨(start + offset) % capacity, Nat.mod_lt _ (Nat.zero_lt_of_lt start.isLt)⟩

@[simp] theorem along_zero (start : Fin capacity) : along start 0 = start := by
  apply Fin.ext
  simp [along, Nat.mod_eq_of_lt start.isLt]

theorem along_succ (start : Fin capacity) (offset : Nat) :
    along start (offset + 1) = along (along start 1) offset := by
  apply Fin.ext
  simp only [along, Nat.mod_add_mod]
  congr 1
  omega

theorem along_injective {start : Fin capacity} {a b : Nat} (ha : a < capacity) (hb : b < capacity)
    (same : along start a = along start b) : a = b := by
  have values : (start + a) % capacity = (start + b) % capacity := congrArg Fin.val same
  have left := Nat.div_add_mod (start + a) capacity
  have right := Nat.div_add_mod (start + b) capacity
  rw [values] at left
  have lower := start.isLt
  have quotients : (start + a) / capacity = (start + b) / capacity := by
    have := Nat.div_lt_of_lt_mul (show start + a < capacity * 2 by omega)
    have := Nat.div_lt_of_lt_mul (show start + b < capacity * 2 by omega)
    rcases Nat.lt_or_ge (start + a) capacity with la | la <;>
      rcases Nat.lt_or_ge (start + b) capacity with lb | lb
    · rw [Nat.div_eq_of_lt la, Nat.div_eq_of_lt lb]
    · rw [Nat.mod_eq_of_lt la, Nat.mod_eq_sub_mod lb, Nat.mod_eq_of_lt (by omega)] at values
      omega
    · rw [Nat.mod_eq_of_lt lb, Nat.mod_eq_sub_mod la, Nat.mod_eq_of_lt (by omega)] at values
      omega
    · have := (Nat.le_div_iff_mul_le (by omega)).mpr (show 1 * capacity ≤ start + a by omega)
      have := (Nat.le_div_iff_mul_le (by omega)).mpr (show 1 * capacity ≤ start + b by omega)
      omega
  rw [quotients] at left
  omega

theorem along_surjective (start slot : Fin capacity) :
    ∃ offset < capacity, along start offset = slot := by
  have lower := start.isLt
  have upper := slot.isLt
  refine ⟨(slot + (capacity - start)) % capacity, Nat.mod_lt _ (by omega), Fin.ext ?_⟩
  simp only [along, Nat.add_mod_mod]
  have round : (start : Nat) + (slot + (capacity - start)) = slot + capacity := by omega
  rw [round, Nat.add_mod_right, Nat.mod_eq_of_lt upper]

/-- The probe loop: walk on from `slot` until `stop`, for at most `fuel` slots. -/
def scan (stop : Fin capacity → Bool) : (fuel : Nat) → Fin capacity → Option (Fin capacity)
  | 0, _ => none
  | fuel + 1, slot => if stop slot then some slot else scan stop fuel (along slot 1)

theorem scan_eq_some {stop : Fin capacity → Bool} {fuel : Nat} {start slot : Fin capacity} :
    scan stop fuel start = some slot ↔
      ∃ offset < fuel, along start offset = slot ∧ stop slot = true ∧
        ∀ before < offset, stop (along start before) = false := by
  induction fuel generalizing start with
  | zero => simp [scan]
  | succ fuel inductionHypothesis =>
      cases stops : stop start with
      | true =>
          simp only [scan, stops, if_true, Option.some.injEq]
          constructor
          · rintro rfl
            exact ⟨0, by omega, along_zero start, stops, by simp⟩
          · rintro ⟨offset, _, reached, _, skipped⟩
            cases offset with
            | zero => simpa using reached
            | succ offset =>
                have := skipped 0 (by omega)
                simp [stops] at this
      | false =>
          simp only [scan, stops, Bool.false_eq_true, if_false]
          rw [inductionHypothesis]
          constructor
          · rintro ⟨offset, small, reached, stopped, skipped⟩
            refine ⟨offset + 1, by omega, by rw [along_succ]; exact reached, stopped, ?_⟩
            intro before earlier
            cases before with
            | zero => simpa using stops
            | succ before =>
                rw [along_succ]
                exact skipped before (by omega)
          · rintro ⟨offset, small, reached, stopped, skipped⟩
            cases offset with
            | zero =>
                rw [along_zero] at reached
                rw [reached, stopped] at stops
                cases stops
            | succ offset =>
                refine ⟨offset, by omega, by rw [← along_succ]; exact reached, stopped, ?_⟩
                intro before earlier
                rw [← along_succ]
                exact skipped (before + 1) (by omega)

section Table

variable {Entry : Type u} {Key : Type v} [DecidableEq Key]
variable (key : Entry → Key) (home : Key → Fin capacity)
variable (slots : Fin capacity → Option Entry)

/-- The slot at which the search for `wanted` stops: free, or holding `wanted`. -/
def stopsAt (wanted : Key) (slot : Fin capacity) : Bool :=
  match slots slot with
  | none => true
  | some entry => decide (key entry = wanted)

/-- The place of a key: where it is stored, or where it would be inserted; `none` when the
table is full of other keys. -/
def place (wanted : Key) : Option (Fin capacity) :=
  scan (stopsAt key slots wanted) capacity (home wanted)

def lookup (wanted : Key) : Option Entry := (place key home slots wanted).bind slots

/-- No key is stored twice. -/
def Unique : Prop :=
  ∀ i j a b, slots i = some a → slots j = some b → key a = key b → i = j

/-- `slot` is `offset` steps from the home of its entry and all slots on the way are occupied. -/
def Chained (wanted : Key) (slot : Fin capacity) : Prop :=
  ∃ offset < capacity, along (home wanted) offset = slot ∧
    ∀ before < offset, (slots (along (home wanted) before)).isSome

/-- No probe chain is broken. -/
def Linked : Prop :=
  ∀ slot entry, slots slot = some entry → Chained home slots (key entry) slot

/-- How many slots are occupied. -/
def occupied : Nat := (List.finRange capacity).countP fun slot => (slots slot).isSome

variable {key home slots}

@[simp] theorem stopsAt_of_none {slot : Fin capacity} (wanted : Key) (free : slots slot = none) :
    stopsAt key slots wanted slot = true := by simp [stopsAt, free]

@[simp] theorem stopsAt_of_some {slot : Fin capacity} {entry : Entry} (wanted : Key)
    (held : slots slot = some entry) :
    stopsAt key slots wanted slot = decide (key entry = wanted) := by simp [stopsAt, held]

/-- The place found is free or holds the wanted key. -/
theorem place_spec {wanted : Key} {slot : Fin capacity} {entry : Entry}
    (placed : place key home slots wanted = some slot) (held : slots slot = some entry) :
    key entry = wanted := by
  obtain ⟨_, _, _, stopped, _⟩ := scan_eq_some.mp placed
  simpa [held] using stopped

/-- A table with a free slot has a place for every key. -/
theorem place_of_free {slot : Fin capacity} (free : slots slot = none) (wanted : Key) :
    ∃ found, place key home slots wanted = some found := by
  obtain ⟨distance, near, reached⟩ := along_surjective (home wanted) slot
  have stops : ∃ offset, offset < capacity ∧
      stopsAt key slots wanted (along (home wanted) offset) = true :=
    ⟨distance, near, by rw [reached, stopsAt_of_none wanted free]⟩
  refine ⟨_, scan_eq_some.mpr ⟨Nat.find stops, (Nat.find_spec stops).1, rfl,
    (Nat.find_spec stops).2, fun before earlier => ?_⟩⟩
  have skipped := Nat.find_min stops earlier
  have inside : before < capacity := Nat.lt_trans earlier (Nat.find_spec stops).1
  simpa [inside] using skipped

theorem chained_of_place {wanted : Key} {slot : Fin capacity}
    (placed : place key home slots wanted = some slot) : Chained home slots wanted slot := by
  obtain ⟨offset, small, reached, _, skipped⟩ := scan_eq_some.mp placed
  refine ⟨offset, small, reached, ?_⟩
  intro before earlier
  have passed := skipped before earlier
  cases held : slots (along (home wanted) before) with
  | none => simp [held] at passed
  | some entry => rfl

/-- A stored entry at the end of an unbroken chain is the place of its key. -/
theorem place_of_chained (unique : Unique key slots) {slot : Fin capacity} {entry : Entry}
    (held : slots slot = some entry) (chained : Chained home slots (key entry) slot) :
    place key home slots (key entry) = some slot := by
  obtain ⟨offset, small, reached, occupied⟩ := chained
  apply scan_eq_some.mpr
  refine ⟨offset, small, reached, by simp [held], ?_⟩
  intro before earlier
  obtain ⟨other, heldOther⟩ := Option.isSome_iff_exists.mp (occupied before earlier)
  rw [stopsAt_of_some _ heldOther, decide_eq_false_iff_not]
  intro same
  -- the key would be stored at two different offsets from its home
  have slotsEqual := unique _ _ _ _ heldOther held same
  rw [← reached] at slotsEqual
  have := along_injective (by omega) small slotsEqual
  omega

/-- Lookup finds every stored entry exactly when no probe chain is broken. -/
theorem lookup_complete_iff (unique : Unique key slots) :
    (∀ slot entry, slots slot = some entry → lookup key home slots (key entry) = some entry) ↔
      Linked key home slots := by
  constructor
  · intro complete slot entry held
    obtain ⟨found, placed, heldFound⟩ := Option.bind_eq_some_iff.mp (complete slot entry held)
    have same := unique _ _ _ _ heldFound held rfl
    rw [← same]
    exact chained_of_place placed
  · intro linked slot entry held
    have placed := place_of_chained unique held (linked slot entry held)
    simp [lookup, placed, held]

theorem lookup_eq_none {wanted : Key}
    (absent : ∀ slot entry, slots slot = some entry → key entry ≠ wanted) :
    lookup key home slots wanted = none := by
  unfold lookup
  cases placed : place key home slots wanted with
  | none => rfl
  | some slot =>
      cases held : slots slot with
      | none => simp [held]
      | some entry => exact absurd (place_spec placed held) (absent slot entry held)

omit [DecidableEq Key] in
/-- Filling slots never breaks a chain. -/
theorem Chained.mono {other : Fin capacity → Option Entry} {wanted : Key} {slot : Fin capacity}
    (filled : ∀ i, (slots i).isSome → (other i).isSome)
    (chained : Chained home slots wanted slot) : Chained home other wanted slot := by
  obtain ⟨offset, small, reached, occupied⟩ := chained
  exact ⟨offset, small, reached, fun before earlier => filled _ (occupied before earlier)⟩

/-- Storing an entry at the place of its key keeps keys unique and chains unbroken. -/
theorem store_at_place (unique : Unique key slots) (linked : Linked key home slots)
    {slot : Fin capacity} {entry : Entry}
    (placed : place key home slots (key entry) = some slot) :
    Unique key (Function.update slots slot (some entry)) ∧
      Linked key home (Function.update slots slot (some entry)) := by
  have elsewhere : ∀ i a, slots i = some a → key a = key entry → i = slot := by
    intro i a held same
    have found := place_of_chained unique held (linked i a held)
    rw [same, placed] at found
    exact (Option.some.inj found).symm
  have filled : ∀ i, (slots i).isSome → (Function.update slots slot (some entry) i).isSome := by
    intro i occupied
    by_cases here : i = slot <;> simp [here, occupied]
  constructor
  · intro i j a b heldA heldB same
    simp only [Function.update_apply] at heldA heldB
    split at heldA <;> split at heldB
    · simp [*]
    · cases heldA
      rename_i here there
      rw [here]
      exact (elsewhere j b heldB same.symm).symm
    · cases heldB
      rename_i there here
      rw [here]
      exact elsewhere i a heldA same
    · exact unique i j a b heldA heldB same
  · intro i a held
    simp only [Function.update_apply] at held
    split at held
    · cases held
      rename_i here
      rw [here]
      exact (chained_of_place placed).mono filled
    · exact (linked i a held).mono filled

omit [DecidableEq Key] in
/-- Removing entries keeps keys unique. -/
theorem Unique.mono {other : Fin capacity → Option Entry} (unique : Unique key slots)
    (kept : ∀ i a, other i = some a → slots i = some a) : Unique key other := by
  intro i j a b heldA heldB same
  exact unique i j a b (kept i a heldA) (kept j b heldB) same

omit [DecidableEq Key] in
theorem countP_store_free {places : List (Fin capacity)} (nodup : places.Nodup)
    {slot : Fin capacity} (member : slot ∈ places) (free : slots slot = none) (entry : Entry) :
    places.countP (fun i => (Function.update slots slot (some entry) i).isSome) =
      places.countP (fun i => (slots i).isSome) + 1 := by
  induction places with
  | nil => cases member
  | cons first rest inductionHypothesis =>
      obtain ⟨fresh, nodupRest⟩ := List.nodup_cons.mp nodup
      rcases List.mem_cons.mp member with rfl | inRest
      · have tail : rest.countP (fun i => (Function.update slots slot (some entry) i).isSome) =
            rest.countP (fun i => (slots i).isSome) := by
          apply List.countP_congr
          intro i inRest
          have distinct : i ≠ slot := by
            rintro rfl
            exact fresh inRest
          rw [Function.update_of_ne distinct]
        simp [tail, free]
      · have distinct : first ≠ slot := by
          rintro rfl
          exact fresh inRest
        simp only [List.countP_cons, Function.update_of_ne distinct]
        rw [inductionHypothesis nodupRest inRest]
        omega

/-- An insertion fills one more slot. -/
theorem occupied_store_free {slot : Fin capacity} (free : slots slot = none) (entry : Entry) :
    occupied (Function.update slots slot (some entry)) = occupied slots + 1 :=
  countP_store_free (List.nodup_finRange capacity) (List.mem_finRange slot) free entry

/-- An update in place fills no further slot. -/
theorem occupied_store_held {slot : Fin capacity} {old : Entry} (held : slots slot = some old)
    (entry : Entry) : occupied (Function.update slots slot (some entry)) = occupied slots := by
  apply List.countP_congr
  intro i _
  rcases eq_or_ne i slot with rfl | distinct
  · simp [held]
  · rw [Function.update_of_ne distinct]

end Table

end Teleop.Lib.LinearProbing
