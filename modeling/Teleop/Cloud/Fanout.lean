import Mathlib.Data.List.Nodup
import Mathlib.Data.UInt
import Teleop.Cloud.Unit
import Teleop.Core.Bus

/-!
# Selective fan-out of media frames

A router keeps weak references to the rings of its subscribers under 64-bit ids; who drops
its ring is forgotten at the next publish.  Here the rings live on a heap of their own, so that
subscribers can pop them; the table of a unit's session, which has the rings in place of the
references, is this one at every id.  A subscriber's ring is a mailbox served by the
publishes and its own calls, as on the message bus, until its id is handed out again.
-/

namespace Teleop.Cloud

open Teleop.Lib Teleop.Ring

universe u

namespace Sfu

/-- The next id and the weak reference of each id, an address on the heap; no id has two. -/
structure Fanout where
  next : UInt64
  subs : List (UInt64 × Nat)
  unique : (subs.map (·.1)).Nodup

end Sfu

/-- A router with the heap that its subscribers' rings live on. -/
structure Sfu where
  fanout : Sfu.Fanout
  heap : List Subscriber

namespace Sfu

def new : Sfu := ⟨⟨1, [], List.nodup_nil⟩, []⟩

/-- The entries whose id passes. -/
def keepIds (fanout : Fanout) (passes : UInt64 → Bool) : Fanout where
  next := fanout.next
  subs := fanout.subs.filter fun entry => passes entry.1
  unique := fanout.unique.sublist (List.filter_sublist.map _)

/-- Enters an address under the next id, in place of an entry that has this id. -/
def insert (fanout : Fanout) (address : Nat) : Fanout where
  next := fanout.next + 1
  subs := (keepIds fanout fun id => id ≠ fanout.next).subs ++ [(fanout.next, address)]
  unique := by
    rw [List.map_append, List.nodup_append]
    refine ⟨(keepIds fanout _).unique, List.nodup_singleton _, ?_⟩
    intro id listed other added
    obtain ⟨entry, passed, rfl⟩ := List.mem_map.mp listed
    obtain rfl := List.mem_singleton.mp added
    exact of_decide_eq_true (List.mem_filter.mp passed).2

/-- A new ring under the next id; the subscriber gets both. -/
def subscribe (sfu : Sfu) (capacity : Nat) : Sfu × UInt64 × Nat :=
  (⟨insert sfu.fanout sfu.heap.length,
      sfu.heap ++ [⟨.withCapacity (max capacity 1), true⟩]⟩,
    sfu.fanout.next, sfu.heap.length)

def unsubscribe (sfu : Sfu) (id : UInt64) : Sfu :=
  { sfu with fanout := keepIds sfu.fanout fun other => other ≠ id }

/-- A weak reference upgrades as long as the subscriber holds the ring. -/
def upgrade (heap : List Subscriber) (address : Nat) : Option (SpscRing MediaFrame) :=
  match heap[address]? with
  | some cell => if cell.held then some cell.ring else none
  | none => none

def subscriberCount (sfu : Sfu) : Nat :=
  sfu.fanout.subs.countP fun entry => (upgrade sfu.heap entry.2).isSome

/-- The loop of `publish`: push to the live rings, count the acceptances, list the dead. -/
def pushEach (frame : MediaFrame) :
    List (UInt64 × Nat) → List Subscriber → List Subscriber × Nat × List UInt64
  | [], heap => (heap, 0, [])
  | (id, address) :: rest, heap =>
      match upgrade heap address with
      | some ring =>
          match ring.push frame with
          | .ok pushed =>
              let (final, delivered, dead) := pushEach frame rest (heap.set address ⟨pushed, true⟩)
              (final, delivered + 1, dead)
          | .error _ => pushEach frame rest heap
      | none =>
          let (final, delivered, dead) := pushEach frame rest heap
          (final, delivered, id :: dead)

/-- Pushes the frame to every live subscriber and forgets the dead ones; returns how many
accepted it.  Entries have rings of their own, so their order does not matter. -/
def publish (sfu : Sfu) (frame : MediaFrame) : Sfu × Nat :=
  let (heap, delivered, dead) := pushEach frame sfu.fanout.subs sfu.heap
  (⟨keepIds sfu.fanout fun id => id ∉ dead, heap⟩, delivered)

/-- A subscriber pops the ring it holds. -/
def pop (sfu : Sfu) (address : Nat) : Option (Sfu × Option MediaFrame) :=
  match upgrade sfu.heap address with
  | none => none
  | some ring =>
      match ring.pop with
      | some (frame, rest) =>
          some ({ sfu with heap := sfu.heap.set address ⟨rest, true⟩ }, some frame)
      | none => some (sfu, none)

/-- A subscriber drops the ring it holds. -/
def dropRing (sfu : Sfu) (address : Nat) : Option Sfu :=
  match upgrade sfu.heap address with
  | none => none
  | some ring => some { sfu with heap := sfu.heap.set address ⟨ring, false⟩ }

inductive Event where
  | subscribe (capacity : Nat)
  | unsubscribe (id : UInt64)
  | publish (frame : MediaFrame)
  | pop (address : Nat)
  | dropRing (address : Nat)

inductive Answer where
  | subscribed (id : UInt64) (address : Nat)
  | done
  | delivered (count : Nat)
  | popped (result : Option MediaFrame)

def machine : Machine Sfu Event Answer where
  step sfu
    | .subscribe capacity =>
        some ((sfu.subscribe capacity).1,
          .subscribed (sfu.subscribe capacity).2.1 (sfu.subscribe capacity).2.2)
    | .unsubscribe id => some (sfu.unsubscribe id, .done)
    | .publish frame => some ((sfu.publish frame).1, .delivered (sfu.publish frame).2)
    | .pop address => (sfu.pop address).map fun (sfu, result) => (sfu, .popped result)
    | .dropRing address => (sfu.dropRing address).map fun sfu => (sfu, .done)

def system : TransitionSystem Sfu Event :=
  .ofNext (· = new) fun sfu event => (machine.step sfu event).map (·.1)

/-- A subscriber sees the results of its own pops; unsubscribing its id and dropping its ring
both detach its mailbox. -/
def subscriber (id : UInt64) (address : Nat) :
    Observer Event Answer (Access MediaFrame) (Option MediaFrame) where
  access
    | .subscribe _ => none
    | .unsubscribe other => if other = id then some .leave else none
    | .publish frame => some (.offer frame)
    | .pop other => if other = address then some .take else none
    | .dropRing other => if other = address then some .leave else none
  seen
    | (.pop other, .popped result) => if other = address then some result else none
    | _ => none

/-- The ids count the rings: that of the ring at an address is the residue of its number. -/
structure Numbered (sfu : Sfu) : Prop where
  next_eq : sfu.fanout.next = .ofNat (sfu.heap.length + 1)
  entries : ∀ id address, (id, address) ∈ sfu.fanout.subs →
    address < sfu.heap.length ∧ id = .ofNat (address + 1)

theorem new_numbered : Numbered new where
  next_eq := rfl
  entries _ _ listed := absurd listed List.not_mem_nil

section Steps

variable {sfu target : Sfu}

theorem pop_eq_some {address : Nat} {result : Option MediaFrame}
    (popped : sfu.pop address = some (target, result)) :
    ∃ ring, upgrade sfu.heap address = some ring ∧
      (ring.pop = none ∧ target = sfu ∧ result = none ∨
        ∃ frame rest, ring.pop = some (frame, rest) ∧
          target = { sfu with heap := sfu.heap.set address ⟨rest, true⟩ } ∧
          result = some frame) := by
  unfold Sfu.pop at popped
  cases live : upgrade sfu.heap address with
  | none => simp [live] at popped
  | some ring =>
      refine ⟨ring, rfl, ?_⟩
      cases oldest : ring.pop with
      | none =>
          simp only [live, oldest, Option.some.injEq, Prod.mk.injEq] at popped
          exact .inl ⟨rfl, popped.1.symm, popped.2.symm⟩
      | some taken =>
          simp only [live, oldest, Option.some.injEq, Prod.mk.injEq] at popped
          exact .inr ⟨taken.1, taken.2, rfl, popped.1.symm, popped.2.symm⟩

theorem dropRing_eq_some {address : Nat} (dropped : sfu.dropRing address = some target) :
    ∃ ring, upgrade sfu.heap address = some ring ∧
      target = { sfu with heap := sfu.heap.set address ⟨ring, false⟩ } := by
  unfold Sfu.dropRing at dropped
  cases live : upgrade sfu.heap address with
  | none => simp [live] at dropped
  | some ring =>
      simp only [live, Option.some.injEq] at dropped
      exact ⟨ring, rfl, dropped.symm⟩

/-- Replacing a ring leaves the numbers alone. -/
theorem Numbered.setCell (numbered : Numbered sfu) (address : Nat) (cell : Subscriber) :
    Numbered { sfu with heap := sfu.heap.set address cell } where
  next_eq := by
    rw [List.length_set]
    exact numbered.next_eq
  entries := by
    rw [List.length_set]
    exact numbered.entries

theorem Numbered.keepIds (numbered : Numbered sfu) (passes : UInt64 → Bool)
    {heap : List Subscriber} (length : heap.length = sfu.heap.length) :
    Numbered ⟨Sfu.keepIds sfu.fanout passes, heap⟩ where
  next_eq := by
    dsimp only
    rw [length]
    exact numbered.next_eq
  entries id address listed := by
    dsimp only
    rw [length]
    exact numbered.entries id address (List.mem_of_mem_filter listed)

theorem Numbered.subscribe (numbered : Numbered sfu) (capacity : Nat) :
    Numbered (sfu.subscribe capacity).1 where
  next_eq := by
    simp only [Sfu.subscribe, insert, numbered.next_eq, List.length_append,
      List.length_singleton]
    exact (UInt64.ofNat_add _ 1).symm
  entries id address listed := by
    rw [Sfu.subscribe, List.length_append, List.length_singleton]
    rcases List.mem_append.mp listed with earlier | added
    · obtain ⟨below, same⟩ := numbered.entries id address (List.mem_of_mem_filter earlier)
      exact ⟨Nat.lt_succ_of_lt below, same⟩
    · obtain ⟨rfl, rfl⟩ := Prod.mk.inj (List.mem_singleton.mp added)
      exact ⟨Nat.lt_succ_self _, numbered.next_eq⟩

theorem pushEach_length (frame : MediaFrame) (entries : List (UInt64 × Nat))
    (heap : List Subscriber) :
    (pushEach frame entries heap).1.length = heap.length := by
  induction entries generalizing heap with
  | nil => rfl
  | cons entry rest inductionHypothesis =>
      unfold pushEach
      split
      · split
        · exact (inductionHypothesis _).trans List.length_set
        · exact inductionHypothesis heap
      · exact inductionHypothesis heap

theorem Numbered.step (numbered : Numbered sfu) {event : Event} {answer : Answer}
    (stepped : machine.step sfu event = some (target, answer)) : Numbered target := by
  cases event with
  | subscribe capacity =>
      cases stepped
      exact numbered.subscribe capacity
  | unsubscribe id =>
      cases stepped
      exact numbered.keepIds _ rfl
  | publish frame =>
      cases stepped
      exact numbered.keepIds _ (pushEach_length _ _ _)
  | pop address =>
      obtain ⟨⟨after, result⟩, popped, answered⟩ := Option.map_eq_some_iff.mp stepped
      cases answered
      obtain ⟨_, _, ⟨_, rfl, _⟩ | ⟨_, rest, _, rfl, _⟩⟩ := pop_eq_some popped
      · exact numbered
      · exact numbered.setCell address _
  | dropRing address =>
      obtain ⟨after, dropped, answered⟩ := Option.map_eq_some_iff.mp stepped
      cases answered
      obtain ⟨ring, _, rfl⟩ := dropRing_eq_some dropped
      exact numbered.setCell address _

theorem numbered_of_reachable (reached : system.Reachable sfu) : Numbered sfu := by
  apply reached.invariant
  · rintro _ rfl
    exact new_numbered
  · intro sfu event target numbered stepped
    obtain ⟨⟨after, answer⟩, moved, rfl⟩ := Option.map_eq_some_iff.mp stepped
    exact numbered.step moved

end Steps

section Publish

/-- What a publish does to a ring that an entry points to. -/
def deliver (frame : MediaFrame) (cell : Subscriber) : Subscriber :=
  if cell.held then { cell with ring := cell.ring.pushOrDrop frame } else cell

theorem upgrade_eq_some {heap : List Subscriber} {address : Nat} {ring : SpscRing MediaFrame} :
    upgrade heap address = some ring ↔ heap[address]? = some ⟨ring, true⟩ := by
  unfold upgrade
  cases heap[address]? with
  | none => simp
  | some cell =>
      obtain ⟨content, held⟩ := cell
      cases held <;> simp

theorem upgrade_eq_none_set {heap : List Subscriber} {address other : Nat}
    {ring pushed : SpscRing MediaFrame} (live : upgrade heap address = some ring) :
    upgrade (heap.set address ⟨pushed, true⟩) other = none ↔ upgrade heap other = none := by
  obtain ⟨inside, content⟩ := List.getElem?_eq_some_iff.mp (upgrade_eq_some.mp live)
  by_cases same : address = other
  · subst same
    simp [upgrade, inside, content]
  · simp [upgrade, same]

/-- Each entry pushes to its own ring. -/
theorem pushEach_getElem? (frame : MediaFrame) (entries : List (UInt64 × Nat))
    (heap : List Subscriber) (distinct : (entries.map (·.2)).Nodup) (address : Nat) :
    (pushEach frame entries heap).1[address]? =
      if address ∈ entries.map (·.2) then (heap[address]?).map (deliver frame)
      else heap[address]? := by
  induction entries generalizing heap with
  | nil => simp [pushEach]
  | cons entry rest inductionHypothesis =>
      obtain ⟨id, first⟩ := entry
      rw [List.map_cons, List.nodup_cons] at distinct
      obtain ⟨fresh, distinct⟩ := distinct
      -- the first entry delivers to its ring and leaves the others to the rest
      have joined : ∀ heap' : List Subscriber,
          (heap'[first]? = (heap[first]?).map (deliver frame)) →
          (∀ other, other ≠ first → heap'[other]? = heap[other]?) →
          (pushEach frame rest heap').1[address]? =
            if address ∈ ((id, first) :: rest).map (·.2) then (heap[address]?).map (deliver frame)
            else heap[address]? := by
        intro heap' here elsewhere
        rw [inductionHypothesis heap' distinct]
        by_cases same : address = first
        · subst same
          simp [fresh, here]
        · have listed : address ∈ ((id, first) :: rest).map (·.2) ↔ address ∈ rest.map (·.2) := by
            rw [List.map_cons, List.mem_cons]
            exact or_iff_right same
          simp only [elsewhere address same, listed]
      cases live : upgrade heap first with
      | none =>
          simp only [pushEach, live]
          apply joined heap _ fun other _ => rfl
          cases present : heap[first]? with
          | none => rfl
          | some cell =>
              have gone : cell.held = false := by simpa [upgrade, present] using live
              simp [deliver, gone]
      | some ring =>
          have present := upgrade_eq_some.mp live
          obtain ⟨inside, content⟩ := List.getElem?_eq_some_iff.mp present
          cases pushed : ring.push frame with
          | ok after =>
              simp only [pushEach, live, pushed]
              apply joined
              · simp [inside, content, deliver, SpscRing.pushOrDrop, pushed]
              · intro other different
                simp [Ne.symm different]
          | error refused =>
              simp only [pushEach, live, pushed]
              apply joined heap _ fun other _ => rfl
              simp [present, deliver, SpscRing.pushOrDrop, pushed]

/-- The dead entries are those whose reference does not upgrade. -/
theorem mem_dead_iff (frame : MediaFrame) (entries : List (UInt64 × Nat)) (heap : List Subscriber)
    (id : UInt64) :
    id ∈ (pushEach frame entries heap).2.2 ↔
      ∃ address, (id, address) ∈ entries ∧ upgrade heap address = none := by
  induction entries generalizing heap with
  | nil => simp [pushEach]
  | cons entry rest inductionHypothesis =>
      obtain ⟨first, place⟩ := entry
      cases live : upgrade heap place with
      | none =>
          simp only [pushEach, live, List.mem_cons, inductionHypothesis, Prod.mk.injEq]
          constructor
          · rintro (rfl | ⟨address, listed, dead⟩)
            · exact ⟨place, .inl ⟨rfl, rfl⟩, live⟩
            · exact ⟨address, .inr listed, dead⟩
          · rintro ⟨address, ⟨rfl, rfl⟩ | listed, dead⟩
            · exact .inl rfl
            · exact .inr ⟨address, listed, dead⟩
      | some ring =>
          have later : (∃ address, (id, address) ∈ (first, place) :: rest ∧
              upgrade heap address = none) ↔
              ∃ address, (id, address) ∈ rest ∧ upgrade heap address = none := by
            constructor
            · rintro ⟨address, listed, dead⟩
              rcases List.mem_cons.mp listed with same | listed
              · obtain ⟨_, rfl⟩ := Prod.mk.inj same
                rw [live] at dead
                cases dead
              · exact ⟨address, listed, dead⟩
            · rintro ⟨address, listed, dead⟩
              exact ⟨address, List.mem_cons_of_mem _ listed, dead⟩
          rw [later]
          cases pushed : ring.push frame with
          | ok after =>
              simp only [pushEach, live, pushed, inductionHypothesis, upgrade_eq_none_set live]
          | error refused => simp only [pushEach, live, pushed, inductionHypothesis]

/-- An entry whose ring is held survives a publish. -/
theorem not_mem_dead (frame : MediaFrame) {fanout : Fanout} {heap : List Subscriber}
    {id : UInt64} {address : Nat} {ring : SpscRing MediaFrame}
    (listed : (id, address) ∈ fanout.subs) (held : heap[address]? = some ⟨ring, true⟩) :
    id ∉ (pushEach frame fanout.subs heap).2.2 := by
  intro dead
  obtain ⟨other, entry, gone⟩ := (mem_dead_iff _ _ _ _).mp dead
  obtain ⟨_, rfl⟩ := Prod.mk.inj (List.inj_on_of_nodup_map fanout.unique entry listed rfl)
  rw [upgrade_eq_some.mpr held] at gone
  cases gone

/-- The subscriber that an id leads to. -/
def Leads (sfu : Sfu) (id : UInt64) (subscriber : Subscriber) : Prop :=
  ∃ address, (id, address) ∈ sfu.fanout.subs ∧ sfu.heap[address]? = some subscriber

/-- After a publish an id leads to what was delivered to a subscriber it led to, if that one
holds its ring. -/
theorem leads_publish_iff {sfu : Sfu} (distinct : (sfu.fanout.subs.map (·.2)).Nodup)
    (frame : MediaFrame) (id : UInt64) (after : Subscriber) :
    (sfu.publish frame).1.Leads id after ↔
      ∃ before, sfu.Leads id before ∧ before.held = true ∧ after = deliver frame before := by
  have delivered := pushEach_getElem? frame sfu.fanout.subs sfu.heap distinct
  constructor
  · rintro ⟨address, passed, found⟩
    obtain ⟨listed, living⟩ := List.mem_filter.mp passed
    have place : address ∈ sfu.fanout.subs.map (·.2) := List.mem_map.mpr ⟨_, listed, rfl⟩
    cases live : upgrade sfu.heap address with
    | none =>
        exact absurd ((mem_dead_iff frame _ _ id).mpr ⟨address, listed, live⟩)
          (of_decide_eq_true living)
    | some ring =>
        have present := upgrade_eq_some.mp live
        refine ⟨⟨ring, true⟩, ⟨address, listed, present⟩, rfl, ?_⟩
        have moved := delivered address
        rw [if_pos place, present] at moved
        exact Option.some.inj (found.symm.trans moved)
  · rintro ⟨⟨ring, held⟩, ⟨address, listed, present⟩, rfl, rfl⟩
    have place : address ∈ sfu.fanout.subs.map (·.2) := List.mem_map.mpr ⟨_, listed, rfl⟩
    refine ⟨address, List.mem_filter.mpr ⟨listed, ?_⟩, ?_⟩
    · exact decide_eq_true (not_mem_dead frame listed present)
    · have moved := delivered address
      rw [if_pos place, present] at moved
      exact moved

/-- A loop over the entries of a table that changes the entry it is at and no other. -/
theorem lookup_foldl {f : HashMap UInt64 Subscriber × Nat → (Σ _ : UInt64, Subscriber) →
      HashMap UInt64 Subscriber × Nat} {g : Subscriber → Option Subscriber}
    (here : ∀ pass entry, pass.1.lookup entry.1 = some entry.2 →
      (f pass entry).1.lookup entry.1 = g entry.2)
    (elsewhere : ∀ pass entry id, id ≠ entry.1 →
      (f pass entry).1.lookup id = pass.1.lookup id)
    (entries : List (Σ _ : UInt64, Subscriber)) (distinct : (entries.map (·.1)).Nodup)
    (pass : HashMap UInt64 Subscriber × Nat)
    (present : ∀ entry ∈ entries, pass.1.lookup entry.1 = some entry.2) (id : UInt64) :
    (entries.foldl f pass).1.lookup id =
      if id ∈ entries.map (·.1) then (pass.1.lookup id).bind g else pass.1.lookup id := by
  induction entries generalizing pass with
  | nil => rfl
  | cons entry rest inductionHypothesis =>
      rw [List.map_cons, List.nodup_cons] at distinct
      obtain ⟨fresh, distinct⟩ := distinct
      have other : ∀ later ∈ rest, later.1 ≠ entry.1 := by
        intro later listed same
        exact fresh (List.mem_map.mpr ⟨later, listed, same⟩)
      rw [List.foldl_cons, inductionHypothesis distinct (f pass entry)]
      · by_cases same : id = entry.1
        · subst same
          have found := present entry List.mem_cons_self
          simp [fresh, here pass entry found, found]
        · have listed : id ∈ (entry :: rest).map (·.1) ↔ id ∈ rest.map (·.1) := by
            rw [List.map_cons, List.mem_cons]
            exact or_iff_right same
          simp only [elsewhere pass entry id same, listed]
      · intro later listed
        rw [elsewhere pass entry later.1 (other later listed)]
        exact present later (List.mem_cons_of_mem entry listed)

/-- A publish over the table that has the rings in place. -/
theorem lookup_publish (inline : SfuFanout) (frame : MediaFrame) (id : UInt64) :
    (inline.publish frame).1.subs.lookup id =
      (inline.subs.lookup id).bind fun before =>
        if before.held = true then some (deliver frame before) else none := by
  have whole := lookup_foldl (g := fun before =>
      if before.held = true then some (deliver frame before) else none)
    (f := fun pass entry =>
      if entry.2.held then
        match entry.2.ring.push frame with
        | .ok ring => (pass.1.insert entry.1 ⟨ring, true⟩, pass.2 + 1)
        | .error _ => pass
      else (pass.1.erase entry.1, pass.2))
    (by
      rintro pass ⟨key, ring, held⟩ found
      cases held with
      | false => simp
      | true => cases pushed : ring.push frame <;> simp_all [deliver, SpscRing.pushOrDrop])
    (by
      rintro pass ⟨key, ring, held⟩ other different
      cases held with
      | false => simp [AList.lookup_erase_ne different]
      | true => cases pushed : ring.push frame <;> simp [AList.lookup_insert_ne different])
    inline.subs.entries inline.subs.nodupKeys (inline.subs, 0)
    (fun entry listed => AList.mem_lookup_iff.mpr listed) id
  refine Eq.trans rfl (whole.trans ?_)
  split
  · rfl
  · rename_i missing
    have absent : inline.subs.lookup id = none := AList.lookup_eq_none.mpr missing
    rw [absent]
    rfl

/-- The table of a session refines the router: publishing keeps the subscribers that the ids
lead to the same. -/
theorem publish_refines {sfu : Sfu} (distinct : (sfu.fanout.subs.map (·.2)).Nodup)
    {inline : SfuFanout}
    (same : ∀ id subscriber, inline.subs.lookup id = some subscriber ↔ sfu.Leads id subscriber)
    (frame : MediaFrame) (id : UInt64) (subscriber : Subscriber) :
    (inline.publish frame).1.subs.lookup id = some subscriber ↔
      (sfu.publish frame).1.Leads id subscriber := by
  rw [lookup_publish, leads_publish_iff distinct, Option.bind_eq_some_iff]
  apply exists_congr
  intro before
  rw [same]
  apply and_congr_right
  intro _
  by_cases held : before.held = true
  · simp [held, eq_comm]
  · simp [held]

end Publish

/-- The cell at the subscriber's address holds the ring of the mailbox, and the mailbox is
attached as long as the ring is held and listed under the subscriber's id. -/
structure Serves (id : UInt64) (address : Nat) (sfu : Sfu) (mailbox : Mailbox MediaFrame) :
    Prop where
  numbered : Numbered sfu
  id_eq : id = .ofNat (address + 1)
  cell : ∃ held, sfu.heap[address]? = some ⟨mailbox.ring, held⟩ ∧
    (mailbox.attached = true ↔ held = true ∧ (id, address) ∈ sfu.fanout.subs)

section Serves

variable {sfu target : Sfu} {id : UInt64} {address : Nat} {mailbox : Mailbox MediaFrame}

theorem Serves.inside (serves : Serves id address sfu mailbox) : address < sfu.heap.length := by
  obtain ⟨_, present, _⟩ := serves.cell
  exact (List.getElem?_eq_some_iff.mp present).1

/-- A subscription by another one, under another id. -/
theorem Serves.subscribe (serves : Serves id address sfu mailbox) (capacity : Nat)
    (within : (sfu.subscribe capacity).1.heap.length ≤ address + 2 ^ 64) :
    Serves id address (sfu.subscribe capacity).1 mailbox where
  numbered := serves.numbered.subscribe capacity
  id_eq := serves.id_eq
  cell := by
    have inside := serves.inside
    rw [Sfu.subscribe, List.length_append, List.length_singleton] at within
    have other : id ≠ sfu.fanout.next := by
      rw [serves.id_eq, serves.numbered.next_eq]
      intro same
      have residues := congrArg UInt64.toNat same
      rw [UInt64.toNat_ofNat', UInt64.toNat_ofNat'] at residues
      omega
    obtain ⟨held, present, attached⟩ := serves.cell
    refine ⟨held, (List.getElem?_append_left inside).trans present, attached.trans ?_⟩
    have listed : (id, address) ∈ (sfu.subscribe capacity).1.fanout.subs ↔
        (id, address) ∈ sfu.fanout.subs := by
      simp [Sfu.subscribe, insert, keepIds, other]
    rw [listed]

/-- Entries of other ids come and go. -/
theorem Serves.keepIds (serves : Serves id address sfu mailbox) {passes : UInt64 → Bool}
    (passed : passes id = true) :
    Serves id address ⟨Sfu.keepIds sfu.fanout passes, sfu.heap⟩ mailbox where
  numbered := serves.numbered.keepIds passes rfl
  id_eq := serves.id_eq
  cell := by
    obtain ⟨held, present, attached⟩ := serves.cell
    exact ⟨held, present, by simp [Sfu.keepIds, passed, attached]⟩

/-- What happens to the cell of another subscriber. -/
theorem Serves.set_other (serves : Serves id address sfu mailbox) {other : Nat}
    (different : other ≠ address) (cell : Subscriber) :
    Serves id address { sfu with heap := sfu.heap.set other cell } mailbox where
  numbered := serves.numbered.setCell other cell
  id_eq := serves.id_eq
  cell := by
    obtain ⟨held, present, attached⟩ := serves.cell
    exact ⟨held, by simpa [different] using present, attached⟩

theorem Serves.unsubscribe (serves : Serves id address sfu mailbox) :
    Serves id address (sfu.unsubscribe id) { mailbox with attached := false } where
  numbered := serves.numbered.keepIds _ rfl
  id_eq := serves.id_eq
  cell := by
    obtain ⟨held, present, _⟩ := serves.cell
    exact ⟨held, present, by simp [Sfu.unsubscribe, Sfu.keepIds]⟩

theorem Serves.dropRing (serves : Serves id address sfu mailbox)
    (dropped : sfu.dropRing address = some target) :
    Serves id address target { mailbox with attached := false } := by
  obtain ⟨held, present, _⟩ := serves.cell
  have inside := serves.inside
  obtain ⟨ring, live, rfl⟩ := dropRing_eq_some dropped
  cases present.symm.trans (upgrade_eq_some.mp live)
  refine ⟨serves.numbered.setCell address _, serves.id_eq, false, ?_, ?_⟩
  · simp [inside]
  · simp

theorem Serves.dropRing_other (serves : Serves id address sfu mailbox) {other : Nat}
    (different : other ≠ address) (dropped : sfu.dropRing other = some target) :
    Serves id address target mailbox := by
  obtain ⟨ring, _, rfl⟩ := dropRing_eq_some dropped
  exact serves.set_other different _

theorem Serves.pop (serves : Serves id address sfu mailbox) {result : Option MediaFrame}
    (popped : sfu.pop address = some (target, result)) :
    Serves id address target (mailbox.serve .take).1 ∧
      (mailbox.serve .take).2 = some result := by
  obtain ⟨held, present, attached⟩ := serves.cell
  have inside := serves.inside
  obtain ⟨ring, live, oldest⟩ := pop_eq_some popped
  cases present.symm.trans (upgrade_eq_some.mp live)
  rcases oldest with ⟨empty, rfl, rfl⟩ | ⟨frame, rest, oldest, rfl, rfl⟩
  · simpa [Mailbox.serve, empty] using serves
  · simp only [Mailbox.serve, oldest]
    refine ⟨⟨serves.numbered.setCell address _, serves.id_eq, true, ?_, attached⟩, trivial⟩
    simp [inside]

theorem Serves.pop_other (serves : Serves id address sfu mailbox) {other : Nat}
    (different : other ≠ address) {result : Option MediaFrame}
    (popped : sfu.pop other = some (target, result)) : Serves id address target mailbox := by
  obtain ⟨_, _, ⟨_, rfl, _⟩ | ⟨_, rest, _, rfl, _⟩⟩ := pop_eq_some popped
  · exact serves
  · exact serves.set_other different _

/-- Addresses are distinct because ids are. -/
theorem Numbered.distinct (numbered : Numbered sfu) : (sfu.fanout.subs.map (·.2)).Nodup := by
  have ids : sfu.fanout.subs.map (·.1) =
      (sfu.fanout.subs.map (·.2)).map fun address => UInt64.ofNat (address + 1) := by
    rw [List.map_map]
    apply List.map_congr_left
    rintro ⟨id, address⟩ listed
    exact (numbered.entries id address listed).2
  have unique := sfu.fanout.unique
  rw [ids] at unique
  exact unique.of_map _

/-- A publish offers the frame to the mailbox. -/
theorem Serves.publish (serves : Serves id address sfu mailbox) (frame : MediaFrame) :
    Serves id address (sfu.publish frame).1 (mailbox.serve (.offer frame)).1 where
  numbered := serves.numbered.keepIds _ (pushEach_length _ _ _)
  id_eq := serves.id_eq
  cell := by
    obtain ⟨held, present, attached⟩ := serves.cell
    have delivered := pushEach_getElem? frame sfu.fanout.subs sfu.heap
      serves.numbered.distinct address
    rw [present] at delivered
    have still : (mailbox.serve (.offer frame)).1.attached = mailbox.attached := by
      cases listening : mailbox.attached <;> simp [Mailbox.serve, listening]
    refine ⟨held, ?_, ?_⟩
    · refine delivered.trans ?_
      by_cases listening : mailbox.attached = true
      · obtain ⟨rfl, listed⟩ := attached.mp listening
        have place : address ∈ sfu.fanout.subs.map (·.2) := List.mem_map.mpr ⟨_, listed, rfl⟩
        simp [place, deliver, Mailbox.serve, listening]
      · have untouched : (mailbox.serve (.offer frame)).1 = mailbox := by
          simp [Mailbox.serve, listening]
        rw [untouched]
        split
        · rename_i place
          -- an entry for the address carries the id, so the ring is not held
          obtain ⟨⟨other, _⟩, listed, rfl⟩ := List.mem_map.mp place
          obtain rfl : other = id :=
            (serves.numbered.entries other _ listed).2.trans serves.id_eq.symm
          have gone : held = false := by
            by_contra holding
            exact listening (attached.mpr ⟨Bool.eq_true_of_not_eq_false holding, listed⟩)
          simp [deliver, gone]
        · rfl
    · rw [still, attached]
      apply and_congr_right
      rintro rfl
      simp only [Sfu.publish, Sfu.keepIds, List.mem_filter, decide_eq_true_eq]
      constructor
      · intro listed
        exact ⟨listed, not_mem_dead frame listed present⟩
      · intro passed
        exact passed.1

end Serves

def isSubscribe : Event → Bool
  | .subscribe _ => true
  | .unsubscribe _ | .publish _ | .pop _ | .dropRing _ => false

/-- A subscription allocates the only ring there is to allocate. -/
theorem heap_length_of_step {sfu target : Sfu} {event : Event} {answer : Answer}
    (stepped : machine.step sfu event = some (target, answer)) :
    target.heap.length = sfu.heap.length + if isSubscribe event then 1 else 0 := by
  cases event with
  | subscribe capacity =>
      cases stepped
      simp [Sfu.subscribe, isSubscribe]
  | unsubscribe id =>
      cases stepped
      rfl
  | publish frame =>
      cases stepped
      exact pushEach_length _ _ _
  | pop address =>
      obtain ⟨⟨after, result⟩, popped, answered⟩ := Option.map_eq_some_iff.mp stepped
      cases answered
      obtain ⟨_, _, ⟨_, rfl, _⟩ | ⟨_, rest, _, rfl, _⟩⟩ := pop_eq_some popped
      · rfl
      · exact List.length_set
  | dropRing address =>
      obtain ⟨after, dropped, answered⟩ := Option.map_eq_some_iff.mp stepped
      cases answered
      obtain ⟨ring, _, rfl⟩ := dropRing_eq_some dropped
      exact List.length_set

theorem heap_length_of_run {sfu final : Sfu} {events : List Event}
    {log : List (Event × Answer)} (ran : machine.run sfu events = some (final, log)) :
    final.heap.length = sfu.heap.length + events.countP isSubscribe := by
  induction events generalizing sfu log with
  | nil =>
      cases ran
      rfl
  | cons event rest inductionHypothesis =>
      obtain ⟨next, answer, later, stepped, continued, _⟩ := Machine.run_cons_eq_some ran
      rw [inductionHypothesis continued, heap_length_of_step stepped, List.countP_cons]
      omega

/-- The mailbox accounts for everything a subscriber sees of a router, until a later
subscription can be handed its id. -/
theorem subscriber_explains (id : UInt64) (address : Nat) :
    Explains machine (subscriber id address) Mailbox.serve
      (fun sfu => sfu.heap.length ≤ address + 2 ^ 64) (Serves id address) where
  earlier stepped within := by
    have grown := heap_length_of_step stepped
    omega
  hidden {sfu target mailbox event answer} serves stepped within unaccessed := by
    cases event with
    | subscribe capacity =>
        cases stepped
        exact ⟨serves.subscribe capacity within, rfl⟩
    | unsubscribe other =>
        cases stepped
        have different : id ≠ other := by
          rintro rfl
          simp [subscriber] at unaccessed
        exact ⟨serves.keepIds (decide_eq_true different), rfl⟩
    | publish frame => cases unaccessed
    | pop other =>
        have different : other ≠ address := by
          rintro rfl
          simp [subscriber] at unaccessed
        obtain ⟨⟨after, result⟩, popped, answered⟩ := Option.map_eq_some_iff.mp stepped
        cases answered
        exact ⟨serves.pop_other different popped, if_neg different⟩
    | dropRing other =>
        have different : other ≠ address := by
          rintro rfl
          simp [subscriber] at unaccessed
        obtain ⟨after, dropped, answered⟩ := Option.map_eq_some_iff.mp stepped
        cases answered
        exact ⟨serves.dropRing_other different dropped, rfl⟩
  served {sfu target mailbox event answer access} serves stepped within accessed := by
    cases event with
    | subscribe capacity => cases accessed
    | unsubscribe other =>
        obtain ⟨rfl, rfl⟩ : other = id ∧ Access.leave = access := by
          simpa [subscriber] using accessed
        cases stepped
        exact ⟨serves.unsubscribe, rfl⟩
    | publish frame =>
        cases stepped
        cases accessed
        refine ⟨serves.publish frame, ?_⟩
        cases listening : mailbox.attached <;> simp [subscriber, Mailbox.serve, listening]
    | pop other =>
        obtain ⟨rfl, rfl⟩ : other = address ∧ Access.take = access := by
          simpa [subscriber] using accessed
        obtain ⟨⟨after, result⟩, popped, answered⟩ := Option.map_eq_some_iff.mp stepped
        cases answered
        obtain ⟨kept, shown⟩ := serves.pop popped
        refine ⟨kept, ?_⟩
        rw [shown]
        exact if_pos rfl
    | dropRing other =>
        obtain ⟨rfl, rfl⟩ : other = address ∧ Access.leave = access := by
          simpa [subscriber] using accessed
        obtain ⟨after, dropped, answered⟩ := Option.map_eq_some_iff.mp stepped
        cases answered
        exact ⟨serves.dropRing dropped, rfl⟩

/-- A new subscriber starts with an empty mailbox. -/
theorem serves_subscribe {sfu : Sfu} (numbered : Numbered sfu) (capacity : Nat) :
    Serves (sfu.subscribe capacity).2.1 (sfu.subscribe capacity).2.2 (sfu.subscribe capacity).1
      (.fresh (max capacity 1)) where
  numbered := numbered.subscribe capacity
  id_eq := numbered.next_eq
  cell := ⟨true, List.getElem?_concat_length, by simp [Mailbox.fresh, Sfu.subscribe, insert]⟩

/-- No later subscription can be handed an id that is in use since before the events. -/
def FewSubscriptions (events : List Event) : Prop := events.countP isSubscribe < 2 ^ 64

instance fewDecidable (events : List Event) : Decidable (FewSubscriptions events) :=
  inferInstanceAs (Decidable (events.countP isSubscribe < 2 ^ 64))

theorem within_of_few {sfu final : Sfu} {capacity : Nat} {events : List Event}
    {log : List (Event × Answer)} (few : FewSubscriptions events)
    (ran : machine.run (sfu.subscribe capacity).1 events = some (final, log)) :
    final.heap.length ≤ (sfu.subscribe capacity).2.2 + 2 ^ 64 := by
  have length := heap_length_of_run ran
  have allocated : (sfu.subscribe capacity).1.heap.length = sfu.heap.length + 1 := by
    simp [Sfu.subscribe]
  unfold FewSubscriptions at few
  change final.heap.length ≤ sfu.heap.length + 2 ^ 64
  omega

/-- The observer that subscribing gives. -/
def joined (sfu : Sfu) (capacity : Nat) :
    Observer Event Answer (Access MediaFrame) (Option MediaFrame) :=
  subscriber (sfu.subscribe capacity).2.1 (sfu.subscribe capacity).2.2

theorem accounts_of_run {sfu final : Sfu} (numbered : Numbered sfu) {capacity : Nat}
    {events : List Event} {log : List (Event × Answer)} (few : FewSubscriptions events)
    (ran : machine.run (sfu.subscribe capacity).1 events = some (final, log)) :
    ∃ cell, final.heap[(sfu.subscribe capacity).2.2]? = some cell ∧
      Mailbox.Accounts (max capacity 1) (events.filterMap (sfu.joined capacity).access)
        (log.filterMap (sfu.joined capacity).seen) cell.ring := by
  obtain ⟨⟨_, _, held, present, _⟩, seen⟩ :=
    (subscriber_explains _ _).run (serves_subscribe numbered capacity) ran (within_of_few few ran)
  refine ⟨_, present, ?_⟩
  unfold joined
  rw [seen]
  exact Mailbox.accounts _ _

end Sfu

open Teleop.Core in
/-- What a subscriber pops depends only on what is published, on the deliveries to it alone and
on its own calls; and it is, first in first out, what was offered since it subscribed, less
what found its own ring full.  On a router this holds until 2⁶⁴ subscriptions follow. -/
theorem subscriber_isolated {T : Type u} (capacity : Nat) :
    (∀ left right : MessageBus T, (MessageBus.system capacity).Reachable left →
        (MessageBus.system capacity).Reachable right →
        LooksSame MessageBus.machine (fun _ => True)
          left.subscribe.1 (MessageBus.subscriber left.subscribe.2)
          right.subscribe.1 (MessageBus.subscriber right.subscribe.2)) ∧
      (∀ bus : MessageBus T, (MessageBus.system capacity).Reachable bus →
        ∀ events final log, MessageBus.machine.run bus.subscribe.1 events = some (final, log) →
          ∃ ring, final.ring bus.subscribe.2 = some ring ∧
            Mailbox.Accounts capacity
              (events.filterMap (MessageBus.subscriber bus.subscribe.2).access)
              (log.filterMap (MessageBus.subscriber bus.subscribe.2).seen) ring) ∧
      (∀ left right : Sfu, Sfu.system.Reachable left → Sfu.system.Reachable right →
        LooksSame Sfu.machine Sfu.FewSubscriptions
          (left.subscribe capacity).1 (left.joined capacity)
          (right.subscribe capacity).1 (right.joined capacity)) ∧
      ∀ sfu : Sfu, Sfu.system.Reachable sfu →
        ∀ events final log, Sfu.FewSubscriptions events →
          Sfu.machine.run (sfu.subscribe capacity).1 events = some (final, log) →
          ∃ cell, final.heap[(sfu.subscribe capacity).2.2]? = some cell ∧
            Mailbox.Accounts (max capacity 1) (events.filterMap (sfu.joined capacity).access)
              (log.filterMap (sfu.joined capacity).seen) cell.ring := by
  refine ⟨?_, ?_, ?_, ?_⟩
  · intro left right reached reached'
    have fresh := MessageBus.holds_subscribe left
    have fresh' := MessageBus.holds_subscribe right
    rw [MessageBus.capacity_of_reachable reached] at fresh
    rw [MessageBus.capacity_of_reachable reached'] at fresh'
    exact (MessageBus.subscriber_explains _).looksSame (MessageBus.subscriber_explains _)
      fresh fresh' (fun _ _ => trivial) (fun _ _ => trivial)
  · intro bus reached events final log ran
    exact MessageBus.accounts_of_run (MessageBus.capacity_of_reachable reached) ran
  · intro left right reached reached'
    exact (Sfu.subscriber_explains _ _).looksSame (Sfu.subscriber_explains _ _)
      (Sfu.serves_subscribe (Sfu.numbered_of_reachable reached) capacity)
      (Sfu.serves_subscribe (Sfu.numbered_of_reachable reached') capacity)
      (fun few ran => Sfu.within_of_few few ran) (fun few ran => Sfu.within_of_few few ran)
  · intro sfu reached events final log few ran
    exact Sfu.accounts_of_run (Sfu.numbered_of_reachable reached) few ran

open Teleop.Core in
/-- On a bus with one subscriber more, and on a router whose first subscriber leaves, the same
values arrive. -/
theorem latecomer_isolated :
    (∃ l r log log',
      MessageBus.machine.run (MessageBus.new (T := Nat) 1).subscribe.1
          [.publish 5, .subscribe, .publish 6, .pop ⟨0⟩] = some (l, log) ∧
        MessageBus.machine.run (MessageBus.new (T := Nat) 1).subscribe.1.subscribe.1
          [.publish 5, .pop ⟨0⟩, .publish 6, .pop ⟨1⟩] = some (r, log') ∧
        log.filterMap (MessageBus.subscriber ⟨0⟩).seen =
          log'.filterMap (MessageBus.subscriber ⟨1⟩).seen) ∧
      ∃ l r log log',
        Sfu.machine.run (Sfu.new.subscribe 1).1
            [.publish (.new 2 5 [1]), .publish (.new 2 6 [2]), .pop 0] = some (l, log) ∧
          Sfu.machine.run ((Sfu.new.subscribe 3).1.subscribe 1).1
            [.publish (.new 2 5 [1]), .dropRing 0, .publish (.new 2 6 [2]), .subscribe 4,
              .pop 1] = some (r, log') ∧
          log.filterMap (Sfu.subscriber 1 0).seen = log'.filterMap (Sfu.subscriber 2 1).seen := by
  obtain ⟨buses, _, routers, _⟩ := subscriber_isolated (T := Nat) 1
  have bus : (MessageBus.system 1).Reachable (MessageBus.new (T := Nat) 1) := .of_initial rfl
  have router : Sfu.system.Reachable Sfu.new := .of_initial rfl
  have crowded : (MessageBus.system 1).Reachable (MessageBus.new (T := Nat) 1).subscribe.1 :=
    bus.step (show (MessageBus.system 1).step _ .subscribe _ from rfl)
  have joined : Sfu.system.Reachable (Sfu.new.subscribe 3).1 :=
    router.step (show Sfu.system.step _ (.subscribe 3) _ from rfl)
  refine ⟨⟨_, _, _, _, rfl, rfl, ?_⟩, ⟨_, _, _, _, rfl, rfl, ?_⟩⟩
  · exact buses _ _ bus crowded [.publish 5, .subscribe, .publish 6, .pop ⟨0⟩]
      [.publish 5, .pop ⟨0⟩, .publish 6, .pop ⟨1⟩] _ _ _ _ trivial trivial rfl rfl rfl
  · exact routers _ _ router joined
      [.publish (.new 2 5 [1]), .publish (.new 2 6 [2]), .pop 0]
      [.publish (.new 2 5 [1]), .dropRing 0, .publish (.new 2 6 [2]), .subscribe 4, .pop 1]
      _ _ _ _ (by decide) (by decide) rfl rfl rfl

namespace Sfu

/-- Subscriptions one after the other leave the rings there are alone. -/
theorem run_subscriptions (n : Nat) {sfu : Sfu} (numbered : Numbered sfu) (id : UInt64)
    (address : Nat) :
    ∃ final log, machine.run sfu (List.replicate n (.subscribe 1)) = some (final, log) ∧
      Numbered final ∧ final.heap.length = sfu.heap.length + n ∧
      (∀ other < sfu.heap.length, final.heap[other]? = sfu.heap[other]?) ∧
      (List.replicate n (Event.subscribe 1)).filterMap (subscriber id address).access = [] ∧
      log.filterMap (subscriber id address).seen = [] := by
  induction n generalizing sfu with
  | zero => exact ⟨sfu, [], rfl, numbered, rfl, fun _ _ => rfl, rfl, rfl⟩
  | succ n inductionHypothesis =>
      obtain ⟨final, log, ran, numbered, length, kept, unaccessed, unseen⟩ :=
        inductionHypothesis (numbered.subscribe 1)
      have grown : (sfu.subscribe 1).1.heap.length = sfu.heap.length + 1 := by
        simp [Sfu.subscribe]
      have stepped : machine.step sfu (.subscribe 1) = some ((sfu.subscribe 1).1,
          .subscribed (sfu.subscribe 1).2.1 (sfu.subscribe 1).2.2) := rfl
      refine ⟨final, _, Machine.run_cons stepped ran, numbered, by omega, ?_, unaccessed, unseen⟩
      intro other inside
      rw [kept other (by omega)]
      exact List.getElem?_append_left inside

/-- After 2⁶⁴ further subscriptions the first subscriber's id belongs to another ring, and the
frames published from then on no longer reach the first. -/
theorem reused_id_diverts :
    ¬LooksSame machine (fun _ => True) (new.subscribe 1).1 (new.joined 1)
      (new.subscribe 1).1 (new.joined 1) := by
  intro same
  have start : Numbered (new.subscribe 1).1 := new_numbered.subscribe 1
  obtain ⟨n, turn⟩ : ∃ n : Nat, n + 1 = 2 ^ 64 := ⟨2 ^ 64 - 1, by omega⟩
  obtain ⟨middle, log, ran, numbered, length, kept, unaccessed, unseen⟩ :=
    run_subscriptions n start 1 0
  have first : (new.subscribe 1).1.heap.length = 1 := rfl
  have wrapped : middle.fanout.next = 1 := by
    rw [numbered.next_eq]
    apply UInt64.toNat.inj
    rw [UInt64.toNat_ofNat']
    change _ = 1
    omega
  have present : middle.heap[0]? = some ⟨.withCapacity 1, true⟩ := kept 0 (by omega)
  -- the next subscription takes over the id of address 0
  have unlisted : 0 ∉ (middle.subscribe 1).1.fanout.subs.map (·.2) := by
    intro place
    obtain ⟨⟨id, address⟩, listed, zero⟩ := List.mem_map.mp place
    rcases List.mem_append.mp listed with earlier | added
    · obtain ⟨entry, other⟩ := List.mem_filter.mp earlier
      obtain ⟨_, number⟩ := numbered.entries id address entry
      dsimp only at zero
      rw [zero] at number
      rw [number, wrapped] at other
      exact of_decide_eq_true other rfl
    · obtain ⟨_, last⟩ := Prod.mk.inj (List.mem_singleton.mp added)
      dsimp only at zero
      omega
  have untouched : ((middle.subscribe 1).1.publish (.new 2 5 [1])).1.heap[0]? =
      some ⟨.withCapacity 1, true⟩ := by
    refine (pushEach_getElem? _ _ _ (numbered.subscribe 1).distinct 0).trans ?_
    rw [if_neg unlisted]
    exact (List.getElem?_append_left (by omega)).trans present
  have popped : ((middle.subscribe 1).1.publish (.new 2 5 [1])).1.pop 0 =
      some (((middle.subscribe 1).1.publish (.new 2 5 [1])).1, none) := by
    unfold Sfu.pop
    rw [upgrade_eq_some.mpr untouched]
    rfl
  have nothing : machine.step ((middle.subscribe 1).1.publish (.new 2 5 [1])).1 (.pop 0) =
      some (((middle.subscribe 1).1.publish (.new 2 5 [1])).1, .popped none) := by
    simp only [machine, popped, Option.map_some]
  have ends : machine.run middle [.subscribe 1, .publish (.new 2 5 [1]), .pop 0] =
      some (((middle.subscribe 1).1.publish (.new 2 5 [1])).1,
        [(.subscribe 1, .subscribed (middle.subscribe 1).2.1 (middle.subscribe 1).2.2),
          (.publish (.new 2 5 [1]),
            .delivered ((middle.subscribe 1).1.publish (.new 2 5 [1])).2),
          (.pop 0, .popped none)]) :=
    Machine.run_cons rfl (Machine.run_cons rfl (Machine.run_cons nothing rfl))
  have diverted := Machine.run_append ran ends
  have looks := same _ [.publish (.new 2 5 [1]), .pop 0] _ _ _ _ trivial trivial diverted rfl (by
    rw [List.filterMap_append]
    change List.filterMap (subscriber 1 0).access _ ++ _ = _
    rw [unaccessed]
    rfl)
  rw [List.filterMap_append] at looks
  change List.filterMap (subscriber 1 0).seen log ++ _ = _ at looks
  rw [unseen] at looks
  change [none] = [some (MediaFrame.new 2 5 [1])] at looks
  exact absurd looks (by simp)

end Sfu

end Teleop.Cloud
