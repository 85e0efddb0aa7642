import Mathlib.Data.List.ReduceOption
import Teleop.Lib.Observer
import Teleop.Ring.Spsc

/-!
# A subscriber's mailbox

What a fan-out promises one subscriber: values are offered to its ring as long as it is
attached, a value that finds the ring full is dropped, and pops take the oldest value.
-/

namespace Teleop.Ring

open Teleop.Lib

universe u

/-- What happens to a mailbox. -/
inductive Access (T : Type u) where
  | offer (value : T)
  | take
  | leave

/-- A ring and whether values are still offered to it. -/
structure Mailbox (T : Type u) where
  ring : SpscRing T
  attached : Bool

namespace Mailbox

variable {T : Type u}

/-- The mailbox of a new subscriber. -/
def fresh (capacity : Nat) : Mailbox T := ⟨.withCapacity capacity, true⟩

/-- One access; a pop shows its result. -/
def serve (mailbox : Mailbox T) : Access T → Mailbox T × Option (Option T)
  | .offer value =>
      if mailbox.attached then ({ mailbox with ring := mailbox.ring.pushOrDrop value }, none)
      else (mailbox, none)
  | .take =>
      match mailbox.ring.pop with
      | some (value, rest) => ({ mailbox with ring := rest }, some (some value))
      | none => (mailbox, some none)
  | .leave => ({ mailbox with attached := false }, none)

/-- The values offered while the mailbox is attached, each with whether the ring had room. -/
def offers : Mailbox T → List (Access T) → List (T × Bool)
  | _, [] => []
  | mailbox, access :: rest =>
      let later := offers (mailbox.serve access).1 rest
      match access with
      | .offer value =>
          if mailbox.attached then
            (value, decide (mailbox.ring.items.length < mailbox.ring.capacity)) :: later
          else later
      | .take | .leave => later

/-- The values that found room. -/
def kept (mailbox : Mailbox T) (accesses : List (Access T)) : List T :=
  ((offers mailbox accesses).filter (·.2)).map (·.1)

theorem items_pushOrDrop (ring : SpscRing T) (value : T) :
    (ring.pushOrDrop value).items =
      if ring.items.length < ring.capacity then ring.items ++ [value] else ring.items := by
  unfold SpscRing.pushOrDrop SpscRing.push
  by_cases room : ring.items.length < ring.capacity
  · rw [dif_pos room, if_pos room]
  · rw [dif_neg room, if_neg room]

/-- First in, first out: what is popped and what is still in the ring are, in order, what was
there and the values that found room. -/
theorem serveAll_fifo (mailbox : Mailbox T) (accesses : List (Access T)) :
    (serveAll serve mailbox accesses).2.reduceOption ++
        (serveAll serve mailbox accesses).1.ring.items =
      mailbox.ring.items ++ mailbox.kept accesses := by
  induction accesses generalizing mailbox with
  | nil => simp [serveAll, kept, offers]
  | cons access rest inductionHypothesis =>
      have later := inductionHypothesis (mailbox.serve access).1
      cases access with
      | offer value =>
          by_cases attached : mailbox.attached = true
          · by_cases room : mailbox.ring.items.length < mailbox.ring.capacity
            · simpa [serveAll, serve, kept, offers, attached, room, items_pushOrDrop] using later
            · simpa [serveAll, serve, kept, offers, attached, room, items_pushOrDrop] using later
          · simpa [serveAll, serve, kept, offers, attached] using later
      | take =>
          cases popped : mailbox.ring.pop with
          | none => simpa [serveAll, serve, kept, offers, popped] using later
          | some result =>
              obtain ⟨value, remaining⟩ := result
              have content := SpscRing.items_of_pop popped
              simpa [serveAll, serve, kept, offers, popped, content] using later
      | leave => simpa [serveAll, serve, kept, offers] using later

theorem kept_append (mailbox : Mailbox T) (first second : List (Access T)) :
    mailbox.kept (first ++ second) =
      mailbox.kept first ++ (serveAll serve mailbox first).1.kept second := by
  induction first generalizing mailbox with
  | nil => rfl
  | cons access rest inductionHypothesis =>
      have later := inductionHypothesis (mailbox.serve access).1
      cases access with
      | offer value =>
          by_cases attached : mailbox.attached = true
          · by_cases room : mailbox.ring.items.length < mailbox.ring.capacity
            · simpa [kept, offers, serveAll, attached, room] using later
            · simpa [kept, offers, serveAll, attached, room] using later
          · simpa [kept, offers, serveAll, attached] using later
      | take => exact later
      | leave => exact later

/-- A value offered to an attached mailbox with room in its ring is kept. -/
theorem kept_offer {mailbox : Mailbox T} (attached : mailbox.attached = true)
    (room : mailbox.ring.items.length < mailbox.ring.capacity) (value : T)
    (rest : List (Access T)) :
    mailbox.kept (.offer value :: rest) = value :: (mailbox.serve (.offer value)).1.kept rest := by
  simp [kept, offers, attached, room]

/-- The values popped from a fresh mailbox are some of those offered, in their order and each
no more often than it was offered. -/
theorem popped_sublist (capacity : Nat) (accesses : List (Access T)) :
    (serveAll serve (fresh capacity) accesses).2.reduceOption.Sublist
      ((offers (fresh capacity) accesses).map (·.1)) := by
  have fifo := serveAll_fifo (fresh capacity) accesses
  have early : (serveAll serve (fresh capacity) accesses).2.reduceOption.Sublist
      (kept (fresh capacity) accesses) := by
    apply (List.sublist_append_left _ _).trans
    rw [fifo]
    exact List.Sublist.refl _
  exact early.trans (List.filter_sublist.map _)

/-- What the accesses to a fresh mailbox say of the pops seen and of the ring at the end: the
pops are first in, first out, no value is popped more often than it was offered, and of the
offers to the attached mailbox only those that found the ring full were dropped. -/
structure Accounts (capacity : Nat) (accesses : List (Access T)) (pops : List (Option T))
    (ring : SpscRing T) : Prop where
  ring_eq : ring = (serveAll serve (fresh capacity) accesses).1.ring
  fifo : pops.reduceOption ++ ring.items = (fresh capacity).kept accesses
  inOrder : pops.reduceOption.Sublist ((offers (fresh capacity) accesses).map (·.1))
  roomKeeps : ∀ before value after, accesses = before ++ .offer value :: after →
    (serveAll serve (fresh capacity) before).1.attached = true →
    (serveAll serve (fresh capacity) before).1.ring.items.length <
      (serveAll serve (fresh capacity) before).1.ring.capacity →
    (fresh capacity).kept accesses = (fresh capacity).kept before ++
      value :: ((serveAll serve (fresh capacity) before).1.serve (.offer value)).1.kept after

theorem accounts (capacity : Nat) (accesses : List (Access T)) :
    Accounts capacity accesses (serveAll serve (fresh capacity) accesses).2
      (serveAll serve (fresh capacity) accesses).1.ring where
  ring_eq := rfl
  fifo := serveAll_fifo (fresh capacity) accesses
  inOrder := popped_sublist capacity accesses
  roomKeeps before value after split attached room := by
    rw [split, kept_append, kept_offer attached room]

end Mailbox

end Teleop.Ring
