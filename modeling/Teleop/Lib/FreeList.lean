import Mathlib.Data.List.Nodup

/-!
# Lists threaded through links

A free list that lives in the records it lists: each holds the address of the next, and a
reserved address ends the list.  Only links decide, so a head has one list, no address stands
in it twice, and a link that is not on it may change.
-/

namespace Teleop.Lib

universe u

variable {Address : Type u}

/-- `Threaded link nil head list`: following the links from `head` visits `list` and ends at
`nil`. -/
inductive Threaded (link : Address → Option Address) (nil : Address) :
    Address → List Address → Prop
  | done : Threaded link nil nil []
  | visit {head next : Address} {rest : List Address} :
      head ≠ nil → link head = some next → Threaded link nil next rest →
      Threaded link nil head (head :: rest)

namespace Threaded

variable {link other : Address → Option Address} {nil head : Address} {list : List Address}

/-- The first address is taken off by following its link. -/
theorem pop (threaded : Threaded link nil head list) (listed : head ≠ nil) :
    ∃ next rest, list = head :: rest ∧ link head = some next ∧ Threaded link nil next rest := by
  cases threaded with
  | done => exact absurd rfl listed
  | @visit _ next rest _ linked threaded => exact ⟨next, rest, rfl, linked, threaded⟩

theorem eq_nil (threaded : Threaded link nil nil list) : list = [] := by
  cases threaded with
  | done => rfl
  | visit listed => exact absurd rfl listed

/-- Links outside the list play no part. -/
theorem congr (threaded : Threaded link nil head list)
    (same : ∀ address ∈ list, other address = link address) : Threaded other nil head list := by
  induction threaded with
  | done => exact .done
  | @visit head _ rest listed linked _ inductionHypothesis =>
      refine .visit listed ((same head List.mem_cons_self).trans linked) ?_
      exact inductionHypothesis fun address later => same address (List.mem_cons_of_mem _ later)

/-- A new address is put in front by linking it to the head. -/
theorem push (threaded : Threaded link nil head list) {address : Address} (apart : address ≠ nil)
    (fresh : address ∉ list) (linked : other address = some head)
    (same : ∀ listed, listed ≠ address → other listed = link listed) :
    Threaded other nil address (address :: list) := by
  refine .visit apart linked (threaded.congr fun listed member => same listed ?_)
  rintro rfl
  exact fresh member

theorem unique (first : Threaded link nil head list) {second : List Address}
    (threaded : Threaded link nil head second) : list = second := by
  induction first generalizing second with
  | done => exact threaded.eq_nil.symm
  | visit listed linked _ inductionHypothesis =>
      obtain ⟨next, rest, rfl, again, threaded⟩ := threaded.pop listed
      obtain rfl := Option.some.inj (linked.symm.trans again)
      rw [inductionHypothesis threaded]

theorem of_append {front back : List Address} {address : Address}
    (threaded : Threaded link nil head (front ++ address :: back)) :
    Threaded link nil address (address :: back) := by
  induction front generalizing head with
  | nil =>
      cases threaded with
      | visit listed linked threaded => exact .visit listed linked threaded
  | cons _ front inductionHypothesis =>
      cases threaded with
      | visit _ _ threaded => exact inductionHypothesis threaded

/-- There is no way back to an address: the list behind it would be as long as itself. -/
theorem nodup (threaded : Threaded link nil head list) : list.Nodup := by
  induction threaded with
  | done => exact List.nodup_nil
  | @visit head next rest listed linked threaded inductionHypothesis =>
      refine List.nodup_cons.mpr ⟨fun again => ?_, inductionHypothesis⟩
      obtain ⟨front, back, rfl⟩ := List.append_of_mem again
      have same := threaded.of_append.unique (.visit listed linked threaded)
      have length := congrArg List.length same
      simp at length
      omega

end Threaded

end Teleop.Lib
