import Mathlib.Logic.Equiv.Basic
import Mathlib.Data.List.Nodup

/-!
# Tokens and their owners

Each owner holds at most one token.  A step that hands tokens round by a
permutation of the owners gives no token two owners, and one that forgets none on
the way loses none.
-/

namespace Teleop.Lib

universe u v

variable {Owner : Type u} {Token : Type v} {before after : Owner → Option Token}

/-- No token has two owners. -/
def Exclusive (owned : Owner → Option Token) : Prop :=
  ∀ one other token, owned one = some token → owned other = some token → one = other

/-- Tokens change hands and some may be lost. -/
def Relocates (before after : Owner → Option Token) : Prop :=
  ∃ back : Owner ≃ Owner, ∀ owner token,
    after owner = some token → before (back owner) = some token

/-- Tokens change hands and none is lost. -/
def Conserves (before after : Owner → Option Token) : Prop :=
  ∃ back : Owner ≃ Owner, ∀ owner, after owner = before (back owner)

theorem Conserves.of_eq (same : ∀ owner, after owner = before owner) : Conserves before after :=
  ⟨Equiv.refl Owner, same⟩

/-- One owner hands its token to another that has none. -/
theorem Conserves.of_handover [DecidableEq Owner] (giver taker : Owner)
    (given : after giver = before taker) (taken : after taker = before giver)
    (others : ∀ owner, owner ≠ giver → owner ≠ taker → after owner = before owner) :
    Conserves before after := by
  refine ⟨Equiv.swap giver taker, fun owner => ?_⟩
  by_cases gives : owner = giver
  · rw [gives, Equiv.swap_apply_left, given]
  by_cases takes : owner = taker
  · rw [takes, Equiv.swap_apply_right, taken]
  rw [Equiv.swap_apply_of_ne_of_ne gives takes, others owner gives takes]

theorem Conserves.relocates (conserves : Conserves before after) : Relocates before after := by
  obtain ⟨back, same⟩ := conserves
  refine ⟨back, fun owner token held => ?_⟩
  rwa [← same]

/-- An owner may lose its token. -/
theorem Relocates.of_loss (loser : Owner) (lost : after loser = none)
    (others : ∀ owner, owner ≠ loser → after owner = before owner) : Relocates before after := by
  refine ⟨Equiv.refl Owner, fun owner token held => ?_⟩
  have kept : owner ≠ loser := by
    rintro rfl
    rw [lost] at held
    cases held
  rwa [others owner kept] at held

theorem Exclusive.relocate (exclusive : Exclusive before) (relocates : Relocates before after) :
    Exclusive after := by
  obtain ⟨back, origin⟩ := relocates
  intro one other token first second
  apply back.injective
  exact exclusive _ _ token (origin one token first) (origin other token second)

/-- A token held after the step was held before it. -/
theorem Relocates.origin (relocates : Relocates before after) {owner : Owner} {token : Token}
    (held : after owner = some token) : ∃ holder, before holder = some token := by
  obtain ⟨back, origin⟩ := relocates
  exact ⟨back owner, origin owner token held⟩

/-- A token held before the step is held after it. -/
theorem Conserves.kept (conserves : Conserves before after) {owner : Owner} {token : Token}
    (held : before owner = some token) : ∃ holder, after holder = some token := by
  obtain ⟨back, same⟩ := conserves
  refine ⟨back.symm owner, ?_⟩
  rw [same, Equiv.apply_symm_apply, held]

/-- There are no more owners than tokens. -/
theorem Exclusive.length_le {owned : Owner → Option Nat} (exclusive : Exclusive owned)
    {owners : List Owner} (distinct : owners.Nodup) (bound : Nat)
    (below : ∀ owner ∈ owners, ∃ token < bound, owned owner = some token) :
    owners.length ≤ bound := by
  have tokens : (owners.map fun owner => (owned owner).getD 0).Nodup := by
    refine List.Nodup.map_on ?_ distinct
    intro one listed other listedToo same
    obtain ⟨token, _, held⟩ := below one listed
    obtain ⟨tokenToo, _, heldToo⟩ := below other listedToo
    rw [held, heldToo] at same
    obtain rfl : token = tokenToo := same
    exact exclusive one other token held heldToo
  have included : (owners.map fun owner => (owned owner).getD 0) ⊆ List.range bound := by
    intro token listed
    obtain ⟨owner, listedOwner, rfl⟩ := List.mem_map.mp listed
    obtain ⟨found, small, held⟩ := below owner listedOwner
    rw [held]
    exact List.mem_range.mpr small
  have lengths := tokens.length_le_of_subset included
  rwa [List.length_map, List.length_range] at lengths

end Teleop.Lib
