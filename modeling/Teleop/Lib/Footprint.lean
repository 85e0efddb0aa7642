import Mathlib.Data.List.Basic

/-!
# Footprints of writes

What a run of writes of one value may have changed in a list: only allowed places, and these
hold the value afterwards.
-/

namespace Teleop.Lib

universe u v

variable {α : Type u}

/-- `after` is `before` with `value` written at some of the allowed places. -/
structure Overwrites (allowed : Nat → Prop) (value : α) (before after : List α) : Prop where
  length : after.length = before.length
  changed : ∀ i, after[i]? ≠ before[i]? → allowed i ∧ after[i]? = some value

namespace Overwrites

variable {allowed wider : Nat → Prop} {value : α} {before middle after : List α}

theorem refl (allowed : Nat → Prop) (value : α) (list : List α) :
    Overwrites allowed value list list where
  length := rfl
  changed _ differs := absurd rfl differs

theorem trans (first : Overwrites allowed value before middle)
    (second : Overwrites allowed value middle after) : Overwrites allowed value before after where
  length := second.length.trans first.length
  changed i differs := by
    by_cases later : after[i]? = middle[i]?
    · rw [later] at differs ⊢
      exact first.changed i differs
    · exact second.changed i later

theorem mono (overwrites : Overwrites allowed value before after)
    (included : ∀ i, allowed i → wider i) : Overwrites wider value before after where
  length := overwrites.length
  changed i differs := by
    obtain ⟨inside, written⟩ := overwrites.changed i differs
    exact ⟨included i inside, written⟩

theorem set {i : Nat} (list : List α) (value : α) (inside : allowed i) :
    Overwrites allowed value list (list.set i value) where
  length := List.length_set
  changed j differs := by
    by_cases same : j = i
    · subst same
      rw [List.getElem?_set_self'] at differs ⊢
      cases held : list[j]? with
      | none => simp [held] at differs
      | some old => exact ⟨inside, by simp⟩
    · rw [List.getElem?_set_ne (Ne.symm same)] at differs
      exact absurd rfl differs

/-- A place that is not allowed keeps what it has. -/
theorem getElem?_eq (overwrites : Overwrites allowed value before after) {i : Nat}
    (outside : ¬ allowed i) : after[i]? = before[i]? := by
  by_contra differs
  exact outside (overwrites.changed i differs).1

/-- A loop whose passes all succeed and write at allowed places. -/
theorem exists_foldlM {β : Type v} {pass : List α → β → Option (List α)} {steps : List β}
    (each : ∀ step ∈ steps, ∀ list : List α, list.length = before.length →
      ∃ after, pass list step = some after ∧ Overwrites allowed value list after) :
    ∃ after, steps.foldlM pass before = some after ∧ Overwrites allowed value before after := by
  induction steps generalizing before with
  | nil => exact ⟨before, rfl, .refl _ _ _⟩
  | cons step rest inductionHypothesis =>
      obtain ⟨middle, passed, first⟩ := each step List.mem_cons_self before rfl
      have remaining : ∀ step ∈ rest, ∀ list : List α, list.length = middle.length →
          ∃ after, pass list step = some after ∧ Overwrites allowed value list after := by
        intro step listed list same
        exact each step (List.mem_cons_of_mem _ listed) list (same.trans first.length)
      obtain ⟨after, done, second⟩ := inductionHypothesis remaining
      refine ⟨after, ?_, first.trans second⟩
      rw [List.foldlM_cons, passed]
      exact done

end Overwrites

end Teleop.Lib
