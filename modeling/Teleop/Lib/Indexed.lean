import Mathlib.Logic.Function.Basic
import Mathlib.Data.List.Basic

/-!
# Lists as indexed families

A list of records that are replaced in place and appended, seen as a function
from indices, and how the number of records of a kind changes.
-/

namespace Teleop.Lib

universe u v

variable {α : Type u}

theorem getElem?_set_eq_update {items : List α} {i : Nat} {item : α}
    (held : items[i]? = some item) (after : α) :
    (fun other => (items.set i after)[other]?) =
      Function.update (fun other => items[other]?) i (some after) := by
  have inside := (List.getElem?_eq_some_iff.mp held).1
  funext other
  by_cases same : other = i
  · subst same
    simp [inside]
  · rw [Function.update_of_ne same, List.getElem?_set_ne (Ne.symm same)]

theorem getElem?_append_eq_update (items : List α) (item : α) :
    (fun other => (items ++ [item])[other]?) =
      Function.update (fun other => items[other]?) items.length (some item) := by
  funext other
  by_cases same : other = items.length
  · subst same
    simp
  · rw [Function.update_of_ne same]
    rcases Nat.lt_or_gt_of_ne same with before | beyond
    · exact List.getElem?_append_left before
    · rw [List.getElem?_eq_none (by simp; omega), List.getElem?_eq_none (by omega)]

theorem bind_set_eq_update {β : Type v} (view : α → Option β) {items : List α} {i : Nat} {item : α}
    (held : items[i]? = some item) (after : α) :
    (fun other => (items.set i after)[other]?.bind view) =
      Function.update (fun other => items[other]?.bind view) i (view after) := by
  funext other
  have here := congrFun (getElem?_set_eq_update held after) other
  rw [here]
  by_cases same : other = i
  · subst same
    simp
  · simp [same]

theorem bind_append_eq_update {β : Type v} (view : α → Option β) (items : List α) (item : α) :
    (fun other => (items ++ [item])[other]?.bind view) =
      Function.update (fun other => items[other]?.bind view) items.length (view item) := by
  funext other
  have here := congrFun (getElem?_append_eq_update items item) other
  rw [here]
  by_cases same : other = items.length
  · subst same
    simp
  · simp [same]

/-- A value that neither the entry before nor the one in its place has is found at the same
indices as before. -/
theorem update_eq_some_iff {family : Nat → Option α} {i : Nat} {entry : Option α} {value : α}
    (before : family i ≠ some value) (after : entry ≠ some value) (other : Nat) :
    Function.update family i entry other = some value ↔ family other = some value := by
  by_cases same : other = i
  · subst same
    rw [Function.update_self]
    exact ⟨fun here => absurd here after, fun here => absurd here before⟩
  · rw [Function.update_of_ne same]

/-- A value found after an update is the new entry or was there before. -/
theorem eq_some_of_update {family : Nat → Option α} {i other : Nat} {entry value : α}
    (found : Function.update family i (some entry) other = some value) :
    (other = i ∧ entry = value) ∨ (other ≠ i ∧ family other = some value) := by
  by_cases same : other = i
  · subst same
    rw [Function.update_self] at found
    exact .inl ⟨rfl, Option.some.inj found⟩
  · rw [Function.update_of_ne same] at found
    exact .inr ⟨same, found⟩

/-- Replacing a record by one of the same kind keeps the count. -/
theorem countP_set_same {p : α → Bool} {items : List α} {i : Nat} {item after : α}
    (held : items[i]? = some item) (same : p after = p item) :
    (items.set i after).countP p = items.countP p := by
  obtain ⟨inside, here⟩ := List.getElem?_eq_some_iff.mp held
  rw [List.countP_set inside, here, same]
  split
  · rename_i counted
    have positive : 0 < items.countP p :=
      List.countP_pos_iff.mpr ⟨item, List.mem_of_getElem? held, counted⟩
    omega
  · omega

/-- Replacing a record not counted by one that is. -/
theorem countP_set_new {p : α → Bool} {items : List α} {i : Nat} {item after : α}
    (held : items[i]? = some item) (before : p item = false) (counted : p after = true) :
    (items.set i after).countP p = items.countP p + 1 := by
  obtain ⟨inside, here⟩ := List.getElem?_eq_some_iff.mp held
  simp [List.countP_set inside, here, before, counted]

/-- Replacing a record that is counted by one that is not. -/
theorem countP_set_gone {p : α → Bool} {items : List α} {i : Nat} {item after : α}
    (held : items[i]? = some item) (counted : p item = true) (gone : p after = false) :
    (items.set i after).countP p + 1 = items.countP p := by
  obtain ⟨inside, here⟩ := List.getElem?_eq_some_iff.mp held
  have positive : 0 < items.countP p :=
    List.countP_pos_iff.mpr ⟨item, List.mem_of_getElem? held, counted⟩
  rw [List.countP_set inside, here, counted, gone]
  simp
  omega

/-- The indices of the records of a kind, as many as there are of it. -/
theorem exists_indices (p : α → Bool) (items : List α) :
    ∃ indices : List Nat, indices.Nodup ∧ indices.length = items.countP p ∧
      ∀ i ∈ indices, ∃ item, items[i]? = some item ∧ p item = true := by
  refine ⟨(items.zipIdx.filter fun entry => p entry.1).map Prod.snd, ?_, ?_, ?_⟩
  · have all : (items.zipIdx.map Prod.snd).Nodup := by
      rw [List.zipIdx_map_snd]
      exact List.nodup_range'
    exact (List.filter_sublist.map Prod.snd).nodup all
  · rw [List.length_map, ← List.countP_eq_length_filter]
    have firsts : items.zipIdx.map Prod.fst = items := List.zipIdx_map_fst 0 items
    conv_rhs => rw [← firsts, List.countP_map]
    rfl
  · intro i listed
    obtain ⟨⟨item, place⟩, kept, rfl⟩ := List.mem_map.mp listed
    obtain ⟨here, counted⟩ := List.mem_filter.mp kept
    exact ⟨item, List.mem_zipIdx_iff_getElem?.mp here, counted⟩

end Teleop.Lib
