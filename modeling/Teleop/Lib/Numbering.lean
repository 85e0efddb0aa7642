import Mathlib.Data.List.Nodup
import Mathlib.Logic.Function.Basic

/-!
# Numbering by several parties

Each party numbers what it emits by a counter of its own and adds a fixed mark.  Whatever
the order in which the parties take turns, the labels are distinct if the marks are.
-/

namespace Teleop.Lib.Numbering

universe u v

variable {Party : Type u} {Mark : Type v} [DecidableEq Party]

/-- The labels of one run, given the next number of each party and who takes the turns. -/
def labels (mark : Party → Mark) : (Party → Nat) → List Party → List (Nat × Mark)
  | _, [] => []
  | next, party :: rest =>
      (next party, mark party) :: labels mark (Function.update next party (next party + 1)) rest

/-- A label carries the mark of some party and a number that party has used in the run. -/
theorem mem_labels {mark : Party → Mark} {next : Party → Nat} {run : List Party}
    {label : Nat × Mark} (member : label ∈ labels mark next run) :
    ∃ party, label.2 = mark party ∧ next party ≤ label.1 ∧
      label.1 < next party + run.count party := by
  induction run generalizing next with
  | nil => cases member
  | cons first rest inductionHypothesis =>
      rcases List.mem_cons.mp member with rfl | member
      · refine ⟨first, rfl, Nat.le_refl _, ?_⟩
        simp
      · obtain ⟨party, marked, low, high⟩ := inductionHypothesis member
        refine ⟨party, marked, ?_⟩
        by_cases same : party = first
        · subst same
          simp only [Function.update_self] at low high
          simp only [List.count_cons_self]
          omega
        · simp only [Function.update_of_ne same] at low high
          rw [List.count_cons_of_ne (Ne.symm same)]
          exact ⟨low, high⟩

/-- With a different mark for each party no label occurs twice, in any order of turns. -/
theorem nodup_labels {mark : Party → Mark} (distinct : Function.Injective mark)
    (next : Party → Nat) (run : List Party) : (labels mark next run).Nodup := by
  induction run generalizing next with
  | nil => exact List.nodup_nil
  | cons first rest inductionHypothesis =>
      apply List.nodup_cons.mpr
      refine ⟨?_, inductionHypothesis _⟩
      intro member
      obtain ⟨party, marked, low, -⟩ := mem_labels member
      cases distinct marked
      rw [Function.update_self] at low
      exact Nat.not_succ_le_self _ low

end Teleop.Lib.Numbering
