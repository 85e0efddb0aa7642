import Mathlib.Data.List.Destutter

/-!
# Walks along a relation

The vertices a walk visits after its start, with the vertex it ends in.
-/

namespace Teleop.Lib

universe u

variable {α : Type u} {edge : α → α → Prop}

/-- `Walk edge start visited finish`: each vertex of `visited` is joined to the one before it,
the first of them to `start`, and the last vertex is `finish`. -/
inductive Walk (edge : α → α → Prop) : α → List α → α → Prop
  | nil (start : α) : Walk edge start [] start
  | cons {start next finish : α} {rest : List α} :
      edge start next → Walk edge next rest finish → Walk edge start (next :: rest) finish

namespace Walk

theorem single {start finish : α} (joined : edge start finish) :
    Walk edge start [finish] finish :=
  .cons joined (.nil finish)

theorem append {start middle finish : α} {before after : List α}
    (first : Walk edge start before middle) (second : Walk edge middle after finish) :
    Walk edge start (before ++ after) finish := by
  induction first with
  | nil => exact second
  | cons joined _ inductionHypothesis => exact .cons joined (inductionHypothesis second)

/-- A walk can be left at any vertex it visits. -/
theorem initialPart {start finish : α} {visited begun : List α}
    (walk : Walk edge start visited finish) (initial : begun <+: visited) :
    ∃ middle, Walk edge start begun middle := by
  induction walk generalizing begun with
  | nil start =>
      rw [List.prefix_nil.mp initial]
      exact ⟨start, .nil start⟩
  | cons joined _ inductionHypothesis =>
      cases begun with
      | nil => exact ⟨_, .nil _⟩
      | cons next rest =>
          obtain ⟨rfl, shorter⟩ := List.cons_prefix_cons.mp initial
          obtain ⟨middle, remaining⟩ := inductionHypothesis shorter
          exact ⟨middle, .cons joined remaining⟩

theorem finish_eq {start finish : α} {visited : List α} (walk : Walk edge start visited finish) :
    finish = visited.getLast?.getD start := by
  induction walk with
  | nil => rfl
  | cons _ _ inductionHypothesis =>
      rw [inductionHypothesis, List.getLast?_cons, Option.getD_some]

theorem append_iff {start finish : α} {before after : List α} :
    Walk edge start (before ++ after) finish ↔
      ∃ middle, Walk edge start before middle ∧ Walk edge middle after finish := by
  constructor
  · intro walk
    induction before generalizing start with
    | nil => exact ⟨start, .nil start, walk⟩
    | cons next rest inductionHypothesis =>
        cases walk with
        | cons joined remaining =>
            obtain ⟨middle, first, second⟩ := inductionHypothesis remaining
            exact ⟨middle, .cons joined first, second⟩
  · rintro ⟨middle, first, second⟩
    exact first.append second

theorem single_iff {start finish : α} {next : α} :
    Walk edge start [next] finish ↔ edge start next ∧ finish = next := by
  constructor
  · rintro (_ | ⟨joined, _ | _⟩)
    exact ⟨joined, rfl⟩
  · rintro ⟨joined, rfl⟩
    exact .single joined

end Walk

/-- One more vertex stays in a sequence without repetitions if it is not the last one again. -/
theorem destutter_concat [DecidableEq α] (start : α) (visited : List α) (next : α) :
    (start :: (visited ++ [next])).destutter (· ≠ ·) =
      (start :: visited).destutter (· ≠ ·) ++
        if next = visited.getLast?.getD start then [] else [next] := by
  simp only [List.destutter_cons']
  induction visited generalizing start with
  | nil =>
      by_cases same : next = start
      · simp [same]
      · simp [same, Ne.symm same]
  | cons first rest inductionHypothesis =>
      rw [List.getLast?_cons, Option.getD_some]
      by_cases same : start = first
      · subst same
        simpa using inductionHypothesis start
      · simpa [same] using inductionHypothesis first

end Teleop.Lib
