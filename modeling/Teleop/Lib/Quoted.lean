import Teleop.Lib.Framing

/-!
# Searching texts with quoted parts

What follows the first occurrence of a needle that starts with a quotation mark, in a text
whose parts are plain or quoted, and how often a text is split.
-/

namespace Teleop.Lib

variable {α : Type} [DecidableEq α]

/-- What follows the first occurrence of `needle`. -/
def after (needle text : List α) : Option (List α) :=
  (position needle text).map fun p => text.drop (p + needle.length)

variable {needle key tail front content rest : List α} {quote : α}

theorem after_cons_of_not_leads {x : α} (absent : ¬needle <+: x :: rest) :
    after needle (x :: rest) = after needle rest := by
  unfold after
  rw [position, if_neg absent, Option.map_map]
  congr 1
  funext p
  simp only [Function.comp_apply, Nat.add_right_comm p 1, List.drop_succ_cons]

theorem after_of_leads (nonempty : needle ≠ []) : after needle (needle ++ rest) = some rest := by
  obtain ⟨x, others, rfl⟩ := List.exists_cons_of_ne_nil nonempty
  have here : x :: others <+: x :: (others ++ rest) := List.prefix_append (x :: others) rest
  unfold after
  rw [List.cons_append, position, if_pos here, Option.map_some, Nat.zero_add,
    ← List.cons_append, List.drop_left]

/-- A part without the first letter of the needle is passed over. -/
theorem after_append_of_not_mem (plain : quote ∉ front) :
    after (quote :: tail) (front ++ rest) = after (quote :: tail) rest := by
  induction front with
  | nil => rfl
  | cons x front inductionHypothesis =>
      rw [List.mem_cons, not_or] at plain
      have absent : ¬quote :: tail <+: x :: (front ++ rest) := by
        intro here
        exact plain.1 (List.cons_prefix_cons.mp here).1
      rw [List.cons_append, after_cons_of_not_leads absent, inductionHypothesis plain.2]

omit [DecidableEq α] in
/-- Up to the mark that ends them, two parts without marks are the same. -/
theorem eq_of_append_cons_leads (plainKey : quote ∉ key) (plain : quote ∉ content)
    (here : key ++ quote :: tail <+: content ++ quote :: rest) : content = key ∧ tail <+: rest := by
  induction key generalizing content with
  | nil =>
      cases content with
      | nil => exact ⟨rfl, (List.cons_prefix_cons.mp here).2⟩
      | cons x content =>
          have same := (List.cons_prefix_cons.mp here).1
          exact absurd (same ▸ List.mem_cons_self) plain
  | cons k key inductionHypothesis =>
      rw [List.mem_cons, not_or] at plainKey
      cases content with
      | nil => exact absurd (List.cons_prefix_cons.mp here).1.symm plainKey.1
      | cons x content =>
          rw [List.mem_cons, not_or] at plain
          obtain ⟨rfl, further⟩ := List.cons_prefix_cons.mp here
          obtain ⟨rfl, ends⟩ := inductionHypothesis plainKey.2 plain.2 further
          exact ⟨rfl, ends⟩

/-- A quoted part is passed over if it is no key followed by the rest of the needle. -/
theorem after_quoted (plainKey : quote ∉ key) (plain : quote ∉ content)
    (other : ¬(content = key ∧ tail <+: rest)) (apart : ¬key <+: rest) :
    after (quote :: (key ++ quote :: tail)) (quote :: (content ++ quote :: rest)) =
      after (quote :: (key ++ quote :: tail)) rest := by
  have notOpening : ¬quote :: (key ++ quote :: tail) <+: quote :: (content ++ quote :: rest) := by
    intro here
    exact other (eq_of_append_cons_leads plainKey plain (List.cons_prefix_cons.mp here).2)
  have notClosing : ¬quote :: (key ++ quote :: tail) <+: quote :: rest := by
    intro here
    exact apart ((List.prefix_append key _).trans (List.cons_prefix_cons.mp here).2)
  rw [after_cons_of_not_leads notOpening, after_append_of_not_mem plain,
    after_cons_of_not_leads notClosing]

theorem after_quoted_key :
    after (quote :: (key ++ quote :: tail)) (quote :: (key ++ quote :: (tail ++ rest))) =
      some rest := by
  have whole : quote :: (key ++ quote :: (tail ++ rest)) =
      quote :: (key ++ quote :: tail) ++ rest := by simp
  rw [whole, after_of_leads (List.cons_ne_nil _ _)]

/-- Before the first of a letter. -/
theorem position_singleton (plain : quote ∉ front) :
    position [quote] (front ++ quote :: rest) = some front.length := by
  induction front with
  | nil =>
      have here : [quote] <+: quote :: rest := List.prefix_append [quote] rest
      rw [List.nil_append, position, if_pos here, List.length_nil]
  | cons x front inductionHypothesis =>
      rw [List.mem_cons, not_or] at plain
      have absent : ¬[quote] <+: x :: (front ++ quote :: rest) := by
        intro here
        exact plain.1 (List.cons_prefix_cons.mp here).1
      rw [List.cons_append, position, if_neg absent, inductionHypothesis plain.2]
      rfl

theorem length_splitOn (text : List α) :
    (text.splitOn quote).length = text.count quote + 1 := by
  induction text with
  | nil => simp
  | cons x text inductionHypothesis =>
      rw [List.splitOn_cons_eq_if_modifyHead]
      by_cases same : x = quote
      · simp [same, inductionHypothesis]
      · simp [same, inductionHypothesis]

end Teleop.Lib
