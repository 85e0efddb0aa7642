import Mathlib.Algebra.Ring.Nat
import Mathlib.Data.List.Basic

/-!
# Framing a byte stream

The first occurrence of a terminator in a buffer, and parsers that take one value off the
front of a buffer or ask for more.  A stable parser gives the same value at the same place
however its input arrives.
-/

namespace Teleop.Lib

variable {α : Type}

section Position

variable [DecidableEq α]

/-- Where `needle` starts first. -/
def position (needle : List α) : List α → Option Nat
  | [] => none
  | x :: rest => if needle <+: x :: rest then some 0 else (position needle rest).map (· + 1)

variable {needle : List α}

/-- The needle lies where it is found. -/
theorem prefix_drop_of_position {haystack : List α} {p : Nat}
    (found : position needle haystack = some p) : needle <+: haystack.drop p := by
  induction haystack generalizing p with
  | nil => cases found
  | cons x rest inductionHypothesis =>
      rw [position] at found
      split at found
      · rename_i here
        cases found
        exact here
      · obtain ⟨q, later, rfl⟩ := Option.map_eq_some_iff.mp found
        exact inductionHypothesis later

theorem position_add_length_le {haystack : List α} {p : Nat}
    (found : position needle haystack = some p) (nonempty : needle ≠ []) :
    p + needle.length ≤ haystack.length := by
  have fits := (prefix_drop_of_position found).length_le
  have long := List.length_pos_of_ne_nil nonempty
  rw [List.length_drop] at fits
  omega

/-- What follows does not move the first occurrence. -/
theorem position_append {haystack : List α} {p : Nat} (nonempty : needle ≠ [])
    (found : position needle haystack = some p) (extension : List α) :
    position needle (haystack ++ extension) = some p := by
  induction haystack generalizing p with
  | nil => cases found
  | cons x rest inductionHypothesis =>
      have fits := position_add_length_le found nonempty
      rw [position] at found
      rw [List.cons_append, position]
      split at found
      · rename_i here
        cases found
        have still : needle <+: x :: (rest ++ extension) :=
          here.trans (List.prefix_append (x :: rest) extension)
        rw [if_pos still]
      · rename_i later
        obtain ⟨q, further, rfl⟩ := Option.map_eq_some_iff.mp found
        have absent : ¬ needle <+: x :: (rest ++ extension) := by
          intro here
          have short : needle.length ≤ (x :: rest).length := by omega
          exact later (List.prefix_of_prefix_length_le here
            (List.prefix_append (x :: rest) extension) short)
        rw [if_neg absent, inductionHypothesis further]
        rfl

theorem exists_position {haystack : List α} {k : Nat} (nonempty : needle ≠ [])
    (lies : needle <+: haystack.drop k) : ∃ p, position needle haystack = some p := by
  induction haystack generalizing k with
  | nil =>
      rw [List.drop_nil, List.prefix_nil] at lies
      exact absurd lies nonempty
  | cons x rest inductionHypothesis =>
      rw [position]
      split
      · exact ⟨0, rfl⟩
      · rename_i absent
        cases k with
        | zero => exact absurd lies absent
        | succ k =>
            obtain ⟨p, found⟩ := inductionHypothesis lies
            exact ⟨p + 1, by rw [found]; rfl⟩

/-- The first occurrence is seen once all of it is there, and not before. -/
theorem position_take {haystack : List α} {p : Nat} (nonempty : needle ≠ [])
    (found : position needle haystack = some p) (k : Nat) :
    position needle (haystack.take k) = if p + needle.length ≤ k then some p else none := by
  have same : ∀ {q}, position needle (haystack.take k) = some q → q = p := by
    intro q other
    have extended := position_append nonempty other (haystack.drop k)
    rw [List.take_append_drop, found] at extended
    exact (Option.some.inj extended).symm
  split
  · rename_i whole
    have lies : needle <+: (haystack.take k).drop p := by
      rw [List.drop_take]
      exact List.prefix_take_iff.mpr ⟨prefix_drop_of_position found, by omega⟩
    obtain ⟨q, there⟩ := exists_position nonempty lies
    rw [there, same there]
  · rename_i part
    cases there : position needle (haystack.take k) with
    | none => rfl
    | some q =>
        have fits := position_add_length_le there nonempty
        rw [same there, List.length_take] at fits
        omega

end Position

section Parsers

variable {E β : Type}

/-- Takes a value off the front of a buffer, and says how long it was; `none` asks for more. -/
abbrev Framer (α E β : Type) := List α → Except E (Option (β × Nat))

/-- Whether there is a value, and which, is decided by the elements it is made of. -/
structure Framer.Stable (parse : Framer α E β) : Prop where
  extend : ∀ {b value total}, parse b = .ok (some (value, total)) →
    ∀ extension, parse (b ++ extension) = .ok (some (value, total))
  cut : ∀ {b value total}, parse b = .ok (some (value, total)) →
    parse (b.take total) = .ok (some (value, total))
  wait : ∀ {b value total}, parse b = .ok (some (value, total)) →
    ∀ part, part <+: b.take total → part ≠ b.take total → parse part = .ok none

/-- Parses after each chunk that arrives, until there is a value or an error. -/
def Framer.feed (parse : Framer α E β) (buffer : List α) :
    List (List α) → Except E (Option (β × Nat))
  | [] => .ok none
  | chunk :: rest =>
      match parse (buffer ++ chunk) with
      | .ok none => parse.feed (buffer ++ chunk) rest
      | outcome => outcome

/-- However the input is cut, the value is the same at the same place. -/
theorem Framer.Stable.feed_eq {parse : Framer α E β} (stable : parse.Stable) {b : List α}
    {value : β} {total : Nat} (parsed : parse b = .ok (some (value, total)))
    (fits : total ≤ b.length) {buffer : List α} (short : buffer.length < total)
    {chunks : List (List α)} (cut : buffer ++ chunks.flatten = b) :
    parse.feed buffer chunks = .ok (some (value, total)) := by
  induction chunks generalizing buffer with
  | nil =>
      rw [List.flatten_nil, List.append_nil] at cut
      rw [cut] at short
      omega
  | cons chunk rest inductionHypothesis =>
      rw [List.flatten_cons, ← List.append_assoc] at cut
      by_cases enough : total ≤ (buffer ++ chunk).length
      · have front : (buffer ++ chunk).take total = b.take total := by
          rw [← cut, List.take_append_of_le_length enough]
        have whole := stable.extend (stable.cut parsed) ((buffer ++ chunk).drop total)
        rw [← front, List.take_append_drop] at whole
        rw [feed, whole]
      · have part : buffer ++ chunk <+: b.take total := by
          apply List.prefix_take_iff.mpr
          exact ⟨cut ▸ List.prefix_append _ _, by omega⟩
        have proper : buffer ++ chunk ≠ b.take total := by
          intro same
          rw [same, List.length_take] at enough
          omega
        rw [feed, stable.wait parsed _ part proper]
        exact inductionHypothesis (Nat.not_le.mp enough) cut

end Parsers

end Teleop.Lib
