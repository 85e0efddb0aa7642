import Mathlib.Data.List.DropRight
import Mathlib.Data.List.Forall2

/-!
# The fields of a text

A text is cut into fields at a separator, and the blanks around a field say nothing: stripping
a text before it is cut leaves its fields what they were.  A reader that turns one field after
another into a block of values puts the blocks together in order.
-/

namespace Teleop.Lib

universe u v

section Strip

variable {α : Type u} {blank : α → Bool} {text before behind front rest : List α} {c sep : α}

/-- A text without the blanks at its ends. -/
def strip (blank : α → Bool) (text : List α) : List α :=
  (text.dropWhile blank).rdropWhile blank

theorem strip_append (blanks : ∀ c ∈ before, blank c = true) :
    strip blank (before ++ text) = strip blank text := by
  rw [strip, List.dropWhile_append_of_pos blanks, strip]

theorem strip_concat (isBlank : blank c = true) :
    strip blank (text ++ [c]) = strip blank text := by
  rw [strip, List.dropWhile_append]
  split
  · rename_i empty
    rw [strip, List.isEmpty_iff.mp empty, List.dropWhile_cons_of_pos isBlank, List.dropWhile_nil]
  · rw [List.rdropWhile_concat_pos _ _ _ isBlank, strip]

theorem strip_append_right (blanks : ∀ c ∈ behind, blank c = true) :
    strip blank (text ++ behind) = strip blank text := by
  induction behind using List.reverseRecOn with
  | nil => rw [List.append_nil]
  | append_singleton behind c inductionHypothesis =>
      rw [← List.append_assoc, strip_concat (blanks c (by simp))]
      exact inductionHypothesis fun x among => blanks x (by simp [among])

theorem strip_dropWhile : strip blank (text.dropWhile blank) = strip blank text := by
  rw [strip, List.dropWhile_idempotent, strip]

theorem strip_rdropWhile : strip blank (text.rdropWhile blank) = strip blank text := by
  have blanks : ∀ c ∈ text.rtakeWhile blank, blank c = true :=
    fun _ among => List.mem_rtakeWhile_imp among
  rw [← strip_append_right blanks, List.rdropWhile_append_rtakeWhile]

/-- A text without blanks is not stripped. -/
theorem strip_of_visible (visible : ∀ c ∈ text, blank c = false) : strip blank text = text := by
  have front : text.dropWhile blank = text := by
    rw [List.dropWhile_eq_self_iff]
    intro nonempty
    simp [visible _ (List.getElem_mem nonempty)]
  rw [strip, front, List.rdropWhile_eq_self_iff]
  intro nonempty
  simp [visible _ (List.getLast_mem nonempty)]

theorem dropWhile_append_cons (visible : blank c = false) :
    (front ++ c :: rest).dropWhile blank = front.dropWhile blank ++ c :: rest := by
  rw [List.dropWhile_append]
  split
  · rename_i empty
    rw [List.isEmpty_iff.mp empty, List.dropWhile_cons_of_neg (by simp [visible]), List.nil_append]
  · rfl

/-- A text around a visible letter is stripped on either side of it. -/
theorem strip_append_cons (visible : blank c = false) :
    strip blank (front ++ c :: rest) = front.dropWhile blank ++ c :: rest.rdropWhile blank := by
  have behind : (front.dropWhile blank ++ c :: rest).reverse =
      rest.reverse ++ c :: (front.dropWhile blank).reverse := by simp
  rw [strip, dropWhile_append_cons visible, List.rdropWhile, behind,
    dropWhile_append_cons visible, List.reverse_append, List.reverse_cons, List.reverse_reverse,
    List.append_assoc, List.singleton_append, List.rdropWhile]

theorem mem_strip (visible : blank c = false) (among : c ∈ text) : c ∈ strip blank text := by
  obtain ⟨front, rest, rfl⟩ := List.append_of_mem among
  rw [strip_append_cons visible]
  exact List.mem_append_right _ List.mem_cons_self

theorem mem_of_mem_strip (among : c ∈ strip blank text) : c ∈ text :=
  (List.dropWhile_suffix blank).subset ((List.rdropWhile_prefix blank _).subset among)

/-- Nothing is left exactly of blanks. -/
theorem strip_eq_nil_iff : strip blank text = [] ↔ ∀ c ∈ text, blank c = true := by
  constructor
  · intro empty c among
    by_contra visible
    have left := mem_strip (Bool.eq_false_iff.mpr visible) among
    rw [empty] at left
    cases left
  · intro blanks
    rw [← List.append_nil text, strip_append blanks]
    rfl

/-- A text is what is left of it with blanks on both sides. -/
theorem exists_strip (blank : α → Bool) (text : List α) :
    ∃ before behind, (∀ c ∈ before, blank c = true) ∧ (∀ c ∈ behind, blank c = true) ∧
      text = before ++ (strip blank text ++ behind) := by
  refine ⟨text.takeWhile blank, (text.dropWhile blank).rtakeWhile blank, ?_, ?_, ?_⟩
  · exact fun _ among => List.mem_takeWhile_imp among
  · exact fun _ among => List.mem_rtakeWhile_imp among
  · rw [strip, List.rdropWhile_append_rtakeWhile, List.takeWhile_append_dropWhile]

section Split

variable [BEq α] [LawfulBEq α]

theorem not_mem_of_mem_splitOn {field : List α} (among : field ∈ text.splitOn sep) :
    sep ∉ field := by
  induction text generalizing field with
  | nil =>
      obtain rfl : field = [] := by simpa using among
      exact List.not_mem_nil
  | cons x text inductionHypothesis =>
      rw [List.splitOn_cons_eq_if_modifyHead] at among
      split at among
      · rcases List.mem_cons.mp among with rfl | among
        · exact List.not_mem_nil
        · exact inductionHypothesis among
      · rename_i other
        obtain ⟨first, fields, fieldsOf⟩ := List.exists_cons_of_ne_nil (List.splitOn_ne_nil sep text)
        rw [fieldsOf] at among inductionHypothesis
        rcases List.mem_cons.mp among with rfl | among
        · rw [List.mem_cons, not_or]
          exact ⟨fun same => other (by simp [same]), inductionHypothesis List.mem_cons_self⟩
        · exact inductionHypothesis (List.mem_cons_of_mem _ among)

theorem map_strip_splitOn_append (visible : blank sep = false)
    (blanks : ∀ c ∈ before, blank c = true) :
    ((before ++ text).splitOn sep).map (strip blank) = (text.splitOn sep).map (strip blank) := by
  have apart : sep ∉ before := by
    intro among
    rw [blanks sep among] at visible
    cases visible
  by_cases among : sep ∈ text
  · obtain ⟨front, rest, rfl, first⟩ := List.eq_append_cons_of_mem among
    rw [← List.append_assoc, List.splitOn_append_cons_self_of_not_mem (by simp [apart, first]),
      List.splitOn_append_cons_self_of_not_mem first, List.map_cons, List.map_cons,
      strip_append blanks]
  · rw [List.splitOn_eq_singleton (by simp [apart, among]), List.splitOn_eq_singleton among,
      List.map_singleton, List.map_singleton, strip_append blanks]

theorem map_strip_splitOn_append_right (visible : blank sep = false)
    (blanks : ∀ c ∈ behind, blank c = true) :
    ((text ++ behind).splitOn sep).map (strip blank) = (text.splitOn sep).map (strip blank) := by
  have apart : sep ∉ behind := by
    intro among
    rw [blanks sep among] at visible
    cases visible
  by_cases among : sep ∈ text
  · -- the last separator, which the blanks come after
    obtain ⟨rest, front, reversed, last⟩ :=
      List.eq_append_cons_of_mem (List.mem_reverse.mpr among)
    obtain rfl : text = front.reverse ++ sep :: rest.reverse := by
      rw [← List.reverse_reverse text, reversed]
      simp
    have field : sep ∉ rest.reverse := by simpa using last
    have longer : sep ∉ rest.reverse ++ behind := by simpa [apart] using last
    rw [List.append_assoc, List.cons_append, List.splitOn_append_cons_self,
      List.splitOn_append_cons_self, List.map_append, List.map_append,
      List.splitOn_eq_singleton longer, List.splitOn_eq_singleton field,
      List.map_singleton, List.map_singleton, strip_append_right blanks]
  · rw [List.splitOn_eq_singleton (by simp [apart, among]), List.splitOn_eq_singleton among,
      List.map_singleton, List.map_singleton, strip_append_right blanks]

/-- Stripping a text first does not change its stripped fields. -/
theorem map_strip_splitOn (visible : blank sep = false) (text : List α) :
    ((strip blank text).splitOn sep).map (strip blank) = (text.splitOn sep).map (strip blank) := by
  obtain ⟨before, behind, blanksBefore, blanksBehind, whole⟩ := exists_strip blank text
  conv_rhs => rw [whole]
  rw [map_strip_splitOn_append visible blanksBefore,
    map_strip_splitOn_append_right visible blanksBehind]

end Split

end Strip

section Blocks

variable {α : Type u} {β ε : Type v}

/-- Reads one field and appends its block. -/
def extend (read : α → Except ε (List β)) (out : List β) (field : α) : Except ε (List β) :=
  (read field).map (out ++ ·)

/-- All fields are read exactly when each of them is, and the blocks are put together. -/
theorem foldlM_extend_eq_ok_iff {read : α → Except ε (List β)} {fields : List α}
    {init out : List β} :
    fields.foldlM (extend read) init = .ok out ↔
      ∃ blocks, List.Forall₂ (fun field block => read field = .ok block) fields blocks ∧
        out = init ++ blocks.flatten := by
  induction fields generalizing init with
  | nil => simp [pure, Except.pure, eq_comm]
  | cons field fields inductionHypothesis =>
      rw [List.foldlM_cons]
      cases result : read field with
      | error failure =>
          simp [extend, result, bind, Except.bind, Except.map, List.forall₂_cons_left_iff]
      | ok block =>
          have step : extend read init field = .ok (init ++ block) := by
            rw [extend, result, Except.map]
          rw [step]
          refine Iff.trans (@inductionHypothesis (init ++ block)) ?_
          constructor
          · rintro ⟨blocks, all, rfl⟩
            exact ⟨block :: blocks, .cons result all, by simp⟩
          · rintro ⟨_, all, rfl⟩
            obtain ⟨first, blocks, given, others, rfl⟩ := List.forall₂_cons_left_iff.mp all
            rw [result] at given
            obtain rfl := Except.ok.inj given
            exact ⟨blocks, others, by simp⟩

/-- Going through the blocks one after another is going through all their values. -/
theorem foldlM_flatMap {γ δ : Type u} {m : Type u → Type v} [Monad m] [LawfulMonad m]
    (values : α → List γ) (step : δ → γ → m δ) (fields : List α) (init : δ) :
    (fields.flatMap values).foldlM step init =
      fields.foldlM (fun out field => (values field).foldlM step out) init := by
  induction fields generalizing init with
  | nil => rfl
  | cons field fields inductionHypothesis =>
      rw [List.foldlM_cons, List.flatMap_cons, List.foldlM_append]
      congr 1
      funext middle
      exact inductionHypothesis middle

end Blocks

end Teleop.Lib
