import Mathlib.Tactic.IntervalCases
import Teleop.Cloud.Bearer
import Teleop.Core.ProfileGrammar

/-!
# The generated core profile

The profile that is written for a machine: a core for each of the latency-critical roles in
canonical order, and the cores left over for the rest.
-/

namespace Teleop.Cli

open Teleop.Lib Teleop.Cloud Teleop.Core

/-- The loop over the roles, which leaves out the one that gets what is left over. -/
def roleLines (cores : Nat) : List (Role × Nat) → String → String
  | [], s => s
  | (role, r) :: rest, s =>
      if cores ≤ r then s
      else if role = .spare then roleLines cores rest s
      else roleLines cores rest (s ++ (role.key ++ " = " ++ toString r ++ "\n"))

/-- The text of a profile for `cores` available cores. -/
def defaultProfileText (cores : Nat) : String :=
  let cores := max cores 1
  let s := "# tpt-teleop core profile (generated by tpt-t-cli profile)\n"
  let s := s ++ ("# cores available: " ++ toString cores ++ "\n")
  let s := roleLines cores Role.all.zipIdx s
  if Role.all.length < cores then
    let spec := "6-" ++ toString (cores - 1)
    s ++ (Role.key .spare ++ " = " ++ spec ++ "\n")
  else s

/-- The latency-critical roles in canonical order, and all further cores for the rest. -/
def owner (c : Nat) : Role := (Role.all[c]?).getD .spare

/-- The generated profile is accepted, suits the machine, and gives each of its cores to its
owner and to no other role. -/
def Complete (debug : List Char → String) (cores : Nat) : Prop :=
  ∃ profile, CoreProfile.parse debug (defaultProfileText cores) = .ok profile ∧
    profile.validate cores = .ok () ∧
    ∀ c < cores, ∀ role, c ∈ profile.coresFor role ↔ role = owner c

section Rows

/-- The roles with a core of their own. -/
def pinned (cores : Nat) : List (Role × Nat) := Role.all.zipIdx.take (min cores 6)

/-- What the text says each role gets. -/
def row (role : Role) (spec : String) : List Char := (role.key ++ " = " ++ spec).toList

/-- The lines of the text. -/
def rows (cores : Nat) : List (List Char) :=
  ["# tpt-teleop core profile (generated by tpt-t-cli profile)".toList,
    ("# cores available: " ++ toString cores).toList] ++
  (pinned cores).map (fun entry => row entry.1 (toString entry.2)) ++
  if 7 < cores then [row .spare ("6-" ++ toString (cores - 1))] else []

theorem toList_roleLines (cores : Nat) (roles : List (Role × Nat)) (s : String) :
    (roleLines cores roles s).toList =
      s.toList ++ (((roles.takeWhile fun entry => entry.2 < cores).filter
        fun entry => entry.1 ≠ .spare).map
          fun entry => row entry.1 (toString entry.2)).flatMap (· ++ ['\n']) := by
  fun_induction roleLines cores roles s with
  | case1 s => simp
  | case2 role r rest s beyond => simp [Nat.not_lt.mpr beyond]
  | case3 r rest s inside inductionHypothesis =>
      rw [inductionHypothesis]
      simp [Nat.lt_of_not_le inside]
  | case4 role r rest s inside other inductionHypothesis =>
      rw [inductionHypothesis]
      simp [Nat.lt_of_not_le inside, other, row]

theorem pinned_eq (cores : Nat) :
    (Role.all.zipIdx.takeWhile fun entry => entry.2 < cores).filter
      (fun entry => entry.1 ≠ .spare) = pinned cores := by
  by_cases few : cores < 6
  · interval_cases cores <;> rfl
  · have enough : min cores 6 = 6 := by omega
    have first (r : Nat) (low : r < 6) : r < cores := by omega
    rw [pinned, enough]
    by_cases seventh : 6 < cores <;>
      simp [Role.all, List.zipIdx, List.takeWhile, first, seventh]

theorem toList_roleLines_all (cores : Nat) (s : String) :
    (roleLines cores Role.all.zipIdx s).toList =
      s.toList ++ ((pinned cores).map fun entry =>
        row entry.1 (toString entry.2)).flatMap (· ++ ['\n']) := by
  rw [toList_roleLines, pinned_eq]

theorem toList_defaultProfileText {cores : Nat} (positive : 1 ≤ cores) :
    (defaultProfileText cores).toList = (rows cores).flatMap (· ++ ['\n']) := by
  have same : max cores 1 = cores := max_eq_left positive
  have seven : Role.all.length = 7 := rfl
  unfold defaultProfileText
  dsimp only
  rw [same, seven, rows]
  split
  · simp [toList_roleLines_all, row]
  · simp [toList_roleLines_all, row]

/-- No separator of a profile. -/
def Plain (c : Char) : Prop := c ∉ ['\n', '\r', '#', ',']

instance : DecidablePred Plain := fun c => inferInstanceAs (Decidable (c ∉ ['\n', '\r', '#', ',']))

theorem plain_toString (n : Nat) : ∀ c ∈ (toString n).toList, Plain c := by
  intro c among
  have digits : (toString n).toList = Nat.toDigits 10 n := Nat.toList_repr
  rw [digits] at among
  have digit := Nat.isDigit_of_mem_toDigits (by decide) (by decide) among
  intro separator
  simp only [List.mem_cons, List.not_mem_nil, or_false] at separator
  rcases separator with rfl | rfl | rfl | rfl <;> exact absurd digit (by decide)

theorem plain_of_all {text : List Char} (all : (text.all fun c => decide (Plain c)) = true) :
    ∀ c ∈ text, Plain c :=
  fun c among => of_decide_eq_true (List.all_eq_true.mp all c among)

theorem plain_key (role : Role) : ∀ c ∈ role.key.toList, Plain c := by
  apply plain_of_all
  cases role <;> decide

theorem plain_row {spec : String} (plain : ∀ c ∈ spec.toList, Plain c) (role : Role) :
    ∀ c ∈ row role spec, Plain c := by
  intro c among
  rw [row, String.toList_append, String.toList_append, List.mem_append, List.mem_append] at among
  rcases among with (among | among) | among
  · exact plain_key role c among
  · exact plain_of_all (by decide) c among
  · exact plain c among

theorem plain_range (last : Nat) : ∀ c ∈ ("6-" ++ toString last).toList, Plain c := by
  intro c among
  rw [String.toList_append, List.mem_append] at among
  rcases among with among | among
  · exact plain_of_all (by decide) c among
  · exact plain_toString last c among

/-- No line is broken. -/
theorem unbroken_rows (cores : Nat) : ∀ line ∈ rows cores, '\n' ∉ line ∧ '\r' ∉ line := by
  have unbroken {line : List Char} (plain : ∀ c ∈ line, Plain c) : '\n' ∉ line ∧ '\r' ∉ line :=
    ⟨fun among => plain _ among (by decide), fun among => plain _ among (by decide)⟩
  intro line among
  rw [rows, List.append_assoc, List.mem_append, List.mem_append] at among
  rcases among with comment | given | rest
  · rw [List.mem_pair] at comment
    rcases comment with rfl | rfl
    · decide
    · obtain ⟨noFeed, noReturn⟩ := unbroken (plain_toString cores)
      rw [String.toList_append, List.mem_append, List.mem_append, not_or, not_or]
      exact ⟨⟨by decide, noFeed⟩, ⟨by decide, noReturn⟩⟩
  · obtain ⟨entry, -, rfl⟩ := List.mem_map.mp given
    exact unbroken (plain_row (plain_toString entry.2) entry.1)
  · split at rest
    · obtain rfl := List.mem_singleton.mp rest
      exact unbroken (plain_row (plain_range (cores - 1)) .spare)
    · cases rest

theorem lines_defaultProfileText {cores : Nat} (positive : 1 ≤ cores) :
    lines (defaultProfileText cores).toList = rows cores := by
  rw [toList_defaultProfileText positive]
  apply lines_terminated
  · exact fun line among => (unbroken_rows cores line among).1
  · exact fun line among last => (unbroken_rows cores line among).2 (List.mem_of_getLast? last)

end Rows

section Entries

theorem parseUsize_repr {n : Nat} (small : n < 2 ^ 64) :
    parseUsize (toString n).toList = some n := by
  rw [parseUsize, parseU64_repr small, Option.map_some, UInt64.toNat_ofNat_of_lt' small]

theorem trim_space_repr (n : Nat) : trim (' ' :: (toString n).toList) = (toString n).toList := by
  rw [trim_space, trim_repr]

/-- What a line of the text denotes. -/
theorem denotes_row_iff {role : Role} {spec : String} (plain : ∀ c ∈ spec.toList, Plain c)
    (visible : ∃ c ∈ spec.toList, isWhitespace c = false) {slot : Option (Role × List Nat)} :
    Denotes (row role spec) slot ↔
      ∃ cores, slot = some (role, cores) ∧ Part (' ' :: spec.toList) cores := by
  have whole : row role spec = (role.key.toList ++ [' ']) ++ '=' :: (' ' :: spec.toList) := by
    simp [row]
  have named : (trim (role.key.toList ++ [' '])).map Char.toLower = role.key.toList := by
    cases role <;> decide
  have comma : ',' ∉ ' ' :: spec.toList := by
    rw [List.mem_cons, not_or]
    exact ⟨by decide, fun among => plain _ among (by decide)⟩
  have mark : '#' ∉ row role spec := fun among => plain_row plain role _ among (by decide)
  obtain ⟨c, among, letter⟩ := visible
  rw [whole] at mark ⊢
  rw [denotes_assignment_iff named mark]
  simp only [coreList_iff_part comma ⟨c, List.mem_cons_of_mem _ among, letter⟩]

theorem denotes_index {n : Nat} (small : n < 2 ^ 64) (role : Role) :
    Denotes (row role (toString n)) (some (role, [n])) := by
  obtain ⟨c, rest, digits⟩ := List.exists_cons_of_ne_nil
    (show (toString n).toList ≠ [] from Nat.toList_repr.symm ▸ Nat.toDigits_ne_nil)
  have among : c ∈ (toString n).toList := digits ▸ List.mem_cons_self
  rw [denotes_row_iff (plain_toString n) ⟨c, among, isWhitespace_repr n c among⟩]
  refine ⟨[n], rfl, .index ?_⟩
  rw [trim_space_repr, parseUsize_repr small]

/-- The range of the remaining cores is one only up to the limit of the parser. -/
theorem denotes_range_iff {last : Nat} (small : last < 2 ^ 64) {slot : Option (Role × List Nat)} :
    Denotes (row .spare ("6-" ++ toString last)) slot ↔
      (6 ≤ last ∧ last ≤ 6 + 4096) ∧ slot = some (.spare, List.range' 6 (last + 1 - 6)) := by
  have value : ' ' :: ("6-" ++ toString last).toList = [' ', '6'] ++ '-' :: (toString last).toList := by
    simp
  have six : parseUsize (trim [' ', '6']) = some 6 := by decide
  have number : parseUsize (trim (toString last).toList) = some last := by
    rw [trim_repr, parseUsize_repr small]
  rw [denotes_row_iff (plain_range last) ⟨'6', by simp, by decide⟩, value]
  simp only [part_range_iff six number]
  constructor
  · rintro ⟨cores, rfl, wide, rfl⟩
    exact ⟨wide, rfl⟩
  · rintro ⟨wide, rfl⟩
    exact ⟨_, rfl, wide, rfl⟩

/-- What the text assigns. -/
def entries (cores : Nat) : List (Role × List Nat) :=
  (pinned cores).map (fun entry => (entry.1, [entry.2])) ++
    if 7 < cores then [(.spare, List.range' 6 (cores - 6))] else []

theorem entries_of_many {cores : Nat} (many : 6 ≤ cores) :
    entries cores =
      [(.video, [0]), (.control, [1]), (.network, [2]), (.input, [3]), (.media, [4]),
        (.storage, [5])] ++ if 7 < cores then [(.spare, List.range' 6 (cores - 6))] else [] := by
  have enough : min cores 6 = 6 := by omega
  rw [entries, pinned, enough]
  rfl

theorem distinct_entries (cores : Nat) : ((entries cores).map Prod.fst).Nodup := by
  by_cases few : cores < 6
  · interval_cases cores <;> decide
  · rw [entries_of_many (by omega)]
    split
    · exact (by decide : Role.all.Nodup)
    · decide

theorem assigns_entries {cores : Nat} (positive : 1 ≤ cores) (narrow : cores ≤ 4103) :
    Assigns (defaultProfileText cores) (entries cores) := by
  have small : ∀ entry ∈ pinned cores, entry.2 < 2 ^ 64 := by
    intro entry among
    exact (by decide : ∀ entry ∈ Role.all.zipIdx, entry.2 < 2 ^ 64) entry
      (List.mem_of_mem_take among)
  have own : List.Forall₂ Denotes
      ((pinned cores).map fun entry => row entry.1 (toString entry.2))
      ((pinned cores).map fun entry => some (entry.1, [entry.2])) := by
    rw [List.forall₂_map_left_iff, List.forall₂_map_right_iff, List.forall₂_same]
    exact fun entry among => denotes_index (small entry among) entry.1
  have rest : List.Forall₂ Denotes
      (if 7 < cores then [row .spare ("6-" ++ toString (cores - 1))] else [])
      ((if 7 < cores then [(.spare, List.range' 6 (cores - 6))] else []).map some) := by
    split
    · have count : cores - 1 + 1 - 6 = cores - 6 := by omega
      refine .cons ((denotes_range_iff (by omega)).mpr ⟨by omega, ?_⟩) .nil
      rw [count]
    · exact .nil
  have comments : List.Forall₂ Denotes
      ["# tpt-teleop core profile (generated by tpt-t-cli profile)".toList,
        ("# cores available: " ++ toString cores).toList] [none, none] := by
    refine .cons (denotes_comment _) (.cons ?_ .nil)
    rw [String.toList_append]
    exact denotes_comment _
  refine ⟨[none, none] ++ (entries cores).map some, ?_, ?_, ?_⟩
  · rw [lines_defaultProfileText positive, rows, entries, List.map_append, List.map_map,
      List.append_assoc]
    exact List.rel_append comments (List.rel_append own rest)
  · simp [List.reduceOption]
  · exact distinct_entries cores

theorem narrow_of_assigns {cores : Nat} (addressable : cores < 2 ^ 64) (positive : 1 ≤ cores)
    {given : List (Role × List Nat)} (assigns : Assigns (defaultProfileText cores) given) :
    cores ≤ 4103 := by
  obtain ⟨slots, denoted, -⟩ := assigns
  rw [lines_defaultProfileText positive] at denoted
  by_contra wide
  have among : row .spare ("6-" ++ toString (cores - 1)) ∈ rows cores := by
    rw [rows, if_pos (by omega)]
    exact List.mem_append_right _ (List.mem_singleton_self _)
  have every := denoted.imp (S := fun line slot => (∃ slot, Denotes line slot) ∧ Denotes line slot)
    fun line slot here => ⟨⟨slot, here⟩, here⟩
  obtain ⟨slot, here⟩ := ((List.forall₂_and_left _ _).mp every).1 _ among
  obtain ⟨⟨-, limit⟩, -⟩ := (denotes_range_iff (by omega)).mp here
  omega

/-- The cores that the text gives a role. -/
theorem lookup_entries (cores : Nat) (role : Role) :
    ((entries cores).lookup role).getD [] =
      if role = .spare then if 7 < cores then List.range' 6 (cores - 6) else []
      else if Role.all.idxOf role < cores then [Role.all.idxOf role] else [] := by
  by_cases few : cores < 6
  · interval_cases cores <;> cases role <;> rfl
  · have first (r : Nat) (low : r < 6) : r < cores := by omega
    rw [entries_of_many (by omega)]
    cases role
    case spare => split <;> rfl
    all_goals exact (if_pos (first _ (by decide))).symm

end Entries

section Completeness

variable {debug : List Char → String} {cores : Nat}

theorem owner_of_le {c : Nat} (beyond : 6 ≤ c) : owner c = .spare := by
  rcases Nat.eq_or_lt_of_le beyond with rfl | further
  · rfl
  · rw [owner, List.getElem?_eq_none (show Role.all.length ≤ c from further), Option.getD_none]

/-- The latency-critical roles own the cores of their positions. -/
theorem eq_owner_iff {c : Nat} (low : c < 6) (role : Role) :
    role = owner c ↔ role ≠ .spare ∧ c = Role.all.idxOf role := by
  interval_cases c <;> cases role <;> decide

/-- Unless there are seven cores, each is given to its owner. -/
theorem mem_lookup_entries_iff (apart : cores ≠ 7) {c : Nat} (inside : c < cores) (role : Role) :
    c ∈ ((entries cores).lookup role).getD [] ↔ role = owner c := by
  rw [lookup_entries]
  by_cases beyond : 6 ≤ c
  · rw [owner_of_le beyond, if_pos (show 7 < cores by omega)]
    by_cases same : role = .spare
    · rw [if_pos same, List.mem_range'_1]
      exact iff_of_true (by omega) same
    · have low : Role.all.idxOf role < 6 := by
        cases role <;> first | (exact absurd rfl same) | decide
      rw [if_neg same, if_pos (by omega), List.mem_singleton]
      exact iff_of_false (by omega) same
  · rw [eq_owner_iff (by omega)]
    by_cases same : role = .spare
    · rw [if_pos same]
      refine iff_of_false ?_ (fun both => both.1 same)
      split
      · rw [List.mem_range'_1]
        omega
      · exact List.not_mem_nil
    · rw [if_neg same, and_iff_right same]
      split
      · rw [List.mem_singleton]
      · rename_i far
        exact iff_of_false List.not_mem_nil (by omega)

/-- The text names no core that the machine has not. -/
theorem lt_of_mem_lookup_entries {c : Nat} {role : Role}
    (among : c ∈ ((entries cores).lookup role).getD []) : c < cores := by
  rw [lookup_entries] at among
  split at among
  · split at among
    · rw [List.mem_range'_1] at among
      omega
    · cases among
  · split at among
    · rwa [List.mem_singleton.mp among]
    · cases among

theorem nodup_lookup_entries (role : Role) : (((entries cores).lookup role).getD []).Nodup := by
  rw [lookup_entries]
  split
  · split
    · exact List.nodup_range'
    · exact List.nodup_nil
  · split
    · exact List.nodup_singleton _
    · exact List.nodup_nil

theorem complete_of_narrow (positive : 1 ≤ cores) (apart : cores ≠ 7) (narrow : cores ≤ 4103) :
    Complete debug cores := by
  have assigns := assigns_entries positive narrow
  have parsed : CoreProfile.parse debug (defaultProfileText cores) =
      .ok ⟨assignAll ∅ (entries cores)⟩ := CoreProfile.parse_eq_ok_iff.mpr ⟨_, assigns, rfl⟩
  have given := CoreProfile.coresFor_of_parse parsed assigns
  refine ⟨_, parsed, CoreProfile.validate_eq_ok_iff.mpr ⟨?_, ?_⟩, ?_⟩
  · intro role c among
    rw [given] at among
    exact lt_of_mem_lookup_entries among
  · rw [List.nodup_flatMap]
    refine ⟨fun role _ => given role ▸ nodup_lookup_entries role, ?_⟩
    have distinct : Role.all.Pairwise (· ≠ ·) := by decide
    refine distinct.imp fun {first second} different c amongFirst amongSecond => ?_
    rw [given] at amongFirst amongSecond
    have inside := lt_of_mem_lookup_entries amongFirst
    exact different (((mem_lookup_entries_iff apart inside first).mp amongFirst).trans
      ((mem_lookup_entries_iff apart inside second).mp amongSecond).symm)
  · intro c inside role
    rw [given]
    exact mem_lookup_entries_iff apart inside role

/-- Of seven cores the last is given to no role. -/
theorem not_complete_seven : ¬ Complete debug 7 := by
  rintro ⟨profile, parsed, -, owned⟩
  have given := CoreProfile.coresFor_of_parse parsed (assigns_entries (by decide) (by decide))
  have among := (owned 6 (by decide) (owner 6)).mpr rfl
  rw [given] at among
  exact absurd among (by decide)

/-- The generated profile is complete except for seven cores, the last of which the text leaves
out, and for more cores than a range may have. -/
theorem complete_iff (positive : 1 ≤ cores) (addressable : cores < 2 ^ 64) :
    Complete debug cores ↔ cores ≠ 7 ∧ cores ≤ 4103 := by
  constructor
  · intro complete
    refine ⟨?_, ?_⟩
    · rintro rfl
      exact not_complete_seven complete
    · obtain ⟨profile, parsed, -⟩ := complete
      obtain ⟨given, assigns, -⟩ := CoreProfile.parse_eq_ok_iff.mp parsed
      exact narrow_of_assigns addressable positive assigns
  · rintro ⟨apart, narrow⟩
    exact complete_of_narrow positive apart narrow

theorem complete_iff_eight : Complete (fun _ => "") 8 :=
  (complete_iff (by decide) (by decide)).mpr (by decide)

/-- A machine with seven cores. -/
theorem not_complete :
    ¬ ∀ (debug : List Char → String) (cores : Nat), 1 ≤ cores → cores < 2 ^ 64 →
      Complete debug cores := by
  intro always
  exact not_complete_seven (always (fun _ => "") 7 (by decide) (by decide))

end Completeness

end Teleop.Cli
