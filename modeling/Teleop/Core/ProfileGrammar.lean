import Teleop.Core.Profile

/-!
# The grammar of core-pinning profiles

Which texts are profiles and what they assign, as relations between a text and its parts: the
parser accepts exactly these texts.  Blanks count for nothing around every part, so the
relations do not say where the parser trims.
-/

namespace Teleop.Core

open Teleop.Lib Teleop.Cloud

section Grammar

/-- A line without its comment. -/
def Uncommented (raw body : List Char) : Prop :=
  '#' ∉ body ∧ (raw = body ∨ ∃ comment, raw = body ++ '#' :: comment)

/-- One part of a list: blank, an index, or an inclusive range. -/
inductive Part : List Char → List Nat → Prop
  | blank {part : List Char} : (∀ c ∈ part, isWhitespace c = true) → Part part []
  | index {part : List Char} {c : Nat} : parseUsize (trim part) = some c → Part part [c]
  | range {a b : List Char} {first last : Nat} :
      parseUsize (trim a) = some first → parseUsize (trim b) = some last →
      first ≤ last → last ≤ first + 4096 →
      Part (a ++ '-' :: b) (List.range' first (last + 1 - first))

/-- Parts with commas between them, of which not all are blank. -/
def CoreList (value : List Char) (cores : List Nat) : Prop :=
  ∃ parts blocks, value = [','].intercalate parts ∧ (∀ part ∈ parts, ',' ∉ part) ∧
    List.Forall₂ Part parts blocks ∧ cores = blocks.flatten ∧
    ∃ part ∈ parts, ∃ c ∈ part, isWhitespace c = false

/-- A line assigns nothing, or a list to a role. -/
inductive Line : List Char → Option (Role × List Nat) → Prop
  | blank {body : List Char} : (∀ c ∈ body, isWhitespace c = true) → Line body none
  | assignment {key value : List Char} {role : Role} {cores : List Nat} :
      (trim key).map Char.toLower = role.key.toList → CoreList value cores →
      Line (key ++ '=' :: value) (some (role, cores))

/-- A line, with or without a comment. -/
def Denotes (raw : List Char) (slot : Option (Role × List Nat)) : Prop :=
  ∃ body, Uncommented raw body ∧ Line body slot

/-- A profile: what its lines assign in order, no role twice. -/
def Assigns (text : String) (entries : List (Role × List Nat)) : Prop :=
  ∃ slots, List.Forall₂ Denotes (lines text.toList) slots ∧ entries = slots.reduceOption ∧
    (entries.map Prod.fst).Nodup

end Grammar

theorem Role.mem_all (role : Role) : role ∈ Role.all := by cases role <;> decide

theorem Role.key_injective : Function.Injective Role.key := by
  intro first second same
  cases first <;> cases second <;> first | rfl | (exact absurd same (by decide))

theorem Role.fromKey_eq_some_iff {s : List Char} {role : Role} :
    Role.fromKey s = some role ↔ s.map Char.toLower = role.key.toList := by
  unfold Role.fromKey
  constructor
  · intro found
    have named := List.find?_some found
    exact (of_decide_eq_true named).symm
  · intro named
    cases found : Role.all.find? fun r => r.key.toList = s.map Char.toLower with
    | none =>
        have other := List.find?_eq_none.mp found role role.mem_all
        exact absurd (decide_eq_true named.symm) other
    | some other =>
        have lowered : other.key.toList = s.map Char.toLower := by
          simpa using List.find?_some found
        rw [Role.key_injective (String.toList_inj.mp (lowered.trans named))]

section Trim

/-- The text before the first mark is the only one without a mark that the text starts with and
that ends at a mark, or is the whole text. -/
theorem uncommented_iff {raw body : List Char} :
    Uncommented raw body ↔ body = raw.takeWhile (· ≠ '#') := by
  constructor
  · rintro ⟨plain, rfl | ⟨comment, rfl⟩⟩
    · refine (List.takeWhile_eq_self_iff.mpr fun c among => ?_).symm
      exact decide_eq_true fun same => plain (same ▸ among)
    · rw [List.takeWhile_append_of_pos, List.takeWhile_cons_of_neg (by simp), List.append_nil]
      exact fun c among => decide_eq_true fun same => plain (same ▸ among)
  · rintro rfl
    refine ⟨fun among => by simpa using List.mem_takeWhile_imp among, ?_⟩
    cases rest : raw.dropWhile (· ≠ '#') with
    | nil =>
        left
        conv_lhs => rw [← List.takeWhile_append_dropWhile (p := (· ≠ '#')) (l := raw), rest]
        rw [List.append_nil]
    | cons c comment =>
        have mark : c = '#' := by
          have first := List.head?_dropWhile_not (fun c => decide (c ≠ '#')) raw
          rw [rest] at first
          simpa using first
        right
        refine ⟨comment, ?_⟩
        conv_lhs => rw [← List.takeWhile_append_dropWhile (p := (· ≠ '#')) (l := raw), rest, mark]

theorem trim_trim (text : List Char) : trim (trim text) = trim text := by
  rw [trim_eq_strip (trim text), trim_eq_strip text]
  exact strip_rdropWhile.trans strip_dropWhile

/-- A number is written in digits, after a plus sign perhaps. -/
theorem mem_of_parseUsize {text : List Char} {n : Nat} (number : parseUsize text = some n) :
    ∀ c ∈ text, c.isDigit = true ∨ c = '+' := by
  obtain ⟨value, parsed, -⟩ := Option.map_eq_some_iff.mp number
  intro c among
  have digits : (if text.head? = some '+' then text.tail else text).all Char.isDigit = true := by
    by_contra letters
    have refused : parseU64 text = none := if_pos (.inr letters)
    rw [refused] at parsed
    cases parsed
  by_cases sign : text.head? = some '+'
  · obtain ⟨rest, rfl⟩ := List.head?_eq_some_iff.mp sign
    rcases List.mem_cons.mp among with rfl | within
    · exact .inr rfl
    · rw [if_pos sign] at digits
      exact .inl (List.all_eq_true.mp digits c within)
  · rw [if_neg sign] at digits
    exact .inl (List.all_eq_true.mp digits c among)

theorem ne_nil_of_parseUsize {text : List Char} {n : Nat} (number : parseUsize text = some n) :
    text ≠ [] := by
  rintro rfl
  have none : parseUsize [] = none := by decide
  rw [none] at number
  cases number

/-- Around a number there is nothing but blanks. -/
theorem not_mem_of_parseUsize {text : List Char} {n : Nat} (number : parseUsize (trim text) = some n)
    {c : Char} (visible : isWhitespace c = false) (other : c.isDigit = false) (sign : c ≠ '+') :
    c ∉ text := by
  intro among
  rcases mem_of_parseUsize number c (mem_strip visible among) with digit | same
  · rw [other] at digit
    cases digit
  · exact sign same

theorem trim_ne_nil {c : Char} (visible : isWhitespace c = false) {text : List Char}
    (among : c ∈ text) : trim text ≠ [] := by
  intro empty
  have left : c ∈ trim text := mem_strip visible among
  rw [empty] at left
  cases left

/-- A trimmed text is cut where the text is, into halves that differ in blanks at their ends. -/
theorem splitOnce_trim {separator : Char} (visible : isWhitespace separator = false)
    {front : List Char} (first : separator ∉ front) (rest : List Char) :
    ∃ a b, splitOnce separator (trim (front ++ separator :: rest)) = some (a, b) ∧
      trim a = trim front ∧ trim b = trim rest := by
  have before : separator ∉ front.dropWhile isWhitespace := fun within =>
    first ((List.dropWhile_suffix isWhitespace).subset within)
  refine ⟨front.dropWhile isWhitespace, rest.rdropWhile isWhitespace, ?_, ?_, ?_⟩
  · rw [trim_eq_strip, strip_append_cons visible, splitOnce_append_cons before]
  · exact strip_dropWhile
  · exact strip_rdropWhile

end Trim

section Lists

variable {debug : List Char → String}

theorem parsePart_range {front rest : List Char} (first : '-' ∉ front) :
    parsePart debug (front ++ '-' :: rest) =
      parseRange debug (trim (front ++ '-' :: rest)) front rest := by
  have visible : isWhitespace '-' = false := by decide
  have left : trim (front ++ '-' :: rest) ≠ [] := trim_ne_nil visible (by simp)
  obtain ⟨a, b, cut, sameFront, sameRest⟩ := splitOnce_trim visible first rest
  unfold parsePart
  dsimp only
  rw [if_neg left, cut]
  unfold parseRange
  dsimp only
  rw [sameFront, sameRest]

theorem parsePart_index {part : List Char} (plain : '-' ∉ part) :
    parsePart debug part =
      if trim part = [] then .ok [] else parseIndex debug (trim part) := by
  have absent : '-' ∉ trim part := fun within => plain (mem_of_mem_strip within)
  unfold parsePart
  dsimp only
  rw [splitOnce_of_not_mem absent]

theorem parseRange_eq_ok_iff {part a b : List Char} {cores : List Nat} :
    parseRange debug part a b = .ok cores ↔
      ∃ first last, parseUsize (trim a) = some first ∧ parseUsize (trim b) = some last ∧
        (first ≤ last ∧ last ≤ first + 4096) ∧ cores = List.range' first (last + 1 - first) := by
  unfold parseRange
  cases parseUsize (trim a) with
  | none => simp
  | some first =>
      cases parseUsize (trim b) with
      | none => simp
      | some last =>
          dsimp only
          by_cases refused : last < first ∨ 4096 < last - first
          · have wide : ¬(first ≤ last ∧ last ≤ first + 4096) := by omega
            simp [refused, wide]
          · have narrow : first ≤ last ∧ last ≤ first + 4096 := by omega
            simp [refused, narrow, eq_comm]

theorem parseIndex_eq_ok_iff {part : List Char} {cores : List Nat} :
    parseIndex debug part = .ok cores ↔ ∃ c, parseUsize part = some c ∧ cores = [c] := by
  unfold parseIndex
  cases parseUsize part <;> simp [eq_comm]

theorem parsePart_eq_ok_iff {part : List Char} {cores : List Nat} :
    parsePart debug part = .ok cores ↔ Part part cores := by
  constructor
  · intro parsed
    by_cases dash : '-' ∈ part
    · obtain ⟨front, rest, rfl, first⟩ := List.eq_append_cons_of_mem dash
      rw [parsePart_range first, parseRange_eq_ok_iff] at parsed
      obtain ⟨_, _, firstNumber, lastNumber, ⟨ordered, wide⟩, rfl⟩ := parsed
      exact .range firstNumber lastNumber ordered wide
    · rw [parsePart_index dash] at parsed
      split at parsed
      · rename_i empty
        obtain rfl := Except.ok.inj parsed
        exact .blank (strip_eq_nil_iff.mp empty)
      · obtain ⟨_, number, rfl⟩ := parseIndex_eq_ok_iff.mp parsed
        exact .index number
  · intro given
    cases given with
    | blank blanks => exact if_pos (strip_eq_nil_iff.mpr blanks)
    | index number =>
        have dash : '-' ∉ part :=
          not_mem_of_parseUsize number (by decide) (by decide) (by decide)
        rw [parsePart_index dash, if_neg (ne_nil_of_parseUsize number), parseIndex_eq_ok_iff]
        exact ⟨_, number, rfl⟩
    | range firstNumber lastNumber ordered wide =>
        have dash := not_mem_of_parseUsize (c := '-') firstNumber
          (by decide) (by decide) (by decide)
        rw [parsePart_range dash, parseRange_eq_ok_iff]
        exact ⟨_, _, firstNumber, lastNumber, ⟨ordered, wide⟩, rfl⟩

/-- Exactly the blank parts have no cores. -/
theorem Part.ne_nil_iff {part : List Char} {block : List Nat} (given : Part part block) :
    block ≠ [] ↔ ∃ c ∈ part, isWhitespace c = false := by
  cases given with
  | blank blanks =>
      refine iff_of_false (not_not_intro rfl) ?_
      rintro ⟨c, among, visible⟩
      rw [blanks c among] at visible
      cases visible
  | @index _ index number =>
      refine iff_of_true (List.cons_ne_nil _ _) ?_
      by_contra invisible
      have empty : trim part = [] := by
        refine strip_eq_nil_iff.mpr fun c among => ?_
        by_contra visible
        exact invisible ⟨c, among, by simpa using visible⟩
      exact ne_nil_of_parseUsize number empty
  | @range a b first last _ _ ordered _ =>
      refine iff_of_true ?_ ⟨'-', by simp, by decide⟩
      intro empty
      have count := congrArg List.length empty
      rw [List.length_range', List.length_nil] at count
      omega

theorem flatten_ne_nil_iff {parts : List (List Char)} {blocks : List (List Nat)}
    (given : List.Forall₂ Part parts blocks) :
    blocks.flatten ≠ [] ↔ ∃ part ∈ parts, ∃ c ∈ part, isWhitespace c = false := by
  induction given with
  | nil => simp
  | cons one _ inductionHypothesis =>
      rw [List.flatten_cons, ne_eq, List.append_eq_nil_iff, not_and_or, ← ne_eq, ← ne_eq,
        one.ne_nil_iff, inductionHypothesis, List.exists_mem_cons_iff]

theorem parseCoreList_trim (value : List Char) :
    parseCoreList debug (trim value) = parseCoreList debug value := by
  have part (part : List Char) : parsePart debug (trim part) = parsePart debug part := by
    unfold parsePart
    rw [trim_trim]
  have stripped (s : List Char) : parseCoreList debug s =
      ((s.splitOn ',').map (strip isWhitespace)).foldlM (extend (parsePart debug)) [] := by
    rw [List.foldlM_map]
    simp only [extend, ← trim_eq_strip, part]
    rfl
  rw [stripped, stripped, trim_eq_strip, map_strip_splitOn (by decide)]

theorem parseCoreList_eq_ok_iff {value : List Char} {cores : List Nat} :
    parseCoreList debug value = .ok cores ∧ cores ≠ [] ↔ CoreList value cores := by
  rw [parseCoreList, foldlM_extend_eq_ok_iff]
  simp only [parsePart_eq_ok_iff, List.nil_append]
  constructor
  · rintro ⟨⟨blocks, all, rfl⟩, nonempty⟩
    exact ⟨value.splitOn ',', blocks, (List.intercalate_splitOn ',').symm,
      fun _ => not_mem_of_mem_splitOn, all, rfl, (flatten_ne_nil_iff all).mp nonempty⟩
  · rintro ⟨parts, blocks, rfl, plain, all, rfl, visible⟩
    have nonempty : parts ≠ [] := by
      rintro rfl
      obtain ⟨part, among, -⟩ := visible
      cases among
    rw [List.splitOn_intercalate ',' plain nonempty]
    exact ⟨⟨blocks, all, rfl⟩, (flatten_ne_nil_iff all).mpr visible⟩

end Lists

section Lines

variable {debug : List Char → String} {assigned after : HashMap String (List Nat)} {lineno : Nat}

/-- What a line adds to the assignments: nothing, or a role that has none. -/
def Adds (assigned : HashMap String (List Nat)) :
    Option (Role × List Nat) → HashMap String (List Nat) → Prop
  | none, after => after = assigned
  | some (role, cores), after =>
      assigned.lookup role.key = none ∧ after = assigned.insert role.key cores

/-- A line whose text is cut at an equals sign assigns the one half to the other. -/
theorem parseLine_assignment {raw key value : List Char} (first : '=' ∉ key)
    (uncommented : raw.takeWhile (· ≠ '#') = key ++ '=' :: value) :
    parseLine debug assigned lineno raw = .ok after ↔
      ∃ role cores, Role.fromKey (trim key) = some role ∧
        (parseCoreList debug value = .ok cores ∧ cores ≠ []) ∧
        Adds assigned (some (role, cores)) after := by
  have visible : isWhitespace '=' = false := by decide
  have left : trim (key ++ '=' :: value) ≠ [] := trim_ne_nil visible (by simp)
  obtain ⟨a, b, cut, sameKey, sameValue⟩ := splitOnce_trim visible first value
  unfold parseLine
  dsimp only
  rw [uncommented, if_neg left, cut]
  dsimp only
  rw [sameKey, sameValue, parseCoreList_trim]
  cases Role.fromKey (trim key) with
  | none => simp
  | some role =>
      cases parseCoreList debug value with
      | error failure => simp
      | ok cores =>
          by_cases empty : cores = []
          · simp [empty]
          · by_cases fresh : assigned.lookup role.key = none
            · simp [empty, fresh, Adds, eq_comm]
            · have taken : (assigned.lookup role.key).isSome = true :=
                Option.isSome_iff_ne_none.mpr fresh
              simp [empty, taken, Adds, fresh]

/-- Without an equals sign a line is right only when it is blank. -/
theorem parseLine_plain {raw body : List Char} (plain : '=' ∉ body)
    (uncommented : raw.takeWhile (· ≠ '#') = body) :
    parseLine debug assigned lineno raw = .ok after ↔
      (∀ c ∈ body, isWhitespace c = true) ∧ after = assigned := by
  have absent : '=' ∉ trim body := fun within => plain (mem_of_mem_strip within)
  rw [← strip_eq_nil_iff, ← trim_eq_strip]
  unfold parseLine
  dsimp only
  rw [uncommented, splitOnce_of_not_mem absent]
  by_cases empty : trim body = []
  · simp [empty, eq_comm]
  · simp [empty]

theorem not_mem_of_named {key : List Char} {role : Role}
    (named : (trim key).map Char.toLower = role.key.toList) : '=' ∉ key := by
  intro among
  have within : '=' ∈ trim key := mem_strip (by decide) among
  have letter : '=' ∈ role.key.toList := by
    rw [← named]
    exact List.mem_map.mpr ⟨'=', within, by decide⟩
  revert letter
  cases role <;> decide

theorem parseLine_eq_ok_iff {raw : List Char} :
    parseLine debug assigned lineno raw = .ok after ↔
      ∃ slot, Denotes raw slot ∧ Adds assigned slot after := by
  simp only [Denotes, uncommented_iff, exists_eq_left]
  obtain ⟨body, uncommented⟩ : ∃ body, raw.takeWhile (· ≠ '#') = body := ⟨_, rfl⟩
  rw [uncommented]
  constructor
  · intro parsed
    by_cases sign : '=' ∈ body
    · obtain ⟨key, value, rfl, first⟩ := List.eq_append_cons_of_mem sign
      obtain ⟨role, cores, named, listed, added⟩ := (parseLine_assignment first uncommented).mp parsed
      exact ⟨_, .assignment (Role.fromKey_eq_some_iff.mp named)
        (parseCoreList_eq_ok_iff.mp listed), added⟩
    · obtain ⟨blanks, rfl⟩ := (parseLine_plain sign uncommented).mp parsed
      exact ⟨none, .blank blanks, rfl⟩
  · rintro ⟨slot, given, added⟩
    cases given with
    | blank blanks =>
        have plain : '=' ∉ body := by
          intro among
          exact absurd (blanks '=' among) (by decide)
        exact (parseLine_plain plain uncommented).mpr ⟨blanks, added⟩
    | assignment named listed =>
        exact (parseLine_assignment (not_mem_of_named named) uncommented).mpr
          ⟨_, _, Role.fromKey_eq_some_iff.mpr named, parseCoreList_eq_ok_iff.mpr listed, added⟩

/-- The assignments after more of them. -/
def assignAll (assigned : HashMap String (List Nat)) (entries : List (Role × List Nat)) :
    HashMap String (List Nat) :=
  entries.foldl (fun assigned entry => assigned.insert entry.1.key entry.2) assigned

/-- No role twice, and none that has cores already. -/
def Fresh (assigned : HashMap String (List Nat)) (entries : List (Role × List Nat)) : Prop :=
  (entries.map Prod.fst).Nodup ∧ ∀ entry ∈ entries, assigned.lookup entry.1.key = none

theorem lookup_insert_key (assigned : HashMap String (List Nat)) (role other : Role)
    (cores : List Nat) :
    (assigned.insert role.key cores).lookup other.key =
      if other = role then some cores else assigned.lookup other.key := by
  split
  · rename_i same
    rw [same, AList.lookup_insert]
  · rename_i apart
    exact AList.lookup_insert_ne fun same => apart (Role.key_injective same)

theorem fresh_cons_iff {role : Role} {cores : List Nat} {entries : List (Role × List Nat)} :
    Fresh assigned ((role, cores) :: entries) ↔
      assigned.lookup role.key = none ∧ Fresh (assigned.insert role.key cores) entries := by
  simp only [Fresh, List.map_cons, List.nodup_cons, List.forall_mem_cons, lookup_insert_key]
  constructor
  · rintro ⟨⟨single, distinct⟩, fresh, others⟩
    refine ⟨fresh, distinct, fun entry among => ?_⟩
    have apart : entry.1 ≠ role := fun same => single (same ▸ List.mem_map_of_mem among)
    rw [if_neg apart]
    exact others entry among
  · rintro ⟨fresh, distinct, others⟩
    have apart : ∀ entry ∈ entries, entry.1 ≠ role := by
      intro entry among same
      have taken := others entry among
      rw [if_pos same] at taken
      cases taken
    refine ⟨⟨?_, distinct⟩, fresh, fun entry among => ?_⟩
    · intro among
      obtain ⟨entry, within, same⟩ := List.mem_map.mp among
      exact apart entry within same
    · have free := others entry among
      rwa [if_neg (apart entry among)] at free

theorem parseLines_cons_eq_ok_iff {raw : List Char} {raws : List (List Char)} :
    parseLines debug assigned lineno (raw :: raws) = .ok after ↔
      ∃ slot middle, Denotes raw slot ∧ Adds assigned slot middle ∧
        parseLines debug middle (lineno + 1) raws = .ok after := by
  have step : parseLines debug assigned lineno (raw :: raws) = .ok after ↔
      ∃ middle, parseLine debug assigned lineno raw = .ok middle ∧
        parseLines debug middle (lineno + 1) raws = .ok after := by
    rw [parseLines]
    cases parseLine debug assigned lineno raw <;> simp
  rw [step]
  simp only [parseLine_eq_ok_iff]
  constructor
  · rintro ⟨middle, ⟨slot, given, added⟩, others⟩
    exact ⟨slot, middle, given, added, others⟩
  · rintro ⟨slot, middle, given, added, others⟩
    exact ⟨middle, ⟨slot, given, added⟩, others⟩

theorem parseLines_eq_ok_iff {raws : List (List Char)} :
    parseLines debug assigned lineno raws = .ok after ↔
      ∃ slots, List.Forall₂ Denotes raws slots ∧ Fresh assigned slots.reduceOption ∧
        after = assignAll assigned slots.reduceOption := by
  induction raws generalizing assigned lineno with
  | nil => simp [parseLines, Fresh, assignAll, eq_comm]
  | cons raw raws inductionHypothesis =>
      rw [parseLines_cons_eq_ok_iff]
      simp only [inductionHypothesis]
      constructor
      · rintro ⟨slot, middle, given, added, slots, others, fresh, rfl⟩
        refine ⟨slot :: slots, .cons given others, ?_⟩
        cases slot with
        | none =>
            obtain rfl := added
            exact ⟨fresh, rfl⟩
        | some entry =>
            obtain ⟨free, rfl⟩ := added
            exact ⟨fresh_cons_iff.mpr ⟨free, fresh⟩, rfl⟩
      · rintro ⟨_, all, fresh, rfl⟩
        obtain ⟨slot, slots, given, others, rfl⟩ := List.forall₂_cons_left_iff.mp all
        cases slot with
        | none => exact ⟨none, assigned, given, rfl, slots, others, fresh, rfl⟩
        | some entry =>
            obtain ⟨free, later⟩ := fresh_cons_iff.mp fresh
            exact ⟨some entry, _, given, ⟨free, rfl⟩, slots, others, later, rfl⟩

/-- A role that has cores gets no others. -/
theorem lookup_of_fresh {entries : List (Role × List Nat)} (fresh : Fresh assigned entries)
    {role : Role} {cores : List Nat} (taken : assigned.lookup role.key = some cores) :
    entries.lookup role = none := by
  refine List.lookup_eq_none_iff.mpr fun entry among => ?_
  have free := fresh.2 entry among
  rw [bne_iff_ne]
  rintro rfl
  rw [free] at taken
  cases taken

theorem lookup_assignAll {entries : List (Role × List Nat)} (fresh : Fresh assigned entries)
    (role : Role) :
    (assignAll assigned entries).lookup role.key =
      (entries.lookup role).or (assigned.lookup role.key) := by
  induction entries generalizing assigned with
  | nil => rfl
  | cons entry entries inductionHypothesis =>
      obtain ⟨other, cores⟩ := entry
      obtain ⟨free, later⟩ := fresh_cons_iff.mp fresh
      have step : assignAll assigned ((other, cores) :: entries) =
          assignAll (assigned.insert other.key cores) entries := rfl
      rw [step, inductionHypothesis later, lookup_insert_key, List.lookup_cons]
      by_cases same : role = other
      · subst same
        rw [lookup_of_fresh later (AList.lookup_insert _), if_pos rfl, beq_self_eq_true]
        rfl
      · rw [if_neg same, beq_eq_false_iff_ne.mpr same]

end Lines

section Written

/-- Lines that are all ended are read back. -/
theorem lines_terminated {rows : List (List Char)} (single : ∀ row ∈ rows, '\n' ∉ row)
    (ends : ∀ row ∈ rows, row.getLast? ≠ some '\r') :
    lines (rows.flatMap (· ++ ['\n'])) = rows := by
  have kept (row : List Char) (pieces : List (List Char)) (nonempty : pieces ≠ [])
      (plain : row.getLast? ≠ some '\r') : linesOf (row :: pieces) = row :: linesOf pieces := by
    rw [linesOf, withoutReturn, if_neg plain]
    exact nonempty
  induction rows with
  | nil => rfl
  | cons row rows inductionHypothesis =>
      obtain ⟨here, others⟩ := List.forall_mem_cons.mp single
      obtain ⟨plain, otherEnds⟩ := List.forall_mem_cons.mp ends
      rw [lines, List.flatMap_cons, List.append_assoc, List.singleton_append,
        List.splitOn_append_cons_self_of_not_mem here,
        kept row _ (List.splitOn_ne_nil _ _) plain, ← lines, inductionHypothesis others otherEnds]

/-- A list without commas is one part. -/
theorem coreList_iff_part {value : List Char} {cores : List Nat} (plain : ',' ∉ value)
    (visible : ∃ c ∈ value, isWhitespace c = false) : CoreList value cores ↔ Part value cores := by
  constructor
  · rintro ⟨parts, blocks, whole, separate, all, rfl, ⟨part, among, -⟩⟩
    have cut : value.splitOn ',' = parts := by
      rw [whole]
      exact List.splitOn_intercalate ',' separate (List.ne_nil_of_mem among)
    rw [List.splitOn_eq_singleton plain] at cut
    subst cut
    obtain ⟨block, rest, given, none, rfl⟩ := List.forall₂_cons_left_iff.mp all
    obtain rfl := List.forall₂_nil_left_iff.mp none
    simpa using given
  · intro given
    refine ⟨[value], [cores], by simp, by simpa using plain, .cons given .nil, by simp, value, ?_⟩
    exact ⟨List.mem_singleton_self value, visible⟩

theorem part_range_iff {front rest : List Char} {first last : Nat} {cores : List Nat}
    (firstNumber : parseUsize (trim front) = some first)
    (lastNumber : parseUsize (trim rest) = some last) :
    Part (front ++ '-' :: rest) cores ↔
      (first ≤ last ∧ last ≤ first + 4096) ∧ cores = List.range' first (last + 1 - first) := by
  have dash : '-' ∉ front := not_mem_of_parseUsize firstNumber (by decide) (by decide) (by decide)
  rw [← @parsePart_eq_ok_iff fun _ => "", parsePart_range dash, parseRange_eq_ok_iff, firstNumber,
    lastNumber]
  simp only [Option.some.injEq, existsAndEq, true_and]

/-- What a line with an equals sign and without a comment denotes. -/
theorem denotes_assignment_iff {key value : List Char} {role : Role}
    {slot : Option (Role × List Nat)} (named : (trim key).map Char.toLower = role.key.toList)
    (plain : '#' ∉ key ++ '=' :: value) :
    Denotes (key ++ '=' :: value) slot ↔
      ∃ cores, slot = some (role, cores) ∧ CoreList value cores := by
  have whole : (key ++ '=' :: value).takeWhile (· ≠ '#') = key ++ '=' :: value := by
    refine List.takeWhile_eq_self_iff.mpr fun c among => ?_
    exact decide_eq_true fun same => plain (same ▸ among)
  simp only [Denotes, uncommented_iff, exists_eq_left]
  rw [whole]
  constructor
  · intro given
    generalize text : key ++ '=' :: value = body at given
    cases given with
    | blank blanks =>
        have among : '=' ∈ body := by simp [← text]
        exact absurd (blanks '=' among) (by decide)
    | @assignment otherKey otherValue other cores otherNamed listed =>
        have cut := splitOnce_append_cons (not_mem_of_named named) value
        rw [text, splitOnce_append_cons (not_mem_of_named otherNamed) otherValue] at cut
        obtain ⟨rfl, rfl⟩ := Prod.mk.inj (Option.some.inj cut)
        rw [named] at otherNamed
        rw [Role.key_injective (String.toList_inj.mp otherNamed)]
        exact ⟨cores, rfl, listed⟩
  · rintro ⟨cores, rfl, listed⟩
    exact .assignment named listed

theorem denotes_comment (comment : List Char) : Denotes ('#' :: comment) none :=
  ⟨[], ⟨List.not_mem_nil, .inr ⟨comment, rfl⟩⟩, .blank (by simp)⟩

end Written

namespace CoreProfile

variable {debug : List Char → String}

/-- A text is accepted exactly as the profile of what its lines assign. -/
theorem parse_eq_ok_iff {text : String} {profile : CoreProfile} :
    parse debug text = .ok profile ↔
      ∃ entries, Assigns text entries ∧ profile = ⟨assignAll ∅ entries⟩ := by
  have free (entries : List (Role × List Nat)) :
      Fresh ∅ entries ↔ (entries.map Prod.fst).Nodup := by
    simp [Fresh, AList.lookup_empty]
  have mapped : parse debug text = .ok profile ↔
      parseLines debug ∅ 0 (lines text.toList) = .ok profile.assigned := by
    obtain ⟨assigned⟩ := profile
    unfold parse
    cases parseLines debug ∅ 0 (lines text.toList) <;> simp [Except.map]
  rw [mapped, parseLines_eq_ok_iff]
  constructor
  · rintro ⟨slots, denoted, fresh, result⟩
    exact ⟨_, ⟨slots, denoted, rfl, (free _).mp fresh⟩, congrArg CoreProfile.mk result⟩
  · rintro ⟨_, ⟨slots, denoted, rfl, distinct⟩, rfl⟩
    exact ⟨slots, denoted, (free _).mpr distinct, rfl⟩

theorem coresFor_assignAll {entries : List (Role × List Nat)}
    (distinct : (entries.map Prod.fst).Nodup) (role : Role) :
    (⟨assignAll ∅ entries⟩ : CoreProfile).coresFor role = (entries.lookup role).getD [] := by
  have fresh : Fresh ∅ entries := ⟨distinct, fun _ _ => AList.lookup_empty _⟩
  rw [coresFor, lookup_assignAll fresh, AList.lookup_empty, Option.or_none]

/-- A text assigns one thing only. -/
theorem coresFor_of_parse {text : String} {profile : CoreProfile}
    {entries : List (Role × List Nat)} (parsed : parse debug text = .ok profile)
    (assigns : Assigns text entries) (role : Role) :
    profile.coresFor role = (entries.lookup role).getD [] := by
  have same : parse debug text = .ok ⟨assignAll ∅ entries⟩ :=
    parse_eq_ok_iff.mpr ⟨entries, assigns, rfl⟩
  rw [parsed] at same
  obtain rfl := Except.ok.inj same
  obtain ⟨_, _, _, distinct⟩ := assigns
  exact coresFor_assignAll distinct role

section Validation

variable {n : Nat} {seen after : Vector Bool n} {role : Role} {cores : List Nat}

/-- The marked cores, and no others. -/
def Marks (seen : Vector Bool n) (cores : List Nat) : Prop :=
  ∀ (c : Nat) (inside : c < n), seen[c] = true ↔ c ∈ cores

/-- A core is marked once, if the machine has it. -/
theorem mark_eq_ok_iff {c : Nat} (marks : Marks seen cores) :
    mark n seen (role, c) = .ok after ↔
      ∃ inside : c < n, c ∉ cores ∧ after = seen.set c true := by
  unfold mark
  dsimp only
  by_cases inside : c < n
  · by_cases taken : c ∈ cores
    · have marked : seen[c] = true := (marks c inside).mpr taken
      simp [inside, marked, taken]
    · have unmarked : seen[c] = false := by
        rw [← Bool.not_eq_true, marks c inside]
        exact taken
      simp [inside, unmarked, taken, eq_comm]
  · simp [inside]

theorem marks_set {c : Nat} (marks : Marks seen cores) (inside : c < n) :
    Marks (seen.set c true) (cores ++ [c]) := by
  intro other within
  rw [Vector.getElem_set, List.mem_append, List.mem_singleton]
  split
  · rename_i same
    exact iff_of_true rfl (.inr same.symm)
  · rename_i apart
    rw [marks other within]
    exact (or_iff_left (Ne.symm apart)).symm

/-- All claims are met exactly when the machine has the cores and each is claimed once. -/
theorem foldlM_mark_iff {claims : List (Role × Nat)} (marks : Marks seen cores)
    (distinct : cores.Nodup) :
    (∃ after, claims.foldlM (mark n) seen = .ok after) ↔
      (∀ claim ∈ claims, claim.2 < n) ∧ (cores ++ claims.map Prod.snd).Nodup := by
  induction claims generalizing seen cores with
  | nil => simpa [pure, Except.pure] using distinct
  | cons claim claims inductionHypothesis =>
      obtain ⟨role, c⟩ := claim
      have step : (∃ after, ((role, c) :: claims).foldlM (mark n) seen = .ok after) ↔
          ∃ middle, mark n seen (role, c) = .ok middle ∧
            ∃ after, claims.foldlM (mark n) middle = .ok after := by
        rw [List.foldlM_cons]
        cases mark n seen (role, c) <;> simp [bind, Except.bind]
      rw [step]
      simp only [mark_eq_ok_iff marks]
      constructor
      · rintro ⟨_, ⟨inside, free, rfl⟩, others⟩
        have longer : (cores ++ [c]).Nodup := by
          rw [List.nodup_append_comm, List.singleton_append, List.nodup_cons]
          exact ⟨free, distinct⟩
        obtain ⟨present, apart⟩ := (inductionHypothesis (marks_set marks inside) longer).mp others
        refine ⟨List.forall_mem_cons.mpr ⟨inside, present⟩, ?_⟩
        rwa [List.append_assoc] at apart
      · rintro ⟨present, apart⟩
        obtain ⟨inside, others⟩ := List.forall_mem_cons.mp present
        rw [List.map_cons, List.append_cons] at apart
        have longer : (cores ++ [c]).Nodup := apart.of_append_left
        have free : c ∉ cores := by
          rw [List.nodup_append_comm, List.singleton_append, List.nodup_cons] at longer
          exact longer.1
        exact ⟨_, ⟨inside, free, rfl⟩,
          (inductionHypothesis (marks_set marks inside) longer).mpr ⟨others, apart⟩⟩

/-- A machine suits a profile exactly when it has all cores and none is listed twice. -/
theorem validate_eq_ok_iff {profile : CoreProfile} :
    profile.validate n = .ok () ↔
      (∀ role, ∀ c ∈ profile.coresFor role, c < n) ∧
        (Role.all.flatMap profile.coresFor).Nodup := by
  have unmarked : Marks (Vector.replicate n false) [] := by
    intro c inside
    simp
  have answered : profile.validate n = .ok () ↔
      ∃ after, (Role.all.flatMap fun role =>
        (profile.coresFor role).map fun c => (role, c)).foldlM (mark n)
          (Vector.replicate n false) = .ok after := by
    unfold validate
    dsimp only
    rw [← foldlM_flatMap]
    cases List.foldlM (mark n) (Vector.replicate n false)
      (Role.all.flatMap fun role => (profile.coresFor role).map fun c => (role, c)) <;>
        simp [Except.map]
  have listed : (Role.all.flatMap fun role =>
      (profile.coresFor role).map fun c => (role, c)).map Prod.snd =
        Role.all.flatMap profile.coresFor := by
    simp [List.map_flatMap, Function.comp_def]
  rw [answered, foldlM_mark_iff unmarked List.nodup_nil, List.nil_append, listed]
  refine and_congr_left fun _ => ⟨?_, ?_⟩
  · intro present role c among
    exact present (role, c)
      (List.mem_flatMap.mpr ⟨role, role.mem_all, List.mem_map.mpr ⟨c, among, rfl⟩⟩)
  · intro present claim among
    obtain ⟨role, -, within⟩ := List.mem_flatMap.mp among
    obtain ⟨c, given, rfl⟩ := List.mem_map.mp within
    exact present role c given

end Validation

/-- A text is accepted exactly when each of its lines is blank or assigns a list to a role that
no other line assigns; each role then has the cores of its list; and a machine suits a profile
exactly when it has all the cores and none is listed twice. -/
theorem parse_validate_spec (debug : List Char → String) (text : String) :
    ((∃ profile, parse debug text = .ok profile) ↔ ∃ entries, Assigns text entries) ∧
    (∀ profile entries, parse debug text = .ok profile → Assigns text entries →
      ∀ role, profile.coresFor role = (entries.lookup role).getD []) ∧
    ∀ (profile : CoreProfile) (machineCores : Nat),
      profile.validate machineCores = .ok () ↔
        (∀ role, ∀ c ∈ profile.coresFor role, c < machineCores) ∧
          (Role.all.flatMap profile.coresFor).Nodup := by
  refine ⟨⟨?_, ?_⟩, fun _ _ => coresFor_of_parse, fun _ _ => validate_eq_ok_iff⟩
  · rintro ⟨profile, parsed⟩
    obtain ⟨entries, assigns, -⟩ := parse_eq_ok_iff.mp parsed
    exact ⟨entries, assigns⟩
  · rintro ⟨entries, assigns⟩
    exact ⟨_, parse_eq_ok_iff.mpr ⟨entries, assigns, rfl⟩⟩

end CoreProfile

end Teleop.Core
