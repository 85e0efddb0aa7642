import Mathlib.Data.Nat.Bitwise
import Mathlib.Data.List.Basic
import Mathlib.Logic.Function.Iterate

/-!
# Linear feedback shift registers

A register of `w` bits that shifts towards its low end and takes a feedback
polynomial in whenever a one falls out.  Bits enter at the low end.  A pass is
linear and, when the polynomial has its top bit set, loses nothing; so a string
of at most `w` bits that is not all zeros never leaves the register empty.
-/

namespace Teleop.Lib.ShiftRegister

variable {w : Nat}

/-- One pass of the register. -/
def step (poly c : BitVec w) : BitVec w :=
  if c.getLsbD 0 then poly ^^^ (c >>> 1) else c >>> 1

/-- The number whose bits, lowest first, are these. -/
def ofBits : List Bool → Nat
  | [] => 0
  | b :: rest => b.toNat + 2 * ofBits rest

/-- Take bits in, one before each pass. -/
def feed (poly : BitVec w) (c : BitVec w) (bits : List Bool) : BitVec w :=
  bits.foldl (fun c b => step poly (c ^^^ BitVec.ofNat w b.toNat)) c

variable {poly : BitVec w}

theorem feed_cons (c : BitVec w) (b : Bool) (rest : List Bool) :
    feed poly c (b :: rest) = feed poly (step poly (c ^^^ BitVec.ofNat w b.toNat)) rest := rfl

theorem feed_append (c : BitVec w) (first second : List Bool) :
    feed poly c (first ++ second) = feed poly (feed poly c first) second :=
  List.foldl_append

theorem step_xor (a b : BitVec w) : step poly (a ^^^ b) = step poly a ^^^ step poly b := by
  unfold step
  rw [BitVec.getLsbD_xor, BitVec.ushiftRight_xor_distrib]
  cases a.getLsbD 0 <;> cases b.getLsbD 0
  · rfl
  · simp only [Bool.false_xor, if_true, Bool.false_eq_true, if_false]
    ac_rfl
  · simp only [Bool.true_xor, Bool.not_false, if_true, Bool.false_eq_true, if_false]
    ac_rfl
  · have cancel : poly ^^^ a >>> 1 ^^^ (poly ^^^ b >>> 1) =
        (poly ^^^ poly) ^^^ (a >>> 1 ^^^ b >>> 1) := by ac_rfl
    simp [cancel]

theorem step_zero : step poly 0#w = 0#w := by
  simp [step]

/-- A bit enters at the low end, where it only decides whether the polynomial is taken in. -/
theorem step_enter (wide : 0 < w) (c : BitVec w) (b : Bool) :
    step poly (c ^^^ BitVec.ofNat w b.toNat) =
      if c.getLsbD 0 ≠ b then poly ^^^ (c >>> 1) else c >>> 1 := by
  have gone : BitVec.ofNat w b.toNat >>> 1 = 0#w := by
    apply BitVec.eq_of_toNat_eq
    have bound : b.toNat < 2 := Bool.toNat_lt b
    rw [BitVec.toNat_ushiftRight, BitVec.toNat_ofNat, Nat.shiftRight_one,
      Nat.mod_eq_of_lt (Nat.lt_of_lt_of_le bound (Nat.le_self_pow (Nat.ne_of_gt wide) 2)),
      Nat.div_eq_of_lt bound]
    rfl
  have low : (BitVec.ofNat w b.toNat).getLsbD 0 = b := by
    cases b <;> simp [wide]
  unfold step
  rw [BitVec.getLsbD_xor, low, BitVec.ushiftRight_xor_distrib, gone, BitVec.xor_zero]
  cases c.getLsbD 0 <;> cases b <;> rfl

theorem iterate_step_xor (n : Nat) (a b : BitVec w) :
    (step poly)^[n] (a ^^^ b) = (step poly)^[n] a ^^^ (step poly)^[n] b := by
  induction n generalizing a b with
  | zero => rfl
  | succ n inductionHypothesis =>
      rw [Function.iterate_succ_apply, step_xor, inductionHypothesis]
      rfl

/-- With the top bit of the polynomial set, only the empty register passes to the empty
one. -/
theorem eq_zero_of_step_eq_zero (top : poly.msb = true) {c : BitVec w}
    (empty : step poly c = 0#w) : c = 0#w := by
  unfold step at empty
  split at empty
  · rename_i low
    have noTop : (poly ^^^ c >>> 1).msb = false := by rw [empty, BitVec.msb_zero]
    have shifted : (c >>> 1).msb = false := by simp
    rw [BitVec.msb_xor, top, shifted] at noTop
    cases noTop
  · rename_i low
    apply BitVec.eq_of_getLsbD_eq
    intro i inside
    cases i with
    | zero => simpa using low
    | succ i =>
        have gone := congrArg (fun x : BitVec w => x.getLsbD i) empty
        simpa [Nat.add_comm] using gone

theorem eq_zero_of_iterate_step_eq_zero (top : poly.msb = true) (n : Nat) {c : BitVec w}
    (empty : (step poly)^[n] c = 0#w) : c = 0#w := by
  induction n generalizing c with
  | zero => exact empty
  | succ n inductionHypothesis =>
      exact eq_zero_of_step_eq_zero top (inductionHypothesis empty)

theorem ofBits_lt (bits : List Bool) : ofBits bits < 2 ^ bits.length := by
  induction bits with
  | nil => exact Nat.one_pos
  | cons b rest inductionHypothesis =>
      have bound : b.toNat ≤ 1 := Bool.toNat_le b
      rw [ofBits, List.length_cons, Nat.pow_succ']
      omega

theorem ofBits_append (first second : List Bool) :
    ofBits (first ++ second) = ofBits first + 2 ^ first.length * ofBits second := by
  induction first with
  | nil => simp [ofBits]
  | cons b rest inductionHypothesis =>
      rw [List.cons_append, ofBits, ofBits, inductionHypothesis, List.length_cons, Nat.pow_succ',
        Nat.mul_add, Nat.mul_assoc, Nat.add_assoc]

theorem ofBits_eq_zero {bits : List Bool} (zero : ofBits bits = 0) : ∀ b ∈ bits, b = false := by
  induction bits with
  | nil => exact fun b listed => nomatch listed
  | cons head rest inductionHypothesis =>
      simp only [ofBits, Nat.add_eq_zero_iff, Nat.mul_eq_zero] at zero
      obtain ⟨headZero, restZero⟩ := zero
      intro b listed
      rcases List.mem_cons.mp listed with rfl | later
      · exact Bool.toNat_eq_zero.mp headZero
      · exact inductionHypothesis (restZero.resolve_left (by decide)) b later

/-- The low `k` bits of a number. -/
theorem ofBits_testBit (n k : Nat) : ofBits ((List.range k).map n.testBit) = n % 2 ^ k := by
  induction k generalizing n with
  | zero => simp [ofBits, Nat.mod_one]
  | succ k inductionHypothesis =>
      have shifted : (List.range k).map (n.testBit ∘ Nat.succ) =
          (List.range k).map (n / 2).testBit := by
        refine List.map_congr_left fun i _ => ?_
        exact Nat.testBit_succ n i
      rw [List.range_succ_eq_map, List.map_cons, List.map_map, shifted, ofBits,
        inductionHypothesis, Nat.pow_succ', Nat.mod_mul, Nat.toNat_testBit]
      simp

/-- Numbers on disjoint bits. -/
theorem xor_two_pow_mul {a k : Nat} (small : a < 2 ^ k) (n : Nat) :
    a ^^^ 2 ^ k * n = a + 2 ^ k * n := by
  apply Nat.eq_of_testBit_eq
  intro i
  rw [Nat.testBit_xor, Nat.add_comm, Nat.testBit_two_pow_mul_add n small, Nat.testBit_two_pow_mul]
  by_cases low : i < k
  · simp [low, Nat.not_le.mpr low]
  · have high : k ≤ i := Nat.not_lt.mp low
    have none : a.testBit i = false :=
      Nat.testBit_lt_two_pow (Nat.lt_of_lt_of_le small (Nat.pow_le_pow_right (by decide) high))
    simp [low, high, none]

/-- An even number only moves down. -/
theorem step_two_mul {n : Nat} (small : 2 * n < 2 ^ w) :
    step poly (BitVec.ofNat w (2 * n)) = BitVec.ofNat w n := by
  have low : (BitVec.ofNat w (2 * n)).getLsbD 0 = false := by
    simp [BitVec.getLsbD_ofNat, Nat.testBit_zero]
  unfold step
  rw [low, if_neg (by decide)]
  apply BitVec.eq_of_toNat_eq
  rw [BitVec.toNat_ushiftRight, BitVec.toNat_ofNat, BitVec.toNat_ofNat, Nat.mod_eq_of_lt small,
    Nat.mod_eq_of_lt (by omega), Nat.shiftRight_one]
  omega

theorem iterate_step_two_pow_mul {k n : Nat} (small : 2 ^ k * n < 2 ^ w) :
    (step poly)^[k] (BitVec.ofNat w (2 ^ k * n)) = BitVec.ofNat w n := by
  induction k with
  | zero => rw [Nat.pow_zero, Nat.one_mul, Function.iterate_zero_apply]
  | succ k inductionHypothesis =>
      rw [Nat.pow_succ', Nat.mul_assoc] at small ⊢
      rw [Function.iterate_succ_apply, step_two_mul small]
      exact inductionHypothesis (by omega)

/-- The low `k` bits pass through the register, the others only move down. -/
theorem iterate_step_eq_xor (k : Nat) (c : BitVec w) :
    (step poly)^[k] c =
      (step poly)^[k] (BitVec.ofNat w (c.toNat % 2 ^ k)) ^^^ c >>> k := by
  have parts : c.toNat % 2 ^ k + 2 ^ k * (c.toNat / 2 ^ k) = c.toNat := Nat.mod_add_div _ _
  have split : c =
      BitVec.ofNat w (c.toNat % 2 ^ k) ^^^ BitVec.ofNat w (2 ^ k * (c.toNat / 2 ^ k)) := by
    rw [← BitVec.ofNat_xor, xor_two_pow_mul (Nat.mod_lt _ (Nat.two_pow_pos k)), parts,
      BitVec.ofNat_toNat, BitVec.setWidth_eq]
  have small : 2 ^ k * (c.toNat / 2 ^ k) < 2 ^ w :=
    Nat.lt_of_le_of_lt (Nat.mul_div_le _ _) c.isLt
  have high : BitVec.ofNat w (c.toNat / 2 ^ k) = c >>> k := by
    apply BitVec.eq_of_toNat_eq
    rw [BitVec.toNat_ofNat, BitVec.toNat_ushiftRight, Nat.shiftRight_eq_div_pow]
    exact Nat.mod_eq_of_lt (Nat.lt_of_le_of_lt (Nat.div_le_self _ _) c.isLt)
  conv_lhs => rw [split]
  rw [iterate_step_xor, iterate_step_two_pow_mul small, high]

/-- Taking in at most `w` bits is the same as taking their number in at once. -/
theorem feed_eq_iterate {bits : List Bool} (short : bits.length ≤ w) (c : BitVec w) :
    feed poly c bits = (step poly)^[bits.length] (c ^^^ BitVec.ofNat w (ofBits bits)) := by
  induction bits generalizing c with
  | nil => simp [feed, ofBits]
  | cons b rest inductionHypothesis =>
      have small : 2 * ofBits rest < 2 ^ w := by
        have bound := ofBits_lt rest
        have room : 2 ^ (rest.length + 1) ≤ 2 ^ w := Nat.pow_le_pow_right (by decide) short
        rw [Nat.pow_succ] at room
        omega
      have split : BitVec.ofNat w (ofBits (b :: rest)) =
          BitVec.ofNat w b.toNat ^^^ BitVec.ofNat w (2 * ofBits rest) := by
        have disjoint := xor_two_pow_mul (k := 1) (Bool.toNat_lt b) (ofBits rest)
        rw [Nat.pow_one] at disjoint
        rw [← BitVec.ofNat_xor, disjoint, ofBits]
      rw [feed_cons, inductionHypothesis (Nat.le_of_succ_le short), List.length_cons,
        Function.iterate_succ_apply, split, ← BitVec.xor_assoc,
        step_xor _ (BitVec.ofNat w (2 * ofBits rest)), step_two_mul small]

/-- Two strings of one length differ in the register as their difference does. -/
theorem feed_xor (a b : BitVec w) {first second : List Bool}
    (sameLength : first.length = second.length) :
    feed poly (a ^^^ b) (List.zipWith xor first second) =
      feed poly a first ^^^ feed poly b second := by
  induction first generalizing a b second with
  | nil =>
      cases second with
      | nil => rfl
      | cons _ _ => cases sameLength
  | cons x first inductionHypothesis =>
      cases second with
      | nil => cases sameLength
      | cons y second =>
          have bits : BitVec.ofNat w (xor x y).toNat =
              BitVec.ofNat w x.toNat ^^^ BitVec.ofNat w y.toNat := by
            cases x <;> cases y <;> simp
          have regroup : a ^^^ b ^^^ (BitVec.ofNat w x.toNat ^^^ BitVec.ofNat w y.toNat) =
              (a ^^^ BitVec.ofNat w x.toNat) ^^^ (b ^^^ BitVec.ofNat w y.toNat) := by ac_rfl
          rw [List.zipWith_cons_cons, feed_cons, bits, regroup, step_xor,
            inductionHypothesis _ _ (Nat.succ.inj sameLength)]
          rfl

theorem feed_replicate_false (n : Nat) (c : BitVec w) :
    feed poly c (List.replicate n false) = (step poly)^[n] c := by
  induction n generalizing c with
  | zero => rfl
  | succ n inductionHypothesis =>
      rw [List.replicate_succ, feed_cons, inductionHypothesis, Function.iterate_succ_apply]
      simp

/-- All ones of the string lie within `w` consecutive positions. -/
def Burst (w : Nat) (bits : List Bool) : Prop :=
  ∃ start, ∀ i, bits[i]? = some true → start ≤ i ∧ i < start + w

/-- A burst that is not all zeros never leaves the register empty. -/
theorem burst_detected (top : poly.msb = true) {bits : List Bool} (burst : Burst w bits)
    (empty : feed poly 0#w bits = 0#w) : ∀ b ∈ bits, b = false := by
  obtain ⟨start, within⟩ := burst
  have before : bits.take start = List.replicate (bits.take start).length false := by
    refine List.eq_replicate_of_mem fun b listed => ?_
    obtain ⟨i, found⟩ := List.mem_iff_getElem?.mp listed
    rw [List.getElem?_take] at found
    split at found
    · cases b with
      | false => rfl
      | true =>
          have := within i found
          omega
    · cases found
  have after : (bits.drop start).drop w =
      List.replicate ((bits.drop start).drop w).length false := by
    refine List.eq_replicate_of_mem fun b listed => ?_
    obtain ⟨i, found⟩ := List.mem_iff_getElem?.mp listed
    rw [List.drop_drop, List.getElem?_drop] at found
    cases b with
    | false => rfl
    | true =>
        have := within _ found
        omega
  have zeros : (step poly)^[(bits.take start).length] 0#w = 0#w :=
    Function.iterate_fixed step_zero _
  have parts : bits = bits.take start ++ ((bits.drop start).take w ++ (bits.drop start).drop w) := by
    rw [List.take_append_drop, List.take_append_drop]
  have short : ((bits.drop start).take w).length ≤ w := List.length_take_le _ _
  rw [parts, feed_append, feed_append, before, feed_replicate_false, zeros, after,
    feed_replicate_false, feed_eq_iterate short, BitVec.zero_xor] at empty
  have number := eq_zero_of_iterate_step_eq_zero top _ (eq_zero_of_iterate_step_eq_zero top _ empty)
  have bound : ofBits ((bits.drop start).take w) < 2 ^ w :=
    Nat.lt_of_lt_of_le (ofBits_lt _) (Nat.pow_le_pow_right (by decide) short)
  have zero : ofBits ((bits.drop start).take w) = 0 := by
    have asNat := congrArg BitVec.toNat number
    rwa [BitVec.toNat_ofNat, Nat.mod_eq_of_lt bound] at asNat
  intro b listed
  rw [parts] at listed
  rcases List.mem_append.mp listed with early | listed
  · rw [before] at early
    exact List.eq_of_mem_replicate early
  · rcases List.mem_append.mp listed with inside | late
    · exact ofBits_eq_zero zero b inside
    · rw [after] at late
      exact List.eq_of_mem_replicate late

end Teleop.Lib.ShiftRegister
