import Mathlib.Order.Bounds.Basic
import Teleop.Ring.Spsc

/-!
# The byte layout of a shared ring

Offsets, stride and capacity of a ring inside one contiguous region, and the inverse
question: the largest capacity that a region of a given size admits.  The arithmetic is
that of `usize` under overflow checks, `none` where a check traps.
-/

namespace Teleop.Ring

def cacheLine : Nat := 64

/-- `size_of::<SharedHeader>()`: two cursors, each padded to a cache line. -/
def sharedHeaderLen : Nat := 2 * cacheLine

/-- The result of a `usize` operation; `none` on overflow. -/
def usize (value : Nat) : Option Nat := if value < 2 ^ 64 then some value else none

/-- `a.div_ceil(b)`. -/
def divCeil (a b : Nat) : Nat := if a % b = 0 then a / b else a / b + 1

/-- `usize::next_power_of_two` with its overflow check. -/
def checkedNextPowerOfTwo (n : Nat) : Option Nat :=
  if n ≤ 2 ^ 63 then some (nextPowerOfTwo n) else none

/-- `usize::leading_zeros` on a 64-bit target. -/
def leadingZeros (n : Nat) : Nat := if n = 0 then 64 else 63 - n.log2

/-- `1 << (usize::BITS - 1 - n.leading_zeros())` unless `n` is a power of two already. -/
def floorPow2 (n : Nat) : Option Nat :=
  if n.isPowerOfTwo then some n
  else if leadingZeros n ≤ 63 then some (1 <<< (63 - leadingZeros n)) else none

structure RingLayout where
  headerLen : Nat
  slotsOff : Nat
  slotSize : Nat
  capacity : Nat
  totalLen : Nat
deriving DecidableEq

namespace RingLayout

/-- The layout for `capacity` slots of a type of `sizeOfT` bytes. -/
def forSlots (sizeOfT capacity : Nat) : Option RingLayout := do
  let cap ← checkedNextPowerOfTwo (max capacity 1)
  let headerLen := sharedHeaderLen
  let slotSize ← usize (divCeil (max sizeOfT 1) 8 * 8)
  let slotsOff ← usize (divCeil headerLen cacheLine * cacheLine)
  let slots ← usize (slotSize * cap)
  let totalLen ← usize (slotsOff + slots)
  some ⟨headerLen, slotsOff, slotSize, cap, totalLen⟩

/-- The largest power-of-two capacity inside a region of `totalLen` bytes.  The inner `none`
is the answer that nothing fits, the outer one a trap. -/
def fit (totalLen headerLen slotSize : Nat) : Option (Option Nat) := do
  let slotsOff ← usize (divCeil headerLen cacheLine * cacheLine)
  if totalLen < slotsOff then
    some none
  else
    let avail := totalLen - slotsOff
    let slotSize := max slotSize 1
    let n := avail / slotSize
    let cap ← floorPow2 n
    some (some cap)

/-- Whether a region of `totalLen` bytes can host the layout. -/
def validate (layout : RingLayout) (totalLen : Nat) : Bool :=
  layout.slotsOff % cacheLine = 0 && layout.capacity.isPowerOfTwo && layout.totalLen ≤ totalLen

end RingLayout

theorem usize_eq_some_iff {value result : Nat} :
    usize value = some result ↔ value < 2 ^ 64 ∧ value = result := by
  simp [usize]

theorem usize_of_lt {value : Nat} (fits : value < 2 ^ 64) : usize value = some value := if_pos fits

theorem floorPow2_zero : floorPow2 0 = none := by decide

theorem floorPow2_of_pos {n : Nat} (positive : 0 < n) (fits : n < 2 ^ 64) :
    floorPow2 n = some (2 ^ n.log2) := by
  have bits : n.log2 < 64 := (Nat.log2_lt (by omega)).mpr fits
  unfold floorPow2
  split
  · rename_i power
    obtain ⟨k, rfl⟩ := power
    rw [Nat.log2_two_pow]
  · have zeros : leadingZeros n = 63 - n.log2 := if_neg (by omega)
    rw [zeros, if_pos (by omega), Nat.one_shiftLeft]
    congr 2
    omega

/-- The leading bit of a positive number is the largest power of two not above it. -/
theorem isGreatest_two_pow_log2 {n : Nat} (positive : 0 < n) :
    IsGreatest {c : Nat | c.isPowerOfTwo ∧ c ≤ n} (2 ^ n.log2) := by
  refine ⟨⟨⟨n.log2, rfl⟩, Nat.log2_self_le (by omega)⟩, ?_⟩
  rintro _ ⟨⟨k, rfl⟩, below⟩
  exact Nat.pow_le_pow_right (by decide) ((Nat.le_log2 (by omega)).mpr below)

theorem nextPowerOfTwo_of_isPowerOfTwo {c : Nat} (power : c.isPowerOfTwo) (small : c < 2 ^ 64) :
    max c 1 ≤ 2 ^ 63 ∧ nextPowerOfTwo (max c 1) = c := by
  obtain ⟨k, rfl⟩ := power
  have bits : k < 64 := (Nat.pow_lt_pow_iff_right (by decide)).mp small
  have positive : max (2 ^ k) 1 = 2 ^ k := max_eq_left Nat.one_le_two_pow
  rw [positive]
  exact ⟨Nat.pow_le_pow_right (by decide) (by omega), nextPowerOfTwo_two_pow (by omega)⟩

namespace RingLayout

variable {totalLen headerLen slotSize slotsOff sizeOfT capacity c : Nat} {layout : RingLayout}

/-- What `fit` promises: `none` when not even one slot fits, otherwise the largest power of two
of slots that the region holds. -/
def Admits (totalLen slotsOff slotSize : Nat) : Option Nat → Prop
  | none => totalLen < slotsOff + max slotSize 1
  | some c => IsGreatest
      {c : Nat | c.isPowerOfTwo ∧ slotsOff + max slotSize 1 * c ≤ totalLen} c

/-- A ring of `c` slots of a type that a slot holds needs no more than the region, when its own
header does not reach past `slotsOff`. -/
def Hosts (totalLen slotsOff slotSize c : Nat) : Prop :=
  sharedHeaderLen ≤ slotsOff → ∀ sizeOfT, divCeil (max sizeOfT 1) 8 * 8 ≤ max slotSize 1 →
    ∃ layout, forSlots sizeOfT c = some layout ∧ layout.totalLen ≤ totalLen

/-- `fit` answers, its answer is the right one, and the layout of that capacity stays inside. -/
def Fits (totalLen headerLen slotSize slotsOff : Nat) : Prop :=
  ∃ answer, fit totalLen headerLen slotSize = some answer ∧
    Admits totalLen slotsOff slotSize answer ∧ ∀ c ∈ answer, Hosts totalLen slotsOff slotSize c

/-- A layout is built exactly when the whole region is addressable. -/
theorem forSlots_eq_some_iff :
    forSlots sizeOfT capacity = some layout ↔
      max capacity 1 ≤ 2 ^ 63 ∧ layout.totalLen < 2 ^ 64 ∧
        layout.headerLen = sharedHeaderLen ∧ layout.slotsOff = sharedHeaderLen ∧
        layout.slotSize = divCeil (max sizeOfT 1) 8 * 8 ∧
        layout.capacity = nextPowerOfTwo (max capacity 1) ∧
        layout.totalLen = layout.slotsOff + layout.slotSize * layout.capacity := by
  have header : usize (divCeil sharedHeaderLen cacheLine * cacheLine) = some sharedHeaderLen := by
    decide
  obtain ⟨headerLen, slotsOff, slotSize, cap, totalLen⟩ := layout
  simp only [forSlots, header, Option.bind_eq_bind, Option.bind_some]
  constructor
  · intro built
    simp only [checkedNextPowerOfTwo, Option.bind_eq_some_iff, usize_eq_some_iff,
      Option.ite_none_right_eq_some, Option.some.injEq, mk.injEq] at built
    obtain ⟨_, ⟨small, rfl⟩, _, ⟨_, rfl⟩, _, ⟨_, rfl⟩, _, ⟨fits, rfl⟩, rfl, rfl, rfl, rfl, rfl⟩ := built
    exact ⟨small, fits, rfl, rfl, rfl, rfl, rfl⟩
  · rintro ⟨small, fits, rfl, rfl, rfl, rfl, total⟩
    obtain ⟨k, _, power⟩ := nextPowerOfTwo_of_le small
    have stride : divCeil (max sizeOfT 1) 8 * 8 ≤
        divCeil (max sizeOfT 1) 8 * 8 * nextPowerOfTwo (max capacity 1) := by
      rw [power]
      exact Nat.le_mul_of_pos_right _ (Nat.two_pow_pos k)
    have counted : checkedNextPowerOfTwo (max capacity 1) =
        some (nextPowerOfTwo (max capacity 1)) := if_pos small
    rw [counted, usize_of_lt (by omega), Option.bind_some, Option.bind_some,
      usize_of_lt (by omega), Option.bind_some, usize_of_lt (by omega), Option.bind_some, total]

theorem fit_of_lt (rounded : usize (divCeil headerLen cacheLine * cacheLine) = some slotsOff)
    (short : totalLen < slotsOff) : fit totalLen headerLen slotSize = some none := by
  rw [fit, rounded, Option.bind_eq_bind, Option.bind_some, if_pos short]

theorem fit_of_le (rounded : usize (divCeil headerLen cacheLine * cacheLine) = some slotsOff)
    (room : slotsOff ≤ totalLen) :
    fit totalLen headerLen slotSize =
      (floorPow2 ((totalLen - slotsOff) / max slotSize 1)).map some := by
  rw [fit, rounded, Option.bind_eq_bind, Option.bind_some, if_neg (by omega)]
  exact Option.map_eq_bind.symm

/-- Room for the header and less than a slot: no power of two to round down to. -/
theorem fit_of_no_slot (rounded : usize (divCeil headerLen cacheLine * cacheLine) = some slotsOff)
    (room : slotsOff ≤ totalLen) (full : totalLen < slotsOff + max slotSize 1) :
    fit totalLen headerLen slotSize = none := by
  have empty : (totalLen - slotsOff) / max slotSize 1 = 0 := Nat.div_eq_of_lt (by omega)
  rw [fit_of_le rounded room, empty, floorPow2_zero, Option.map_none]

/-- Room for a slot: the largest power of two of slots in what the header leaves. -/
theorem fit_of_slot (region : totalLen < 2 ^ 64)
    (rounded : usize (divCeil headerLen cacheLine * cacheLine) = some slotsOff)
    (slot : slotsOff + max slotSize 1 ≤ totalLen) :
    ∃ c, fit totalLen headerLen slotSize = some (some c) ∧
      Admits totalLen slotsOff slotSize (some c) := by
  have step : 0 < max slotSize 1 := by omega
  have positive : 0 < (totalLen - slotsOff) / max slotSize 1 := Nat.div_pos (by omega) step
  have fits : (totalLen - slotsOff) / max slotSize 1 < 2 ^ 64 :=
    Nat.lt_of_le_of_lt (Nat.div_le_self _ _) (by omega)
  refine ⟨_, by rw [fit_of_le rounded (by omega), floorPow2_of_pos positive fits, Option.map_some], ?_⟩
  have held (c : Nat) : slotsOff + max slotSize 1 * c ≤ totalLen ↔
      c ≤ (totalLen - slotsOff) / max slotSize 1 := by
    rw [Nat.le_div_iff_mul_le step, Nat.mul_comm]
    omega
  simp only [Admits, held]
  exact isGreatest_two_pow_log2 positive

/-- A capacity that the region admits gives a layout inside it. -/
theorem hosts_of_admits (region : totalLen < 2 ^ 64)
    (admitted : Admits totalLen slotsOff slotSize (some c)) :
    Hosts totalLen slotsOff slotSize c := by
  intro header sizeOfT stride
  obtain ⟨power, held⟩ := admitted.1
  have one : 1 ≤ max slotSize 1 := le_max_right _ _
  have count : c ≤ max slotSize 1 * c := Nat.le_mul_of_pos_left c one
  obtain ⟨small, rounded⟩ := nextPowerOfTwo_of_isPowerOfTwo power (by omega)
  have slots : divCeil (max sizeOfT 1) 8 * 8 * c ≤ max slotSize 1 * c :=
    Nat.mul_le_mul_right c stride
  have needed : sharedHeaderLen + divCeil (max sizeOfT 1) 8 * 8 * c ≤ totalLen := by omega
  refine ⟨⟨sharedHeaderLen, sharedHeaderLen, divCeil (max sizeOfT 1) 8 * 8, c,
    sharedHeaderLen + divCeil (max sizeOfT 1) 8 * 8 * c⟩, ?_, needed⟩
  exact forSlots_eq_some_iff.mpr
    ⟨small, Nat.lt_of_le_of_lt needed region, rfl, rfl, rfl, rounded.symm, rfl⟩

/-- The region of a layout admits exactly its capacity. -/
theorem fit_of_forSlots (built : forSlots sizeOfT capacity = some layout) :
    fit layout.totalLen layout.headerLen layout.slotSize = some (some layout.capacity) := by
  obtain ⟨small, region, header, offset, stride, count, total⟩ := forSlots_eq_some_iff.mp built
  have rounded : usize (divCeil layout.headerLen cacheLine * cacheLine) = some layout.slotsOff := by
    rw [header, offset]
    decide
  have positive : 0 < layout.slotSize := by
    rw [stride, divCeil]
    split <;> omega
  obtain ⟨k, bits, power⟩ := nextPowerOfTwo_of_le small
  rw [← count] at power
  have exact : (layout.totalLen - layout.slotsOff) / max layout.slotSize 1 = 2 ^ k := by
    rw [max_eq_left positive, total, Nat.add_sub_cancel_left, power,
      Nat.mul_div_cancel_left _ positive]
  have fits : 2 ^ k < 2 ^ 64 := Nat.pow_lt_pow_right (by decide) (by omega)
  rw [fit_of_le rounded (by omega), exact, floorPow2_of_pos (Nat.two_pow_pos k) fits,
    Nat.log2_two_pow, Option.map_some, power]

/-- The regions that host a layout are those it fits in. -/
theorem validate_iff_of_forSlots (built : forSlots sizeOfT capacity = some layout)
    (region : Nat) : layout.validate region = true ↔ layout.totalLen ≤ region := by
  obtain ⟨small, -, -, offset, -, count, -⟩ := forSlots_eq_some_iff.mp built
  obtain ⟨k, -, power⟩ := nextPowerOfTwo_of_le small
  have aligned : layout.slotsOff % cacheLine = 0 := by
    rw [offset]
    decide
  have rounded : layout.capacity.isPowerOfTwo := ⟨k, count.trans power⟩
  simp [validate, aligned, rounded]

/-- `fit` answers rightly except where the region ends inside the first slot: it should say
that nothing fits, and it shifts by the missing leading one.  On the region of a layout it always
gives the layout's capacity back. -/
theorem fit_iff (region : totalLen < 2 ^ 64)
    (rounded : usize (divCeil headerLen cacheLine * cacheLine) = some slotsOff) :
    (Fits totalLen headerLen slotSize slotsOff ↔
      totalLen < slotsOff ∨ slotsOff + max slotSize 1 ≤ totalLen) ∧
    ∀ sizeOfT capacity layout, forSlots sizeOfT capacity = some layout →
      fit layout.totalLen layout.headerLen layout.slotSize = some (some layout.capacity) := by
  refine ⟨⟨?_, ?_⟩, fun _ _ _ => fit_of_forSlots⟩
  · rintro ⟨answer, answered, -⟩
    by_contra partway
    rw [fit_of_no_slot rounded (by omega) (by omega)] at answered
    cases answered
  · rintro (short | slot)
    · exact ⟨none, fit_of_lt rounded short, Nat.lt_add_right _ short, fun _ given => by cases given⟩
    · obtain ⟨c, answered, admitted⟩ := fit_of_slot region rounded slot
      refine ⟨some c, answered, admitted, ?_⟩
      rintro _ ⟨⟩
      exact hosts_of_admits region admitted

theorem fit_iff_page : Fits 4096 128 16 128 :=
  (fit_iff (by decide) (by decide)).1.mpr (.inr (by decide))

/-- A region of the header alone, where the answer should be that nothing fits. -/
theorem not_fits :
    ¬ ∀ totalLen headerLen slotSize slotsOff : Nat, totalLen < 2 ^ 64 →
      usize (divCeil headerLen cacheLine * cacheLine) = some slotsOff →
        Fits totalLen headerLen slotSize slotsOff := by
  intro always
  obtain ⟨answer, answered, -⟩ := always 128 128 16 128 (by decide) (by decide)
  have trapped : fit 128 128 16 = none := by decide
  rw [trapped] at answered
  cases answered

end RingLayout

end Teleop.Ring
