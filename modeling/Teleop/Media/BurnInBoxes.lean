import Mathlib.Tactic.Ring
import Teleop.Media.BurnIn

/-!
# What a burnt-in text touches

A pixel that is written is one of the frame, and every byte written belongs to it; so a text
changes a frame only inside the boxes of its characters, and clipping never leaves the plane
that is drawn on.
-/

namespace Teleop.Media

open Teleop.Lib

/-- Bytes of a pixel in the plane that is drawn on. -/
def PixFmt.step : PixFmt → Nat
  | .grayY8 => 1
  | .rgb888 => 3
  | .nv12 => 1

namespace FrameMeta

variable (frameMeta : FrameMeta)

/-- Bytes of the plane that is drawn on. -/
def planeLen : Nat := frameMeta.pixfmt.step * (frameMeta.width.toNat * frameMeta.height.toNat)

/-- Column and row of the pixel that a byte of the plane belongs to. -/
def pixelOf (i : Nat) : Nat × Nat :=
  (i / frameMeta.pixfmt.step % frameMeta.width.toNat,
    i / frameMeta.pixfmt.step / frameMeta.width.toNat)

/-- A byte of the plane is one of a pixel of the frame. -/
theorem pixelOf_lt {i : Nat} (inside : i < frameMeta.planeLen) :
    (frameMeta.pixelOf i).1 < frameMeta.width.toNat ∧
      (frameMeta.pixelOf i).2 < frameMeta.height.toNat := by
  have pixels : i / frameMeta.pixfmt.step < frameMeta.width.toNat * frameMeta.height.toNat :=
    Nat.div_lt_of_lt_mul inside
  have positive : 0 < frameMeta.width.toNat := by
    rcases Nat.eq_zero_or_pos frameMeta.width.toNat with zero | positive
    · rw [zero, Nat.zero_mul] at pixels
      exact absurd pixels (Nat.not_lt_zero _)
    · exact positive
  exact ⟨Nat.mod_lt _ positive, Nat.div_lt_of_lt_mul pixels⟩

/-- A byte of the 5×7 box whose top left is at `(x, y)`. -/
def InBox (x y : Int) (i : Nat) : Prop :=
  i < frameMeta.planeLen ∧
    x ≤ (frameMeta.pixelOf i).1 ∧ (frameMeta.pixelOf i).1 < x + glyphW ∧
    y ≤ (frameMeta.pixelOf i).2 ∧ (frameMeta.pixelOf i).2 < y + glyphH

/-- A byte of the pixel at `(x, y)`. -/
def OfPixel (x y : Int) (i : Nat) : Prop :=
  i < frameMeta.planeLen ∧ ((frameMeta.pixelOf i).1 : Int) = x ∧ ((frameMeta.pixelOf i).2 : Int) = y

/-- Frames of bounded size in a buffer that has room for the plane. -/
structure Fits (size : Nat) : Prop where
  narrow : frameMeta.width.toNat ≤ 2 ^ 30
  low : frameMeta.height.toNat ≤ 2 ^ 30
  stride : frameMeta.stride.toNat = frameMeta.pixfmt.step * frameMeta.width.toNat
  room : frameMeta.planeLen ≤ size

end FrameMeta

section New

variable {seq timestampNs : UInt64} {width height : UInt32} {format : PixFmt}
  {frameMeta : FrameMeta}

theorem new_spec (made : FrameMeta.new seq timestampNs width height format = some frameMeta) :
    frameMeta.width = width ∧ frameMeta.height = height ∧ frameMeta.pixfmt = format ∧
      frameMeta.stride.toNat = format.step * width.toNat := by
  cases format with
  | nv12 =>
      obtain rfl := Option.some.inj made
      exact ⟨rfl, rfl, rfl, (Nat.one_mul _).symm⟩
  | grayY8 | rgb888 =>
      simp only [FrameMeta.new] at made
      split at made
      · rename_i small
        obtain rfl := Option.some.inj made
        refine ⟨rfl, rfl, rfl, ?_⟩
        rw [UInt32.toNat_mul]
        exact Nat.mod_eq_of_lt small
      · cases made

/-- Frames of bounded width have metadata. -/
theorem new_isSome (narrow : width.toNat ≤ 2 ^ 30) :
    (FrameMeta.new seq timestampNs width height format).isSome := by
  have small : format.bytesPerPixel * width.toNat < 2 ^ 32 := by
    cases format <;> simp only [PixFmt.bytesPerPixel] <;> omega
  cases format with
  | nv12 => rfl
  | grayY8 | rgb888 =>
      simp only [FrameMeta.new]
      rw [if_pos small]
      rfl

/-- The shortest buffer holds the plane, and the chroma of NV12 behind it. -/
theorem planeLen_le (made : FrameMeta.new seq timestampNs width height format = some frameMeta) :
    frameMeta.planeLen ≤ format.minBufferLen width height := by
  obtain ⟨rfl, rfl, rfl, -⟩ := new_spec made
  unfold FrameMeta.planeLen
  cases frameMeta.pixfmt with
  | nv12 =>
      simp only [PixFmt.step, PixFmt.minBufferLen, Nat.one_mul]
      omega
  | grayY8 | rgb888 => exact Nat.le_of_eq (Nat.mul_assoc _ _ _).symm

theorem fits_new (made : FrameMeta.new seq timestampNs width height format = some frameMeta)
    (narrow : width.toNat ≤ 2 ^ 30) (low : height.toNat ≤ 2 ^ 30) {size : Nat}
    (room : format.minBufferLen width height ≤ size) : frameMeta.Fits size := by
  have plane := planeLen_le made
  obtain ⟨rfl, rfl, rfl, stride⟩ := new_spec made
  exact ⟨narrow, low, stride, Nat.le_trans plane room⟩

end New

theorem asI32_of_le {n : UInt32} (small : n.toNat ≤ 2 ^ 30) : asI32 n = n.toNat := by
  unfold asI32
  exact Int.bmod_eq_of_le (by omega) (by omega)

theorem addI32_of_mem {a b : Int} (above : -2 ^ 31 ≤ a + b) (below : a + b < 2 ^ 31) :
    addI32 a b = some (a + b) := if_pos ⟨above, below⟩

section Pixels

variable {frameMeta : FrameMeta} {frame : List UInt8}

/-- The bytes that the source addresses by row and column belong to that pixel. -/
theorem ofPixel_index {column row r : Nat} (inColumn : column < frameMeta.width.toNat)
    (inRow : row < frameMeta.height.toNat) (inPixel : r < frameMeta.pixfmt.step) :
    frameMeta.OfPixel column row
      (row * (frameMeta.pixfmt.step * frameMeta.width.toNat) +
        column * frameMeta.pixfmt.step + r) := by
  have index : row * (frameMeta.pixfmt.step * frameMeta.width.toNat) +
      column * frameMeta.pixfmt.step + r =
      frameMeta.pixfmt.step * (frameMeta.width.toNat * row + column) + r := by ring
  have quotient : (frameMeta.pixfmt.step * (frameMeta.width.toNat * row + column) + r) /
      frameMeta.pixfmt.step = frameMeta.width.toNat * row + column := by
    rw [Nat.mul_add_div (by omega), Nat.div_eq_of_lt inPixel, Nat.add_zero]
  have before : frameMeta.width.toNat * row + column <
      frameMeta.width.toNat * frameMeta.height.toNat := by
    calc frameMeta.width.toNat * row + column
        < frameMeta.width.toNat * row + frameMeta.width.toNat := by omega
      _ = frameMeta.width.toNat * (row + 1) := by ring
      _ ≤ frameMeta.width.toNat * frameMeta.height.toNat := Nat.mul_le_mul_left _ inRow
  rw [index]
  refine ⟨?_, ?_, ?_⟩
  · unfold FrameMeta.planeLen
    calc frameMeta.pixfmt.step * (frameMeta.width.toNat * row + column) + r
        < frameMeta.pixfmt.step * (frameMeta.width.toNat * row + column) +
            frameMeta.pixfmt.step := by omega
      _ = frameMeta.pixfmt.step * (frameMeta.width.toNat * row + column + 1) := by ring
      _ ≤ _ := Nat.mul_le_mul_left _ before
  · unfold FrameMeta.pixelOf
    rw [quotient, Nat.mul_add_mod, Nat.mod_eq_of_lt inColumn]
  · unfold FrameMeta.pixelOf
    rw [quotient, Nat.mul_add_div (by omega), Nat.div_eq_of_lt inColumn, Nat.add_zero]

/-- Writing a pixel stays in the buffer and changes bytes of that pixel only. -/
theorem setPixel_spec (fits : frameMeta.Fits frame.length) (x y : Int) (shade : UInt8) :
    ∃ after, setPixel frame frameMeta x y shade = some after ∧
      Overwrites (frameMeta.OfPixel x y) shade frame after := by
  unfold setPixel
  rw [asI32_of_le fits.narrow, asI32_of_le fits.low]
  split
  · exact ⟨frame, rfl, .refl _ _ _⟩
  rename_i inside
  simp only [not_or, Int.not_lt, Int.not_le] at inside
  obtain ⟨left, top, right, bottom⟩ := inside
  lift x to Nat using left
  lift y to Nat using top
  have byte (r : Nat) (inPixel : r < frameMeta.pixfmt.step) : frameMeta.OfPixel x y
      (y * frameMeta.stride.toNat + x * frameMeta.pixfmt.step + r) := by
    rw [fits.stride]
    exact ofPixel_index (by omega) (by omega) inPixel
  have bound (r : Nat) (inPixel : r < frameMeta.pixfmt.step) :
      y * frameMeta.stride.toNat + x * frameMeta.pixfmt.step + r < frame.length :=
    Nat.lt_of_lt_of_le (byte r inPixel).1 fits.room
  simp only [Int.toNat_natCast]
  cases format : frameMeta.pixfmt with
  | rgb888 =>
      rw [format] at byte bound
      have last : y * frameMeta.stride.toNat + x * 3 + 2 < frame.length := bound 2 (by decide)
      refine ⟨_, if_pos (by omega), ?_⟩
      have first := Overwrites.set frame shade (byte 0 (by decide))
      have second := first.trans (Overwrites.set _ shade (byte 1 (by decide)))
      exact second.trans (Overwrites.set _ shade (byte 2 (by decide)))
  | grayY8 | nv12 =>
      rw [format] at byte bound
      have only := byte 0 (by decide)
      have last := bound 0 (by decide)
      simp only [PixFmt.step, Nat.mul_one, Nat.add_zero] at only last
      exact ⟨_, if_pos last, Overwrites.set frame shade only⟩

end Pixels

section Glyphs

variable {frameMeta : FrameMeta} {frame : List UInt8} {x y : Int}

/-- A pixel of a row and a column of a glyph is in its box. -/
theorem inBox_of_ofPixel {row col i : Nat} (inRow : row < glyphH) (inCol : col < glyphW)
    (ofPixel : frameMeta.OfPixel (x + col) (y + row) i) : frameMeta.InBox x y i := by
  obtain ⟨inside, column, line⟩ := ofPixel
  refine ⟨inside, ?_, ?_, ?_, ?_⟩ <;> omega

theorem drawBit_spec (fits : frameMeta.Fits frame.length) (left : -2 ^ 30 ≤ x) (right : x ≤ 2 ^ 30)
    (top : -2 ^ 30 ≤ y) (bottom : y ≤ 2 ^ 30) (shade bits : UInt8) {row col : Nat}
    (inRow : row < glyphH) (inCol : col < glyphW) :
    ∃ after, drawBit frameMeta x y shade bits row frame col = some after ∧
      Overwrites (frameMeta.InBox x y) shade frame after := by
  have narrow : col < 5 := inCol
  have low : row < 7 := inRow
  unfold drawBit
  split
  · rw [addI32_of_mem (by omega) (by omega), addI32_of_mem (by omega) (by omega),
      Option.bind_some, Option.bind_some]
    obtain ⟨after, written, overwrites⟩ := setPixel_spec fits (x + col) (y + row) shade
    exact ⟨after, written, overwrites.mono fun i => inBox_of_ofPixel inRow inCol⟩
  · exact ⟨frame, rfl, .refl _ _ _⟩

theorem drawRow_spec (fits : frameMeta.Fits frame.length) (left : -2 ^ 30 ≤ x) (right : x ≤ 2 ^ 30)
    (top : -2 ^ 30 ≤ y) (bottom : y ≤ 2 ^ 30) (shade bits : UInt8) {row : Nat}
    (inRow : row < glyphH) :
    ∃ after, drawRow frameMeta x y shade frame (bits, row) = some after ∧
      Overwrites (frameMeta.InBox x y) shade frame after := by
  unfold drawRow
  apply Overwrites.exists_foldlM
  intro col listed list same
  have fitsList : frameMeta.Fits list.length := same ▸ fits
  exact drawBit_spec fitsList left right top bottom shade bits inRow (List.mem_range.mp listed)

theorem row_lt_of_mem {g : Glyph} {entry : UInt8 × Nat} (listed : entry ∈ g.toList.zipIdx) :
    entry.2 < glyphH := by
  have inside : entry.2 < 7 := by simpa using List.snd_lt_of_mem_zipIdx listed
  exact inside

/-- A character that the font has changes bytes in its box only, any other none. -/
theorem drawGlyph_spec (fits : frameMeta.Fits frame.length) (left : -2 ^ 30 ≤ x)
    (right : x ≤ 2 ^ 30) (top : -2 ^ 30 ≤ y) (bottom : y ≤ 2 ^ 30) (shade ch : UInt8) :
    ∃ after, drawGlyph frame frameMeta ch x y shade = some (after, 6) ∧
      Overwrites (fun i => (glyph ch).isSome ∧ frameMeta.InBox x y i) shade frame after := by
  unfold drawGlyph
  cases found : glyph ch with
  | none => exact ⟨frame, rfl, .refl _ _ _⟩
  | some g =>
      have rows : ∃ after, g.toList.zipIdx.foldlM (drawRow frameMeta x y shade) frame =
          some after ∧ Overwrites (frameMeta.InBox x y) shade frame after := by
        apply Overwrites.exists_foldlM
        rintro ⟨bits, row⟩ listed list same
        have fitsList : frameMeta.Fits list.length := same ▸ fits
        exact drawRow_spec fitsList left right top bottom shade bits (row_lt_of_mem listed)
      obtain ⟨after, drawn, overwrites⟩ := rows
      refine ⟨after, ?_, overwrites.mono fun i inside => ⟨rfl, inside⟩⟩
      dsimp only
      rw [drawn]
      rfl

end Glyphs

section Text

variable {frameMeta : FrameMeta} {frame : List UInt8} {y : Int}

/-- A byte in the box of byte `k` of a text, which is a character of the font. -/
def InByteBox (frameMeta : FrameMeta) (bytes : List UInt8) (x y : Int) (i : Nat) : Prop :=
  ∃ (k : Nat) (b : UInt8), bytes[k]? = some b ∧ (glyph b).isSome ∧ frameMeta.InBox (x + 6 * k) y i

theorem InByteBox.cons {bytes : List UInt8} {x : Int} {i : Nat}
    (inside : InByteBox frameMeta bytes (x + 6) y i) (b : UInt8) :
    InByteBox frameMeta (b :: bytes) x y i := by
  obtain ⟨k, drawn, held, known, box⟩ := inside
  refine ⟨k + 1, drawn, held, known, ?_⟩
  have shifted : x + 6 * ((k + 1 : Nat) : Int) = x + 6 + 6 * k := by push_cast; ring
  rwa [shifted]

theorem burnInBytes_spec (fits : frameMeta.Fits frame.length) (top : -2 ^ 30 ≤ y)
    (bottom : y ≤ 2 ^ 30) (shade : UInt8) (bytes : List UInt8) {x : Int} (left : -2 ^ 30 ≤ x)
    (right : x ≤ 2 ^ 30) :
    ∃ after, burnInBytes frameMeta y shade bytes frame x = some after ∧
      Overwrites (InByteBox frameMeta bytes x y) shade frame after := by
  induction bytes generalizing frame x with
  | nil => exact ⟨frame, rfl, .refl _ _ _⟩
  | cons b rest inductionHypothesis =>
      obtain ⟨drawn, glyphDrawn, overwrites⟩ := drawGlyph_spec fits left right top bottom shade b
      have here : Overwrites (InByteBox frameMeta (b :: rest) x y) shade frame drawn := by
        refine overwrites.mono fun i inside => ⟨0, b, rfl, inside.1, ?_⟩
        simpa using inside.2
      unfold burnInBytes
      rw [glyphDrawn, Option.bind_some]
      dsimp only
      rw [addI32_of_mem (by omega) (by omega), Option.bind_some, asI32_of_le fits.narrow]
      split
      · exact ⟨drawn, rfl, here⟩
      · rename_i visible
        have narrow := fits.narrow
        have fitsDrawn : frameMeta.Fits drawn.length := overwrites.length ▸ fits
        obtain ⟨after, done, later⟩ :=
          inductionHypothesis fitsDrawn (x := x + 6) (by omega) (by omega)
        exact ⟨after, done, here.trans (later.mono fun i inside => inside.cons b)⟩

/-- The font has ASCII characters only. -/
theorem ascii_of_glyph {b : UInt8} (known : (glyph b).isSome) : b.toNat < 0x80 := by
  have all : glyphs.all (fun entry => entry.1.toNat < 0x80) = true := by decide
  unfold glyph at known
  rw [Option.isSome_map, List.find?_isSome] at known
  obtain ⟨entry, listed, same⟩ := known
  have small := of_decide_eq_true (List.all_eq_true.mp all entry listed)
  rwa [of_decide_eq_true same] at small

/-- A byte in the box of a character of the text; a character is placed by the number of bytes
before it. -/
def InCharacterBox (frameMeta : FrameMeta) (text : String) (x y : Int) (i : Nat) : Prop :=
  ∃ before c after, text.toList = before ++ c :: after ∧
    frameMeta.InBox (x + 6 * (utf8 (.ofList before)).length) y i

theorem InByteBox.inCharacterBox {text : String} {x : Int} {i : Nat}
    (inside : InByteBox frameMeta (utf8 text) x y i) : InCharacterBox frameMeta text x y i := by
  obtain ⟨k, b, held, known, box⟩ := inside
  obtain ⟨before, c, after, parts, length, -⟩ := exists_char_of_ascii (ascii_of_glyph known) held
  refine ⟨before, c, after, parts, ?_⟩
  rwa [length]

end Text

/-- Burning a text in never leaves the buffer, and every byte it changes belongs to a pixel of
the frame in the box of a character of the text and is set to the shade; the chroma of NV12
stays as it is. -/
theorem burnInText_spec {seq timestampNs : UInt64} {width height : UInt32} {format : PixFmt}
    {frameMeta : FrameMeta}
    (made : FrameMeta.new seq timestampNs width height format = some frameMeta)
    (narrow : width.toNat ≤ 2 ^ 30) (low : height.toNat ≤ 2 ^ 30) {frame : List UInt8}
    (room : format.minBufferLen width height ≤ frame.length) (text : String) (shade : UInt8)
    {x y : Int} (left : -2 ^ 30 ≤ x) (right : x ≤ 2 ^ 30) (top : -2 ^ 30 ≤ y)
    (bottom : y ≤ 2 ^ 30) :
    ∃ after, burnInText frame frameMeta text x y shade = some after ∧
      after.length = frame.length ∧
      (∀ i, after[i]? ≠ frame[i]? →
        after[i]? = some shade ∧ (frameMeta.pixelOf i).1 < width.toNat ∧
          (frameMeta.pixelOf i).2 < height.toNat ∧ InCharacterBox frameMeta text x y i) ∧
      (format = .nv12 → ∀ i, width.toNat * height.toNat ≤ i → after[i]? = frame[i]?) := by
  have fits := fits_new made narrow low room
  obtain ⟨rfl, rfl, rfl, -⟩ := new_spec made
  obtain ⟨after, drawn, overwrites⟩ :=
    burnInBytes_spec fits top bottom shade (utf8 text) left right
  refine ⟨after, drawn, overwrites.length, fun i differs => ?_, fun luma i chroma => ?_⟩
  · obtain ⟨inside, written⟩ := overwrites.changed i differs
    obtain ⟨k, b, held, known, box⟩ := inside
    obtain ⟨inColumn, inRow⟩ := frameMeta.pixelOf_lt box.1
    exact ⟨written, inColumn, inRow,
      InByteBox.inCharacterBox ⟨k, b, held, known, box⟩⟩
  · apply overwrites.getElem?_eq
    rintro ⟨k, b, -, -, inside, -⟩
    unfold FrameMeta.planeLen at inside
    rw [luma, PixFmt.step, Nat.one_mul] at inside
    omega

/-- A period in a luma plane of 4×7 pixels, partly to the left of it. -/
theorem burnInText_spec_period :
    ∃ after, burnInText (.replicate 42 0) ⟨0, 0, 4, 7, 4, 2⟩ "." (-2) 0 255 = some after ∧
      after.length = 42 ∧
      ∀ i : Nat, after[i]? ≠ (List.replicate 42 (0 : UInt8))[i]? → after[i]? = some 255 := by
  obtain ⟨after, drawn, length, changed, -⟩ :=
    burnInText_spec (show FrameMeta.new 0 0 4 7 .nv12 = some ⟨0, 0, 4, 7, 4, 2⟩ from rfl)
      (by decide) (by decide) (show _ ≤ (List.replicate 42 (0 : UInt8)).length by decide) "." 255
      (show -2 ^ 30 ≤ -2 by decide) (by decide) (show -2 ^ 30 ≤ 0 by decide) (by decide)
  exact ⟨after, drawn, length, fun i differs => (changed i differs).1⟩

end Teleop.Media
