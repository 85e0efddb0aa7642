import Mathlib.Algebra.Ring.Int.Defs
import Teleop.Lib.Bytes
import Teleop.Lib.Footprint

/-!
# Burning text into video frames

Text is drawn with a 5×7 bitmap font into the pixel buffer of a frame before it is encoded:
all channels of RGB, the only one of grayscale, the luma plane of NV12.  An `i32` is given by
its value.
-/

namespace Teleop.Media

open Teleop.Lib

/-- Pixel format of a frame. -/
inductive PixFmt where
  | grayY8
  | rgb888
  | nv12
  deriving DecidableEq, Repr

namespace PixFmt

def bytesPerPixel : PixFmt → Nat
  | .grayY8 => 1
  | .rgb888 => 3
  | .nv12 => 2

/-- Fewest bytes of a frame; NV12 has a luma plane and half as much chroma. -/
def minBufferLen (format : PixFmt) (w h : UInt32) : Nat :=
  match format with
  | .nv12 => w.toNat * h.toNat * 3 / 2
  | other => other.bytesPerPixel * w.toNat * h.toNat

def discriminant : PixFmt → UInt32
  | .grayY8 => 0
  | .rgb888 => 1
  | .nv12 => 2

end PixFmt

structure FrameMeta where
  seq : UInt64
  timestampNs : UInt64
  width : UInt32
  height : UInt32
  stride : UInt32
  format : UInt32
  deriving DecidableEq, Repr

namespace FrameMeta

/-- Metadata with the stride of the format; `none` where the stride overflows. -/
def new (seq timestampNs : UInt64) (width height : UInt32) (format : PixFmt) :
    Option FrameMeta :=
  match format with
  | .nv12 => some ⟨seq, timestampNs, width, height, width, format.discriminant⟩
  | other =>
      if other.bytesPerPixel * width.toNat < 2 ^ 32 then
        some ⟨seq, timestampNs, width, height, .ofNat other.bytesPerPixel * width,
          format.discriminant⟩
      else none

def pixfmt (frameMeta : FrameMeta) : PixFmt :=
  if frameMeta.format = 0 then .grayY8 else if frameMeta.format = 1 then .rgb888 else .nv12

end FrameMeta

def glyphW : Nat := 5
def glyphH : Nat := 7
def glyphAdvance : Nat := glyphW + 1

/-- Seven rows; the low five bits of each are its columns, bit 4 the leftmost. -/
abbrev Glyph := Vector UInt8 7

def glyphs : List (UInt8 × Glyph) := [
    (0x20, .replicate 7 0),
    (0x30, #v[0x0E, 0x11, 0x13, 0x15, 0x19, 0x11, 0x0E]),
    (0x31, #v[0x04, 0x0C, 0x04, 0x04, 0x04, 0x04, 0x0E]),
    (0x32, #v[0x0E, 0x11, 0x01, 0x02, 0x04, 0x08, 0x1F]),
    (0x33, #v[0x1F, 0x02, 0x04, 0x02, 0x01, 0x11, 0x0E]),
    (0x34, #v[0x02, 0x06, 0x0A, 0x12, 0x1F, 0x02, 0x02]),
    (0x35, #v[0x1F, 0x10, 0x1E, 0x01, 0x01, 0x11, 0x0E]),
    (0x36, #v[0x06, 0x08, 0x10, 0x1E, 0x11, 0x11, 0x0E]),
    (0x37, #v[0x1F, 0x01, 0x02, 0x04, 0x08, 0x08, 0x08]),
    (0x38, #v[0x0E, 0x11, 0x11, 0x0E, 0x11, 0x11, 0x0E]),
    (0x39, #v[0x0E, 0x11, 0x11, 0x0F, 0x01, 0x02, 0x0C]),
    (0x41, #v[0x0E, 0x11, 0x11, 0x1F, 0x11, 0x11, 0x11]),
    (0x42, #v[0x1E, 0x11, 0x11, 0x1E, 0x11, 0x11, 0x1E]),
    (0x43, #v[0x0E, 0x11, 0x10, 0x10, 0x10, 0x11, 0x0E]),
    (0x44, #v[0x1E, 0x11, 0x11, 0x11, 0x11, 0x11, 0x1E]),
    (0x45, #v[0x1F, 0x10, 0x10, 0x1E, 0x10, 0x10, 0x1F]),
    (0x46, #v[0x1F, 0x10, 0x10, 0x1E, 0x10, 0x10, 0x10]),
    (0x47, #v[0x0E, 0x11, 0x10, 0x17, 0x11, 0x11, 0x0F]),
    (0x48, #v[0x11, 0x11, 0x11, 0x1F, 0x11, 0x11, 0x11]),
    (0x49, #v[0x0E, 0x04, 0x04, 0x04, 0x04, 0x04, 0x0E]),
    (0x4A, #v[0x07, 0x02, 0x02, 0x02, 0x02, 0x12, 0x0C]),
    (0x4B, #v[0x11, 0x12, 0x14, 0x18, 0x14, 0x12, 0x11]),
    (0x4C, #v[0x10, 0x10, 0x10, 0x10, 0x10, 0x10, 0x1F]),
    (0x4D, #v[0x11, 0x1B, 0x15, 0x15, 0x11, 0x11, 0x11]),
    (0x4E, #v[0x11, 0x19, 0x15, 0x13, 0x11, 0x11, 0x11]),
    (0x4F, #v[0x0E, 0x11, 0x11, 0x11, 0x11, 0x11, 0x0E]),
    (0x50, #v[0x1E, 0x11, 0x11, 0x1E, 0x10, 0x10, 0x10]),
    (0x51, #v[0x0E, 0x11, 0x11, 0x11, 0x15, 0x12, 0x0D]),
    (0x52, #v[0x1E, 0x11, 0x11, 0x1E, 0x14, 0x12, 0x11]),
    (0x53, #v[0x0F, 0x10, 0x10, 0x0E, 0x01, 0x01, 0x1E]),
    (0x54, #v[0x1F, 0x04, 0x04, 0x04, 0x04, 0x04, 0x04]),
    (0x55, #v[0x11, 0x11, 0x11, 0x11, 0x11, 0x11, 0x0E]),
    (0x56, #v[0x11, 0x11, 0x11, 0x11, 0x11, 0x0A, 0x04]),
    (0x57, #v[0x11, 0x11, 0x11, 0x15, 0x15, 0x1B, 0x11]),
    (0x58, #v[0x11, 0x11, 0x0A, 0x04, 0x0A, 0x11, 0x11]),
    (0x59, #v[0x11, 0x11, 0x0A, 0x04, 0x04, 0x04, 0x04]),
    (0x5A, #v[0x1F, 0x01, 0x02, 0x04, 0x08, 0x10, 0x1F]),
    (0x3A, #v[0x04, 0x04, 0x00, 0x04, 0x04, 0x00, 0x04]),
    (0x2E, #v[0x00, 0x00, 0x00, 0x00, 0x00, 0x0C, 0x0C]),
    (0x2D, #v[0x00, 0x00, 0x00, 0x1F, 0x00, 0x00, 0x00]),
    (0x25, #v[0x19, 0x1A, 0x04, 0x0B, 0x13, 0x00, 0x00]),
    (0x2F, #v[0x01, 0x02, 0x02, 0x04, 0x08, 0x08, 0x10]),
    (0x2C, #v[0x00, 0x00, 0x00, 0x00, 0x0C, 0x0C, 0x04])]

def glyph (ch : UInt8) : Option Glyph :=
  (glyphs.find? fun entry => entry.1 = ch).map (·.2)

/-- `as i32`. -/
def asI32 (n : UInt32) : Int := (n.toNat : Int).bmod (2 ^ 32)

/-- `a + b` in `i32`; `none` on overflow. -/
def addI32 (a b : Int) : Option Int :=
  if -2 ^ 31 ≤ a + b ∧ a + b < 2 ^ 31 then some (a + b) else none

/-- Write one pixel, if it is one of the frame; `none` for an index outside the buffer. -/
def setPixel (frame : List UInt8) (frameMeta : FrameMeta) (x y : Int) (shade : UInt8) :
    Option (List UInt8) :=
  if x < 0 ∨ y < 0 ∨ asI32 frameMeta.width ≤ x ∨ asI32 frameMeta.height ≤ y then some frame
  else
    let stride := frameMeta.stride.toNat
    match frameMeta.pixfmt with
    | .rgb888 =>
        let base := y.toNat * stride + x.toNat * 3
        if base + 3 ≤ frame.length then
          some (((frame.set base shade).set (base + 1) shade).set (base + 2) shade)
        else none
    | _ =>
        if y.toNat * stride + x.toNat < frame.length then
          some (frame.set (y.toNat * stride + x.toNat) shade)
        else none

/-- One column of a row of a glyph. -/
def drawBit (frameMeta : FrameMeta) (x y : Int) (shade bits : UInt8) (row : Nat)
    (frame : List UInt8) (col : Nat) : Option (List UInt8) :=
  if (bits >>> .ofNat (4 - col)) &&& 1 ≠ 0 then
    (addI32 x col).bind fun px => (addI32 y row).bind fun py =>
      setPixel frame frameMeta px py shade
  else some frame

def drawRow (frameMeta : FrameMeta) (x y : Int) (shade : UInt8) (frame : List UInt8)
    (entry : UInt8 × Nat) : Option (List UInt8) :=
  (List.range glyphW).foldlM (drawBit frameMeta x y shade entry.1 entry.2) frame

/-- Draw a character with its top left at `(x, y)`, and the advance to the next one. -/
def drawGlyph (frame : List UInt8) (frameMeta : FrameMeta) (ch : UInt8) (x y : Int)
    (shade : UInt8) : Option (List UInt8 × Int) :=
  match glyph ch with
  | none => some (frame, glyphAdvance)
  | some g =>
      (g.toList.zipIdx.foldlM (drawRow frameMeta x y shade) frame).map fun drawn =>
        (drawn, glyphAdvance)

/-- The loop over the bytes of a text; it ends behind the right edge. -/
def burnInBytes (frameMeta : FrameMeta) (y : Int) (shade : UInt8) :
    List UInt8 → List UInt8 → Int → Option (List UInt8)
  | [], frame, _ => some frame
  | b :: rest, frame, cx =>
      (drawGlyph frame frameMeta b cx y shade).bind fun (drawn, advance) =>
        (addI32 cx advance).bind fun next =>
          if asI32 frameMeta.width < next then some drawn
          else burnInBytes frameMeta y shade rest drawn next

/-- Draw a text starting at `(x, y)`; long ones are clipped. -/
def burnInText (frame : List UInt8) (frameMeta : FrameMeta) (text : String) (x y : Int)
    (shade : UInt8) : Option (List UInt8) :=
  burnInBytes frameMeta y shade (utf8 text) frame x

end Teleop.Media
