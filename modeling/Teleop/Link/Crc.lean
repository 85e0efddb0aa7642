import Mathlib.Tactic.FinCases
import Teleop.Core.Command
import Teleop.Lib.Bytes

/-!
# CRC-32 and the integrity tag of a command

Reflected CRC-32 by table, and the tag over the raw image of a command.  Axes
travel as the bit patterns of their floats.
-/

namespace Teleop.Link

open Teleop.Core Teleop.Lib

/-- A command with the bit patterns of its axes. -/
abbrev Command := ControlCommand UInt32

/-- One of the eight passes that build a table entry. -/
def crcPass (c : UInt32) : UInt32 :=
  if c &&& 1 ≠ 0 then (0xEDB88320 : UInt32) ^^^ (c >>> 1) else c >>> 1

def crcTable : Vector UInt32 256 := .ofFn fun i => crcPass^[8] (UInt32.ofNat i)

theorem toNat_lowByte_lt (c : UInt32) : (c &&& 0xFF).toNat < 256 := by
  rw [UInt32.toNat_and]
  exact Nat.lt_of_le_of_lt Nat.and_le_right (show UInt32.toNat 0xFF < 256 by decide)

def crcByte (c : UInt32) (b : UInt8) : UInt32 :=
  crcTable.get ⟨((c ^^^ b.toUInt32) &&& 0xFF).toNat, toNat_lowByte_lt _⟩ ^^^ (c >>> 8)

def crc32 (data : List UInt8) : UInt32 := ~~~ data.foldl crcByte (~~~ 0)

/-- Fields of the command in declaration order, with their widths in bytes. -/
def commandFields (cmd : Command) : List (Nat × Nat) :=
  [(4, cmd.magic.toNat), (2, cmd.version.toNat), (2, cmd.reserved.toNat), (8, cmd.seq.toNat),
    (8, cmd.timestampNs.toNat), (1, cmd.mode.toNat), (1, cmd.flags.toNat),
    (1, cmd.axisCount.toNat), (1, cmd.pad0.toNat), (4, (cmd.axes 0).toNat),
    (4, (cmd.axes 1).toNat), (4, (cmd.axes 2).toNat), (4, (cmd.axes 3).toNat),
    (4, (cmd.axes 4).toNat), (4, (cmd.axes 5).toNat), (4, cmd.crc.toNat)]

/-- The 56-byte raw image, `bytes_of`. -/
def commandImage (cmd : Command) : List UInt8 := encodeFields (commandFields cmd)

def commandOfFields : List Nat → Option Command
  | [magic, version, reserved, seq, timestampNs, mode, flags, axisCount, pad0, a0, a1, a2, a3,
      a4, a5, crc] =>
      some {
        magic := .ofNat magic
        version := .ofNat version
        reserved := .ofNat reserved
        seq := .ofNat seq
        timestampNs := .ofNat timestampNs
        mode := .ofNat mode
        flags := .ofNat flags
        axisCount := .ofNat axisCount
        pad0 := .ofNat pad0
        axes := fun k => [UInt32.ofNat a0, .ofNat a1, .ofNat a2, .ofNat a3, .ofNat a4,
          .ofNat a5].get k
        crc := .ofNat crc }
  | _ => none

def commandWidths : List Nat := [4, 2, 2, 8, 8, 1, 1, 1, 1, 4, 4, 4, 4, 4, 4, 4]

theorem widths_commandFields (cmd : Command) : (commandFields cmd).map (·.1) = commandWidths :=
  rfl

theorem length_commandImage (cmd : Command) : (commandImage cmd).length = 56 := by
  unfold commandImage
  rw [length_encodeFields, widths_commandFields]
  decide

theorem commandOfFields_image (cmd : Command) (rest : List UInt8) :
    commandOfFields (decodeFields commandWidths (commandImage cmd ++ rest)) = some cmd := by
  have values := decodeFields_encodeFields (commandFields cmd) rest
  rw [widths_commandFields] at values
  unfold commandImage
  rw [values]
  unfold commandFields
  simp only [List.map_cons, List.map_nil, commandOfFields, ofNat_toNat_mod_one,
    ofNat_toNat_mod_two, ofNat_toNat_mod_four, ofNat_toNat_mod_eight]
  congr
  funext k
  fin_cases k <;> exact ofNat_toNat_mod_four _

/-- Integrity tag: the CRC over the image with the `crc` field zeroed. -/
def commandCrc (cmd : Command) : UInt32 := crc32 (commandImage { cmd with crc := 0 })

/-- The copy of a command that goes on the wire, with its tag filled in. -/
def stamped (cmd : Command) : Command := { cmd with crc := commandCrc cmd }

theorem commandCrc_stamped (cmd : Command) : commandCrc (stamped cmd) = (stamped cmd).crc := rfl

/-- `rkyv` for one plain-data type, which lies outside the repository: what is serialized is
accepted and read back, in as many bytes as the structure has. -/
structure Archive (T : Type) (size : Nat) where
  serialize : T → List UInt8
  access : List UInt8 → Option T
  access_serialize : ∀ value, access (serialize value) = some value
  length_serialize : ∀ value, (serialize value).length = size

/-- The little-endian image of the structure, which is the archived form of plain data. -/
def Archive.command : Archive Command 56 where
  serialize := commandImage
  access bytes :=
    if bytes.length = 56 then commandOfFields (decodeFields commandWidths bytes) else none
  access_serialize cmd := by
    rw [if_pos (length_commandImage cmd)]
    have result := commandOfFields_image cmd []
    rwa [List.append_nil] at result
  length_serialize := length_commandImage

end Teleop.Link
