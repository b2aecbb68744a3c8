import MacIIvi.Scsi.Cdb

/-!
# Number formats of the CD-audio engine

Source: `rtl/cd_audio.sv`, "helpers", and the HPS window contract.
-/

namespace MacIIvi

namespace CdAudio

/-- `TOC_BLK`: the HPS window of the TOC blob. -/
def tocBlk : Nat := 0x7fff0000

/-- `AUDIO_BLK`: the HPS window of raw 2352-byte frames. -/
def audioBlk : Nat := 0x40000000

/-- `bcd2bin`, in eight bits. -/
def bcd2bin (b : Byte) : Nat := b.toNat / 16 * 10 + b.toNat % 16

/-- `bin2bcd`. Each branch of the source is a twelve-bit concatenation cut to
the eight bits of the result, so the tens digit is lost. -/
def bin2bcd (v : Nat) : Byte :=
  let concat (tens low : Nat) : Byte := BitVec.ofNat 8 (tens * 256 + low)
  if 90 ≤ v then concat 9 (v - 90)
  else if 80 ≤ v then concat 8 (v - 80)
  else if 70 ≤ v then concat 7 (v - 70)
  else if 60 ≤ v then concat 6 (v - 60)
  else if 50 ≤ v then concat 5 (v - 50)
  else if 40 ≤ v then concat 4 (v - 40)
  else if 30 ≤ v then concat 3 (v - 30)
  else if 20 ≤ v then concat 2 (v - 20)
  else if 10 ≤ v then concat 1 (v - 10)
  else BitVec.ofNat 8 v

/-- `msf2lba`: BCD minutes, seconds and frames. -/
def msf2lba (m s f : Byte) : Nat := bcd2bin m * 4500 + bcd2bin s * 75 + bcd2bin f

/-- `msf2lba_std`: binary minutes, seconds and frames with the lead-in offset. -/
def msf2lbaStd (m s f : Byte) : Nat :=
  let v := m.toNat * 4500 + s.toNat * 75 + f.toNat
  if 150 ≤ v then v - 150 else 0

/-- Four bytes, the first one highest. -/
def be32 (a b c d : Byte) : Nat :=
  a.toNat * 16777216 + b.toNat * 65536 + c.toNat * 256 + d.toNat

/-- The shared minute/second/frame divider. -/
structure Divider where
  v : Nat := 0
  m : Nat := 0
  s : Nat := 0

namespace Divider

def load (v : Nat) : Divider := { v := v % 2 ^ 32 }

/-- One subtraction, or `none` when the division is finished. -/
def step (d : Divider) : Option Divider :=
  if 4500 ≤ d.v ∧ d.m ≠ 99 then some { d with v := d.v - 4500, m := (d.m + 1) % 128 }
  else if 75 ≤ d.v then some { d with v := d.v - 75, s := (d.s + 1) % 128 }
  else none

end Divider

end CdAudio

end MacIIvi
