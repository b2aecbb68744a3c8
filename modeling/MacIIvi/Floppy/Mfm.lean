import Mathlib.Data.BitVec
import Mathlib.Tactic.Common
import MacIIvi.Codes.Crc
import MacIIvi.Clocked.Source

/-!
# The MFM track generator

mfm_track_encoder.v: the decoded byte stream of an IBM System/34 track, made on
the fly from the logical sectors of the image. Counters are numbers that wrap
at the width of their register; the check register is a 16-bit vector.
-/

namespace MacIIvi.Mfm

/-- The states of the byte generator, in the order of their codes. -/
inductive Fsm where
  | preGap | preSync | preIam | preGap1
  | idSync | idA1 | idAm | idChrn | idCrc | gap2
  | daSync | daA1 | daAm | data | daCrc | gap3
  deriving DecidableEq, Repr

/-- `state + 1` -/
def Fsm.succ : Fsm → Fsm
  | .preGap => .preSync
  | .preSync => .preIam
  | .preIam => .preGap1
  | .preGap1 => .idSync
  | .idSync => .idA1
  | .idA1 => .idAm
  | .idAm => .idChrn
  | .idChrn => .idCrc
  | .idCrc => .gap2
  | .gap2 => .daSync
  | .daSync => .daA1
  | .daA1 => .daAm
  | .daAm => .data
  | .data => .daCrc
  | .daCrc => .gap3
  | .gap3 => .preGap

/-- `state_len_m1`: one less than the length of the state's run of bytes. -/
def lenM1 : Fsm → Nat
  | .preGap => 79
  | .preSync => 11
  | .preIam => 3
  | .preGap1 => 49
  | .idSync => 11
  | .idA1 => 2
  | .idAm => 0
  | .idChrn => 3
  | .idCrc => 1
  | .gap2 => 21
  | .daSync => 11
  | .daA1 => 2
  | .daAm => 0
  | .data => 511
  | .daCrc => 1
  | .gap3 => 107

structure Inputs where
  rst : Bool
  ready : Bool
  side : Bool
  track : BitVec 7
  hd : Bool
  idata : BitVec 8
  deriving DecidableEq, Repr

/-- The registers: `cnt` has 10 bits, `sector` 5 and `src_offset` 9. -/
structure State where
  state : Fsm
  cnt : Nat
  sector : Nat
  srcOffset : Nat
  crc : BitVec 16
  deriving DecidableEq, Repr

/-- What the encoder shows of the current byte. -/
structure Out where
  odata : BitVec 8
  omark : Bool
  ocrc0 : Bool
  oneeds : Bool
  oindex : Bool
  deriving DecidableEq, Repr

/-- `spt_max`: the last sector index. -/
def sptMax (hd : Bool) : Nat := if hd then 17 else 8

/-- `track_side` -/
def trackSide (track : BitVec 7) (side : Bool) : Nat := track.toNat * 2 + side.toNat

/-- `sector_block`, 13 bits wide -/
def sectorBlock (track : BitVec 7) (side hd : Bool) (sector : Nat) : Nat :=
  let trackSide := trackSide track side
  let blockHd := (trackSide <<< 4 + trackSide <<< 1) % 2 ^ 13
  let blockDd := (trackSide <<< 3 + trackSide) % 2 ^ 13
  ((if hd then blockHd else blockDd) + sector) % 2 ^ 13

/-- `addr` -/
def addr (s : State) (track : BitVec 7) (side hd : Bool) : Nat :=
  sectorBlock track side hd s.sector * 2 ^ 9 + s.srcOffset

/-- The check over one more byte. -/
def crc16 (c : BitVec 16) (d : BitVec 8) : BitVec 16 :=
  (List.range 8).foldl (fun cc _ => if cc.getLsbD 15 then cc <<< 1 ^^^ 0x1021#16 else cc <<< 1)
    (c ^^^ d ++ 0#8)

/-- `CRC_SEED` -/
def crcSeed : BitVec 16 := 0xCDB4

/-- The byte of the C, H, R, N field that `cnt` points to. -/
def chrn (s : State) (i : Inputs) : BitVec 8 :=
  match s.cnt % 4 with
  | 0 => 0#1 ++ i.track
  | 1 => 0#7 ++ BitVec.ofBool i.side
  | 2 => 0#3 ++ BitVec.ofNat 5 (s.sector + 1)
  | _ => 0x02

/-- The current byte. -/
def odata (s : State) (i : Inputs) : BitVec 8 :=
  match s.state with
  | .preSync | .idSync | .daSync => 0x00
  | .preGap | .preGap1 | .gap2 | .gap3 => 0x4E
  | .preIam => if s.cnt = 3 then 0xFC else 0xC2
  | .idA1 | .daA1 => 0xA1
  | .idAm => 0xFE
  | .daAm => 0xFB
  | .idChrn => chrn s i
  | .data => i.idata
  | .idCrc | .daCrc =>
    if s.cnt % 2 = 0 then s.crc.extractLsb' 8 8 else s.crc.extractLsb' 0 8

/-- `omark` -/
def omark (s : State) : Bool :=
  match s.state with
  | .idA1 | .daA1 => true
  | _ => false

/-- `ocrc0` -/
def ocrc0 (s : State) : Bool :=
  match s.state with
  | .idCrc | .daCrc => s.cnt % 2 = 1
  | _ => false

/-- The outputs, as they stand in a state under its inputs. -/
def outputs (s : State) (i : Inputs) : Out where
  odata := odata s i
  omark := omark s
  ocrc0 := ocrc0 s
  oneeds := s.state = .data
  oindex := s.state = .preGap

/-- The check register after the byte: seeded by the third A1, fed by the
address mark and what follows it. -/
def nextCrc (s : State) (i : Inputs) : BitVec 16 :=
  if (s.state = .idA1 ∨ s.state = .daA1) ∧ s.cnt = 2 then crcSeed
  else if s.state = .idAm ∨ s.state = .idChrn ∨ s.state = .daAm ∨ s.state = .data then
    crc16 s.crc (odata s i)
  else s.crc

/-- The fetch pointer after the byte. -/
def nextSrcOffset (s : State) : Nat :=
  if s.state = .data then (s.srcOffset + 1) % 2 ^ 9 else 0

/-- The byte is consumed: `state`, `cnt` and `sector` move on. -/
def advance (s : State) (i : Inputs) : State :=
  let crc := nextCrc s i
  let srcOffset := nextSrcOffset s
  if s.cnt = lenM1 s.state then
    if s.state = .gap3 then
      if s.sector = sptMax i.hd then ⟨.preGap, 0, 0, srcOffset, crc⟩
      else ⟨.idSync, 0, (s.sector + 1) % 2 ^ 5, srcOffset, crc⟩
    else ⟨s.state.succ, 0, s.sector, srcOffset, crc⟩
  else ⟨s.state, (s.cnt + 1) % 2 ^ 10, s.sector, srcOffset, crc⟩

/-- The registers out of reset. -/
def initial : State := ⟨.preGap, 0, 0, 0, crcSeed⟩

/-- One clock. -/
def step (s : State) (i : Inputs) : State :=
  if i.rst then initial else if i.ready then advance s i else s

/-- The state after a history of inputs. -/
def run (history : List Inputs) : State := history.foldl step initial

/-- A surface of the disk: the image and what the drive selects. -/
structure Surface where
  image : Nat → BitVec 8
  track : BitVec 7
  side : Bool
  hd : Bool

/-- The inputs of a pull, with the addressed byte of the image fetched. -/
def Surface.pull (d : Surface) (s : State) : Inputs where
  rst := false
  ready := true
  side := d.side
  track := d.track
  hd := d.hd
  idata := d.image (addr s d.track d.side d.hd)

/-- The stream of bytes the encoder delivers from a surface. -/
def stream (d : Surface) : Clocked.Source State Out where
  out s := outputs s (d.pull s)
  next s := step s (d.pull s)

/-! ## What one byte does -/

theorem next_stream (d : Surface) (s : State) :
    (stream d).next s = advance s (d.pull s) := rfl

/-- Inside a run of bytes only the count, the pointer and the check move. -/
theorem advance_inside {s : State} {i : Inputs} (inside : s.cnt < lenM1 s.state) :
    advance s i = ⟨s.state, s.cnt + 1, s.sector, nextSrcOffset s, nextCrc s i⟩ := by
  have short : lenM1 s.state ≤ 511 := by cases s.state <;> decide
  unfold advance
  rw [if_neg (by omega), Nat.mod_eq_of_lt (by omega)]

/-- The last byte of a run leads into the next run. -/
theorem advance_last {s : State} {i : Inputs} (last : s.cnt = lenM1 s.state)
    (more : s.state ≠ .gap3) :
    advance s i = ⟨s.state.succ, 0, s.sector, nextSrcOffset s, nextCrc s i⟩ := by
  unfold advance
  rw [if_pos last, if_neg more]

/-- The last byte of the last sector leads to the index. -/
theorem advance_index {s : State} {i : Inputs} (last : s.cnt = lenM1 s.state)
    (done : s.state = .gap3) (end_ : s.sector = sptMax i.hd) :
    advance s i = ⟨.preGap, 0, 0, nextSrcOffset s, nextCrc s i⟩ := by
  unfold advance
  rw [if_pos last, if_pos done, if_pos end_]

/-- The last byte of any other sector leads to the next one. -/
theorem advance_sector {s : State} {i : Inputs} (last : s.cnt = lenM1 s.state)
    (done : s.state = .gap3) (more : s.sector ≠ sptMax i.hd) :
    advance s i = ⟨.idSync, 0, (s.sector + 1) % 2 ^ 5, nextSrcOffset s, nextCrc s i⟩ := by
  unfold advance
  rw [if_pos last, if_pos done, if_neg more]

/-- The source's check is the one of CCITT. -/
theorem crc16_eq_feedByte (c : BitVec 16) (d : BitVec 8) :
    crc16 c d = Codes.Crc.feedByte Codes.Crc.ccittPoly c d := by
  rw [Codes.Crc.feedByte_ccitt]
  rfl

/-- The seed is the check of the three A1 bytes. -/
theorem crcSeed_eq : crcSeed = Codes.Crc.ccitt [0xA1, 0xA1, 0xA1] := by decide +kernel

/-- The address of a byte of a sector on the track. -/
theorem addr_eq (d : Surface) {s : State} (inside : s.sector < 32) :
    addr s d.track d.side d.hd =
      (trackSide d.track d.side * (sptMax d.hd + 1) + s.sector) * 512 + s.srcOffset := by
  have narrow : trackSide d.track d.side < 256 := by
    have := d.track.isLt
    have := Bool.toNat_le d.side
    unfold trackSide
    omega
  have block : sectorBlock d.track d.side d.hd s.sector =
      trackSide d.track d.side * (sptMax d.hd + 1) + s.sector := by
    unfold sectorBlock sptMax
    simp only [Nat.shiftLeft_eq]
    cases d.hd
    · simp only [Bool.false_eq_true, if_false]
      omega
    · simp only [if_true]
      omega
  unfold addr
  rw [block]
  rfl

end MacIIvi.Mfm
