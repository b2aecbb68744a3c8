import Mathlib.Data.BitVec
import Mathlib.Tactic.Common
import MacIIvi.Clocked.Run
import MacIIvi.Clocked.Source

/-!
# The GCR track generator

floppy_track_encoder.v: the nibbles of a Sony track, made on the fly from the
logical sectors of the image. The address register lags one clock behind the
registers it is computed from, so it stands beside them in the state.
-/

namespace MacIIvi.Gcr

/-- The states of the sector machine. -/
inductive Fsm where
  | syn0 | addr | syn1 | dhdr | dzro | dpre | data | dsum | dtrl | wait
  deriving DecidableEq, Repr

structure Inputs where
  rst : Bool
  ready : Bool
  side : Bool
  sides : Bool
  track : BitVec 7
  idata : BitVec 8
  deriving DecidableEq, Repr

/-- The registers but for `addr`. `count` has 10 bits, `sector` 4, `src_offset`
9 and `cnt` 2. -/
structure Regs where
  state : Fsm
  count : Nat
  sector : Nat
  srcOffset : Nat
  c1 : BitVec 8
  c2 : BitVec 8
  c2x : Bool
  c3 : BitVec 8
  c3x : Bool
  cnt : Nat
  nibXor0 : BitVec 8
  nibXor1 : BitVec 8
  nibXor2 : BitVec 8
  dataLatch : BitVec 8
  deriving DecidableEq, Repr

structure State where
  regs : Regs
  addr : Nat
  deriving DecidableEq, Repr

/-! ## Geometry -/

/-- `spt`: number of sectors on current track -/
def spt (track : BitVec 7) : Nat :=
  match track.toNat / 16 with
  | 0 => 12
  | 1 => 11
  | 2 => 10
  | 3 => 9
  | _ => 8

/-- `soff`: the sectors of one side on all tracks before, in 10 bits -/
def soff (track : BitVec 7) : Nat :=
  let t := track.toNat
  let trackTimes12 := (t <<< 3 + t <<< 2) % 2 ^ 10
  let trackTimes11 := (t <<< 3 + t <<< 1 + t) % 2 ^ 10
  let trackTimes10 := (t <<< 3 + t <<< 1) % 2 ^ 10
  let trackTimes9 := (t <<< 3 + t) % 2 ^ 10
  let trackTimes8 := t <<< 3
  let trackm1 := (track - 1#7).toNat
  if t = 0 then 0
  else match trackm1 / 16 with
    | 0 => trackTimes12
    | 1 => (trackTimes11 + 16) % 2 ^ 10
    | 2 => (trackTimes10 + 32 + 16) % 2 ^ 10
    | 3 => (trackTimes9 + 48 + 32 + 16) % 2 ^ 10
    | _ => (trackTimes8 + 64 + 48 + 32 + 16) % 2 ^ 10

/-- What `addr` is loaded with at every clock, 22 bits wide. -/
def addrNext (r : Regs) (side sides : Bool) (track : BitVec 7) : Nat :=
  (soff track * 2 ^ 9 + (if sides then soff track * 2 ^ 9 else 0) +
    (if side then spt track * 2 ^ 9 else 0) + (r.sector * 2 ^ 9 + r.srcOffset)) % 2 ^ 22

/-! ## The sony encoder -/

def secInTr (r : Regs) : BitVec 6 := 0#2 ++ BitVec.ofNat 4 r.sector

def trackLow (i : Inputs) : BitVec 6 := i.track.extractLsb' 0 6

def trackHi (i : Inputs) : BitVec 6 := BitVec.ofBool i.side ++ 0#4 ++ i.track.extractLsb' 6 1

def format (i : Inputs) : BitVec 6 := BitVec.ofBool i.sides ++ 0x2#5

def checksum (r : Regs) (i : Inputs) : BitVec 6 :=
  trackLow i ^^^ secInTr r ^^^ trackHi i ^^^ format i

/-- Data input to the sony encoder during address block. -/
def sonyAddrIn (r : Regs) (i : Inputs) : BitVec 6 :=
  match r.count with
  | 3 => trackLow i
  | 4 => secInTr r
  | 5 => trackHi i
  | 6 => format i
  | _ => checksum r i

/-- Data input to the sony encoder during the data checksum. -/
def sonyDsumIn (r : Regs) : BitVec 6 :=
  match r.count with
  | 0 => r.c3.extractLsb' 6 2 ++ r.c2.extractLsb' 6 2 ++ r.c1.extractLsb' 6 2
  | 1 => r.c3.extractLsb' 0 6
  | 2 => r.c2.extractLsb' 0 6
  | _ => r.c1.extractLsb' 0 6

/-- Four six bit units come out of the nibbler. -/
def nibOut (r : Regs) : BitVec 6 :=
  match r.cnt with
  | 1 => r.nibXor0.extractLsb' 0 6
  | 2 => r.nibXor1.extractLsb' 0 6
  | 3 => r.nibXor2.extractLsb' 0 6
  | _ => r.nibXor0.extractLsb' 6 2 ++ r.nibXor1.extractLsb' 6 2 ++ r.nibXor2.extractLsb' 6 2

/-- `si`: what is fed into the sony encoder -/
def si (r : Regs) (i : Inputs) : BitVec 6 :=
  match r.state with
  | .addr => sonyAddrIn r i
  | .dhdr => secInTr r
  | .dzro | .dpre | .data => nibOut r
  | .dsum => sonyDsumIn r
  | _ => 0x3F

/-- The encoder table. -/
def sonyTable : List (BitVec 8) :=
  [0x96, 0x97, 0x9A, 0x9B, 0x9D, 0x9E, 0x9F, 0xA6, 0xA7, 0xAB, 0xAC, 0xAD, 0xAE, 0xAF, 0xB2, 0xB3,
   0xB4, 0xB5, 0xB6, 0xB7, 0xB9, 0xBA, 0xBB, 0xBC, 0xBD, 0xBE, 0xBF, 0xCB, 0xCD, 0xCE, 0xCF, 0xD3,
   0xD6, 0xD7, 0xD9, 0xDA, 0xDB, 0xDC, 0xDD, 0xDE, 0xDF, 0xE5, 0xE6, 0xE7, 0xE9, 0xEA, 0xEB, 0xEC,
   0xED, 0xEE, 0xEF, 0xF2, 0xF3, 0xF4, 0xF5, 0xF6, 0xF7, 0xF9, 0xFA, 0xFB, 0xFC, 0xFD, 0xFE, 0xFF]

def sonyToDiskByte (si : BitVec 6) : BitVec 8 := sonyTable.getD si.toNat 0xFF

/-- The current nibble. -/
def odata (r : Regs) (i : Inputs) : BitVec 8 :=
  match r.state with
  | .addr =>
    match r.count with
    | 0 => 0xD5
    | 1 => 0xAA
    | 2 => 0x96
    | 8 => 0xDE
    | 9 => 0xAA
    | _ => sonyToDiskByte (si r i)
  | .dhdr =>
    match r.count with
    | 0 => 0xD5
    | 1 => 0xAA
    | 2 => 0xAD
    | _ => sonyToDiskByte (si r i)
  | .dzro | .dpre | .data | .dsum => sonyToDiskByte (si r i)
  | .dtrl =>
    match r.count with
    | 0 => 0xDE
    | 1 => 0xAA
    | _ => 0xFF
  | .syn0 | .syn1 | .wait => 0xFF

/-! ## The nibbler -/

/-- Requests an input byte, four nibbles ahead of the output. -/
def strobe (r : Regs) : Bool :=
  (r.state = .dpre ∨ r.state = .data ∧ r.count < 683 - 4 - 1) ∧ r.cnt ≠ 3

/-- A sum of nine bits: the carry and the byte. -/
def sum9 (x y : BitVec 8) (carry : Bool) : Bool × BitVec 8 :=
  let s : BitVec 9 := (0#1 ++ x) + (0#1 ++ y) + (0#8 ++ BitVec.ofBool carry)
  (s.msb, s.extractLsb' 0 8)

/-- The nibbler's registers after a nibble. Its input is the latched byte; the
zero of the state DZRO is never fed, as the nibbler rests there. -/
def nibble (r : Regs) : Regs :=
  let nibIn := if r.state = .dzro then 0x00 else r.dataLatch
  let rotated := r.c1.extractLsb' 0 7 ++ r.c1.extractLsb' 7 1
  let cnt := (r.cnt + 1) % 4
  if r.count < 683 - 4 then
    match r.cnt with
    | 1 =>
      let (c3x, c3) := sum9 r.c3 nibIn r.c1.msb
      { r with cnt, c1 := rotated, c3x, c3, nibXor0 := nibIn ^^^ rotated }
    | 2 =>
      let (c2x, c2) := sum9 r.c2 nibIn r.c3x
      { r with cnt, c2x, c2, c3x := false, nibXor1 := nibIn ^^^ r.c3 }
    | 3 =>
      { r with cnt, c1 := r.c1 + nibIn + (0#7 ++ BitVec.ofBool r.c2x), c2x := false
               nibXor2 := nibIn ^^^ r.c2 }
    | _ => { r with cnt }
  else if r.cnt = 3 then { r with cnt, nibXor2 := 0x00 }
  else { r with cnt }

/-- `nibbler_reset` -/
def nibblerReset (r : Regs) : Regs :=
  { r with c1 := 0, c2 := 0, c2x := false, c3 := 0, c3x := false, cnt := 0
           nibXor0 := 0, nibXor1 := 0, nibXor2 := 0 }

/-! ## The sector machine -/

/-- An interleave of 2. -/
def nextSector (track : BitVec 7) (sector : Nat) : Nat :=
  if sector = spt track - 2 ∨ sector = spt track - 1 then (sector + 1) % 2
  else (sector + 2) % 2 ^ 4

/-- A state's count to its last nibble, and the state after it. -/
def run (r : Regs) (last : Nat) (next : Fsm) : Regs :=
  if r.count = last then { r with state := next, count := 0 }
  else { r with count := (r.count + 1) % 2 ^ 10 }

/-- `count`, `state`, `sector` and `src_offset` after a nibble. -/
def sequence (r : Regs) (track : BitVec 7) : Regs :=
  let r := if strobe r then { r with srcOffset := (r.srcOffset + 1) % 2 ^ 9 } else r
  match r.state with
  | .syn0 => run r 55 .addr
  | .addr => run r 9 .syn1
  | .syn1 => run r 4 .dhdr
  | .dhdr => run r 3 .dzro
  | .dzro => run r 11 .dpre
  | .dpre => run r 3 .data
  | .data => run r 682 .dsum
  | .dsum => run r 3 .dtrl
  | .dtrl => run r 2 .wait
  | .wait => { r with count := 0, state := .syn0, srcOffset := 0, sector := nextSector track r.sector }

/-- The registers after a nibble, but for the reset of the nibbler. All of them
are loaded at once, so the sector machine and the nibbler both see the old
values. -/
def advance (r : Regs) (i : Inputs) : Regs :=
  let next := sequence r i.track
  let fed := if r.state = .dpre ∨ r.state = .data then nibble r else r
  { fed with
    state := next.state, count := next.count, sector := next.sector, srcOffset := next.srcOffset
    dataLatch := if strobe r then i.idata else r.dataLatch }

/-- The registers after a clock. The reset of the nibbler acts on entry to the
data header. -/
def stepRegs (r : Regs) (i : Inputs) : Regs :=
  let next :=
    if i.rst then { r with count := 0, state := .syn0, sector := 0, srcOffset := 0 }
    else if i.ready then advance r i
    else r
  if next.state = .dhdr then nibblerReset next else next

/-- One clock. -/
def step (s : State) (i : Inputs) : State where
  regs := stepRegs s.regs i
  addr := addrNext s.regs i.side i.sides i.track

/-! ## Pulls -/

/-- A side of a disk: the image and what the drive selects. -/
structure Surface where
  image : Nat → BitVec 8
  track : BitVec 7
  side : Bool
  sides : Bool

/-- The inputs of a clock that enables the encoder, with the byte at `addr`
fetched. -/
def Surface.enable (d : Surface) (idata : BitVec 8) : Inputs where
  rst := false
  ready := true
  side := d.side
  sides := d.sides
  track := d.track
  idata := idata

/-- The address that the registers ask for. -/
def Surface.wanted (d : Surface) (r : Regs) : Nat := addrNext r d.side d.sides d.track

/-- The nibbles the encoder delivers, when the byte it asks for is there at
every pull. -/
def stream (d : Surface) : Clocked.Source Regs (BitVec 8) where
  out r := odata r (d.enable (d.image (d.wanted r)))
  next r := stepRegs r (d.enable (d.image (d.wanted r)))

end MacIIvi.Gcr
