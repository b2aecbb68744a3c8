import Mathlib.Data.BitVec
import Mathlib.Tactic.Common

/-!
# The shift register of the VIA

Source: `rtl/via6522.sv`, the serial port and what the bus does to it. Bus accesses,
the start of a transfer and the interrupt go by the enables of phi2; with an external
clock the shifts and their count go by the edges of CB1.
-/

namespace MacIIvi

namespace Via

abbrev Byte := BitVec 8

/-- The ports, the tick of timer B, and what the other registers put on `data_out` and
on CB2. -/
structure ViaIn where
  rising : Bool := false
  falling : Bool := false
  reset : Bool := false
  addr : Nat := 0
  wen : Bool := false
  ren : Bool := false
  dataIn : Byte := 0
  cb1I : Bool := true
  cb2I : Bool := true
  timerBTick : Bool := false
  otherOut : Byte := 0
  hsCb2O : Bool := true

structure SerialPort where
  acr : Byte := 0
  serialFlag : Bool := false
  dataOut : Byte := 0
  shiftReg : Byte := 0xff
  cb2ShiftOut : Bool := true
  shiftClock : Bool := true
  shiftClockD : Bool := true
  shiftTimerTick : Bool := false
  extEdgePending : Bool := false
  extFallEdgePending : Bool := false
  bitCnt : Nat := 0
  shiftActive : Bool := false
  shiftActivePrevRising : Bool := false

variable (w : ViaIn) (s : SerialPort)

namespace ViaIn

/-- An access to the shift register in a falling phase. -/
def srAccess : Bool := w.falling && (w.ren || w.wen) && w.addr == 0xa

def srWrite : Bool := w.falling && w.wen && w.addr == 0xa

def acrWrite : Bool := w.falling && w.wen && w.addr == 0xb

def ifrWrite : Bool := w.falling && w.wen && w.addr == 0xd

end ViaIn

namespace SerialPort

def shiftDir : Bool := s.acr.getLsbD 4
def shiftClkSel : Nat := s.acr.toNat / 4 % 4
def shiftModeControl : Nat := s.acr.toNat / 4 % 8
def siExtControl : Bool := s.shiftModeControl == 3
def soExtControl : Bool := s.shiftModeControl == 7
def extClockMode : Bool := s.siExtControl || s.soExtControl
def serportEn : Bool := s.shiftDir || s.shiftClkSel != 0

def shiftTickR : Bool := !s.shiftClockD && s.shiftClock
def shiftTickF : Bool := s.shiftClockD && !s.shiftClock

/-- CB2, as driven. -/
def cb2O : Bool := if s.serportEn then s.cb2ShiftOut else w.hsCb2O

def shiftPulse : Bool :=
  if !s.shiftActive then
    if s.shiftModeControl = 0 then s.shiftClock && !s.shiftClockD
    else if s.extClockMode then s.extEdgePending
    else false
  else
    match s.shiftClkSel with
    | 2 => true
    | 0 | 1 => s.shiftTimerTick
    | _ => s.extEdgePending

def serialEvent : Bool :=
  s.shiftActivePrevRising && !s.shiftActive && w.rising && s.serportEn

/-- The edges of CB1, or the internal clock. -/
def clock : SerialPort :=
  let n :=
    if s.extClockMode then
      { s with
        shiftClock := w.cb1I, shiftClockD := s.shiftClock
        extEdgePending := s.extEdgePending || s.shiftTickR
        extFallEdgePending := s.extFallEdgePending || s.shiftTickF }
    else if w.rising then
      { s with
        shiftClock :=
          if !s.shiftActive then if s.shiftModeControl = 0 then w.cb1I else true
          else if s.shiftPulse then !s.shiftClock
          else s.shiftClock
        shiftClockD := s.shiftClock }
    else s
  if w.falling then
    { n with
      shiftTimerTick := w.timerBTick
      extEdgePending := if s.extClockMode && s.extEdgePending then false else n.extEdgePending
      extFallEdgePending :=
        if s.extClockMode && s.extFallEdgePending then false else n.extFallEdgePending }
  else n

/-- `shift_reg` and `cb2_shift_out`. -/
def shifted : Byte × Bool :=
  if w.srWrite then (w.dataIn, w.dataIn.getLsbD 7)
  else if s.extClockMode then
    if s.shiftDir && s.shiftTickF then (s.shiftReg.rotateLeft 1, s.shiftReg.getLsbD 7)
    else if !s.shiftDir && s.shiftModeControl != 0 && s.shiftTickR then
      (s.shiftReg.shiftConcat w.cb2I, s.cb2ShiftOut)
    else (s.shiftReg, s.cb2ShiftOut)
  else if w.falling then
    if s.shiftDir && s.shiftTickF then (s.shiftReg.rotateLeft 1, s.shiftReg.getLsbD 7)
    else if s.shiftModeControl != 0 && !s.shiftDir && s.shiftClkSel != 3 && s.shiftTickR then
      (s.shiftReg.shiftConcat w.cb2I, s.cb2ShiftOut)
    else (s.shiftReg, s.cb2ShiftOut)
  else (s.shiftReg, s.cb2ShiftOut)

/-- An edge that counts. -/
def counts : Bool := if s.shiftDir then s.shiftTickF else s.shiftTickR

/-- `shift_active` and `bit_cnt`. -/
def activity : Bool × Nat :=
  let n :=
    if w.falling then
      if !s.shiftActive && s.shiftModeControl != 0 then
        if (w.ren || w.wen) && w.addr == 0xa then (true, 7) else (s.shiftActive, s.bitCnt)
      else if !s.extClockMode then
        if s.shiftClkSel = 0 then (s.shiftDir, s.bitCnt)
        else if s.shiftPulse && s.shiftClock then
          if s.bitCnt = 0 then (false, s.bitCnt) else (s.shiftActive, s.bitCnt - 1)
        else (s.shiftActive, s.bitCnt)
      else (s.shiftActive, s.bitCnt)
    else (s.shiftActive, s.bitCnt)
  if s.extClockMode && s.shiftActive && s.counts then
    if s.bitCnt = 0 then (false, n.2) else (n.1, s.bitCnt - 1)
  else n

/-- The flag of the shift register. -/
def flagged : Bool :=
  if w.srAccess then false
  else if w.ifrWrite then s.serialFlag && !w.dataIn.getLsbD 2
  else s.serialFlag || s.serialEvent w

/-- One clock. -/
def next : SerialPort :=
  if w.reset then
    { s with
      acr := 0, serialFlag := false, shiftReg := 0xff, cb2ShiftOut := true, shiftClock := true
      shiftClockD := true, extEdgePending := false, extFallEdgePending := false, bitCnt := 0
      shiftActive := false, shiftActivePrevRising := false
      shiftTimerTick := if w.falling then w.timerBTick else s.shiftTimerTick
      dataOut := if w.addr = 0xa then s.shiftReg else w.otherOut }
  else
    { s.clock w with
      acr := if w.acrWrite then w.dataIn else s.acr
      serialFlag := s.flagged w
      dataOut := if w.addr = 0xa then s.shiftReg else w.otherOut
      shiftReg := (s.shifted w).1
      cb2ShiftOut := (s.shifted w).2
      shiftActive := (s.activity w).1
      bitCnt := (s.activity w).2
      shiftActivePrevRising := if w.rising then s.shiftActive else s.shiftActivePrevRising }

/-- The port after these clocks. -/
def run (s : SerialPort) (ws : List ViaIn) : SerialPort := ws.foldl (fun s w => next w s) s

/-- Does this clock set the flag? -/
def sets : Bool := s.serialEvent w && !w.srAccess && !w.ifrWrite

/-- How often these clocks set the flag. -/
def events (s : SerialPort) : List ViaIn → Nat
  | [] => 0
  | w :: ws => (s.sets w).toNat + events (next w s) ws

end SerialPort

end Via

end MacIIvi
