import Mathlib.Data.BitVec
import Mathlib.Logic.Function.Basic
import Mathlib.Tactic.Common

/-!
# The ADB keyboard and mouse

Source: `rtl/adb_device.sv`. The Egret bit-bangs the single ADB line. The device
times the phases of the line, decodes the commands, answers a Talk with the cells of
a two-byte response and takes a new address from a Listen to register 3. Scan codes
are decoded into a ring of eight bytes; a mouse packet sets the movement to report.
-/

namespace MacIIvi

namespace Adb

abbrev Byte := BitVec 8

/-- `st`. -/
inductive LState where
  | idle | attn | bits | tstop | t1t | send | lrxWait | lrxStart | lrxBits | lrxDone | srq
  deriving DecidableEq, Repr

/-- The ports. -/
structure DeviceIn where
  reset : Bool := false
  hostLine : Bool := true
  ps2Key : BitVec 11 := 0
  ps2Mouse : BitVec 25 := 0

def tAttn : Nat := 3000
def dShort : Nat := 340
def dLong : Nat := 600
def dT1t : Nat := 1200
def dSrq : Nat := 2700
def addrKbd : Nat := 2
def addrMouse : Nat := 3

/-- The PS/2 keyboard synchronizer and the decoder. -/
structure KeySync where
  kstbS1 : Bool
  kstbS2 : Bool
  kstbS3 : Bool
  kstbD : Bool
  keyRawS1 : BitVec 10 := 0
  keyRawS2 : BitVec 10 := 0
  keyData : Byte := 0x7f
  keyPending : Bool := false
  capslock : Bool := false

/-- The PS/2 mouse synchronizer. -/
structure MouseSync where
  mstbS1 : Bool
  mstbS2 : Bool
  mstbS3 : Bool
  mstbD : Bool
  mXS1 : BitVec 9 := 0
  mXS2 : BitVec 9 := 0
  mYS1 : BitVec 9 := 0
  mYS2 : BitVec 9 := 0
  mBtnS1 : Bool := false
  mBtnS2 : Bool := false

/-- The movement to report. -/
structure Mouse where
  mouseX : BitVec 7 := 0
  mouseY : BitVec 7 := 0
  mouseButton : Bool := false
  mouseEvt : Bool := false

/-- The durations of the phases of the line. -/
structure Phases where
  hlD : Bool := true
  dur : Nat := 0
  lowDur : Nat := 0

/-- The registers of the line state machine. -/
structure Line where
  st : LState := .idle
  devLine : Bool := true
  command : Nat := 0
  bitcnt : Nat := 0
  kbdAddr : Nat := addrKbd
  mouseAddr : Nat := addrMouse
  respLen : Nat := 0
  resp0 : Byte := 0
  resp1 : Byte := 0
  sendtmr : Nat := 0
  sendStage : Nat := 0
  sendSr : Byte := 0
  sendBits : Nat := 0
  sendByte : Nat := 0
  curBit : Bool := false
  lrxSr : Nat := 0
  lrxTarget : Bool := false

structure Device where
  key : KeySync
  msync : MouseSync
  kbdFifo : Nat → Byte
  kbdFifoWr : Nat := 0
  kbdFifoRd : Nat := 0
  mouse : Mouse := {}
  mouseInit : Bool := true
  phase : Phases := {}
  line : Line := {}

/-- Scan Code Set 2 to ADB key codes; every other code is `0x7f`. -/
def keyTable : List (Nat × Nat) :=
  [(0x001, 0x65), (0x003, 0x60), (0x004, 0x63), (0x005, 0x7a), (0x006, 0x78), (0x009, 0x6d),
    (0x00a, 0x64), (0x00b, 0x61), (0x00c, 0x76), (0x00d, 0x30), (0x00e, 0x32), (0x011, 0x37),
    (0x012, 0x38), (0x014, 0x36), (0x015, 0x0c), (0x016, 0x12), (0x01a, 0x06), (0x01b, 0x01),
    (0x01c, 0x00), (0x01d, 0x0d), (0x01e, 0x13), (0x021, 0x08), (0x022, 0x07), (0x023, 0x02),
    (0x024, 0x0e), (0x025, 0x15), (0x026, 0x14), (0x029, 0x31), (0x02a, 0x09), (0x02b, 0x03),
    (0x02c, 0x11), (0x02d, 0x0f), (0x02e, 0x17), (0x031, 0x2d), (0x032, 0x0b), (0x033, 0x04),
    (0x034, 0x05), (0x035, 0x10), (0x036, 0x16), (0x03a, 0x2e), (0x03b, 0x26), (0x03c, 0x20),
    (0x03d, 0x1a), (0x03e, 0x1c), (0x041, 0x2b), (0x042, 0x28), (0x043, 0x22), (0x044, 0x1f),
    (0x045, 0x1d), (0x046, 0x19), (0x049, 0x2f), (0x04a, 0x2c), (0x04b, 0x25), (0x04c, 0x29),
    (0x04d, 0x23), (0x04e, 0x1b), (0x052, 0x27), (0x054, 0x21), (0x055, 0x18), (0x058, 0x39),
    (0x059, 0x7b), (0x05a, 0x24), (0x05b, 0x1e), (0x05d, 0x2a), (0x066, 0x33), (0x069, 0x53),
    (0x06b, 0x56), (0x06c, 0x59), (0x070, 0x52), (0x071, 0x41), (0x072, 0x54), (0x073, 0x57),
    (0x074, 0x58), (0x075, 0x5b), (0x076, 0x35), (0x077, 0x47), (0x078, 0x67), (0x079, 0x45),
    (0x07a, 0x55), (0x07b, 0x4e), (0x07c, 0x43), (0x07d, 0x5c), (0x083, 0x62), (0x111, 0x37),
    (0x11f, 0x3a), (0x14a, 0x4b), (0x15a, 0x4c), (0x169, 0x77), (0x16b, 0x3b), (0x16c, 0x73),
    (0x170, 0x72), (0x171, 0x75), (0x172, 0x3d), (0x174, 0x3c), (0x175, 0x3e), (0x17a, 0x79),
    (0x17c, 0x69), (0x17d, 0x74), (0x17e, 0x71)]

def keyCode (keySc : BitVec 9) : BitVec 7 :=
  BitVec.ofNat 7 ((keyTable.lookup keySc.toNat).getD 0x7f)

/-! ### The synchronizers -/

namespace KeySync

variable (w : DeviceIn) (s : KeySync)

def keyEdge : Bool := s.kstbS3 != s.kstbD

def keySc : BitVec 9 := s.keyRawS2.extractLsb' 0 9

def press : Bool := s.keyRawS2.getLsbD 9

def capslockKey : Bool := s.keySc == 0x58

/-- What the decoder writes on an edge. -/
def decoded : Byte := BitVec.ofBool (!s.press) ++ keyCode s.keySc

def next : KeySync :=
  let n :=
    { s with
      kstbS1 := w.ps2Key.getLsbD 10, kstbS2 := s.kstbS1, kstbS3 := s.kstbS2
      keyRawS1 := w.ps2Key.extractLsb' 0 10, keyRawS2 := s.keyRawS1, keyPending := false }
  if s.keyEdge then
    { n with
      kstbD := s.kstbS3, keyPending := true, keyData := s.decoded
      capslock := if s.capslockKey && s.press then !s.capslock else s.capslock }
  else n

/-- A decoded key goes into the ring. -/
def pushes : Bool := s.keyPending && s.keyData.extractLsb' 0 7 != 0x7f

end KeySync

namespace MouseSync

variable (w : DeviceIn) (s : MouseSync)

def mouseEdge : Bool := s.mstbS3 != s.mstbD

def next : MouseSync :=
  { s with
    mstbS1 := w.ps2Mouse.getLsbD 24, mstbS2 := s.mstbS1, mstbS3 := s.mstbS2
    mXS1 := BitVec.ofBool (w.ps2Mouse.getLsbD 4) ++ w.ps2Mouse.extractLsb' 8 8, mXS2 := s.mXS1
    mYS1 := BitVec.ofBool (w.ps2Mouse.getLsbD 5) ++ w.ps2Mouse.extractLsb' 16 8, mYS2 := s.mYS1
    mBtnS1 := w.ps2Mouse.getLsbD 0, mBtnS2 := s.mBtnS1
    mstbD := if s.mouseEdge then s.mstbS3 else s.mstbD }

end MouseSync

/-- The clamp of the X delta. -/
def clampX (m : BitVec 9) : BitVec 7 :=
  if !m.getLsbD 8 && (m.getLsbD 7 || m.getLsbD 6) then 0x3f
  else if m.getLsbD 8 && !m.getLsbD 6 then 0x40
  else m.extractLsb' 0 7

/-- The clamp of the Y delta, with the sign reversed. -/
def clampY (m : BitVec 9) : BitVec 7 :=
  if !m.getLsbD 8 && (m.getLsbD 7 || m.getLsbD 6) then 0x40
  else if m.getLsbD 8 && !m.getLsbD 6 then 0x3f
  else -m.extractLsb' 0 7

namespace MouseSync

/-- The packet moves the mouse or the button. -/
def counts (s : MouseSync) (m : Mouse) : Bool :=
  s.mouseEdge && (s.mXS2 != 0 || s.mYS2 != 0 || s.mBtnS2 != m.mouseButton)

/-- The update by a packet. -/
def update (s : MouseSync) (m : Mouse) : Mouse :=
  if s.counts m then
    { mouseX := clampX s.mXS2, mouseY := clampY s.mYS2, mouseButton := s.mBtnS2, mouseEvt := true }
  else m

end MouseSync

/-! ### The line -/

namespace Phases

variable (host : Bool) (s : Phases)

def fall : Bool := s.hlD && !host

def rise : Bool := !s.hlD && host

/-- The bit that a fall samples. -/
def bit : Bool := decide (s.lowDur < s.dur)

def attention : Bool := s.rise host && decide (tAttn < s.dur)

def next : Phases where
  hlD := host
  dur := if s.fall host || s.rise host then 0 else if s.dur ≠ 2 ^ 18 - 1 then s.dur + 1 else s.dur
  lowDur := if s.rise host then s.dur else s.lowDur

end Phases

namespace Line

variable (s : Line)

def cmdAddr : Nat := s.command / 16
def cmdType : Nat := s.command / 4 % 4
def cmdReg : Nat := s.command % 4

/-- The response registers with a two-byte answer. -/
def answer (n : Line) (b0 b1 : Byte) : Line := { n with resp0 := b0, resp1 := b1, respLen := 2 }

/-- To the response gap. -/
def gap (n : Line) : Line := { n with st := .t1t, sendtmr := dT1t, devLine := true }

/-- An attention. -/
def resync (n : Line) : Line := { n with st := .attn, command := 0, bitcnt := 0 }

/-- `S_SEND`. -/
def stepSend : Line :=
  if s.sendtmr ≠ 0 then { s with sendtmr := s.sendtmr - 1 }
  else
    match s.sendStage with
    | 0 => { s with devLine := true, sendtmr := dLong, sendStage := 1 }
    | 1 =>
      { s with
        curBit := s.sendSr.getLsbD 7, devLine := false
        sendtmr := if s.sendSr.getLsbD 7 then dShort else dLong, sendStage := 2 }
    | 2 =>
      { s with devLine := true, sendtmr := if s.curBit then dLong else dShort, sendStage := 3 }
    | 3 =>
      if s.sendBits = 1 then
        if (s.sendByte + 1) % 4 < s.respLen then
          { s with
            sendByte := (s.sendByte + 1) % 4, sendSr := s.resp1, sendBits := 8
            curBit := s.resp1.getLsbD 7, devLine := false
            sendtmr := if s.resp1.getLsbD 7 then dShort else dLong, sendStage := 2 }
        else { s with devLine := false, sendtmr := dShort, sendStage := 4 }
      else
        { s with
          sendSr := s.sendSr <<< 1, sendBits := (s.sendBits + 15) % 16
          curBit := s.sendSr.getLsbD 6, devLine := false
          sendtmr := if s.sendSr.getLsbD 6 then dShort else dLong, sendStage := 2 }
    | 4 => { s with devLine := true, sendtmr := dLong, sendStage := 5 }
    | _ => { s with devLine := true, st := .idle }

/-- `S_T1T`. -/
def stepT1t : Line :=
  if s.sendtmr ≠ 0 then { s with sendtmr := s.sendtmr - 1 }
  else if s.respLen = 0 then { s with st := .idle, devLine := true }
  else
    { s with
      st := .send, sendStage := 0, sendByte := 0, sendSr := s.resp0, sendBits := 8
      devLine := false, sendtmr := dShort }

/-- `S_SRQ`. -/
def stepSrq : Line :=
  if s.sendtmr ≠ 0 then { s with sendtmr := s.sendtmr - 1 }
  else { s with devLine := true, st := .t1t, sendtmr := dT1t }

/-- The payload of a register 3 packet is a valid relocation. -/
def relocates : Bool := decide (s.lrxSr % 256 ≠ 255) && decide (s.lrxSr / 256 % 16 ≠ 0)

/-- `S_LRX_DONE`. -/
def stepLrxDone : Line :=
  { s with
    mouseAddr := if s.relocates && s.lrxTarget then s.lrxSr / 256 % 16 else s.mouseAddr
    kbdAddr := if s.relocates && !s.lrxTarget then s.lrxSr / 256 % 16 else s.kbdAddr
    st := .idle, devLine := true }

/-- The states that only look at the line. -/
def step (p : Phases) (host : Bool) : Line :=
  match s.st with
  | .idle =>
    if p.attention host then { s with devLine := true }.resync else { s with devLine := true }
  | .attn => if p.fall host then { s with st := .bits, command := 0, bitcnt := 0 } else s
  | .bits =>
    if p.fall host then
      { s with
        command := (2 * s.command + p.bit.toNat) % 256, bitcnt := (s.bitcnt + 1) % 16
        st := if s.bitcnt = 7 then .tstop else .bits }
    else s
  | .tstop => s
  | .t1t => s.stepT1t
  | .send => s.stepSend
  | .lrxWait =>
    if p.attention host then s.resync else if p.fall host then { s with st := .lrxStart } else s
  | .lrxStart =>
    if p.attention host then s.resync
    else if p.fall host then { s with st := .lrxBits, bitcnt := 0 }
    else s
  | .lrxBits =>
    if p.attention host then s.resync
    else if p.fall host then
      { s with
        lrxSr := (2 * s.lrxSr + p.bit.toNat) % 65536, bitcnt := (s.bitcnt + 1) % 16
        st := if s.bitcnt = 15 then .lrxDone else .lrxBits }
    else s
  | .lrxDone => s.stepLrxDone
  | .srq => s.stepSrq

end Line

namespace Device

variable (w : DeviceIn) (s : Device)

def kbdFifoEmpty : Bool := s.kbdFifoRd == s.kbdFifoWr

/-- A Service Request is due. -/
def srqWant : Bool :=
  (s.mouse.mouseEvt && s.line.cmdAddr != s.line.mouseAddr) ||
    (!s.kbdFifoEmpty && s.line.cmdAddr != s.line.kbdAddr)

/-- The command is over: a Service Request or the response gap. -/
def over_ (n : Device) : Device :=
  if s.srqWant then
    { n with line := { n.line with devLine := false, sendtmr := dSrq, st := .srq } }
  else { n with line := n.line.gap }

/-- Talk to the keyboard. -/
def talkKbd (n : Device) : Device :=
  match s.line.cmdReg with
  | 3 => { n with line := n.line.answer (0b0110#4 ++ BitVec.ofNat 4 s.line.kbdAddr) 0x02 }
  | 2 => { n with line := n.line.answer 0xff 0xff }
  | 0 =>
    if !s.kbdFifoEmpty then
      if (s.kbdFifoRd + 1) % 8 ≠ s.kbdFifoWr then
        { n with
          line := n.line.answer (s.kbdFifo s.kbdFifoRd) (s.kbdFifo ((s.kbdFifoRd + 1) % 8))
          kbdFifoRd := (s.kbdFifoRd + 2) % 8 }
      else
        { n with
          line := n.line.answer (s.kbdFifo s.kbdFifoRd) 0xff
          kbdFifoRd := (s.kbdFifoRd + 1) % 8 }
    else n
  | _ => n

/-- Talk to the mouse. -/
def talkMouse (n : Device) : Device :=
  match s.line.cmdReg with
  | 3 => { n with line := n.line.answer (0b0110#4 ++ BitVec.ofNat 4 s.line.mouseAddr) 0x01 }
  | 0 =>
    if s.mouse.mouseEvt then
      { n with
        line :=
          n.line.answer (BitVec.ofBool (!s.mouse.mouseButton) ++ s.mouse.mouseY)
            (BitVec.ofBool true ++ s.mouse.mouseX)
        mouse := { n.mouse with mouseEvt := false, mouseX := 0, mouseY := 0 } }
    else if s.mouseInit then
      { n with line := n.line.answer 0x80 0x80, mouseInit := false }
    else n
  | _ => n

/-- Talk. -/
def talk (n : Device) : Device :=
  if s.line.cmdAddr = s.line.kbdAddr then s.talkKbd n
  else if s.line.cmdAddr = s.line.mouseAddr then s.talkMouse n
  else n

/-- SendReset. -/
def isReset : Bool := s.line.cmdType == 0 && s.line.cmdReg == 0

/-- Listen to register 3 of one of the devices. -/
def isListen : Bool :=
  s.line.cmdType == 2 && s.line.cmdReg == 3 &&
    (s.line.cmdAddr == s.line.kbdAddr || s.line.cmdAddr == s.line.mouseAddr)

def isTalk : Bool := s.line.cmdType == 3

/-- `S_TSTOP` at the end of the stop bit. `n` has the other registers' new values. -/
def stop (n : Device) : Device :=
  let n := { n with line := { n.line with respLen := 0 } }
  if s.isReset then
    { n with
      mouseInit := true
      line := { n.line with kbdAddr := addrKbd, mouseAddr := addrMouse }.gap }
  else if s.isListen then
    { n with
      line :=
        { n.line with
          lrxTarget := s.line.cmdAddr == s.line.mouseAddr, lrxSr := 0, bitcnt := 0
          st := .lrxWait, devLine := true } }
  else if s.isTalk then s.over_ (s.talk n)
  else s.over_ n

/-- The state after a reset, which leaves the ring's memory alone. -/
def reset (fifo : Nat → Byte) : Device where
  key :=
    { kstbS1 := w.ps2Key.getLsbD 10, kstbS2 := w.ps2Key.getLsbD 10
      kstbS3 := w.ps2Key.getLsbD 10, kstbD := w.ps2Key.getLsbD 10 }
  msync :=
    { mstbS1 := w.ps2Mouse.getLsbD 24, mstbS2 := w.ps2Mouse.getLsbD 24
      mstbS3 := w.ps2Mouse.getLsbD 24, mstbD := w.ps2Mouse.getLsbD 24 }
  kbdFifo := fifo

/-- The stop bit of a command ends. -/
def stops : Bool := s.line.st == .tstop && s.phase.rise w.hostLine

/-- A clock without a stop bit. -/
def free : Device :=
  { s with
    key := s.key.next w, msync := s.msync.next w, phase := s.phase.next w.hostLine
    kbdFifo :=
      if s.key.pushes then Function.update s.kbdFifo s.kbdFifoWr s.key.keyData else s.kbdFifo
    kbdFifoWr := if s.key.pushes then (s.kbdFifoWr + 1) % 8 else s.kbdFifoWr
    mouse := s.msync.update s.mouse
    line := s.line.step s.phase w.hostLine }

/-- One clock. -/
def next : Device :=
  if w.reset then reset w s.kbdFifo
  else if s.stops w then s.stop (s.free w)
  else s.free w

/-- The device `t` clocks after the reset in the clock of `w`. -/
def after (w : DeviceIn) (fifo : Nat → Byte) (ins : Nat → DeviceIn) : Nat → Device
  | 0 => reset w fifo
  | t + 1 => next (ins t) (after w fifo ins t)

end Device

end Adb

end MacIIvi
