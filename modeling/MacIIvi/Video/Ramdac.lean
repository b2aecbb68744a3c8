import Mathlib.Data.BitVec
import Mathlib.Logic.Function.Basic
import Mathlib.Tactic.Common

/-!
# The palette controller

Source: `rtl/ariel_ramdac.sv`, the CPU side: the one-shot, the registers and port A of the
palette.
-/

namespace MacIIvi

abbrev Ramdac.Byte := BitVec 8

/-- The bus of the CPU in one clock. -/
structure DacIn where
  reset : Bool := false
  regAddr : BitVec 11 := 0
  udsN : Bool := true
  ldsN : Bool := true
  dataIn : Ramdac.Byte := 0
  we : Bool := false
  req : Bool := false
  memLatch : Bool := false
  cpuAsN : Bool := true

structure Ramdac where
  palette : Ramdac.Byte → BitVec 24
  paletteAddr : Ramdac.Byte
  colorComp : BitVec 2
  controlReg : Ramdac.Byte
  keyColor : Ramdac.Byte
  dataOut : Ramdac.Byte
  arielWritten : Bool
  paletteLatch : BitVec 24
  latchRdPend : Bool
  latchRdStage : Bool
  latchRdAddr : Ramdac.Byte
  palAQ : BitVec 24
  initActive : Bool
  initAddr : BitVec 9
  arielArmed : Bool

namespace Ramdac

inductive Register where
  | addr | palette | ctrl | keyColor
  deriving DecidableEq, Repr

/-- `byte_reg` -/
def byteReg (w : DacIn) : Register :=
  match w.regAddr.getLsbD 0, !w.ldsN with
  | false, false => .addr
  | false, true => .palette
  | true, false => .ctrl
  | true, true => .keyColor

/-! ## The initial palette -/

def initBri (i : Byte) : Byte := i.extractLsb' 0 5 ++ (0 : BitVec 3)

def initR (i : Byte) : Byte := if [0, 3, 5, 6, 7].contains (i.toNat / 32) then initBri i else 0

def initG (i : Byte) : Byte :=
  if [1, 3, 4, 6].contains (i.toNat / 32) then initBri i
  else if i.toNat / 32 = 7 then (0 : BitVec 1) ++ (initBri i).extractLsb' 1 7
  else 0

def initB (i : Byte) : Byte := if [2, 4, 5, 6].contains (i.toNat / 32) then initBri i else 0

/-! ## One clock -/

variable (w : DacIn) (s : Ramdac)

/-- A strobe that the one-shot lets through. -/
def reqStb : Bool := s.arielArmed && w.req && w.memLatch && (!w.udsN || !w.ldsN)

def armedNext : Bool :=
  if w.reset then true else if w.cpuAsN then true else if s.reqStb w then false else s.arielArmed

def palACpuWr : Bool := s.reqStb w && w.we && decide (byteReg w = .palette)

def palAWe : Bool := s.initActive || s.palACpuWr w

def palAAddr : Byte :=
  if s.initActive then s.initAddr.extractLsb' 0 8
  else if s.palACpuWr w then s.paletteAddr
  else s.latchRdAddr

/-- A component of an entry; there is no fourth one. -/
def getComp (c : BitVec 2) (x : BitVec 24) : Byte :=
  match c.toNat with
  | 0 => x.extractLsb' 16 8
  | 1 => x.extractLsb' 8 8
  | 2 => x.extractLsb' 0 8
  | _ => 0xff

def setComp (c : BitVec 2) (d : Byte) (x : BitVec 24) : BitVec 24 :=
  match c.toNat with
  | 0 => d ++ x.extractLsb' 0 16
  | 1 => x.extractLsb' 16 8 ++ d ++ x.extractLsb' 0 8
  | 2 => x.extractLsb' 8 16 ++ d
  | _ => x

def ramp (i : Byte) : BitVec 24 := initR i ++ initG i ++ initB i

def palAWdata : BitVec 24 :=
  if s.initActive then ramp (s.initAddr.extractLsb' 0 8)
  else if s.colorComp = 3 then setComp 2 w.dataIn s.paletteLatch
  else setComp s.colorComp w.dataIn s.paletteLatch

/-- The next component, and from the last one the next entry. -/
def advance : Ramdac :=
  if s.colorComp = 2 then
    { s with
      colorComp := 0
      paletteAddr := s.paletteAddr + 1
      latchRdPend := true
      latchRdAddr := s.paletteAddr + 1 }
  else { s with colorComp := s.colorComp + 1 }

/-- The refill of the latch. -/
def refill : Ramdac :=
  if s.latchRdStage then { s with paletteLatch := s.palAQ, latchRdStage := false }
  else if s.latchRdPend && !s.palAWe w then { s with latchRdStage := true, latchRdPend := false }
  else s

/-- A register write, on the registers as the refill leaves them. -/
def write (n : Ramdac) : Ramdac :=
  match byteReg w with
  | .addr =>
    { n with
      paletteAddr := w.dataIn, colorComp := 0, latchRdPend := true, latchRdAddr := w.dataIn }
  | .palette =>
    -- the component goes on top of a refill of the same clock
    { n with paletteLatch := setComp n.colorComp w.dataIn n.paletteLatch }.advance
  | .ctrl => { n with controlReg := w.dataIn }
  | .keyColor => { n with keyColor := w.dataIn }

/-- A register read. -/
def read (n : Ramdac) : Ramdac :=
  match byteReg w with
  | .addr => { n with dataOut := s.paletteAddr, colorComp := 0 }
  | .palette => { n with dataOut := getComp s.colorComp s.paletteLatch }.advance
  | .ctrl => { n with dataOut := s.controlReg }
  | .keyColor => { n with dataOut := s.keyColor }

/-- The registers. -/
def registers : Ramdac :=
  if w.reset then
    { s with
      paletteAddr := 0, colorComp := 0, controlReg := 0, arielWritten := false, keyColor := 0
      paletteLatch := 0, latchRdPend := false, latchRdStage := false, latchRdAddr := 0
      initActive := true, initAddr := 0 }
  else if s.initActive then
    { s with
      initActive := s.initActive && decide (s.initAddr ≠ 255), initAddr := s.initAddr + 1 }
  else if s.reqStb w then
    if w.we then { write w (s.refill w) with arielWritten := true }
    else s.read w (s.refill w)
  else s.refill w

/-- One clock. -/
def next : Ramdac :=
  { s.registers w with
    arielArmed := s.armedNext w
    palette :=
      if s.palAWe w then Function.update s.palette (s.palAAddr w) (s.palAWdata w) else s.palette
    palAQ := s.palette (s.palAAddr w) }

def run (s : Ramdac) (l : List DacIn) : Ramdac := l.foldl (fun s w => s.next w) s

end Ramdac

end MacIIvi
