import MacIIvi.Clocked.Run
import Mathlib.Data.BitVec
import Mathlib.Logic.Function.Basic
import Mathlib.Tactic.Common

/-!
# The SWIM floppy controller

Source: `rtl/swim.v`. One step of the model is one `cen` tick, the only clock
the registers below follow. A register that several statements assign keeps the
last assignment, so each next-value function lists them in source order. The
debug counters are left out: nothing reads them.
-/

namespace MacIIvi

namespace Swim

/-- What a drive shows the controller at a tick. -/
structure DriveOut where
  readData : BitVec 8 := 0xFF
  newByteReady : Bool := false
  mfmByte : BitVec 8 := 0
  mfmMark : Bool := false
  mfmCrc0 : Bool := false
  mfmStb : Bool := false
  deriving DecidableEq, Repr

/-- The pins at one tick; `rst` is `!_reset`, `uds` is `!_cpuUDS`. -/
structure In where
  rst : Bool := false
  selectSWIM : Bool := false
  uds : Bool := false
  cpuRW : Bool := true
  dataInLo : BitVec 8 := 0
  cpuAddrRegHi : BitVec 4 := 0
  driveInt : DriveOut := {}
  driveExt : DriveOut := {}
  deriving DecidableEq, Repr

/-- The IWM bit registers, its mode and its data register. -/
structure IwmRegs where
  ca0 : Bool := false
  ca1 : Bool := false
  ca2 : Bool := false
  lstrb : Bool := false
  diskEnableExt : Bool := false
  diskEnableInt : Bool := false
  selectExternalDrive : Bool := false
  q6 : Bool := false
  q7 : Bool := false
  iwmMode : BitVec 5 := 0
  writeData : BitVec 8 := 0

/-- The access latched while UDS is low. -/
structure Access where
  swimAccD : Bool := false
  accAddrL : BitVec 4 := 0
  accRwL : Bool := true
  accDataL : BitVec 8 := 0

/-- The ISM registers. -/
structure IsmRegs where
  ismMode : Bool := false
  ismModeReg : BitVec 8 := 0
  ismSetup : BitVec 8 := 0
  ismError : BitVec 8 := 0
  ismParam : Nat → BitVec 8 := fun _ => 0
  ismParamIdx : Nat := 0
  ismPhaseOe : BitVec 4 := 0
  iwmToIsmCounter : Nat := 0
  mfmSynced : Bool := false
  ismArmD : Bool := false

/-- The two-entry FIFO and the staging ring in front of it. -/
structure IsmFifo where
  pos : Nat := 0
  entry0 : BitVec 16 := 0
  entry1 : BitVec 16 := 0
  stage : Nat → BitVec 16 := fun _ => 0
  stageRd : Nat := 0
  stageWr : Nat := 0
  stageCnt : Nat := 0

/-- The IWM read-data latch. -/
structure ReadLatch where
  iwmReadD : Bool := false
  readDataLatch : BitVec 8 := 0
  readLatchClearTimer : Nat := 0
  readDataArmDelay : Nat := 0
  anyDiskEnableD : Bool := false
  deriving DecidableEq, Repr

end Swim

/-- The controller. -/
structure Swim where
  iwm : Swim.IwmRegs := {}
  acc : Swim.Access := {}
  ism : Swim.IsmRegs := {}
  fifo : Swim.IsmFifo := {}
  latch : Swim.ReadLatch := {}

namespace Swim

/-- `swim_acc` -/
def In.swimAcc (w : In) : Bool := w.selectSWIM && w.uds

variable (w : In) (s : Swim)

/-- `acc_end` -/
def accEnd : Bool := s.acc.swimAccD && !w.swimAcc

/-- The ISM register of the latched access: `acc_addr_l[2:0]`. -/
def accReg : Nat := s.acc.accAddrL.toNat % 8

/-- An ISM read, or write, of register `n` that ends at this tick. -/
def ismReads (n : Nat) : Bool := accEnd w s && s.ism.ismMode && s.acc.accRwL && accReg s == n

@[inherit_doc ismReads]
def ismWrites (n : Nat) : Bool := accEnd w s && s.ism.ismMode && !s.acc.accRwL && accReg s == n

/-- `ism_arm` -/
def ismArm : Bool := s.ism.ismMode && s.ism.ismModeReg.getLsbD 3 && !s.ism.ismModeReg.getLsbD 4

/-- `ism_read_active` -/
def readActive : Bool := ismArm s && !s.ism.ismSetup.getLsbD 2

/-- `ism_devsel_ext`: there is no external drive. -/
def ismDevselExt : Bool := false

/-- The drive whose bytes the ISM sees. -/
def In.mfmSel (w : In) : DriveOut := if ismDevselExt then w.driveExt else w.driveInt

/-- `ism_gen_word` -/
def genWord (d : DriveOut) : BitVec 16 :=
  0#5 ++ BitVec.ofBool d.mfmCrc0 ++ 0#1 ++ BitVec.ofBool d.mfmMark ++ d.mfmByte

/-- The MARK flag of an entry, `FIFO_B_MARK`. -/
def isMark (e : BitVec 16) : Bool := e.getLsbD 8

/-- `ism_pop_req` -/
def popReq : Bool := (ismReads w s 0 || ismReads w s 1) && s.ism.ismModeReg.getLsbD 3

/-- `ism_cpu_push` -/
def cpuPush : Bool := ismWrites w s 0 || ismWrites w s 1 || ismWrites w s 2

/-- `ism_cpu_word` -/
def cpuWord : BitVec 16 :=
  if accReg s = 2 then 0x0200
  else if accReg s = 1 then 1#8 ++ s.acc.accDataL
  else 0#8 ++ s.acc.accDataL

/-- `ism_gen_push` -/
def genPush : Bool := readActive s && w.mfmSel.mfmStb && (s.ism.mfmSynced || w.mfmSel.mfmMark)

/-- `stage_push` -/
def stagePush : Bool := genPush w s && s.fifo.stageCnt != 16

/-- `stage_drain` -/
def stageDrain : Bool := s.fifo.stageCnt != 0 && decide (s.fifo.pos < 2) && !accEnd w s

/-- Mode register after the clear, or set, that ends here. -/
def modeClr : BitVec 8 := s.ism.ismModeReg &&& ~~~s.acc.accDataL

@[inherit_doc modeClr]
def modeSet : BitVec 8 := s.ism.ismModeReg ||| s.acc.accDataL

/-- A mode write with a resulting CLEAR_FIFO bit. -/
def fifoClear : Bool :=
  (ismWrites w s 6 && (modeClr s).getLsbD 0) || (ismWrites w s 7 && (modeSet s).getLsbD 0)

/-- Bit 6 of an access to offset 0xF; a read counts as 0. -/
def switchBit : Bool := !s.acc.accRwL && s.acc.accDataL.getLsbD 6

/-- The access completes the pattern 1,0,1,1 that enters ISM mode. -/
def switches : Bool :=
  accEnd w s && !s.ism.ismMode && s.acc.accAddrL == 0xF && switchBit s && s.ism.iwmToIsmCounter == 3

/-- The read-arm edge. -/
def armEdge : Bool := ismArm s && !s.ism.ismArmD

namespace IsmFifo

variable (f : IsmFifo)

/-- `ism_fifo[ism_fifo_pos[0]] <= e; ism_fifo_pos <= ism_fifo_pos + 1` -/
def append (e : BitVec 16) : IsmFifo :=
  if f.pos % 2 = 0 then { f with entry0 := e, pos := (f.pos + 1) % 4 }
  else { f with entry1 := e, pos := (f.pos + 1) % 4 }

/-- A delivery into the staging ring. -/
def stagePut (e : BitVec 16) : IsmFifo :=
  { f with
    stage := Function.update f.stage f.stageWr e
    stageWr := (f.stageWr + 1) % 16
    stageCnt := (f.stageCnt + 1) % 32 }

/-- The refill of the FIFO from the oldest staged entry `e`. -/
def drain (e : BitVec 16) : IsmFifo :=
  { f.append e with stageRd := (f.stageRd + 1) % 16, stageCnt := (f.stageCnt + 31) % 32 }

/-- The pop of a FIFO that is not empty. -/
def pop : IsmFifo := { f with entry0 := f.entry1, pos := f.pos - 1 }

/-- CLEAR_FIFO, and the read-arm edge. -/
def clear : IsmFifo := { f with pos := 0, stageRd := 0, stageWr := 0, stageCnt := 0 }

end IsmFifo

/-- The FIFO after the delivery of this tick. -/
def fifoPut : IsmFifo := if stagePush w s then s.fifo.stagePut (genWord w.mfmSel) else s.fifo

/-- Then the refill, or the transaction of the access that ends here. -/
def fifoMove : IsmFifo :=
  let f := s.fifo
  let put := fifoPut w s
  if stageDrain w s then put.drain (f.stage f.stageRd)
  else if popReq w s then if f.pos ≠ 0 then put.pop else put
  else if cpuPush w s then if f.pos < 2 then put.append (cpuWord s) else put
  else put

/-- The FIFO block of the clocked process. -/
def fifoNext : IsmFifo :=
  let cleared := if fifoClear w s then (fifoMove w s).clear else fifoMove w s
  let switched := if switches w s then { cleared with pos := 0 } else cleared
  if armEdge s then switched.clear else switched

/-- `ism_error`: overrun in bit 0, a mark popped as data in bit 1, underrun and
push into a full FIFO in bit 2. -/
def errorNext : BitVec 8 :=
  let e := s.ism.ismError
  let overrun := if genPush w s && s.fifo.stageCnt == 16 then e ||| 1 else e
  let moved :=
    if popReq w s then
      if s.fifo.pos ≠ 0 then
        if accReg s = 0 ∧ isMark s.fifo.entry0 then overrun ||| 2 else overrun
      else overrun ||| 4
    else if cpuPush w s && decide (2 ≤ s.fifo.pos) then overrun ||| 4
    else overrun
  let read := if ismReads w s 2 then 0 else moved
  if switches w s then 0 else read

/-- `mfm_synced` -/
def syncedNext : Bool :=
  let hunted := s.ism.mfmSynced || (readActive s && w.mfmSel.mfmStb && w.mfmSel.mfmMark)
  if armEdge s || switches w s then false else hunted

/-- `iwm_to_ism_counter` -/
def counterNext : Nat :=
  let c := s.ism.iwmToIsmCounter
  let kept := if w.swimAcc && !s.ism.ismMode && w.cpuAddrRegHi != 0xF then 0 else c
  let left := if ismWrites w s 6 && s.acc.accDataL.getLsbD 6 then 0 else kept
  if accEnd w s && !s.ism.ismMode then
    if s.acc.accAddrL == 0xF then
      if switchBit s then
        match c with
        | 0 => 1
        | 2 => 3
        | _ => 0
      else if c = 1 then 2 else 0
    else 0
  else left

/-- The ISM registers after the tick. -/
def ismNext : IsmRegs :=
  let r := s.ism
  { ismMode :=
      if switches w s then true
      else if ismWrites w s 6 && s.acc.accDataL.getLsbD 6 then false else r.ismMode
    ismModeReg :=
      if switches w s then 0x40
      else if ismWrites w s 6 then modeClr s
      else if ismWrites w s 7 then modeSet s else r.ismModeReg
    ismSetup := if ismWrites w s 5 then s.acc.accDataL else r.ismSetup
    ismError := errorNext w s
    ismParam :=
      if ismWrites w s 3 then Function.update r.ismParam r.ismParamIdx s.acc.accDataL else r.ismParam
    ismParamIdx :=
      if switches w s || ismWrites w s 6 then 0
      else if ismWrites w s 3 || ismReads w s 3 then (r.ismParamIdx + 1) % 16 else r.ismParamIdx
    ismPhaseOe := if ismWrites w s 4 then s.acc.accDataL.extractLsb' 4 4 else r.ismPhaseOe
    iwmToIsmCounter := counterNext w s
    mfmSynced := syncedNext w s
    ismArmD := ismArm s }

/-- The combinational next state of the IWM bit registers. -/
def iwmBits : IwmRegs :=
  let r := s.iwm
  if !s.ism.ismMode && w.swimAcc then
    let v := w.cpuAddrRegHi.getLsbD 0
    match w.cpuAddrRegHi.toNat / 2 with
    | 0 => { r with ca0 := v }
    | 1 => { r with ca1 := v }
    | 2 => { r with ca2 := v }
    | 3 => { r with lstrb := v }
    | 4 => if r.selectExternalDrive then { r with diskEnableExt := v }
           else { r with diskEnableInt := v }
    | 5 => { r with selectExternalDrive := v }
    | 6 => { r with q6 := v }
    | _ => { r with q7 := v }
  else r

/-- The IWM registers after the tick; an ISM phase write drives the same lines. -/
def iwmNext : IwmRegs :=
  let r := iwmBits w s
  let written : IwmRegs :=
    if !w.cpuRW && w.swimAcc && !s.ism.ismMode && r.q7 && r.q6 then
      if s.iwm.diskEnableExt || s.iwm.diskEnableInt then { r with writeData := w.dataInLo }
      else { r with iwmMode := w.dataInLo.setWidth 5 }
    else r
  if ismWrites w s 4 then
    let d := s.acc.accDataL
    { written with
      ca0 := d.getLsbD 0, ca1 := d.getLsbD 1, ca2 := d.getLsbD 2, lstrb := d.getLsbD 3 }
  else written

def accNext : Access :=
  if w.swimAcc then
    { swimAccD := true, accAddrL := w.cpuAddrRegHi, accRwL := w.cpuRW, accDataL := w.dataInLo }
  else { s.acc with swimAccD := false }

/-- `iwmRead` -/
def iwmRead : Bool := w.cpuRW && w.swimAcc && !s.ism.ismMode

/-- `iwmReadEnd` -/
def iwmReadEnd : Bool := s.latch.iwmReadD && !iwmRead w s

/-- `anyDiskEnable` -/
def anyDiskEnable : Bool := s.iwm.diskEnableExt || s.iwm.diskEnableInt

/-- The drive whose bytes the IWM sees. -/
def iwmDrive : DriveOut := if s.iwm.selectExternalDrive then w.driveExt else w.driveInt

/-- A byte the latch takes at this tick. -/
def latches : Bool :=
  anyDiskEnable s && s.latch.readDataArmDelay == 0 && (iwmDrive w s).newByteReady

/-- The read-latch process; `iwmRead_d` has no reset. -/
def latchNext : ReadLatch :=
  let l := s.latch
  let enabling := anyDiskEnable s && !l.anyDiskEnableD
  if w.rst then
    { iwmReadD := iwmRead w s, readDataLatch := 0, readLatchClearTimer := 0
      readDataArmDelay := 0, anyDiskEnableD := false }
  else
    { iwmReadD := iwmRead w s
      anyDiskEnableD := anyDiskEnable s
      readDataArmDelay := if enabling then 0x400 else l.readDataArmDelay - 1
      readLatchClearTimer :=
        if enabling then 0
        else if iwmReadEnd w s && l.readDataLatch.getLsbD 7 then 0xD
        else l.readLatchClearTimer - 1
      readDataLatch :=
        if latches w s then (iwmDrive w s).readData
        else if l.readLatchClearTimer = 1 then 0
        else if enabling then 0 else l.readDataLatch }

/-- One tick. -/
def next : Swim :=
  if w.rst then
    { acc := {}
      iwm := {}
      ism := { ismParam := s.ism.ismParam }
      fifo := { stage := s.fifo.stage }
      latch := latchNext w s }
  else
    { iwm := iwmNext w s
      acc := accNext w s
      ism := ismNext w s
      fifo := fifoNext w s
      latch := latchNext w s }

/-- Read mux of the ISM Data and Mark registers. -/
def dataOutFifo : BitVec 8 :=
  if !s.ism.ismModeReg.getLsbD 3 || s.fifo.pos == 0 then 0xFF else s.fifo.entry0.setWidth 8

/-- Read mux of the IWM data-in register. -/
def dataOutLatch : BitVec 8 := if anyDiskEnable s then s.latch.readDataLatch else 0xFF

/-- One tick of a run: the pins and the registers before the edge. -/
abbrev Tick := In × Swim

/-- The pins are free; the registers follow them. -/
def Step (x y : Tick) : Prop := y.2 = next x.1 x.2

/-- The registers under a script of the pins. -/
def trace (start : Swim) (script : Nat → In) : Nat → Swim
  | 0 => start
  | t + 1 => next (script t) (trace start script t)

/-- The run of a script. -/
def ofScript (start : Swim) (script : Nat → In) : Clocked.Run Step where
  state t := (script t, trace start script t)
  step _ := rfl

/-- The pins at rest. -/
def quiet : In := {}

/-- One tick of an access to a register. -/
def uds (write : Bool) (reg : BitVec 4) (d : BitVec 8) : In :=
  { selectSWIM := true, uds := true, cpuRW := !write, cpuAddrRegHi := reg, dataInLo := d }

end Swim

end MacIIvi
