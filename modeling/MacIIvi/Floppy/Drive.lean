import MacIIvi.Clocked.Run
import MacIIvi.Floppy.Gcr
import MacIIvi.Floppy.Mfm

/-!
# The floppy drive's fetch and delivery

floppy.v: the latch of the image bytes, the delivery of MFM bytes by the
byte-cell timer, the delivery of GCR nibbles by the byte timer, and both track
generators, under the two enables that addrController_top.v derives from its
phase counter. The image is served in slots of the bus.
-/

namespace MacIIvi.Floppy

/-- What does not change while a track is read. -/
structure Media where
  image : Nat → BitVec 8
  track : BitVec 7
  side : Bool
  sides : Bool
  hd : Bool
  mfmDisk : Bool

/-- The inputs of a clock. `motorOn` stands for the motor terms of
`mfm_spinning`. -/
structure Inputs where
  cen : Bool
  cep : Bool
  dskReadAck : Bool
  dskReadData : BitVec 8
  motorOn : Bool
  advanceDriveHead : Bool
  deriving DecidableEq, Repr

structure State where
  dskReadAckD : Bool
  dskReadDataLatch : BitVec 8
  menc : Mfm.State
  mfmReadyPulse : Bool
  mfmFresh : Bool
  mfmAckSkip : Bool
  mfmTimer : Nat
  mfmStb : Bool
  mfmByte : BitVec 8
  mfmMark : Bool
  mfmCrc0 : Bool
  enc : Gcr.State
  oldNewByteReady : Bool
  newByteReady : Bool
  diskDataByteTimer : Nat
  diskImageData : BitVec 8
  diskDataIn : BitVec 8
  readyToAdvanceHead : Bool
  deriving DecidableEq, Repr

/-- `dskReadAddr` -/
def dskReadAddr (m : Media) (s : State) : Nat :=
  if m.mfmDisk then Mfm.addr s.menc m.track m.side m.hd else s.enc.addr

/-- The inputs of the MFM encoder. -/
def mencInputs (m : Media) (s : State) : Mfm.Inputs where
  rst := false
  ready := s.mfmReadyPulse
  side := m.side
  track := m.track
  hd := m.hd
  idata := s.dskReadDataLatch

/-- `~old_newByteReady & newByteReady` -/
def encReady (s : State) : Bool := !s.oldNewByteReady && s.newByteReady

/-- The inputs of the GCR encoder. -/
def encInputs (m : Media) (s : State) : Gcr.Inputs where
  rst := false
  ready := encReady s
  side := m.side
  sides := m.sides
  track := m.track
  idata := s.dskReadDataLatch

/-- `mfm_period` -/
def mfmPeriod (m : Media) : Nat := if m.hd then 129 else 259

/-- `mfm_spinning` -/
def mfmSpinning (m : Media) (i : Inputs) : Bool := m.mfmDisk && i.motorOn

/-- The MFM byte is delivered at this tick. -/
def mfmDelivers (m : Media) (s : State) (i : Inputs) : Bool :=
  i.cep && mfmSpinning m i && s.mfmTimer = 0 &&
    (!(Mfm.outputs s.menc (mencInputs m s)).oneeds || s.mfmFresh)

/-- The GCR nibble is delivered at this tick. -/
def gcrDelivers (s : State) (i : Inputs) : Bool :=
  i.cep && s.diskDataByteTimer = 0 && s.readyToAdvanceHead && s.diskImageData ≠ 0

/-- The byte-cell block: what it makes of its registers. -/
def mfmStep (m : Media) (s : State) (i : Inputs) : State :=
  let out := Mfm.outputs s.menc (mencInputs m s)
  let s' := { s with mfmReadyPulse := false }
  if i.cep then
    let s' := { s' with mfmStb := false }
    let s' :=
      if s.dskReadAckD then
        if s.mfmAckSkip then { s' with mfmAckSkip := false } else { s' with mfmFresh := true }
      else s'
    if !mfmSpinning m i then { s' with mfmTimer := mfmPeriod m }
    else if s.mfmTimer ≠ 0 then { s' with mfmTimer := s.mfmTimer - 1 }
    else if !out.oneeds || s.mfmFresh then
      -- the assignments of the delivery override those of the acknowledge
      { s' with
        mfmByte := out.odata, mfmMark := out.omark, mfmCrc0 := out.ocrc0, mfmStb := true
        mfmReadyPulse := true, mfmFresh := false, mfmAckSkip := true, mfmTimer := mfmPeriod m }
    else s'
  else s'

/-- The byte timer block: what it makes of its registers. -/
def gcrStep (m : Media) (s : State) (i : Inputs) : State :=
  if i.cep then
    if s.diskDataByteTimer = 0 ∧ s.readyToAdvanceHead ∧ s.diskImageData ≠ 0 then
      { s with
        diskDataIn := s.diskImageData, newByteReady := true, diskDataByteTimer := 1
        diskImageData := 0, readyToAdvanceHead := true }
    else
      { s with
        diskDataByteTimer := (s.diskDataByteTimer + 1) % 2 ^ 7
        newByteReady := false
        diskImageData :=
          if i.dskReadAck then Gcr.odata s.enc.regs (encInputs m s) else s.diskImageData
        readyToAdvanceHead := s.readyToAdvanceHead || i.advanceDriveHead }
  else s

/-- One clock. All blocks see the old registers. -/
def step (m : Media) (s : State) (i : Inputs) : State :=
  let mfm := mfmStep m s i
  let gcr := gcrStep m s i
  { dskReadAckD := if i.cen then i.dskReadAck else s.dskReadAckD
    dskReadDataLatch := if i.cep && s.dskReadAckD then i.dskReadData else s.dskReadDataLatch
    menc := Mfm.step s.menc (mencInputs m s)
    mfmReadyPulse := mfm.mfmReadyPulse
    mfmFresh := mfm.mfmFresh
    mfmAckSkip := mfm.mfmAckSkip
    mfmTimer := mfm.mfmTimer
    mfmStb := mfm.mfmStb
    mfmByte := mfm.mfmByte
    mfmMark := mfm.mfmMark
    mfmCrc0 := mfm.mfmCrc0
    enc := Gcr.step s.enc (encInputs m s)
    oldNewByteReady := s.newByteReady
    newByteReady := gcr.newByteReady
    diskDataByteTimer := gcr.diskDataByteTimer
    diskImageData := gcr.diskImageData
    diskDataIn := gcr.diskDataIn
    readyToAdvanceHead := gcr.readyToAdvanceHead }

/-! ## The bus -/

/-- What the drive meets: which bus cycles are slots of the drive, at which of
its four clocks a slot's command is issued, and the other inputs. Clock `0` has
phase `phase % 4`. -/
structure Env extends Media where
  phase : Nat
  slot : Nat → Bool
  issue : Nat → Fin 4
  motorOn : Nat → Bool
  advanceDriveHead : Nat → Bool

namespace Env

variable (v : Env)

/-- `busPhase` -/
def busPhase (t : Nat) : Nat := (v.phase + t) % 4

/-- The bus cycle a clock belongs to. -/
def cycle (t : Nat) : Nat := (v.phase + t) / 4

end Env

/-- The drive, and the byte of the last command issued. -/
structure System where
  drive : State
  fetched : BitVec 8
  deriving DecidableEq, Repr

namespace Env

variable (v : Env)

/-- The byte on the data bus: the one at the address that was presented when the
command of this bus cycle was issued. -/
def served (t : Nat) (s : System) : BitVec 8 :=
  if v.busPhase t = v.issue (v.cycle t) then v.image (dskReadAddr v.toMedia s.drive) else s.fetched

/-- The inputs of the drive. -/
def inputs (t : Nat) (s : System) : Inputs where
  cen := v.busPhase t = 1
  cep := v.busPhase t = 3
  dskReadAck := v.slot (v.cycle t)
  dskReadData := v.served t s
  motorOn := v.motorOn t
  advanceDriveHead := v.advanceDriveHead t

/-- The system after `t` clocks. -/
def after (s : System) : Nat → System
  | 0 => s
  | t + 1 =>
    let s := after s t
    ⟨step v.toMedia s.drive (v.inputs t s), v.served t s⟩

end Env

/-! ## The slots of the floppy drives -/

/-- The counters of addrController_top.v: `busCycle`, `busPhase` and
`extra_slot_count` have two bits. -/
structure Slots where
  busCycle : Nat
  busPhase : Nat
  extraSlotCount : Nat
  extraSlotAdvance : Bool
  deriving DecidableEq, Repr

namespace Slots

/-- One clock. -/
def step (c : Slots) : Slots where
  busCycle := if c.busPhase = 3 then (c.busCycle + 1) % 4 else c.busCycle
  busPhase := (c.busPhase + 1) % 4
  extraSlotCount :=
    if c.busPhase = 3 ∧ c.extraSlotAdvance then (c.extraSlotCount + 1) % 4 else c.extraSlotCount
  extraSlotAdvance := if c.busPhase = 1 then c.busCycle = 3 else c.extraSlotAdvance

/-- The slot of the internal drive. -/
def dskReadAckInt (c : Slots) : Bool := c.busCycle = 2 && c.extraSlotCount = 0

/-- The slot of the external drive. -/
def dskReadAckExt (c : Slots) : Bool := c.busCycle = 2 && c.extraSlotCount = 1

/-- The counters after `t` clocks. -/
def after (c : Slots) : Nat → Slots
  | 0 => c
  | t + 1 => (after c t).step

/-- The counters as they power up. -/
def initial : Slots := ⟨0, 0, 0, false⟩

end Slots

/-- The registers out of reset; those without a reset hold anything. -/
structure OutOfReset (s : State) : Prop where
  menc : s.menc = Mfm.initial
  mfmReadyPulse : s.mfmReadyPulse = false
  mfmFresh : s.mfmFresh = false
  mfmAckSkip : s.mfmAckSkip = false
  mfmTimer : s.mfmTimer = 0
  state : s.enc.regs.state = .syn0
  count : s.enc.regs.count = 0
  sector : s.enc.regs.sector = 0
  srcOffset : s.enc.regs.srcOffset = 0
  diskImageData : s.diskImageData = 0
  diskDataByteTimer : s.diskDataByteTimer = 0
  readyToAdvanceHead : s.readyToAdvanceHead = true
  newByteReady : s.newByteReady = false

end MacIIvi.Floppy
