import MacIIvi.Clocked.Run
import MacIIvi.Hps.Channel
import MacIIvi.Nvram.Fsm

/-!
# The save image behind the HPS

The NVRAM process and the Egret, closed with the HPS session of slot 2 and the
mounted image. The HPS reads and writes the image that is mounted at the time
of each word; a mount may come at any clock.
-/

namespace MacIIvi

open Clocked

/-- The inputs of one clock. `newImage` is the image that a mount pulse which begins
here announces. -/
structure NvInputs where
  osdStatus : Bool := false
  imgMounted : Bool := false
  imgSize : Nat := 0
  newImage : Nat → Byte := fun _ => 0
  status6 : Bool := false
  egretIn : Nvram.EgretIn := {}
  move : HpsMove := .wait

/-- The system at one clock. -/
structure NvSystem extends NvInputs where
  top : Nvram.Top
  egret : Nvram.EgretRam
  hps : HpsChan
  image : Nat → Byte

namespace NvSystem

open Nvram

variable (s s' : NvSystem)

/-- `pram_wr_stb`: the firmware writes a PRAM byte. -/
def writes : Bool := s.egret.regionWr s.egretIn

/-- The inputs of the NVRAM process. -/
def topIn : TopIn :=
  { osdStatus := s.osdStatus
    imgMounted := s.imgMounted
    imgSize := s.imgSize
    status6 := s.status6
    pramAck := s.hps.ack
    sdBuffAddr := s.hps.addr s.move + 256 * s.hps.addrHi s.move
    sdBuffDout := s.hps.dout s.move
    sdBuffWr := s.hps.strobe s.move
    pramWrStb := s.writes
    pramSaveData := s.egret.pram s.top.pramSaveAddr }

/-- The request lines of slot 2. -/
def hpsReq : HpsReq := { rd := s.top.pramRd, wr := s.top.pramWrReq, lba := 0 }

/-- A mount pulse begins. -/
def mounts : Bool := s.top.mounts s.topIn

/-- The image after the word of a write session. -/
def written : Nat → Byte :=
  match s.hps, s.move with
  | .writing _ w _, .word _ => putWord s.image w (s.top.sdBuffDin w)
  | _, _ => s.image

/-- The clock edge, into the inputs `x`. -/
def advance (x : NvInputs) : NvSystem :=
  { toNvInputs := x
    top := s.top.next s.topIn
    egret := s.egret.next s.egretIn s.top
    hps := s.hps.next s.hpsReq s.move
    image := if s.mounts then s.newImage else s.written }

/-- The moves open to the HPS, which reads what is in the image. -/
def legal : Prop :=
  s.hps.allows HpsChan.sectorWords s.hpsReq s.move = true ∧
    s.hps.Serves (fun _ => wordOf s.image) s.move

instance (medium : Nat → Nat → BitVec 16) :
    (c : HpsChan) → (m : HpsMove) → Decidable (c.Serves medium m)
  | .reading lba w, .word d => inferInstanceAs (Decidable (d = medium lba w))
  | .reading .., .wait | .reading .., .latch _ | .reading .., .raise | .reading .., .drop
  | .reading .., .other .. => isTrue trivial
  | .idle, _ | .latched .., _ | .writing .., _ => isTrue trivial

instance : Decidable s.legal := inferInstanceAs (Decidable (_ ∧ _))

/-- One clock. -/
structure Step : Prop where
  allowed : s.hps.allows HpsChan.sectorWords s.hpsReq s.move = true
  served : s.hps.Serves (fun _ => wordOf s.image) s.move
  top : s'.top = s.top.next s.topIn
  egret : s'.egret = s.egret.next s.egretIn s.top
  hps : s'.hps = s.hps.next s.hpsReq s.move
  image : s'.image = if s.mounts then s.newImage else s.written

/-- The system when the PLL has locked: the process is reset, nothing is mounted and
the HPS has no session of the slot open. -/
structure PowerUp : Prop where
  idle : s.top.pst = .idle
  rd : s.top.pramRd = false
  wr : s.top.pramWrReq = false
  loadWr : s.top.pramLoadWr = false
  ena : s.top.pramEna = false
  load : s.top.loadPending = false
  flush : s.top.flushPending = false
  clr : s.top.clrPending = false
  hps : s.hps = .idle

/-- `pram[]` with the load write that is on its way. -/
def landed (i : Nat) : Byte :=
  if s.top.pramLoadWr = true ∧ s.top.pramLoadAddr = i then s.top.pramLoadData else s.egret.pram i

/-- The image agrees with `pram[]` on the PRAM bytes. -/
def Agrees : Prop := ∀ i, i < 256 → s.image i = s.landed i

/-- The registers reset and the slot empty. -/
def boot (x : NvInputs) : NvSystem :=
  { toNvInputs := x, top := {}, egret := {}, hps := .idle, image := fun _ => 0 }

/-- The states under a script of the inputs. -/
def scripted (script : Nat → NvInputs) : Nat → NvSystem
  | 0 => boot (script 0)
  | t + 1 => (scripted script t).advance (script (t + 1))

theorem scripted_inputs (script : Nat → NvInputs) (t : Nat) :
    (scripted script t).toNvInputs = script t := by
  cases t <;> rfl

/-- The HPS may always wait. -/
theorem legal_of_wait (wait : s.move = .wait) : s.legal := by
  rw [legal, wait]
  cases s.hps <;> exact ⟨rfl, trivial⟩

/-- The run of a legal script. -/
def ofScript (script : Nat → NvInputs) (ok : ∀ t, (scripted script t).legal) : Run Step where
  state := scripted script
  step t := ⟨(ok t).1, (ok t).2, rfl, rfl, rfl, rfl⟩

theorem boot_powerUp (x : NvInputs) : PowerUp (boot x) := by
  constructor <;> rfl

end NvSystem

end MacIIvi
