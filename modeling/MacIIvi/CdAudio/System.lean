import MacIIvi.CdAudio.Engine
import MacIIvi.Clocked.Run
import MacIIvi.Scsi.Session

/-!
# The CD-ROM target with its audio engine

One clock of the closed system: the target in CD-ROM mode, the audio engine
inside it, the initiator and the HPS session of the one slot the two share. The
acknowledge of that slot is not gated by BSY; a strobe is also let through
while the slot of the CD changer is acknowledged.
-/

namespace MacIIvi

open Clocked CdAudio

/-- The system at one clock. `served` is the sector address of the last session
the HPS finished. -/
structure CdRom extends Bus where
  eng : Engine
  hps : HpsChan
  move : HpsMove
  sysRst : Bool
  served : Nat

namespace CdRom

variable (P : Params) (words : Nat → Nat)

/-- The wires of the engine the target reads. -/
def caWires (s : CdRom) : CaWires :=
  { ioActive := s.eng.ioActive, ioRd := s.eng.ioRd, ioLba := s.eng.ioLba
    discAudio := s.eng.main.tab.discAudio }

/-- The inputs of the engine. -/
def engineIn (s : CdRom) : EngineIn :=
  { rst := s.sysRst, busRst := s.inp.rst, mounted := s.tgt.mounted
    imgMounted := s.inp.imgMounted, imgBlocks := s.inp.imgBlocks
    cmdStb := s.tgt.caCmdStb, cdb := s.tgt.cmd, readStb := s.tgt.caReadStb
    ejectStb := s.tgt.caEjectStb, grant := s.tgt.caGrant s.inp, ioAck := s.inp.ioAck
    sdBuffAddr := s.inp.sdBuffAddr, sdBuffAddrHi := s.hps.addrHi s.move
    sdBuffDout := s.inp.sdBuffDout, sdBuffWr := s.inp.sdBuffWr }

def servedNext (s : CdRom) : Nat :=
  match s.hps, s.move with
  | .reading lba _, .drop => lba
  | .writing lba _ _, .drop => lba
  | _, _ => s.served

structure Wired (s : CdRom) : Prop where
  ioAck : s.inp.ioAck = s.hps.ack
  sdBuffWr : s.inp.sdBuffWr = (s.hps.strobe s.move && (s.hps.ack || s.inp.tbAck))
  sdBuffAddr : s.inp.sdBuffAddr = s.hps.addr s.move
  sdBuffDout : s.inp.sdBuffDout = s.hps.dout s.move
  ca : s.inp.ca = caWires s

/-- One clock; `words lba` is the length of an HPS session at `lba`. -/
structure Step (s s' : CdRom) : Prop extends Bus.Step P s.toBus s'.toBus where
  wired : Wired s
  allowed : s.hps.allows words (s.tgt.hpsReq s.inp) s.move = true
  eng : s'.eng = s.eng.step (engineIn s)
  hps : s'.hps = s.hps.next (s.tgt.hpsReq s.inp) s.move
  served : s'.served = servedNext s

/-- The system after configuration of the device. -/
structure PowerUp (s : CdRom) : Prop where
  tgt : s.tgt = Target.powerUp P
  eng : s.eng = {}
  hps : s.hps = .idle
  acked : s.acked = 0
  granted : s.granted = 0

end CdRom

end MacIIvi
