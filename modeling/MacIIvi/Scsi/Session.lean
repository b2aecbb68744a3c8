import MacIIvi.Clocked.Run
import MacIIvi.Hps.Channel
import MacIIvi.Scsi.Bus

/-!
# A disk target between an initiator and the HPS

One clock of the closed system: the target, the initiator's ACK and the HPS
session of the target's slot. `io_ack` and `sd_buff_wr` reach a disk target
through the `target_bsy` gate of `rtl/ncr5380.sv`.
-/

namespace MacIIvi

open Clocked

/-- The system at one clock. -/
structure Disk extends Bus where
  hps : HpsChan
  move : HpsMove

namespace Target

/-- The request lines of the target's slot. -/
def hpsReq (i : TargetIn) (s : Target) : HpsReq :=
  { rd := ioRd i s, wr := s.ioWr, lba := ioLba i s }

/-- `sd_buff_din`: the port-A outputs of both buffers. -/
def sdBuffDin (s : Target) : BitVec 16 := s.buffer1.qA ++ s.buffer0.qA

end Target

namespace Disk

variable (P : Params) (medium : Nat → Nat → BitVec 16)

/-- The HPS-side inputs are those of the slot's session behind the BSY gate. -/
structure Wired (s : Disk) : Prop where
  ioAck : s.inp.ioAck = (s.hps.ack && s.tgt.bsy)
  sdBuffWr : s.inp.sdBuffWr = (s.hps.strobe s.move && s.tgt.bsy)
  sdBuffAddr : s.inp.sdBuffAddr = s.hps.addr s.move
  sdBuffDout : s.inp.sdBuffDout = s.hps.dout s.move
  ca : s.inp.ca = {}

/-- One clock. -/
structure Step (s s' : Disk) : Prop extends Bus.Step P s.toBus s'.toBus where
  wired : Wired s
  allowed : s.hps.allows HpsChan.sectorWords (s.tgt.hpsReq s.inp) s.move = true
  served : s.hps.Serves medium s.move
  hps : s'.hps = s.hps.next (s.tgt.hpsReq s.inp) s.move

/-- The system after configuration of the device. -/
structure PowerUp (s : Disk) : Prop where
  tgt : s.tgt = Target.powerUp P
  hps : s.hps = .idle
  acked : s.acked = 0
  granted : s.granted = 0

end Disk

end MacIIvi
