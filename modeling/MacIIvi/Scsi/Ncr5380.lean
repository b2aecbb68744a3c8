import MacIIvi.Scsi.Target

/-!
# The host face of the SCSI controller

Source: `rtl/ncr5380.sv`. The registers the host writes, the pseudo-DMA
machinery that turns one DACK access into a train of acknowledges, and the wires
between the controller and the target that holds the bus. The interrupt latch,
the deferred REQ and the registered read data are not modelled: nothing a target
sees depends on them.

A target is selected on a free bus only, so that at most one device drives the
bus; `others` is what the devices besides the modelled one drive.
-/

namespace MacIIvi

/-- The host bus during one clock. -/
structure HostIn where
  cs : Bool := false
  dack : Bool := false
  ior : Bool := false
  iow : Bool := false
  rs : Nat := 0
  wdata : BitVec 16 := 0
  dmaWord : Bool := false
  dmaLongword : Bool := false
  dmaSecondWord : Bool := false

namespace HostIn

variable (h : HostIn)

/-- `i_dma_rd` -/
def dmaRd : Bool := h.cs && h.dack && h.ior

/-- `i_dma_wr` -/
def dmaWr : Bool := h.cs && h.dack && h.iow

/-- `i_reg_wr` -/
def regWr : Bool := h.cs && !h.dack && h.iow

/-- The byte lane of even addresses. -/
def highByte : Byte := h.wdata.extractLsb' 8 8

/-- The byte lane of odd addresses. -/
def lowByte : Byte := h.wdata.extractLsb' 0 8

end HostIn

/-- What a device drives on the bus while it holds it. -/
structure BusLines where
  msg : Bool := false
  cd : Bool := false
  io : Bool := false
  req : Bool := false
  dout : Byte := 0

/-- The registers of the controller. -/
structure Ncr where
  mr : Byte := 0
  icr : Byte := 0
  tcr : BitVec 4 := 0
  arbActive : Bool := false
  arbCount : Nat := 0
  dmaEn : Bool := false
  dout : Byte := 0
  dreqR : Bool := false
  oldDmaRd : Bool := false
  oldDmaWr : Bool := false
  oldRegWr : Bool := false
  dmaWr : Bool := false
  regWr : Bool := false
  dmaAck : Bool := false
  dmaAckHoldoff : Nat := 0
  dmaSettle : Nat := 0
  dmaWordLatched : Bool := false
  dmaLongwordLatched : Bool := false
  dmaSecondWordLatched : Bool := false
  dmaSuppressAckLatched : Bool := false
  dmaLongwordSecondPending : Bool := false
  dmaWriteLowByte : Byte := 0

namespace Ncr

variable (h : HostIn) (l : BusLines) (n : Ncr)

/-! ### Wires -/

def icrRst : Bool := n.icr.getLsbD 7
def icrAck : Bool := n.icr.getLsbD 4
def icrSel : Bool := n.icr.getLsbD 2
def icrData : Bool := n.icr.getLsbD 0
def mrDmaMode : Bool := n.mr.getLsbD 1
def mrArb : Bool := n.mr.getLsbD 0

/-- `dma_ack_busy` -/
def dmaAckBusy : Bool := n.dmaAck || n.dmaAckHoldoff != 0 || n.dmaSettle != 0

/-- `bsr_pmatch` -/
def bsrPmatch : Bool :=
  n.tcr.getLsbD 2 == l.msg && n.tcr.getLsbD 1 == l.cd && n.tcr.getLsbD 0 == l.io

/-- `scsi_ack` -/
def scsiAck : Bool := n.icrAck || n.dmaAck

/-- `out_en` -/
def outEn : Bool := n.icrData || n.mrArb

/-- `dma_write_data` -/
def dmaWriteData : Byte :=
  if n.dmaAckHoldoff == 1 && n.dmaWordLatched then n.dmaWriteLowByte else n.dout

/-- `scsi_bus_data` -/
def scsiBusData : Byte := (if n.outEn then n.dmaWriteData else 0) ||| l.dout

/-- A DACK access starts. -/
def dmaRdRise : Bool := !n.oldDmaRd && h.dmaRd
def dmaWrRise : Bool := !n.oldDmaWr && h.dmaWr

/-- A DACK access ends. -/
def dmaRdFall : Bool := n.oldDmaRd && !h.dmaRd
def dmaWrFall : Bool := n.oldDmaWr && !h.dmaWr

/-- An access ends that is to be acknowledged. -/
def ackFall : Bool := n.dmaWrFall h || (n.dmaRdFall h && !n.dmaSuppressAckLatched)

/-- The access that ends starts a train of acknowledges. -/
def startsTrain : Bool :=
  n.dmaAckHoldoff == 0 && n.ackFall h && n.dmaEn && n.bsrPmatch l

/-- Bytes the train of the ending access acknowledges. -/
def width : Nat :=
  if n.dmaRdFall h && n.dmaLongwordLatched then 4 else if n.dmaWordLatched then 2 else 1

/-- `dma_ack_holdoff` at the start of a train. -/
def holdoffFirst : Nat :=
  if n.dmaRdFall h then
    if n.dmaLongwordLatched then 6 else if n.dmaWordLatched then 2 else 0
  else if n.dmaWordLatched then 2 else 0

/-! ### Next values -/

def dmaAckNext : Bool :=
  if n.dmaAckHoldoff != 0 then n.dmaAckHoldoff.testBit 0 else n.startsTrain h l

def dmaAckHoldoffNext : Nat :=
  if n.dmaAckHoldoff != 0 then n.dmaAckHoldoff - 1
  else if n.startsTrain h l then n.holdoffFirst h else 0

def dmaSettleNext : Nat := if n.dmaAck then 8 else n.dmaSettle - 1

/-- An access starts: its width is latched. -/
def dmaRise : Bool := n.dmaRdRise h || n.dmaWrRise h

def dmaSuppressAckLatchedNext : Bool :=
  if n.dmaRdRise h then n.dmaLongwordSecondPending && h.dmaSecondWord else n.dmaSuppressAckLatched

def dmaLongwordSecondPendingNext : Bool :=
  if n.dmaRdRise h then
    if n.dmaLongwordSecondPending && h.dmaSecondWord then false
    else h.dmaWord && h.dmaLongword && !h.dmaSecondWord
  else n.dmaLongwordSecondPending

def doutNext : Byte := if (n.regWr && h.rs == 0) || n.dmaWr then h.highByte else n.dout

def icrNext : Byte :=
  if n.regWr && h.rs == 1 then h.lowByte
  else if n.arbActive && n.arbCount == 0 then n.icr ||| 0x08
  else n.icr

def mrNext : Byte :=
  if n.icrRst then n.mr &&& 0xfd else if n.regWr && h.rs == 2 then h.lowByte else n.mr

def tcrNext : BitVec 4 := if n.regWr && h.rs == 3 then h.wdata.extractLsb' 0 4 else n.tcr

def arbActiveNext : Bool :=
  if n.regWr && h.rs == 2 then
    if h.wdata.getLsbD 0 && !n.mrArb then true else if !h.wdata.getLsbD 0 then false else n.arbActive
  else n.arbActive && n.arbCount != 0

def arbCountNext : Nat :=
  if n.regWr && h.rs == 2 then
    if h.wdata.getLsbD 0 && !n.mrArb then 64 else if !h.wdata.getLsbD 0 then 0 else n.arbCount
  else if n.arbActive then n.arbCount - 1 else n.arbCount

def dmaEnNext : Bool :=
  if !n.mrDmaMode then false else n.dmaEn || (n.regWr && (h.rs == 5 || h.rs == 7))

/-- One clock edge of the controller. -/
def step : Ncr :=
  { mr := mrNext h n
    icr := icrNext h n
    tcr := tcrNext h n
    arbActive := arbActiveNext h n
    arbCount := arbCountNext h n
    dmaEn := dmaEnNext h n
    dout := doutNext h n
    dreqR := l.req && n.dmaEn && !n.dmaAckBusy
    oldDmaRd := h.dmaRd
    oldDmaWr := h.dmaWr
    oldRegWr := h.regWr
    dmaWr := n.dmaWrRise h
    regWr := !n.oldRegWr && h.regWr
    dmaAck := dmaAckNext h l n
    dmaAckHoldoff := dmaAckHoldoffNext h l n
    dmaSettle := dmaSettleNext n
    dmaWordLatched := if n.dmaRise h then h.dmaWord else n.dmaWordLatched
    dmaLongwordLatched := if n.dmaRise h then h.dmaLongword else n.dmaLongwordLatched
    dmaSecondWordLatched := if n.dmaRise h then h.dmaSecondWord else n.dmaSecondWordLatched
    dmaSuppressAckLatched := dmaSuppressAckLatchedNext h n
    dmaLongwordSecondPending := dmaLongwordSecondPendingNext h n
    dmaWriteLowByte := if n.dmaWrRise h then h.lowByte else n.dmaWriteLowByte }

section

variable {h : HostIn} {l : BusLines} {n : Ncr}

@[simp] theorem step_mr : (n.step h l).mr = n.mrNext h := rfl
@[simp] theorem step_icr : (n.step h l).icr = n.icrNext h := rfl
@[simp] theorem step_tcr : (n.step h l).tcr = n.tcrNext h := rfl
@[simp] theorem step_dmaEn : (n.step h l).dmaEn = n.dmaEnNext h := rfl
@[simp] theorem step_dout : (n.step h l).dout = n.doutNext h := rfl
@[simp] theorem step_oldDmaRd : (n.step h l).oldDmaRd = h.dmaRd := rfl
@[simp] theorem step_oldDmaWr : (n.step h l).oldDmaWr = h.dmaWr := rfl
@[simp] theorem step_dmaWr : (n.step h l).dmaWr = n.dmaWrRise h := rfl
@[simp] theorem step_regWr : (n.step h l).regWr = (!n.oldRegWr && h.regWr) := rfl
@[simp] theorem step_dmaAck : (n.step h l).dmaAck = n.dmaAckNext h l := rfl
@[simp] theorem step_dmaAckHoldoff :
    (n.step h l).dmaAckHoldoff = n.dmaAckHoldoffNext h l := rfl
@[simp] theorem step_dmaWordLatched :
    (n.step h l).dmaWordLatched = if n.dmaRise h then h.dmaWord else n.dmaWordLatched := rfl
@[simp] theorem step_dmaWriteLowByte :
    (n.step h l).dmaWriteLowByte = if n.dmaWrRise h then h.lowByte else n.dmaWriteLowByte := rfl

end

end Ncr

/-! ### The controller with one target -/

/-- What surrounds the controller and the target: the target's own slot, the byte
its response functions show and the lines of the other devices. -/
structure ChipEnv where
  slot : TargetIn := {}
  served : Byte := 0
  others : BusLines := {}

/-- The controller and one target on its bus. -/
structure Chip where
  ncr : Ncr := {}
  tgt : Target

namespace Target

/-- What the target drives. -/
def lines (P : Params) (i : TargetIn) (served : Byte) (s : Target) : BusLines :=
  { msg := s.phase == .messageOut
    cd := s.phase == .cmdIn || s.phase == .statusOut || s.phase == .messageOut
    io := s.phase == .dataOut || s.phase == .statusOut || s.phase == .messageOut
    req := s.req P i
    dout :=
      match s.phase with
      | .statusOut => s.status
      | .dataOut => served
      | _ => 0x00 }

end Target

namespace Chip

variable (P : Params) (h : HostIn) (e : ChipEnv) (c : Chip)

/-- The lines of the bus. REQ and ACK do not depend on the data. -/
def lines : BusLines :=
  if c.tgt.bsy then c.tgt.lines P { e.slot with ack := c.ncr.scsiAck } e.served else e.others

/-- The inputs of the target. -/
def tgtIn : TargetIn :=
  { e.slot with
    rst := c.ncr.icrRst
    sel := c.ncr.icrSel
    ack := c.ncr.scsiAck
    din := c.ncr.scsiBusData (c.lines P e)
    dmaWord := c.ncr.dmaWordLatched
    dmaLowByte := c.ncr.dmaWriteLowByte }

/-- One clock edge. -/
def step : Chip :=
  { ncr := c.ncr.step h (c.lines P e)
    tgt := c.tgt.step P (c.tgtIn P e) }

section

variable {P : Params} {h : HostIn} {e : ChipEnv} {c : Chip}

@[simp] theorem step_ncr : (c.step P h e).ncr = c.ncr.step h (c.lines P e) := rfl
@[simp] theorem step_tgt : (c.step P h e).tgt = c.tgt.step P (c.tgtIn P e) := rfl
@[simp] theorem tgtIn_rst : (c.tgtIn P e).rst = c.ncr.icrRst := rfl
@[simp] theorem tgtIn_ack : (c.tgtIn P e).ack = c.ncr.scsiAck := rfl
@[simp] theorem tgtIn_din : (c.tgtIn P e).din = c.ncr.scsiBusData (c.lines P e) := rfl
@[simp] theorem tgtIn_dmaWord : (c.tgtIn P e).dmaWord = c.ncr.dmaWordLatched := rfl
@[simp] theorem tgtIn_dmaLowByte : (c.tgtIn P e).dmaLowByte = c.ncr.dmaWriteLowByte := rfl

end

end Chip

end MacIIvi
