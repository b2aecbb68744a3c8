import MacIIvi.Toolbox.Fsm

/-!
# The SCSI target

Source: `rtl/scsi.v`, `module scsi`. The registers of the data path of one
target and their next values, one `…Next` function per `always` block, in the
order of the source. Probe registers and the MODE SELECT audio-page registers
are not modelled: nothing below reads them.

The HPS packs the even byte of a word into the low half of `sd_buff_dout` (the
synthesis branch of the lane mapping).
-/

namespace MacIIvi

/-- Wires of the CD-audio engine the target reads. They are constant on a disk
target (`g_no_cd_audio`). -/
structure CaWires where
  ioActive : Bool := false
  ioRd : Bool := false
  ioLba : Nat := 0
  discAudio : Bool := false

/-- The inputs of one clock. -/
structure TargetIn where
  rst : Bool := false
  sel : Bool := false
  busBusy : Bool := false
  cdEnable : Bool := false
  ack : Bool := false
  din : Byte := 0
  imgMounted : Bool := false
  imgBlocks : Nat := 0
  ioAck : Bool := false
  sdBuffAddr : Nat := 0
  sdBuffDout : BitVec 16 := 0
  sdBuffWr : Bool := false
  dmaWord : Bool := false
  dmaLowByte : Byte := 0
  tbMounted : Bool := false
  tbAck : Bool := false
  ca : CaWires := {}

/-- `buf0_data_a`: the even byte of an HPS word. -/
def TargetIn.evenByte (i : TargetIn) : Byte := i.sdBuffDout.extractLsb' 0 8

/-- `buf1_data_a`: the odd byte of an HPS word. -/
def TargetIn.oddByte (i : TargetIn) : Byte := i.sdBuffDout.extractLsb' 8 8

/-- An acknowledge that belongs to the data path. -/
def TargetIn.dataAck (i : TargetIn) : Bool := i.ioAck && !i.ca.ioActive

/-- The registers of one target. -/
structure Target where
  phase : Phase := .idle
  oldAck : Bool := false
  stbAck : Bool := false
  stbAdv : Bool := false
  cmd : Cdb := fun _ => 0
  cmdCnt : Nat := 0
  dataCnt : Nat := 0
  dataComplete : Bool := false
  lba : Nat := 0
  tlen : Nat := 0
  status : Byte := 0
  statusSent : Bool := false
  messageSent : Bool := false
  oldIoAck : Bool := false
  sdBuffSel : Bool := false
  rdHpsBlk : Nat := 0
  ioRdD : Bool := false
  ioWr : Bool := false
  wrPending : Bool := false
  oldWr : Bool := false
  rdBusy : Bool := false
  oddByteR : Byte := 0
  wmBeat2 : Bool := false
  storeLow : Bool := false
  buffer0Wr : Bool := false
  buffer1Wr : Bool := false
  buffer0 : Dpram
  buffer1 : Dpram
  capacity : Nat := 0
  mounted : Bool := false
  cdCplD : Bool := false
  cdSenseKey : BitVec 4 := 0
  cdSenseAsc : Byte := 0
  cdPrevent : Bool := false
  caCmdStb : Bool := false
  caReadStb : Bool := false
  caEjectStb : Bool := false
  tbReady : Bool := false
  tbDebugFlag : Bool := false
  tbOutTo : Nat := 0
  tbOutStallR : Bool := false
  tbSrvSettle : Nat := 0
  tb : Tb := {}
  tbBuf0 : Dpram
  tbBuf1 : Dpram

namespace Target

variable (P : Params) (i : TargetIn) (s : Target)

/-- Configuration of the registers: declared initial values, else zero. -/
def powerUp (P : Params) : Target :=
  { buffer0 := Dpram.powerUp P.bufAw, buffer1 := Dpram.powerUp P.bufAw
    tbBuf0 := Dpram.powerUp P.tbAddrw, tbBuf1 := Dpram.powerUp P.tbAddrw }

/-! ### Sector buffer addressing -/

/-- `rd_cur_blk`: the sector the Mac is reading. -/
def rdCurBlk : Nat := s.dataCnt / 512

/-- `hps_addr`: read fills go to the ring slot of the fetch frontier, write
flushes to the half `sd_buff_sel`. -/
def hpsAddr : Nat :=
  if s.cmd.cmdWrite then (if s.sdBuffSel then 256 else 0) + i.sdBuffAddr
  else s.rdHpsBlk % P.ringBlocks * 256 + i.sdBuffAddr

/-- `mac_addr` -/
def macAddr : Nat :=
  if s.phase = .dataIn then s.dataCnt % 1024 / 2 else s.dataCnt / 2 % 2 ^ P.bufAw

/-- `data_b`: the beat-role mux. -/
def macData : Byte := if s.storeLow then s.oddByteR else i.din

/-- The ports of a sector buffer with port-A byte `data` and port-B write
strobe `wren`. -/
def bufferIn (data : Byte) (wren : Bool) : DpramIn :=
  { addressA := hpsAddr P i s, dataA := data, wrenA := i.sdBuffWr && !i.ca.ioActive
    addressB := macAddr P s, dataB := macData i s, wrenB := wren
    addressC := (macAddr P s + 1) % 2 ^ P.bufAw, addressD := (macAddr P s + 2) % 2 ^ P.bufAw }

def buffer0In : DpramIn := bufferIn P i s i.evenByte s.buffer0Wr
def buffer1In : DpramIn := bufferIn P i s i.oddByte s.buffer1Wr

/-! ### Toolbox wires -/

/-- The wires of the round-trip FSM. -/
def tbIn : TbIn :=
  { rst := i.rst, enable := P.toolboxEnable || P.cdchangerEnable
    phase := s.phase, ack := i.tbAck, stbAck := s.stbAck, dataCnt := s.dataCnt
    maxsec := P.tbMaxsec
    send := s.cmd.cmdTbSend P, sendPrep := s.cmd.cmdTbSendPrep P
    sendData := s.cmd.cmdTbSendData P, sendLen := s.cmd.tbSendLen P
    tailLast := s.cmd.tbTailLast P
    b0 := s.tbBuf0.qB, b1 := s.tbBuf1.qB, b0Next := s.tbBuf0.qC, b1Next := s.tbBuf1.qC }

/-- `tb_b_addr13` -/
def tbBAddr13 : Nat :=
  match s.tb.state with
  | .load => s.tb.loadW
  | .latch2 => 2
  | _ =>
    if (tbIn P i s).collect then s.tb.colSlot * 256 + (tbIn P i s).colWord
    else s.dataCnt / 2 % 8192

def tbBAddr : Nat := tbBAddr13 P i s % 2 ^ P.tbAddrw

/-- `tb_hps_addr` -/
def tbHpsAddr : Nat := (s.tb.fetchSec % 32 * 256 + i.sdBuffAddr) % 2 ^ P.tbAddrw

/-- `tb_hps_wr` -/
def tbHpsWr : Bool := i.sdBuffWr && i.tbAck

/-- `tb_send_fixoff`: a block-encoded 0xD4 gets the running position. -/
def tbSendFixoff : Bool := s.cmd.cmdTbSendData P && decide (1 < (s.cmd 6).toNat)

def tbLoadB0 : Byte :=
  if tbSendFixoff P s && s.tb.loadW == 2 then BitVec.ofNat 8 (s.tb.sendPos / 256)
  else s.cmd (s.tb.loadW % 8 * 2)

def tbLoadB1 : Byte :=
  if tbSendFixoff P s && s.tb.loadW == 1 then BitVec.ofNat 8 (s.tb.sendPos / 65536)
  else if tbSendFixoff P s && s.tb.loadW == 2 then BitVec.ofNat 8 s.tb.sendPos
  else s.cmd (s.tb.loadW % 8 * 2 + 1)

/-- The ports of a Toolbox buffer: the CDB byte `load` in `TBS_LOAD`, else a
payload byte on the strobe `colWr`. -/
def tbBufIn (data load : Byte) (colWr : Bool) : DpramIn :=
  { addressA := tbHpsAddr P i s, dataA := data, wrenA := tbHpsWr i
    addressB := tbBAddr P i s
    dataB := if s.tb.state = .load then load else i.din
    wrenB := s.tb.state == .load || colWr
    addressC := (tbBAddr P i s + 1) % 2 ^ P.tbAddrw
    addressD := (tbBAddr P i s + 2) % 2 ^ P.tbAddrw }

def tbBuf0In : DpramIn :=
  tbBufIn P i s i.evenByte (tbLoadB0 P s)
    ((tbIn P i s).collect && s.stbAck && s.dataCnt % 2 == 0)

def tbBuf1In : DpramIn :=
  tbBufIn P i s i.oddByte (tbLoadB1 P s)
    ((tbIn P i s).collect && s.stbAck && s.dataCnt % 2 == 1)

/-- `tb_srv_active` -/
def tbSrvActive : Bool := s.phase == .dataOut && s.cmd.cmdTbIn P s.tbReady

def tbGetAbort : Bool := tbSrvActive P s && s.tb.getFault

def tbSrvHold : Bool := tbSrvActive P s && s.tbSrvSettle != 0

def tbGetStall : Bool := tbSrvActive P s && s.tb.srvBehind (tbIn P i s)

def tbColStall : Bool := s.tb.colStall (tbIn P i s)

def tbStreamStall : Bool := tbGetStall P i s || tbColStall P i s

/-- `tb_out_active`: the DataOut phase of SEND DATA. -/
def tbOutActive : Bool := s.phase == .dataIn && s.cmd.cmdTbSendData P

def tbOutStalled : Bool := tbOutActive P s && s.tbOutStallR

/-! ### Bus outputs -/

/-- `data_len` of the command in `cmd`. -/
def dataLen : Nat := s.cmd.dataLen P s.tbReady s.tlen s.tb.srvLen

/-- `rd_ahead_blk`: the sector of the furthest byte one access can touch. -/
def rdAheadBlk : Nat := (s.dataCnt + 3) % 2 ^ 32 / 512 % 2 ^ 23

def rdAheadNeeded : Bool := decide (rdAheadBlk s < s.tlen)
def rdCurUnfilled : Bool := decide (s.rdHpsBlk ≤ rdCurBlk s)
def rdAheadUnfilled : Bool := decide (s.rdHpsBlk ≤ rdAheadBlk s)

/-- `io_busy` -/
def ioBusy : Bool :=
  (s.phase == .dataOut && s.cmd.cmdRead && s.mounted &&
      (rdCurUnfilled s || (rdAheadNeeded s && rdAheadUnfilled s))) ||
    (s.phase == .dataIn && (s.ioWr || s.wrPending || i.dataAck) &&
      s.dataCnt.testBit 9 == s.sdBuffSel) ||
    (s.phase != .dataOut && s.phase != .dataIn &&
      (s.ioRdD || s.ioWr || s.wrPending || i.dataAck))

/-- `data_done` -/
def dataDone : Bool :=
  s.dataComplete || dataLen P s == 0 || tbOutStalled P s || tbGetAbort P s

def dataPhaseComplete : Bool :=
  (s.phase == .dataOut || s.phase == .dataIn) && dataDone P s

/-- `req` -/
def req : Bool :=
  s.phase != .idle && s.phase != .tb && !i.ack && !ioBusy i s && !dataPhaseComplete P s &&
    !tbSrvHold P s && !tbStreamStall P i s

def bsy : Bool := s.phase != .idle

/-! ### IO controller -/

/-- `io_lba` -/
def ioLba : Nat := if i.ca.ioActive then i.ca.ioLba else s.lba

/-- `io_rd` -/
def ioRd : Bool := s.ioRdD || i.ca.ioRd

def rdBlkRemain : Bool := decide (s.rdHpsBlk < s.tlen)

/-- `rd_ring_space`: an unsigned 32-bit comparison. -/
def rdRingSpace : Bool :=
  decide ((s.rdHpsBlk + 2 ^ 32 - rdCurBlk s) % 2 ^ 32 < P.ringBlocks)

/-- `req_rd` -/
def reqRd : Bool :=
  s.phase == .dataOut && s.cmd.cmdRead && dataLen P s != 0 && !s.dataComplete &&
    rdBlkRemain s && rdRingSpace P s

/-- `req_wr` -/
def reqWr : Bool :=
  ((s.phase == .dataIn && s.dataCnt % 512 == 0 && s.dataCnt != 0) || s.phase == .statusOut) &&
    s.cmd.cmdWrite && dataLen P s != 0

/-- `ca_grant` -/
def caGrant : Bool :=
  (s.phase == .idle || (s.cmd.cmdRead && s.phase == .dataOut)) &&
    !s.ioRdD && !s.ioWr && !i.ioAck && s.mounted

/-- `old_io_ack & ~io_ack` -/
def ioAckFall : Bool := s.oldIoAck && !i.ioAck

/-- An acknowledge fall of the data path's own transfer. -/
def dataAckFall : Bool := ioAckFall i s && !i.ca.ioActive

/-- The phase holds a transfer: `data_cnt` and `rd_hps_blk` keep their values. -/
def transferPhase : Bool :=
  s.phase == .dataOut || s.phase == .dataIn || s.phase == .statusOut || s.phase == .messageOut

def cmdCpl : Bool := s.phase == .cmdIn && s.cmd.cmdCpl P s.cmdCnt

/-! ### Next values -/

def sdBuffSelNext : Bool :=
  if s.phase = .idle then false
  else if dataAckFall i s then !s.sdBuffSel else s.sdBuffSel

def rdHpsBlkNext : Nat :=
  if !transferPhase s then 0
  else if dataAckFall i s && s.cmd.cmdRead then (s.rdHpsBlk + 1) % 2 ^ 23 else s.rdHpsBlk

/-- Beat B of a word stores the captured low byte. -/
def storeLowNext : Bool := !i.rst && s.phase == .dataIn && s.stbAck && s.wmBeat2

def wmBeat2Next : Bool :=
  if i.rst || s.phase != .dataIn then false
  else if s.stbAck then !s.wmBeat2 && i.dmaWord else s.wmBeat2

def oddByteRNext : Byte :=
  if i.rst then 0
  else if s.phase == .dataIn && s.stbAck && !s.wmBeat2 && i.dmaWord then i.dmaLowByte
  else s.oddByteR

def wrPendingNext : Bool :=
  if i.rst then false
  else if !i.ioAck && s.wrPending && !s.ioWr then false
  else s.wrPending || (!s.oldWr && reqWr P s)

/-- A ring fetch starts this clock. -/
def fetchStart : Bool := !i.ioAck && reqRd P s && !ioRd i s && !s.rdBusy

def ioRdDNext : Bool :=
  if i.rst then false else if i.ioAck then false else s.ioRdD || fetchStart P i s

def rdBusyNext : Bool :=
  if i.rst then false else if ioAckFall i s then false else s.rdBusy || fetchStart P i s

def ioWrNext : Bool :=
  if i.rst then false else if i.ioAck then false else s.ioWr || (s.wrPending && !s.ioWr)

def cmdNext : Cdb :=
  if s.stbAck && s.phase == .cmdIn && decide (s.cmdCnt < 10) then
    Function.update s.cmd s.cmdCnt i.din
  else s.cmd

def cmdCntNext : Nat :=
  if s.phase = .idle then 0
  else if s.stbAdv && s.phase == .cmdIn && s.cmdCnt != 15 then s.cmdCnt + 1 else s.cmdCnt

def dataCntNext : Nat :=
  if !transferPhase s then 0
  else if s.stbAdv && !s.dataComplete then (s.dataCnt + 1) % 2 ^ 32 else s.dataCnt

def dataCompleteNext : Bool :=
  if !transferPhase s then false
  else if s.stbAdv then (dataLen P s + 2 ^ 32 - 1) % 2 ^ 32 == s.dataCnt else s.dataComplete

def lbaNext : Nat :=
  if cmdCpl P s then s.cmd.lbaLatch P s.cmdCnt
  else if ioAckFall i s then (s.lba + 1) % 2 ^ 32 else s.lba

def tlenNext : Nat := if cmdCpl P s then s.cmd.tlenLatch P s.cmdCnt else s.tlen

def cdNewCmd : Bool := cmdCpl P s && !s.cdCplD

def cdEjectPulse : Bool := cdNewCmd P s && s.cmd.cmdCdEjectAny P && !s.cdPrevent

def mountedNext : Bool :=
  if i.imgMounted then i.imgBlocks != 0
  else if P.cdrom && cdEjectPulse P s then false else s.mounted

def capacityNext : Nat :=
  if i.imgMounted && i.imgBlocks != 0 then
    if P.cdrom then (i.imgBlocks / 4 + 2 ^ 32 - 1) % 2 ^ 32 else i.imgBlocks - 1
  else s.capacity

/-- The CDB has completed and is carried out. -/
def accepted : Bool :=
  cmdCpl P s && s.cmd.accepted P s.tbReady s.mounted i.ca.discAudio

/-- Sense key and code of a command that completes now. -/
def senseNext : BitVec 4 × Byte :=
  if i.rst then (0, 0)
  else if P.cdrom && cdNewCmd P s then
    if !s.cmd.cmdOk P s.tbReady then (0x5, 0x20)
    else if s.cmd.cdNoMedia P s.mounted then (0x2, 0xb0)
    else if s.cmd.cdAudioReadRej P s.mounted i.ca.discAudio then (0x5, 0x64)
    else if s.cmd.cdHdrMsfRej P then (0x5, 0x24)
    else if s.cmd.cmdCdEjectAny P then if s.cdPrevent then (0x5, 0x80) else (0x2, 0x3a)
    else if s.cmd.cmdCdPrevent P then (0, 0)
    else if !s.cmd.cmdRequestSense then (0, 0)
    else (s.cdSenseKey, s.cdSenseAsc)
  else (s.cdSenseKey, s.cdSenseAsc)

def cdPreventNext : Bool :=
  if i.rst then false
  else if P.cdrom && cdNewCmd P s && s.cmd.cmdOk P s.tbReady && !s.cmd.cdNoMedia P s.mounted &&
      !s.cmd.cdAudioReadRej P s.mounted i.ca.discAudio && !s.cmd.cdHdrMsfRej P &&
      !s.cmd.cmdCdEjectAny P && s.cmd.cmdCdPrevent P then (s.cmd 4).getLsbD 0
  else s.cdPrevent

/-- The phase after an accepted command. -/
def startPhase : Phase :=
  if s.cmd.cmdTbFsIn P || s.cmd.cmdCdcTb P s.tbReady || s.cmd.cmdTbSendEnd P then .tb
  else if s.cmd.cmdTbSendPay P then .dataIn
  else if s.cmd.startsDataOut P s.tbReady then .dataOut
  else if s.cmd.startsDataIn P then .dataIn
  else .statusOut

/-- `tb_state` is one of the two states the phase FSM takes as "answered". -/
def tbAnswered : Bool := s.tb.state == .rdy || s.tb.state == .stream

/-- The bus is free and carries this target's id. -/
def selected : Bool :=
  i.sel && i.din.getLsbD P.id && (if P.cdrom then i.cdEnable else s.mounted) && !i.busBusy

/-- The phase FSM. -/
def phaseNext : Phase :=
  if i.rst then .idle
  else
    match s.phase with
    | .idle => if selected P i s then .cmdIn else .idle
    | .cmdIn =>
      if cmdCpl P s then if accepted P i s then startPhase P s else .statusOut else .cmdIn
    | .tb => if tbAnswered s then if s.tb.len ≠ 0 then .dataOut else .statusOut else .tb
    | .dataOut => if dataDone P s then .statusOut else .dataOut
    | .dataIn =>
      if dataDone P s then if s.cmd.cmdTbSend P then .tb else .statusOut else .dataIn
    | .statusOut => if s.statusSent then .messageOut else .statusOut
    | .messageOut => if s.messageSent then .idle else .messageOut

def statusNext : Byte :=
  if i.rst then s.status
  else
    match s.phase with
    | .cmdIn =>
      if cmdCpl P s then
        if accepted P i s then
          if s.cmd.cmdCdEjectAny P && s.cdPrevent then 0x02 else 0x00
        else 0x02
      else s.status
    | .tb => if tbAnswered s then s.tb.status else s.status
    | .dataOut => if dataDone P s && tbGetAbort P s then 0x02 else s.status
    | _ => s.status

def statusSentNext : Bool :=
  if s.phase ≠ .statusOut then false else s.statusSent || s.stbAdv

def messageSentNext : Bool :=
  if s.phase ≠ .messageOut then false else s.messageSent || s.stbAdv

def tbDebugFlagNext : Bool :=
  if i.rst then false
  else if cmdCpl P s && s.cmd.cmdTbDebug P s.tbReady && s.cmd 1 == 0 then s.cmd 2 != 0
  else s.tbDebugFlag

/-- `tb_out_to`, the inter-byte watchdog of SEND DATA. -/
def tbOutToNext : Nat :=
  if !tbOutActive P s then 0
  else if s.stbAdv || tbColStall P i s then 0
  else if s.tbOutTo ≠ 65535 then s.tbOutTo + 1 else s.tbOutTo

def tbOutStallRNext : Bool :=
  if !tbOutActive P s then false
  else if s.stbAdv || tbColStall P i s then s.tbOutStallR
  else s.tbOutStallR || s.tbOutTo == 65535

def tbSrvSettleNext : Nat :=
  if !tbSrvActive P s then 12
  else if s.stbAdv then 8 else s.tbSrvSettle - 1

/-- One clock edge of the target. -/
def step : Target :=
  { phase := phaseNext P i s
    oldAck := i.ack
    stbAck := !s.oldAck && i.ack
    stbAdv := s.oldAck && !i.ack
    cmd := cmdNext i s
    cmdCnt := cmdCntNext s
    dataCnt := dataCntNext s
    dataComplete := dataCompleteNext P s
    lba := lbaNext P i s
    tlen := tlenNext P s
    status := statusNext P i s
    statusSent := statusSentNext s
    messageSent := messageSentNext s
    oldIoAck := i.ioAck
    sdBuffSel := sdBuffSelNext i s
    rdHpsBlk := rdHpsBlkNext i s
    ioRdD := ioRdDNext P i s
    ioWr := ioWrNext i s
    wrPending := wrPendingNext P i s
    oldWr := !i.rst && reqWr P s
    rdBusy := rdBusyNext P i s
    oddByteR := oddByteRNext i s
    wmBeat2 := wmBeat2Next i s
    storeLow := storeLowNext i s
    buffer0Wr := s.stbAck && s.phase == .dataIn && s.dataCnt % 2 == 0
    buffer1Wr := s.stbAck && s.phase == .dataIn && s.dataCnt % 2 == 1
    buffer0 := s.buffer0.step (buffer0In P i s)
    buffer1 := s.buffer1.step (buffer1In P i s)
    capacity := capacityNext P i s
    mounted := mountedNext P i s
    cdCplD := cmdCpl P s
    cdSenseKey := (senseNext P i s).1
    cdSenseAsc := (senseNext P i s).2
    cdPrevent := cdPreventNext P i s
    caCmdStb := !i.rst && accepted P i s && s.cmd.cmdCdAudioNop P
    caReadStb := !i.rst && accepted P i s && s.cmd.cmdRead && P.cdrom
    caEjectStb := !i.rst && accepted P i s && s.cmd.cmdCdEjectAny P && !s.cdPrevent
    tbReady := s.tbReady || ((P.toolboxEnable || P.cdchangerEnable) && i.tbMounted)
    tbDebugFlag := tbDebugFlagNext P i s
    tbOutTo := tbOutToNext P i s
    tbOutStallR := tbOutStallRNext P i s
    tbSrvSettle := tbSrvSettleNext P s
    tb := s.tb.step (tbIn P i s)
    tbBuf0 := s.tbBuf0.step (tbBuf0In P i s)
    tbBuf1 := s.tbBuf1.step (tbBuf1In P i s) }

/-! ### Registers after one clock -/

section

variable {P : Params} {i : TargetIn} {s : Target}

@[simp] theorem step_phase : (step P i s).phase = phaseNext P i s := rfl
@[simp] theorem step_oldAck : (step P i s).oldAck = i.ack := rfl
@[simp] theorem step_stbAck : (step P i s).stbAck = (!s.oldAck && i.ack) := rfl
@[simp] theorem step_stbAdv : (step P i s).stbAdv = (s.oldAck && !i.ack) := rfl
@[simp] theorem step_cmd : (step P i s).cmd = cmdNext i s := rfl
@[simp] theorem step_cmdCnt : (step P i s).cmdCnt = cmdCntNext s := rfl
@[simp] theorem step_dataCnt : (step P i s).dataCnt = dataCntNext s := rfl
@[simp] theorem step_dataComplete : (step P i s).dataComplete = dataCompleteNext P s := rfl
@[simp] theorem step_lba : (step P i s).lba = lbaNext P i s := rfl
@[simp] theorem step_tlen : (step P i s).tlen = tlenNext P s := rfl
@[simp] theorem step_status : (step P i s).status = statusNext P i s := rfl
@[simp] theorem step_statusSent : (step P i s).statusSent = statusSentNext s := rfl
@[simp] theorem step_messageSent : (step P i s).messageSent = messageSentNext s := rfl
@[simp] theorem step_oldIoAck : (step P i s).oldIoAck = i.ioAck := rfl
@[simp] theorem step_sdBuffSel : (step P i s).sdBuffSel = sdBuffSelNext i s := rfl
@[simp] theorem step_rdHpsBlk : (step P i s).rdHpsBlk = rdHpsBlkNext i s := rfl
@[simp] theorem step_ioRdD : (step P i s).ioRdD = ioRdDNext P i s := rfl
@[simp] theorem step_ioWr : (step P i s).ioWr = ioWrNext i s := rfl
@[simp] theorem step_wrPending : (step P i s).wrPending = wrPendingNext P i s := rfl
@[simp] theorem step_oldWr : (step P i s).oldWr = (!i.rst && reqWr P s) := rfl
@[simp] theorem step_rdBusy : (step P i s).rdBusy = rdBusyNext P i s := rfl
@[simp] theorem step_oddByteR : (step P i s).oddByteR = oddByteRNext i s := rfl
@[simp] theorem step_wmBeat2 : (step P i s).wmBeat2 = wmBeat2Next i s := rfl
@[simp] theorem step_storeLow : (step P i s).storeLow = storeLowNext i s := rfl
@[simp] theorem step_buffer0Wr :
    (step P i s).buffer0Wr = (s.stbAck && s.phase == .dataIn && s.dataCnt % 2 == 0) := rfl
@[simp] theorem step_buffer1Wr :
    (step P i s).buffer1Wr = (s.stbAck && s.phase == .dataIn && s.dataCnt % 2 == 1) := rfl
@[simp] theorem step_buffer0 : (step P i s).buffer0 = s.buffer0.step (buffer0In P i s) := rfl
@[simp] theorem step_buffer1 : (step P i s).buffer1 = s.buffer1.step (buffer1In P i s) := rfl
@[simp] theorem step_capacity : (step P i s).capacity = capacityNext P i s := rfl
@[simp] theorem step_mounted : (step P i s).mounted = mountedNext P i s := rfl
@[simp] theorem step_cdCplD : (step P i s).cdCplD = cmdCpl P s := rfl
@[simp] theorem step_cdSenseKey : (step P i s).cdSenseKey = (senseNext P i s).1 := rfl
@[simp] theorem step_cdSenseAsc : (step P i s).cdSenseAsc = (senseNext P i s).2 := rfl
@[simp] theorem step_cdPrevent : (step P i s).cdPrevent = cdPreventNext P i s := rfl
@[simp] theorem step_caCmdStb :
    (step P i s).caCmdStb = (!i.rst && accepted P i s && s.cmd.cmdCdAudioNop P) := rfl
@[simp] theorem step_caReadStb :
    (step P i s).caReadStb = (!i.rst && accepted P i s && s.cmd.cmdRead && P.cdrom) := rfl
@[simp] theorem step_caEjectStb :
    (step P i s).caEjectStb =
      (!i.rst && accepted P i s && s.cmd.cmdCdEjectAny P && !s.cdPrevent) := rfl
@[simp] theorem step_tbReady :
    (step P i s).tbReady =
      (s.tbReady || ((P.toolboxEnable || P.cdchangerEnable) && i.tbMounted)) := rfl
@[simp] theorem step_tbDebugFlag : (step P i s).tbDebugFlag = tbDebugFlagNext P i s := rfl
@[simp] theorem step_tbOutTo : (step P i s).tbOutTo = tbOutToNext P i s := rfl
@[simp] theorem step_tbOutStallR : (step P i s).tbOutStallR = tbOutStallRNext P i s := rfl
@[simp] theorem step_tbSrvSettle : (step P i s).tbSrvSettle = tbSrvSettleNext P s := rfl
@[simp] theorem step_tb : (step P i s).tb = s.tb.step (tbIn P i s) := rfl
@[simp] theorem step_tbBuf0 : (step P i s).tbBuf0 = s.tbBuf0.step (tbBuf0In P i s) := rfl
@[simp] theorem step_tbBuf1 : (step P i s).tbBuf1 = s.tbBuf1.step (tbBuf1In P i s) := rfl

end

end Target

end MacIIvi
