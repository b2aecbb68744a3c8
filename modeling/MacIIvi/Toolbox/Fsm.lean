import MacIIvi.Scsi.Cdb

/-!
# The Toolbox round-trip state machine

Source: `rtl/scsi.v`, "Round-trip FSM". It drives `tb_rd`, `tb_wr` and `tb_lba`
and walks one vendor command through the HPS: payload sectors first (SEND),
then the CDB block at LBA 0, then the status block at LBA 0, then the response
sectors (GET).
-/

namespace MacIIvi

/-- SCSI phases of a target. -/
inductive Phase where
  | idle | cmdIn | dataOut | dataIn | statusOut | messageOut | tb
  deriving DecidableEq, Repr

inductive TbState where
  | idle | load | req | req2 | stat | latch | latch2 | data | stream | coll | collw | rdy
  deriving DecidableEq, Repr

/-- The registers of the round-trip FSM. -/
structure Tb where
  state : TbState := .idle
  rdR : Bool := false
  wrR : Bool := false
  lbaR : Nat := 0
  status : Byte := 0
  len : Nat := 0
  loadW : Nat := 0
  settle : Nat := 0
  tbTo : Nat := 0
  oldAck : Bool := false
  fetchSec : Nat := 0
  secDone : Nat := 0
  fetchBusy : Bool := false
  colSlot : Nat := 0
  colLba : Nat := 0
  shipDone : Nat := 0
  sendFault : Bool := false
  shipSlot : Nat := 0
  sendPos : Nat := 0
  retry : Nat := 0
  getFault : Bool := false

/-- The wires the FSM reads besides its own registers. `b0`, `b1`, `b0Next` and
`b1Next` are the port-B and look-ahead outputs of the two Toolbox buffers. -/
structure TbIn where
  rst : Bool
  enable : Bool
  phase : Phase
  ack : Bool
  stbAck : Bool
  dataCnt : Nat
  maxsec : Nat
  send : Bool
  sendPrep : Bool
  sendData : Bool
  sendLen : Nat
  tailLast : Nat
  b0 : Byte
  b1 : Byte
  b0Next : Byte
  b1Next : Byte

namespace TbIn

def sendPay (w : TbIn) : Bool := w.sendPrep || w.sendData

/-- `tb_collect`: a SEND payload is arriving. -/
def collect (w : TbIn) : Bool := w.phase == .dataIn && w.send

/-- `tb_col_lin`: the payload starts at block byte 16. -/
def colLin (w : TbIn) : Nat := w.dataCnt % 65536 + 16

/-- `tb_col_word` -/
def colWord (w : TbIn) : Nat := w.colLin % 512 / 2

/-- `tb_col_sec_full`: the byte at offset 511 of a sector is being stored. -/
def colSecFull (w : TbIn) : Bool := w.collect && w.stbAck && w.colLin % 512 == 511

/-- `tb_srv_sec` -/
def srvSec (w : TbIn) : Nat := w.dataCnt % 131072 / 512

/-- `tb_srv_sec_ahead` -/
def srvSecAhead (w : TbIn) : Nat := (w.dataCnt % 131072 + 3) % 131072 / 512

end TbIn

namespace Tb

/-- `TB_RETRY_MAX`: looks at the status block. -/
def retryMax : Nat := 96

/-- `TB_STALL_RETRY_MAX`: re-arms of one data transfer. -/
def stallRetryMax : Nat := 512

/-- `TB_SEC_MAX` -/
def secMax : Nat := 128

/-- `tb_nsec`: sectors of the response, at least one. -/
def nsec (s : Tb) : Nat :=
  let raw := s.len % 131072 / 512 + (if s.len % 512 = 0 then 0 else 1)
  if raw = 0 then 1 else min raw secMax

/-- `tb_srv_len` -/
def srvLen (s : Tb) : Nat := min s.len (secMax * 512)

/-- `&tb_to`: the watchdog has run out. -/
def toFull (s : Tb) : Bool := s.tbTo == 2 ^ 18 - 1

def toNext (s : Tb) : Nat := (s.tbTo + 1) % 2 ^ 18

/-- `old_tb_ack & ~tb_ack` -/
def ackFall (w : TbIn) (s : Tb) : Bool := s.oldAck && !w.ack

/-- `tb_col_stall`: the next ring slot still waits to be shipped. -/
def colStall (w : TbIn) (s : Tb) : Bool :=
  w.collect && (w.maxsec + 255) % 256 ≤ (s.colLba + 256 - s.shipDone) % 256

/-- `tb_ship_pending` -/
def shipPending (s : Tb) : Bool := s.colLba != 0 && decide (s.shipDone < s.colLba - 1)

/-- The slot after `slot` in the payload ring `1 .. maxsec - 1`. -/
def rotate (maxsec slot : Nat) : Nat :=
  if (maxsec + 31) % 32 ≤ slot then 1 else (slot + 1) % 32

/-- `tb_get_stall` without its phase term. -/
def srvBehind (w : TbIn) (s : Tb) : Bool :=
  decide (s.secDone ≤ w.srvSec) ||
    (decide (w.srvSecAhead < s.nsec) && decide (s.secDone ≤ w.srvSecAhead))

/-- The registers after a bus reset. `tb_send_pos` keeps its value. -/
def busReset (w : TbIn) (s : Tb) : Tb :=
  { state := .idle, rdR := false, wrR := false, lbaR := 0, status := 0x02, len := 0, loadW := 0
    settle := 0, tbTo := 0, oldAck := w.ack, fetchSec := 0, secDone := 0, fetchBusy := false
    colSlot := 0, colLba := 0, shipDone := 0, sendFault := false, shipSlot := 1
    sendPos := s.sendPos, retry := 0, getFault := false }

/-- The assignments made in every state: the acknowledge delay and the ring
position of the collector. -/
def collected (w : TbIn) (s : Tb) : Tb :=
  if w.colSecFull then
    { s with
      oldAck := w.ack
      colSlot := rotate w.maxsec s.colSlot
      colLba := (s.colLba + 1) % 256 }
  else { s with oldAck := w.ack }

/-- `TBS_IDLE` -/
def stepIdle (w : TbIn) (s : Tb) : Tb :=
  let s₁ : Tb :=
    { collected w s with loadW := 0, fetchSec := 0, retry := 0, getFault := false }
  if w.phase = .tb then { s₁ with state := .load }
  else if w.phase = .dataIn ∧ w.sendPay then
    { s₁ with
      colSlot := 0, colLba := 0, shipDone := 0, shipSlot := 1, sendFault := false, state := .coll }
  else s₁

/-- `TBS_COLL`: hand completed payload sectors over in order; after the phase,
the short last sector, then the CDB block. -/
def stepColl (w : TbIn) (s : Tb) : Tb :=
  let s₁ := collected w s
  if s.shipPending then
    { s₁ with
      fetchSec := s.shipSlot, lbaR := (s.shipDone + 1) % 256, wrR := true, tbTo := 0, retry := 0
      state := .collw }
  else if w.phase = .tb then
    if s.colLba ≠ 0 ∧ w.colLin % 512 ≠ 0 then
      { s₁ with
        fetchSec := s.colSlot, lbaR := s.colLba, wrR := true, tbTo := 0, retry := 0, colLba := 0
        state := .collw }
    else { s₁ with fetchSec := 0, state := .load }
  else if w.phase ≠ .dataIn then { s₁ with state := .idle }
  else s₁

/-- `TBS_COLLW`: wait for the ship; a timeout re-arms the same sector until the
budget is gone. -/
def stepCollw (w : TbIn) (s : Tb) : Tb :=
  let s₁ : Tb := { collected w s with wrR := s.wrR && !w.ack, tbTo := s.toNext }
  let shipped : Tb :=
    { s₁ with
      shipDone := (s.shipDone + 1) % 256, shipSlot := rotate w.maxsec s.shipSlot, state := .coll }
  if s.ackFall w then { shipped with retry := 0 }
  else if s.toFull then
    if s.retry ≠ stallRetryMax then
      { s₁ with retry := (s.retry + 1) % 1024, tbTo := 0, wrR := if w.ack then s₁.wrR else true }
    else { shipped with sendFault := true, wrR := false }
  else s₁

/-- `TBS_LOAD`: five words of CDB into the buffer, then the request. -/
def stepLoad (w : TbIn) (s : Tb) : Tb :=
  let s₁ := collected w s
  if s.loadW = 4 then
    { s₁ with
      fetchSec := 0
      sendPos :=
        if w.sendPrep then 0
        else if w.sendData then (s.sendPos + w.sendLen / 512) % 2 ^ 24
        else s.sendPos
      wrR := true, lbaR := 0, state := .req }
  else { s₁ with loadW := (s.loadW + 1) % 16 }

/-- `TBS_REQ2`: no state leads here any more. -/
def stepReq2 (w : TbIn) (s : Tb) : Tb :=
  let s₁ : Tb := { collected w s with wrR := s.wrR && !w.ack, tbTo := s.toNext }
  if s.ackFall w ∨ s.toFull then
    if s.fetchSec < w.tailLast then
      { s₁ with
        fetchSec := (s.fetchSec + 1) % 256, wrR := true, lbaR := (s.lbaR + 1) % 2 ^ 32, tbTo := 0 }
    else { s₁ with fetchSec := 0, wrR := true, lbaR := 0, tbTo := 0, state := .req }
  else s₁

/-- `TBS_REQ`: the HPS reads the CDB block and runs the handler. -/
def stepReq (w : TbIn) (s : Tb) : Tb :=
  let s₁ : Tb := { collected w s with wrR := s.wrR && !w.ack }
  if s.ackFall w then { s₁ with rdR := true, lbaR := 0, tbTo := 0, state := .stat } else s₁

/-- `TBS_STAT`: proceed on the acknowledge fall or on the watchdog. -/
def stepStat (w : TbIn) (s : Tb) : Tb :=
  let s₁ : Tb := { collected w s with rdR := s.rdR && !w.ack, tbTo := s.toNext }
  if s.ackFall w ∨ s.toFull then { s₁ with settle := 8, state := .latch } else s₁

/-- `TBS_LATCH`: read words 0 and 1 of the buffer; without the signature the
status read is issued again until the budget is gone. -/
def stepLatch (w : TbIn) (s : Tb) : Tb :=
  let s₁ := collected w s
  if s.settle ≠ 0 then { s₁ with settle := s.settle - 1 }
  else if w.b1 = 0xb5 then
    { s₁ with
      status := if s.sendFault then 0x02 else w.b0
      len := s.len / 65536 * 65536 + (w.b0Next.toNat * 256 + w.b1Next.toNat)
      settle := 8, state := .latch2 }
  else if s.retry ≠ retryMax then
    { s₁ with
      retry := (s.retry + 1) % 1024, rdR := true, lbaR := 0, tbTo := 0, state := .stat }
  else { s₁ with status := 0x02, len := 0, state := .rdy }

/-- `TBS_LATCH2`: bit 16 of the length from buffer byte 4; a response with data
starts its first fetch once no acknowledge is live. -/
def stepLatch2 (w : TbIn) (s : Tb) : Tb :=
  let s₁ := collected w s
  if s.settle ≠ 0 then { s₁ with settle := s.settle - 1 }
  else if !w.ack then
    let len := (if w.b0.getLsbD 0 then 65536 else 0) + s.len % 65536
    if len ≠ 0 then
      { s₁ with
        len := len, rdR := true, lbaR := 1, fetchSec := 0, tbTo := 0, secDone := 0
        fetchBusy := true, retry := 0, state := .data }
    else { s₁ with len := len, state := .rdy }
  else s₁

/-- `TBS_DATA`: the first response sector; a timeout re-arms the same fetch. -/
def stepData (w : TbIn) (s : Tb) : Tb :=
  let s₁ : Tb := { collected w s with rdR := s.rdR && !w.ack, tbTo := s.toNext }
  if s.ackFall w then
    let s₂ : Tb := { s₁ with retry := 0, secDone := (s.secDone + 1) % 512 }
    if s.nsec ≤ s.fetchSec + 1 then { s₂ with fetchBusy := false, state := .rdy }
    else
      { s₂ with
        fetchSec := (s.fetchSec + 1) % 256, lbaR := (s.lbaR + 1) % 2 ^ 32, rdR := true, tbTo := 0
        fetchBusy := true, state := .stream }
  else if s.toFull then
    if s.retry ≠ stallRetryMax then
      { s₁ with retry := (s.retry + 1) % 1024, tbTo := 0, rdR := if w.ack then s₁.rdR else true }
    else
      { s₁ with status := 0x02, len := 0, rdR := false, fetchBusy := false, state := .rdy }
  else s₁

/-- `TBS_STREAM`: the other response sectors, at most one ring ahead of the
byte being served. -/
def stepStream (w : TbIn) (s : Tb) : Tb :=
  let s₁ : Tb := { collected w s with rdR := s.rdR && !w.ack, tbTo := s.toNext }
  if s.fetchBusy then
    if s.ackFall w then
      { s₁ with
        retry := 0, fetchBusy := false, secDone := (s.secDone + 1) % 512
        state := if s.nsec ≤ s.fetchSec + 1 then .rdy else .stream }
    else if s.toFull then
      if s.retry ≠ stallRetryMax then
        { s₁ with retry := (s.retry + 1) % 1024, tbTo := 0, rdR := if w.ack then s₁.rdR else true }
      else { s₁ with getFault := true, rdR := false, fetchBusy := false, state := .rdy }
    else s₁
  else if s.nsec ≤ s.fetchSec + 1 then { s₁ with state := .rdy }
  else if !w.ack ∧ s.fetchSec + 1 < w.srvSec + w.maxsec then
    { s₁ with
      fetchSec := (s.fetchSec + 1) % 256, lbaR := (s.lbaR + 1) % 2 ^ 32, rdR := true, tbTo := 0
      fetchBusy := true }
  else s₁

/-- `TBS_RDY`: wait until the phase FSM has taken the result. -/
def stepRdy (w : TbIn) (s : Tb) : Tb :=
  if w.phase ≠ .tb then { collected w s with state := .idle } else collected w s

/-- One clock edge of the FSM. -/
def step (w : TbIn) (s : Tb) : Tb :=
  if w.rst then busReset w s
  else if w.enable then
    match s.state with
    | .idle => stepIdle w s
    | .coll => stepColl w s
    | .collw => stepCollw w s
    | .load => stepLoad w s
    | .req2 => stepReq2 w s
    | .req => stepReq w s
    | .stat => stepStat w s
    | .latch => stepLatch w s
    | .latch2 => stepLatch2 w s
    | .data => stepData w s
    | .stream => stepStream w s
    | .rdy => stepRdy w s
  else { s with oldAck := w.ack }

end Tb

end MacIIvi
