import MacIIvi.CdAudio.Toc
import Mathlib.Tactic.Simps.Basic

/-!
# The main state machine of the CD-audio engine

Source: `rtl/cd_audio.sv`, "MAIN FSM". It fetches the TOC blob, builds the
three response tables from it, executes the audio commands and refreshes the
position registers. One function per state; what every state does first is
`preamble`. The probe counters are not modelled.
-/

namespace MacIIvi

namespace CdAudio

/-- `mst` -/
inductive MState where
  | idle | acqReq | acqWait | hdrRd | emitH | loDiv | emitLo | trkRd | trkDiv | emitTrk | built
  | cmd | ctrkRd | apply | refScan | refDiva | refDivr
  | t43Hdr | t43Rd | t43Div | t43Emit
  | t2Hdr | t2Rd | t2Div | t2Trk | t2A2 | t2A01 | t2Sess | scanGo
  deriving DecidableEq, Repr

/-- `pstate` -/
inductive PState where
  | idle | play | pause | ended
  deriving DecidableEq, Repr

/-- The write port of one response table. -/
structure PlanePort where
  we : Bool := false
  wa : Nat := 0
  wd : Byte := 0

/-- The blob fetch and the read port of the blob memory. -/
structure BlobPort where
  tocRd : Bool := false
  tocAct : Bool := false
  tocLba : Nat := 0
  blobCap : Bool := false
  blobBlk : Bool := false
  blobRa : Nat := 0

/-- What the tables are built from, their write ports and their lengths. -/
structure Tables where
  tocValid : Bool := false
  tocReady : Bool := false
  nTracks : Nat := 1
  leadoutLba : Nat := 0
  discAudio : Bool := false
  resp : PlanePort := {}
  t43 : PlanePort := {}
  toc43Len : Nat := 0
  t2 : PlanePort := {}
  toc2Len : Nat := 0

/-- The registers of the table loops. -/
structure Build where
  emitK : Nat := 0
  tIdx : Nat := 0
  tStart : Nat := 0
  tCtrl : Byte := 0
  t43Lo : Bool := false
  t2Lo : Bool := false
  t2Ek : Nat := 0
  t2Wbase : Nat := 0
  t2Fctrl : Byte := 0x14
  t2Fm : Nat := 0
  t2Fs : Nat := 0
  t2Ff : Nat := 0
  t2HasData : Bool := false

/-- Playback state. -/
structure Playback where
  pstate : PState := .idle
  curLba : Nat := 0
  stopLba : Nat := 0
  flush : Bool := false
  scanX : Bool := false
  scanDir : Bool := false

/-- The captured command and its resolved addresses. -/
structure Command where
  cmdPend : Bool := false
  c : Cdb := fun _ => 0
  cAddr : Nat := 0
  cNext : Nat := 0
  cTrk : Nat := 0
  cTrk2 : Nat := 0

/-- The working registers of the status refresh. -/
structure Refresh where
  refCnt : Nat := 0
  refAbs : Nat := 0
  scanStart : Nat := 0
  scanIdx : Nat := 0
  scanBestTrk : Nat := 0
  scanBestCtrl : Byte := 0
  scanCtrlC : Byte := 0
  scanBestStart : Nat := 0
  refmHold : Nat := 0
  refsHold : Nat := 0

/-- The position registers the status commands report. -/
structure Position where
  curCtrl : Byte := 0x14
  curTrk : Nat := 1
  absM : Nat := 0
  absS : Nat := 0
  absF : Nat := 0
  relM : Nat := 0
  relS : Nat := 0
  relF : Nat := 0

/-- The registers of the main FSM. -/
structure Main where
  mst : MState := .idle
  step : Nat := 0
  div : Divider := {}
  blob : BlobPort := {}
  tab : Tables := {}
  bld : Build := {}
  play : Playback := {}
  cmd : Command := {}
  ref : Refresh := {}
  pos : Position := {}

/-- The wires the main FSM reads besides its own registers. -/
structure MainIn where
  rst : Bool
  busRst : Bool
  mounted : Bool
  imgMounted : Bool
  imgBlocks : Nat
  cmdStb : Bool
  cdb : Cdb
  readStb : Bool
  ejectStb : Bool
  grant : Bool
  ioAck : Bool
  ackFall : Bool
  frAct : Bool
  frameDone : Bool
  blobQ : BitVec 16

namespace MainIn

/-- `blob_b0` -/
def b0 (w : MainIn) : Byte := w.blobQ.extractLsb' 0 8

/-- `blob_b1` -/
def b1 (w : MainIn) : Byte := w.blobQ.extractLsb' 8 8

end MainIn

namespace Playback

/-- Sectors the playhead moves per consumed frame. -/
def stride (s : Playback) : Nat := if s.scanX then 8 else 1

/-- A rewinding scan is on. -/
def rewinding (s : Playback) : Bool := s.scanX && s.scanDir

/-- The next sector is at or past the stop position. -/
def reachesStop (s : Playback) : Bool :=
  !s.rewinding && decide (s.stopLba ≤ (s.curLba + s.stride) % 2 ^ 32)

/-- The playhead after a consumed frame. -/
def advanced (s : Playback) : Nat :=
  if s.rewinding then if 8 < s.curLba then s.curLba - 8 else 0
  else if s.reachesStop then s.stopLba
  else (s.curLba + s.stride) % 2 ^ 32

/-- A READ, an eject, a bus reset or a missing disc stops playback. -/
def stopped (w : MainIn) (s : Playback) : Bool :=
  (w.readStb || w.ejectStb || w.busRst || !w.mounted) && s.pstate != .idle

/-- What every clock does to the playback state before the FSM's own state is
looked at. -/
def preamble (w : MainIn) (s : Playback) : Playback :=
  { s with
    flush := false
    pstate :=
      if w.frameDone && s.reachesStop then .ended
      else if s.stopped w then .idle
      else s.pstate
    scanX := !(w.frameDone && s.reachesStop) && !s.stopped w && s.scanX
    curLba := if w.frameDone then s.advanced else s.curLba }

/-- Move the playhead and drop the queued frames. -/
def seek (s : Playback) (lba : Nat) : Playback := { s with curLba := lba, flush := true }

end Playback

namespace Tables

/-- The write strobes fall unless a state raises them again. -/
@[simps]
def strobesLow (s : Tables) : Tables :=
  { s with
    resp := { s.resp with we := false }
    t43 := { s.t43 with we := false }
    t2 := { s.t2 with we := false } }

@[simps]
def writeResp (s : Tables) (wa : Nat) (wd : Byte) : Tables :=
  { s with resp := { we := true, wa := wa % 512, wd := wd } }

@[simps]
def writeT43 (s : Tables) (wa : Nat) (wd : Byte) : Tables :=
  { s with t43 := { we := true, wa := wa % 512, wd := wd } }

@[simps]
def writeT2 (s : Tables) (wa : Nat) (wd : Byte) : Tables :=
  { s with t2 := { we := true, wa := wa % 512, wd := wd } }

/-- `w_t43_nreal` -/
def t43Nreal (s : Tables) : Nat := min s.nTracks 60

/-- `w_t43_dlen` -/
def t43Dlen (s : Tables) : Nat := ((s.t43Nreal + 1) * 8 + 2) % 1024

/-- `w_t2_n` -/
def t2N (s : Tables) : Nat := min s.nTracks 41

/-- `w_t2_dlen`: eleven bytes a row. -/
def t2Dlen (s : Tables) : Nat :=
  let rows := s.t2N + 3
  (rows % 128 * 8 + rows % 512 * 2 + rows + 2) % 1024

/-- Word address of the entry of track `k`, clamped to the last track. -/
def entryWord (s : Tables) (base k : Nat) : Nat :=
  (base + (if k < s.nTracks then k else (s.nTracks + 127) % 128) * 4) % 512

end Tables

namespace Command

/-- `c_op` -/
def op (s : Command) : Byte := s.c 0

/-- The two form bits of a vendor command. -/
def form (s : Command) : Nat := (s.c 9).toNat / 64

/-- `play_lba_ff`: PLAY AUDIO from the current position. -/
def playLbaFf (s : Command) : Bool :=
  s.c 2 == 0xff && s.c 3 == 0xff && s.c 4 == 0xff && s.c 5 == 0xff

end Command

namespace Main

/-- The registers a system reset writes; the others keep their values. -/
def reset (s : Main) : Main :=
  { s with
    mst := .idle, step := 0, blob := {}, tab := {}, play := {}, pos := {}
    bld := { tStart := s.bld.tStart, tCtrl := s.bld.tCtrl }
    cmd := { s.cmd with cmdPend := false }
    ref := { s.ref with refCnt := 0 } }

/-- What is assigned before the state is looked at: the strobes fall, a command
is captured, playback stops, and a consumed frame moves the playhead. -/
@[simps]
def preamble (w : MainIn) (s : Main) : Main :=
  { s with
    tab := s.tab.strobesLow
    play := s.play.preamble w
    cmd :=
      { s.cmd with
        c := if w.cmdStb then w.cdb else s.cmd.c
        cmdPend := w.cmdStb || s.cmd.cmdPend } }

/-! ### Idle and TOC acquisition -/

/-- Start over with the first blob block. -/
def acquire (s : Main) : Main :=
  { s with
    tab := { s.tab with tocReady := false, tocValid := false }
    blob := { s.blob with blobCap := false, blobBlk := false }
    mst := .acqReq }

/-- `M_IDLE` -/
def stepIdle (w : MainIn) (s : Main) : Main :=
  let s₁ := preamble w s
  let quiet : BlobPort := { s.blob with blobCap := false }
  if w.imgMounted && w.mounted then
    { acquire s₁ with play := { s₁.play with pstate := .idle } }
  else if w.mounted && !s.tab.tocReady then acquire s₁
  else if s.cmd.cmdPend then
    { s₁ with blob := quiet, cmd := { s₁.cmd with cmdPend := false }, mst := .cmd }
  else if s.ref.refCnt = 2 ^ 16 - 1 ∧ s.tab.tocReady ∧ w.mounted then
    { s₁ with
      blob := quiet
      ref :=
        { s.ref with
          refCnt := 0, refAbs := s.play.curLba, scanIdx := 0, scanBestTrk := 0
          scanBestStart := 0, scanBestCtrl := 0x14 }
      step := 0, mst := if s.tab.tocValid then .refScan else .refDiva }
  else { s₁ with blob := quiet, ref := { s.ref with refCnt := (s.ref.refCnt + 1) % 2 ^ 16 } }

/-- `M_ACQ_REQ`: an unmount gives up, else wait for the channel. -/
def stepAcqReq (w : MainIn) (s : Main) : Main :=
  if !w.mounted then { preamble w s with mst := .idle }
  else if w.grant && !w.frAct then
    { preamble w s with
      blob :=
        { s.blob with
          tocLba := tocBlk + s.blob.blobBlk.toNat, tocRd := true, tocAct := true
          blobCap := true }
      mst := .acqWait }
  else preamble w s

/-- `M_ACQ_WAIT` -/
def stepAcqWait (w : MainIn) (s : Main) : Main :=
  let tocRd := s.blob.tocRd && !w.ioAck
  if w.ackFall && s.blob.tocAct then
    if !s.blob.blobBlk then
      { preamble w s with
        blob := { s.blob with tocRd := tocRd, tocAct := false, blobCap := false, blobBlk := true }
        mst := .acqReq }
    else
      { preamble w s with
        blob := { s.blob with tocRd := tocRd, tocAct := false, blobCap := false, blobRa := 0 }
        step := 0, mst := .hdrRd }
  else if !w.mounted && !s.blob.tocAct then
    { preamble w s with blob := { s.blob with tocRd := false, blobCap := false }, mst := .idle }
  else { preamble w s with blob := { s.blob with tocRd := tocRd } }

/-- `M_HDR_RD`: word `k` of the blob arrives at step `k + 1`. -/
def stepHdrRd (w : MainIn) (s : Main) : Main :=
  let s₁ : Main :=
    { preamble w s with
      blob := { s.blob with blobRa := (s.blob.blobRa + 1) % 512 }, step := (s.step + 1) % 8 }
  let put (tab : Tables) : Main := { s₁ with tab := tab }
  match s.step with
  | 1 => put { s₁.tab with tocValid := w.b0 == 0x4d && w.b1 == 0x43 }
  | 2 => put { s₁.tab with tocValid := s.tab.tocValid && w.b0 == 0x44 && w.b1 == 0x41 }
  | 4 =>
    if s.tab.tocValid then
      put { s₁.tab with
        nTracks := if w.b0 = 0 then 1 else if 99 < w.b0.toNat then 99 else w.b0.toNat % 128 }
    else s₁
  | 5 =>
    if s.tab.tocValid then
      put { s₁.tab with leadoutLba := s.tab.leadoutLba / 65536 * 65536 + w.blobQ.toNat }
    else s₁
  | 6 =>
    { s₁ with
      step := 0, bld := { s.bld with emitK := 0 }, mst := .emitH
      tab :=
        if s.tab.tocValid then
          { s₁.tab with leadoutLba := w.blobQ.toNat * 65536 + s.tab.leadoutLba % 65536 }
        else { s₁.tab with nTracks := 1, leadoutLba := w.imgBlocks / 4 } }
  | _ => s₁

/-! ### The 0xC1 table -/

/-- The emit counter of the first two tables counts up. -/
def emitNext (s : Main) : Build := { s.bld with emitK := (s.bld.emitK + 1) % 8 }

/-- `M_EMIT_H` -/
def stepEmitH (w : MainIn) (s : Main) : Main :=
  let put (wa : Nat) (wd : Byte) : Main :=
    { preamble w s with bld := emitNext s, tab := s.tab.strobesLow.writeResp wa wd }
  match s.bld.emitK with
  | 0 => put 0 0x01
  | 1 => put 1 (bin2bcd s.tab.nTracks)
  | 2 => put 2 0x00
  | _ => { put 3 0x00 with div := .load s.tab.leadoutLba, mst := .loDiv }

/-- A state that only divides, then goes on to `next` with its emit counter
cleared. -/
def stepDiv (w : MainIn) (s : Main) (next : MState) : Main :=
  match s.div.step with
  | some d => { preamble w s with div := d }
  | none => { preamble w s with bld := { s.bld with emitK := 0 }, mst := next }

/-- `M_LO_DIV` -/
def stepLoDiv (w : MainIn) (s : Main) : Main := stepDiv w s .emitLo

/-- `M_EMIT_LO` -/
def stepEmitLo (w : MainIn) (s : Main) : Main :=
  let put (wa : Nat) (wd : Byte) : Main :=
    { preamble w s with bld := emitNext s, tab := s.tab.strobesLow.writeResp wa wd }
  match s.bld.emitK with
  | 0 => put 4 (bin2bcd s.div.m)
  | 1 => put 5 (bin2bcd s.div.s)
  | 2 => put 6 (bin2bcd (s.div.v % 256))
  | _ => { put 7 0x00 with bld := { emitNext s with tIdx := 0 }, step := 0, mst := .trkRd }

/-- Stream the entry of track `t_idx` into `t_ctrl`, `t_start` and the divider;
without a valid blob, one data track at LBA 0. -/
def stepTrackRead (w : MainIn) (s : Main) (offset : Nat) (next : MState) : Main :=
  if !s.tab.tocValid then
    { preamble w s with
      bld := { s.bld with tCtrl := 0x14, tStart := 0 }, div := .load offset, mst := next }
  else
    let s₁ : Main := { preamble w s with step := (s.step + 1) % 8 }
    let ahead : BlobPort := { s.blob with blobRa := (s.blob.blobRa + 1) % 512 }
    let start := w.blobQ.toNat * 65536 + s.bld.tStart % 65536
    match s.step with
    | 0 => { s₁ with blob := { s.blob with blobRa := s.tab.entryWord 8 s.bld.tIdx } }
    | 1 => { s₁ with blob := ahead }
    | 2 => { s₁ with blob := ahead, bld := { s.bld with tCtrl := w.b0 } }
    | 3 => { s₁ with bld := { s.bld with tStart := s.bld.tStart / 65536 * 65536 + w.blobQ.toNat } }
    | _ =>
      { s₁ with
        bld := { s.bld with tStart := start }, div := .load (start + offset), step := 0
        mst := next }

/-- `M_TRK_RD` -/
def stepTrkRd (w : MainIn) (s : Main) : Main := stepTrackRead w s 0 .trkDiv

/-- `M_TRK_DIV` -/
def stepTrkDiv (w : MainIn) (s : Main) : Main := stepDiv w s .emitTrk

/-- `M_EMIT_TRK` -/
def stepEmitTrk (w : MainIn) (s : Main) : Main :=
  let put (wa : Nat) (wd : Byte) : Main :=
    { preamble w s with bld := emitNext s, tab := s.tab.strobesLow.writeResp wa wd }
  match s.bld.emitK with
  | 0 => put (8 + s.bld.tIdx * 4) s.bld.tCtrl
  | 1 => put (9 + s.bld.tIdx * 4) (bin2bcd s.div.m)
  | 2 => put (10 + s.bld.tIdx * 4) (bin2bcd s.div.s)
  | _ =>
    let s₁ := put (11 + s.bld.tIdx * 4) (bin2bcd (s.div.v % 256))
    if s.bld.tIdx = 98 then { s₁ with mst := .built }
    else
      { s₁ with
        bld := { emitNext s with tIdx := (s.bld.tIdx + 1) % 128 }, step := 0, mst := .trkRd }

/-- `M_BUILT` -/
def stepBuilt (w : MainIn) (s : Main) : Main :=
  { preamble w s with bld := { s.bld with emitK := 0 }, mst := .t43Hdr }

/-! ### The 0x43 format-0 table -/

/-- `M_T43_HDR` -/
def stepT43Hdr (w : MainIn) (s : Main) : Main :=
  let put (wa : Nat) (wd : Byte) : Main :=
    { preamble w s with bld := emitNext s, tab := s.tab.strobesLow.writeT43 wa wd }
  match s.bld.emitK with
  | 0 => put 0 (BitVec.ofNat 8 (s.tab.t43Dlen / 256))
  | 1 => put 1 (BitVec.ofNat 8 s.tab.t43Dlen)
  | 2 => put 2 0x01
  | _ =>
    { preamble w s with
      tab :=
        { s.tab.strobesLow.writeT43 3 (BitVec.ofNat 8 s.tab.nTracks) with
          toc43Len := (s.tab.t43Dlen + 2) % 1024 }
      bld := { emitNext s with tIdx := 0, t43Lo := false }, step := 0, mst := .t43Rd }

/-- `M_T43_RD` -/
def stepT43Rd (w : MainIn) (s : Main) : Main := stepTrackRead w s 150 .t43Div

/-- `M_T43_DIV` -/
def stepT43Div (w : MainIn) (s : Main) : Main := stepDiv w s .t43Emit

/-- The row of the format-0 table being written. -/
def t43Row (s : Main) : Nat := if s.bld.t43Lo then s.tab.t43Nreal else s.bld.tIdx

/-- `M_T43_EMIT`: one descriptor; the lead-out row is the last. -/
def stepT43Emit (w : MainIn) (s : Main) : Main :=
  let put (wd : Byte) : Main :=
    { preamble w s with
      bld := emitNext s
      tab := s.tab.strobesLow.writeT43 (4 + t43Row s * 8 + s.bld.emitK) wd }
  match s.bld.emitK with
  | 0 => put 0x00
  | 1 => put s.bld.tCtrl
  | 2 => put (if s.bld.t43Lo then 0xaa else BitVec.ofNat 8 (s.bld.tIdx + 1))
  | 3 => put 0x00
  | 4 => put 0x00
  | 5 => put (BitVec.ofNat 8 s.div.m)
  | 6 => put (BitVec.ofNat 8 s.div.s)
  | _ =>
    let s₁ := put (BitVec.ofNat 8 s.div.v)
    if s.bld.t43Lo then
      { s₁ with
        bld :=
          { emitNext s with
            t2Ek := 0, t2Lo := false, t2Wbase := 37, t2HasData := false, tIdx := 0 }
        step := 0, mst := .t2Hdr }
    else if (s.bld.tIdx + 1) % 128 < s.tab.t43Nreal then
      { s₁ with
        bld := { emitNext s with tIdx := (s.bld.tIdx + 1) % 128 }, step := 0, mst := .t43Rd }
    else
      { s₁ with
        bld := { emitNext s with t43Lo := true }, div := .load (s.tab.leadoutLba + 150)
        mst := .t43Div }

/-! ### The format-2 table and the session page -/

/-- The emit counter of the format-2 states counts up. -/
def ekNext (s : Main) : Build := { s.bld with t2Ek := (s.bld.t2Ek + 1) % 32 }

/-- One byte of the format-2 table. -/
def putT2 (w : MainIn) (s : Main) (wa : Nat) (wd : Byte) : Main :=
  { preamble w s with bld := ekNext s, tab := s.tab.strobesLow.writeT2 wa wd }

/-- `M_T2_HDR` -/
def stepT2Hdr (w : MainIn) (s : Main) : Main :=
  match s.bld.t2Ek with
  | 0 => putT2 w s 0 (BitVec.ofNat 8 (s.tab.t2Dlen / 256))
  | 1 => putT2 w s 1 (BitVec.ofNat 8 s.tab.t2Dlen)
  | 2 => putT2 w s 2 0x01
  | _ => { putT2 w s 3 0x01 with bld := { ekNext s with tIdx := 0 }, step := 0, mst := .t2Rd }

/-- `M_T2_RD` -/
def stepT2Rd (w : MainIn) (s : Main) : Main := stepTrackRead w s 150 .t2Div

/-- `M_T2_DIV`: its emit counter is `t2_ek`. -/
def stepT2Div (w : MainIn) (s : Main) : Main :=
  match s.div.step with
  | some d => { preamble w s with div := d }
  | none =>
    { preamble w s with
      bld := { s.bld with t2Ek := 0 }, mst := if s.bld.t2Lo then .t2A2 else .t2Trk }

/-- The loop registers after the last byte of a track row. -/
def rowNext (s : Main) : Build :=
  { ekNext s with
    t2HasData := s.bld.t2HasData || s.bld.tCtrl.getLsbD 2
    t2Wbase := (s.bld.t2Wbase + 11) % 512
    t2Fctrl := if s.bld.tIdx = 0 then s.bld.tCtrl else s.bld.t2Fctrl
    t2Fm := if s.bld.tIdx = 0 then s.div.m else s.bld.t2Fm
    t2Fs := if s.bld.tIdx = 0 then s.div.s else s.bld.t2Fs
    t2Ff := if s.bld.tIdx = 0 then s.div.v % 256 else s.bld.t2Ff }

/-- `M_T2_TRK` -/
def stepT2Trk (w : MainIn) (s : Main) : Main :=
  let put (wd : Byte) : Main := putT2 w s (s.bld.t2Wbase + s.bld.t2Ek) wd
  match s.bld.t2Ek with
  | 0 => put 0x01
  | 1 => put s.bld.tCtrl
  | 2 => put 0x00
  | 3 => put (BitVec.ofNat 8 (s.bld.tIdx + 1))
  | 4 | 5 | 6 | 7 => put 0x00
  | 8 => put (bin2bcd s.div.m)
  | 9 => put (bin2bcd s.div.s)
  | _ =>
    if (s.bld.tIdx + 1) % 128 < s.tab.t2N then
      { put (bin2bcd (s.div.v % 256)) with
        bld := { rowNext s with tIdx := (s.bld.tIdx + 1) % 128 }, step := 0, mst := .t2Rd }
    else
      { put (bin2bcd (s.div.v % 256)) with
        bld := { rowNext s with t2Lo := true }, div := .load (s.tab.leadoutLba + 150)
        mst := .t2Div }

/-- `M_T2_A2`: the lead-out row at 26. -/
def stepT2A2 (w : MainIn) (s : Main) : Main :=
  let put (wd : Byte) : Main := putT2 w s (26 + s.bld.t2Ek) wd
  match s.bld.t2Ek with
  | 0 => put 0x01
  | 1 => put s.bld.t2Fctrl
  | 2 => put 0x00
  | 3 => put 0xa2
  | 4 | 5 | 6 | 7 => put 0x00
  | 8 => put (bin2bcd s.div.m)
  | 9 => put (bin2bcd s.div.s)
  | _ => { put (bin2bcd (s.div.v % 256)) with bld := { s.bld with t2Ek := 0 }, mst := .t2A01 }

/-- `M_T2_A01`: rows A0 and A1, 22 bytes from 4. -/
def stepT2A01 (w : MainIn) (s : Main) : Main :=
  let put (wd : Byte) : Main := putT2 w s (4 + s.bld.t2Ek) wd
  match s.bld.t2Ek with
  | 0 => put 0x01
  | 1 => put s.bld.t2Fctrl
  | 2 => put 0x00
  | 3 => put 0xa0
  | 8 => put 0x01
  | 9 => put 0x00
  | 11 => put 0x01
  | 12 => put s.bld.t2Fctrl
  | 13 => put 0x00
  | 14 => put 0xa1
  | 19 => put (bin2bcd s.tab.t2N)
  | 21 => { put 0x00 with bld := { s.bld with t2Ek := 0 }, mst := .t2Sess }
  | _ => put 0x00

/-- `M_T2_SESS`: the session page at 496; then the TOC is ready. -/
def stepT2Sess (w : MainIn) (s : Main) : Main :=
  let put (wd : Byte) : Main := putT2 w s (496 + s.bld.t2Ek) wd
  match s.bld.t2Ek with
  | 0 => put 0x00
  | 1 => put 0x0a
  | 2 => put 0x01
  | 3 => put 0x01
  | 4 => put 0x00
  | 5 => put s.bld.t2Fctrl
  | 6 => put 0x01
  | 7 => put 0x00
  | 8 => put 0x00
  | 9 => put (BitVec.ofNat 8 s.bld.t2Fm)
  | 10 => put (BitVec.ofNat 8 s.bld.t2Fs)
  | _ =>
    { preamble w s with
      bld := ekNext s
      tab :=
        { s.tab.strobesLow.writeT2 (496 + s.bld.t2Ek) (BitVec.ofNat 8 s.bld.t2Ff) with
          toc2Len := (s.tab.t2Dlen + 2) % 1024
          discAudio := s.tab.tocValid && !s.bld.t2HasData
          tocReady := true }
      mst := .idle }

/-! ### Command execution -/

/-- What `M_CMD` does with a command: finish it with a new play state, or go on
with resolved addresses. -/
inductive CmdOutcome where
  | done (pstate : PState)
  | apply (cAddr cNext : Nat)
  | scan (cAddr : Nat)
  | track (trk trk2 : Nat)

/-- The command decode of `M_CMD`; `keep` is the play state when the command
leaves it alone. -/
def cmdOutcome (s : Main) (keep : PState) : CmdOutcome :=
  let c := s.cmd.c
  let pause : CmdOutcome := .done (if s.play.pstate = .play then .pause else keep)
  let resume : CmdOutcome := .done (if s.play.pstate = .pause then .play else keep)
  if s.cmd.op = 0xca then if c 1 = 0x10 then pause else resume
  else if s.cmd.op = 0xcd then
    .scan
      (if s.cmd.form = 0 then be32 (c 2) (c 3) (c 4) (c 5)
        else if s.cmd.form = 1 then msf2lbaStd (c 3) (c 4) (c 5)
        else s.play.curLba)
  else if s.cmd.op = 0xc8 ∨ s.cmd.op = 0xc9 ∨ s.cmd.op = 0xcb then
    if s.cmd.form = 1 then
      .apply
        (if s.cmd.op = 0xc9 then msf2lba (c 3) (c 4) (c 5) else msf2lba (c 5) (c 6) (c 7))
        s.cmd.cNext
    else if s.cmd.form = 2 then
      if bcd2bin (c 5) = 0 then .done (if s.cmd.op = 0xcb then keep else .idle)
      else
        .track (if bcd2bin (c 5) - 1 < 99 then bcd2bin (c 5) - 1 else 98)
          (if bcd2bin (c 5) < 99 then bcd2bin (c 5) else 99)
    else .apply (be32 (c 2) (c 3) (c 4) (c 5)) s.cmd.cNext
  else if s.cmd.op = 0x47 then
    .apply
      (if c 3 = 0xff ∧ c 4 = 0xff ∧ c 5 = 0xff then s.play.curLba
        else msf2lbaStd (c 3) (c 4) (c 5))
      (msf2lbaStd (c 6) (c 7) (c 8))
  else if s.cmd.op = 0x48 then
    if c 4 = 0 then .done .idle
    else
      .track (if (c 4).toNat - 1 < 99 then (c 4).toNat - 1 else 98)
        (if (c 7).toNat < 99 then (c 7).toNat else 99)
  else if s.cmd.op = 0x45 ∨ s.cmd.op = 0xa5 then
    let start := if s.cmd.playLbaFf then s.play.curLba else be32 (c 2) (c 3) (c 4) (c 5)
    let length := if s.cmd.op = 0x45 then be32 0 0 (c 7) (c 8) else be32 (c 6) (c 7) (c 8) (c 9)
    .apply start ((start + length) % 2 ^ 32)
  else if s.cmd.op = 0x4b then if (c 8).getLsbD 0 then resume else pause
  else if s.cmd.op = 0x4e ∨ s.cmd.op = 0x01 ∨ s.cmd.op = 0x0b ∨ s.cmd.op = 0x2b then
    .done (if s.play.pstate = .idle then keep else .idle)
  else .done keep

/-- `M_CMD`: any command but a scan ends a scan. -/
def stepCmd (w : MainIn) (s : Main) : Main :=
  let s₁ := preamble w s
  let play : Playback := { s₁.play with scanX := s.cmd.op == 0xcd && s₁.play.scanX }
  match cmdOutcome s s₁.play.pstate with
  | .done pstate => { s₁ with play := { play with pstate := pstate }, mst := .idle }
  | .apply cAddr cNext =>
    { s₁ with play := play, cmd := { s₁.cmd with cAddr := cAddr, cNext := cNext }, mst := .apply }
  | .scan cAddr => { s₁ with play := play, cmd := { s₁.cmd with cAddr := cAddr }, mst := .scanGo }
  | .track trk trk2 =>
    if s.tab.tocValid then
      { s₁ with
        play := play, cmd := { s₁.cmd with cTrk := trk, cTrk2 := trk2 }, step := 0
        mst := .ctrkRd }
    else
      -- without a valid blob the one track fills the disc
      { s₁ with
        play := play
        cmd := { s₁.cmd with cTrk := trk, cTrk2 := trk2, cAddr := 0, cNext := s.tab.leadoutLba }
        step := 0, mst := .apply }

/-- `M_CTRK_RD`: the start of a track and the start of the track that bounds the
play. -/
def stepCtrkRd (w : MainIn) (s : Main) : Main :=
  let s₁ : Main := { preamble w s with step := (s.step + 1) % 8 }
  let seek (word : Nat) : BlobPort := { s.blob with blobRa := word % 512 }
  match s.step with
  | 0 => { s₁ with blob := seek (s.tab.entryWord 9 s.cmd.cTrk) }
  | 1 => { s₁ with blob := seek (s.blob.blobRa + 1) }
  | 2 =>
    { s₁ with
      cmd := { s₁.cmd with cAddr := s.cmd.cAddr / 65536 * 65536 + w.blobQ.toNat }
      blob := seek (s.tab.entryWord 9 s.cmd.cTrk2) }
  | 3 =>
    { s₁ with
      cmd := { s₁.cmd with cAddr := w.blobQ.toNat * 65536 + s.cmd.cAddr % 65536 }
      blob := seek (s.blob.blobRa + 1) }
  | 4 => { s₁ with cmd := { s₁.cmd with cNext := s.cmd.cNext / 65536 * 65536 + w.blobQ.toNat } }
  | _ =>
    { s₁ with
      cmd :=
        { s₁.cmd with
          cNext :=
            if s.tab.nTracks ≤ s.cmd.cTrk2 then s.tab.leadoutLba
            else w.blobQ.toNat * 65536 + s.cmd.cNext % 65536 }
      step := 0, mst := .apply }

/-- The stop position a scan or a play needs past a stale one. -/
def stopPast (s : Main) : Nat :=
  if s.play.stopLba ≤ s.cmd.cAddr then s.tab.leadoutLba else s.play.stopLba

/-- `M_SCAN_GO` -/
def stepScanGo (w : MainIn) (s : Main) : Main :=
  let back := (s.cmd.c 1).getLsbD 4
  { preamble w s with
    play :=
      { (s.play.preamble w).seek s.cmd.cAddr with
        scanX := true, scanDir := back, pstate := .play
        stopLba := if back then s.play.stopLba else stopPast s }
    mst := .idle }

/-- The playback state `M_APPLY` leaves. -/
def applied (w : MainIn) (s : Main) : Playback :=
  let play := s.play.preamble w
  let backward := (s.cmd.c 1).getLsbD 4
  if s.cmd.op = 0xcb then
    let stop := if s.cmd.form = 2 then s.cmd.cNext else s.cmd.cAddr
    if (s.play.pstate = .play ∨ s.play.pstate = .pause) ∧ stop ≤ s.play.curLba then
      { play with stopLba := stop, pstate := .idle }
    else { play with stopLba := stop }
  else if s.cmd.op = 0xc9 then
    if backward then
      -- the address is the end; the start stays at the current position
      if s.play.curLba < s.cmd.cAddr then { play with stopLba := s.cmd.cAddr, pstate := .play }
      else { play with stopLba := s.cmd.cAddr }
    else
      { play.seek s.cmd.cAddr with
        pstate := .play
        stopLba := if s.cmd.form = 2 then s.tab.leadoutLba else stopPast s }
  else if s.cmd.op = 0x47 ∨ s.cmd.op = 0x48 ∨ s.cmd.op = 0x45 ∨ s.cmd.op = 0xa5 then
    if s.cmd.cAddr = s.cmd.cNext then play.seek s.cmd.cAddr
    else
      { play.seek s.cmd.cAddr with
        stopLba := s.cmd.cNext
        pstate := if s.cmd.cAddr < s.cmd.cNext then .play else .idle }
  else
    { play.seek s.cmd.cAddr with
      pstate := if backward then .play else .pause
      stopLba := if s.cmd.form = 2 then s.cmd.cNext else stopPast s }

/-- `M_APPLY` -/
def stepApply (w : MainIn) (s : Main) : Main :=
  { preamble w s with play := applied w s, mst := .idle }

/-! ### Status refresh -/

/-- `M_REF_SCAN`: the last track that starts at or before the position. -/
def stepRefScan (w : MainIn) (s : Main) : Main :=
  let s₁ : Main := { preamble w s with step := (s.step + 1) % 8 }
  let seek (word : Nat) : BlobPort := { s.blob with blobRa := word % 512 }
  match s.step with
  | 0 => { s₁ with blob := seek (8 + s.ref.scanIdx * 4) }
  | 1 => { s₁ with blob := seek (s.blob.blobRa + 1) }
  | 2 => { s₁ with blob := seek (s.blob.blobRa + 1), ref := { s.ref with scanCtrlC := w.b0 } }
  | 3 =>
    { s₁ with ref := { s.ref with scanStart := s.ref.scanStart / 65536 * 65536 + w.blobQ.toNat } }
  | _ =>
    let start := w.blobQ.toNat * 65536 + s.ref.scanStart % 65536
    let best : Refresh :=
      if start ≤ s.ref.refAbs then
        { s.ref with
          scanBestStart := start, scanBestTrk := s.ref.scanIdx, scanBestCtrl := s.ref.scanCtrlC }
      else s.ref
    if (s.ref.scanIdx + 1) % 128 < s.tab.nTracks then
      { s₁ with step := 0, ref := { best with scanIdx := (s.ref.scanIdx + 1) % 128 } }
    else { s₁ with step := 0, ref := best, div := .load s.ref.refAbs, mst := .refDiva }

/-- `M_REF_DIVA`: the absolute position. Without a valid blob the state is
entered with `step` 0 and sets itself up first. -/
def stepRefDiva (w : MainIn) (s : Main) : Main :=
  if !s.tab.tocValid && s.step == 0 then
    { preamble w s with
      ref := { s.ref with scanBestStart := 0, scanBestTrk := 0, scanBestCtrl := 0x14 }
      div := .load s.ref.refAbs, step := 1 }
  else
    match s.div.step with
    | some d => { preamble w s with div := d }
    | none =>
      { preamble w s with
        ref := { s.ref with refmHold := s.div.m, refsHold := s.div.s }
        pos := { s.pos with absF := s.div.v % 256 }
        div := .load (s.ref.refAbs + 2 ^ 32 - s.ref.scanBestStart), step := 0, mst := .refDivr }

/-- `M_REF_DIVR`: the position inside the track; then the registers are set. -/
def stepRefDivr (w : MainIn) (s : Main) : Main :=
  match s.div.step with
  | some d => { preamble w s with div := d }
  | none =>
    { preamble w s with
      pos :=
        { s.pos with
          absM := s.ref.refmHold, absS := s.ref.refsHold, relM := s.div.m, relS := s.div.s
          relF := s.div.v % 256, curCtrl := s.ref.scanBestCtrl, curTrk := s.ref.scanBestTrk + 1 }
      mst := .idle }

/-- One clock edge of the main FSM. -/
def next (w : MainIn) (s : Main) : Main :=
  if w.rst then reset s
  else
    match s.mst with
    | .idle => stepIdle w s
    | .acqReq => stepAcqReq w s
    | .acqWait => stepAcqWait w s
    | .hdrRd => stepHdrRd w s
    | .emitH => stepEmitH w s
    | .loDiv => stepLoDiv w s
    | .emitLo => stepEmitLo w s
    | .trkRd => stepTrkRd w s
    | .trkDiv => stepTrkDiv w s
    | .emitTrk => stepEmitTrk w s
    | .built => stepBuilt w s
    | .cmd => stepCmd w s
    | .ctrkRd => stepCtrkRd w s
    | .apply => stepApply w s
    | .refScan => stepRefScan w s
    | .refDiva => stepRefDiva w s
    | .refDivr => stepRefDivr w s
    | .t43Hdr => stepT43Hdr w s
    | .t43Rd => stepT43Rd w s
    | .t43Div => stepT43Div w s
    | .t43Emit => stepT43Emit w s
    | .t2Hdr => stepT2Hdr w s
    | .t2Rd => stepT2Rd w s
    | .t2Div => stepT2Div w s
    | .t2Trk => stepT2Trk w s
    | .t2A2 => stepT2A2 w s
    | .t2A01 => stepT2A01 w s
    | .t2Sess => stepT2Sess w s
    | .scanGo => stepScanGo w s

end Main

end CdAudio

end MacIIvi
