import MacIIvi.CdAudio.Main

/-!
# The CD-audio engine

Source: `rtl/cd_audio.sv`. The frame fetch FSM, the sample engine and the
memories around the main FSM. Each block of registers is written by one
`always` block; the reads of one clock see the values before the edge.
-/

namespace MacIIvi

namespace CdAudio

/-- `fst` -/
inductive FState where
  | idle | req | wait
  deriving DecidableEq, Repr

/-- The registers of the FETCH FSM. -/
structure FrameFetch where
  fst : FState := .idle
  frCap : Bool := false
  frValid0 : Bool := false
  frValid1 : Bool := false
  frHalfW : Bool := false
  frRd : Bool := false
  frAct : Bool := false
  frLba : Nat := 0
  fetchLba : Nat := 0
  fetchSync : Bool := true

/-- The registers of the sample engine that decide its pace, and its cadence
targets. -/
structure Sampler where
  acc : Nat := 0
  widx : Nat := 0
  sph : Nat := 0
  frameDone : Bool := false
  frameDoneHalf : Bool := false
  frHalfR : Bool := false
  frameRa : Nat := 0
  sndLT : BitVec 16 := 0
  sndRT : BitVec 16 := 0
  sndLP : BitVec 16 := 0
  sndRP : BitVec 16 := 0
  frac16 : Nat := 0

/-- The inputs of one clock. -/
structure EngineIn where
  rst : Bool := false
  busRst : Bool := false
  mounted : Bool := false
  imgMounted : Bool := false
  imgBlocks : Nat := 0
  cmdStb : Bool := false
  cdb : Cdb := fun _ => 0
  readStb : Bool := false
  ejectStb : Bool := false
  grant : Bool := false
  ioAck : Bool := false
  sdBuffAddr : Nat := 0
  sdBuffAddrHi : Nat := 0
  sdBuffDout : BitVec 16 := 0
  sdBuffWr : Bool := false

structure Engine where
  main : Main := {}
  ff : FrameFetch := {}
  smp : Sampler := {}
  oldAck : Bool := false
  blob : Nat → BitVec 16 := fun _ => 0
  blobQ : BitVec 16 := 0
  resp : Nat → Byte := fun _ => 0
  t43 : Nat → Byte := fun _ => 0
  t2 : Nat → Byte := fun _ => 0
  frame : Nat → BitVec 16 := fun _ => 0
  frameQ : BitVec 16 := 0

/-- A table after the pending write of its port. -/
def PlanePort.land (p : PlanePort) (mem : Nat → Byte) : Nat → Byte :=
  if p.we then Function.update mem p.wa p.wd else mem

namespace FrameFetch

/-- `fr_valid[h]` -/
def valid (s : FrameFetch) (h : Bool) : Bool := if h then s.frValid1 else s.frValid0

/-- `fr_valid[h] <= v` -/
def setValid (s : FrameFetch) (h v : Bool) : FrameFetch :=
  if h then { s with frValid1 := v } else { s with frValid0 := v }

/-- The halves given up before the state is looked at: all after a jump of the
playhead, else the one just played. -/
def retire (m : Main) (smp : Sampler) (s : FrameFetch) : FrameFetch :=
  if m.play.flush then { s with frValid0 := false, frValid1 := false, fetchSync := true }
  else if smp.frameDone then setValid s smp.frameDoneHalf false
  else s

/-- One clock edge; `m`, `smp` and `fall` are the wires of the other blocks. -/
def next (w : EngineIn) (m : Main) (smp : Sampler) (fall : Bool) (s : FrameFetch) : FrameFetch :=
  if w.rst then {}
  else
    let s₁ := s.retire m smp
    match s.fst with
    | .idle =>
      let s₂ : FrameFetch := { s₁ with frCap := false }
      if s.fetchSync then { s₂ with fetchLba := m.play.curLba, fetchSync := false }
      else if m.play.pstate == .play && w.mounted && m.tab.tocReady && !(s.frValid0 && s.frValid1) &&
          decide (s.fetchLba < m.play.stopLba) then
        { s₂ with frHalfW := s.frValid0, fst := .req }
      else s₂
    | .req =>
      if m.play.flush then { s₁ with fst := .idle }
      else if w.grant && !m.blob.tocAct && !m.blob.tocRd && !s.frRd && m.mst == .idle then
        { s₁ with
          frLba := (audioBlk + s.fetchLba) % 2 ^ 32, frRd := true, frAct := true, frCap := true
          fst := .wait }
      else s₁
    | .wait =>
      let s₂ : FrameFetch := { s₁ with frRd := s.frRd && !w.ioAck }
      if fall && s.frAct then
        { setValid s₂ s.frHalfW true with
          frAct := false, frCap := false, fetchLba := (s.fetchLba + 1) % 2 ^ 32, fst := .idle }
      else s₂

end FrameFetch

namespace Sampler

/-- `CLK_HZ` -/
def clkHz : Nat := 32500000

/-- Word address in the frame memory. -/
def wordAddr (half : Bool) (word : Nat) : Nat := half.toNat * 2048 + word % 2048

/-- One clock edge. -/
def next (rst : Bool) (m : Main) (ff : FrameFetch) (frameQ : BitVec 16) (s : Sampler) : Sampler :=
  if rst then {}
  else
    let s₁ : Sampler :=
      { s with
        frameDone := false
        frac16 := if s.frac16 < 65536 then s.frac16 + 89 else s.frac16 }
    if m.play.flush then { s₁ with widx := 0, acc := 0, sph := 0, frHalfR := false }
    else if m.play.pstate == .play && ff.valid s.frHalfR then
      match s.sph with
      | 0 =>
        if clkHz - 44100 ≤ s.acc then
          { s₁ with
            acc := (s.acc + 44100 + 2 ^ 32 - clkHz) % 2 ^ 32
            frameRa := wordAddr s.frHalfR s.widx, sph := 1 }
        else { s₁ with acc := (s.acc + 44100) % 2 ^ 32 }
      | 1 => { s₁ with sph := 2, frameRa := wordAddr s.frHalfR (s.widx + 1) }
      | 2 => { s₁ with sph := 3, sndLP := s.sndLT, sndLT := frameQ }
      | _ =>
        let s₂ : Sampler := { s₁ with sndRP := s.sndRT, sndRT := frameQ, frac16 := 0, sph := 0 }
        if s.widx = 1174 then
          { s₂ with
            widx := 0, frHalfR := !s.frHalfR, frameDone := true, frameDoneHalf := s.frHalfR }
        else { s₂ with widx := (s.widx + 2) % 2048 }
    else if m.play.pstate = .play then s₁
    else { s₁ with sndLT := 0, sndRT := 0, sndLP := 0, sndRP := 0, acc := 0 }

end Sampler

namespace Engine

/-- `ca_io_rd` -/
def ioRd (s : Engine) : Bool := s.main.blob.tocRd || s.ff.frRd

/-- `ca_io_active` -/
def ioActive (s : Engine) : Bool := s.main.blob.tocAct || s.ff.frAct

/-- `ca_io_lba` -/
def ioLba (s : Engine) : Nat := if s.main.blob.tocAct then s.main.blob.tocLba else s.ff.frLba

/-- `ack_fall` -/
def ackFall (w : EngineIn) (s : Engine) : Bool := s.oldAck && !w.ioAck

/-- The wires of the main FSM. -/
def mainIn (w : EngineIn) (s : Engine) : MainIn :=
  { rst := w.rst, busRst := w.busRst, mounted := w.mounted, imgMounted := w.imgMounted
    imgBlocks := w.imgBlocks, cmdStb := w.cmdStb, cdb := w.cdb, readStb := w.readStb
    ejectStb := w.ejectStb, grant := w.grant, ioAck := w.ioAck, ackFall := ackFall w s
    frAct := s.ff.frAct, frameDone := s.smp.frameDone, blobQ := s.blobQ }

/-- Where a word of the current HPS transfer lands in the frame memory. -/
def frameAddr (w : EngineIn) (s : Engine) : Nat :=
  Sampler.wordAddr s.ff.frHalfW (w.sdBuffAddrHi % 8 * 256 + w.sdBuffAddr)

/-- One clock edge of the engine. -/
def step (w : EngineIn) (s : Engine) : Engine :=
  { main := s.main.next (mainIn w s)
    ff := s.ff.next w s.main s.smp (ackFall w s)
    smp := s.smp.next w.rst s.main s.ff s.frameQ
    oldAck := w.ioAck
    blob :=
      if s.main.blob.blobCap && w.sdBuffWr then
        Function.update s.blob (s.main.blob.blobBlk.toNat * 256 + w.sdBuffAddr) w.sdBuffDout
      else s.blob
    blobQ := s.blob s.main.blob.blobRa
    resp := s.main.tab.resp.land s.resp
    t43 := s.main.tab.t43.land s.t43
    t2 := s.main.tab.t2.land s.t2
    frame :=
      if s.ff.frCap && w.sdBuffWr then
        Function.update s.frame (frameAddr w s) w.sdBuffDout
      else s.frame
    frameQ := s.frame s.smp.frameRa }

/-- The engine `t` clocks after its configuration. -/
def after (ins : Nat → EngineIn) : Nat → Engine
  | 0 => {}
  | t + 1 => step (ins t) (after ins t)

end Engine

end CdAudio

end MacIIvi
