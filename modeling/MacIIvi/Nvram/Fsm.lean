import MacIIvi.Rtl.Dpram
import Mathlib.Data.BitVec
import Mathlib.Logic.Function.Basic
import Mathlib.Tactic.Common

/-!
# PRAM persistence

Sources: the NVRAM process of `MacIIvi.sv` and the PRAM mirror and boot-copy of
`rtl/egret/egret_wrapper.sv`. The Egret owns `pram[]`; the top level moves it to
and from one sector of a mounted save image through `pram_buf`.
-/

namespace MacIIvi

namespace Nvram

/-! ### Words and bytes -/

/-- Two bytes of a byte memory as one word of the sector buffer. -/
def wordOf (mem : Nat → Byte) (w : Nat) : BitVec 16 := mem (2 * w + 1) ++ mem (2 * w)

/-- A word stored as two bytes. -/
def putWord (mem : Nat → Byte) (w : Nat) (d : BitVec 16) : Nat → Byte :=
  Function.update (Function.update mem (2 * w) (d.extractLsb' 0 8)) (2 * w + 1) (d.extractLsb' 8 8)

/-- Storing a word of another memory copies its two bytes. -/
theorem putWord_wordOf (mem src : Nat → Byte) (w i : Nat) :
    putWord mem w (wordOf src w) i = if i / 2 = w then src i else mem i := by
  unfold putWord wordOf
  by_cases odd : i = 2 * w + 1
  · subst odd
    rw [Function.update_self, if_pos (by omega), BitVec.extractLsb'_append_eq_of_le (by omega)]
    simp
  · rw [Function.update_of_ne odd]
    by_cases even : i = 2 * w
    · subst even
      rw [Function.update_self, if_pos (by omega), BitVec.extractLsb'_append_eq_right]
    · rw [Function.update_of_ne even, if_neg (by omega)]

/-! ### The NVRAM process of the top level -/

/-- `pst` -/
inductive PState where
  | idle | ldRd | ldDat | ldCpy | fill | svWr | svDat | clr | rst | ldKick
  deriving DecidableEq, Repr

/-- `PRAM_LD_WD_MAX` -/
def ldWdMax : Nat := 65000000

/-- The limit of the ready backstop. -/
def rdyMax : Nat := 200000000

/-- What the process reads in one clock. `status6` is "Reset PRAM & Core". -/
structure TopIn where
  osdStatus : Bool := false
  imgMounted : Bool := false
  imgSize : Nat := 0
  status6 : Bool := false
  pramAck : Bool := false
  sdBuffAddr : Nat := 0
  sdBuffDout : BitVec 16 := 0
  sdBuffWr : Bool := false
  pramWrStb : Bool := false
  pramSaveData : Byte := 0

/-- The registers of the process. -/
structure Top where
  pst : PState := .idle
  pcnt : Nat := 0
  pramRd : Bool := false
  pramWrReq : Bool := false
  pramLoadWr : Bool := false
  pramLoadAddr : Nat := 0
  pramLoadData : Byte := 0
  pramSaveAddr : Nat := 0
  pramBuf : Nat → Byte := fun _ => 0
  pramEna : Bool := false
  pramDirty : Bool := false
  pramRstAfter : Bool := false
  loadPending : Bool := false
  flushPending : Bool := false
  clrPending : Bool := false
  oldPack : Bool := false
  oldOsd : Bool := false
  oldMnt : Bool := false
  oldRstpram : Bool := false
  pramReady : Bool := false
  pramRdyCnt : Nat := 0
  restartAfterLoad : Bool := false
  ldWd : Nat := 0
  ldTry : Nat := 0
  rstHold : Nat := 0
  forceReset : Bool := false

namespace Top

/-- The mount pulse begins. -/
def mounts (w : TopIn) (s : Top) : Bool := w.imgMounted && !s.oldMnt

/-- The sector buffer captures a word of the slot's session. -/
def captures (w : TopIn) : Bool := w.pramAck && w.sdBuffWr && decide (w.sdBuffAddr < 128)

/-- What the process assigns before it looks at its state: the edge detectors, the
capture, the dirty bit, the event latches, the backstop and the reset pulse. -/
def latch (w : TopIn) (s : Top) : Top :=
  let backstop := !s.pramReady && s.pst != .ldCpy
  { s with
    oldPack := w.pramAck
    oldOsd := w.osdStatus
    oldMnt := w.imgMounted
    oldRstpram := w.status6
    pramLoadWr := false
    pramBuf := if captures w then putWord s.pramBuf w.sdBuffAddr w.sdBuffDout else s.pramBuf
    pramDirty := s.pramDirty || w.pramWrStb
    pramEna := if mounts w s then w.imgSize != 0 else s.pramEna
    loadPending := s.loadPending || (mounts w s && w.imgSize != 0)
    flushPending := s.flushPending || (w.osdStatus && !s.oldOsd && s.pramDirty && s.pramEna)
    clrPending := s.clrPending || (w.status6 && !s.oldRstpram)
    pramReady := s.pramReady || (mounts w s && w.imgSize == 0) ||
      (backstop && decide (rdyMax ≤ s.pramRdyCnt))
    pramRdyCnt :=
      if backstop && decide (s.pramRdyCnt < rdyMax) then s.pramRdyCnt + 1 else s.pramRdyCnt
    forceReset := s.forceReset && s.rstHold != 0
    rstHold := if s.forceReset then s.rstHold - 1 else s.rstHold }

/-- `P_IDLE` -/
def stepIdle (s e : Top) : Top :=
  if s.clrPending then { e with clrPending := false, pcnt := 0, pst := .clr }
  else if s.loadPending then
    { e with loadPending := false, pramRd := true, ldWd := 0, ldTry := 0, pst := .ldRd }
  else if s.flushPending then
    { e with flushPending := false, pramRstAfter := false, pcnt := 0, pst := .fill }
  else e

/-- `P_LD_RD`: the request is re-armed three times and then given up. -/
def stepLdRd (w : TopIn) (s e : Top) : Top :=
  if w.pramAck then { e with pramRd := false, ldWd := 0, pst := .ldDat }
  else if s.ldWd = ldWdMax then
    if s.ldTry = 3 then { e with ldWd := 0, pramRd := false, pramReady := true, pst := .idle }
    else { e with ldWd := 0, ldTry := s.ldTry + 1, pramRd := false, pst := .ldKick }
  else { e with ldWd := s.ldWd + 1 }

/-- `P_LD_DAT` -/
def stepLdDat (w : TopIn) (s e : Top) : Top :=
  if s.oldPack && !w.pramAck then
    { e with pcnt := 0, restartAfterLoad := s.pramReady, pst := .ldCpy }
  else if s.ldWd = ldWdMax then { e with ldWd := 0, pramReady := true, pst := .idle }
  else { e with ldWd := s.ldWd + 1 }

/-- `P_LD_CPY` -/
def stepLdCpy (s e : Top) : Top :=
  let put : Top :=
    { e with
      pramLoadWr := true, pramLoadAddr := s.pcnt % 256, pramLoadData := s.pramBuf (s.pcnt % 256) }
  if s.pcnt = 255 then
    let done : Top := { put with pramDirty := false, pramEna := true, pramReady := true }
    if s.restartAfterLoad then { done with restartAfterLoad := false, pst := .rst }
    else { done with pst := .idle }
  else { put with pcnt := (s.pcnt + 1) % 512 }

/-- `P_FILL` -/
def stepFill (w : TopIn) (s e : Top) : Top :=
  let got : Top :=
    { e with
      pramSaveAddr := s.pcnt % 256
      pramBuf :=
        if s.pcnt ≠ 0 then Function.update e.pramBuf ((s.pcnt + 255) % 256) w.pramSaveData
        else e.pramBuf }
  if s.pcnt = 256 then { got with pst := .svWr } else { got with pcnt := (s.pcnt + 1) % 512 }

/-- `P_SV_WR` -/
def stepSvWr (w : TopIn) (e : Top) : Top :=
  if w.pramAck then { e with pramWrReq := false, pst := .svDat } else { e with pramWrReq := true }

/-- `P_SV_DAT` -/
def stepSvDat (w : TopIn) (s e : Top) : Top :=
  if s.oldPack && !w.pramAck then
    if s.pramRstAfter then { e with pramDirty := false, pramRstAfter := false, pst := .rst }
    else { e with pramDirty := false, pst := .idle }
  else e

/-- `P_CLR` -/
def stepClr (s e : Top) : Top :=
  let put : Top :=
    { e with
      pramLoadWr := true, pramLoadAddr := s.pcnt % 256, pramLoadData := 0
      pramBuf := Function.update e.pramBuf (s.pcnt % 256) 0 }
  if s.pcnt = 255 then
    if s.pramEna then { put with pramRstAfter := true, pst := .svWr } else { put with pst := .rst }
  else { put with pcnt := (s.pcnt + 1) % 512 }

/-- `P_RST` -/
def stepRst (e : Top) : Top := { e with forceReset := true, rstHold := 127, pst := .idle }

/-- One clock edge. -/
def next (w : TopIn) (s : Top) : Top :=
  let e := latch w s
  match s.pst with
  | .idle => stepIdle s e
  | .ldRd => stepLdRd w s e
  | .ldKick => { e with pramRd := true, pst := .ldRd }
  | .ldDat => stepLdDat w s e
  | .ldCpy => stepLdCpy s e
  | .fill => stepFill w s e
  | .svWr => stepSvWr w e
  | .svDat => stepSvDat w s e
  | .clr => stepClr s e
  | .rst => stepRst e

@[simp] theorem latch_pst (w : TopIn) (s : Top) : (latch w s).pst = s.pst := rfl

/-- A clear goes on, or begins in `P_IDLE` with the counter at zero. -/
theorem next_clr {w : TopIn} {s : Top} (h : (next w s).pst = .clr) :
    s.pst = .clr ∨ (s.pst = .idle ∧ (next w s).pcnt = 0) := by
  unfold next at h ⊢
  cases pst : s.pst with
  | clr => exact .inl rfl
  | idle =>
    right
    simp only [pst, stepIdle] at h ⊢
    split at h
    case isTrue clear => simp [clear]
    case isFalse => repeat' split at h <;> simp_all
  | ldRd | ldDat | ldCpy | fill | svWr | svDat | rst | ldKick =>
    simp only [pst, stepLdRd, stepLdDat, stepLdCpy, stepFill, stepSvWr, stepSvDat, stepRst] at h
    repeat' split at h
    all_goals simp_all

/-- Outside the copy of a load the port clears. -/
theorem next_loadData {w : TopIn} {s : Top} (h : (next w s).pramLoadWr = true)
    (other : s.pst ≠ .ldCpy) : (next w s).pramLoadData = 0 := by
  unfold next at h ⊢
  cases pst : s.pst with
  | ldCpy => exact absurd pst other
  | clr =>
    simp only [stepClr]
    repeat' split
    all_goals rfl
  | idle | ldRd | ldDat | fill | svWr | svDat | rst | ldKick =>
    simp only [pst, stepIdle, stepLdRd, stepLdDat, stepFill, stepSvWr, stepSvDat, stepRst] at h
    repeat' split at h
    all_goals simp_all [latch]

/-- `sd_buff_din` of the slot. -/
def sdBuffDin (s : Top) (w : Nat) : BitVec 16 := if w < 128 then wordOf s.pramBuf w else 0

end Top

/-! ### The Egret side -/

/-- What the Egret's memories read in one clock: its reset, the latched 68k reset,
the HC05 store `ram_cs && !cpu_wr && cen`, and the host time. -/
structure EgretIn where
  reset : Bool := false
  reset680x0Latched : Bool := false
  ramWrite : Bool := false
  ramAddr : Nat := 0
  cpuDout : Byte := 0
  timestamp : BitVec 32 := 0

/-- `pram[]`, the working RAM and the boot-copy. -/
structure EgretRam where
  pram : Nat → Byte := fun _ => 0
  intram : Nat → Byte := fun _ => 0
  pramLoaded : Bool := false
  copyBusy : Bool := false
  copyIdx : Nat := 0

namespace EgretRam

/-- `pram_region_wr` -/
def regionWr (w : EgretIn) (s : EgretRam) : Bool :=
  w.ramWrite && s.pramLoaded && decide (0x70 ≤ w.ramAddr) && decide (w.ramAddr < 0x170)

/-- `pram_wr_idx` -/
def wrIdx (w : EgretIn) : Nat := (w.ramAddr - 0x70) % 256

/-- The boot-copy starts. -/
def copyStarts (w : EgretIn) (ready : Bool) (s : EgretRam) : Bool :=
  !w.reset && !s.pramLoaded && !s.copyBusy && !w.reset680x0Latched && ready

/-- The byte of the working RAM that a step of the boot-copy writes: the PRAM, then
the seconds counter. -/
def copyByte (w : EgretIn) (s : EgretRam) : Nat × Byte :=
  match s.copyIdx with
  | 256 => (0x1B, w.timestamp.extractLsb' 24 8)
  | 257 => (0x1C, w.timestamp.extractLsb' 16 8)
  | 258 => (0x1D, w.timestamp.extractLsb' 8 8)
  | 259 => (0x1E, w.timestamp.extractLsb' 0 8)
  | i => ((i + 0x70) % 512, s.pram (i % 256))

/-- `pram[]` after the clock edge; a load write wins over the mirror of a firmware write. -/
def pramNext (w : EgretIn) (top : Top) (s : EgretRam) : Nat → Byte :=
  if top.pramLoadWr then Function.update s.pram top.pramLoadAddr top.pramLoadData
  else if regionWr w s then Function.update s.pram (wrIdx w) w.cpuDout
  else s.pram

/-- One clock edge. -/
def next (w : EgretIn) (top : Top) (s : EgretRam) : EgretRam :=
  let pram := pramNext w top s
  if w.reset then { s with pram, pramLoaded := false, copyBusy := false }
  else if copyStarts w top.pramReady s then { s with pram, copyBusy := true, copyIdx := 0 }
  else if s.copyBusy then
    let intram := Function.update s.intram (copyByte w s).1 (copyByte w s).2
    if s.copyIdx = 259 then { s with pram, intram, copyBusy := false, pramLoaded := true }
    else { s with pram, intram, copyIdx := (s.copyIdx + 1) % 512 }
  else if w.ramWrite then { s with pram, intram := Function.update s.intram w.ramAddr w.cpuDout }
  else { s with pram }

@[simp] theorem next_pram (w : EgretIn) (top : Top) (s : EgretRam) :
    (next w top s).pram = pramNext w top s := by
  unfold next
  dsimp only
  repeat' split
  all_goals rfl

end EgretRam

end Nvram

end MacIIvi
