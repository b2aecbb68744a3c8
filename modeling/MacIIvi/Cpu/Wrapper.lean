import Mathlib.Logic.Function.Basic
import Mathlib.Tactic.Common

/-!
# The bus wrapper of the CPU

Source: `rtl/tg68k/tg68k.v`. Three masters share one eight-state bus sequencer:
the kernel, the page walker and the cache line fill. The kernel with its PMMU
and the instruction cache are inputs here; the data cache is tied off in the
source (`USE_68030_DCACHE`), and so is the bus arbitration (the top ties `br_n`
and `bgack_n` high). Debug taps are left out.
-/

namespace MacIIvi

namespace Cpu

abbrev Word := BitVec 16
abbrev Addr := BitVec 32

/-- The two clock enables of the 16 MHz bus. -/
inductive Phi where
  | none | phi1 | phi2
  deriving DecidableEq, Repr

/-- `busstate` -/
inductive BusState where
  | fetch | none | read | write
  deriving DecidableEq, Repr

/-- What the kernel and its PMMU drive during one clock. -/
structure Kernel where
  busstate : BusState := .none
  addr : Addr := 0
  rw : Bool := true
  udsN : Bool := true
  ldsN : Bool := true
  dataWrite : Word := 0
  fc : BitVec 3 := 0
  walkerReq : Bool := false
  walkerWe : Bool := false
  walkerAddr : Addr := 0
  walkerWdat : BitVec 32 := 0
  pmmuBusy : Bool := false
  pmmuFault : Bool := false
  makeBerr : Bool := false
  trapBerr : Bool := false

/-- What the instruction cache drives: `i_hit & i_req`, the word it serves and
its line-fill request. -/
structure CacheOut where
  hit : Bool := false
  data : Word := 0
  fillReq : Bool := false
  fillAddr : Addr := 0

/-- The pins during one clock. -/
structure Pins where
  phi : Phi := .none
  turbo : Bool := false
  eDiv : Bool := false
  dtackN : Bool := true
  vpaN : Bool := true
  berr : Bool := false
  din : Word := 0
  fillDataValid : Bool := false

/-- Everything the registers see during one clock. -/
structure Inputs where
  pins : Pins
  kernel : Kernel
  cache : CacheOut

/-- The registers. -/
structure Regs where
  sState : Nat := 0
  asN : Bool := true
  rwN : Bool := true
  udsN : Bool := true
  ldsN : Bool := true
  addr : Addr := 0
  dinR : Word := 0
  eCntr : Nat := 0
  rVma : Bool := true
  vpai : Bool := true
  enE : Bool := true
  berrHold : Bool := false
  walkCycle : Bool := false
  walkWord : Bool := false
  walkHi : Word := 0
  walkDesc : BitVec 32 := 0
  walkPrev : BitVec 32 := 0
  walkTries : Nat := 0
  walkerAck : Bool := false
  walkerData : BitVec 32 := 0
  fillActive : Bool := false
  fillWord : Nat := 0
  fillBase : Addr := 0
  fillBuf : Nat → Word := fun _ => 0
  fillDirty : Bool := false
  fillRetry : Nat := 0
  fillServed : Bool := false
  iFillValid : Bool := false

namespace Regs

variable (i : Inputs) (r : Regs)

/-! ### Wires -/

/-- `cache_read_hit` -/
def cacheReadHit : Bool := !r.walkCycle && !r.fillActive && i.cache.hit

/-- `cache_hit_beat` -/
def cacheHitBeat : Bool := r.cacheReadHit i && r.sState == 0

/-- `tg68_clkena` -/
def clkena : Bool :=
  ((i.pins.phi == .phi1 &&
        (r.sState == 7 || i.kernel.busstate == .none || r.cacheHitBeat i || i.kernel.pmmuFault)) ||
      (i.pins.turbo && i.pins.phi == .phi2 && r.sState == 0 &&
        (i.kernel.busstate == .none || r.cacheHitBeat i) && !i.cache.fillReq)) &&
    !r.walkCycle && !r.fillActive && !i.kernel.walkerReq &&
    (!i.kernel.pmmuBusy || i.kernel.pmmuFault)

/-- `tg68_beat_valid` -/
def beatValid : Bool := r.sState == 7 || i.kernel.busstate == .none || r.cacheHitBeat i

/-- `walk_word_addr` -/
def walkWordAddr : Addr :=
  if r.walkWord then i.kernel.walkerAddr ||| 2 else i.kernel.walkerAddr &&& ~~~2

/-- `fill_bus_addr` -/
def fillBusAddr : Addr := r.fillBase.extractLsb' 4 28 ++ BitVec.ofNat 3 r.fillWord ++ 0#1

/-- `eff_busstate` -/
def effBusstate : BusState :=
  if r.walkCycle then (if i.kernel.walkerWe then .write else .read)
  else if r.fillActive then .read
  else i.kernel.busstate

/-- `eff_rw` -/
def effRw : Bool :=
  if r.walkCycle then !i.kernel.walkerWe else if r.fillActive then true else i.kernel.rw

/-- `eff_uds_n` -/
def effUdsN : Bool :=
  if r.walkCycle then false else if r.fillActive then false else i.kernel.udsN

/-- `eff_lds_n` -/
def effLdsN : Bool :=
  if r.walkCycle then false else if r.fillActive then false else i.kernel.ldsN

/-- `eff_addr` -/
def effAddr : Addr :=
  if r.walkCycle then r.walkWordAddr i
  else if r.fillActive then r.fillBusAddr
  else i.kernel.addr

/-- `dout`: the walker's word in a descriptor write-back, else the kernel's. -/
def dout : Word :=
  if r.walkCycle then
    (if r.walkWord then i.kernel.walkerWdat.extractLsb' 0 16
      else i.kernel.walkerWdat.extractLsb' 16 16)
  else i.kernel.dataWrite

/-- `auto_iack` -/
def autoIack : Bool := i.kernel.fc == 7 && !i.pins.vpaN

/-- `auto_vector` -/
def autoVector : BitVec 8 := 1#4 ++ 1#1 ++ r.addr.extractLsb' 1 3

/-- `tg68_din` -/
def tg68Din : Word := if autoIack i then r.autoVector ++ r.autoVector else i.pins.din

/-- `data_in` of the kernel. -/
def dataIn : Word := if r.cacheHitBeat i then i.cache.data else r.dinR

/-- `xVma` -/
def xVma : Bool := !r.rVma && r.eCntr == 8 && r.enE

/-- `berr_kernel_cycle` -/
def berrKernelCycle : Bool := i.pins.berr && !r.walkCycle && !r.fillActive

/-- `berr_held` -/
def berrHeld : Bool :=
  (r.berrKernelCycle i || r.berrHold) && !(i.kernel.makeBerr || i.kernel.trapBerr)

/-- `pmmu_bus_park` -/
def pmmuBusPark : Bool :=
  (i.kernel.pmmuBusy || i.kernel.pmmuFault) && !r.walkCycle && !r.fillActive && r.sState == 0

/-! ### The bus sequencer -/

/-- The next `s_state`. -/
def sStateNext : Nat :=
  match i.pins.phi with
  | .none => r.sState
  | .phi1 =>
    if r.effBusstate i = .none ∨ r.cacheHitBeat i then 0
    else if r.sState ≠ 4 ∧ r.sState ≠ 0 then (r.sState + 1) % 8
    else r.sState
  | .phi2 =>
    if r.effBusstate i = .none ∨ r.cacheHitBeat i ∨ r.pmmuBusPark i then 0
    else if r.sState ≠ 4 ∨ i.pins.dtackN = false ∨ r.xVma ∨ i.pins.berr then (r.sState + 1) % 8
    else r.sState

/-- A borrowed or kernel cycle puts its strobes on the bus at this clock. -/
def strobes : Bool :=
  i.pins.phi == .phi1 && r.effBusstate i != .none &&
    ((r.sState == 1 && r.effRw i) || (r.sState == 3 && !r.effRw i))

/-- The bus outputs are released at this clock. -/
def releases : Bool := i.pins.phi == .phi2 && r.sState == 6

/-- The cycle's AS goes low at this clock. -/
def launches : Bool := i.pins.phi == .phi1 && r.sState == 1 && r.effBusstate i != .none

def asNNext : Bool := if r.launches i then false else if r.releases i then true else r.asN

def rwNNext : Bool :=
  if r.launches i then r.effRw i
  else if i.pins.phi == .phi1 && r.sState == 7 then true else r.rwN

def udsNNext : Bool :=
  if r.strobes i then r.effUdsN i else if r.releases i then true else r.udsN

def ldsNNext : Bool :=
  if r.strobes i then r.effLdsN i else if r.releases i then true else r.ldsN

def dinRNext : Word :=
  if r.releases i && !r.walkCycle && !r.fillActive then r.tg68Din i else r.dinR

/-! ### E and VMA -/

def enENext : Bool :=
  if i.pins.phi = .phi1 then (if i.pins.eDiv then !r.enE else true) else r.enE

def eCntrNext : Nat :=
  if i.pins.phi = .phi2 ∧ r.enE then (if r.eCntr = 9 then 0 else r.eCntr + 1) else r.eCntr

def rVmaNext : Bool :=
  if i.pins.phi = .phi2 ∧ r.sState ≠ 0 ∧ !r.vpai ∧ r.eCntr = 3 ∧ r.enE then false
  else if i.pins.phi = .phi1 ∧ r.eCntr = 0 ∧ r.enE then true
  else r.rVma

/-! ### Bus errors -/

def berrHoldNext : Bool :=
  if i.kernel.makeBerr || i.kernel.trapBerr || (i.pins.phi == .phi1 && r.sState == 0) then false
  else if r.berrKernelCycle i then true
  else r.berrHold

/-! ### The page walker -/

/-- `WALK_MAX_TRIES` -/
def walkMaxTries : Nat := 6

/-- The walker borrows the bus. -/
def walkStarts : Bool :=
  !r.walkCycle && i.pins.phi == .phi1 && i.kernel.walkerReq && !r.walkerAck && r.sState == 0 &&
    i.kernel.busstate == .none

/-- A word of the walker has been transferred. -/
def walkWordDone : Bool := r.walkCycle && i.pins.phi == .phi1 && r.sState == 7

/-- Two reads of the descriptor agree, or the budget of reads is spent. -/
def walkStable : Bool :=
  (r.walkTries != 0 && r.walkDesc == r.walkPrev) || decide (walkMaxTries ≤ r.walkTries)

/-- The descriptor is complete. -/
def walkEnds : Bool := r.walkWordDone i && r.walkWord && (i.kernel.walkerWe || r.walkStable)

def walkCycleNext : Bool := if r.walkStarts i then true else r.walkCycle && !r.walkEnds i

def walkWordNext : Bool :=
  if r.walkStarts i then false
  else if r.walkWordDone i then
    if !r.walkWord then true else if r.walkEnds i then r.walkWord else false
  else r.walkWord

/-- A read word of the walker is on the bus. -/
def walkCaptures : Bool := r.walkCycle && i.pins.phi == .phi2 && r.sState == 6

def walkHiNext : Word := if r.walkCaptures i && !r.walkWord then i.pins.din else r.walkHi

def walkDescNext : BitVec 32 :=
  if r.walkCaptures i && r.walkWord then r.walkHi ++ i.pins.din else r.walkDesc

/-- The descriptor is read once more. -/
def walkRetries : Bool := r.walkWordDone i && r.walkWord && !r.walkEnds i

def walkPrevNext : BitVec 32 := if r.walkRetries i then r.walkDesc else r.walkPrev

def walkTriesNext : Nat :=
  if r.walkStarts i then 0 else if r.walkRetries i then (r.walkTries + 1) % 8 else r.walkTries

def walkerDataNext : BitVec 32 :=
  if r.walkEnds i && !i.kernel.walkerWe then r.walkDesc else r.walkerData

/-! ### The line fill -/

/-- The fill engine borrows the bus. -/
def fillStarts : Bool :=
  !r.fillActive && i.pins.phi == .phi1 && r.sState == 0 && i.kernel.busstate == .none &&
    i.kernel.fc != 7 && !r.walkCycle && !i.kernel.walkerReq && i.cache.fillReq

/-- The bus cycle of a fill word ends: the word is judged. -/
def fillJudges : Bool := r.fillActive && i.pins.phi == .phi1 && r.sState == 7

/-- The word was not served and is read once more. -/
def fillRetries : Bool := r.fillJudges i && !r.fillServed && r.fillRetry != 7

/-- The engine goes on to the next word. -/
def fillAdvances : Bool := r.fillJudges i && !r.fillRetries i

/-- All eight words have been judged. -/
def fillEnds : Bool := r.fillAdvances i && r.fillWord == 7

def fillActiveNext : Bool := if r.fillStarts i then true else r.fillActive && !r.fillEnds i

def fillWordNext : Nat :=
  if r.fillStarts i then 0
  else if r.fillAdvances i && !r.fillEnds i then r.fillWord + 1 else r.fillWord

def fillBaseNext : Addr := if r.fillStarts i then i.cache.fillAddr else r.fillBase

/-- The word on the bus is this word's own. -/
def fillCaptures : Bool := r.fillActive && i.pins.fillDataValid

def fillBufNext : Nat → Word :=
  if r.fillCaptures i then Function.update r.fillBuf r.fillWord i.pins.din else r.fillBuf

def fillServedNext : Bool :=
  if r.fillStarts i || r.fillAdvances i then false else r.fillServed || r.fillCaptures i

def fillDirtyNext : Bool :=
  if r.fillStarts i then false else r.fillDirty || (r.fillAdvances i && !r.fillServed)

def fillRetryNext : Nat :=
  if r.fillStarts i then 0 else if r.fillRetries i then r.fillRetry + 1 else r.fillRetry

/-- The line is installed: no word of it failed. -/
def iFillValidNext : Bool := r.fillEnds i && !r.fillDirty && r.fillServed

/-- One clock edge. -/
def step : Regs where
  sState := r.sStateNext i
  asN := r.asNNext i
  rwN := r.rwNNext i
  udsN := r.udsNNext i
  ldsN := r.ldsNNext i
  addr := r.effAddr i
  dinR := r.dinRNext i
  eCntr := r.eCntrNext i
  rVma := r.rVmaNext i
  vpai := if i.pins.phi = .phi1 then i.pins.vpaN else r.vpai
  enE := r.enENext i
  berrHold := r.berrHoldNext i
  walkCycle := r.walkCycleNext i
  walkWord := r.walkWordNext i
  walkHi := r.walkHiNext i
  walkDesc := r.walkDescNext i
  walkPrev := r.walkPrevNext i
  walkTries := r.walkTriesNext i
  walkerAck := r.walkEnds i
  walkerData := r.walkerDataNext i
  fillActive := r.fillActiveNext i
  fillWord := r.fillWordNext i
  fillBase := r.fillBaseNext i
  fillBuf := r.fillBufNext i
  fillDirty := r.fillDirtyNext i
  fillRetry := r.fillRetryNext i
  fillServed := r.fillServedNext i
  iFillValid := r.iFillValidNext i

/-- The registers after `t` clocks from reset. -/
def after (i : Nat → Inputs) : Nat → Regs
  | 0 => {}
  | t + 1 => (after i t).step (i t)

end Regs

end Cpu

end MacIIvi
