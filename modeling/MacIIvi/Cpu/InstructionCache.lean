import MacIIvi.Cpu.BusCycle
import Mathlib.Data.Fin.Basic

/-!
# The instruction cache of the CPU

Source: `rtl/tg68k/TG68K_Cache_030.vhd`, and the part of `rtl/tg68k/tg68k.v` that
asks it (`gen_cache`). The cache is logical: it is looked up with the logical
address and filled from the physical one. A line is kept as its eight bus words,
word `k` being bits `16k + 15` down to `16k` of the source's line. The data cache
is tied off in the source and left out.
-/

namespace MacIIvi.Cpu

/-- The kernel's and the PMMU's outputs that only the cache reads. -/
structure Control where
  ie : Bool := false
  ifreeze : Bool := false
  inhibitPmmu : Bool := false
  addrLog : Addr := 0
  addrPhys : Addr := 0
  ramSizeBytes : BitVec 27 := 0
  invReq : Bool := false
  opScope : BitVec 2 := 0
  opCache : BitVec 2 := 0
  opAddr : Addr := 0

/-- The registers of the instruction cache. -/
structure ICache where
  data : Fin 16 → Nat → Word := fun _ _ => 0
  tag : Fin 16 → BitVec 25 := fun _ => 0
  valid : Fin 16 → Bool := fun _ => false
  fillReq : Bool := false
  fillLineIdx : Fin 16 := 0
  fillTag : BitVec 25 := 0
  fillAddr : Addr := 0

/-- `i_line_idx` -/
def lineIdx (address : Addr) : Fin 16 := (address.extractLsb' 4 4).toFin

/-- `i_tag`: FC2 and the address above the line index. -/
def iTag (fc : BitVec 3) (address : Addr) : BitVec 25 :=
  fc.extractLsb' 2 1 ++ address.extractLsb' 8 24

/-- `i_req`: a fetch with a settled translation. -/
def iReq (k : Kernel) (c : Control) : Bool :=
  c.ie && k.busstate == .fetch && !k.pmmuBusy && !k.pmmuFault

/-- `phys_cacheable` -/
def physCacheable (c : Control) : Bool :=
  (c.addrPhys.extractLsb' 27 5 == 0 && (c.addrPhys.extractLsb' 0 27).ult c.ramSizeBytes) ||
    c.addrPhys.extractLsb' 28 4 == 4

/-- `fill_inhibit` -/
def fillInhibit (c : Control) : Bool := c.inhibitPmmu || !physCacheable c

namespace ICache

variable (k : Kernel) (c : Control) (s : ICache)

/-- The presented line is in the cache. -/
def present : Bool :=
  s.valid (lineIdx c.addrLog) && s.tag (lineIdx c.addrLog) == iTag k.fc c.addrLog

/-- `i_hit` -/
def iHit : Bool := c.ie && iReq k c && s.present k c

/-- `i_data`: 32 bits of the line. -/
def iData : BitVec 32 :=
  let j := (c.addrLog.extractLsb' 2 2).toNat
  s.data (lineIdx c.addrLog) (2 * j + 1) ++ s.data (lineIdx c.addrLog) (2 * j)

/-- `data_out_16`: the half that the fetch asks for. -/
def dataOut : Word :=
  if c.addrLog.getLsbD 1 then (s.iData c).extractLsb' 16 16 else (s.iData c).extractLsb' 0 16

/-- A miss is latched at this clock. -/
def missLatched : Bool :=
  iReq k c && c.ie && !fillInhibit c && !s.fillReq && !s.present k c && !c.ifreeze

/-- A filled line is installed at this clock. -/
def installs (fillValid : Bool) : Bool := fillValid && !c.ifreeze && s.fillReq

end ICache

/-- An invalidation of the instruction cache is requested. -/
def Control.invalidates (c : Control) : Bool :=
  c.invReq && (c.opCache == 2 || c.opCache == 0 || c.opCache == 3)

/-- All lines are invalidated. -/
def Control.invalidatesAll (c : Control) : Bool :=
  c.invalidates && (c.opScope == 2 || c.opScope == 3)

namespace ICache

variable (k : Kernel) (c : Control) (s : ICache)

/-- `cache_op_page_mask` matches the line's tag. -/
def onPage (idx : Fin 16) : Bool :=
  s.valid idx && (s.tag idx).extractLsb' 4 20 == c.opAddr.extractLsb' 12 20

/-- The line loses its valid bit at this clock. -/
def dropped (idx : Fin 16) : Bool :=
  c.invalidates &&
    (c.opScope == 2 || c.opScope == 3 || (c.opScope == 1 && s.onPage c idx) ||
      (c.opScope == 0 && idx == lineIdx c.opAddr))

def validNext (fillValid : Bool) (idx : Fin 16) : Bool :=
  if s.dropped c idx then false
  else if s.installs c fillValid && idx == s.fillLineIdx then true
  else s.valid idx

def fillReqNext (fillValid : Bool) : Bool :=
  if s.fillReq && c.ifreeze then false
  else if s.missLatched k c then true
  else if fillValid then false
  else s.fillReq

/-- One clock edge, with the fill engine's `i_fill_valid` and `i_fill_data`. -/
def step (fillValid : Bool) (fillData : Nat → Word) : ICache where
  data :=
    if s.installs c fillValid then Function.update s.data s.fillLineIdx fillData else s.data
  tag := if s.installs c fillValid then Function.update s.tag s.fillLineIdx s.fillTag else s.tag
  valid := s.validNext c fillValid
  fillReq := s.fillReqNext k c fillValid
  fillLineIdx := if s.missLatched k c then lineIdx c.addrLog else s.fillLineIdx
  fillTag := if s.missLatched k c then iTag k.fc c.addrLog else s.fillTag
  fillAddr :=
    if s.missLatched k c then c.addrPhys.extractLsb' 4 28 ++ 0#4 else s.fillAddr

end ICache

/-! ### The wrapper with its cache -/

/-- Everything that is outside the wrapper's registers and the cache. -/
structure CoreInputs where
  pins : Pins
  kernel : Kernel
  control : Control

structure Core where
  regs : Regs := {}
  cache : ICache := {}

namespace Core

variable (i : CoreInputs) (s : Core)

/-- What the wrapper sees. -/
def bus : Inputs where
  pins := i.pins
  kernel := i.kernel
  cache :=
    { hit := s.cache.iHit i.kernel i.control && iReq i.kernel i.control
      data := s.cache.dataOut i.control
      fillReq := s.cache.fillReq
      fillAddr := s.cache.fillAddr }

/-- One clock edge. -/
def step : Core where
  regs := s.regs.step (s.bus i)
  cache := s.cache.step i.kernel i.control s.regs.iFillValid s.regs.fillBuf

/-- The registers after `t` clocks from reset. -/
def after (i : Nat → CoreInputs) : Nat → Core
  | 0 => {}
  | t + 1 => (after i t).step (i t)

/-- The wrapper's inputs over a run. -/
def seen (i : Nat → CoreInputs) (t : Nat) : Inputs := (after i t).bus (i t)

/-- The wrapper's part of a run is a run of the wrapper. -/
theorem after_regs (i : Nat → CoreInputs) (t : Nat) :
    (after i t).regs = Regs.after (seen i) t := by
  induction t with
  | zero => rfl
  | succ t ih =>
    change ((after i t).regs).step (seen i t) = _
    rw [ih]
    rfl

end Core

end MacIIvi.Cpu
