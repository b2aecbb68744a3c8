import MacIIvi.Dram.Chip
import Mathlib.Data.BitVec

/-!
# The SDRAM controller

Source: `rtl/sdram.v`. A counter locked to the chipset clock cuts time into slots of eight
clocks. A slot opens a row and accesses it once, or refreshes a chip, or is a step of the
initialisation. The chips take a command half a clock after the controller has set its pins.
-/

namespace MacIIvi

/-- What the controller sees of the chipset and of the data bus in one clock. -/
structure SdramIn where
  init : Bool := false
  clk8 : Bool := false
  din : BitVec 16 := 0
  addr : BitVec 26 := 0
  ds : BitVec 2 := 0
  oe : Bool := false
  we : Bool := false
  sdData : BitVec 16 := 0

namespace Sdram

/-- `sd_cmd` without the chip select. -/
inductive Cmd where
  | inhibit | active | read | write | precharge | autoRefresh | loadMode
  deriving DecidableEq, Repr

end Sdram

open Sdram (Cmd)

structure Sdram where
  t : Nat
  reset : Nat
  sdCmd : Cmd
  sdCs : Bool
  sdAddr : BitVec 13
  sdBa : BitVec 2
  /-- What is driven on the data bus. -/
  sdDrive : Option (BitVec 16)
  oeLatch : Bool
  weLatch : Bool
  rfshChip : Bool
  addrLatch : BitVec 26
  dout : BitVec 16
  doutAddr : BitVec 26
  doutValid : Bool

namespace Sdram

/-- `MODE`: single writes, CAS latency 2, bursts of one word. -/
def mode : BitVec 13 := 0x220

variable (w : SdramIn) (s : Sdram)

/-! ## One clock -/

/-- The counter waits for the edges of `clk_8` in its first and last state. -/
def tNext : Nat :=
  if (s.t = 7 ∧ w.clk8 = false) ∨ (s.t = 0 ∧ w.clk8 = true) ∨ (s.t ≠ 7 ∧ s.t ≠ 0) then (s.t + 1) % 8
  else s.t

def resetNext : Nat :=
  if w.init then 0x3ff
  else if s.t = 7 ∧ s.reset ≠ 0 then s.reset - 1
  else s.reset

/-- The registers without a command. -/
def quiet : Sdram :=
  { s with
    t := s.tNext w, reset := s.resetNext w
    sdCmd := .inhibit, sdCs := true, sdDrive := none }

/-- A slot of the initialisation. -/
def ladder : Sdram :=
  let s₁ : Sdram := { s.quiet w with doutValid := false }
  if s.t = 0 then
    let cs : Bool := s.reset % 2 == 1
    if s.reset = 66 ∨ s.reset = 65 then
      { s₁ with sdCmd := .precharge, sdCs := cs, sdAddr := s.sdAddr ||| 0x400 }
    else if 43 ≤ s.reset ∧ s.reset ≤ 58 then { s₁ with sdCmd := .autoRefresh, sdCs := cs }
    else if s.reset = 4 ∨ s.reset = 3 then { s₁ with sdCmd := .loadMode, sdCs := cs, sdAddr := mode }
    else s₁
  else s₁

/-- The row of an address: `addr[23]` and `addr[19:8]`. -/
def row (a : BitVec 26) : BitVec 13 := a.extractLsb' 23 1 ++ a.extractLsb' 8 12

def bank (a : BitVec 26) : BitVec 2 := a.extractLsb' 20 2

def chip (a : BitVec 26) : Bool := a.getLsbD 25

/-- The column of an address: `addr[24]`, `addr[22]` and `addr[7:0]`. -/
def col (a : BitVec 26) : BitVec 10 :=
  a.extractLsb' 24 1 ++ a.extractLsb' 22 1 ++ a.extractLsb' 0 8

/-- A command slot: a row is opened, or a chip is refreshed. -/
def start : Sdram :=
  let s₁ : Sdram :=
    { s.quiet w with
      oeLatch := w.oe, weLatch := w.we
      doutValid := if w.we then false else s.doutValid }
  if w.we || w.oe then
    { s₁ with
      addrLatch := w.addr, sdCmd := .active, sdCs := chip w.addr, sdAddr := row w.addr
      sdBa := bank w.addr }
  else { s₁ with sdCmd := .autoRefresh, sdCs := s.rfshChip, rfshChip := !s.rfshChip }

/-- The access to the open row; it closes the row. -/
def column : Sdram :=
  if s.weLatch || s.oeLatch then
    { s.quiet w with
      sdCmd := if s.weLatch then .write else .read
      sdCs := chip s.addrLatch
      sdDrive := if s.weLatch then some w.din else none
      sdAddr := (if s.weLatch then ~~~w.ds else 0) ++ (1 : BitVec 1) ++ col s.addrLatch }
  else s.quiet w

/-- The word of a read arrives. -/
def arrive : Sdram :=
  if s.oeLatch then
    { s.quiet w with dout := w.sdData, doutAddr := s.addrLatch, doutValid := true }
  else s.quiet w

def step : Sdram :=
  if s.reset ≠ 0 then s.ladder w
  else if s.t = 0 then s.start w
  else if s.t = 2 then s.column w
  else if s.t = 6 then s.arrive w
  else s.quiet w

variable {w s} in
/-- What a clock can be. -/
theorem step_cases : (s.reset ≠ 0 ∧ s.step w = s.ladder w) ∨
    (s.reset = 0 ∧ s.t = 0 ∧ s.step w = s.start w) ∨
    (s.reset = 0 ∧ s.t = 2 ∧ s.step w = s.column w) ∨
    (s.reset = 0 ∧ s.t = 6 ∧ s.step w = s.arrive w) ∨
    (s.reset = 0 ∧ s.t ≠ 0 ∧ s.t ≠ 2 ∧ s.t ≠ 6 ∧ s.step w = s.quiet w) := by
  by_cases busy : s.reset = 0
  · have outside : ¬ s.reset ≠ 0 := not_not.mpr busy
    by_cases first : s.t = 0
    · exact .inr (.inl ⟨busy, first, by rw [step, if_neg outside, if_pos first]⟩)
    by_cases second : s.t = 2
    · exact .inr (.inr (.inl ⟨busy, second, by
        rw [step, if_neg outside, if_neg first, if_pos second]⟩))
    by_cases last : s.t = 6
    · exact .inr (.inr (.inr (.inl ⟨busy, last, by
        rw [step, if_neg outside, if_neg first, if_neg second, if_pos last]⟩)))
    · exact .inr (.inr (.inr (.inr ⟨busy, first, second, last, by
        rw [step, if_neg outside, if_neg first, if_neg second, if_neg last]⟩)))
  · exact .inl ⟨busy, if_pos busy⟩

/-- `ram_ready` -/
def ramReady : Bool := s.doutValid && s.doutAddr == w.addr

/-! ## The chips -/

/-- What a write makes of a word: `sd_dqm` masks its bytes. -/
def masked (dqm : BitVec 2) (data old : BitVec 16) : BitVec 16 :=
  (if dqm.getLsbD 1 then old.extractLsb' 8 8 else data.extractLsb' 8 8) ++
    (if dqm.getLsbD 0 then old.extractLsb' 0 8 else data.extractLsb' 0 8)

abbrev ChipCommand := Dram.Command (BitVec 2) (BitVec 13) (BitVec 10) (BitVec 13) (BitVec 16)

abbrev Chip := Dram.Chip (BitVec 2) (BitVec 13) (BitVec 10) (BitVec 13) (BitVec 16)

/-- What the chip with this level of `sd_cs` makes of the pins; an undriven bus writes
whatever it carries. -/
def command (d : Bool) (bus : BitVec 16) : ChipCommand :=
  if s.sdCs = d then
    match s.sdCmd with
    | .inhibit => .nop
    | .active => .active s.sdBa s.sdAddr
    | .read => .read s.sdBa (s.sdAddr.extractLsb' 0 10) (s.sdAddr.getLsbD 10)
    | .write =>
      .write s.sdBa (s.sdAddr.extractLsb' 0 10) (s.sdAddr.getLsbD 10)
        (masked (s.sdAddr.extractLsb' 11 2) (s.sdDrive.getD bus))
    | .precharge => .precharge (if s.sdAddr.getLsbD 10 then none else some s.sdBa)
    | .autoRefresh => .refresh
    | .loadMode => .loadMode s.sdAddr
  else .nop

end Sdram

/-- The controller with its two chips. -/
structure SdramSystem where
  ctl : Sdram
  chips : Bool → Sdram.Chip

namespace SdramSystem

variable (w : SdramIn) (y : SdramSystem)

/-- A clock of the controller, and the edge of the chips after it. -/
def step : SdramSystem where
  ctl := y.ctl.step w
  chips d := (y.chips d).next ((y.ctl.step w).command d w.sdData)

/-- The system after `n` clocks. -/
def after (i : Nat → SdramIn) : Nat → SdramSystem
  | 0 => y
  | n + 1 => (after i n).step (i n)

/-- The words as the chipset addresses them. -/
def word (a : BitVec 26) : BitVec 16 :=
  (y.chips (Sdram.chip a)).mem (Sdram.bank a) (Sdram.row a) (Sdram.col a)

end SdramSystem

end MacIIvi
