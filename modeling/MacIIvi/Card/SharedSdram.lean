import MacIIvi.Card.Coherence
import MacIIvi.Floppy.Drive

/-!
# The SDRAM between the card and the CPU

Source: `MacIIvi.sv` (the DTACK generator, the cold-tail port and the mux in front of the
SDRAM), `rtl/addrController_top.v`, `rtl/addrDecoder.v` and the cycle counter of
`rtl/sdram.v`, around the card and the bus FSM. Cycles in CPU space and those of the
page walker are left out.
-/

namespace MacIIvi.Card

open Clocked

/-! ## The memory map -/

namespace Access

variable (overlay : Bool) (ramSize : Nat) (a : Access)

def selectRom : Bool :=
  (decide (a.addr < 2 ^ 30) && overlay && a.rwN) || a.addr / 2 ^ 28 == 0x4

def selectRam : Bool :=
  decide (a.addr < 2 ^ 30) && !(overlay && a.rwN) && decide (a.addr < 2 ^ 27) && decide (a.addr < ramSize)

def selectVram : Bool := a.addr / 2 ^ 28 == 0x6

/-- A cycle to RAM, ROM or the onboard VRAM. -/
def isMemory : Bool := a.selectRom overlay || a.selectRam overlay ramSize || a.selectVram

def ioSpace : Bool := a.addr / 2 ^ 24 == 0x50

/-- `cpu_sdram_word` -/
def sdramWord : Nat :=
  if a.selectVram then 0x0080000 + a.addr % 2 ^ 20 / 2
  else if a.selectRom overlay then a.addr % 2 ^ 20 / 2
  else if a.selectRam overlay ramSize then 0x0380000 + a.addr % 2 ^ 27 / 2
  else 0

end Access

/-! ## The system -/

/-- The lines into the SDRAM controller. -/
structure Lines where
  addr : Nat
  din : Word
  ds : Lanes
  we : Bool
  oe : Bool

/-- The card and the bus with the slot counters, the DTACK generator, the overlay and the
cycle counter `t` of the controller. -/
structure Shared where
  sys : State
  slots : Floppy.Slots
  memLatchD : Bool
  dtackEn : Bool
  sdramT : Nat
  romOverlay : Bool
  overlayDisablePending : Bool

/-- What comes from outside at one clock: the kernel, the devices that end I/O cycles, the
download, the addresses of the two drives, the read handshake of the controller for the
card, and the rest of the card. -/
structure SharedIn where
  request : Option Access
  ioDtackN : Bool
  din : Word
  dioDownload : Bool
  dioA : Nat
  dioData : Word
  dioWrite : Bool
  dskInt : Nat
  dskExt : Nat
  ramReady : Bool
  answers : Answers

namespace Shared

variable (sz : Sizes) (ramSize : Nat) (s : Shared) (i : SharedIn)

def access : Access := s.sys.bus.access

def cpuBusControl : Bool := s.slots.busCycle != 2

def dskRead : Bool := s.slots.dskReadAckInt || s.slots.dskReadAckExt

def downloadCycle : Bool := i.dioDownload && !s.cpuBusControl

/-- `card_ext_req` -/
def cardExtReq : Bool := (s.sys.card.portRd || s.sys.card.portWr) && s.sys.card.extSel

def cardExtSlot : Bool := s.cardExtReq && !s.downloadCycle i && !s.dskRead

def selectRom : Bool := !s.sys.bus.asN && s.access.selectRom s.romOverlay

def selectRam : Bool := !s.sys.bus.asN && s.access.selectRam s.romOverlay ramSize

def selectVram : Bool := !s.sys.bus.asN && s.access.selectVram

def memoryAddr : Nat :=
  if s.slots.dskReadAckInt then i.dskInt
  else if s.slots.dskReadAckExt then i.dskExt
  else if s.sys.bus.asN then 0
  else s.access.sdramWord s.romOverlay ramSize

def lines : Lines where
  addr :=
    if s.downloadCycle i then i.dioA
    else if s.cardExtSlot i then 0x0100000 + Ports.extWord s.sys.card
    else s.memoryAddr ramSize i
  din :=
    if s.downloadCycle i then i.dioData
    else if s.cardExtSlot i then s.sys.card.vramDout
    else s.access.data
  ds :=
    if s.downloadCycle i then Lanes.both
    else if s.cardExtSlot i then Lanes.both
    else if s.cpuBusControl then s.sys.bus.lanes
    else Lanes.both
  we :=
    if s.downloadCycle i then i.dioWrite
    else if s.cardExtSlot i then s.sys.card.portWr && s.sys.card.extSel
    else s.cpuBusControl && (s.selectRam ramSize || s.selectVram) && !s.sys.bus.rwN
  oe :=
    if s.downloadCycle i then false
    else if s.cardExtSlot i then s.sys.card.portRd && s.sys.card.extSel
    else (s.cpuBusControl && (s.selectRam ramSize || s.selectVram) && s.sys.bus.rwN) ||
      (s.cpuBusControl && s.selectRom && s.sys.bus.rwN) || s.dskRead

/-- `_cpuDTACK` outside slot space. -/
def otherDtackN : Bool := if s.access.ioSpace then i.ioDtackN else !s.dtackEn

/-- A clock of the controller: two for each clock of the system. -/
def tNext (clk8 : Bool) (t : Nat) : Nat :=
  if (t = 7 ∧ clk8 = false) ∨ (t = 0 ∧ clk8 = true) ∨ (t ≠ 7 ∧ t ≠ 0) then (t + 1) % 8 else t

def clk8 : Bool := decide (s.slots.busPhase < 2)

/-- What the card and the bus see of the rest. -/
def sysIn : Inputs where
  request := i.request
  dtackN := s.otherDtackN i
  din := i.din
  granted := !s.downloadCycle i && !s.dskRead
  ramReady := i.ramReady
  answers := i.answers

def overlayTrigger : Bool :=
  !s.sys.bus.asN && s.sys.bus.rwN && s.access.addr / 2 ^ 28 == 0x4

def step : Shared where
  sys := s.sys.step sz (s.sysIn i)
  slots := s.slots.step
  memLatchD := s.slots.busPhase == 3
  dtackEn :=
    if !s.sys.bus.asN && ((s.cpuBusControl && s.memLatchD) ||
        (!s.selectRom && !s.selectRam ramSize && !s.selectVram)) then true
    else if s.sys.bus.asN then false
    else s.dtackEn
  sdramT := tNext s.clk8 (tNext s.clk8 s.sdramT)
  romOverlay := if s.overlayDisablePending && s.sys.bus.asN then false else s.romOverlay
  overlayDisablePending :=
    if s.overlayDisablePending && s.sys.bus.asN then false
    else s.overlayDisablePending || (s.overlayTrigger && s.romOverlay)

/-- The state after `t` clocks. -/
def after (i : Nat → SharedIn) : Nat → Shared
  | 0 => s
  | t + 1 => (after i t).step sz ramSize (i t)

/-- A cycle to memory is on the bus. -/
def inMemory : Bool := !s.sys.bus.asN && s.access.isMemory s.romOverlay ramSize

/-- The bus FSM takes DTACK in a cycle to memory. -/
def takesDtack : Bool :=
  s.inMemory ramSize && !s.sys.bus.phi && s.sys.bus.sState == 4 && !s.sys.dtackN (s.sysIn i)

/-- A command slot of the CPU starts at this clock. -/
def commandSlot : Bool := s.cpuBusControl && s.sdramT == 0

/-- Card and bus FSM in reset, at any clock of the slot round; the counter of the controller
runs with the slots. -/
structure Initial : Prop where
  sys : s.sys.Initial
  phase : s.slots.busPhase < 4
  cycle : s.slots.busCycle < 4
  phi : s.sys.bus.phi = (s.slots.busPhase % 2 == 0)
  latch : s.memLatchD = (s.slots.busPhase == 0)
  locked : s.sdramT = 2 * s.slots.busPhase

end Shared

section Law

variable (sz : Sizes) (ramSize : Nat) (s : Shared) (i : Nat → SharedIn)

/-- The cycle on the bus at clock `t` has had the SDRAM in the command slot that starts at
clock `u`: its address and direction with the row, and with the column, a clock later, its
data and strobes. A write to ROM asks for no command. -/
structure Presented (u t : Nat) : Prop where
  upTo : u ≤ t
  cycle : ∀ v, u ≤ v → v ≤ t → (s.after sz ramSize i v).sys.bus.asN = false
  command : (s.after sz ramSize i u).commandSlot = true
  address : ((s.after sz ramSize i u).lines ramSize (i u)).addr =
    (s.after sz ramSize i u).access.sdramWord (s.after sz ramSize i u).romOverlay ramSize
  read : (s.after sz ramSize i u).access.rwN = true →
    ((s.after sz ramSize i u).lines ramSize (i u)).oe = true
  write : (s.after sz ramSize i u).access.rwN = false →
    (s.after sz ramSize i u).selectRom = false → ((s.after sz ramSize i u).lines ramSize (i u)).we = true
  column : (s.after sz ramSize i u).access.rwN = false →
    (s.after sz ramSize i (u + 1)).sdramT = 2 ∧
    ((s.after sz ramSize i (u + 1)).lines ramSize (i (u + 1))).din = (s.after sz ramSize i u).access.data ∧
    ((s.after sz ramSize i (u + 1)).lines ramSize (i (u + 1))).ds = (s.after sz ramSize i u).access.lanes

/-- Each cycle to memory that gets DTACK has had the SDRAM. -/
def Undisturbed : Prop :=
  ∀ t, (s.after sz ramSize i t).takesDtack ramSize (i t) = true → ∃ u, Presented sz ramSize s i u t

/-- No cold-tail operation of the card is under way when a cycle to memory comes to its slot;
one that starts between the row and the column of a write puts the same word there. -/
def CardIdleInSlots : Prop :=
  ∀ u, (s.after sz ramSize i u).inMemory ramSize = true → (s.after sz ramSize i u).commandSlot = true →
    (s.after sz ramSize i u).cardExtReq = false ∧
    ((s.after sz ramSize i u).access.rwN = false → (s.after sz ramSize i (u + 1)).cardExtReq = true →
      (s.after sz ramSize i (u + 1)).sys.card.vramDout = (s.after sz ramSize i u).access.data ∧
      (s.after sz ramSize i u).access.lanes = Lanes.both)

end Law

/-! ## One clock -/

namespace Shared

variable {z : Sizes} {n : Nat} {s : Shared} {i : SharedIn}

/-- The bus phase, the CPU's clock enables, the controller and the DTACK generator keep step. -/
structure Locked (s : Shared) : Prop where
  bus : s.sys.bus.Ok
  phase : s.slots.busPhase < 4
  phi : s.sys.bus.phi = (s.slots.busPhase % 2 == 0)
  latch : s.memLatchD = (s.slots.busPhase == 0)
  locked : s.sdramT = 2 * s.slots.busPhase

theorem Locked.step (here : s.Locked) : (s.step z n i).Locked where
  bus := here.bus.step _ _ _
  phase := Nat.mod_lt _ (by decide)
  phi := by
    have bound := here.phase
    change (!s.sys.bus.phi) = ((s.slots.busPhase + 1) % 4 % 2 == 0)
    rw [here.phi]
    interval_cases s.slots.busPhase <;> rfl
  latch := by
    have bound := here.phase
    change (s.slots.busPhase == 3) = ((s.slots.busPhase + 1) % 4 == 0)
    interval_cases s.slots.busPhase <;> rfl
  locked := by
    have bound := here.phase
    change tNext s.clk8 (tNext s.clk8 s.sdramT) = 2 * ((s.slots.busPhase + 1) % 4)
    rw [here.locked, clk8]
    interval_cases s.slots.busPhase <;> rfl

/-- DTACK is given in the slot that follows AS, at its second clock, and AS rises at its end. -/
structure DtackTimed (n : Nat) (s : Shared) : Prop where
  given : s.inMemory n = true → s.dtackEn = true →
    s.sys.bus.sState = 4 ∧ s.slots.busPhase = 1 ∨ s.sys.bus.sState = 5 ∨ s.sys.bus.sState = 6
  five : s.inMemory n = true → s.sys.bus.sState = 5 → s.slots.busPhase = 2
  six : s.inMemory n = true → s.sys.bus.sState = 6 → s.slots.busPhase = 3

theorem inMemory_iff (bus : s.sys.bus.Ok) : s.inMemory n = true ↔
    2 ≤ s.sys.bus.sState ∧ s.sys.bus.sState ≤ 6 ∧ s.access.isMemory s.romOverlay n = true := by
  rw [inMemory, Bool.and_eq_true, Bool.not_eq_true', bus.asN_iff (s := s.sys), and_assoc]

/-- A cycle to memory is neither one to a slot nor one to a device. -/
theorem dtackN_of_memory {a : Access} {overlay : Bool} (memory : a.isMemory overlay n = true) :
    slotSpace a.addr = false ∧ a.ioSpace = false := by
  simp only [Access.isMemory, Access.selectRom, Access.selectRam, Access.selectVram, Bool.or_eq_true,
    Bool.and_eq_true, decide_eq_true_eq, beq_iff_eq] at memory
  constructor
  · simp only [slotSpace, Bool.or_eq_false_iff, Bool.and_eq_false_iff, decide_eq_false_iff_not]
    omega
  · simp only [Access.ioSpace, beq_eq_false_iff_ne]
    omega

theorem sys_dtackN (memory : s.access.isMemory s.romOverlay n = true) :
    s.sys.dtackN (s.sysIn i) = !s.dtackEn := by
  obtain ⟨slot, io⟩ := dtackN_of_memory memory
  have slot : slotSpace s.sys.bus.access.addr = false := slot
  simp [State.dtackN, State.pins, slot, sysIn, otherDtackN, io]

/-- Nothing about a cycle changes while AS is low. -/
theorem held_step (low : s.sys.bus.asN = false) (busy : s.sys.bus.sState ≠ 0) :
    (s.step z n i).access = s.access ∧ (s.step z n i).romOverlay = s.romOverlay := by
  refine ⟨access_step (z := z) (i := s.sysIn i) busy, ?_⟩
  simp [step, low]

theorem sState_step (here : s.Locked) (memory : s.inMemory n = true) :
    (s.step z n i).sys.bus.sState =
      if s.sys.bus.sState = 4 then (if s.sys.bus.phi = false ∧ s.dtackEn = true then 5 else 4)
      else s.sys.bus.sState + 1 := by
  obtain ⟨low, high, region⟩ := (inMemory_iff here.bus).1 memory
  have next : (s.step z n i).sys.bus.sState = _ :=
    here.bus.sState_step i.request (s.sys.dtackN (s.sysIn i)) (s.sys.cpuDin (s.sysIn i)) (by omega)
  rw [next, sys_dtackN region]
  split
  · simp
  · omega

/-- In a cycle to memory the DTACK generator waits for the start of a CPU slot. -/
theorem dtackEn_step (here : s.Locked) (memory : s.inMemory n = true) :
    (s.step z n i).dtackEn =
      ((s.cpuBusControl && s.slots.busPhase == 0) || s.dtackEn) := by
  obtain ⟨low, high, region⟩ := (inMemory_iff here.bus).1 memory
  have asN : s.sys.bus.asN = false := here.bus.asN_low low high
  have selected : (!s.selectRom && !s.selectRam n && !s.selectVram) = false := by
    revert region
    simp only [Access.isMemory, selectRom, selectRam, selectVram, asN]
    cases s.access.selectRom s.romOverlay <;> cases s.access.selectRam s.romOverlay n <;>
      cases s.access.selectVram <;> simp
  change (if !s.sys.bus.asN && (_ || (!s.selectRom && !s.selectRam n && !s.selectVram)) then true
    else if s.sys.bus.asN then false else s.dtackEn) = _
  rw [selected, asN, here.latch]
  cases s.cpuBusControl && s.slots.busPhase == 0 <;> simp

theorem dtackEn_before (high : s.sys.bus.asN = true) : (s.step z n i).dtackEn = false := by
  simp [step, high]

/-- The clock before one of a cycle to memory. -/
theorem before_inMemory (here : s.Locked) (memory' : (s.step z n i).inMemory n = true) :
    s.sys.bus.asN = true ∨ s.inMemory n = true := by
  have next := Locked.step (z := z) (n := n) (i := i) here
  obtain ⟨-, -, region'⟩ := (inMemory_iff next.bus).1 memory'
  cases asN : s.sys.bus.asN
  · obtain ⟨low, high⟩ := (here.bus.asN_iff (s := s.sys)).1 asN
    obtain ⟨access', overlay'⟩ := held_step (z := z) (n := n) (i := i) asN (by omega)
    rw [access', overlay'] at region'
    exact .inr ((inMemory_iff here.bus).2 ⟨low, high, region'⟩)
  · exact .inl rfl

theorem first_inMemory (here : s.Locked) (asN : s.sys.bus.asN = true)
    (memory' : (s.step z n i).inMemory n = true) :
    (s.step z n i).sys.bus.sState = 2 := by
  have next := Locked.step (z := z) (n := n) (i := i) here
  obtain ⟨low', high', -⟩ := (inMemory_iff next.bus).1 memory'
  have before := before_cycle (z := z) (s := s.sys) (i := s.sysIn i) here.bus low' high'
  obtain ⟨-, two⟩ | ⟨low, high, -⟩ := before
  · exact two
  · rw [here.bus.asN_low low high] at asN
    cases asN

theorem phase_step : (s.step z n i).slots.busPhase = (s.slots.busPhase + 1) % 4 := rfl

theorem DtackTimed.step (here : s.Locked) (timed : s.DtackTimed n) :
    (s.step z n i).DtackTimed n where
  given := by
    intro memory' given
    obtain asN | memory := before_inMemory here memory'
    · rw [dtackEn_before asN] at given
      cases given
    · obtain ⟨low, high, -⟩ := (inMemory_iff here.bus).1 memory
      have state' := sState_step (z := z) (i := i) here memory
      rw [dtackEn_step here memory] at given
      by_cases before : s.dtackEn = true
      · obtain ⟨four, one⟩ | five | six := timed.given memory before
        · have phi : s.sys.bus.phi = false := by rw [here.phi, one]; rfl
          rw [state', if_pos four, if_pos ⟨phi, before⟩]
          exact .inr (.inl rfl)
        · rw [state', five]
          exact .inr (.inr rfl)
        · have high' := ((inMemory_iff (Locked.step here).bus).1 memory').2.1
          rw [state', six] at high'
          simp at high'
      · have before : s.dtackEn = false := by simpa using before
        rw [before, Bool.or_false, Bool.and_eq_true, beq_iff_eq] at given
        have phi : s.sys.bus.phi = true := by rw [here.phi, given.2]; rfl
        have two : ¬ (s.sys.bus.sState = 2 ∨ s.sys.bus.sState = 6) := by
          intro h
          rw [here.bus.even h] at phi
          cases phi
        rw [state', phase_step, given.2]
        by_cases four : s.sys.bus.sState = 4
        · simp [four, before]
        · rw [if_neg four]
          omega
  five := by
    intro memory' five'
    obtain asN | memory := before_inMemory here memory'
    · rw [first_inMemory here asN memory'] at five'
      cases five'
    · rw [sState_step here memory] at five'
      split at five'
      · next four =>
        split at five'
        · next given =>
          obtain ⟨-, one⟩ | five | six := timed.given memory given.2
          · rw [phase_step, one]
          · omega
          · omega
        · cases five'
      · omega
  six := by
    intro memory' six'
    obtain asN | memory := before_inMemory here memory'
    · rw [first_inMemory here asN memory'] at six'
      cases six'
    · rw [sState_step here memory] at six'
      split at six'
      · split at six' <;> cases six'
      · rw [phase_step, timed.five memory (by omega)]

/-- The start of a command slot in a cycle to memory: DTACK is taken at the next clock, and
AS rises before the next slot. -/
theorem commandSlot_step (here : s.Locked) (timed : s.DtackTimed n)
    (memory : s.inMemory n = true) (command : s.commandSlot = true) :
    s.slots.busPhase = 0 ∧ s.cpuBusControl = true ∧ (s.step z n i).sys.bus.sState = 4 ∧
      (s.step z n i).dtackEn = true := by
  simp only [commandSlot, Bool.and_eq_true, beq_iff_eq] at command
  obtain ⟨cpu, start⟩ := command
  have zero : s.slots.busPhase = 0 := by
    have := here.locked
    omega
  have phi : s.sys.bus.phi = true := by rw [here.phi, zero]; rfl
  obtain ⟨low, high, -⟩ := (inMemory_iff here.bus).1 memory
  have even := here.bus.even
  have two : ¬ (s.sys.bus.sState = 2 ∨ s.sys.bus.sState = 6) := by
    intro h
    rw [even h] at phi
    cases phi
  have odd : s.sys.bus.sState ≠ 5 := by
    intro five
    have := timed.five memory five
    omega
  refine ⟨zero, cpu, ?_, ?_⟩
  · rw [sState_step here memory]
    by_cases four : s.sys.bus.sState = 4
    · simp [four, phi]
    · rw [if_neg four]
      omega
  · rw [dtackEn_step here memory, cpu, zero]
    rfl

end Shared

/-! ## The law -/

namespace Shared

variable {z : Sizes} {n : Nat} {s : Shared} {i : SharedIn}

/-- In a slot of the CPU only the card can take the SDRAM from it. -/
theorem free_of_cpu (cpu : s.cpuBusControl = true) :
    s.downloadCycle i = false ∧ s.dskRead = false ∧ s.slots.dskReadAckInt = false ∧
      s.slots.dskReadAckExt = false ∧ s.cardExtSlot i = s.cardExtReq := by
  have other : s.slots.busCycle ≠ 2 := by simpa [cpuBusControl] using cpu
  have int : s.slots.dskReadAckInt = false := by simp [Floppy.Slots.dskReadAckInt, other]
  have ext : s.slots.dskReadAckExt = false := by simp [Floppy.Slots.dskReadAckExt, other]
  have down : s.downloadCycle i = false := by simp [downloadCycle, cpu]
  have dsk : s.dskRead = false := by simp [dskRead, int, ext]
  exact ⟨down, dsk, int, ext, by simp [cardExtSlot, down, dsk]⟩

/-- The word of a cycle to memory is not one of the card's window. -/
theorem sdramWord_apart {a : Access} {overlay : Bool} (memory : a.isMemory overlay n = true)
    (w : Nat) : 0x0100000 + w % 2 ^ 20 ≠ a.sdramWord overlay n := by
  have bound : w % 2 ^ 20 < 2 ^ 20 := Nat.mod_lt _ (by decide)
  unfold Access.sdramWord
  split
  · omega
  · split
    · omega
    · next vram rom =>
      have ram : a.selectRam overlay n = true := by
        revert memory
        rw [Access.isMemory]
        simp only [Bool.not_eq_true] at vram rom
        rw [vram, rom]
        simp
      rw [if_pos ram]
      omega

/-- The row of a cycle that the card leaves alone. -/
theorem lines_row (here : s.Locked) (memory : s.inMemory n = true) (cpu : s.cpuBusControl = true)
    (idle : s.cardExtReq = false) :
    (s.lines n i).addr = s.access.sdramWord s.romOverlay n ∧
      (s.access.rwN = true → (s.lines n i).oe = true) ∧
      (s.access.rwN = false → s.selectRom = false → (s.lines n i).we = true) := by
  obtain ⟨low, high, region⟩ := (inMemory_iff here.bus).1 memory
  have asN : s.sys.bus.asN = false := here.bus.asN_low low high
  have rwN : s.sys.bus.rwN = s.access.rwN := here.bus.rwN low (by omega)
  obtain ⟨down, dsk, int, ext, slot⟩ := free_of_cpu (i := i) cpu
  rw [idle] at slot
  simp only [lines, down, slot, memoryAddr, int, ext, dsk, asN, cpu, rwN, selectRom, selectRam,
    selectVram]
  revert region
  simp only [Access.isMemory]
  cases s.access.selectRom s.romOverlay <;> cases s.access.selectRam s.romOverlay n <;>
    cases s.access.selectVram <;> cases s.access.rwN <;> simp

/-- The column of a write. -/
theorem lines_column (cpu : s.cpuBusControl = true) :
    (s.lines n i).din = (if s.cardExtReq then s.sys.card.vramDout else s.access.data) ∧
      (s.lines n i).ds = (if s.cardExtReq then Lanes.both else s.sys.bus.lanes) := by
  obtain ⟨down, -, -, -, slot⟩ := free_of_cpu (i := i) cpu
  simp [lines, down, slot, cpu]

theorem Initial.inStep (start : s.Initial) : s.Locked :=
  ⟨start.sys.bus_ok, start.phase, start.phi, start.latch, start.locked⟩

theorem Initial.timed (start : s.Initial) : s.DtackTimed n := by
  have outside : s.inMemory n ≠ true := by simp [inMemory, start.sys.asN]
  exact ⟨fun h => absurd h outside, fun h => absurd h outside, fun h => absurd h outside⟩

end Shared

section Runs

variable {z : Sizes} {n : Nat} {s : Shared} {i : Nat → SharedIn}

open Shared

theorem locked_run (start : s.Initial) (t : Nat) :
    (s.after z n i t).Locked ∧ (s.after z n i t).DtackTimed n := by
  induction t with
  | zero => exact ⟨start.inStep, start.timed⟩
  | succ t ih => exact ⟨ih.1.step, ih.2.step ih.1⟩

/-- What a command slot shows of its cycle, one clock later. -/
theorem command_next (start : s.Initial) {u : Nat}
    (memory : (s.after z n i u).inMemory n = true)
    (command : (s.after z n i u).commandSlot = true) :
    (s.after z n i (u + 1)).takesDtack n (i (u + 1)) = true ∧
      (s.after z n i (u + 1)).inMemory n = true ∧
      (s.after z n i (u + 1)).sys.bus.sState = 4 ∧
      (s.after z n i (u + 1)).dtackEn = true ∧
      (s.after z n i (u + 1)).slots.busPhase = 1 ∧
      (s.after z n i (u + 1)).cpuBusControl = true ∧
      (s.after z n i (u + 1)).access = (s.after z n i u).access := by
  obtain ⟨here, timed⟩ := locked_run (z := z) (n := n) (i := i) start u
  obtain ⟨next, -⟩ := locked_run (z := z) (n := n) (i := i) start (u + 1)
  obtain ⟨low, high, region⟩ := (inMemory_iff here.bus).1 memory
  obtain ⟨zero, cpu, four, given⟩ := commandSlot_step (z := z) (i := i u) here timed memory command
  obtain ⟨access', overlay'⟩ := held_step (z := z) (n := n) (i := i u)
    (here.bus.asN_low low high) (by omega)
  have again : s.after z n i (u + 1) = (s.after z n i u).step z n (i u) := rfl
  have one : (s.after z n i (u + 1)).slots.busPhase = 1 := by
    rw [again, phase_step, zero]
  have cpu' : (s.after z n i (u + 1)).cpuBusControl = true := by
    rw [← cpu, again]
    simp [cpuBusControl, step, Floppy.Slots.step, zero]
  rw [← again] at four given access' overlay'
  have memory' : (s.after z n i (u + 1)).inMemory n = true :=
    (inMemory_iff next.bus).2 ⟨by omega, by omega, by rw [access', overlay']; exact region⟩
  have phi : (s.after z n i (u + 1)).sys.bus.phi = false := by rw [next.phi, one]; rfl
  have dtackN : (s.after z n i (u + 1)).sys.dtackN
      ((s.after z n i (u + 1)).sysIn (i (u + 1))) = false := by
    rw [sys_dtackN (by rw [access', overlay']; exact region), given]
    rfl
  exact ⟨by simp [takesDtack, memory', phi, four, dtackN], memory', four, given, one, cpu', access'⟩

/-- The command slot before DTACK. -/
theorem command_before (start : s.Initial) {t : Nat}
    (takes : (s.after z n i t).takesDtack n (i t) = true) :
    ∃ u, t = u + 1 ∧ (s.after z n i u).inMemory n = true ∧
      (s.after z n i u).commandSlot = true := by
  simp only [takesDtack, Bool.and_eq_true, Bool.not_eq_true', beq_iff_eq] at takes
  obtain ⟨⟨⟨memory, phi⟩, four⟩, dtackN⟩ := takes
  cases t with
  | zero =>
    have idle : s.sys.bus.sState = 0 := start.sys.state
    rw [show (s.after z n i 0).sys.bus.sState = s.sys.bus.sState from rfl, idle] at four
    cases four
  | succ u =>
    obtain ⟨here, timed⟩ := locked_run (z := z) (n := n) (i := i) start u
    obtain ⟨next, timed'⟩ := locked_run (z := z) (n := n) (i := i) start (u + 1)
    obtain ⟨-, -, region⟩ := (inMemory_iff next.bus).1 memory
    have given : (s.after z n i (u + 1)).dtackEn = true := by
      rw [sys_dtackN region] at dtackN
      simpa using dtackN
    have one : (s.after z n i (u + 1)).slots.busPhase = 1 := by
      obtain ⟨-, one⟩ | five | six := timed'.given memory given
      · exact one
      · omega
      · omega
    have again : s.after z n i (u + 1) = (s.after z n i u).step z n (i u) := rfl
    have zero : (s.after z n i u).slots.busPhase = 0 := by
      have bound := here.phase
      rw [again, phase_step] at one
      omega
    rw [again] at memory four given
    obtain asN | memory₀ := before_inMemory here memory
    · rw [first_inMemory here asN memory] at four
      cases four
    · have start_ : (s.after z n i u).sdramT = 0 := by rw [here.locked, zero]
      refine ⟨u, rfl, memory₀, ?_⟩
      rw [dtackEn_step here memory₀, Bool.or_eq_true, Bool.and_eq_true] at given
      rw [commandSlot, start_]
      obtain ⟨cpu, -⟩ | before := given
      · rw [cpu]
        rfl
      · obtain ⟨-, one⟩ | five | six := timed.given memory₀ before
        · omega
        · rw [sState_step here memory₀, five] at four
          cases four
        · rw [sState_step here memory₀, six] at four
          cases four

/-- AS rises before the next slot. -/
theorem command_ends (start : s.Initial) {u : Nat}
    (memory : (s.after z n i u).inMemory n = true)
    (command : (s.after z n i u).commandSlot = true) :
    (s.after z n i (u + 4)).sys.bus.asN = true := by
  obtain ⟨-, memory₁, four, given, one, -⟩ := command_next start memory command
  obtain ⟨here₁, -⟩ := locked_run (z := z) (n := n) (i := i) start (u + 1)
  have phi : (s.after z n i (u + 1)).sys.bus.phi = false := by rw [here₁.phi, one]; rfl
  have five : (s.after z n i (u + 2)).sys.bus.sState = 5 := by
    have := sState_step (z := z) (i := i (u + 1)) here₁ memory₁
    rw [if_pos four, if_pos ⟨phi, given⟩] at this
    exact this
  have next : ∀ v x, (s.after z n i v).sys.bus.sState = x → x ≠ 0 → x ≠ 4 →
      (s.after z n i (v + 1)).sys.bus.sState = (x + 1) % 8 := by
    intro v x state some_ other
    obtain ⟨here, -⟩ := locked_run (z := z) (n := n) (i := i) start v
    have := here.bus.sState_step (i v).request ((s.after z n i v).sys.dtackN
      ((s.after z n i v).sysIn (i v))) ((s.after z n i v).sys.cpuDin
      ((s.after z n i v).sysIn (i v))) (by omega)
    rw [state, if_neg other] at this
    exact this
  have six := next (u + 2) 5 five (by decide) (by decide)
  have seven := next (u + 3) 6 six (by decide) (by decide)
  obtain ⟨last, -⟩ := locked_run (z := z) (n := n) (i := i) start (u + 4)
  rw [last.bus.asN, seven]
  rfl

theorem undisturbed_of_idle (start : s.Initial) (idle : CardIdleInSlots z n s i) :
    Undisturbed z n s i := by
  intro t takes
  obtain ⟨u, rfl, memory, command⟩ := command_before start takes
  obtain ⟨-, memory₁, four, -, one, cpu₁, access₁⟩ := command_next start memory command
  obtain ⟨here, -⟩ := locked_run (z := z) (n := n) (i := i) start u
  obtain ⟨here₁, -⟩ := locked_run (z := z) (n := n) (i := i) start (u + 1)
  obtain ⟨row, column⟩ := idle u memory command
  have cpu : (s.after z n i u).cpuBusControl = true := (Bool.and_eq_true_iff.1 command).1
  obtain ⟨address, read, write⟩ := lines_row (i := i u) here memory cpu row
  obtain ⟨din, ds⟩ := lines_column (n := n) (i := i (u + 1)) cpu₁
  have strobed : (s.after z n i (u + 1)).sys.bus.lanes = (s.after z n i u).access.lanes := by
    rw [← access₁]
    apply lanes_of_strobe here₁.bus
    · have := (s.after z n i (u + 1)).sys.bus.access.firstStrobe_cases
      omega
    · omega
  refine ⟨u, by omega, ?_, command, address, read, write, ?_⟩
  · intro v from_ upTo
    obtain rfl | rfl : v = u ∨ v = u + 1 := by omega
    · exact here.bus.asN_low ((inMemory_iff here.bus).1 memory).1 ((inMemory_iff here.bus).1 memory).2.1
    · exact here₁.bus.asN_low (by omega) (by omega)
  · intro dir
    refine ⟨by rw [here₁.locked, one], ?_, ?_⟩
    · rw [din]
      cases busy : (s.after z n i (u + 1)).cardExtReq
      · exact congrArg Access.data access₁
      · exact (column dir busy).1
    · rw [ds]
      cases busy : (s.after z n i (u + 1)).cardExtReq
      · exact strobed
      · exact (column dir busy).2.symm

theorem phase_run (start : s.Initial) (t k : Nat) :
    (s.after z n i (t + k)).slots.busPhase = ((s.after z n i t).slots.busPhase + k) % 4 := by
  induction k with
  | zero =>
    have := (locked_run (z := z) (n := n) (i := i) start t).1.phase
    rw [Nat.add_zero, Nat.add_zero, Nat.mod_eq_of_lt this]
  | succ k ih =>
    change ((s.after z n i (t + k)).slots.busPhase + 1) % 4 = _
    omega

/-- A cycle stays the same while AS is low. -/
theorem held_run (start : s.Initial) (t k : Nat)
    (low : ∀ v, t ≤ v → v < t + k → (s.after z n i v).sys.bus.asN = false) :
    (s.after z n i (t + k)).access = (s.after z n i t).access ∧
      (s.after z n i (t + k)).romOverlay = (s.after z n i t).romOverlay := by
  induction k with
  | zero => exact ⟨rfl, rfl⟩
  | succ k ih =>
    obtain ⟨access, overlay⟩ := ih fun v from_ upTo => low v from_ (by omega)
    have here := low (t + k) (by omega) (by omega)
    have busy := (locked_run (z := z) (n := n) (i := i) start (t + k)).1.bus.asN_iff.1 here
    obtain ⟨access', overlay'⟩ := held_step (z := z) (n := n) (i := i (t + k)) here (by omega)
    exact ⟨access'.trans access, overlay'.trans overlay⟩

/-- The command slot of a cycle is its only one. -/
theorem commandSlot_unique (start : s.Initial) {u u' : Nat}
    (memory : (s.after z n i u).inMemory n = true)
    (command : (s.after z n i u).commandSlot = true)
    (command' : (s.after z n i u').commandSlot = true) (upTo : u' ≤ u + 1)
    (low : ∀ v, u' ≤ v → v ≤ u + 1 → (s.after z n i v).sys.bus.asN = false) : u' = u := by
  have zero : ∀ v, (s.after z n i v).commandSlot = true →
      (s.after z n i v).slots.busPhase = 0 := by
    intro v command
    have := (locked_run (z := z) (n := n) (i := i) start v).1.locked
    simp only [commandSlot, Bool.and_eq_true, beq_iff_eq] at command
    omega
  have here := (locked_run (z := z) (n := n) (i := i) start u).1
  have here' := (locked_run (z := z) (n := n) (i := i) start u').1
  have phase := zero u command
  have phase' := zero u' command'
  by_contra other
  obtain rfl | before : u' = u + 1 ∨ u' < u := by omega
  · have := phase_run (z := z) (n := n) (i := i) start u 1
    omega
  · obtain ⟨k, rfl⟩ := Nat.exists_eq_add_of_lt before
    have apart := phase_run (z := z) (n := n) (i := i) start u' (k + 1)
    rw [← Nat.add_assoc] at apart
    obtain ⟨access, overlay⟩ := held_run (z := z) (n := n) (i := i) start u' (k + 1)
      fun v from_ upTo => low v from_ (by omega)
    rw [← Nat.add_assoc] at access overlay
    obtain ⟨-, -, region⟩ := (inMemory_iff here.bus).1 memory
    rw [access, overlay] at region
    have low' := low u' (Nat.le_refl _) (by omega)
    have inside := here'.bus.asN_iff.1 low'
    have memory' := (inMemory_iff here'.bus).2 ⟨inside.1, inside.2, region⟩
    have high := command_ends start memory' command'
    rw [low (u' + 4) (by omega) (by omega)] at high
    cases high

theorem idle_of_undisturbed (start : s.Initial) (free : Undisturbed z n s i) :
    CardIdleInSlots z n s i := by
  intro u memory command
  obtain ⟨takes, memory₁, four, -, one, cpu₁, access₁⟩ := command_next start memory command
  obtain ⟨here, -⟩ := locked_run (z := z) (n := n) (i := i) start u
  obtain ⟨here₁, -⟩ := locked_run (z := z) (n := n) (i := i) start (u + 1)
  obtain ⟨low, high, region⟩ := (inMemory_iff here.bus).1 memory
  have cpu : (s.after z n i u).cpuBusControl = true := (Bool.and_eq_true_iff.1 command).1
  obtain ⟨u', shown⟩ := free (u + 1) takes
  obtain rfl := commandSlot_unique start memory command shown.command shown.upTo shown.cycle
  constructor
  · cases busy : (s.after z n i u').cardExtReq
    · rfl
    · obtain ⟨down, -, -, -, slot⟩ := free_of_cpu (i := i u') cpu
      have address := shown.address
      simp only [lines, down, slot, busy, Bool.false_eq_true, if_false, if_true] at address
      exact absurd address (sdramWord_apart region _)
  · intro dir busy
    obtain ⟨-, din, ds⟩ := shown.column dir
    obtain ⟨din', ds'⟩ := lines_column (n := n) (i := i (u' + 1)) cpu₁
    rw [din', busy, if_pos rfl] at din
    rw [ds', busy, if_pos rfl] at ds
    exact ⟨din, ds.symm⟩

/-- The cycles to memory have the SDRAM exactly when no operation of the card is under way in
their slots. -/
theorem undisturbed_iff (z : Sizes) (n : Nat) (s : Shared) (start : s.Initial)
    (i : Nat → SharedIn) : Undisturbed z n s i ↔ CardIdleInSlots z n s i :=
  ⟨idle_of_undisturbed start, undisturbed_of_idle start⟩

end Runs

/-! ### A store to the cold tail -/

def tailStore : Access := ⟨0xFE061A80, false, Lanes.both, 0x1234, Lanes.both_ne_none⟩

def ramStore : Access := ⟨0x1000, false, Lanes.both, 0xABCD, Lanes.both_ne_none⟩

/-- From reset, at the start of a slot. -/
def sharedPowerUp : Shared where
  sys := powerUp
  slots := ⟨0, 0, 0, false⟩
  memLatchD := true
  dtackEn := false
  sdramT := 0
  romOverlay := true
  overlayDisablePending := false

theorem sharedPowerUp_initial : sharedPowerUp.Initial :=
  ⟨powerUp_initial, by decide, by decide, rfl, rfl, rfl⟩

/-- No download, and no device that answers; the kernel asks for `request`. -/
def sharedIn (request : Option Access) : SharedIn where
  request := request
  ioDtackN := true
  din := 0
  dioDownload := false
  dioA := 0
  dioData := 0
  dioWrite := false
  dskInt := 0
  dskExt := 0
  ramReady := false
  answers := ⟨0, 0⟩

def ramLoad : Access := ⟨0x1000, true, Lanes.both, 0, Lanes.both_ne_none⟩

def vramByte : Access := ⟨0x60000010, false, ⟨false, true⟩, 0x77, Lanes.low_ne_none⟩

def romLoad : Access := ⟨0x40000010, true, Lanes.both, 0, Lanes.both_ne_none⟩

/-- A word is stored to the cold tail; the store to RAM is on the bus before its commit has
ended, but its slot comes after. A load from RAM, a byte for the onboard VRAM, the word of the
tail and one of the ROM follow. -/
def sharedLaunches : List (Nat × Access) :=
  [(0, tailStore), (26, ramStore), (60, ramLoad), (76, vramByte), (96, tailBack), (126, romLoad)]

/-- A download has every fourth slot. -/
def mixedShared (t : Nat) : SharedIn :=
  { sharedIn ((sharedLaunches.find? fun l => decide (l.1 ≤ t) && decide (t < l.1 + 2)).map Prod.snd) with
    dioDownload := true, dioA := 0x180000, dioData := 0x4C4B, dioWrite := true, ramReady := t % 8 == 7 }

theorem mixedShared_ends (k : Nat) : (mixedShared (138 + k)).request = none := by
  have none_ : sharedLaunches.find? (fun l => decide (l.1 ≤ 138 + k) && decide (138 + k < l.1 + 2)) = none := by
    simp [sharedLaunches]
    omega
  rw [mixedShared, none_]
  rfl

/-- The clocks at which the cycles to memory get DTACK. -/
def sharedTaken : List Nat := [33, 65, 81, 133]

/-- What has to be checked of a clock: the card is idle in the slot of a cycle to memory, and
the cycles get DTACK when they should. -/
def sharedOk (t : Nat) (s : Shared) : Bool :=
  (!s.inMemory 0x400000 || !s.commandSlot ||
      (!s.cardExtReq && !(s.step installed 0x400000 (mixedShared t)).cardExtReq)) &&
    s.takesDtack 0x400000 (mixedShared t) == sharedTaken.contains t &&
    (t != 138 || (s.sys.bus.sState == 0 && s.sys.bus.asN))

set_option maxRecDepth 20000 in
theorem shared_checked : passes (fun t s => s.step installed 0x400000 (mixedShared t)) sharedOk
    139 0 sharedPowerUp = true := by decide +kernel

theorem shared_rests {z : Sizes} {n : Nat} {s : Shared} {i : Nat → SharedIn} {t : Nat}
    (quiet : ∀ k, (i (t + k)).request = none) (rests : (s.after z n i t).sys.bus.Rests) (k : Nat) :
    (s.after z n i (t + k)).sys.bus.Rests := by
  induction k with
  | zero => exact rests
  | succ k ih => exact ih.step (quiet k) _ _

/-- Each command slot of these cycles finds the card idle. -/
theorem undisturbed_mixed : Undisturbed installed 0x400000 sharedPowerUp mixedShared ∧
    ∀ t ∈ sharedTaken,
      (sharedPowerUp.after installed 0x400000 mixedShared t).takesDtack 0x400000 (mixedShared t) = true := by
  have checked : ∀ t < 139, sharedOk t (sharedPowerUp.after installed 0x400000 mixedShared t) = true := by
    simpa using of_passes (sharedPowerUp.after installed 0x400000 mixedShared) (fun _ => rfl)
      shared_checked
  refine ⟨(undisturbed_iff installed 0x400000 sharedPowerUp sharedPowerUp_initial _).2
    fun u memory command => ?_, ?_⟩
  · by_cases soon : u < 139
    · have idle := (Bool.and_eq_true_iff.mp (Bool.and_eq_true_iff.mp (checked u soon)).1).1
      simp only [memory, command, Bool.not_true, Bool.false_or, Bool.and_eq_true,
        Bool.not_eq_true'] at idle
      refine ⟨idle.1, fun _ busy => ?_⟩
      exact absurd (idle.2.symm.trans busy) (by decide)
    · obtain ⟨k, rfl⟩ := Nat.exists_eq_add_of_le (show 138 ≤ u by omega)
      have last := (Bool.and_eq_true_iff.mp (checked 138 (by decide))).2
      simp only [bne_self_eq_false, Bool.false_or, Bool.and_eq_true, beq_iff_eq] at last
      have high := (shared_rests (z := installed) mixedShared_ends ⟨last.1, last.2⟩ k).asN
      simp [Shared.inMemory, high] at memory
  · intro t inside
    have bound : ∀ t ∈ sharedTaken, t < 139 := by decide
    have here := (Bool.and_eq_true_iff.mp (Bool.and_eq_true_iff.mp (checked t (bound t inside))).1).2
    rw [beq_iff_eq, List.contains_iff_mem.mpr inside] at here
    exact here

set_option maxRecDepth 20000 in
/-- A word stored to the cold tail, then one to RAM: the second command goes to the card. -/
theorem undisturbed_fails : ¬ Undisturbed installed 0x400000 sharedPowerUp
    fun t => sharedIn (some (if t < 4 then tailStore else ramStore)) := by
  intro free
  have idle := (idle_of_undisturbed sharedPowerUp_initial free 20 (by decide) (by decide)).1
  revert idle
  decide

end MacIIvi.Card
