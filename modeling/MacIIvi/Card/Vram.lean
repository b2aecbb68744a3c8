import Mathlib.Data.Nat.Log
import MacIIvi.Clocked.Run
import MacIIvi.Rtl.Dpram

/-!
# The CPU side of the display card

Source: the main state machine of `rtl/nubus/nubus_video_mdc824.sv`, port A of
`rtl/nubus/vram_ram.sv`, the cold-tail port and the open-bus timer of `MacIIvi.sv`, and
the kernel cycles of the bus FSM of `rtl/tg68k/tg68k.v`. What the registers and the
declaration ROM answer is an input here, and so is the moment at which the SDRAM
controller has read the addressed word.

The writes of the card are posted: the acknowledge of a write comes when its cycle is
taken, the commit later. `Coherent` compares the accesses of the CPU with one array of
words.
-/

namespace MacIIvi.Card

open Clocked

abbrev Word := BitVec 16

/-- `{uds, lds}`, active high. -/
structure Lanes where
  uds : Bool
  lds : Bool
  deriving DecidableEq, Repr

namespace Lanes

def none : Lanes := ⟨false, false⟩

def both : Lanes := ⟨true, true⟩

theorem both_ne_none : both ≠ none := by decide

theorem low_ne_none : (⟨false, true⟩ : Lanes) ≠ none := by decide

/-- The selected bytes of `new`, the others of `old`. -/
def merge (l : Lanes) (new old : Word) : Word :=
  (if l.uds then new.extractLsb' 8 8 else old.extractLsb' 8 8) ++
    (if l.lds then new.extractLsb' 0 8 else old.extractLsb' 0 8)

end Lanes

/-- `VRAM_WORDS` and `TOTAL_WORDS`. -/
structure Sizes where
  vramWords : Nat
  totalWords : Nat
  nested : vramWords ≤ totalWords
  fits : totalWords ≤ 2 ^ 20

/-! ## The address decode -/

section Decode

variable (addr : Nat)

def inOurSlot : Bool :=
  addr / 2 ^ 28 == 0xE || (addr / 2 ^ 28 == 0xF && addr / 2 ^ 24 % 2 ^ 4 == 0xE)

/-- `selectSuperSlot || selectSlot`, during a bus cycle. -/
def slotSpace : Bool :=
  (decide (0xC ≤ addr / 2 ^ 28) && decide (addr / 2 ^ 28 ≤ 0xE)) ||
    (decide (0xFC ≤ addr / 2 ^ 24) && decide (addr / 2 ^ 24 ≤ 0xFE))

def addrIsVram : Bool := addr % 2 ^ 24 / 2 ^ 21 == 0

def addrIsRegs : Bool := addr % 2 ^ 24 / 2 ^ 16 == 0x20

def addrIsRom : Bool := addr % 2 ^ 24 / 2 ^ 17 == 0x7F

def cpuVramWord : Nat := addr % 2 ^ 21 / 2

end Decode

/-- A bus cycle of the kernel: it strobes a byte or both. -/
structure Access where
  addr : Nat
  rwN : Bool
  lanes : Lanes
  data : Word
  strobed : lanes ≠ Lanes.none

/-! ## The card -/

inductive Fsm where
  | idle | cpuWrite | cpuWriteWait | cpuRead | cpuReadWait
  | cpuRmwRead | cpuRmwReadWait | cpuRmwWrite
  deriving DecidableEq, Repr

/-- What the bus shows the card. -/
structure Pins where
  addr : Nat
  dataIn : Word
  lanes : Lanes
  rwN : Bool
  cpuAsN : Bool
  select : Bool

/-- The registers of the main state machine. -/
structure Regs where
  state : Fsm
  portRd : Bool
  portWr : Bool
  extSel : Bool
  vramAddr : Nat
  vramDout : Word
  cpuWriteData : Word
  cpuWriteMerged : Word
  cpuWriteStrobes : Lanes
  ackN : Bool
  ackDelay : Nat
  romReadPending : Bool
  ackAddr : Nat
  ackDataIn : Word
  ackLanes : Lanes
  ackRwN : Bool
  dataOut : Word

/-- What the rest of the card answers: `reg_read_data`, and the lane-3 byte of the
declaration ROM. -/
structure Answers where
  regReadData : Word
  romData : Word

def VRAM_BASE : Nat := 0x300000

namespace Regs

variable (sz : Sizes) (r : Regs) (p : Pins)

def busKeyChanged : Bool :=
  p.addr != r.ackAddr || (!p.rwN && p.dataIn != r.ackDataIn) || p.lanes != r.ackLanes ||
    p.rwN != r.ackRwN

/-- The countdown, and the release when AS rises. -/
def countdown : Regs :=
  { r with
    ackN := if p.cpuAsN && !r.ackN then true else if r.ackDelay = 1 then false else r.ackN
    ackDelay := if p.cpuAsN && !r.ackN then 0 else r.ackDelay - 1 }

/-- The key of the cycle that is answered. -/
def latchKey : Regs :=
  { r with ackAddr := p.addr, ackDataIn := p.dataIn, ackLanes := p.lanes, ackRwN := p.rwN }

/-- A write to a word that exists. -/
def acceptWrite : Regs :=
  let w := { r with
    extSel := decide (sz.vramWords ≤ cpuVramWord p.addr)
    vramAddr := (VRAM_BASE + cpuVramWord p.addr) % 2 ^ 25
    cpuWriteData := p.dataIn
    cpuWriteStrobes := p.lanes
    ackDelay := 2 }
  if p.lanes = Lanes.both then
    { w with cpuWriteMerged := p.dataIn, vramDout := p.dataIn, state := .cpuWrite }
  else if p.lanes ≠ Lanes.none then { w with state := .cpuRmwRead }
  else w

/-- A read of a word that exists. -/
def acceptRead : Regs :=
  { r with
    extSel := decide (sz.vramWords ≤ cpuVramWord p.addr)
    vramAddr := (VRAM_BASE + cpuVramWord p.addr) % 2 ^ 25
    state := .cpuRead }

/-- The answer that needs no port. -/
def acceptNow (a : Answers) : Regs :=
  if p.rwN && addrIsVram p.addr then { r with dataOut := 0xFFFF, ackDelay := 2 }
  else if p.rwN && addrIsRegs p.addr then { r with dataOut := a.regReadData, ackDelay := 2 }
  else if p.rwN && addrIsRom p.addr then { r with ackDelay := 3, romReadPending := true }
  else if p.rwN then { r with dataOut := 0xFFFF, ackDelay := 2 }
  else { r with ackDelay := 2 }

def accept (a : Answers) : Regs :=
  if addrIsVram p.addr && decide (cpuVramWord p.addr < sz.totalWords) then
    if p.rwN then (r.latchKey p).acceptRead sz p else (r.latchKey p).acceptWrite sz p
  else (r.latchKey p).acceptNow p a

/-- The cycle is taken at this clock. -/
def accepting : Bool :=
  r.state == .idle && !p.cpuAsN && p.select && inOurSlot p.addr && r.ackN && r.ackDelay == 0

/-- `S_IDLE`; the last argument holds the registers after the countdown. -/
def idle (a : Answers) (c : Regs) : Regs :=
  if r.accepting p then { c with portRd := false, portWr := false }.accept sz p a
  else if (!p.select || p.cpuAsN) && !r.ackN then
    { c with portRd := false, portWr := false, ackN := true, ackDelay := 0 }
  else if p.select && inOurSlot p.addr && !r.ackN && r.ackDelay == 0 && r.busKeyChanged p then
    { c with portRd := false, portWr := false, ackN := true }
  else { c with portRd := false, portWr := false }

/-- The case statement. -/
def advance (portReady : Bool) (portDin : Word) (a : Answers) (c : Regs) : Regs :=
  match r.state with
  | .idle => r.idle sz p a c
  | .cpuWrite => { c with portWr := true, state := .cpuWriteWait }
  | .cpuWriteWait => if portReady then { c with portWr := false, state := .idle } else c
  | .cpuRead => { c with portRd := true, state := .cpuReadWait }
  | .cpuReadWait =>
    if portReady then { c with dataOut := portDin, portRd := false, ackDelay := 2, state := .idle }
    else c
  | .cpuRmwRead => { c with portRd := true, state := .cpuRmwReadWait }
  | .cpuRmwReadWait =>
    if portReady then
      { c with
        portRd := false
        cpuWriteMerged := r.cpuWriteStrobes.merge r.cpuWriteData portDin
        state := .cpuRmwWrite }
    else c
  | .cpuRmwWrite =>
    { c with vramDout := r.cpuWriteMerged, portWr := true, state := .cpuWriteWait }

/-- The ROM byte is taken one clock before the acknowledge. -/
def latchRom (a : Answers) (c : Regs) : Regs :=
  if r.ackDelay == 2 && r.romReadPending then
    { c with dataOut := a.romData, romReadPending := false }
  else c

/-- A clock out of reset. -/
def step (portReady : Bool) (portDin : Word) (a : Answers) : Regs :=
  r.latchRom a (r.advance sz p portReady portDin a (r.countdown p))

/-- The registers in reset. -/
def reset : Regs where
  state := .idle
  portRd := false
  portWr := false
  extSel := false
  vramAddr := 0
  vramDout := 0
  cpuWriteData := 0
  cpuWriteMerged := 0
  cpuWriteStrobes := Lanes.none
  ackN := true
  ackDelay := 0
  romReadPending := false
  ackAddr := 0
  ackDataIn := 0
  ackLanes := Lanes.none
  ackRwN := true
  dataOut := 0

end Regs

/-! ## The two ports -/

/-- Port A of the BRAM, and the cold tail in the SDRAM with its commit counter. -/
structure Ports where
  mem : Nat → Word
  dout : Word
  ready : Bool
  ext : Nat → Word
  wcnt : Nat

namespace Ports

variable (sz : Sizes) (m : Ports) (r : Regs)

/-- `idx_a` -/
def idx : Nat := r.vramAddr % 2 ^ Nat.clog 2 sz.vramWords

/-- The card word of `card_ext_addr`. -/
def extWord : Nat := r.vramAddr % 2 ^ 20

/-- `port_ready`. `ramReady` is `sdram_ram_ready && sdram_addr == card_ext_addr`. -/
def portReady (ramReady : Bool) : Bool :=
  if r.extSel then (if r.portRd then ramReady else m.wcnt == 14) else m.ready

/-- `port_din`. The register of the SDRAM controller holds the addressed word when
`ramReady` says so, and is read at no other clock. -/
def portDin : Word := if r.extSel then m.ext (extWord r) else m.dout

/-- A clock. `granted` says that neither a download nor a staging read has the SDRAM. -/
def step (granted : Bool) : Ports where
  mem := if r.portWr && !r.extSel then Function.update m.mem (idx sz r) r.vramDout else m.mem
  dout := if r.portWr && !r.extSel then r.vramDout else m.mem (idx sz r)
  ready := (r.portRd || r.portWr) && !r.extSel
  ext :=
    if r.portWr && r.extSel && granted then Function.update m.ext (extWord r) r.vramDout else m.ext
  wcnt :=
    if !((r.portRd || r.portWr) && r.extSel) then 0
    else if granted && m.wcnt != 14 then m.wcnt + 1
    else m.wcnt

end Ports

/-! ## The bus -/

/-- The bus FSM: `phi` says that this clock is a `phi1`, and the kernel holds
`access` from the launch of its cycle until the beat. -/
structure Bus where
  phi : Bool
  sState : Nat
  access : Access
  asN : Bool
  rwN : Bool
  lanes : Lanes
  din : Word

namespace Bus

variable (b : Bus)

/-- The next bus state. `request` is the access of a kernel that is ready for one. -/
def nextState (request : Option Access) (dtackN : Bool) : Nat :=
  if b.phi then (if b.sState ≠ 4 ∧ b.sState ≠ 0 then (b.sState + 1) % 8 else b.sState)
  else if b.sState = 0 then (if request.isSome then 1 else 0)
  else if b.sState ≠ 4 ∨ dtackN = false then (b.sState + 1) % 8
  else b.sState

/-- The strobes come with AS on a read, and one state pair later on a write. -/
def nextLanes : Lanes :=
  if b.phi then
    (if b.sState = 1 ∧ b.access.rwN ∨ b.sState = 3 ∧ ¬ b.access.rwN then b.access.lanes else b.lanes)
  else if b.sState = 6 then Lanes.none
  else b.lanes

/-- A clock. -/
def step (request : Option Access) (dtackN : Bool) (din : Word) : Bus where
  phi := !b.phi
  sState := b.nextState request dtackN
  access := if !b.phi && b.sState == 0 then request.getD b.access else b.access
  asN := if b.phi && b.sState == 1 then false else if !b.phi && b.sState == 6 then true else b.asN
  rwN := if b.phi && b.sState == 1 then b.access.rwN else if b.phi && b.sState == 7 then true else b.rwN
  lanes := b.nextLanes
  din := if !b.phi && b.sState == 6 then din else b.din

/-- The cycle ends at this clock: the kernel has its beat. -/
def beat : Bool := b.phi && b.sState == 7

end Bus

/-! ## The system -/

structure State where
  card : Regs
  ports : Ports
  bus : Bus
  nubusTimeout : Nat

/-- What comes from outside at one clock: the kernel, the other devices on the bus, the
owners of the SDRAM and its controller, and the rest of the card. -/
structure Inputs where
  request : Option Access
  dtackN : Bool
  din : Word
  granted : Bool
  ramReady : Bool
  answers : Answers

namespace State

variable (sz : Sizes) (s : State) (i : Inputs)

def pins : Pins where
  addr := s.bus.access.addr
  dataIn := s.bus.access.data
  lanes := s.bus.lanes
  rwN := s.bus.rwN
  cpuAsN := s.bus.asN
  select := !s.bus.asN && slotSpace s.bus.access.addr

/-- `nubus_no_card` -/
def noCard : Bool := s.pins.select && s.card.ackN && s.nubusTimeout == 32

/-- `_cpuDTACK` -/
def dtackN : Bool :=
  if s.pins.select then (if s.noCard then false else s.card.ackN) else i.dtackN

/-- `cpu_din_muxed` -/
def cpuDin : Word :=
  if s.pins.select then (if s.noCard then 0xFFFF else s.card.dataOut) else i.din

def ready : Bool := s.ports.portReady s.card i.ramReady

def step : State where
  card := s.card.step sz s.pins (s.ready i) (s.ports.portDin s.card) i.answers
  ports := s.ports.step sz s.card i.granted
  bus := s.bus.step i.request (s.dtackN i) (s.cpuDin i)
  nubusTimeout :=
    if s.bus.asN then 0
    else if s.pins.select && s.card.ackN && s.nubusTimeout != 32 then s.nubusTimeout + 1
    else s.nubusTimeout

/-- The state after `t` clocks. -/
def after (i : Nat → Inputs) : Nat → State
  | 0 => s
  | t + 1 => (after i t).step sz (i t)

end State

/-! ## One array of words -/

namespace Access

variable (sz : Sizes) (a : Access)

def inCard : Bool := inOurSlot a.addr

def word : Nat := cpuVramWord a.addr

def isVram : Bool := a.inCard && addrIsVram a.addr

/-- A write to a word that exists. -/
def writes : Bool := a.isVram && !a.rwN && decide (a.word < sz.totalWords)

/-- What a write leaves. -/
def store (m : Nat → Word) : Nat → Word :=
  if a.writes sz then Function.update m a.word (a.lanes.merge a.data (m a.word)) else m

/-- What a read returns. -/
def answer (m : Nat → Word) : Word := if a.word < sz.totalWords then m a.word else 0xFFFF

end Access

/-- One write through a port. -/
structure Commit where
  ext : Bool
  word : Nat
  data : Word

/-- The words after a list of accesses. -/
def contents (sz : Sizes) (m : Nat → Word) (l : List Access) : Nat → Word :=
  l.foldl (fun m a => a.store sz m) m

/-- The commits that a list of accesses asks for. -/
def commitsOf (sz : Sizes) : (Nat → Word) → List Access → List Commit
  | _, [] => []
  | m, a :: l =>
    (if a.writes sz then [⟨decide (sz.vramWords ≤ a.word), a.word, a.store sz m a.word⟩] else []) ++
      commitsOf sz (a.store sz m) l

/-! ## What is seen of a run -/

namespace State

variable (sz : Sizes) (s : State) (i : Inputs)

/-- A cycle that the card takes with its strobes. -/
def serves : Option Access :=
  if s.card.accepting s.pins && decide (s.bus.lanes ≠ Lanes.none) then some s.bus.access else none

/-- The bus FSM takes the acknowledge of a cycle to the card. -/
def takes : Option Access :=
  if !s.bus.phi && s.bus.sState == 4 && s.bus.access.inCard && !s.dtackN i then some s.bus.access
  else none

/-- The kernel has its beat. -/
def beat : Option (Access × Word) :=
  if s.bus.beat && s.bus.access.inCard then some (s.bus.access, s.bus.din) else none

/-- A port retires a write. -/
def commits : Option Commit :=
  if s.card.state = .cpuWriteWait ∧ s.ready i then
    some ⟨s.card.extSel, if s.card.extSel then Ports.extWord s.card else Ports.idx sz s.card,
      s.card.vramDout⟩
  else none

/-- The words of the BRAM and of the cold tail. -/
def stored : Nat → Word := fun w => if w < sz.vramWords then s.ports.mem w else s.ports.ext w

/-- Card and bus FSM in reset, with any words and any SDRAM activity before. -/
structure Initial : Prop where
  card : s.card = Regs.reset
  timer : s.nubusTimeout = 0
  state : s.bus.sState = 0
  asN : s.bus.asN = true
  lanes : s.bus.lanes = Lanes.none

end State

section Logs

variable (sz : Sizes) (s : State) (i : Nat → Inputs) (t : Nat)

def served : List Access := record (fun u => (s.after sz i u).serves) 0 t

def taken : List Access := record (fun u => (s.after sz i u).takes (i u)) 0 t

def beats : List (Access × Word) := record (fun u => (s.after sz i u).beat) 0 t

def committed : List Commit := record (fun u => (s.after sz i u).commits sz (i u)) 0 t

end Logs

/-- Coherence over a run. `reads`: a read returns the array of words that the writes
acknowledged before it have left. `commits`: when a cycle is taken, each write taken
before has been committed once, to its own word and lanes. `single`: each bus cycle is
taken once with its strobes and acknowledged once; `withdrawn`: it starts with no
acknowledge of another. `timer`: the open-bus timer answers no cycle of the card. -/
structure Coherent (sz : Sizes) (s : State) (i : Nat → Inputs) : Prop where
  reads : ∀ t l a d r, beats sz s i t = l ++ (a, d) :: r → a.isVram = true → a.rwN = true →
    d = a.answer sz (contents sz (s.stored sz) (l.map Prod.fst))
  commits : ∀ t, (s.after sz i t).card.accepting (s.after sz i t).pins = true →
    committed sz s i t = commitsOf sz (s.stored sz) (served sz s i t) ∧
    (s.after sz i t).stored sz = contents sz (s.stored sz) (served sz s i t)
  single : ∀ t, (s.after sz i t).bus.sState = 0 →
    served sz s i t = (beats sz s i t).map Prod.fst ∧
    taken sz s i t = (beats sz s i t).map Prod.fst
  withdrawn : ∀ t, (s.after sz i t).bus.sState = 2 →
    (s.after sz i t).card.ackN = true ∧ (s.after sz i t).card.ackDelay = 0
  timer : ∀ t, (s.after sz i t).bus.access.inCard = true → (s.after sz i t).noCard = false

/-! ## The deadline of the ports -/

namespace State

variable (sz : Sizes) (s : State) (i : Inputs)

/-- A cycle of the card is on the bus, not yet taken or waiting for its data. -/
def pending : Bool := !s.bus.asN && s.bus.access.inCard && s.card.ackN && s.card.ackDelay == 0

/-- The port that the card waits for is not ready. -/
def stalled : Bool :=
  (s.card.state == .cpuWriteWait || s.card.state == .cpuReadWait || s.card.state == .cpuRmwReadWait) &&
    !s.ready i

/-- The clocks from `S_IDLE` to the acknowledge, when no port stalls. -/
def accessClocks (a : Access) : Nat :=
  if a.rwN && a.isVram && decide (a.word < sz.totalWords) then 5
  else if a.rwN && !addrIsVram a.addr && !addrIsRegs a.addr && addrIsRom a.addr then 4
  else 3

/-- The clocks to the acknowledge of the cycle on the bus, when no port stalls. -/
def clocksLeft : Nat :=
  match s.card.state with
  | .cpuRead => 4
  | .cpuReadWait => 3
  | .idle => accessClocks sz s.bus.access
  | .cpuWrite => 2 + accessClocks sz s.bus.access
  | .cpuWriteWait => 1 + accessClocks sz s.bus.access
  | .cpuRmwRead => 4 + accessClocks sz s.bus.access
  | .cpuRmwReadWait => 3 + accessClocks sz s.bus.access
  | .cpuRmwWrite => 2 + accessClocks sz s.bus.access

end State

/-- No port stalls a cycle of the card beyond the 32 clocks of the open-bus timer. -/
def MeetsDeadline (sz : Sizes) (s : State) (i : Nat → Inputs) : Prop :=
  ∀ t, (s.after sz i t).pending = true → (s.after sz i t).stalled (i t) = true →
    (s.after sz i t).nubusTimeout + (s.after sz i t).clocksLeft sz < 32

end MacIIvi.Card
