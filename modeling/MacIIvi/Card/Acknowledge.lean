import Mathlib.Tactic.IntervalCases
import MacIIvi.Card.Vram

/-!
# The acknowledge of a card cycle

What the bus FSM and the acknowledge logic of the card do together, clock by clock.
-/

namespace MacIIvi.Card

/-! ## The bus FSM -/

/-- The first bus state with strobes. -/
def Access.firstStrobe (a : Access) : Nat := if a.rwN then 2 else 4

theorem Access.firstStrobe_cases (a : Access) :
    (a.rwN = true ∧ a.firstStrobe = 2) ∨ (a.rwN = false ∧ a.firstStrobe = 4) := by
  unfold firstStrobe
  cases a.rwN <;> simp

/-- Odd states fall on `phi1`; AS and the strobes follow the state. -/
structure Bus.Ok (b : Bus) : Prop where
  bound : b.sState < 8
  odd : b.sState % 2 = 1 → b.phi = true
  even : b.sState = 2 ∨ b.sState = 6 → b.phi = false
  asN : b.asN = !(decide (2 ≤ b.sState) && decide (b.sState ≤ 6))
  rwN : 2 ≤ b.sState → b.sState ≤ 7 → b.rwN = b.access.rwN
  lanes : b.lanes =
    if b.access.firstStrobe ≤ b.sState ∧ b.sState ≤ 6 then b.access.lanes else Lanes.none

/-- The clocks of the bus: whether it is a `phi1`, the state before and the state after. -/
theorem Bus.Ok.moves {b : Bus} (ok : b.Ok) (request : Option Access) (dtackN : Bool) :
    (b.phi, b.sState, b.nextState request dtackN) ∈
      [(true, 0, 0), (true, 1, 2), (true, 3, 4), (true, 4, 4), (true, 5, 6), (true, 7, 0),
        (false, 0, 0), (false, 0, 1), (false, 2, 3), (false, 4, 4), (false, 4, 5), (false, 6, 7)] := by
  obtain ⟨bound, odd, even, -, -, -⟩ := ok
  unfold Bus.nextState
  generalize b.sState = n at *
  cases phi : b.phi
  · have quiet : n % 2 ≠ 1 := fun one => by simp [odd one] at phi
    obtain rfl | rfl | rfl | rfl : n = 0 ∨ n = 2 ∨ n = 4 ∨ n = 6 := by omega
    · cases request <;> simp
    · simp
    · cases dtackN <;> simp
    · simp
  · have apart : ¬(n = 2 ∨ n = 6) := fun there => by simp [even there] at phi
    obtain rfl | rfl | rfl | rfl | rfl | rfl :
      n = 0 ∨ n = 1 ∨ n = 3 ∨ n = 4 ∨ n = 5 ∨ n = 7 := by omega
    all_goals simp

theorem Bus.Ok.step {b : Bus} (ok : b.Ok) (request : Option Access) (dtackN : Bool) (din : Word) :
    (b.step request dtackN din).Ok := by
  obtain ⟨-, -, -, asN, rwN, lanes⟩ := id ok
  have late (a : Access) : a.firstStrobe ≠ 0 ∧ ¬ a.firstStrobe ≤ 1 := by
    have := a.firstStrobe_cases
    omega
  have moves := ok.moves request dtackN
  simp only [List.mem_cons, Prod.mk.injEq, List.not_mem_nil, or_false] at moves
  rcases moves with ⟨phi, here, next⟩ | ⟨phi, here, next⟩ | ⟨phi, here, next⟩ | ⟨phi, here, next⟩ |
    ⟨phi, here, next⟩ | ⟨phi, here, next⟩ | ⟨phi, here, next⟩ | ⟨phi, here, next⟩ |
    ⟨phi, here, next⟩ | ⟨phi, here, next⟩ | ⟨phi, here, next⟩ | ⟨phi, here, next⟩
  all_goals
    simp [here] at asN rwN lanes
    obtain ⟨dir, first⟩ | ⟨dir, first⟩ := b.access.firstStrobe_cases <;>
      constructor <;>
      simp [Bus.step, next, Bus.nextLanes, phi, here, asN, rwN, lanes, dir, first, late]

/-! ## One clock of the card -/

namespace Regs

variable {z : Sizes} {r : Regs} {p : Pins} {b : Bool} {d : Word} {a : Answers}

@[simp] theorem latchRom_state (c : Regs) : (r.latchRom a c).state = c.state := by
  unfold latchRom; split <;> rfl

@[simp] theorem latchRom_ackN (c : Regs) : (r.latchRom a c).ackN = c.ackN := by
  unfold latchRom; split <;> rfl

@[simp] theorem latchRom_ackDelay (c : Regs) : (r.latchRom a c).ackDelay = c.ackDelay := by
  unfold latchRom; split <;> rfl

/-- What the acknowledge logic keeps of a cycle. -/
structure SameKey (r r' : Regs) : Prop where
  addr : r'.ackAddr = r.ackAddr
  dataIn : r'.ackDataIn = r.ackDataIn
  lanes : r'.ackLanes = r.ackLanes
  rwN : r'.ackRwN = r.ackRwN

theorem step_key (waits : r.accepting p = false) : SameKey r (r.step z p b d a) := by
  have held : ∀ c, SameKey r c → SameKey r (r.latchRom a c) := by
    intro c same
    unfold latchRom
    split
    · exact ⟨same.addr, same.dataIn, same.lanes, same.rwN⟩
    · exact same
  apply held
  cases fsm : r.state <;> cases b <;> simp only [advance, fsm, Regs.idle, waits] <;>
    (repeat' split) <;> first | contradiction | exact ⟨rfl, rfl, rfl, rfl⟩

/-- Nothing is asked and nothing is answered. -/
theorem step_quiet (ack : r.ackN = true) (delay : r.ackDelay = 0) (rom : r.romReadPending = false)
    (idle : r.accepting p = false) (reads : r.state ≠ .cpuReadWait) :
    (r.step z p b d a).ackN = true ∧ (r.step z p b d a).ackDelay = 0 ∧
      (r.step z p b d a).romReadPending = false := by
  unfold step latchRom
  cases fsm : r.state <;> simp_all [advance, Regs.idle, countdown] <;> split <;> simp_all

/-- An acknowledge on its way comes, whatever the ports do. -/
theorem step_count (ack : r.ackN = true) (delay : r.ackDelay ≠ 0) (reads : r.state ≠ .cpuReadWait) :
    (r.step z p b d a).ackN = !(r.ackDelay == 1) ∧
      (r.step z p b d a).ackDelay = r.ackDelay - 1 ∧
      (r.step z p b d a).romReadPending = (r.romReadPending && r.ackDelay != 2) ∧
      (r.step z p b d a).dataOut =
        (if r.ackDelay == 2 && r.romReadPending then a.romData else r.dataOut) := by
  have waits : r.accepting p = false := by simp [accepting, delay]
  unfold step latchRom
  cases fsm : r.state <;> by_cases two : r.ackDelay = 2 <;> by_cases one : r.ackDelay = 1 <;>
    cases rom : r.romReadPending <;> cases b <;> simp_all [advance, Regs.idle, countdown]

/-- A read that its port has not answered. -/
theorem step_wait (ack : r.ackN = true) (delay : r.ackDelay = 0) (rom : r.romReadPending = false)
    (fsm : r.state = .cpuReadWait) :
    (r.step z p false d a).ackN = true ∧ (r.step z p false d a).ackDelay = 0 ∧
      (r.step z p false d a).romReadPending = false := by
  unfold step latchRom
  simp [advance, fsm, countdown, ack, delay, rom]

/-- The port answers a read. -/
theorem step_fetched (ack : r.ackN = true) (delay : r.ackDelay = 0) (rom : r.romReadPending = false)
    (fsm : r.state = .cpuReadWait) :
    (r.step z p true d a).ackN = true ∧ (r.step z p true d a).ackDelay = 2 ∧
      (r.step z p true d a).romReadPending = false ∧ (r.step z p true d a).dataOut = d := by
  unfold step latchRom
  simp [advance, fsm, countdown, ack, delay, rom]

/-- A given acknowledge stays while its cycle is on the bus. -/
theorem step_held (ack : r.ackN = false) (delay : r.ackDelay = 0) (asN : p.cpuAsN = false)
    (select : p.select = true) (same : r.state = .idle → r.busKeyChanged p = false)
    (rom : r.romReadPending = false) (reads : r.state ≠ .cpuReadWait) :
    (r.step z p b d a).ackN = false ∧ (r.step z p b d a).ackDelay = 0 ∧
      (r.step z p b d a).romReadPending = false ∧
      (r.step z p b d a).dataOut = r.dataOut := by
  have taken : r.accepting p = false := by simp [accepting, ack]
  unfold step latchRom
  cases fsm : r.state <;> cases b <;> simp_all [advance, Regs.idle, countdown]

/-- AS rises, or the key of the cycle has changed: the acknowledge goes. -/
theorem step_released (ack : r.ackN = false) (delay : r.ackDelay = 0)
    (rom : r.romReadPending = false) (reads : r.state ≠ .cpuReadWait)
    (ends : p.cpuAsN = true ∨
      (r.state = .idle ∧ p.select = true ∧ inOurSlot p.addr = true ∧ r.busKeyChanged p = true)) :
    (r.step z p b d a).ackN = true ∧ (r.step z p b d a).ackDelay = 0 ∧
      (r.step z p b d a).romReadPending = false := by
  have taken : r.accepting p = false := by simp [accepting, ack]
  unfold step latchRom
  obtain rises | ⟨fsm, select, slot, changed⟩ := ends
  · cases fsm : r.state <;> cases b <;> simp_all [advance, Regs.idle, countdown]
  · simp_all [advance, Regs.idle, countdown]

theorem step_accept (accepts : r.accepting p = true) :
    r.step z p b d a = { r with portRd := false, portWr := false }.accept z p a := by
  have parts := accepts
  simp only [accepting, Bool.and_eq_true, beq_iff_eq] at parts
  obtain ⟨⟨⟨⟨⟨fsm, -⟩, -⟩, -⟩, ack⟩, delay⟩ := parts
  have counted : r.countdown p = r := by
    obtain ⟨⟩ := r
    simp_all [countdown]
  have later : (r.ackDelay == 2 && r.romReadPending) = false := by simp [delay]
  unfold step advance
  rw [counted, latchRom, later, fsm]
  simp only [Regs.idle, accepts, if_true, Bool.false_eq_true, if_false]
  rw [fsm]

/-! What an accepted cycle leaves. -/

section Accept

variable (idle : r.state = .idle)

/-- The key of an accepted cycle is that of the bus. -/
structure Keyed (r : Regs) (p : Pins) : Prop where
  addr : r.ackAddr = p.addr
  dataIn : r.ackDataIn = p.dataIn
  lanes : r.ackLanes = p.lanes
  rwN : r.ackRwN = p.rwN

theorem accept_keyed : (r.accept z p a).Keyed p := by
  unfold accept acceptRead acceptWrite acceptNow
  repeat' split
  all_goals exact ⟨rfl, rfl, rfl, rfl⟩

theorem accept_ackN : (r.accept z p a).ackN = r.ackN := by
  unfold accept acceptRead acceptWrite acceptNow
  repeat' split
  all_goals rfl

include idle

/-- A write before its strobes is answered and moves nothing. -/
theorem accept_blank (write : p.rwN = false) (lanes : p.lanes = Lanes.none) :
    (r.accept z p a).state = .idle ∧ (r.accept z p a).ackDelay = 2 ∧
      (r.accept z p a).romReadPending = r.romReadPending ∧ (r.accept z p a).portRd = r.portRd ∧
      (r.accept z p a).portWr = r.portWr := by
  have partly : Lanes.none ≠ Lanes.both := Lanes.both_ne_none.symm
  unfold accept acceptWrite acceptNow latchKey
  split
  · simp [write, lanes, partly, idle]
  · simp [write, idle]

/-- A cycle that needs no port. -/
theorem accept_now (other : (addrIsVram p.addr && decide (cpuVramWord p.addr < z.totalWords)) = false) :
    (r.accept z p a).state = .idle ∧
      ((r.accept z p a).ackDelay = 2 ∧ (r.accept z p a).romReadPending = r.romReadPending ∧
          (p.rwN && !addrIsVram p.addr && !addrIsRegs p.addr && addrIsRom p.addr) = false ∨
        (r.accept z p a).ackDelay = 3 ∧ (r.accept z p a).romReadPending = true ∧
          p.rwN = true ∧ addrIsVram p.addr = false ∧ addrIsRegs p.addr = false ∧
          addrIsRom p.addr = true) ∧
      (p.rwN = true → addrIsVram p.addr = true → (r.accept z p a).dataOut = 0xFFFF) ∧
      (r.accept z p a).portRd = r.portRd ∧ (r.accept z p a).portWr = r.portWr := by
  unfold accept
  rw [other]
  simp only [Bool.false_eq_true, if_false]
  unfold acceptNow
  cases read : p.rwN <;> cases vram : addrIsVram p.addr <;> cases regs : addrIsRegs p.addr <;>
    cases romArea : addrIsRom p.addr <;> simp [latchKey, idle]

end Accept

/-- A read of a word that exists. -/
theorem accept_read (read : p.rwN = true) (vram : addrIsVram p.addr = true)
    (inside : cpuVramWord p.addr < z.totalWords) :
    (r.accept z p a).state = .cpuRead ∧ (r.accept z p a).ackDelay = r.ackDelay ∧
      (r.accept z p a).romReadPending = r.romReadPending ∧ (r.accept z p a).portRd = r.portRd ∧
      (r.accept z p a).portWr = r.portWr ∧
      (r.accept z p a).vramAddr = (VRAM_BASE + cpuVramWord p.addr) % 2 ^ 25 ∧
      (r.accept z p a).extSel = decide (z.vramWords ≤ cpuVramWord p.addr) := by
  simp [accept, read, vram, inside, acceptRead, latchKey]

/-- A write to a word that exists: it is acknowledged at once. -/
theorem accept_write (write : p.rwN = false) (vram : addrIsVram p.addr = true)
    (inside : cpuVramWord p.addr < z.totalWords) (strobed : p.lanes ≠ Lanes.none) :
    ((r.accept z p a).state = .cpuWrite ∧ p.lanes = Lanes.both ∧
        (r.accept z p a).vramDout = p.dataIn ∨
      (r.accept z p a).state = .cpuRmwRead ∧ (r.accept z p a).cpuWriteData = p.dataIn ∧
        (r.accept z p a).cpuWriteStrobes = p.lanes) ∧
      (r.accept z p a).ackDelay = 2 ∧ (r.accept z p a).romReadPending = r.romReadPending ∧
      (r.accept z p a).portRd = r.portRd ∧ (r.accept z p a).portWr = r.portWr ∧
      (r.accept z p a).vramAddr = (VRAM_BASE + cpuVramWord p.addr) % 2 ^ 25 ∧
      (r.accept z p a).extSel = decide (z.vramWords ≤ cpuVramWord p.addr) := by
  by_cases full : p.lanes = Lanes.both
  · simp [accept, write, vram, inside, acceptWrite, latchKey, full]
  · simp [accept, write, vram, inside, acceptWrite, latchKey, full, strobed]

end Regs

/-! ## The acknowledge of a cycle -/

/-- A cycle is on the bus. -/
def Bus.inCycle (b : Bus) : Prop := 2 ≤ b.sState ∧ b.sState ≤ 7

section Stage

variable (z : Sizes) (m : Nat → Word) (s : State) (H B : List Access)

/-- The card's output is the answer to the cycle. -/
def Answered : Prop :=
  s.bus.access.isVram = true → s.bus.access.rwN = true →
    s.card.dataOut = s.bus.access.answer z (contents z m H)

/-- The key is that of the cycle, strobes included. -/
structure KeyHeld : Prop where
  addr : s.card.ackAddr = s.bus.access.addr
  dataIn : s.card.ackDataIn = s.bus.access.data
  lanes : s.card.ackLanes = s.bus.access.lanes
  rwN : s.card.ackRwN = s.bus.access.rwN

/-- How far the acknowledge of a cycle has come. `blank` is the answer to a write whose
strobes are not there yet: it is withdrawn when they come. A write taken after such an
answer has counted ends its cycle before its own acknowledge. -/
inductive Stage : Prop
  | waiting (ack : s.card.ackN = true) (delay : s.card.ackDelay = 0)
      (rom : s.card.romReadPending = false) (fsm : s.card.state ≠ .cpuRead)
      (fsm' : s.card.state ≠ .cpuReadWait) (history : H = B)
      (early : s.bus.inCycle → s.bus.access.inCard = true → s.bus.sState ≤ 4 ∨
        (s.bus.sState = 5 ∧ s.card.state = .idle ∧ s.bus.access.rwN = false))
  | blank (cycle : s.bus.access.inCard = true) (write : s.bus.access.rwN = false)
      (rom : s.card.romReadPending = false) (fsm : s.card.state = .idle)
      (lanes : s.card.ackLanes = Lanes.none) (history : H = B)
      (clock :
        (s.card.ackN = true ∧ s.card.ackDelay = 2 ∧
          (s.bus.sState = 3 ∨ s.bus.sState = 4)) ∨
        (s.card.ackN = true ∧ s.card.ackDelay = 1 ∧ s.bus.sState = 4) ∨
        (s.card.ackN = false ∧ s.card.ackDelay = 0 ∧ s.bus.sState = 4))
  | reading (cycle : s.bus.access.inCard = true) (ack : s.card.ackN = true)
      (delay : s.card.ackDelay = 0) (rom : s.card.romReadPending = false)
      (fsm : s.card.state = .cpuRead ∨ s.card.state = .cpuReadWait)
      (read : s.bus.access.rwN = true) (key : KeyHeld s) (history : H = B ++ [s.bus.access])
      (clock : s.bus.sState = 3 ∨ s.bus.sState = 4)
  | counting (cycle : s.bus.access.inCard = true) (ack : s.card.ackN = true)
      (delay : 1 ≤ s.card.ackDelay) (few : s.card.ackDelay ≤ 3)
      (rom : s.card.romReadPending = true → s.bus.access.isVram = false)
      (romDelay : s.card.romReadPending = true → 2 ≤ s.card.ackDelay)
      (fsm : s.card.state ≠ .cpuRead) (fsm' : s.card.state ≠ .cpuReadWait)
      (key : KeyHeld s) (answered : Answered z m s H) (history : H = B ++ [s.bus.access])
      (clock : s.bus.sState = 3 ∨ s.bus.sState = 4 ∨
        s.bus.access.rwN = false ∧ (s.bus.sState = 6 ∧ s.card.ackDelay = 2 ∨
          s.bus.sState = 7 ∧ s.card.ackDelay = 1))
  | acked (cycle : s.bus.access.inCard = true) (ack : s.card.ackN = false)
      (delay : s.card.ackDelay = 0) (rom : s.card.romReadPending = false)
      (fsm : s.card.state ≠ .cpuRead) (fsm' : s.card.state ≠ .cpuReadWait)
      (key : KeyHeld s) (answered : Answered z m s H) (history : H = B ++ [s.bus.access])
      (clock : 4 ≤ s.bus.sState) (last : s.bus.sState = 7 → s.bus.access.isVram = true →
        s.bus.access.rwN = true → s.bus.din = s.bus.access.answer z (contents z m H))
  | late (ack : s.card.ackN = false) (delay : s.card.ackDelay = 0)
      (rom : s.card.romReadPending = false) (fsm : s.card.state ≠ .cpuRead)
      (fsm' : s.card.state ≠ .cpuReadWait) (history : H = B) (clock : s.bus.sState = 0)

end Stage

/-! ### The bus under the card -/

theorem Bus.Ok.sState_step {b : Bus} (ok : b.Ok) (request : Option Access) (dtackN : Bool) (din : Word)
    (busy : b.sState ≠ 0) :
    (b.step request dtackN din).sState =
      if b.sState = 4 then (if b.phi = false ∧ dtackN = false then 5 else 4) else (b.sState + 1) % 8 := by
  have bound := ok.bound
  have odd := ok.odd
  change b.nextState request dtackN = _
  unfold Bus.nextState
  cases phi : b.phi <;> cases dtackN <;> by_cases four : b.sState = 4 <;> simp [four, busy]

theorem Bus.Ok.sState_idle {b : Bus} (request : Option Access) (dtackN : Bool) (din : Word)
    (idle : b.sState = 0) : (b.step request dtackN din).sState ≤ 1 := by
  change b.nextState request dtackN ≤ 1
  unfold Bus.nextState
  cases b.phi <;> cases request <;> simp [idle]

theorem Bus.access_step {b : Bus} (request : Option Access) (dtackN : Bool) (din : Word)
    (busy : b.sState ≠ 0) : (b.step request dtackN din).access = b.access := by
  simp [Bus.step, busy]

theorem slotSpace_of_inOurSlot {addr : Nat} (slot : inOurSlot addr = true) : slotSpace addr = true := by
  simp only [inOurSlot, Bool.or_eq_true, Bool.and_eq_true, beq_iff_eq] at slot
  simp only [slotSpace, Bool.or_eq_true, Bool.and_eq_true, decide_eq_true_eq]
  omega

section Pins

variable {s : State} {i : Inputs} (ok : s.bus.Ok)

include ok

theorem Bus.Ok.asN_low (low : 2 ≤ s.bus.sState) (high : s.bus.sState ≤ 6) : s.bus.asN = false := by
  rw [ok.asN]
  simp [low, high]

theorem Bus.Ok.asN_iff : s.bus.asN = false ↔ 2 ≤ s.bus.sState ∧ s.bus.sState ≤ 6 := by
  rw [ok.asN]
  simp

theorem select_of_cycle (cycle : s.bus.access.inCard = true) (low : 2 ≤ s.bus.sState)
    (high : s.bus.sState ≤ 6) : s.pins.select = true := by
  simp [State.pins, ok.asN_low low high, slotSpace_of_inOurSlot cycle]

theorem dtackN_of_cycle (cycle : s.bus.access.inCard = true) (low : 2 ≤ s.bus.sState)
    (high : s.bus.sState ≤ 6) (open_ : s.noCard = false) : s.dtackN i = s.card.ackN := by
  simp [State.dtackN, select_of_cycle ok cycle low high, open_]

theorem cpuDin_of_cycle (cycle : s.bus.access.inCard = true) (low : 2 ≤ s.bus.sState)
    (high : s.bus.sState ≤ 6) (open_ : s.noCard = false) : s.cpuDin i = s.card.dataOut := by
  simp [State.cpuDin, select_of_cycle ok cycle low high, open_]

theorem lanes_of_strobe (strobed : s.bus.access.firstStrobe ≤ s.bus.sState) (high : s.bus.sState ≤ 6) :
    s.bus.lanes = s.bus.access.lanes := by
  rw [ok.lanes, if_pos ⟨strobed, high⟩]

theorem lanes_of_early (early : s.bus.sState < s.bus.access.firstStrobe) : s.bus.lanes = Lanes.none := by
  rw [ok.lanes, if_neg (by omega)]

theorem accepting_iff : s.card.accepting s.pins = true ↔
    s.card.state = .idle ∧ 2 ≤ s.bus.sState ∧ s.bus.sState ≤ 6 ∧ s.bus.access.inCard = true ∧
      s.card.ackN = true ∧ s.card.ackDelay = 0 := by
  have low := ok.asN_iff
  have slot := @slotSpace_of_inOurSlot s.bus.access.addr
  simp only [Regs.accepting, State.pins, Access.inCard, Bool.and_eq_true, beq_iff_eq, Bool.not_eq_true']
  constructor
  · rintro ⟨⟨⟨⟨⟨idle, asN⟩, -⟩, cycle⟩, ack⟩, delay⟩
    exact ⟨idle, (low.1 asN).1, (low.1 asN).2, cycle, ack, delay⟩
  · rintro ⟨idle, two, six, cycle, ack, delay⟩
    exact ⟨⟨⟨⟨⟨idle, low.2 ⟨two, six⟩⟩, low.2 ⟨two, six⟩, slot cycle⟩, cycle⟩, ack⟩, delay⟩

/-- The key on the bus is the one that was answered. -/
theorem keyChanged_of_held (key : KeyHeld s) (strobed : s.bus.access.firstStrobe ≤ s.bus.sState)
    (high : s.bus.sState ≤ 6) (low : 2 ≤ s.bus.sState) : s.card.busKeyChanged s.pins = false := by
  have rwN := ok.rwN low (by omega)
  simp [Regs.busKeyChanged, State.pins, key.addr, key.dataIn, key.lanes, key.rwN, rwN,
    lanes_of_strobe ok strobed high]

theorem keyChanged_of_blank (lanes : s.card.ackLanes = Lanes.none)
    (strobed : s.bus.access.firstStrobe ≤ s.bus.sState) (high : s.bus.sState ≤ 6) :
    s.card.busKeyChanged s.pins = true := by
  have differs := s.bus.access.strobed
  simp [Regs.busKeyChanged, State.pins, lanes, lanes_of_strobe ok strobed high, differs]

end Pins

end MacIIvi.Card
