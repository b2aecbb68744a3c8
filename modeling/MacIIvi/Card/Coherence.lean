import MacIIvi.Card.Commit

/-!
# Coherence of the card's memory

The bus cycles of the CPU against the array of words, over every run.
-/

namespace MacIIvi.Card

open Clocked

/-! ## One clock of the acknowledge -/

section StageStep

variable {z : Sizes} {m : Nat → Word} {s : State} {i : Inputs}

theorem bus_step : (s.step z i).bus = s.bus.step i.request (s.dtackN i) (s.cpuDin i) := rfl

theorem access_step (busy : s.bus.sState ≠ 0) : (s.step z i).bus.access = s.bus.access := by
  rw [bus_step, Bus.access_step _ _ _ busy]

/-- The kernel's beats of cycles to the card, as accesses. -/
theorem beat_of_running (running : s.bus.sState ≠ 7 ∨ s.bus.access.inCard = false) : s.beat = none := by
  rcases running with running | other
  · simp [State.beat, Bus.beat, running]
  · simp [State.beat, other]

theorem beat_of_last (ok : s.bus.Ok) (last : s.bus.sState = 7) (cycle : s.bus.access.inCard = true) :
    s.beat = some (s.bus.access, s.bus.din) := by
  have phi := ok.odd (by omega)
  simp [State.beat, Bus.beat, last, cycle, phi]

/-- The state machine does not start a read by itself. -/
theorem step_not_reading (waits : s.card.accepting s.pins = false) (fsm : s.card.state ≠ .cpuRead)
    (fsm' : s.card.state ≠ .cpuReadWait) :
    (s.step z i).card.state ≠ .cpuRead ∧ (s.step z i).card.state ≠ .cpuReadWait := by
  obtain ⟨state', -⟩ := step_fsm (z := z) (i := i) waits
  rw [state']
  cases state : s.card.state <;> simp_all <;> split <;> simp

theorem KeyHeld.step {s' : State} (key : KeyHeld s) (same : s.card.SameKey s'.card)
    (access : s'.bus.access = s.bus.access) : KeyHeld s' :=
  ⟨by rw [same.addr, key.addr, access], by rw [same.dataIn, key.dataIn, access],
    by rw [same.lanes, key.lanes, access], by rw [same.rwN, key.rwN, access]⟩

/-- The history of a cycle that has been taken, when its beat comes. -/
def seen (s : State) (B : List Access) : List Access := B ++ (s.beat.map Prod.fst).toList

theorem seen_of_running {B : List Access} (running : s.bus.sState ≠ 7 ∨ s.bus.access.inCard = false) :
    seen s B = B := by
  rw [seen, beat_of_running running]
  exact List.append_nil B

theorem seen_of_last {B : List Access} (ok : s.bus.Ok) (last : s.bus.sState = 7)
    (cycle : s.bus.access.inCard = true) : seen s B = B ++ [s.bus.access] := by
  rw [seen, beat_of_last ok last cycle]
  rfl

section Clock

variable {H B : List Access} (ok : s.bus.Ok) (open_ : s.bus.access.inCard = true → s.noCard = false)

include ok open_

theorem bus_state_step (busy : s.bus.sState ≠ 0) (cycle : s.bus.access.inCard = true) :
    (s.step z i).bus.sState =
      if s.bus.sState = 4 then (if s.bus.phi = false ∧ s.card.ackN = false then 5 else 4)
      else (s.bus.sState + 1) % 8 := by
  rw [bus_step, ok.sState_step _ _ _ busy]
  by_cases four : s.bus.sState = 4
  · rw [dtackN_of_cycle ok cycle (by omega) (by omega) (open_ cycle)]
  · rw [if_neg four, if_neg four]

/-- Nothing is taken: the cycle goes on, or there is none. -/
theorem stage_quiet (waits : s.card.accepting s.pins = false) (ack : s.card.ackN = true)
    (delay : s.card.ackDelay = 0) (rom : s.card.romReadPending = false) (fsm : s.card.state ≠ .cpuRead)
    (fsm' : s.card.state ≠ .cpuReadWait) (history : H = B)
    (early : s.bus.inCycle → s.bus.access.inCard = true → s.bus.sState ≤ 4 ∨
      (s.bus.sState = 5 ∧ s.card.state = .idle ∧ s.bus.access.rwN = false)) :
    Stage z m (s.step z i) (H ++ s.serves.toList) (seen s B) := by
  have bound := ok.bound
  obtain ⟨ack', delay', rom'⟩ := Regs.step_quiet (z := z) (p := s.pins) (b := s.ready i)
    (d := s.ports.portDin s.card) (a := i.answers) ack delay rom waits fsm'
  obtain ⟨state', state''⟩ := step_not_reading (z := z) (i := i) waits fsm fsm'
  have running : s.bus.sState ≠ 7 ∨ s.bus.access.inCard = false := by
    cases cycle : s.bus.access.inCard
    · exact .inr rfl
    · left
      intro last
      have := early ⟨by omega, by omega⟩ cycle
      omega
  rw [serves_of_not_accepting waits, seen_of_running running, Option.toList_none, List.append_nil]
  refine .waiting ack' delay' rom' state' state'' history ?_
  intro inside cycle
  by_cases idle : s.bus.sState = 0
  · have := Bus.Ok.sState_idle i.request (s.dtackN i) (s.cpuDin i) idle
    have := inside.1
    rw [bus_step] at this
    omega
  · rw [access_step idle] at cycle
    have next := bus_state_step (z := z) (i := i) ok open_ idle cycle
    by_cases begun : s.bus.inCycle
    · obtain here | ⟨five, fsmIdle, -⟩ := early begun cycle
      · left
        rw [next, ack]
        split
        · simp
        · omega
      · have accepts := (accepting_iff ok).2 ⟨fsmIdle, by omega, by omega, cycle, ack, delay⟩
        rw [waits] at accepts
        cases accepts
    · left
      have : s.bus.sState = 1 := by
        unfold Bus.inCycle at begun
        omega
      rw [next, this]
      simp

/-- The next bus state before the acknowledge counts. -/
theorem bus_state_unacked (ack : s.card.ackN = true) (cycle : s.bus.access.inCard = true)
    (low : 2 ≤ s.bus.sState) (high : s.bus.sState ≤ 6) :
    (s.step z i).bus.sState = if s.bus.sState = 4 then 4 else s.bus.sState + 1 := by
  rw [bus_state_step ok open_ (by omega) cycle, ack]
  split
  · simp
  · omega

/-- The card takes the cycle. -/
theorem stage_accept (accepts : s.card.accepting s.pins = true) (rom : s.card.romReadPending = false)
    (history : H = B) (early : s.bus.sState ≤ 4 ∨ (s.bus.sState = 5 ∧ s.bus.access.rwN = false)) :
    Stage z m (s.step z i) (H ++ s.serves.toList) (seen s B) := by
  obtain ⟨fsm, low, high, cycle, ack, delay⟩ := (accepting_iff ok).1 accepts
  have card' := card_accept (z := z) (i := i) accepts
  have rwN : s.pins.rwN = s.bus.access.rwN := ok.rwN low (by omega)
  have access' := access_step (z := z) (i := i) (s := s) (by omega)
  have cycle' : (s.step z i).bus.access.inCard = true := by rw [access', cycle]
  have next := bus_state_unacked (z := z) (i := i) ok open_ ack cycle low high
  have keyed := Regs.accept_keyed (z := z) (r := { s.card with portRd := false, portWr := false })
    (p := s.pins) (a := i.answers)
  have ack' := Regs.accept_ackN (z := z) (r := { s.card with portRd := false, portWr := false })
    (p := s.pins) (a := i.answers)
  rw [← card'] at keyed ack'
  have ack' : (s.step z i).card.ackN = true := ack'.trans ack
  rw [seen_of_running (.inl (by omega))]
  obtain shown | ⟨blank, write, soon⟩ := lanes_cases ok low high
  · have strobed : s.bus.lanes ≠ Lanes.none := by
      rw [shown]
      exact s.bus.access.strobed
    rw [serves_of_accepting accepts strobed, Option.toList_some]
    have key : KeyHeld (s.step z i) := by
      refine ⟨?_, ?_, ?_, ?_⟩ <;> rw [access']
      · exact keyed.addr
      · exact keyed.dataIn
      · exact keyed.lanes.trans shown
      · exact keyed.rwN.trans rwN
    have history' : H ++ [s.bus.access] = B ++ [(s.step z i).bus.access] := by rw [history, access']
    have clock : ∀ d, (s.step z i).card.ackDelay = d → (s.bus.access.rwN = false → d = 2) →
        (s.step z i).bus.sState = 3 ∨ (s.step z i).bus.sState = 4 ∨
          (s.step z i).bus.access.rwN = false ∧ ((s.step z i).bus.sState = 6 ∧
            (s.step z i).card.ackDelay = 2 ∨ (s.step z i).bus.sState = 7 ∧
            (s.step z i).card.ackDelay = 1) := by
      intro d delay' two
      rw [next, access', delay']
      obtain here | ⟨five, write⟩ := early
      · split <;> omega
      · exact .inr (.inr ⟨write, .inl ⟨by rw [five]; rfl, two write⟩⟩)
    cases port : addrIsVram s.bus.access.addr && decide (s.bus.access.word < z.totalWords)
    · obtain ⟨state', delays, out', -, -⟩ := Regs.accept_now (z := z)
        (r := { s.card with portRd := false, portWr := false }) (p := s.pins) (a := i.answers) fsm port
      rw [← card'] at state' delays out'
      have answered : Answered z m (s.step z i) (H ++ [s.bus.access]) := by
        intro vram read
        rw [access'] at vram read ⊢
        rw [Access.isVram_eq _ cycle] at vram
        have beyond : ¬ s.bus.access.word < z.totalWords := by simpa [vram] using port
        rw [out' (rwN.trans read) vram, Access.answer, if_neg beyond]
      have delays : (s.step z i).card.ackDelay = 2 ∧ (s.step z i).card.romReadPending = false ∨
          (s.step z i).card.ackDelay = 3 ∧ (s.step z i).card.romReadPending = true ∧
            s.bus.access.rwN = true ∧ addrIsVram s.bus.access.addr = false := by
        obtain ⟨two, none, -⟩ | ⟨three, pending, read, other, -⟩ := delays
        · exact .inl ⟨two, none.trans rom⟩
        · exact .inr ⟨three, pending, rwN.symm.trans read, other⟩
      refine .counting cycle' ack' (by omega) (by omega) ?_ ?_ (by simp [state']) (by simp [state'])
        key answered history' (clock _ rfl ?_)
      · intro pending
        obtain ⟨-, none⟩ | ⟨-, -, -, other⟩ := delays
        · rw [none] at pending
          cases pending
        · rw [access', Access.isVram_eq _ cycle, other]
      · intro _
        omega
      · intro write
        obtain ⟨two, -⟩ | ⟨-, -, read, -⟩ := delays
        · exact two
        · rw [write] at read
          cases read
    · obtain ⟨vram, inside⟩ := Bool.and_eq_true_iff.1 port
      have inside : s.bus.access.word < z.totalWords := of_decide_eq_true inside
      cases dir : s.bus.access.rwN
      · obtain ⟨way, delay', rom', -⟩ := Regs.accept_write (z := z)
          (r := { s.card with portRd := false, portWr := false }) (p := s.pins) (a := i.answers)
          (rwN.trans dir) vram inside strobed
        rw [← card'] at way delay' rom'
        have rom' : (s.step z i).card.romReadPending = false := rom'.trans rom
        refine .counting cycle' ack' (by omega) (by omega) (by simp [rom']) (by simp [rom']) ?_ ?_ key ?_
          history' (clock _ rfl fun _ => delay')
        · obtain ⟨state', -⟩ | ⟨state', -⟩ := way <;> simp [state']
        · obtain ⟨state', -⟩ | ⟨state', -⟩ := way <;> simp [state']
        · intro _ read
          rw [access', dir] at read
          cases read
      · obtain ⟨state', delay', rom', -⟩ := Regs.accept_read (z := z)
          (r := { s.card with portRd := false, portWr := false }) (p := s.pins) (a := i.answers)
          (rwN.trans dir) vram inside
        rw [← card'] at state' delay' rom'
        refine .reading cycle' ack' (delay'.trans delay) (rom'.trans rom) (.inl state')
          (by rw [access', dir]) key history' ?_
        rw [next]
        obtain here | ⟨-, write⟩ := early
        · split <;> omega
        · rw [dir] at write
          cases write
  · obtain ⟨state', delay', rom', -, -⟩ := Regs.accept_blank (z := z)
      (r := { s.card with portRd := false, portWr := false }) (p := s.pins) (a := i.answers)
      fsm (rwN.trans write) blank
    rw [← card'] at state' delay' rom'
    rw [serves_of_blank blank, Option.toList_none, List.append_nil]
    refine .blank cycle' (by rw [access', write]) (rom'.trans rom) state' (keyed.lanes.trans blank) history
      (.inl ⟨ack', delay', ?_⟩)
    rw [next]
    split <;> omega

/-- An answer without strobes: counted, given for a clock, and withdrawn. -/
theorem stage_blank (cycle : s.bus.access.inCard = true) (write : s.bus.access.rwN = false)
    (rom : s.card.romReadPending = false) (fsm : s.card.state = .idle)
    (lanes : s.card.ackLanes = Lanes.none) (history : H = B)
    (clock :
      (s.card.ackN = true ∧ s.card.ackDelay = 2 ∧ (s.bus.sState = 3 ∨ s.bus.sState = 4)) ∨
      (s.card.ackN = true ∧ s.card.ackDelay = 1 ∧ s.bus.sState = 4) ∨
      (s.card.ackN = false ∧ s.card.ackDelay = 0 ∧ s.bus.sState = 4)) :
    Stage z m (s.step z i) (H ++ s.serves.toList) (seen s B) := by
  have waits : s.card.accepting s.pins = false := by
    obtain ⟨-, delay, -⟩ | ⟨-, delay, -⟩ | ⟨ack, -⟩ := clock <;> simp [Regs.accepting, *]
  have low : 3 ≤ s.bus.sState ∧ s.bus.sState ≤ 4 := by omega
  have access' := access_step (z := z) (i := i) (s := s) (by omega)
  have cycle' : (s.step z i).bus.access.inCard = true := by rw [access', cycle]
  have write' : (s.step z i).bus.access.rwN = false := by rw [access', write]
  have next := bus_state_step (z := z) (i := i) ok open_ (by omega) cycle
  obtain ⟨state', -⟩ := step_fsm (z := z) (i := i) waits
  rw [fsm] at state'
  rw [serves_of_not_accepting waits, seen_of_running (.inl (by omega)), Option.toList_none,
    List.append_nil]
  obtain ⟨ack, delay, when_⟩ | ⟨ack, delay, four⟩ | ⟨ack, delay, four⟩ := clock
  · have counted := Regs.step_count (z := z) (p := s.pins) (b := s.ready i)
      (d := s.ports.portDin s.card) (a := i.answers) ack (by omega) (by simp [fsm])
    have same : s.card.SameKey (s.step z i).card := Regs.step_key waits
    obtain ⟨ack', delay', rom', -⟩ := counted
    rw [delay] at ack' delay'
    rw [rom] at rom'
    refine .blank cycle' write' rom' state' (same.lanes.trans lanes) history
      (.inr (.inl ⟨ack', delay', ?_⟩))
    rw [next, ack]
    obtain three | four := when_
    · simp [three]
    · simp [four]
  · have counted := Regs.step_count (z := z) (p := s.pins) (b := s.ready i)
      (d := s.ports.portDin s.card) (a := i.answers) ack (by omega) (by simp [fsm])
    have same : s.card.SameKey (s.step z i).card := Regs.step_key waits
    obtain ⟨ack', delay', rom', -⟩ := counted
    rw [delay] at ack' delay'
    rw [rom] at rom'
    refine .blank cycle' write' rom' state' (same.lanes.trans lanes) history
      (.inr (.inr ⟨ack', delay', ?_⟩))
    rw [next, ack]
    simp [four]
  · have changed := keyChanged_of_blank ok lanes
      (by have := s.bus.access.firstStrobe_cases; omega) (by omega)
    obtain ⟨ack', delay', rom'⟩ := Regs.step_released (z := z) (p := s.pins) (b := s.ready i)
      (d := s.ports.portDin s.card) (a := i.answers) ack delay rom (by simp [fsm])
      (.inr ⟨fsm, select_of_cycle ok cycle (by omega) (by omega), cycle, changed⟩)
    refine .waiting ack' delay' rom' (by simp [state']) (by simp [state']) history ?_
    intro _ _
    rw [next, if_pos four]
    split
    · exact .inr ⟨rfl, state', write'⟩
    · exact .inl (by decide)

/-- A read in its port. -/
theorem stage_reading {C : List Commit} (phase : Phase z m s H C)
    (cycle : s.bus.access.inCard = true) (ack : s.card.ackN = true)
    (delay : s.card.ackDelay = 0) (rom : s.card.romReadPending = false)
    (fsm : s.card.state = .cpuRead ∨ s.card.state = .cpuReadWait)
    (read : s.bus.access.rwN = true) (key : KeyHeld s) (history : H = B ++ [s.bus.access])
    (clock : s.bus.sState = 3 ∨ s.bus.sState = 4) :
    Stage z m (s.step z i) (H ++ s.serves.toList) (seen s B) := by
  have busy : s.card.state ≠ .idle := by rcases fsm with fsm | fsm <;> simp [fsm]
  have waits := not_accepting busy
  have access' := access_step (z := z) (i := i) (s := s) (by omega)
  have cycle' : (s.step z i).bus.access.inCard = true := by rw [access', cycle]
  have same : s.card.SameKey (s.step z i).card := Regs.step_key waits
  have key' : KeyHeld (s.step z i) := key.step same access'
  have history' : H = B ++ [(s.step z i).bus.access] := by rw [access', history]
  have next : (s.step z i).bus.sState = 4 := by
    rw [bus_state_unacked ok open_ ack cycle (by omega) (by omega)]
    split <;> omega
  obtain ⟨state', -⟩ := step_fsm (z := z) (i := i) waits
  rw [serves_of_not_accepting waits, seen_of_running (.inl (by omega)), Option.toList_none,
    List.append_nil]
  obtain fsm | fsm := fsm
  · obtain ⟨ack', delay', rom'⟩ := Regs.step_quiet (z := z) (p := s.pins) (b := s.ready i)
      (d := s.ports.portDin s.card) (a := i.answers) ack delay rom waits (by simp [fsm])
    rw [fsm] at state'
    exact .reading cycle' ack' delay' rom' (.inr state') (by rw [access', read]) key' history' (.inr next)
  · obtain ⟨l, a, history_, target, stored, out⟩ : ∃ l a, H = l ++ [a] ∧ s.card.Target z a ∧
        s.stored z = contents z m H ∧
        (s.card.extSel = false → s.ports.ready = true → s.ports.dout = contents z m H a.word) := by
      cases phase with
      | read l a history _ target _ _ stored _ out =>
        exact ⟨l, a, history, target, stored, out fsm⟩
      | idle idle => simp [fsm] at idle
      | write _ _ _ _ _ _ writing => cases writing <;> simp_all
    have same_ : a = s.bus.access := by
      rw [history_] at history
      exact List.singleton_inj.1 (List.append_inj_right' history rfl)
    rw [fsm] at state'
    cases ready : s.ready i
    · rw [ready] at state'
      obtain ⟨ack', delay', rom'⟩ := Regs.step_wait (z := z) (p := s.pins)
        (d := s.ports.portDin s.card) (a := i.answers) ack delay rom fsm
      have card' : (s.step z i).card =
          s.card.step z s.pins false (s.ports.portDin s.card) i.answers := by rw [← ready]; rfl
      rw [← card'] at ack' delay' rom'
      exact .reading cycle' ack' delay' rom' (.inr state') (by rw [access', read]) key' history' (.inr next)
    · rw [ready] at state'
      obtain ⟨ack', delay', rom', out'⟩ := Regs.step_fetched (z := z) (p := s.pins)
        (d := s.ports.portDin s.card) (a := i.answers) ack delay rom fsm
      have card' : (s.step z i).card =
          s.card.step z s.pins true (s.ports.portDin s.card) i.answers := by rw [← ready]; rfl
      rw [← card'] at ack' delay' rom' out'
      refine .counting cycle' ack' (by omega) (by omega) (by simp [rom']) (by simp [rom'])
        (by simp [state']) (by simp [state']) key' ?_ history' (.inr (.inl next))
      intro _ _
      rw [out', portDin_of_ready target stored ready out, access', ← same_, Access.answer,
        if_pos target.exists_]

/-- An acknowledge on its way. -/
theorem stage_counting (cycle : s.bus.access.inCard = true) (ack : s.card.ackN = true)
    (delay : 1 ≤ s.card.ackDelay) (few : s.card.ackDelay ≤ 3)
    (rom : s.card.romReadPending = true → s.bus.access.isVram = false)
    (romDelay : s.card.romReadPending = true → 2 ≤ s.card.ackDelay)
    (fsm : s.card.state ≠ .cpuRead) (fsm' : s.card.state ≠ .cpuReadWait)
    (key : KeyHeld s) (answered : Answered z m s H) (history : H = B ++ [s.bus.access])
    (clock : s.bus.sState = 3 ∨ s.bus.sState = 4 ∨
      s.bus.access.rwN = false ∧ (s.bus.sState = 6 ∧ s.card.ackDelay = 2 ∨
        s.bus.sState = 7 ∧ s.card.ackDelay = 1)) :
    Stage z m (s.step z i) (H ++ s.serves.toList) (seen s B) := by
  have waits : s.card.accepting s.pins = false := by
    simp [Regs.accepting, show s.card.ackDelay ≠ 0 by omega]
  have access' := access_step (z := z) (i := i) (s := s) (by omega)
  have cycle' : (s.step z i).bus.access.inCard = true := by rw [access', cycle]
  have same : s.card.SameKey (s.step z i).card := Regs.step_key waits
  have key' : KeyHeld (s.step z i) := key.step same access'
  have history' : H = B ++ [(s.step z i).bus.access] := by rw [access', history]
  have next := bus_state_step (z := z) (i := i) ok open_ (by omega) cycle
  simp only [ack, Bool.true_eq_false, and_false, if_false] at next
  obtain ⟨state', state''⟩ := step_not_reading (z := z) (i := i) waits fsm fsm'
  obtain ⟨ack', delay', rom', out'⟩ : (s.step z i).card.ackN = !(s.card.ackDelay == 1) ∧
      (s.step z i).card.ackDelay = s.card.ackDelay - 1 ∧
      (s.step z i).card.romReadPending = (s.card.romReadPending && s.card.ackDelay != 2) ∧
      (s.step z i).card.dataOut =
        (if s.card.ackDelay == 2 && s.card.romReadPending then i.answers.romData else s.card.dataOut) :=
    Regs.step_count ack (by omega) fsm'
  have answered' : Answered z m (s.step z i) H := by
    intro vram read
    rw [access'] at vram read ⊢
    have none : s.card.romReadPending = false := by
      cases pending : s.card.romReadPending
      · rfl
      · rw [rom pending] at vram
        cases vram
    rw [out', none, Bool.and_false, if_neg (by simp)]
    exact answered vram read
  have romLast : s.card.ackDelay = 1 → (s.step z i).card.romReadPending = false := by
    intro one
    rw [rom']
    cases pending : s.card.romReadPending
    · rfl
    · have := romDelay pending
      omega
  have romLater : (s.step z i).card.romReadPending = true →
      s.card.romReadPending = true ∧ s.card.ackDelay ≠ 2 := by
    intro pending
    rw [rom'] at pending
    simpa using pending
  rw [serves_of_not_accepting waits, Option.toList_none, List.append_nil]
  by_cases one : s.card.ackDelay = 1
  · have ack' : (s.step z i).card.ackN = false := by rw [ack', one]; rfl
    have delay' : (s.step z i).card.ackDelay = 0 := by rw [delay', one]
    by_cases seven : s.bus.sState = 7
    · rw [seen_of_last ok seven cycle]
      exact .late ack' delay' (romLast one) state' state'' history (by rw [next, seven]; simp)
    · rw [seen_of_running (.inl seven)]
      refine .acked cycle' ack' delay' (romLast one) state' state'' key' answered' history' ?_ ?_
      · rw [next]
        split <;> omega
      · intro last
        rw [next] at last
        split at last <;> omega
  · have ack' : (s.step z i).card.ackN = true := by rw [ack']; simp [one]
    have seven : s.bus.sState ≠ 7 := by omega
    rw [seen_of_running (.inl seven)]
    refine .counting cycle' ack' (by omega) (by omega) ?_ ?_ state' state'' key' answered' history' ?_
    · intro pending
      rw [access']
      exact rom (romLater pending).1
    · intro pending
      have := romDelay (romLater pending).1
      have := (romLater pending).2
      omega
    · rw [next, access', delay']
      obtain three | four | ⟨write, ⟨six, two⟩ | ⟨seven', -⟩⟩ := clock
      · simp [three]
      · simp [four]
      · simp [six, two, write]
      · exact absurd seven' seven

/-- The acknowledge stays until AS rises. -/
theorem stage_acked (cycle : s.bus.access.inCard = true) (ack : s.card.ackN = false)
    (delay : s.card.ackDelay = 0) (rom : s.card.romReadPending = false)
    (fsm : s.card.state ≠ .cpuRead) (fsm' : s.card.state ≠ .cpuReadWait)
    (key : KeyHeld s) (answered : Answered z m s H) (history : H = B ++ [s.bus.access])
    (clock : 4 ≤ s.bus.sState) :
    Stage z m (s.step z i) (H ++ s.serves.toList) (seen s B) := by
  have bound := ok.bound
  have waits : s.card.accepting s.pins = false := by simp [Regs.accepting, ack]
  have access' := access_step (z := z) (i := i) (s := s) (by omega)
  have cycle' : (s.step z i).bus.access.inCard = true := by rw [access', cycle]
  have same : s.card.SameKey (s.step z i).card := Regs.step_key waits
  have next := bus_state_step (z := z) (i := i) ok open_ (by omega) cycle
  obtain ⟨state', state''⟩ := step_not_reading (z := z) (i := i) waits fsm fsm'
  rw [serves_of_not_accepting waits, Option.toList_none, List.append_nil]
  by_cases seven : s.bus.sState = 7
  · have asN : s.pins.cpuAsN = true := by
      change s.bus.asN = true
      rw [ok.asN, seven]
      rfl
    obtain ⟨ack', delay', rom'⟩ := Regs.step_released (z := z) (p := s.pins) (b := s.ready i)
      (d := s.ports.portDin s.card) (a := i.answers) ack delay rom fsm' (.inl asN)
    rw [seen_of_last ok seven cycle]
    refine .waiting ack' delay' rom' state' state'' history ?_
    intro inside
    have := inside.1
    rw [next, seven] at this
    simp at this
  · have strobed : s.bus.access.firstStrobe ≤ s.bus.sState := by
      have := s.bus.access.firstStrobe_cases
      omega
    have held := keyChanged_of_held ok key strobed (by omega) (by omega)
    obtain ⟨ack', delay', rom', out'⟩ := Regs.step_held (z := z) (p := s.pins) (b := s.ready i)
      (d := s.ports.portDin s.card) (a := i.answers) ack delay (ok.asN_low (by omega) (by omega))
      (select_of_cycle ok cycle (by omega) (by omega)) (fun _ => held) rom fsm'
    have answered' : Answered z m (s.step z i) H := by
      intro vram read
      rw [access'] at vram read ⊢
      exact out'.trans (answered vram read)
    rw [seen_of_running (.inl seven)]
    refine .acked cycle' ack' delay' rom' state' state'' (key.step same access') answered'
      (by rw [access', history]) ?_ ?_
    · rw [next]
      split
      · split <;> omega
      · omega
    · intro last vram read
      rw [access'] at vram read ⊢
      have six : s.bus.sState = 6 := by
        rw [next] at last
        split at last
        · split at last <;> omega
        · omega
      have phi := ok.even (.inr six)
      have latched : (s.step z i).bus.din = s.cpuDin i := by
        simp [bus_step, Bus.step, phi, six]
      rw [latched, cpuDin_of_cycle ok cycle (by omega) (by omega) (open_ cycle)]
      exact answered vram read

omit open_ in
/-- An acknowledge after the cycle goes before the next one. -/
theorem stage_late (ack : s.card.ackN = false) (delay : s.card.ackDelay = 0)
    (rom : s.card.romReadPending = false) (fsm : s.card.state ≠ .cpuRead)
    (fsm' : s.card.state ≠ .cpuReadWait) (history : H = B) (clock : s.bus.sState = 0) :
    Stage z m (s.step z i) (H ++ s.serves.toList) (seen s B) := by
  have waits : s.card.accepting s.pins = false := by simp [Regs.accepting, ack]
  obtain ⟨state', state''⟩ := step_not_reading (z := z) (i := i) waits fsm fsm'
  have asN : s.pins.cpuAsN = true := by
    change s.bus.asN = true
    rw [ok.asN, clock]
    rfl
  obtain ⟨ack', delay', rom'⟩ := Regs.step_released (z := z) (p := s.pins) (b := s.ready i)
    (d := s.ports.portDin s.card) (a := i.answers) ack delay rom fsm' (.inl asN)
  rw [serves_of_not_accepting waits, seen_of_running (.inl (by omega)), Option.toList_none,
    List.append_nil]
  refine .waiting ack' delay' rom' state' state'' history ?_
  intro inside
  have := Bus.Ok.sState_idle i.request (s.dtackN i) (s.cpuDin i) clock
  have := inside.1
  rw [bus_step] at this
  omega

end Clock

end StageStep

/-- One clock of the bus and the card. -/
theorem Stage.step {z : Sizes} {m : Nat → Word} {s : State} {i : Inputs} {H B : List Access}
    {C : List Commit} (ok : s.bus.Ok) (open_ : s.bus.access.inCard = true → s.noCard = false) (phase : Phase z m s H C)
    (stage : Stage z m s H B) :
    Stage z m (s.step z i) (H ++ s.serves.toList) (seen s B) := by
  cases stage with
  | waiting ack delay rom fsm fsm' history early =>
    cases accepts : s.card.accepting s.pins
    · exact stage_quiet ok open_ accepts ack delay rom fsm fsm' history early
    · obtain ⟨-, low, high, cycle, -⟩ := (accepting_iff ok).1 accepts
      refine stage_accept ok open_ accepts rom history ?_
      obtain here | ⟨five, -, write⟩ := early ⟨low, by omega⟩ cycle
      · exact .inl here
      · exact .inr ⟨five, write⟩
  | blank cycle write rom fsm lanes history clock =>
    exact stage_blank ok open_ cycle write rom fsm lanes history clock
  | reading cycle ack delay rom fsm read key history clock =>
    exact stage_reading ok open_ phase cycle ack delay rom fsm read key history clock
  | counting cycle ack delay few rom romDelay fsm fsm' key answered history clock =>
    exact stage_counting ok open_ cycle ack delay few rom romDelay fsm fsm' key answered history clock
  | acked cycle ack delay rom fsm fsm' key answered history clock last =>
    exact stage_acked ok open_ cycle ack delay rom fsm fsm' key answered history clock
  | late ack delay rom fsm fsm' history clock =>
    exact stage_late ok ack delay rom fsm fsm' history clock

/-! ## The open-bus timer -/

section Timer

variable (z : Sizes) (s : State) (i : Inputs)

/-- The clocks to the acknowledge. -/
def State.remaining : Nat :=
  if s.card.ackN = false then 0 else if s.card.ackDelay ≠ 0 then s.card.ackDelay else s.clocksLeft z

/-- The timer starts with AS. -/
structure Counted : Prop where
  bound : s.nubusTimeout ≤ 32
  first : s.bus.sState = 2 → s.nubusTimeout = 0
  second : s.bus.sState = 3 → s.nubusTimeout ≤ 1

/-- The timer of a cycle to the card: what is left of the answer fits. -/
structure InTime : Prop extends Counted s where
  fits : s.bus.access.inCard = true → 2 ≤ s.bus.sState → s.bus.sState ≤ 6 →
    s.nubusTimeout + s.remaining z ≤ 32
  blank : s.bus.access.inCard = true → 2 ≤ s.bus.sState → s.bus.sState ≤ 6 →
    (s.card.ackN = false ∨ s.card.ackDelay ≠ 0) → s.card.ackLanes = Lanes.none →
    s.nubusTimeout + s.card.ackDelay ≤ 4

variable {z s i}

theorem accessClocks_bounds (a : Access) : 3 ≤ State.accessClocks z a ∧ State.accessClocks z a ≤ 5 := by
  unfold State.accessClocks
  split
  · decide
  · split <;> decide

theorem clocksLeft_bounds : 3 ≤ s.clocksLeft z ∧ s.clocksLeft z ≤ 9 := by
  have := accessClocks_bounds (z := z) s.bus.access
  unfold State.clocksLeft
  cases s.card.state <;> simp only <;> omega

theorem noCard_of_inTime (ok : s.bus.Ok) (time : InTime z s) (cycle : s.bus.access.inCard = true) :
    s.noCard = false := by
  cases closed : s.noCard
  · rfl
  · simp only [State.noCard, State.pins, Bool.and_eq_true, Bool.not_eq_true', beq_iff_eq] at closed
    obtain ⟨⟨⟨asN, -⟩, ack⟩, count⟩ := closed
    obtain ⟨low, high⟩ := ok.asN_iff.1 asN
    have fits := time.fits cycle low high
    have bounds := clocksLeft_bounds (z := z) (s := s)
    unfold State.remaining at fits
    rw [if_neg (by simp [ack])] at fits
    split at fits <;> omega

theorem timeout_step (low : 2 ≤ s.bus.sState) (high : s.bus.sState ≤ 6) (ok : s.bus.Ok) :
    (s.step z i).nubusTimeout ≤ s.nubusTimeout + (if s.card.ackN then 1 else 0) := by
  have asN := ok.asN_low low high
  change (if s.bus.asN then 0 else _) ≤ _
  rw [asN, if_neg (by simp)]
  split
  · next counts =>
    have ack : s.card.ackN = true := by
      cases h : s.card.ackN <;> simp_all
    simp [ack]
  · omega

theorem timeout_step_high (ok : s.bus.Ok) (high : s.bus.sState < 2) :
    (s.step z i).nubusTimeout = 0 := by
  have asN : s.bus.asN = true := by
    rw [ok.asN]
    simp [high]
  change (if s.bus.asN then 0 else _) = 0
  rw [asN, if_pos rfl]

end Timer

section TimerStep

variable {z : Sizes} {m : Nat → Word} {s : State} {i : Inputs} {H B : List Access}

/-- A clock in a port or towards it. -/
theorem clocksLeft_step (busy : s.card.state ≠ .idle) (cycle : s.bus.sState ≠ 0)
    (fetched : s.card.state = .cpuReadWait → s.ready i = false) :
    (s.step z i).clocksLeft z + 1 = s.clocksLeft z + (if s.stalled i then 1 else 0) := by
  obtain ⟨state', -⟩ := step_fsm (z := z) (i := i) (not_accepting busy)
  have access' := access_step (z := z) (i := i) cycle
  unfold State.clocksLeft State.stalled
  rw [state', access']
  cases fsm : s.card.state <;> cases ready : s.ready i <;>
    simp [fsm, ready] at busy fetched ⊢ <;> omega

/-- The clocks that an accept leaves. -/
theorem remaining_accept (ok : s.bus.Ok) (accepts : s.card.accepting s.pins = true) :
    (s.step z i).remaining z + 1 = State.accessClocks z s.bus.access := by
  obtain ⟨fsm, low, high, cycle, ack, delay⟩ := (accepting_iff ok).1 accepts
  have card' := card_accept (z := z) (i := i) accepts
  have access' := access_step (z := z) (i := i) (s := s) (by omega)
  have rwN : s.pins.rwN = s.bus.access.rwN := ok.rwN low (by omega)
  have ack' := Regs.accept_ackN (z := z) (r := { s.card with portRd := false, portWr := false })
    (p := s.pins) (a := i.answers)
  rw [← card'] at ack'
  have answer : (s.step z i).remaining z =
      if (s.step z i).card.ackDelay ≠ 0 then (s.step z i).card.ackDelay else (s.step z i).clocksLeft z := by
    unfold State.remaining
    rw [ack', if_neg (by simp [ack])]
  rw [answer]
  obtain shown | ⟨blank, write, -⟩ := lanes_cases ok low high
  · have strobed : s.bus.lanes ≠ Lanes.none := by
      rw [shown]
      exact s.bus.access.strobed
    cases port : addrIsVram s.bus.access.addr && decide (s.bus.access.word < z.totalWords)
    · obtain ⟨-, delays, -⟩ := Regs.accept_now (z := z)
        (r := { s.card with portRd := false, portWr := false }) (p := s.pins) (a := i.answers) fsm port
      rw [← card'] at delays
      obtain ⟨two, -, apart⟩ | ⟨three, -, read, other, regs, rom⟩ := delays
      · have apart : (s.bus.access.rwN && !addrIsVram s.bus.access.addr && !addrIsRegs s.bus.access.addr &&
            addrIsRom s.bus.access.addr) = false := by rw [← rwN]; exact apart
        have noPort : (s.bus.access.rwN && s.bus.access.isVram &&
            decide (s.bus.access.word < z.totalWords)) = false := by
          rw [Access.isVram_eq _ cycle, Bool.and_assoc, port, Bool.and_false]
        rw [two, if_pos (by decide), State.accessClocks, noPort, apart]
        rfl
      · have read : s.bus.access.rwN = true := rwN.symm.trans read
        have other : addrIsVram s.bus.access.addr = false := other
        have regs : addrIsRegs s.bus.access.addr = false := regs
        have rom : addrIsRom s.bus.access.addr = true := rom
        have four : State.accessClocks z s.bus.access = 4 := by
          simp [State.accessClocks, Access.isVram, read, other, regs, rom]
        rw [three, if_pos (by decide), four]
    · obtain ⟨vram, inside⟩ := Bool.and_eq_true_iff.1 port
      have inside : s.bus.access.word < z.totalWords := of_decide_eq_true inside
      cases dir : s.bus.access.rwN
      · obtain ⟨-, two, -⟩ := Regs.accept_write (z := z)
          (r := { s.card with portRd := false, portWr := false }) (p := s.pins) (a := i.answers)
          (rwN.trans dir) vram inside strobed
        rw [← card'] at two
        rw [two, if_pos (by decide), State.accessClocks, dir]
        rfl
      · obtain ⟨state', none, -⟩ := Regs.accept_read (z := z)
          (r := { s.card with portRd := false, portWr := false }) (p := s.pins) (a := i.answers)
          (rwN.trans dir) vram inside
        rw [← card'] at state' none
        have five : State.accessClocks z s.bus.access = 5 := by
          simp [State.accessClocks, Access.isVram_eq _ cycle, vram, inside, dir]
        rw [none, if_neg (by simp [delay]), five, State.clocksLeft, state']
  · obtain ⟨-, two, -⟩ := Regs.accept_blank (z := z)
      (r := { s.card with portRd := false, portWr := false }) (p := s.pins) (a := i.answers)
      fsm (rwN.trans write) blank
    rw [← card'] at two
    rw [two, if_pos (by decide), State.accessClocks, write]
    rfl

theorem Stage.ackDelay_le (stage : Stage z m s H B) : s.card.ackDelay ≤ 3 := by
  cases stage <;> omega

theorem remaining_le (few : s.card.ackDelay ≤ 3) : s.remaining z ≤ 9 := by
  have := clocksLeft_bounds (z := z) (s := s)
  unfold State.remaining
  split
  · omega
  · split <;> omega

theorem remaining_of_quiet (ack : s.card.ackN = true) (delay : s.card.ackDelay = 0) :
    s.remaining z = s.clocksLeft z := by
  rw [State.remaining, if_neg (by simp [ack]), if_neg (by simp [delay])]

theorem remaining_of_acked (ack : s.card.ackN = false) : s.remaining z = 0 := by
  rw [State.remaining, if_pos ack]

/-- What is left of an answer after a clock of a cycle. -/
theorem remaining_step {B' H' : List Access} (ok : s.bus.Ok)
    (stage : Stage z m s H B) (stage' : Stage z m (s.step z i) H' B') (time : InTime z s)
    (deadline : s.pending = true → s.stalled i = true → s.nubusTimeout + s.clocksLeft z < 32)
    (cycle : s.bus.access.inCard = true) (low : 2 ≤ s.bus.sState) (high : s.bus.sState ≤ 6) :
    (s.step z i).nubusTimeout + (s.step z i).remaining z ≤ 32 := by
  have count := timeout_step (z := z) (i := i) low high ok
  have fits := time.fits cycle low high
  have busy : s.bus.sState ≠ 0 := by omega
  have asN := ok.asN_low low high
  have few := remaining_le (z := z) stage'.ackDelay_le
  have port : s.card.ackN = true → s.card.ackDelay = 0 → s.card.state ≠ .idle →
      (s.card.state = .cpuReadWait → s.ready i = false) → (s.step z i).card.ackN = true →
      (s.step z i).card.ackDelay = 0 → (s.step z i).nubusTimeout + (s.step z i).remaining z ≤ 32 := by
    intro ack delay idle fetched ack' delay'
    have left := clocksLeft_step (z := z) (i := i) idle busy fetched
    have pending : s.pending = true := by simp [State.pending, asN, cycle, ack, delay]
    rw [remaining_of_quiet ack delay] at fits
    rw [ack, if_pos rfl] at count
    rw [remaining_of_quiet ack' delay']
    cases stalled : s.stalled i
    · rw [stalled, if_neg (by simp)] at left
      omega
    · have := deadline pending stalled
      rw [stalled, if_pos rfl] at left
      omega
  cases stage with
  | waiting ack delay rom fsm fsm' history early =>
    by_cases idle : s.card.state = .idle
    · have accepts := (accepting_iff ok).2 ⟨idle, low, high, cycle, ack, delay⟩
      have left : s.clocksLeft z = State.accessClocks z s.bus.access := by
        unfold State.clocksLeft
        rw [idle]
      have rest := remaining_accept (z := z) (i := i) ok accepts
      rw [remaining_of_quiet ack delay] at fits
      rw [ack, if_pos rfl] at count
      omega
    · obtain ⟨ack', delay', -⟩ := Regs.step_quiet (z := z) (p := s.pins) (b := s.ready i)
        (d := s.ports.portDin s.card) (a := i.answers) ack delay rom (not_accepting idle) fsm'
      exact port ack delay idle (fun h => absurd h fsm') ack' delay'
  | blank _ write rom fsm lanes history clock =>
    have early := time.blank cycle low high
      (by obtain ⟨-, two, -⟩ | ⟨-, one, -⟩ | ⟨ack, -⟩ := clock <;> simp [*]) lanes
    split at count <;> omega
  | reading _ ack delay rom fsm read key history clock =>
    have idle : s.card.state ≠ .idle := by rcases fsm with fsm | fsm <;> simp [fsm]
    by_cases fetched : s.card.state = .cpuReadWait ∧ s.ready i = true
    · obtain ⟨ack', delay', -⟩ := Regs.step_fetched (z := z) (p := s.pins)
        (d := s.ports.portDin s.card) (a := i.answers) ack delay rom fetched.1
      have card' : (s.step z i).card =
          s.card.step z s.pins true (s.ports.portDin s.card) i.answers := by rw [← fetched.2]; rfl
      rw [← card'] at ack' delay'
      have left : s.clocksLeft z = 3 := by
        unfold State.clocksLeft
        rw [fetched.1]
      have rest : (s.step z i).remaining z = 2 := by simp [State.remaining, ack', delay']
      rw [remaining_of_quiet ack delay] at fits
      rw [ack, if_pos rfl] at count
      omega
    · have slow : s.card.state = .cpuReadWait → s.ready i = false := by
        intro waits
        cases ready : s.ready i
        · rfl
        · exact absurd ⟨waits, ready⟩ fetched
      obtain ⟨ack', delay'⟩ : (s.step z i).card.ackN = true ∧ (s.step z i).card.ackDelay = 0 := by
        obtain fsm | fsm := fsm
        · obtain ⟨ack', delay', -⟩ := Regs.step_quiet (z := z) (p := s.pins) (b := s.ready i)
            (d := s.ports.portDin s.card) (a := i.answers) ack delay rom (not_accepting idle)
            (by simp [fsm])
          exact ⟨ack', delay'⟩
        · obtain ⟨ack', delay', -⟩ := Regs.step_wait (z := z) (p := s.pins)
            (d := s.ports.portDin s.card) (a := i.answers) ack delay rom fsm
          have card' : (s.step z i).card =
              s.card.step z s.pins false (s.ports.portDin s.card) i.answers := by rw [← slow fsm]; rfl
          rw [← card'] at ack' delay'
          exact ⟨ack', delay'⟩
      exact port ack delay idle slow ack' delay'
  | counting _ ack delay few' rom romDelay fsm fsm' key answered history clock =>
    obtain ⟨ack', delay', -⟩ := Regs.step_count (z := z) (p := s.pins) (b := s.ready i)
      (d := s.ports.portDin s.card) (a := i.answers) ack (by omega) fsm'
    have ack' : (s.step z i).card.ackN = !(s.card.ackDelay == 1) := ack'
    have delay' : (s.step z i).card.ackDelay = s.card.ackDelay - 1 := delay'
    have before : s.remaining z = s.card.ackDelay := by
      simp [State.remaining, ack, show s.card.ackDelay ≠ 0 by omega]
    rw [before] at fits
    rw [ack, if_pos rfl] at count
    by_cases one : s.card.ackDelay = 1
    · rw [remaining_of_acked (by simp [ack', one])]
      omega
    · have rest : (s.step z i).remaining z = s.card.ackDelay - 1 := by
        simp [State.remaining, ack', one, delay', show s.card.ackDelay - 1 ≠ 0 by omega]
      omega
  | acked _ ack delay rom fsm fsm' key answered history clock last =>
    have strobed : s.bus.access.firstStrobe ≤ s.bus.sState := by
      have := s.bus.access.firstStrobe_cases
      omega
    obtain ⟨ack', -⟩ := Regs.step_held (z := z) (p := s.pins) (b := s.ready i)
      (d := s.ports.portDin s.card) (a := i.answers) ack delay asN
      (select_of_cycle ok cycle low high) (fun _ => keyChanged_of_held ok key strobed high low) rom fsm'
    rw [remaining_of_acked (by exact ack')]
    rw [ack, if_neg (by simp)] at count
    omega
  | late ack delay rom fsm fsm' history clock => omega

/-- The answer to a write without strobes comes early in its cycle. -/
theorem blank_step (ok : s.bus.Ok) (stage : Stage z m s H B) (time : InTime z s)
    (busy : s.bus.sState ≠ 0) (cycle : s.bus.access.inCard = true) (high : s.bus.sState ≤ 6)
    (given : (s.step z i).card.ackN = false ∨ (s.step z i).card.ackDelay ≠ 0)
    (lanes' : (s.step z i).card.ackLanes = Lanes.none) :
    (s.step z i).nubusTimeout + (s.step z i).card.ackDelay ≤ 4 := by
  have differs := s.bus.access.strobed
  have keyed : s.card.accepting s.pins = false → KeyHeld s → False := by
    intro waits key
    have same : s.card.SameKey (s.step z i).card := Regs.step_key waits
    exact differs (key.lanes.symm.trans (same.lanes.symm.trans lanes'))
  cases stage with
  | waiting ack delay rom fsm fsm' history early =>
    cases accepts : s.card.accepting s.pins
    · obtain ⟨ack', delay', -⟩ := Regs.step_quiet (z := z) (p := s.pins) (b := s.ready i)
        (d := s.ports.portDin s.card) (a := i.answers) ack delay rom accepts fsm'
      obtain given | given := given
      · rw [show (s.step z i).card.ackN = true from ack'] at given
        cases given
      · exact absurd delay' given
    · obtain ⟨idle, low, -, -, -, -⟩ := (accepting_iff ok).1 accepts
      have keyed' := Regs.accept_keyed (z := z) (r := { s.card with portRd := false, portWr := false })
        (p := s.pins) (a := i.answers)
      rw [← card_accept accepts] at keyed'
      have shown : s.bus.lanes = Lanes.none := keyed'.lanes.symm.trans lanes'
      have count := timeout_step (z := z) (i := i) low high ok
      have rwN : s.pins.rwN = s.bus.access.rwN := ok.rwN low (by omega)
      obtain all | ⟨-, write, soon⟩ := lanes_cases ok low high
      · exact absurd (all.symm.trans shown) differs
      · obtain ⟨-, two, -⟩ := Regs.accept_blank (z := z)
          (r := { s.card with portRd := false, portWr := false }) (p := s.pins) (a := i.answers)
          idle (rwN.trans write) shown
        rw [← card_accept accepts] at two
        have first := time.first
        have second := time.second
        split at count <;> omega
  | blank _ write rom fsm lanes history clock =>
    have low : 3 ≤ s.bus.sState ∧ s.bus.sState ≤ 4 := by omega
    have count := timeout_step (z := z) (i := i) (by omega) high ok
    have early := time.blank cycle (by omega) high
      (by obtain ⟨-, two, -⟩ | ⟨-, one, -⟩ | ⟨ack, -⟩ := clock <;> simp [*]) lanes
    by_cases ack : s.card.ackN = true
    · have some_ : s.card.ackDelay ≠ 0 := by
        obtain ⟨-, two, -⟩ | ⟨-, one, -⟩ | ⟨ack', -⟩ := clock
        · omega
        · omega
        · rw [ack] at ack'
          cases ack'
      obtain ⟨-, delay', -⟩ := Regs.step_count (z := z) (p := s.pins) (b := s.ready i)
        (d := s.ports.portDin s.card) (a := i.answers) ack some_ (by simp [fsm])
      have delay' : (s.step z i).card.ackDelay = s.card.ackDelay - 1 := delay'
      rw [ack, if_pos rfl] at count
      omega
    · have ack : s.card.ackN = false := by simpa using ack
      rw [ack, if_neg (by simp)] at count
      have delay : s.card.ackDelay = 0 := by
        obtain ⟨ack', -⟩ | ⟨ack', -⟩ | ⟨-, delay, -⟩ := clock
        · rw [ack] at ack'
          cases ack'
        · rw [ack] at ack'
          cases ack'
        · exact delay
      have changed := keyChanged_of_blank ok lanes
        (by have := s.bus.access.firstStrobe_cases; omega) high
      obtain ⟨-, delay', -⟩ := Regs.step_released (z := z) (p := s.pins) (b := s.ready i)
        (d := s.ports.portDin s.card) (a := i.answers) ack delay rom (by simp [fsm])
        (.inr ⟨fsm, select_of_cycle ok cycle (by omega) high, cycle, changed⟩)
      have delay' : (s.step z i).card.ackDelay = 0 := delay'
      omega
  | reading _ ack delay rom fsm read key history clock =>
    exact (keyed (not_accepting (by rcases fsm with fsm | fsm <;> simp [fsm])) key).elim
  | counting _ ack delay few' rom romDelay fsm fsm' key answered history clock =>
    exact (keyed (by simp [Regs.accepting, show s.card.ackDelay ≠ 0 by omega]) key).elim
  | acked _ ack delay rom fsm fsm' key answered history clock last =>
    exact (keyed (by simp [Regs.accepting, ack]) key).elim
  | late ack delay rom fsm fsm' history clock => exact absurd clock busy

/-- The bus state before one of a cycle. -/
theorem before_cycle (ok : s.bus.Ok) (low : 2 ≤ (s.step z i).bus.sState)
    (high : (s.step z i).bus.sState ≤ 6) :
    (s.bus.sState = 1 ∧ (s.step z i).bus.sState = 2) ∨
      (2 ≤ s.bus.sState ∧ s.bus.sState ≤ 6 ∧ 3 ≤ (s.step z i).bus.sState ∧
        ((s.step z i).bus.sState = 3 → s.bus.sState = 2)) := by
  have bound := ok.bound
  by_cases idle : s.bus.sState = 0
  · have := Bus.Ok.sState_idle i.request (s.dtackN i) (s.cpuDin i) idle
    rw [bus_step] at low
    omega
  · rw [bus_step, ok.sState_step _ _ _ idle] at low high ⊢
    split at low
    · split at low <;> rename_i four wait <;> simp [four, wait]
    · rename_i other
      rw [if_neg other] at high ⊢
      omega

theorem Counted.step (ok : s.bus.Ok) (counted : Counted s) : Counted (s.step z i) where
  bound := by
    have := counted.bound
    change (if s.bus.asN then 0 else if s.pins.select && s.card.ackN && s.nubusTimeout != 32 then
      s.nubusTimeout + 1 else s.nubusTimeout) ≤ 32
    split
    · omega
    · split
      · next counts =>
        simp only [Bool.and_eq_true, bne_iff_ne] at counts
        omega
      · omega
  first := by
    intro two
    obtain ⟨one, -⟩ | ⟨-, -, three, -⟩ := before_cycle (z := z) (i := i) ok (by omega) (by omega)
    · exact timeout_step_high ok (by omega)
    · omega
  second := by
    intro three
    obtain ⟨-, two⟩ | ⟨low, high, -, last⟩ := before_cycle (z := z) (i := i) ok (by omega) (by omega)
    · omega
    · have count := timeout_step (z := z) (i := i) low high ok
      have := counted.first (last three)
      split at count <;> omega

theorem InTime.step {B' H' : List Access} (ok : s.bus.Ok) (stage : Stage z m s H B)
    (stage' : Stage z m (s.step z i) H' B') (time : InTime z s)
    (deadline : s.pending = true → s.stalled i = true → s.nubusTimeout + s.clocksLeft z < 32) :
    InTime z (s.step z i) where
  toCounted := time.toCounted.step ok
  fits := by
    intro cycle low high
    obtain ⟨one, two⟩ | ⟨low', high', -, -⟩ := before_cycle ok low high
    · have := timeout_step_high (z := z) (i := i) ok (show s.bus.sState < 2 by omega)
      have := remaining_le (z := z) stage'.ackDelay_le
      omega
    · rw [access_step (by omega)] at cycle
      exact remaining_step ok stage stage' time deadline cycle low' high'
  blank := by
    intro cycle low high given lanes
    obtain ⟨one, two⟩ | ⟨low', high', -, -⟩ := before_cycle ok low high
    · rw [access_step (by omega)] at cycle
      exact blank_step ok stage time (by omega) cycle (by omega) given lanes
    · rw [access_step (by omega)] at cycle
      exact blank_step ok stage time (by omega) cycle high' given lanes

end TimerStep

/-! ## Runs -/

/-- What holds after every clock: `H` are the cycles served, `B` the beats, `C` the commits
and `T` the acknowledges taken. -/
structure Invariant (z : Sizes) (m : Nat → Word) (s : State) (H : List Access)
    (B : List (Access × Word)) (C : List Commit) (T : List Access) : Prop where
  bus : s.bus.Ok
  stage : Stage z m s H (B.map Prod.fst)
  phase : Phase z m s H C
  time : InTime z s
  taken : T = B.map Prod.fst ++
    (if 5 ≤ s.bus.sState ∧ s.bus.access.inCard = true then [s.bus.access] else [])
  reads : ∀ l a d r, B = l ++ (a, d) :: r → a.isVram = true → a.rwN = true →
    d = a.answer z (contents z m (l.map Prod.fst))

section Runs

variable {z : Sizes} {m : Nat → Word} {s : State} {i : Inputs} {H T : List Access}
  {B : List (Access × Word)} {C : List Commit}

theorem taken_step (ok : s.bus.Ok)
    (taken : T = B.map Prod.fst ++
      (if 5 ≤ s.bus.sState ∧ s.bus.access.inCard = true then [s.bus.access] else [])) :
    T ++ (s.takes i).toList = (B ++ s.beat.toList).map Prod.fst ++
      (if 5 ≤ (s.step z i).bus.sState ∧ (s.step z i).bus.access.inCard = true then
        [(s.step z i).bus.access] else []) := by
  have bound := ok.bound
  by_cases idle : s.bus.sState = 0
  · have next := Bus.Ok.sState_idle i.request (s.dtackN i) (s.cpuDin i) idle
    rw [← bus_step (z := z)] at next
    have small : ¬ 5 ≤ (s.step z i).bus.sState := by omega
    simp [taken, idle, small, State.takes, beat_of_running (.inl (by omega : s.bus.sState ≠ 7))]
  · have access' := access_step (z := z) (i := i) idle
    have next : (s.step z i).bus.sState = _ := ok.sState_step i.request (s.dtackN i) (s.cpuDin i) idle
    rw [access', taken]
    cases cycle : s.bus.access.inCard
    · simp [State.takes, cycle, beat_of_running (.inr cycle)]
    · by_cases four : s.bus.sState = 4
      · rw [beat_of_running (.inl (by omega)), next]
        cases phi : s.bus.phi <;> cases dtack : s.dtackN i <;>
          simp [State.takes, four, cycle, phi, dtack]
      · have none : s.takes i = none := by simp [State.takes, four]
        rw [none, next, if_neg four]
        by_cases last : s.bus.sState = 7
        · simp [beat_of_last ok last cycle, last]
        · rw [beat_of_running (.inl last)]
          have small : (s.bus.sState + 1) % 8 = s.bus.sState + 1 := by omega
          by_cases acked : 5 ≤ s.bus.sState
          · simp [small, acked, show 5 ≤ s.bus.sState + 1 by omega]
          · simp [small, acked, show ¬ 5 ≤ s.bus.sState + 1 by omega]

/-- A new beat is a correct one. -/
theorem reads_step (inv : Invariant z m s H B C T) (l : List (Access × Word)) (a : Access) (d : Word)
    (r : List (Access × Word)) (shape : B ++ s.beat.toList = l ++ (a, d) :: r)
    (vram : a.isVram = true) (read : a.rwN = true) :
    d = a.answer z (contents z m (l.map Prod.fst)) := by
  have old : s.beat = none → d = a.answer z (contents z m (l.map Prod.fst)) := by
    intro quiet
    rw [quiet, Option.toList_none, List.append_nil] at shape
    exact inv.reads l a d r shape vram read
  by_cases last : s.bus.sState = 7 ∧ s.bus.access.inCard = true
  · obtain ⟨seven, cycle⟩ := last
    have beat := beat_of_last inv.bus seven cycle
    rw [beat, Option.toList_some] at shape
    obtain ⟨r', rfl⟩ | ⟨front, this⟩ : (∃ r', r = r' ++ [(s.bus.access, s.bus.din)]) ∨
        (r = [] ∧ (a, d) = (s.bus.access, s.bus.din)) := by
      rcases List.eq_nil_or_concat r with rfl | ⟨r', b, rfl⟩
      · have := List.append_inj_right' shape rfl
        exact .inr ⟨rfl, (List.singleton_inj.1 this).symm⟩
      · rw [List.concat_eq_append, ← List.cons_append, ← List.append_assoc] at shape
        have := List.append_inj_right' shape rfl
        exact .inl ⟨r', by rw [List.concat_eq_append, List.singleton_inj.1 this]⟩
    · rw [← List.cons_append, ← List.append_assoc] at shape
      exact inv.reads l a d r' (List.append_inj_left' shape rfl) vram read
    · subst front
      obtain ⟨rfl, rfl⟩ := Prod.mk.inj this
      have before : B = l := List.append_inj_left' shape rfl
      subst before
      have history := inv.stage
      cases history with
      | waiting ack delay rom fsm fsm' history early =>
        have := early ⟨by omega, by omega⟩ cycle
        omega
      | blank _ _ _ _ _ _ clock => omega
      | reading _ _ _ _ _ _ _ _ clock => omega
      | counting _ _ _ _ _ _ _ _ _ _ _ clock =>
        obtain three | four | ⟨write, -⟩ := clock
        · omega
        · omega
        · rw [read] at write
          cases write
      | acked _ _ _ _ _ _ _ _ history _ out =>
        rw [out seven vram read, history, contents_of_read _ _ (Access.writes_of_read read)]
      | late _ _ _ _ _ _ clock => omega
  · apply old
    apply beat_of_running
    cases cycle : s.bus.access.inCard
    · exact .inr rfl
    · exact .inl fun seven => last ⟨seven, cycle⟩

theorem Invariant.step (inv : Invariant z m s H B C T)
    (deadline : s.pending = true → s.stalled i = true → s.nubusTimeout + s.clocksLeft z < 32) :
    Invariant z m (s.step z i) (H ++ s.serves.toList) (B ++ s.beat.toList)
      (C ++ (s.commits z i).toList) (T ++ (s.takes i).toList) := by
  have stage' : Stage z m (s.step z i) (H ++ s.serves.toList) ((B ++ s.beat.toList).map Prod.fst) := by
    have open_ : s.bus.access.inCard = true → s.noCard = false := noCard_of_inTime inv.bus inv.time
    have shape : (B ++ s.beat.toList).map Prod.fst = seen s (B.map Prod.fst) := by
      rw [seen, List.map_append]
      cases s.beat <;> rfl
    rw [shape]
    exact Stage.step inv.bus open_ inv.phase inv.stage
  exact
    { bus := inv.bus.step _ _ _
      stage := stage'
      phase := inv.phase.step inv.bus
      time := inv.time.step inv.bus inv.stage stage' deadline
      taken := taken_step inv.bus inv.taken
      reads := reads_step inv }

end Runs

section Overdue

variable {z : Sizes} {m : Nat → Word} {s : State} {i : Inputs} {H B : List Access}

theorem noCard_of_timeout (ok : s.bus.Ok) (cycle : s.bus.access.inCard = true) (low : 2 ≤ s.bus.sState)
    (high : s.bus.sState ≤ 6) (ack : s.card.ackN = true) (full : s.nubusTimeout = 32) :
    s.noCard = true := by
  simp [State.noCard, select_of_cycle ok cycle low high, ack, full]

/-- A counting clock of the timer. -/
theorem timeout_step_counts (ok : s.bus.Ok) (cycle : s.bus.access.inCard = true)
    (low : 2 ≤ s.bus.sState) (high : s.bus.sState ≤ 6) (ack : s.card.ackN = true)
    (room : s.nubusTimeout ≠ 32) : (s.step z i).nubusTimeout = s.nubusTimeout + 1 := by
  have asN := ok.asN_low low high
  have select := select_of_cycle ok cycle low high
  change (if s.bus.asN then 0 else if s.pins.select && s.card.ackN && s.nubusTimeout != 32 then _ else _) = _
  simp [asN, select, ack, room]

/-- While a cycle waits with its strobes, a clock shortens its answer by one at most. -/
theorem remaining_shortens (ok : s.bus.Ok) (stage : Stage z m s H B)
    (cycle : s.bus.access.inCard = true) (waits : s.bus.sState = 4) (ack : s.card.ackN = true)
    (strobed : s.card.ackDelay ≠ 0 → s.card.ackLanes ≠ Lanes.none) (more : s.card.ackDelay ≠ 1) :
    (s.step z i).card.ackN = true ∧ s.remaining z ≤ (s.step z i).remaining z + 1 ∧
      ((s.step z i).card.ackDelay ≠ 0 → (s.step z i).card.ackLanes ≠ Lanes.none) := by
  have differs := s.bus.access.strobed
  have port : s.card.ackDelay = 0 → s.card.state ≠ .idle →
      (s.card.state = .cpuReadWait → s.ready i = false) → (s.step z i).card.ackN = true →
      (s.step z i).card.ackDelay = 0 → (s.step z i).card.ackN = true ∧
        s.remaining z ≤ (s.step z i).remaining z + 1 ∧
        ((s.step z i).card.ackDelay ≠ 0 → (s.step z i).card.ackLanes ≠ Lanes.none) := by
    intro delay busy fetched ack' delay'
    have left := clocksLeft_step (z := z) (i := i) busy (by omega) fetched
    refine ⟨ack', ?_, fun some_ => absurd delay' some_⟩
    rw [remaining_of_quiet ack delay, remaining_of_quiet ack' delay']
    omega
  have keyed : s.card.accepting s.pins = false → KeyHeld s →
      (s.step z i).card.ackLanes ≠ Lanes.none := by
    intro quiet key lanes'
    have same : s.card.SameKey (s.step z i).card := Regs.step_key quiet
    exact differs (key.lanes.symm.trans (same.lanes.symm.trans lanes'))
  cases stage with
  | waiting _ delay rom fsm fsm' history early =>
    by_cases idle : s.card.state = .idle
    · have accepts := (accepting_iff ok).2 ⟨idle, by omega, by omega, cycle, ack, delay⟩
      have rest := remaining_accept (z := z) (i := i) ok accepts
      have keyed' := Regs.accept_keyed (z := z) (r := { s.card with portRd := false, portWr := false })
        (p := s.pins) (a := i.answers)
      have ack' := Regs.accept_ackN (z := z) (r := { s.card with portRd := false, portWr := false })
        (p := s.pins) (a := i.answers)
      rw [← card_accept accepts] at keyed' ack'
      have left : s.clocksLeft z = State.accessClocks z s.bus.access := by
        unfold State.clocksLeft
        rw [idle]
      refine ⟨ack'.trans ack, by rw [remaining_of_quiet ack delay]; omega, fun _ lanes' => ?_⟩
      obtain all | ⟨-, -, soon⟩ := lanes_cases ok (by omega) (by omega)
      · exact differs (all.symm.trans (keyed'.lanes.symm.trans lanes'))
      · omega
    · obtain ⟨ack', delay', -⟩ := Regs.step_quiet (z := z) (p := s.pins) (b := s.ready i)
        (d := s.ports.portDin s.card) (a := i.answers) ack delay rom (not_accepting idle) fsm'
      exact port delay idle (fun h => absurd h fsm') ack' delay'
  | blank _ write rom fsm lanes history clock =>
    obtain ⟨-, two, -⟩ | ⟨-, one, -⟩ | ⟨ack', -⟩ := clock
    · exact absurd lanes (strobed (by omega))
    · exact absurd one more
    · rw [ack] at ack'
      cases ack'
  | reading _ _ delay rom fsm read key history clock =>
    have idle : s.card.state ≠ .idle := by rcases fsm with fsm | fsm <;> simp [fsm]
    obtain fsm | fsm := fsm
    · obtain ⟨ack', delay', -⟩ := Regs.step_quiet (z := z) (p := s.pins) (b := s.ready i)
        (d := s.ports.portDin s.card) (a := i.answers) ack delay rom (not_accepting idle)
        (by simp [fsm])
      exact port delay idle (by simp [fsm]) ack' delay'
    · cases ready : s.ready i
      · obtain ⟨ack', delay', -⟩ := Regs.step_wait (z := z) (p := s.pins)
          (d := s.ports.portDin s.card) (a := i.answers) ack delay rom fsm
        have card' : (s.step z i).card =
            s.card.step z s.pins false (s.ports.portDin s.card) i.answers := by rw [← ready]; rfl
        rw [← card'] at ack' delay'
        exact port delay idle (fun _ => ready) ack' delay'
      · obtain ⟨ack', delay', -⟩ := Regs.step_fetched (z := z) (p := s.pins)
          (d := s.ports.portDin s.card) (a := i.answers) ack delay rom fsm
        have card' : (s.step z i).card =
            s.card.step z s.pins true (s.ports.portDin s.card) i.answers := by rw [← ready]; rfl
        rw [← card'] at ack' delay'
        refine ⟨ack', ?_, fun _ => keyed (not_accepting idle) key⟩
        rw [remaining_of_quiet ack delay, State.clocksLeft, fsm]
        simp [State.remaining, ack', delay']
  | counting _ _ delay few rom romDelay fsm fsm' key answered history clock =>
    obtain ⟨ack', delay', -⟩ := Regs.step_count (z := z) (p := s.pins) (b := s.ready i)
      (d := s.ports.portDin s.card) (a := i.answers) ack (by omega) fsm'
    have ack' : (s.step z i).card.ackN = !(s.card.ackDelay == 1) := ack'
    have delay' : (s.step z i).card.ackDelay = s.card.ackDelay - 1 := delay'
    refine ⟨by simp [ack', more], ?_, fun _ => keyed (by simp [Regs.accepting, show s.card.ackDelay ≠ 0 by omega]) key⟩
    simp only [State.remaining, ack, ack', delay', beq_eq_false_iff_ne.2 more]
    rw [if_neg (by simp), if_pos (by omega), if_neg (by simp), if_pos (by omega)]
    omega
  | acked _ ack' delay rom fsm fsm' key answered history clock last =>
    rw [ack] at ack'
    cases ack'
  | late ack' delay rom fsm fsm' history clock => omega

/-- A cycle whose answer does not come within the 32 clocks. -/
structure Overdue (z : Sizes) (s : State) : Prop where
  cycle : s.bus.access.inCard = true
  waits : s.bus.sState = 4
  ack : s.card.ackN = true
  strobed : s.card.ackDelay ≠ 0 → s.card.ackLanes ≠ Lanes.none
  bound : s.nubusTimeout ≤ 32
  late : 32 < s.nubusTimeout + s.remaining z

/-- Such a cycle stays on the bus, and the timer goes on. -/
theorem Overdue.step (ok : s.bus.Ok) (open_ : s.noCard = false) (stage : Stage z m s H B)
    (overdue : Overdue z s) :
    Overdue z (s.step z i) ∧ (s.step z i).nubusTimeout = s.nubusTimeout + 1 := by
  obtain ⟨cycle, waits, ack, strobed, bound, late⟩ := overdue
  have room : s.nubusTimeout ≠ 32 := by
    intro full
    rw [noCard_of_timeout ok cycle (by omega) (by omega) ack full] at open_
    cases open_
  have count := timeout_step_counts (z := z) (i := i) ok cycle (by omega) (by omega) ack room
  have next := bus_state_unacked (z := z) (i := i) ok (fun _ => open_) ack cycle (by omega) (by omega)
  rw [if_pos waits] at next
  have access' := access_step (z := z) (i := i) (s := s) (by omega)
  have more : s.card.ackDelay ≠ 1 := by
    intro one
    have : s.remaining z = 1 := by simp [State.remaining, ack, one]
    omega
  obtain ⟨ack', rest, strobed'⟩ := remaining_shortens (z := z) (i := i) ok stage cycle waits ack strobed more
  exact ⟨⟨by rw [access', cycle], next, ack', strobed', by omega, by omega⟩, count⟩

/-- A stall beyond the deadline. -/
theorem overdue_of_stall (ok : s.bus.Ok) (open_ : s.noCard = false) (stage : Stage z m s H B)
    (bound : s.nubusTimeout ≤ 32) (early : s.bus.sState ≤ 3 → s.nubusTimeout ≤ 1)
    (pending : s.pending = true) (stalled : s.stalled i = true)
    (late : 32 ≤ s.nubusTimeout + s.clocksLeft z) : Overdue z (s.step z i) := by
  simp only [State.pending, Bool.and_eq_true, Bool.not_eq_true', beq_iff_eq] at pending
  obtain ⟨⟨⟨asN, cycle⟩, ack⟩, delay⟩ := pending
  obtain ⟨low, high⟩ := ok.asN_iff.1 asN
  have bounds := clocksLeft_bounds (z := z) (s := s)
  have busy : s.card.state ≠ .idle := by
    intro idle
    simp [State.stalled, idle] at stalled
  have slow : s.ready i = false := by
    cases ready : s.ready i
    · rfl
    · simp [State.stalled, ready] at stalled
  have waits : s.bus.sState = 4 := by
    have : s.bus.sState ≤ 4 := by
      cases stage with
      | waiting _ _ _ _ _ _ early =>
        obtain here | ⟨-, idle, -⟩ := early ⟨low, by omega⟩ cycle
        · exact here
        · exact absurd idle busy
      | blank _ _ _ fsm _ _ _ => exact absurd fsm busy
      | reading _ _ _ _ _ _ _ _ clock => omega
      | counting _ _ few _ _ _ _ _ _ _ _ _ => omega
      | acked _ ack' _ _ _ _ _ _ _ _ _ =>
        rw [ack] at ack'
        cases ack'
      | late _ _ _ _ _ _ clock => omega
    by_contra other
    have := early (by omega)
    omega
  have room : s.nubusTimeout ≠ 32 := by
    intro full
    rw [noCard_of_timeout ok cycle low high ack full] at open_
    cases open_
  have count := timeout_step_counts (z := z) (i := i) ok cycle low high ack room
  have next := bus_state_unacked (z := z) (i := i) ok (fun _ => open_) ack cycle low high
  rw [if_pos waits] at next
  have access' := access_step (z := z) (i := i) (s := s) (by omega)
  obtain ⟨ack', -, strobed'⟩ := remaining_shortens (z := z) (i := i) ok stage cycle waits ack
    (fun some_ => absurd delay some_) (by omega)
  have left := clocksLeft_step (z := z) (i := i) busy (by omega) (fun _ => slow)
  rw [stalled, if_pos rfl] at left
  have delay' : (s.step z i).card.ackDelay = 0 := by
    cases stage with
    | waiting _ _ rom fsm fsm' _ _ =>
      exact (Regs.step_quiet (z := z) ack delay rom (not_accepting busy) fsm').2.1
    | blank _ _ _ fsm _ _ _ => exact absurd fsm busy
    | reading _ _ _ rom fsm _ _ _ _ =>
      obtain fsm | fsm := fsm
      · exact (Regs.step_quiet (z := z) ack delay rom (not_accepting busy) (by simp [fsm])).2.1
      · have card' : (s.step z i).card =
            s.card.step z s.pins false (s.ports.portDin s.card) i.answers := by rw [← slow]; rfl
        rw [card']
        exact (Regs.step_wait ack delay rom fsm).2.1
    | counting _ _ few _ _ _ _ _ _ _ _ _ => omega
    | acked _ ack' _ _ _ _ _ _ _ _ _ =>
      rw [ack] at ack'
      cases ack'
    | late _ _ _ _ _ _ clock => omega
  refine ⟨by rw [access', cycle], next, ack', strobed', by omega, ?_⟩
  rw [remaining_of_quiet ack' delay']
  omega

end Overdue

/-! ## The law -/

section Law

variable {z : Sizes} {s : State} {i : Nat → Inputs}

theorem State.Initial.bus_ok (start : s.Initial) : s.bus.Ok where
  bound := by rw [start.state]; decide
  odd := by rw [start.state]; simp
  even := by rw [start.state]; simp
  asN := by rw [start.asN, start.state]; rfl
  rwN := by rw [start.state]; omega
  lanes := by
    have := s.bus.access.firstStrobe_cases
    have := start.state
    rw [start.lanes, if_neg (by omega)]

theorem State.Initial.stage (start : s.Initial) : Stage z (s.stored z) s [] [] := by
  refine .waiting ?_ ?_ ?_ ?_ ?_ rfl ?_
  · rw [start.card]; rfl
  · rw [start.card]; rfl
  · rw [start.card]; rfl
  · rw [start.card]; decide
  · rw [start.card]; decide
  · intro inside
    have := inside.1
    rw [start.state] at this
    omega

theorem State.Initial.phase (start : s.Initial) : Phase z (s.stored z) s [] [] := by
  refine .idle ?_ ?_ ?_ rfl rfl <;> rw [start.card] <;> rfl

theorem State.Initial.counted (start : s.Initial) : Counted s := by
  have zero := start.state
  have timer := start.timer
  exact ⟨by omega, by omega, by omega⟩

theorem State.Initial.invariant (start : s.Initial) : Invariant z (s.stored z) s [] [] [] [] where
  bus := start.bus_ok
  stage := start.stage
  phase := start.phase
  time := by
    have zero := start.state
    exact ⟨start.counted, by omega, by omega⟩
  taken := by
    rw [if_neg (by rw [start.state]; omega)]
    rfl
  reads := by
    intro l a d r shape
    cases l <;> cases shape

theorem invariant_run (start : s.Initial) (deadline : MeetsDeadline z s i) (t : Nat) :
    Invariant z (s.stored z) (s.after z i t) (served z s i t) (beats z s i t)
      (committed z s i t) (taken z s i t) := by
  induction t with
  | zero => exact start.invariant
  | succ t ih =>
    rw [served, beats, committed, taken, record_succ (Nat.zero_le t), record_succ (Nat.zero_le t),
      record_succ (Nat.zero_le t), record_succ (Nat.zero_le t)]
    exact ih.step (deadline t)

theorem coherent_of_deadline (start : s.Initial) (deadline : MeetsDeadline z s i) :
    Coherent z s i where
  reads := fun t => (invariant_run start deadline t).reads
  commits := by
    intro t accepts
    have inv := invariant_run start deadline t
    obtain ⟨idle, -⟩ := (accepting_iff inv.bus).1 accepts
    cases inv.phase with
    | idle fsm rd wr stored commits => exact ⟨commits, stored⟩
    | read _ _ _ fsm => rcases fsm with fsm | fsm <;> simp [idle] at fsm
    | write _ _ _ _ _ _ writing => cases writing <;> simp_all
  single := by
    intro t between
    have inv := invariant_run start deadline t
    have taken := inv.taken
    rw [if_neg (by omega), List.append_nil] at taken
    refine ⟨?_, taken⟩
    cases inv.stage with
    | waiting _ _ _ _ _ history _ => exact history
    | late _ _ _ _ _ history _ => exact history
    | blank _ _ _ _ _ _ clock => omega
    | reading _ _ _ _ _ _ _ _ clock => omega
    | counting _ _ _ _ _ _ _ _ _ _ _ clock => omega
    | acked _ _ _ _ _ _ _ _ _ clock _ => omega
  withdrawn := by
    intro t first
    cases (invariant_run start deadline t).stage with
    | waiting ack delay _ _ _ _ _ => exact ⟨ack, delay⟩
    | late _ _ _ _ _ _ clock => omega
    | blank _ _ _ _ _ _ clock => omega
    | reading _ _ _ _ _ _ _ _ clock => omega
    | counting _ _ _ _ _ _ _ _ _ _ _ clock => omega
    | acked _ _ _ _ _ _ _ _ _ clock _ => omega
  timer := fun t cycle =>
    noCard_of_inTime (invariant_run start deadline t).bus (invariant_run start deadline t).time cycle

/-- The parts of the invariant that need no deadline. -/
structure Unanswered (z : Sizes) (m : Nat → Word) (s : State) (H : List Access)
    (B : List (Access × Word)) (C : List Commit) : Prop where
  bus : s.bus.Ok
  stage : Stage z m s H (B.map Prod.fst)
  phase : Phase z m s H C
  counted : Counted s

/-- They hold while the timer answers no cycle of the card. -/
theorem unanswered_run (start : s.Initial)
    (open_ : ∀ t, (s.after z i t).bus.access.inCard = true → (s.after z i t).noCard = false) (t : Nat) :
    Unanswered z (s.stored z) (s.after z i t) (served z s i t) (beats z s i t)
      (committed z s i t) := by
  induction t with
  | zero => exact ⟨start.bus_ok, start.stage, start.phase, start.counted⟩
  | succ t ih =>
    rw [served, beats, committed, record_succ (Nat.zero_le t), record_succ (Nat.zero_le t),
      record_succ (Nat.zero_le t)]
    have shape : (beats z s i t ++ (s.after z i t).beat.toList).map Prod.fst =
        seen (s.after z i t) ((beats z s i t).map Prod.fst) := by
      rw [seen, List.map_append]
      cases (s.after z i t).beat <;> rfl
    refine ⟨ih.bus.step _ _ _, ?_, ih.phase.step ih.bus, ih.counted.step ih.bus⟩
    change Stage z _ _ _ ((beats z s i t ++ (s.after z i t).beat.toList).map Prod.fst)
    rw [shape]
    exact Stage.step ih.bus (open_ t) ih.phase ih.stage

/-- An overdue cycle is answered by the timer. -/
theorem not_overdue (start : s.Initial)
    (open_ : ∀ t, (s.after z i t).bus.access.inCard = true → (s.after z i t).noCard = false) (t : Nat) :
    ¬ Overdue z (s.after z i t) := by
  intro overdue
  have goesOn : ∀ k, Overdue z (s.after z i (t + k)) ∧ k ≤ (s.after z i (t + k)).nubusTimeout := by
    intro k
    induction k with
    | zero => exact ⟨overdue, Nat.zero_le _⟩
    | succ k ih =>
      have here := unanswered_run start open_ (t + k)
      obtain ⟨still, count⟩ := Overdue.step (z := z) (i := i (t + k)) here.bus
        (open_ _ ih.1.cycle) here.stage ih.1
      exact ⟨still, by
        change k + 1 ≤ ((s.after z i (t + k)).step z (i (t + k))).nubusTimeout
        omega⟩
  have beyond := goesOn 33
  have := beyond.1.bound
  omega

theorem deadline_of_coherent (start : s.Initial) (coherent : Coherent z s i) :
    MeetsDeadline z s i := by
  intro t pending stalled
  by_contra late
  have here := unanswered_run start coherent.timer t
  have cycle : (s.after z i t).bus.access.inCard = true := by
    simp only [State.pending, Bool.and_eq_true] at pending
    exact pending.1.1.2
  have early : (s.after z i t).bus.sState ≤ 3 → (s.after z i t).nubusTimeout ≤ 1 := by
    intro soon
    simp only [State.pending, Bool.and_eq_true, Bool.not_eq_true'] at pending
    have low := (here.bus.asN_iff.1 pending.1.1.1).1
    have first := here.counted.first
    have second := here.counted.second
    omega
  exact not_overdue start coherent.timer (t + 1)
    (overdue_of_stall here.bus (coherent.timer t cycle) here.stage here.counted.bound early pending
      stalled (by omega))

/-- The card is coherent exactly in the runs in which no port makes it miss the 32 clocks. -/
theorem coherent_iff (z : Sizes) (s : State) (start : s.Initial) (i : Nat → Inputs) :
    Coherent z s i ↔ MeetsDeadline z s i :=
  ⟨deadline_of_coherent start, coherent_of_deadline start⟩

/-- No cycle is on the bus. -/
structure Bus.Rests (b : Bus) : Prop where
  state : b.sState = 0
  asN : b.asN = true

theorem Bus.Rests.step {b : Bus} (rests : b.Rests) {request : Option Access} (quiet : request = none)
    (dtackN : Bool) (din : Word) : (b.step request dtackN din).Rests := by
  rw [quiet]
  exact ⟨by simp [Bus.step, Bus.nextState, rests.state], by simp [Bus.step, rests.state, rests.asN]⟩

/-- The bus rests while the kernel asks for nothing. -/
theorem rests_run {t : Nat} (quiet : ∀ k, (i (t + k)).request = none)
    (rests : (s.after z i t).bus.Rests) (k : Nat) : (s.after z i (t + k)).bus.Rests := by
  induction k with
  | zero => exact rests
  | succ k ih => exact ih.step (quiet k) _ _

end Law

/-! ### A download -/

/-- The sizes of the top level. -/
def installed : Sizes := ⟨157696, 262144, by decide, by decide⟩

/-- A byte, and a word, of the cold tail. -/
def tailByte : Access := ⟨0xFE061A80, false, ⟨true, false⟩, 0x1234, by decide⟩

def tailWord : Access := ⟨0xFE061A90, true, Lanes.both, 0, Lanes.both_ne_none⟩

def powerUp : State where
  card := Regs.reset
  ports := ⟨fun _ => 0, 0, false, fun _ => 0, 0⟩
  bus := ⟨true, 0, tailWord, true, true, Lanes.none, 0⟩
  nubusTimeout := 0

theorem powerUp_initial : powerUp.Initial := ⟨rfl, rfl, rfl, rfl, rfl⟩

def bramWord (rwN : Bool) : Access := ⟨0xFE000100, rwN, Lanes.both, 0x1234, Lanes.both_ne_none⟩

def bramByte : Access := ⟨0xFE000101, false, ⟨false, true⟩, 0x5678, Lanes.low_ne_none⟩

def tailBack : Access := ⟨0xFE061A80, true, Lanes.both, 0, Lanes.both_ne_none⟩

def beyond : Access := ⟨0xFE1FFFF0, true, Lanes.both, 0, Lanes.both_ne_none⟩

/-- Words and bytes written to the BRAM and to the cold tail and read back, and a word that
does not exist, with the clocks at which the kernel asks. -/
def launches : List (Nat × Access) :=
  [(0, bramWord false), (14, bramByte), (28, bramWord true), (40, tailByte), (66, tailBack), (106, beyond)]

/-- Every fourth slot is a staging read's. -/
def mixedRun (t : Nat) : Inputs where
  request := (launches.find? fun l => decide (l.1 ≤ t) && decide (t < l.1 + 2)).map Prod.snd
  dtackN := true
  din := 0
  granted := (t + 12) / 4 % 4 != 2
  ramReady := t % 8 == 7
  answers := ⟨0, 0⟩

theorem mixedRun_ends (k : Nat) : (mixedRun (126 + k)).request = none := by
  have none_ : launches.find? (fun l => decide (l.1 ≤ 126 + k) && decide (126 + k < l.1 + 2)) = none := by
    simp [launches]
    omega
  rw [mixedRun, none_]
  rfl

/-- The clocks at which the cycles of this run end. -/
def mixedBeats : List Nat := [14, 28, 40, 54, 86, 116]

/-- What has to be checked of a clock: no wait is too long, and the cycles end as they should. -/
def mixedOk (t : Nat) (s : State) : Bool :=
  (!s.pending || !s.stalled (mixedRun t) || decide (s.nubusTimeout + s.clocksLeft installed < 32)) &&
    s.beat.isSome == mixedBeats.contains t && (t != 126 || (s.bus.sState == 0 && s.bus.asN))

set_option maxRecDepth 20000 in
theorem mixed_checked :
    passes (fun t s => s.step installed (mixedRun t)) mixedOk 127 0 powerUp = true := by decide +kernel

/-- Each wait of this run fits the timer. -/
theorem coherent_mixed : Coherent installed powerUp mixedRun ∧
    ∀ t ∈ mixedBeats, (powerUp.after installed mixedRun t).beat.isSome = true := by
  have checked : ∀ t < 127, mixedOk t (powerUp.after installed mixedRun t) = true := by
    simpa using of_passes (powerUp.after installed mixedRun) (fun _ => rfl) mixed_checked
  refine ⟨(coherent_iff installed powerUp powerUp_initial _).2 fun t pending stalled => ?_, ?_⟩
  · by_cases soon : t < 127
    · simpa [mixedOk, pending, stalled] using (Bool.and_eq_true_iff.mp (Bool.and_eq_true_iff.mp
        (checked t soon)).1).1
    · obtain ⟨k, rfl⟩ := Nat.exists_eq_add_of_le (show 126 ≤ t by omega)
      have last := (Bool.and_eq_true_iff.mp (checked 126 (by decide))).2
      simp only [bne_self_eq_false, Bool.false_or, Bool.and_eq_true, beq_iff_eq] at last
      have high := (rests_run (z := installed) mixedRun_ends ⟨last.1, last.2⟩ k).asN
      simp [State.pending, high] at pending
  · intro t inside
    have bound : ∀ t ∈ mixedBeats, t < 127 := by decide
    have here := (Bool.and_eq_true_iff.mp (Bool.and_eq_true_iff.mp (checked t (bound t inside))).1).2
    rw [beq_iff_eq, List.contains_iff_mem.mpr inside] at here
    exact here

/-- The CPU writes a byte and reads a word of the cold tail while an image is downloaded:
the download has the SDRAM in one slot of four. -/
def duringDownload (t : Nat) : Inputs where
  request := if t < 4 then some tailByte else some tailWord
  dtackN := true
  din := 0
  granted := (t + 12) / 4 % 4 != 2
  ramReady := (decide (19 ≤ t) && decide (t ≤ 23)) || decide (51 ≤ t)
  answers := ⟨0, 0⟩

set_option maxRecDepth 20000 in
/-- The read waits behind the read, the write and the merge of the byte. -/
theorem coherence_fails : ¬ Coherent installed powerUp duringDownload := by
  intro coherent
  have closed := coherent.timer 49 (by decide)
  revert closed
  decide

end MacIIvi.Card
