import MacIIvi.Card.Acknowledge

/-!
# The commits of the card

The state machine between two accepts, the two ports, and the array of words that the
writes leave.
-/

namespace MacIIvi.Card

open Clocked

/-! ## The array of words -/

section Contents

variable (z : Sizes) (m : Nat → Word) (l : List Access) (a : Access)

theorem contents_append : contents z m (l ++ [a]) = a.store z (contents z m l) := by
  simp [contents]

theorem commitsOf_append : commitsOf z m (l ++ [a]) = commitsOf z m l ++
    (if a.writes z then
      [⟨decide (z.vramWords ≤ a.word), a.word, a.store z (contents z m l) a.word⟩] else []) := by
  induction l generalizing m with
  | nil => simp [commitsOf, contents]
  | cons b l ih =>
    rw [List.cons_append, commitsOf, ih, commitsOf, List.append_assoc]
    rfl

variable {z a}

theorem Access.store_of_not_writes (reads : a.writes z = false) : a.store z m = m := by
  simp [store, reads]

theorem Access.store_of_writes (writes : a.writes z = true) :
    a.store z m = Function.update m a.word (a.store z m a.word) := by
  simp [store, writes]

theorem contents_of_read (reads : a.writes z = false) :
    contents z m (l ++ [a]) = contents z m l := by
  rw [contents_append, Access.store_of_not_writes _ reads]

theorem commitsOf_of_read (reads : a.writes z = false) :
    commitsOf z m (l ++ [a]) = commitsOf z m l := by
  rw [commitsOf_append, reads]
  simp

theorem Access.writes_of_read (read : a.rwN = true) : a.writes z = false := by
  simp [writes, read]

end Contents

@[simp] theorem Lanes.merge_both (new old : Word) : Lanes.both.merge new old = new := by
  have halves : ∀ w : Word, w.extractLsb' 8 8 ++ w.extractLsb' 0 8 = w := by
    intro w
    ext k bound
    simp only [BitVec.getElem_append, BitVec.getElem_extractLsb']
    split
    · simp [BitVec.getLsbD_eq_getElem bound]
    · next beyond =>
      have place : 8 + (k - 8) = k := by omega
      simp [place, BitVec.getLsbD_eq_getElem bound]
  exact halves new

/-! ## The ports -/

/-- The port registers point to the word of an access. -/
structure Regs.Target (z : Sizes) (r : Regs) (a : Access) : Prop where
  addr : r.vramAddr = (VRAM_BASE + a.word) % 2 ^ 25
  ext : r.extSel = decide (z.vramWords ≤ a.word)
  exists_ : a.word < z.totalWords

namespace Regs.Target

variable {z : Sizes} {r : Regs} {a : Access} (target : r.Target z a)

include target

theorem vramAddr_eq : r.vramAddr = VRAM_BASE + a.word := by
  have fits := z.fits
  have inside := target.exists_
  rw [target.addr]
  exact Nat.mod_eq_of_lt (by unfold VRAM_BASE; omega)

theorem idx (bram : r.extSel = false) : Ports.idx z r = a.word := by
  have low : a.word < z.vramWords := by
    have := target.ext.symm.trans bram
    simpa using this
  have small : Nat.clog 2 z.vramWords ≤ 20 :=
    Nat.clog_le_of_le_pow (z.nested.trans z.fits)
  have fits : z.vramWords ≤ 2 ^ Nat.clog 2 z.vramWords := Nat.le_pow_clog (by decide) _
  obtain ⟨k, multiple⟩ : 2 ^ Nat.clog 2 z.vramWords ∣ VRAM_BASE :=
    (pow_dvd_pow 2 small).trans ⟨3, rfl⟩
  rw [Ports.idx, target.vramAddr_eq, multiple, Nat.mul_add_mod]
  exact Nat.mod_eq_of_lt (by omega)

theorem extWord : Ports.extWord r = a.word := by
  have fits := z.fits
  have inside := target.exists_
  rw [Ports.extWord, target.vramAddr_eq]
  unfold VRAM_BASE
  omega

end Regs.Target

section Stored

variable {z : Sizes} {s : State} {i : Inputs}

/-- No port writes. -/
theorem stored_step (reads : s.card.portWr = false) : (s.step z i).stored z = s.stored z := by
  funext w
  simp [State.stored, State.step, Ports.step, reads]

/-- A clock of a write. In the cold tail the SDRAM has to be free. -/
theorem stored_write {a : Access} (target : s.card.Target z a) (writes : s.card.portWr = true) :
    (s.step z i).stored z =
      if s.card.extSel && !i.granted then s.stored z
      else Function.update (s.stored z) a.word s.card.vramDout := by
  have place := target.ext
  funext w
  cases sel : s.card.extSel
  · have low : a.word < z.vramWords := by
      rw [sel] at place
      simpa using place.symm
    have idx := target.idx sel
    by_cases here : w = a.word
    · subst here
      simp [State.stored, State.step, Ports.step, writes, sel, idx, low]
    · simp [State.stored, State.step, Ports.step, writes, sel, idx, Function.update_of_ne here]
  · have high : ¬ a.word < z.vramWords := by
      rw [sel] at place
      simpa using place.symm
    have word := target.extWord
    cases granted : i.granted
    · simp [State.stored, State.step, Ports.step, writes, sel, granted]
    · by_cases here : w = a.word
      · subst here
        simp [State.stored, State.step, Ports.step, writes, sel, granted, word, high]
      · simp [State.stored, State.step, Ports.step, writes, sel, granted, word,
          Function.update_of_ne here]

end Stored

/-! ## The state machine between two accepts -/

section Phase

variable (z : Sizes) (m : Nat → Word) (s : State)

/-- A write on its way to its word, over the words `c`. -/
inductive Writing (a : Access) (c : Nat → Word) : Prop
  | full (fsm : s.card.state = .cpuWrite) (rd : s.card.portRd = false) (wr : s.card.portWr = false)
      (data : s.card.vramDout = a.store z c a.word) (stored : s.stored z = c)
  | rmwRead (fsm : s.card.state = .cpuRmwRead) (rd : s.card.portRd = false)
      (wr : s.card.portWr = false) (data : s.card.cpuWriteData = a.data)
      (lanes : s.card.cpuWriteStrobes = a.lanes) (stored : s.stored z = c)
  | rmwReadWait (fsm : s.card.state = .cpuRmwReadWait) (rd : s.card.portRd = true)
      (wr : s.card.portWr = false) (data : s.card.cpuWriteData = a.data)
      (lanes : s.card.cpuWriteStrobes = a.lanes) (stored : s.stored z = c)
      (out : s.card.extSel = false → s.ports.ready = true → s.ports.dout = c a.word)
  | rmwWrite (fsm : s.card.state = .cpuRmwWrite) (rd : s.card.portRd = false)
      (wr : s.card.portWr = false) (data : s.card.cpuWriteMerged = a.store z c a.word)
      (stored : s.stored z = c)
  | wait (fsm : s.card.state = .cpuWriteWait) (rd : s.card.portRd = false)
      (wr : s.card.portWr = true) (data : s.card.vramDout = a.store z c a.word)
      (stored : s.stored z = c ∨ s.stored z = a.store z c)
      (bram : s.card.extSel = false → s.ports.ready = true → s.stored z = a.store z c)
      (tail : s.card.extSel = true → s.ports.wcnt ≠ 0 → s.stored z = a.store z c)

/-- The state machine against the accesses `H` taken so far and the commits `C`. -/
inductive Phase (H : List Access) (C : List Commit) : Prop
  | idle (fsm : s.card.state = .idle) (rd : s.card.portRd = false) (wr : s.card.portWr = false)
      (stored : s.stored z = contents z m H) (commits : C = commitsOf z m H)
  | read (l : List Access) (a : Access) (history : H = l ++ [a])
      (fsm : s.card.state = .cpuRead ∨ s.card.state = .cpuReadWait)
      (target : s.card.Target z a) (rd : s.card.portRd = (s.card.state == .cpuReadWait))
      (wr : s.card.portWr = false) (stored : s.stored z = contents z m H)
      (commits : C = commitsOf z m H)
      (out : s.card.state = .cpuReadWait → s.card.extSel = false → s.ports.ready = true →
        s.ports.dout = contents z m H a.word)
  | write (l : List Access) (a : Access) (history : H = l ++ [a]) (writes : a.writes z = true)
      (target : s.card.Target z a) (commits : C = commitsOf z m l)
      (writing : Writing z s a (contents z m l))

end Phase

/-! ### One clock of it -/

namespace Regs

variable {z : Sizes} {r : Regs} {p : Pins} {b : Bool} {d : Word} {a : Answers}

/-- The registers that the ports see, and what is latched for a write. -/
structure SamePort (r r' : Regs) : Prop where
  addr : r'.vramAddr = r.vramAddr
  ext : r'.extSel = r.extSel
  data : r'.cpuWriteData = r.cpuWriteData
  lanes : r'.cpuWriteStrobes = r.cpuWriteStrobes

theorem step_samePort (waits : r.accepting p = false) : SamePort r (r.step z p b d a) := by
  have held : ∀ c, SamePort r c → SamePort r (r.latchRom a c) := by
    intro c same
    unfold latchRom
    split
    · exact ⟨same.addr, same.ext, same.data, same.lanes⟩
    · exact same
  apply held
  cases fsm : r.state <;> cases b <;> simp only [advance, fsm, Regs.idle, waits] <;>
    (repeat' split) <;> first | contradiction | exact ⟨rfl, rfl, rfl, rfl⟩

@[simp] theorem latchRom_portRd (c : Regs) : (r.latchRom a c).portRd = c.portRd := by
  unfold latchRom; split <;> rfl

@[simp] theorem latchRom_portWr (c : Regs) : (r.latchRom a c).portWr = c.portWr := by
  unfold latchRom; split <;> rfl

@[simp] theorem latchRom_vramDout (c : Regs) : (r.latchRom a c).vramDout = c.vramDout := by
  unfold latchRom; split <;> rfl

@[simp] theorem latchRom_cpuWriteMerged (c : Regs) :
    (r.latchRom a c).cpuWriteMerged = c.cpuWriteMerged := by
  unfold latchRom; split <;> rfl

@[simp] theorem countdown_portRd : (r.countdown p).portRd = r.portRd := rfl
@[simp] theorem countdown_portWr : (r.countdown p).portWr = r.portWr := rfl
@[simp] theorem countdown_vramDout : (r.countdown p).vramDout = r.vramDout := rfl
@[simp] theorem countdown_state : (r.countdown p).state = r.state := rfl

end Regs

theorem Regs.Target.step {z : Sizes} {r r' : Regs} {a : Access} (target : r.Target z a)
    (same : r.SamePort r') : r'.Target z a :=
  ⟨by rw [same.addr, target.addr], by rw [same.ext, target.ext], target.exists_⟩

section PhaseStep

variable {z : Sizes} {m : Nat → Word} {s : State} {i : Inputs}

theorem not_accepting (busy : s.card.state ≠ .idle) : s.card.accepting s.pins = false := by
  simp [Regs.accepting, busy]

theorem serves_of_not_accepting (waits : s.card.accepting s.pins = false) : s.serves = none := by
  simp [State.serves, waits]

theorem commits_of_not_waiting (other : s.card.state ≠ .cpuWriteWait) : s.commits z i = none := by
  simp [State.commits, other]

/-- What a clock without an accept does to the state, the strobes and the data. -/
theorem step_fsm (waits : s.card.accepting s.pins = false) :
    (s.step z i).card.state =
      (match s.card.state with
      | .idle => .idle
      | .cpuWrite => .cpuWriteWait
      | .cpuWriteWait => if s.ready i then .idle else .cpuWriteWait
      | .cpuRead => .cpuReadWait
      | .cpuReadWait => if s.ready i then .idle else .cpuReadWait
      | .cpuRmwRead => .cpuRmwReadWait
      | .cpuRmwReadWait => if s.ready i then .cpuRmwWrite else .cpuRmwReadWait
      | .cpuRmwWrite => .cpuWriteWait) ∧
    (s.step z i).card.portRd =
      (match s.card.state with
      | .idle => false
      | .cpuRead | .cpuRmwRead => true
      | .cpuReadWait | .cpuRmwReadWait => s.card.portRd && !s.ready i
      | _ => s.card.portRd) ∧
    (s.step z i).card.portWr =
      (match s.card.state with
      | .idle => false
      | .cpuWrite | .cpuRmwWrite => true
      | .cpuWriteWait => s.card.portWr && !s.ready i
      | _ => s.card.portWr) ∧
    (s.step z i).card.vramDout =
      (if s.card.state = .cpuRmwWrite then s.card.cpuWriteMerged else s.card.vramDout) := by
  change (s.card.step _ _ _ _ _).state = _ ∧ (s.card.step _ _ _ _ _).portRd = _ ∧
    (s.card.step _ _ _ _ _).portWr = _ ∧ (s.card.step _ _ _ _ _).vramDout = _
  unfold Regs.step
  rw [Regs.latchRom_state, Regs.latchRom_portRd, Regs.latchRom_portWr, Regs.latchRom_vramDout]
  cases fsm : s.card.state <;> cases ready : s.ready i <;>
    simp [Regs.advance, fsm, Regs.idle, waits] <;> (repeat' split) <;> simp_all

/-- The word merged for a partial write. -/
theorem step_merged (fsm : s.card.state = .cpuRmwReadWait) (ready : s.ready i = true) :
    (s.step z i).card.cpuWriteMerged =
      s.card.cpuWriteStrobes.merge s.card.cpuWriteData (s.ports.portDin s.card) := by
  change (s.card.step _ _ _ _ _).cpuWriteMerged = _
  unfold Regs.step
  rw [Regs.latchRom_cpuWriteMerged]
  simp [Regs.advance, fsm, ready]

theorem ready_step (rd : s.card.portRd = false) (wr : s.card.portWr = false) :
    (s.step z i).ports.ready = false ∧ (s.step z i).ports.wcnt = 0 := by
  simp [State.step, Ports.step, rd, wr]

/-- The word that a port returns. -/
theorem portDin_of_ready {a : Access} {c : Nat → Word} (target : s.card.Target z a)
    (stored : s.stored z = c) (ready : s.ready i = true)
    (out : s.card.extSel = false → s.ports.ready = true → s.ports.dout = c a.word) :
    s.ports.portDin s.card = c a.word := by
  unfold Ports.portDin
  cases sel : s.card.extSel
  · rw [if_neg (by simp)]
    apply out sel
    simpa [State.ready, Ports.portReady, sel] using ready
  · have high : ¬ a.word < z.vramWords := by
      have place := target.ext
      rw [sel] at place
      simpa using place.symm
    rw [if_pos rfl, target.extWord, ← stored]
    simp [State.stored, high]

theorem dout_step {a : Access} {c : Nat → Word} (target : s.card.Target z a)
    (stored : s.stored z = c) (wr : s.card.portWr = false) (sel : s.card.extSel = false) :
    (s.step z i).ports.dout = c a.word := by
  have low : a.word < z.vramWords := by
    have place := target.ext
    rw [sel] at place
    simpa using place.symm
  rw [← stored]
  simp [State.step, Ports.step, wr, target.idx sel, State.stored, low]

/-- A write either stays on its way or reaches its word. -/
theorem Writing.step {a : Access} {c : Nat → Word} (writes : a.writes z = true)
    (target : s.card.Target z a) (writing : Writing z s a c) :
    (Writing z (s.step z i) a c ∧ s.commits z i = none) ∨
    ((s.step z i).card.state = .idle ∧ (s.step z i).card.portRd = false ∧
      (s.step z i).card.portWr = false ∧ (s.step z i).stored z = a.store z c ∧
      s.commits z i = some ⟨decide (z.vramWords ≤ a.word), a.word, a.store z c a.word⟩) := by
  have busy : s.card.state ≠ .idle := by
    cases writing <;> simp [*]
  have waits := not_accepting busy
  have same : Regs.SamePort s.card (s.step z i).card := Regs.step_samePort waits
  obtain ⟨state', rd', wr', dout'⟩ := step_fsm (z := z) (i := i) waits
  cases writing with
  | full fsm rd wr data stored =>
    obtain ⟨ready', wcnt'⟩ := ready_step (z := z) (i := i) rd wr
    simp only [fsm, reduceCtorEq, if_false] at state' rd' wr' dout'
    refine .inl ⟨.wait state' (rd'.trans rd) wr' (dout'.trans data)
      (.inl ((stored_step wr).trans stored)) ?_ ?_, commits_of_not_waiting (by simp [fsm])⟩
    · intro _ ready
      rw [ready'] at ready
      cases ready
    · intro _ count
      exact absurd wcnt' count
  | rmwRead fsm rd wr data lanes stored =>
    obtain ⟨ready', -⟩ := ready_step (z := z) (i := i) rd wr
    simp only [fsm] at state' rd' wr'
    refine .inl ⟨.rmwReadWait state' rd' (wr'.trans wr) (same.data.trans data)
      (same.lanes.trans lanes) ((stored_step wr).trans stored) ?_, commits_of_not_waiting (by simp [fsm])⟩
    intro _ ready
    rw [ready'] at ready
    cases ready
  | rmwReadWait fsm rd wr data lanes stored out =>
    simp only [fsm, rd, Bool.true_and] at state' rd' wr'
    have kept := (stored_step (z := z) (i := i) wr).trans stored
    refine .inl ⟨?_, commits_of_not_waiting (by simp [fsm])⟩
    cases ready : s.ready i
    · rw [ready] at state' rd'
      refine .rmwReadWait state' rd' (wr'.trans wr) (same.data.trans data) (same.lanes.trans lanes)
        kept ?_
      intro sel _
      exact dout_step target stored wr (same.ext.symm.trans sel)
    · rw [ready] at state' rd'
      have din := portDin_of_ready target stored ready out
      have merged := step_merged (z := z) fsm ready
      rw [data, lanes, din] at merged
      refine .rmwWrite state' rd' (wr'.trans wr) ?_ kept
      rw [merged]
      simp [Access.store, writes]
  | rmwWrite fsm rd wr data stored =>
    obtain ⟨ready', wcnt'⟩ := ready_step (z := z) (i := i) rd wr
    simp only [fsm, if_true] at state' rd' wr' dout'
    refine .inl ⟨.wait state' (rd'.trans rd) wr' (dout'.trans data)
      (.inl ((stored_step wr).trans stored)) ?_ ?_, commits_of_not_waiting (by simp [fsm])⟩
    · intro _ ready
      rw [ready'] at ready
      cases ready
    · intro _ count
      exact absurd wcnt' count
  | wait fsm rd wr data stored bram tail =>
    have write := stored_write (i := i) target wr
    have whole := Access.store_of_writes c writes
    have over_ : ∀ x, x = c ∨ x = a.store z c →
        Function.update x a.word s.card.vramDout = a.store z c := by
      rintro x (rfl | rfl)
      · rw [data]
        exact whole.symm
      · rw [data, Function.update_eq_self]
    simp only [fsm, wr, Bool.true_and, reduceCtorEq, if_false] at state' rd' wr' dout'
    cases ready : s.ready i
    · rw [ready] at state' wr'
      refine .inl ⟨.wait state' (rd'.trans rd) wr' (dout'.trans data) ?_ ?_ ?_, ?_⟩
      · rw [write]
        split
        · exact stored
        · exact .inr (over_ _ stored)
      · intro sel _
        have here : s.card.extSel = false := same.ext.symm.trans sel
        rw [write, here]
        exact over_ _ stored
      · intro sel count
        have here : s.card.extSel = true := same.ext.symm.trans sel
        rw [write, here]
        cases granted : i.granted
        · simp only [Bool.not_false, Bool.and_self, if_true]
          apply tail here
          simpa [State.step, Ports.step, wr, here, granted] using count
        · exact over_ _ stored
      · simp [State.commits, ready]
    · rw [ready] at state' wr'
      have done : s.stored z = a.store z c := by
        cases sel : s.card.extSel
        · exact bram sel (by simpa [State.ready, Ports.portReady, sel] using ready)
        · apply tail sel
          have full : s.ports.wcnt = 14 := by
            simpa [State.ready, Ports.portReady, sel, rd] using ready
          omega
      refine .inr ⟨state', rd'.trans rd, wr', ?_, ?_⟩
      · rw [write]
        split
        · exact done
        · exact over_ _ (.inr done)
      · have word : (if s.card.extSel then Ports.extWord s.card else Ports.idx z s.card) = a.word := by
          cases sel : s.card.extSel
          · exact target.idx sel
          · exact target.extWord
        rw [State.commits, if_pos ⟨fsm, ready⟩, word, target.ext, data]

end PhaseStep

section PhaseStep

variable {z : Sizes} {m : Nat → Word} {s : State} {i : Inputs}

theorem Access.isVram_eq (a : Access) (cycle : a.inCard = true) : a.isVram = addrIsVram a.addr := by
  simp [isVram, cycle]

/-- The card after an accept. -/
theorem card_accept (accepts : s.card.accepting s.pins = true) :
    (s.step z i).card = { s.card with portRd := false, portWr := false }.accept z s.pins i.answers :=
  Regs.step_accept accepts

theorem serves_of_accepting (accepts : s.card.accepting s.pins = true)
    (strobed : s.bus.lanes ≠ Lanes.none) : s.serves = some s.bus.access := by
  simp [State.serves, accepts, strobed]

theorem serves_of_blank (lanes : s.bus.lanes = Lanes.none) : s.serves = none := by
  simp [State.serves, lanes]

/-- The lanes at an accept: those of the cycle, or none before the strobes of a write. -/
theorem lanes_cases (ok : s.bus.Ok) (low : 2 ≤ s.bus.sState) (high : s.bus.sState ≤ 6) :
    s.bus.lanes = s.bus.access.lanes ∨
      (s.bus.lanes = Lanes.none ∧ s.bus.access.rwN = false ∧ s.bus.sState ≤ 3) := by
  obtain ⟨read, first⟩ | ⟨write, first⟩ := s.bus.access.firstStrobe_cases
  · exact .inl (lanes_of_strobe ok (by omega) high)
  · by_cases strobed : s.bus.access.firstStrobe ≤ s.bus.sState
    · exact .inl (lanes_of_strobe ok strobed high)
    · exact .inr ⟨lanes_of_early ok (by omega), write, by omega⟩

theorem Phase.step {H : List Access} {C : List Commit} (ok : s.bus.Ok) (phase : Phase z m s H C) :
    Phase z m (s.step z i) (H ++ s.serves.toList) (C ++ (s.commits z i).toList) := by
  cases phase with
  | idle fsm rd wr stored commits =>
    have kept := (stored_step (z := z) (i := i) wr).trans stored
    rw [commits_of_not_waiting (by simp [fsm]), Option.toList_none, List.append_nil]
    cases accepts : s.card.accepting s.pins
    · obtain ⟨state', rd', wr', -⟩ := step_fsm (z := z) (i := i) accepts
      rw [fsm] at state' rd' wr'
      rw [serves_of_not_accepting accepts, Option.toList_none, List.append_nil]
      exact .idle state' rd' wr' kept commits
    · obtain ⟨-, low, high, cycle, -, -⟩ := (accepting_iff ok).1 accepts
      have card' := card_accept (z := z) (i := i) accepts
      have rwN : s.pins.rwN = s.bus.access.rwN := ok.rwN low (by omega)
      obtain shown | ⟨blank, write, -⟩ := lanes_cases ok low high
      · have strobed : s.bus.lanes ≠ Lanes.none := by
          rw [shown]
          exact s.bus.access.strobed
        rw [serves_of_accepting accepts strobed, Option.toList_some]
        cases port : addrIsVram s.bus.access.addr && decide (s.bus.access.word < z.totalWords)
        · have reads : s.bus.access.writes z = false := by
            rw [Access.writes, Access.isVram_eq _ cycle]
            revert port
            cases addrIsVram s.bus.access.addr <;> cases s.bus.access.rwN <;> simp
          obtain ⟨state', -, -, rd', wr'⟩ := Regs.accept_now (z := z)
            (r := { s.card with portRd := false, portWr := false }) (p := s.pins) (a := i.answers) fsm port
          rw [← card'] at state' rd' wr'
          exact .idle state' rd' wr' (kept.trans (contents_of_read m H reads).symm)
            (commits.trans (commitsOf_of_read m H reads).symm)
        · obtain ⟨vram, inside⟩ := Bool.and_eq_true_iff.1 port
          have inside : s.bus.access.word < z.totalWords := of_decide_eq_true inside
          cases dir : s.bus.access.rwN
          · have writes : s.bus.access.writes z = true := by
              simp [Access.writes, Access.isVram_eq _ cycle, vram, dir, inside]
            obtain ⟨way, -, -, rd', wr', addr', ext'⟩ := Regs.accept_write (z := z)
              (r := { s.card with portRd := false, portWr := false }) (p := s.pins) (a := i.answers)
              (rwN.trans dir) vram inside strobed
            rw [← card'] at way rd' wr' addr' ext'
            refine .write H _ rfl writes ⟨addr', ext', inside⟩ commits ?_
            obtain ⟨state', full, data'⟩ | ⟨state', data', lanes'⟩ := way
            · refine .full state' rd' wr' ?_ kept
              have both : s.bus.access.lanes = Lanes.both := shown.symm.trans full
              rw [data', Access.store, if_pos writes, Function.update_self, both, Lanes.merge_both]
              rfl
            · exact .rmwRead state' rd' wr' data' (lanes'.trans shown) kept
          · have reads := Access.writes_of_read (z := z) dir
            obtain ⟨state', -, -, rd', wr', addr', ext'⟩ := Regs.accept_read (z := z)
              (r := { s.card with portRd := false, portWr := false }) (p := s.pins) (a := i.answers)
              (rwN.trans dir) vram inside
            rw [← card'] at state' rd' wr' addr' ext'
            refine .read H _ rfl (.inl state') ⟨addr', ext', inside⟩ ?_ wr'
              (kept.trans (contents_of_read m H reads).symm)
              (commits.trans (commitsOf_of_read m H reads).symm) ?_
            · rw [rd', state']
              rfl
            · intro waits
              rw [state'] at waits
              cases waits
      · obtain ⟨state', -, -, rd', wr'⟩ := Regs.accept_blank (z := z)
          (r := { s.card with portRd := false, portWr := false }) (p := s.pins) (a := i.answers)
          fsm (rwN.trans write) blank
        rw [← card'] at state' rd' wr'
        rw [serves_of_blank blank, Option.toList_none, List.append_nil]
        exact .idle state' rd' wr' kept commits
  | read l a history fsm target rd wr stored commits out =>
    have busy : s.card.state ≠ .idle := by
      rcases fsm with fsm | fsm <;> simp [fsm]
    have waits := not_accepting busy
    have same : Regs.SamePort s.card (s.step z i).card := Regs.step_samePort waits
    have kept := (stored_step (z := z) (i := i) wr).trans stored
    have quiet : s.commits z i = none := commits_of_not_waiting (by rcases fsm with fsm | fsm <;> simp [fsm])
    obtain ⟨state', rd', wr', -⟩ := step_fsm (z := z) (i := i) waits
    rw [serves_of_not_accepting waits, quiet]
    simp only [Option.toList_none, List.append_nil]
    rcases fsm with fsm | fsm
    · simp only [fsm] at state' rd' wr' rd
      obtain ⟨ready', -⟩ := ready_step (z := z) (i := i) rd wr
      refine .read l a history (.inr state') (target.step same) ?_ (wr'.trans wr) kept commits ?_
      · rw [rd', state']
        rfl
      · intro _ _ ready
        rw [ready'] at ready
        cases ready
    · simp only [fsm, beq_self_eq_true] at state' rd' wr' rd
      rw [rd, Bool.true_and] at rd'
      cases ready : s.ready i
      · rw [ready] at state' rd'
        refine .read l a history (.inr state') (target.step same) ?_ (wr'.trans wr) kept commits ?_
        · rw [rd', state']
          rfl
        · intro _ sel _
          exact dout_step target stored wr (same.ext.symm.trans sel)
      · rw [ready] at state' rd'
        exact .idle state' rd' (wr'.trans wr) kept commits
  | write l a history writes target commits writing =>
    have busy : s.card.state ≠ .idle := by
      cases writing <;> simp [*]
    have waits := not_accepting busy
    have same : Regs.SamePort s.card (s.step z i).card := Regs.step_samePort waits
    rw [serves_of_not_accepting waits, Option.toList_none, List.append_nil]
    obtain ⟨writing', quiet⟩ | ⟨state', rd', wr', stored', commit⟩ := writing.step (i := i) writes target
    · rw [quiet, Option.toList_none, List.append_nil]
      exact .write l a history writes (target.step same) commits writing'
    · rw [commit, Option.toList_some]
      refine .idle state' rd' wr' ?_ ?_
      · rw [stored', history, contents_append]
      · rw [history, commitsOf_append, if_pos writes, commits]

end PhaseStep

end MacIIvi.Card
