import MacIIvi.Adb.Device

/-!
# The answer to a Talk

From the stop bit of a Talk to the stop bit of the answer the line state machine
passes `S_SRQ`, `S_T1T` and `S_SEND`; the command and the answer stay.
-/

namespace MacIIvi

namespace Adb

namespace Line

variable {p : Phases} {host : Bool} {l : Line}

/-- An answer is on its way. -/
def answering (l : Line) : Bool :=
  match l.st with
  | .srq | .t1t | .send => true
  | _ => false

/-- The last cell of an answer is over. -/
def finishes (l : Line) : Bool := l.st == .send && l.sendtmr == 0 && decide (5 ≤ l.sendStage)

/-- The bytes of the answer on its way. -/
def answered (l : Line) : List Byte :=
  if l.answering && l.respLen == 2 then [l.resp0, l.resp1] else []

/-- Talk to register 0 of the keyboard. -/
def kbdTalk (l : Line) : Bool := l.cmdType == 3 && l.cmdReg == 0 && l.cmdAddr == l.kbdAddr

/-- Talk to register 0 of the mouse. -/
def mouseTalk (l : Line) : Bool :=
  l.cmdType == 3 && l.cmdReg == 0 && l.cmdAddr != l.kbdAddr && l.cmdAddr == l.mouseAddr

/-- The registers of a command and its answer. -/
structure Same (l l' : Line) : Prop where
  command : l'.command = l.command
  kbdAddr : l'.kbdAddr = l.kbdAddr
  mouseAddr : l'.mouseAddr = l.mouseAddr
  respLen : l'.respLen = l.respLen
  resp0 : l'.resp0 = l.resp0
  resp1 : l'.resp1 = l.resp1

theorem Same.kbdTalk {l' : Line} (same : l.Same l') : l'.kbdTalk = l.kbdTalk := by
  simp only [Line.kbdTalk, cmdType, cmdReg, cmdAddr, same.command, same.kbdAddr]

theorem Same.mouseTalk {l' : Line} (same : l.Same l') : l'.mouseTalk = l.mouseTalk := by
  simp only [Line.mouseTalk, cmdType, cmdReg, cmdAddr, same.command, same.kbdAddr,
    same.mouseAddr]

/-- One clock of `S_SEND`. -/
theorem stepSend_spec (send : l.st = .send) :
    l.Same l.stepSend ∧ l.stepSend.st = if l.finishes then .idle else .send := by
  have finish : l.finishes = (l.sendtmr == 0 && decide (5 ≤ l.sendStage)) := by
    simp [finishes, send]
  rw [finish]
  by_cases zero : l.sendtmr = 0
  · rw [stepSend, if_neg (by simp [zero]), zero]
    rcases stage : l.sendStage with _ | _ | _ | _ | _ | n <;> simp only
    case succ.succ.succ.zero =>
      split
      · split <;> exact ⟨⟨rfl, rfl, rfl, rfl, rfl, rfl⟩, send⟩
      · exact ⟨⟨rfl, rfl, rfl, rfl, rfl, rfl⟩, send⟩
    case succ.succ.succ.succ.succ =>
      exact ⟨⟨rfl, rfl, rfl, rfl, rfl, rfl⟩, by simp⟩
    all_goals exact ⟨⟨rfl, rfl, rfl, rfl, rfl, rfl⟩, by simp [send]⟩
  · rw [stepSend, if_pos zero]
    exact ⟨⟨rfl, rfl, rfl, rfl, rfl, rfl⟩, by simp [zero, send]⟩

variable (p host) in
/-- One clock of an answer. -/
theorem step_answering (on : l.answering = true) :
    l.Same (l.step p host) ∧ (l.step p host).answered = if l.finishes then [] else l.answered := by
  cases st : l.st
  case srq =>
    have off : l.finishes = false := by simp [finishes, st]
    simp only [step, st, stepSrq, off]
    split
    · exact ⟨⟨rfl, rfl, rfl, rfl, rfl, rfl⟩, by simp [answered, answering, st]⟩
    · exact ⟨⟨rfl, rfl, rfl, rfl, rfl, rfl⟩, by simp [answered, answering, st]⟩
  case t1t =>
    have off : l.finishes = false := by simp [finishes, st]
    simp only [step, st, stepT1t, off]
    split
    · exact ⟨⟨rfl, rfl, rfl, rfl, rfl, rfl⟩, by simp [answered, answering, st]⟩
    split
    · rename_i empty
      exact ⟨⟨rfl, rfl, rfl, rfl, rfl, rfl⟩, by simp [answered, answering, empty]⟩
    · exact ⟨⟨rfl, rfl, rfl, rfl, rfl, rfl⟩, by simp [answered, answering, st]⟩
  case send =>
    obtain ⟨same, next⟩ := stepSend_spec st
    have step : l.step p host = l.stepSend := by simp only [step, st]
    rw [step]
    refine ⟨same, ?_⟩
    simp only [answered, answering, next, same.respLen, same.resp0, same.resp1, st]
    cases l.finishes <;> simp
  all_goals simp [answering, st] at on

variable (p host) in
/-- No other state starts an answer by itself. -/
theorem step_quiet (off : l.answering = false) : (l.step p host).answering = false := by
  cases st : l.st
  case srq | t1t | send => simp [answering, st] at off
  all_goals
    simp only [step, st, resync, stepLrxDone]
    repeat' split
    all_goals simp_all [answering]

theorem answered_quiet (off : l.answering = false) : l.answered = [] := by
  simp [answered, off]

end Line

namespace Device

variable {w : DeviceIn} {s : Device}

theorem low_seven (b : Bool) (code : BitVec 7) :
    (BitVec.ofBool b ++ code).extractLsb' 0 7 = code := by
  rw [BitVec.extractLsb'_append_eq_of_add_le (by omega)]
  simp

theorem stop_frame (s n : Device) :
    (s.stop n).key = n.key ∧ (s.stop n).msync = n.msync ∧ (s.stop n).kbdFifo = n.kbdFifo ∧
      (s.stop n).kbdFifoWr = n.kbdFifoWr ∧ (s.stop n).phase = n.phase := by
  unfold stop over_ talk talkKbd talkMouse
  repeat' split
  all_goals exact ⟨rfl, rfl, rfl, rfl, rfl⟩

theorem next_run (run : w.reset = false) :
    next w s = if s.stops w then s.stop (s.free w) else s.free w := by
  simp [next, run]

/-- The registers that a stop bit leaves alone. -/
theorem next_frame (run : w.reset = false) :
    (next w s).key = s.key.next w ∧ (next w s).msync = s.msync.next w ∧
      (next w s).kbdFifo = (s.free w).kbdFifo ∧ (next w s).kbdFifoWr = (s.free w).kbdFifoWr ∧
      (next w s).phase = s.phase.next w.hostLine := by
  rw [next_run run]
  split
  · exact stop_frame s (s.free w)
  · exact ⟨rfl, rfl, rfl, rfl, rfl⟩

theorem stops_line (stop : s.stops w = true) : (s.free w).line = s.line := by
  simp only [stops, Bool.and_eq_true, beq_iff_eq] at stop
  simp [free, Line.step, stop.1]

theorem stops_quiet (stop : s.stops w = true) :
    s.line.answering = false ∧ s.line.finishes = false := by
  simp only [stops, Bool.and_eq_true, beq_iff_eq] at stop
  simp [Line.answering, Line.finishes, stop.1]

/-- What the end of a command leaves of the answer. -/
theorem over_line (s n : Device) :
    (s.over_ n).line.answered =
        (if n.line.respLen == 2 then [n.line.resp0, n.line.resp1] else []) ∧
      n.line.Same (s.over_ n).line ∧ (s.over_ n).kbdFifoRd = n.kbdFifoRd ∧
      (s.over_ n).mouse = n.mouse ∧ (s.over_ n).mouseInit = n.mouseInit := by
  unfold over_
  split <;> exact ⟨rfl, ⟨rfl, rfl, rfl, rfl, rfl, rfl⟩, rfl, rfl, rfl⟩

/-- An answer on its way stays until it is over; a stop bit may start one. `flight` is
what a device puts into its answers. -/
theorem next_answer {α : Type} (flight : Line → List α) (run : w.reset = false)
    (empty : ∀ l : Line, l.answered = [] → flight l = [])
    (same : ∀ l l' : Line, l.Same l' → l'.answered = l.answered → flight l' = flight l) :
    (if s.line.finishes then flight s.line else []) ++ flight (next w s).line =
      flight s.line ++ if s.stops w then flight (s.stop (s.free w)).line else [] := by
  rw [next_run run]
  cases stop : s.stops w with
  | true =>
    obtain ⟨quiet, more⟩ := stops_quiet stop
    rw [if_pos rfl, if_pos rfl, more, if_neg Bool.false_ne_true,
      empty s.line (Line.answered_quiet quiet)]
  | false =>
    rw [if_neg Bool.false_ne_true, if_neg Bool.false_ne_true, List.append_nil]
    change _ ++ flight (s.line.step s.phase w.hostLine) = _
    cases on : s.line.answering with
    | true =>
      obtain ⟨kept, answered⟩ := Line.step_answering s.phase w.hostLine on
      cases finish : s.line.finishes with
      | true =>
        rw [finish, if_pos rfl] at answered
        rw [if_pos rfl, empty _ answered, List.append_nil]
      | false =>
        rw [finish, if_neg Bool.false_ne_true] at answered
        rw [if_neg Bool.false_ne_true, same _ _ kept answered, List.nil_append]
    | false =>
      have off' := Line.answered_quiet (Line.step_quiet s.phase w.hostLine on)
      rw [empty _ off', empty _ (Line.answered_quiet on)]
      split <;> rfl

end Device

end Adb

end MacIIvi
