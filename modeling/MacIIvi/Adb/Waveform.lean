import MacIIvi.Adb.Framing

/-!
# The waveform of an answer

Source: `rtl/adb_device.sv`, `S_T1T` and `S_SEND`. Every state of the line lasts one
clock more than its timer says.
-/

namespace MacIIvi

namespace Adb

/-- A byte as it is sent, most significant bit first. -/
def byteBits (b : Byte) : List Bool := (List.range 8).map fun i => b.getLsbD (7 - i)

/-- The `n` bits behind the first one. -/
def tailBits (b : Byte) (n : Nat) : List Bool := (List.range n).map fun i => b.getLsbD (6 - i)

theorem byteBits_eq (b : Byte) : byteBits b = b.getLsbD 7 :: tailBits b 7 := by
  simp [byteBits, tailBits, List.range_succ_eq_map]

theorem tailBits_succ (b : Byte) {n : Nat} (few : n < 7) :
    tailBits b (n + 1) = b.getLsbD 6 :: tailBits (b <<< 1) n := by
  rw [tailBits, List.range_succ_eq_map, List.map_cons, List.map_map, tailBits]
  congr 1
  apply List.map_congr_left
  intro i inside
  rw [List.mem_range] at inside
  have index : 6 - i - 1 = 6 - (i + 1) := by omega
  have low : ¬ 6 - i < 1 := by omega
  have width : 6 - i < 8 := by omega
  rw [Function.comp_apply, BitVec.getLsbD_shiftLeft, ← index]
  simp only [low, width, decide_true, decide_false, Bool.not_false, Bool.and_self, Bool.true_and]

/-- The levels of a cell. -/
def cellLevels (b : Bool) : List Bool :=
  List.replicate ((if b then dShort else dLong) + 1) false ++
    List.replicate ((if b then dLong else dShort) + 1) true

/-- What a receiver makes of a cell. -/
theorem heard_cell {p : Phases} (high : p.hlD = true) (b : Bool) (rest : List Bool) :
    ∃ p' : Phases, p'.hlD = true ∧ p'.bit = b ∧
      p.heard (cellLevels b ++ rest) = p.bit :: p'.heard rest := by
  obtain ⟨feed, heard⟩ := Phases.feed_low (n := if b then dShort else dLong) high
  obtain ⟨feed', heard'⟩ := Phases.feed_high (n := if b then dLong else dShort)
    (p := p.feed (List.replicate ((if b then dShort else dLong) + 1) false)) (by rw [feed])
  refine ⟨_, congrArg Phases.hlD feed', ?_, ?_⟩
  · rw [feed', feed]
    cases b <;> simp [Phases.bit, dShort, dLong, durMax]
  · rw [cellLevels, List.append_assoc, Phases.heard_append, heard, Phases.heard_append, heard']
    rfl

/-- What it makes of the cells of some bits and a stop bit. -/
theorem heard_cells {p : Phases} (high : p.hlD = true) (bs : List Bool) :
    p.heard (bs.flatMap cellLevels ++ cellLevels true) = p.bit :: bs := by
  induction bs generalizing p with
  | nil =>
    obtain ⟨p', -, -, heard⟩ := heard_cell high true []
    rw [List.append_nil] at heard
    exact heard
  | cons b bs ih =>
    obtain ⟨p', high', bit, heard⟩ := heard_cell high b (bs.flatMap cellLevels ++ cellLevels true)
    rw [List.flatMap_cons, List.append_assoc, heard, ih high', bit]

namespace Device

variable {s : Device} {ws : List DeviceIn} {l : Line}

/-- The levels that the device drives in these clocks. -/
def driven (s : Device) : List DeviceIn → List Bool
  | [] => []
  | w :: ws => (next w s).line.devLine :: driven (next w s) ws

theorem driven_append (s : Device) (xs ys : List DeviceIn) :
    s.driven (xs ++ ys) = s.driven xs ++ (s.run xs).driven ys := by
  induction xs generalizing s with
  | nil => rfl
  | cons w xs ih =>
    rw [List.cons_append, driven, ih, driven, List.cons_append]
    rfl

theorem split_length {a b : Nat} (length : ws.length = a + b) :
    ∃ xs ys, ws = xs ++ ys ∧ xs.length = a ∧ ys.length = b :=
  ⟨ws.take a, ws.drop a, (List.take_append_drop a ws).symm, by simp [length], by simp [length]⟩

/-- The timer runs. -/
theorem run_hold (go : ∀ w ∈ ws, w.reset = false) (st : s.line.st = .send)
    (length : ws.length ≤ s.line.sendtmr) :
    (s.run ws).line = { s.line with sendtmr := s.line.sendtmr - ws.length } ∧
      s.driven ws = List.replicate ws.length s.line.devLine := by
  induction ws generalizing s with
  | nil => exact ⟨rfl, rfl⟩
  | cons w ws ih =>
    rw [List.length_cons] at length
    have line : (next w s).line = { s.line with sendtmr := s.line.sendtmr - 1 } := by
      rw [next_line (go w List.mem_cons_self) (by simp [stops, st]), Line.step, st]
      simp only [Line.stepSend]
      rw [if_pos (by omega)]
    obtain ⟨run, driven⟩ := ih (s := next w s) (fun v mem => go v (List.mem_cons_of_mem w mem))
      (by rw [line]; exact st) (by rw [line]; simp only; omega)
    constructor
    · change ((next w s).run ws).line = _
      rw [run, line, List.length_cons]
      simp only
      congr 1
      omega
    · rw [Device.driven, driven, line, List.length_cons, List.replicate_succ]

/-- A state of the line from its first clock on. -/
theorem run_turn (go : ∀ w ∈ ws, w.reset = false)
    (turn : ∀ w : DeviceIn, w.reset = false → (next w s).line = l) (st : l.st = .send)
    (length : ws.length = l.sendtmr + 1) :
    (s.run ws).line = { l with sendtmr := 0 } ∧
      s.driven ws = List.replicate (l.sendtmr + 1) l.devLine := by
  cases ws with
  | nil => simp at length
  | cons w ws =>
    rw [List.length_cons] at length
    have line := turn w (go w List.mem_cons_self)
    have goRest : ∀ v ∈ ws, v.reset = false := fun v mem => go v (List.mem_cons_of_mem w mem)
    obtain ⟨run, driven⟩ := run_hold (s := next w s) goRest (by rw [line]; exact st)
      (by rw [line]; omega)
    have rest : ws.length = l.sendtmr := by omega
    rw [line] at run driven
    constructor
    · change ((next w s).run ws).line = _
      rw [run, rest, Nat.sub_self]
    · rw [Device.driven, driven, line, rest, List.replicate_succ]

theorem send_turn (st : s.line.st = .send) :
    ∀ w : DeviceIn, w.reset = false → (next w s).line = s.line.stepSend := by
  intro w go
  rw [next_line go (by simp [stops, st]), Line.step, st]

/-! ### The states of `S_SEND` -/

/-- The bits to send behind the present one. -/
structure Rest (l : Line) (rest : List Bool) : Prop where
  len : l.respLen = 2
  some_ : 1 ≤ l.sendBits
  few : l.sendBits ≤ 8
  bits :
    l.sendByte = 0 ∧ rest = tailBits l.sendSr (l.sendBits - 1) ++ byteBits l.resp1 ∨
      l.sendByte = 1 ∧ rest = tailBits l.sendSr (l.sendBits - 1)

/-- The first clock of a cell of the bit `b` is over. -/
structure Starts (l : Line) (b : Bool) (rest : List Bool) : Prop where
  st : l.st = .send
  stage : l.sendStage = 2
  curBit : l.curBit = b
  low : l.devLine = false
  timer : l.sendtmr = if b then dShort else dLong
  rest : Rest l rest

/-- A cell is over. -/
structure Ends (l : Line) (rest : List Bool) : Prop where
  st : l.st = .send
  timer : l.sendtmr = 0
  stage : l.sendStage = 3
  rest : Rest l rest

/-- The next cell. -/
theorem Ends.next {b : Bool} {rest : List Bool} (ends : Ends l (b :: rest)) :
    Starts l.stepSend b rest := by
  have some_ := ends.rest.some_
  have few := ends.rest.few
  rw [Line.stepSend, if_neg (by simp [ends.timer]), ends.stage]
  simp only
  by_cases last : l.sendBits = 1
  · rw [if_pos last]
    have none_ : tailBits l.sendSr (l.sendBits - 1) = [] := by rw [last]; rfl
    rcases ends.rest.bits with ⟨first, bits⟩ | ⟨-, bits⟩
    · rw [none_, List.nil_append, byteBits_eq, List.cons.injEq] at bits
      obtain ⟨rfl, bits⟩ := bits
      rw [if_pos (by rw [first, ends.rest.len]; decide)]
      refine ⟨ends.st, rfl, rfl, rfl, rfl, ends.rest.len, by simp, by simp, .inr ?_⟩
      exact ⟨by simp [first], bits⟩
    · rw [none_] at bits
      simp at bits
  · rw [if_neg last]
    have count : (l.sendBits + 15) % 16 = l.sendBits - 1 := by omega
    obtain ⟨n, more⟩ : ∃ n, l.sendBits = n + 2 := ⟨l.sendBits - 2, by omega⟩
    have tail : tailBits l.sendSr (l.sendBits - 1) =
        l.sendSr.getLsbD 6 :: tailBits (l.sendSr <<< 1) (l.sendBits - 1 - 1) := by
      rw [more]
      exact tailBits_succ _ (by omega)
    have bits := ends.rest.bits
    rw [tail, List.cons_append, List.cons.injEq, List.cons.injEq] at bits
    have bit : b = l.sendSr.getLsbD 6 := by
      rcases bits with ⟨-, rfl, -⟩ | ⟨-, rfl, -⟩ <;> rfl
    subst bit
    refine ⟨ends.st, rfl, rfl, rfl, rfl, ends.rest.len, ?_, ?_, ?_⟩
    · simp only [count]
      omega
    · simp only [count]
      omega
    · simp only [count]
      rcases bits with ⟨first, -, bits⟩ | ⟨second, -, bits⟩
      · exact .inl ⟨first, bits⟩
      · exact .inr ⟨second, bits⟩

/-- A cell from its second clock on. -/
theorem run_cell {b : Bool} {rest : List Bool} (go : ∀ w ∈ ws, w.reset = false)
    (turn : ∀ w : DeviceIn, w.reset = false → (next w s).line = l) (starts : Starts l b rest)
    (length : ws.length = dShort + dLong + 2) :
    Ends (s.run ws).line rest ∧ s.driven ws = cellLevels b := by
  have split : dShort + dLong + 2 =
      ((if b then dShort else dLong) + 1) + ((if b then dLong else dShort) + 1) := by
    cases b <;> simp [dShort, dLong]
  rw [split] at length
  obtain ⟨xs, ys, rfl, lengthX, lengthY⟩ := split_length length
  have goX : ∀ w ∈ xs, w.reset = false := fun w mem => go w (List.mem_append_left _ mem)
  have goY : ∀ w ∈ ys, w.reset = false := fun w mem => go w (List.mem_append_right _ mem)
  obtain ⟨low, drivenLow⟩ := run_turn goX turn starts.st (by rw [starts.timer, lengthX])
  have st : (s.run xs).line.st = .send := by rw [low]; exact starts.st
  have up : (s.run xs).line.stepSend =
      { l with devLine := true, sendtmr := if b then dLong else dShort, sendStage := 3 } := by
    rw [low, Line.stepSend, if_neg (by simp)]
    simp only [starts.stage, starts.curBit]
  have turn' := send_turn st
  rw [up] at turn'
  obtain ⟨high, drivenHigh⟩ := run_turn goY turn' starts.st lengthY
  rw [run_append, driven_append]
  constructor
  · rw [high]
    exact ⟨starts.st, rfl, rfl,
      ⟨starts.rest.len, starts.rest.some_, starts.rest.few, starts.rest.bits⟩⟩
  · rw [drivenLow, drivenHigh, starts.timer, starts.low]
    rfl

/-- The clocks of a cell. -/
def cellClocks : Nat := dShort + dLong + 2

/-- The cells of the bits that are left. -/
theorem run_cells {bs : List Bool} (go : ∀ w ∈ ws, w.reset = false) (ends : Ends s.line bs)
    (length : ws.length = bs.length * cellClocks) :
    Ends (s.run ws).line [] ∧ s.driven ws = bs.flatMap cellLevels := by
  induction bs generalizing s ws with
  | nil =>
    rw [List.length_nil, Nat.zero_mul, List.length_eq_zero_iff] at length
    subst length
    exact ⟨ends, rfl⟩
  | cons b bs ih =>
    have split : (b :: bs).length * cellClocks = cellClocks + bs.length * cellClocks := by
      rw [List.length_cons, Nat.succ_mul, Nat.add_comm]
    rw [split] at length
    obtain ⟨xs, ys, rfl, lengthX, lengthY⟩ := split_length length
    have goX : ∀ w ∈ xs, w.reset = false := fun w mem => go w (List.mem_append_left _ mem)
    have goY : ∀ w ∈ ys, w.reset = false := fun w mem => go w (List.mem_append_right _ mem)
    obtain ⟨ends', driven⟩ := run_cell goX (send_turn ends.st) ends.next lengthX
    obtain ⟨done, drivenRest⟩ := ih goY ends' lengthY
    rw [run_append, driven_append, driven, drivenRest]
    exact ⟨done, rfl⟩

/-- The stop bit. -/
theorem run_stopBit (go : ∀ w ∈ ws, w.reset = false) (ends : Ends s.line [])
    (length : ws.length = cellClocks) :
    (s.run ws).line.finishes = true ∧ s.driven ws = cellLevels true := by
  have last : s.line.sendByte = 1 ∧ s.line.sendBits = 1 := by
    have some_ := ends.rest.some_
    rcases ends.rest.bits with ⟨-, bits⟩ | ⟨second, bits⟩
    · have length := congrArg List.length bits
      simp [byteBits] at length
    · have length := congrArg List.length bits
      simp only [List.length_nil, tailBits, List.length_map, List.length_range] at length
      exact ⟨second, by omega⟩
  obtain ⟨second, one⟩ := last
  obtain ⟨xs, ys, rfl, lengthX, lengthY⟩ :=
    split_length (a := dShort + 1) (b := dLong + 1) (length.trans (by decide))
  have low : s.line.stepSend =
      { s.line with devLine := false, sendtmr := dShort, sendStage := 4 } := by
    rw [Line.stepSend, if_neg (by simp [ends.timer]), ends.stage]
    simp only
    rw [if_pos one, if_neg (by rw [second, ends.rest.len]; decide)]
  have turn := send_turn ends.st
  rw [low] at turn
  obtain ⟨runLow, drivenLow⟩ := run_turn (fun w mem => go w (List.mem_append_left ys mem)) turn
    ends.st lengthX
  have st : (s.run xs).line.st = .send := by rw [runLow]; exact ends.st
  have up : (s.run xs).line.stepSend =
      { s.line with devLine := true, sendtmr := dLong, sendStage := 5 } := by
    rw [runLow, Line.stepSend, if_neg (by simp)]
    rfl
  have turn' := send_turn st
  rw [up] at turn'
  obtain ⟨runHigh, drivenHigh⟩ := run_turn (fun w mem => go w (List.mem_append_right xs mem)) turn'
    ends.st lengthY
  rw [run_append, driven_append, drivenLow, drivenHigh, runHigh]
  exact ⟨by simp [Line.finishes, ends.st], rfl⟩

/-- The start bit, and the first clock of the first cell. -/
theorem run_startBit (go : ∀ w ∈ ws, w.reset = false) (st : s.line.st = .t1t)
    (timer : s.line.sendtmr = 0) (two : s.line.respLen = 2) (length : ws.length = cellClocks) :
    (s.run ws).line.st = .send ∧
      Starts (s.run ws).line.stepSend (s.line.resp0.getLsbD 7)
        (tailBits s.line.resp0 7 ++ byteBits s.line.resp1) ∧
      s.driven ws = cellLevels true := by
  obtain ⟨xs, ys, rfl, lengthX, lengthY⟩ :=
    split_length (a := dShort + 1) (b := dLong + 1) (length.trans (by decide))
  have turn : ∀ w : DeviceIn, w.reset = false → (next w s).line =
      { s.line with
        st := .send, sendStage := 0, sendByte := 0, sendSr := s.line.resp0, sendBits := 8
        devLine := false, sendtmr := dShort } := by
    intro w go
    rw [next_line go (by simp [stops, st]), Line.step, st]
    simp only [Line.stepT1t]
    rw [if_neg (by simp [timer]), if_neg (by simp [two])]
  obtain ⟨runLow, drivenLow⟩ := run_turn (fun w mem => go w (List.mem_append_left ys mem)) turn
    rfl lengthX
  have sends : (s.run xs).line.st = .send := by rw [runLow]
  have turn' := send_turn sends
  rw [runLow, Line.stepSend, if_neg (by simp)] at turn'
  obtain ⟨runHigh, drivenHigh⟩ := run_turn (fun w mem => go w (List.mem_append_right xs mem)) turn'
    rfl lengthY
  rw [run_append, driven_append, drivenLow, drivenHigh, runHigh]
  refine ⟨rfl, ?_, rfl⟩
  rw [Line.stepSend, if_neg (by simp)]
  exact ⟨rfl, rfl, rfl, rfl, rfl, two, by simp, by simp, .inl ⟨rfl, rfl⟩⟩

/-- The clocks of an answer: the start bit, sixteen cells and the stop bit. -/
def answerClocks : Nat := 18 * cellClocks

/-- The levels of an answer. -/
theorem answer_driven (go : ∀ w ∈ ws, w.reset = false) (st : s.line.st = .t1t)
    (timer : s.line.sendtmr = 0) (two : s.line.respLen = 2) (length : ws.length = answerClocks) :
    (s.run ws).line.finishes = true ∧
      s.driven ws =
        cellLevels true ++ (byteBits s.line.resp0 ++ byteBits s.line.resp1).flatMap cellLevels ++
          cellLevels true := by
  obtain ⟨start, rest, rfl, lengthStart, lengthRest⟩ :=
    split_length (a := cellClocks) (b := cellClocks + (15 * cellClocks + cellClocks))
      (length.trans (by decide))
  obtain ⟨first, more, rfl, lengthFirst, lengthMore⟩ := split_length lengthRest
  obtain ⟨cells, stop, rfl, lengthCells, lengthStop⟩ := split_length lengthMore
  simp only [List.mem_append] at go
  have goStart : ∀ w ∈ start, w.reset = false := fun w mem => go w (.inl mem)
  have goFirst : ∀ w ∈ first, w.reset = false := fun w mem => go w (.inr (.inl mem))
  have goCells : ∀ w ∈ cells, w.reset = false := fun w mem => go w (.inr (.inr (.inl mem)))
  have goStop : ∀ w ∈ stop, w.reset = false := fun w mem => go w (.inr (.inr (.inr mem)))
  obtain ⟨sends, starts, drivenStart⟩ := run_startBit goStart st timer two lengthStart
  obtain ⟨ends, drivenFirst⟩ := run_cell goFirst (send_turn sends) starts lengthFirst
  have fifteen : (tailBits s.line.resp0 7 ++ byteBits s.line.resp1).length = 15 := by
    simp [tailBits, byteBits]
  obtain ⟨last, drivenCells⟩ := run_cells goCells ends (by rw [fifteen]; exact lengthCells)
  obtain ⟨finishes, drivenStop⟩ := run_stopBit goStop last lengthStop
  simp only [run_append, driven_append, drivenStart, drivenFirst, drivenCells, drivenStop]
  refine ⟨finishes, ?_⟩
  rw [byteBits_eq s.line.resp0]
  simp [List.append_assoc]

/-- An answer is read as its two bytes. -/
theorem answer_heard {p : Phases} (go : ∀ w ∈ ws, w.reset = false) (st : s.line.st = .t1t)
    (timer : s.line.sendtmr = 0) (two : s.line.respLen = 2) (length : ws.length = answerClocks)
    (high : p.hlD = true) :
    p.heard (s.driven ws) =
      p.bit :: true :: (byteBits s.line.resp0 ++ byteBits s.line.resp1) := by
  rw [(answer_driven go st timer two length).2, List.append_assoc]
  obtain ⟨p', high', bit, heard⟩ := heard_cell high true
    ((byteBits s.line.resp0 ++ byteBits s.line.resp1).flatMap cellLevels ++ cellLevels true)
  rw [heard, heard_cells high', bit]

end Device

end Adb

end MacIIvi
