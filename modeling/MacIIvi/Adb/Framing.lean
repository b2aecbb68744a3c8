import MacIIvi.Adb.Answers

/-!
# Cells on the line

Source: `rtl/adb_device.sv`, the duration counters, `S_IDLE` to `S_TSTOP`, `S_SEND`.
A cell is a low and a high phase; its bit is one if the high phase is the longer
one. The counters saturate at `2 ^ 18 - 1`.
-/

namespace MacIIvi

namespace Adb

/-- The largest duration. -/
def durMax : Nat := 2 ^ 18 - 1

namespace Phases

variable {p : Phases} {n m : Nat}

/-- Clocks without an edge. -/
def feed (p : Phases) (levels : List Bool) : Phases := levels.foldl (fun p h => p.next h) p

/-- The bits that the falls of the line sample. -/
def heard (p : Phases) : List Bool → List Bool
  | [] => []
  | h :: hs => (if p.fall h then [p.bit] else []) ++ heard (p.next h) hs

theorem heard_append (p : Phases) (xs ys : List Bool) :
    p.heard (xs ++ ys) = p.heard xs ++ (p.feed xs).heard ys := by
  induction xs generalizing p with
  | nil => rfl
  | cons h xs ih =>
    rw [List.cons_append, heard, ih, heard, List.append_assoc]
    rfl

/-- A clock without an edge. -/
theorem next_still {host : Bool} (same : p.hlD = host) (low : p.dur ≤ durMax) :
    p.next host = { p with dur := min (p.dur + 1) durMax } := by
  subst same
  have fall : p.fall p.hlD = false := by cases h : p.hlD <;> simp [Phases.fall, h]
  have rise : p.rise p.hlD = false := by cases h : p.hlD <;> simp [Phases.rise, h]
  simp only [next, fall, rise, Bool.or_self, Bool.false_eq_true, if_false, durMax] at low ⊢
  congr 1
  split <;> omega

/-- The rest of a phase. -/
theorem feed_still (host : Bool) (same : p.hlD = host) (low : p.dur ≤ durMax) :
    p.feed (List.replicate n host) = { p with dur := min (p.dur + n) durMax } ∧
      p.heard (List.replicate n host) = [] := by
  have none_ {p : Phases} (same : p.hlD = host) : p.fall host = false := by
    subst same
    cases h : p.hlD <;> simp [Phases.fall, h]
  induction n generalizing p with
  | zero =>
    refine ⟨?_, rfl⟩
    rw [Nat.add_zero, Nat.min_eq_left low]
    rfl
  | succ n ih =>
    have next := next_still same low
    obtain ⟨feed, heard⟩ := ih (p := { p with dur := min (p.dur + 1) durMax }) same
      (Nat.min_le_right _ _)
    constructor
    · rw [List.replicate_succ]
      change (p.next host).feed (List.replicate n host) = _
      rw [next, feed]
      simp only [durMax]
      congr 1
      omega
    · rw [List.replicate_succ, Phases.heard, none_ same, next, heard]
      rfl

/-- A low phase. -/
theorem feed_low (high : p.hlD = true) :
    p.feed (List.replicate (n + 1) false) =
        { hlD := false, dur := min n durMax, lowDur := p.lowDur } ∧
      p.heard (List.replicate (n + 1) false) = [p.bit] := by
  have fall : p.fall false = true := by simp [Phases.fall, high]
  have next : p.next false = { hlD := false, dur := 0, lowDur := p.lowDur } := by
    simp [Phases.next, fall, Phases.rise]
  obtain ⟨feed, heard⟩ := feed_still (p := { hlD := false, dur := 0, lowDur := p.lowDur })
    (n := n) false rfl (Nat.zero_le _)
  rw [List.replicate_succ]
  constructor
  · change (p.next false).feed (List.replicate n false) = _
    rw [next, feed, Nat.zero_add]
  · rw [Phases.heard, fall, next, heard]
    rfl

/-- A high phase. -/
theorem feed_high (low : p.hlD = false) :
    p.feed (List.replicate (n + 1) true) =
        { hlD := true, dur := min n durMax, lowDur := p.dur } ∧
      p.heard (List.replicate (n + 1) true) = [] := by
  have rise : p.rise true = true := by simp [Phases.rise, low]
  have fall : p.fall true = false := by simp [Phases.fall]
  have next : p.next true = { hlD := true, dur := 0, lowDur := p.dur } := by
    simp [Phases.next, rise]
  obtain ⟨feed, heard⟩ := feed_still (p := { hlD := true, dur := 0, lowDur := p.dur })
    (n := n) true rfl (Nat.zero_le _)
  rw [List.replicate_succ]
  constructor
  · change (p.next true).feed (List.replicate n true) = _
    rw [next, feed, Nat.zero_add]
  · rw [Phases.heard, fall, next, heard]
    rfl

end Phases

/-- The bit that is seen in a cell. -/
def seen (low high : Nat) : Bool := decide (min (low - 1) durMax < min (high - 1) durMax)

/-- It is the bit that is sent, unless a one has a low phase of `2 ^ 18` clocks or more. -/
theorem seen_eq_iff {low high : Nat} (some_ : 0 < low) :
    seen low high = decide (low < high) ↔ (low < high → low < 2 ^ 18) := by
  rw [seen, decide_eq_decide, durMax]
  omega

/-- The inputs of a phase of the host's line. -/
structure Level (host : Bool) (ws : List DeviceIn) : Prop where
  some_ : 0 < ws.length
  run : ∀ w ∈ ws, w.reset = false
  line : ∀ w ∈ ws, w.hostLine = host

namespace Line

/-- The states that only an edge of the line changes. -/
def still (l : Line) : Bool :=
  match l.st with
  | .idle | .attn | .bits | .tstop | .lrxWait | .lrxStart | .lrxBits => true
  | _ => false

/-- The states that look for an attention. -/
def listens (l : Line) : Bool :=
  match l.st with
  | .idle | .lrxWait | .lrxStart | .lrxBits => true
  | _ => false

/-- The receiver's registers are the same. -/
structure Keeps (l l' : Line) : Prop where
  st : l'.st = l.st
  command : l'.command = l.command
  bitcnt : l'.bitcnt = l.bitcnt

variable {p : Phases} {host : Bool} {l : Line}

theorem step_still (still : l.still = true) (fall : p.fall host = false) (rise : p.rise host = false) :
    l.Keeps (l.step p host) := by
  have quiet : p.attention host = false := by simp [Phases.attention, rise]
  cases st : l.st
  case t1t | send | lrxDone | srq => simp [Line.still, st] at still
  all_goals
    simp only [step, st, fall, quiet, Bool.false_eq_true, if_false]
    exact ⟨by simp [st], rfl, rfl⟩

end Line

namespace Device

variable {s : Device} {w : DeviceIn} {ws : List DeviceIn} {host : Bool}

/-- The device after these clocks. -/
def run (s : Device) (ws : List DeviceIn) : Device := ws.foldl (fun s w => next w s) s

theorem run_append (s : Device) (xs ys : List DeviceIn) : s.run (xs ++ ys) = (s.run xs).run ys :=
  List.foldl_append

theorem next_line (go : w.reset = false) (stop : s.stops w = false) :
    (next w s).line = s.line.step s.phase w.hostLine := by
  rw [next_run go, stop]
  rfl

theorem next_phase (go : w.reset = false) : (next w s).phase = s.phase.next w.hostLine :=
  (next_frame go).2.2.2.2

theorem run_phase (go : ∀ w ∈ ws, w.reset = false) :
    (s.run ws).phase = s.phase.feed (ws.map DeviceIn.hostLine) := by
  induction ws generalizing s with
  | nil => rfl
  | cons w ws ih =>
    have tail := ih (s := next w s) fun v mem => go v (List.mem_cons_of_mem w mem)
    rw [next_phase (go w List.mem_cons_self)] at tail
    exact tail

theorem level_map (level : ∀ w ∈ ws, w.hostLine = host) :
    ws.map DeviceIn.hostLine = List.replicate ws.length host := by
  rw [List.eq_replicate_iff]
  refine ⟨List.length_map _, fun b mem => ?_⟩
  obtain ⟨w, inside, rfl⟩ := List.mem_map.mp mem
  exact level w inside

/-- Clocks without an edge. -/
theorem run_still (go : ∀ w ∈ ws, w.reset = false) (level : ∀ w ∈ ws, w.hostLine = host)
    (same : s.phase.hlD = host) (still : s.line.still = true) : s.line.Keeps (s.run ws).line := by
  induction ws generalizing s with
  | nil => exact ⟨rfl, rfl, rfl⟩
  | cons w ws ih =>
    have go' := go w List.mem_cons_self
    have here := level w List.mem_cons_self
    have fall : s.phase.fall w.hostLine = false := by
      rw [here, ← same]
      cases h : s.phase.hlD <;> simp [Phases.fall, h]
    have rise : s.phase.rise w.hostLine = false := by
      rw [here, ← same]
      cases h : s.phase.hlD <;> simp [Phases.rise, h]
    have line := next_line (s := s) go' (by simp [stops, rise])
    have keeps := Line.step_still still fall rise
    rw [← line] at keeps
    have same' : (next w s).phase.hlD = host := by
      rw [next_phase go', ← here]
      rfl
    have still' : (next w s).line.still = true := by
      rw [← still]
      simp only [Line.still, keeps.st]
    have rest := ih (s := next w s) (fun v mem => go v (List.mem_cons_of_mem w mem))
      (fun v mem => level v (List.mem_cons_of_mem w mem)) same' still'
    exact ⟨rest.st.trans keeps.st, rest.command.trans keeps.command,
      rest.bitcnt.trans keeps.bitcnt⟩

/-- A low phase: the fall counts. -/
theorem run_low (low : Level false ws) (high : s.phase.hlD = true)
    (still : (s.line.step s.phase false).still = true) :
    (s.line.step s.phase false).Keeps (s.run ws).line ∧
      (s.run ws).phase = { hlD := false, dur := min (ws.length - 1) durMax, lowDur := s.phase.lowDur } := by
  obtain ⟨n, length⟩ : ∃ n, ws.length = n + 1 := ⟨ws.length - 1, by have := low.some_; omega⟩
  constructor
  · cases ws with
    | nil => simp at length
    | cons w ws =>
      have here := low.line w List.mem_cons_self
      have go := low.run w List.mem_cons_self
      have line := next_line (s := s) go (by simp [stops, Phases.rise, high])
      rw [here] at line
      rw [← line] at still ⊢
      refine run_still (fun v mem => low.run v (List.mem_cons_of_mem w mem))
        (fun v mem => low.line v (List.mem_cons_of_mem w mem)) ?_ still
      rw [next_phase go]
      exact here
  · rw [run_phase low.run, level_map low.line, length, (Phases.feed_low high).1]
    rfl

/-- A high phase: the rise counts. -/
theorem run_high (up : Level true ws) (low : s.phase.hlD = false) (noStop : s.line.st ≠ .tstop)
    (still : (s.line.step s.phase true).still = true) :
    (s.line.step s.phase true).Keeps (s.run ws).line ∧
      (s.run ws).phase = { hlD := true, dur := min (ws.length - 1) durMax, lowDur := s.phase.dur } := by
  obtain ⟨n, length⟩ : ∃ n, ws.length = n + 1 := ⟨ws.length - 1, by have := up.some_; omega⟩
  constructor
  · cases ws with
    | nil => simp at length
    | cons w ws =>
      have here := up.line w List.mem_cons_self
      have go := up.run w List.mem_cons_self
      have line := next_line (s := s) go (by simp [stops, noStop])
      rw [here] at line
      rw [← line] at still ⊢
      refine run_still (fun v mem => up.run v (List.mem_cons_of_mem w mem))
        (fun v mem => up.line v (List.mem_cons_of_mem w mem)) ?_ still
      rw [next_phase go]
      exact here
  · rw [run_phase up.run, level_map up.line, length, (Phases.feed_high low).1]
    rfl

/-! ### A command -/

/-- Any low phase of more than one clock leaves a listening device listening. -/
theorem run_low_listens (low : Level false ws) (two : 2 ≤ ws.length) (high : s.phase.hlD = true)
    (listens : s.line.listens = true) :
    (s.run ws).line.listens = true ∧ (s.run ws).phase.hlD = false ∧
      (s.run ws).phase.dur = min (ws.length - 1) durMax := by
  by_cases last : s.line.st = .lrxBits ∧ s.line.bitcnt = 15
  · -- the sixteenth data bit: one clock more to `S_IDLE`
    obtain ⟨st, fifteen⟩ := last
    obtain ⟨n, length⟩ : ∃ n, ws.length = n + 1 := ⟨ws.length - 1, by omega⟩
    have phase : (s.run ws).phase = _ := run_phase low.run
    rw [level_map low.line, length, (Phases.feed_low high).1] at phase
    rw [phase]
    refine ⟨?_, rfl, by rw [length, Nat.add_sub_cancel]⟩
    rcases ws with _ | ⟨w, _ | ⟨v, ws⟩⟩
    · simp at two
    · simp at two
    · have goW := low.run w (by simp)
      have goV := low.run v (by simp)
      have lineW := next_line (s := s) goW (by simp [stops, st])
      have hostW := low.line w (by simp)
      have phaseW := next_phase (s := s) goW
      have done : (next w s).line.st = .lrxDone := by
        rw [lineW]
        simp [Line.step, st, fifteen, Phases.attention, Phases.rise, Phases.fall, high, hostW]
      have lineV := next_line (s := next w s) goV (by simp [stops, done])
      have idle : (next v (next w s)).line.st = .idle := by
        rw [lineV]
        simp [Line.step, done, Line.stepLrxDone]
      have still : (next v (next w s)).line.still = true := by simp [Line.still, idle]
      have goRest : ∀ x ∈ ws, x.reset = false := fun x mem => low.run x (by simp [mem])
      have lowRest : ∀ x ∈ ws, x.hostLine = false := fun x mem => low.line x (by simp [mem])
      have keeps := run_still (s := next v (next w s)) goRest lowRest
        (by rw [next_phase goV]; exact low.line v (by simp)) still
      change ((next v (next w s)).run ws).line.listens = true
      simp [Line.listens, keeps.st, idle]
  · have step : (s.line.step s.phase false).listens = true := by
      have fall : s.phase.fall false = true := by simp [Phases.fall, high]
      have quiet : s.phase.attention false = false := by simp [Phases.attention, Phases.rise]
      cases st : s.line.st
      case idle | lrxWait | lrxStart => simp [Line.step, st, fall, quiet, Line.listens]
      case lrxBits =>
        have more : s.line.bitcnt ≠ 15 := fun h => last ⟨st, h⟩
        simp [Line.step, st, fall, quiet, Line.listens, more]
      all_goals simp [Line.listens, st] at listens
    have still : (s.line.step s.phase false).still = true := by
      cases st : (s.line.step s.phase false).st <;> simp_all [Line.still, Line.listens]
    obtain ⟨keeps, phase⟩ := run_low low high still
    rw [phase]
    refine ⟨?_, rfl, rfl⟩
    simp only [Line.listens, keeps.st]
    exact step

/-- An attention and the gap behind it. -/
theorem run_attention {gap : List DeviceIn} (low : Level false ws) (long : tAttn + 2 ≤ ws.length)
    (up : Level true gap) (high : s.phase.hlD = true) (listens : s.line.listens = true) :
    (s.run (ws ++ gap)).line.st = .attn ∧ (s.run (ws ++ gap)).phase.hlD = true := by
  have three : tAttn = 3000 := rfl
  obtain ⟨listens', hlD, dur⟩ := run_low_listens low (by omega) high listens
  rw [run_append]
  have attention : (s.run ws).phase.attention true = true := by
    simp only [Phases.attention, Phases.rise, hlD, dur, Bool.not_false, Bool.true_and,
      decide_eq_true_eq, durMax]
    omega
  have step : ((s.run ws).line.step (s.run ws).phase true).st = .attn := by
    cases st : (s.run ws).line.st
    case idle | lrxWait | lrxStart | lrxBits => simp [Line.step, st, attention, Line.resync]
    all_goals simp [Line.listens, st] at listens'
  have noStop : (s.run ws).line.st ≠ .tstop := by
    intro st
    simp [Line.listens, st] at listens'
  obtain ⟨keeps, phase⟩ := run_high up hlD noStop (by simp [Line.still, step])
  exact ⟨keeps.st.trans step, by rw [phase]⟩

end Device

/-- The phases of a cell. -/
structure Cell where
  lows : List DeviceIn
  highs : List DeviceIn

namespace Cell

def samples (c : Cell) : List DeviceIn := c.lows ++ c.highs

/-- The bit of a cell: a one has the longer high phase. -/
def bit (c : Cell) : Bool := decide (c.lows.length < c.highs.length)

def seen (c : Cell) : Bool := Adb.seen c.lows.length c.highs.length

structure Ok (c : Cell) : Prop where
  lows : Level false c.lows
  highs : Level true c.highs

end Cell

/-- Bits as a number, first bit first. -/
def value (bs : List Bool) : Nat := bs.foldl (fun a b => 2 * a + b.toNat) 0

theorem value_concat (bs : List Bool) (b : Bool) : value (bs ++ [b]) = 2 * value bs + b.toNat := by
  simp [value]

theorem value_lt (bs : List Bool) : value bs < 2 ^ bs.length := by
  induction bs using List.reverseRecOn with
  | nil => decide
  | append_singleton bs b ih =>
    rw [value_concat, List.length_append, List.length_singleton, Nat.pow_succ]
    cases b <;> simp <;> omega

namespace Device

variable {s : Device}

/-- The bits `bs` are in the command, and the next fall brings `b`. -/
structure Reading (s : Device) (bs : List Bool) (b : Bool) : Prop where
  st : s.line.st = .bits
  high : s.phase.hlD = true
  bitcnt : s.line.bitcnt = bs.length
  command : s.line.command = value bs
  bit : s.phase.bit = b

/-- The first cell. -/
theorem reading_first {c : Cell} (ok : c.Ok) (st : s.line.st = .attn) (high : s.phase.hlD = true) :
    Reading (s.run c.samples) [] c.seen := by
  have fall : s.phase.fall false = true := by simp [Phases.fall, high]
  have step : s.line.step s.phase false = { s.line with st := .bits, command := 0, bitcnt := 0 } := by
    simp [Line.step, st, fall]
  obtain ⟨keeps, phase⟩ := run_low ok.lows high (by rw [step]; rfl)
  rw [step] at keeps
  rw [Cell.samples, run_append]
  have bits : (s.run c.lows).line.st = .bits := keeps.st
  have up : (s.run c.lows).line.step (s.run c.lows).phase true = (s.run c.lows).line := by
    simp [Line.step, bits, Phases.fall]
  obtain ⟨keeps', phase'⟩ := run_high ok.highs (by rw [phase]) (by simp [bits])
    (by rw [up]; simp [Line.still, bits])
  rw [up] at keeps'
  refine ⟨keeps'.st.trans bits, by rw [phase'], ?_, ?_, ?_⟩
  · exact keeps'.bitcnt.trans keeps.bitcnt
  · exact keeps'.command.trans keeps.command
  · rw [phase', phase]
    rfl

/-- The fall of a further cell. -/
theorem reading_fall {bs : List Bool} {b : Bool} (reading : Reading s bs b) (few : bs.length ≤ 7) :
    s.line.step s.phase false =
      { s.line with
        command := value (bs ++ [b]), bitcnt := bs.length + 1
        st := if bs.length = 7 then .tstop else .bits } := by
  have fall : s.phase.fall false = true := by simp [Phases.fall, reading.high]
  have small := value_lt (bs ++ [b])
  have bound : 2 ^ (bs ++ [b]).length ≤ 2 ^ 8 := by
    apply Nat.pow_le_pow_right (by decide)
    rw [List.length_append, List.length_singleton]
    omega
  have mod : (2 * value bs + b.toNat) % 256 = value (bs ++ [b]) := by
    rw [value_concat] at small ⊢
    exact Nat.mod_eq_of_lt (by omega)
  have count : (bs.length + 1) % 16 = bs.length + 1 := Nat.mod_eq_of_lt (by omega)
  simp only [Line.step, reading.st, fall, if_true, reading.command, reading.bit, reading.bitcnt,
    mod, count]

theorem Reading.cell {bs : List Bool} {b : Bool} {c : Cell} (reading : Reading s bs b) (ok : c.Ok)
    (few : bs.length < 7) : Reading (s.run c.samples) (bs ++ [b]) c.seen := by
  have step := reading_fall reading (by omega)
  have more : bs.length ≠ 7 := by omega
  rw [if_neg more] at step
  obtain ⟨keeps, phase⟩ := run_low ok.lows reading.high (by rw [step]; rfl)
  rw [step] at keeps
  rw [Cell.samples, run_append]
  have bits : (s.run c.lows).line.st = .bits := keeps.st
  have up : (s.run c.lows).line.step (s.run c.lows).phase true = (s.run c.lows).line := by
    simp [Line.step, bits, Phases.fall]
  obtain ⟨keeps', phase'⟩ := run_high ok.highs (by rw [phase]) (by simp [bits])
    (by rw [up]; simp [Line.still, bits])
  rw [up] at keeps'
  refine ⟨keeps'.st.trans bits, by rw [phase'], ?_, ?_, ?_⟩
  · rw [keeps'.bitcnt, keeps.bitcnt, List.length_append, List.length_singleton]
  · exact keeps'.command.trans keeps.command
  · rw [phase', phase]
    rfl

theorem Reading.cells {bs : List Bool} {b : Bool} {cs : List Cell} (reading : Reading s bs b)
    (ok : ∀ c ∈ cs, c.Ok) (few : bs.length + cs.length ≤ 7) :
    ∃ bs' b', Reading (s.run (cs.flatMap Cell.samples)) bs' b' ∧
      bs' ++ [b'] = bs ++ [b] ++ cs.map Cell.seen := by
  induction cs generalizing s bs b with
  | nil => exact ⟨bs, b, reading, by simp⟩
  | cons c cs ih =>
    rw [List.length_cons] at few
    have next := reading.cell (ok c List.mem_cons_self) (by omega)
    obtain ⟨bs', b', last, all⟩ := ih next (fun d mem => ok d (List.mem_cons_of_mem c mem))
      (by rw [List.length_append, List.length_singleton]; omega)
    refine ⟨bs', b', ?_, ?_⟩
    · rw [List.flatMap_cons, run_append]
      exact last
    · rw [all]
      simp

end Device

/-- A command: an attention, the gap, eight cells and the stop bit's low phase. -/
structure Command where
  attention : List DeviceIn
  gap : List DeviceIn
  cells : List Cell
  stop : List DeviceIn

namespace Command

def samples (f : Command) : List DeviceIn :=
  f.attention ++ f.gap ++ f.cells.flatMap Cell.samples ++ f.stop

structure Ok (f : Command) : Prop where
  attention : Level false f.attention
  long : tAttn + 2 ≤ f.attention.length
  gap : Level true f.gap
  cells : ∀ c ∈ f.cells, c.Ok
  eight : f.cells.length = 8
  stop : Level false f.stop

end Command

namespace Device

variable {s : Device}

/-- The command that is read. -/
theorem command_seen {f : Command} (ok : f.Ok) (high : s.phase.hlD = true)
    (listens : s.line.listens = true) :
    (s.run f.samples).line.st = .tstop ∧
      (s.run f.samples).line.command = value (f.cells.map Cell.seen) := by
  obtain ⟨attn, up⟩ := run_attention ok.attention ok.long ok.gap high listens
  have eight := ok.eight
  have cells := ok.cells
  rw [Command.samples, run_append, run_append]
  rcases split : f.cells with _ | ⟨c, cs⟩
  · simp [split] at eight
  · rw [split, List.length_cons] at eight
    rw [split] at cells
    have first := reading_first (cells c List.mem_cons_self) attn up
    have ok' : ∀ d ∈ cs, d.Ok := fun d mem => cells d (List.mem_cons_of_mem c mem)
    obtain ⟨bs, b, reading, all⟩ := first.cells ok' (by simp; omega)
    have length := congrArg List.length all
    simp only [List.length_append, List.length_singleton, List.length_map, List.length_nil] at length
    have seven : bs.length = 7 := by omega
    have step := reading_fall reading (by omega)
    rw [if_pos seven] at step
    obtain ⟨keeps, -⟩ := run_low ok.stop reading.high (by rw [step]; rfl)
    rw [step] at keeps
    rw [List.flatMap_cons, run_append]
    refine ⟨keeps.st, ?_⟩
    rw [keeps.command, all]
    rfl

end Device

end Adb

end MacIIvi
