import MacIIvi.Via.Transfer
import Mathlib.Tactic.IntervalCases

/-!
# Bytes between the host and the microcontroller

Source: `rtl/via6522.sv`. The host accesses the shift register, CB1 gives eight pulses,
and the host waits for the flag before it accesses the register again. ACR may turn the
port round in between.
-/

namespace MacIIvi

namespace Via

/-- The bits of a byte, the most significant first. -/
def msbFirst (r : Byte) : List Bool := (List.range 8).map fun i => r.getLsbD (7 - i)

/-- The top bit before each of `n` rotations. -/
def topBits : Nat → Byte → List Bool
  | 0, _ => []
  | n + 1, r => r.getLsbD 7 :: topBits n (r.rotateLeft 1)

theorem topBits_eight (r : Byte) : topBits 8 r = msbFirst r := by
  simp [topBits, msbFirst, List.range_succ]

/-- Eight bits shifted in push the old ones out. -/
theorem msbFirst_shiftConcat (r : Byte) (levels : List Bool) (eight : levels.length = 8) :
    msbFirst (levels.foldl BitVec.shiftConcat r) = levels := by
  match levels, eight with
  | [b7, b6, b5, b4, b3, b2, b1, b0], _ =>
    simp [msbFirst, List.range_succ, BitVec.getLsbD_shiftConcat]

/-- An access to the shift register, the clocks to the first pulse, the pulses, the eighth
with its whole high half, and the clocks from there to the next access. -/
structure Group where
  access : ViaIn
  lead : List ViaIn
  cells : List Cell
  last : Cell
  tail : List ViaIn

namespace Group

def pulses (g : Group) : List Cell := g.cells ++ [g.last]

def clocks (g : Group) : List ViaIn :=
  g.access :: (g.lead ++ SerialPort.pulses g.cells ++ g.last.clocks ++ g.tail)

/-- From the access to the last edge that counts. -/
def counted (g : Group) (out : Bool) : List ViaIn :=
  g.lead ++ (SerialPort.pulses g.cells ++ g.last.before out)

theorem clocks_eq (g : Group) (out : Bool) :
    g.clocks = g.access :: (g.counted out ++ (g.last.after out ++ g.tail)) := by
  rw [clocks, counted, ← g.last.before_after out]
  simp only [List.append_assoc]

/-- Eight pulses and a host that waits for the flag: it comes with the first rising
enable after the last edge that counts. -/
structure Ok (out : Bool) (g : Group) : Prop where
  run : g.access.reset = false
  phases : (g.access.rising && g.access.falling) = false
  sr : g.access.srAccess = true
  idle : g.access.cb1I = true
  lead : SerialPort.Level true g.lead
  seven : g.cells.length = 7
  cells : ∀ c ∈ g.cells, c.Ok
  last : g.last.Ok
  tail : SerialPort.Parked true g.tail
  waits : rises (g.last.after out ++ g.tail) = true

end Group

namespace SerialPort

variable {s : SerialPort} {g : Group} {w : ViaIn} {c : Cell} {cs : List Cell}

/-- Between two transfers. -/
structure Idle (s : SerialPort) : Prop where
  settled : Settled true s
  stopped : s.shiftActive = false
  reported : s.shiftActivePrevRising = false

/-- What a peripheral finds on CB2 at any clock of the high halves. -/
def Presents (s : SerialPort) : List Cell → List Bool → Prop
  | [], [] => True
  | c :: cs, b :: bs =>
    (∀ w xs ys, c.highs = xs ++ ys → (s.run (c.lows ++ xs)).cb2O w = b) ∧
      Presents (s.run c.clocks) cs bs
  | _, _ => False

/-- A byte written in mode 111 is on CB2, its last bit up to the next access, a byte
shifted in by mode 011 is what the next access reads, and the flag is set once. -/
structure Delivered (s : SerialPort) (g : Group) : Prop where
  flag : s.events g.clocks = 1
  sent : s.shiftDir = true → g.access.wen = true →
    Presents (s.run (g.access :: g.lead)) g.pulses (msbFirst g.access.dataIn)
  held : s.shiftDir = true → g.access.wen = true → ∀ w xs ys, g.tail = xs ++ ys →
    ((s.run (g.access :: g.lead)).run (SerialPort.pulses g.pulses ++ xs)).cb2O w =
      g.access.dataIn.getLsbD 0
  read : s.shiftDir = false → ∀ w, w.reset = false → w.srAccess = true →
    msbFirst (next w (s.run g.clocks)).dataOut = g.pulses.map Cell.level

/-- Each group as the direction in which it finds the port asks. -/
def Follows (s : SerialPort) : List Group → Prop
  | [] => True
  | g :: gs => g.Ok s.shiftDir ∧ Follows (s.run g.clocks) gs

def Faithful (s : SerialPort) : List Group → Prop
  | [] => True
  | g :: gs => Delivered s g ∧ Faithful (s.run g.clocks) gs

theorem cb2O_ext (w : ViaIn) (ext : s.extClockMode = true) : s.cb2O w = s.cb2ShiftOut := by
  rw [cb2O, ext_serport ext, if_pos rfl]

/-- The low half in mode 111: the bit goes out. -/
theorem low_run (settled : Settled true s) (dir : s.shiftDir = true) (ok : c.Ok) :
    Settled false (s.run c.lows) ∧ (s.run c.lows).acr = s.acr ∧
      (s.run c.lows).core = s.core.edge true c.level := by
  obtain ⟨low, acr, core, -⟩ := start_run ok.longLow ok.low settled
  rw [dir, if_neg (by decide)] at core
  have rest : Level false (c.lows.drop 2) := ok.low.sublist (List.drop_sublist 2 c.lows)
  obtain ⟨there, same, -⟩ := parked_run rest.parked low
  have acr' := (level_acr ok.low settled.ext).1
  rw [← run_append, List.take_append_drop] at there same
  exact ⟨there, acr', same.trans core⟩

/-- A pulse in mode 111. -/
theorem pulse_out (settled : Settled true s) (dir : s.shiftDir = true) (ok : c.Ok) :
    Settled true (s.run c.clocks) ∧ (s.run c.clocks).acr = s.acr ∧
      (s.run c.clocks).core = s.core.edge true c.level := by
  obtain ⟨low, acr, core⟩ := low_run settled dir ok
  obtain ⟨high, acr', core', -⟩ :=
    skip_run ok.longHigh ok.high low ((shiftDir_acr acr).trans dir)
  rw [← run_append] at high acr' core'
  exact ⟨high, acr'.trans acr, core'.trans core⟩

theorem pulses_out (settled : Settled true s) (dir : s.shiftDir = true) (ok : ∀ c ∈ cs, c.Ok) :
    Settled true (s.run (pulses cs)) ∧ (s.run (pulses cs)).acr = s.acr ∧
      (s.run (pulses cs)).core = s.core.edges true (cs.map Cell.level) := by
  induction cs generalizing s with
  | nil => exact ⟨settled, rfl, rfl⟩
  | cons c cs ih =>
    obtain ⟨high, acr, core⟩ := pulse_out settled dir (ok c (List.mem_cons_self ..))
    obtain ⟨there, acr', core'⟩ := ih high ((shiftDir_acr acr).trans dir)
      fun d mem => ok d (List.mem_cons_of_mem c mem)
    rw [core] at core'
    rw [pulses, List.flatMap_cons, run_append]
    exact ⟨there, acr'.trans acr, core'⟩

/-- The eighth edge puts out the lowest bit. -/
theorem eighth_out (c : Core) (levels : List Bool) (eight : levels.length = 8) :
    (c.edges true levels).cb2ShiftOut = c.shiftReg.getLsbD 0 := by
  match levels, eight with
  | [_, _, _, _, _, _, _, _], _ =>
    simp [Core.edges, Core.edge]

theorem presents (settled : Settled true s) (dir : s.shiftDir = true) (ok : ∀ c ∈ cs, c.Ok) :
    Presents s cs (topBits cs.length s.shiftReg) := by
  induction cs generalizing s with
  | nil => trivial
  | cons c cs ih =>
    have here := ok c (List.mem_cons_self ..)
    obtain ⟨low, acr, core⟩ := low_run settled dir here
    have dir' := (shiftDir_acr acr).trans dir
    refine ⟨?_, ?_⟩
    · intro w xs ys split
      have part : Level true xs :=
        here.high.sublist (split ▸ List.sublist_append_left xs ys)
      have passing : Passing true (s.run c.lows).acr (s.run c.lows) :=
        ⟨low.ext, dir', rfl, fun seen => absurd (low.seen.symm.trans seen) Bool.false_ne_true⟩
      obtain ⟨there, same, -⟩ := passing_run part passing
      rw [← run_append] at there same
      exact (cb2O_ext w there.ext).trans (congrArg Core.cb2ShiftOut (same.trans core))
    · obtain ⟨high, acr', core'⟩ := pulse_out settled dir here
      have rotated : (s.run c.clocks).shiftReg = s.shiftReg.rotateLeft 1 :=
        congrArg Core.shiftReg core'
      have rest := ih high ((shiftDir_acr acr').trans dir)
        (fun d mem => ok d (List.mem_cons_of_mem c mem))
      rw [← rotated]
      exact rest

/-- The access starts a transfer. -/
theorem access_run (idle : Idle s) (run : w.reset = false) (sr : w.srAccess = true)
    (high : w.cb1I = true) :
    Settled true (next w s) ∧ (next w s).acr = s.acr ∧
      (next w s).shiftReg = (if w.wen then w.dataIn else s.shiftReg) ∧
      (next w s).shiftActive = true ∧ (next w s).bitCnt = 7 ∧
      (next w s).shiftActivePrevRising = false := by
  have ext := idle.settled.ext
  have bus : w.falling = true ∧ (w.ren || w.wen) = true ∧ w.addr = 0xa := by
    simpa [ViaIn.srAccess, and_assoc] using sr
  obtain ⟨falling, strobe, addr⟩ := bus
  have noAcr : w.acrWrite = false := by simp [ViaIn.acrWrite, addr]
  have write : w.srWrite = w.wen := by simp [ViaIn.srWrite, falling, addr]
  have clock := clock_ext w ext
  have active : s.activity w = (true, 7) := by
    simp only [activity, falling, idle.stopped, ext_mode ext, strobe, addr]
    simp
  have shifted : (s.shifted w).1 = if w.wen then w.dataIn else s.shiftReg := by
    have still := idle.settled.counts
    rw [counts] at still
    simp only [SerialPort.shifted, write, ext, if_true]
    by_cases wen : w.wen = true
    · simp [wen]
    · by_cases dir : s.shiftDir = true <;> simp_all
  have acr : (next w s).acr = s.acr := by
    simp only [next, run, noAcr, Bool.false_eq_true, if_false]
  refine ⟨⟨?_, ?_, ?_⟩, acr, ?_, ?_, ?_, ?_⟩
  · simpa only [extClockMode, siExtControl, soExtControl, shiftModeControl, acr] using ext
  · simp only [next, run, Bool.false_eq_true, if_false, clock.1, high]
  · simp only [next, run, Bool.false_eq_true, if_false, clock.2, idle.settled.level]
  · simp only [next, run, Bool.false_eq_true, if_false, shifted]
  · simp only [next, run, Bool.false_eq_true, if_false, active]
  · simp only [next, run, Bool.false_eq_true, if_false, active]
  · simp [next, run, idle.stopped, idle.reported]

theorem rises_pulses (ok : ∀ c ∈ cs, c.Ok) (some_ : cs ≠ []) : rises (pulses cs) = true := by
  cases cs with
  | nil => exact absurd rfl some_
  | cons c cs =>
    have first := (ok c (List.mem_cons_self ..)).period
    rw [pulses, List.flatMap_cons, rises_append, first, Bool.true_or]

/-- The eighth counted edge stops the port with the flag to come. -/
theorem transfer_run (settled : Settled true s) (ok : g.Ok s.shiftDir)
    (active : s.shiftActive = true) (count : s.bitCnt = 7) :
    Settled (!s.shiftDir) (s.run (g.counted s.shiftDir)) ∧
      (s.run (g.counted s.shiftDir)).acr = s.acr ∧
      (s.run (g.counted s.shiftDir)).core =
        s.core.edges s.shiftDir (g.pulses.map Cell.level) ∧
      (s.run (g.counted s.shiftDir)).shiftActive = false ∧
      (s.run (g.counted s.shiftDir)).shiftActivePrevRising = true ∧
      s.events (g.counted s.shiftDir) = 0 := by
  obtain ⟨led, core, first⟩ := parked_run ok.lead.parked settled
  have acr := (level_acr ok.lead settled.ext).1
  have going : (s.run g.lead).shiftActive = true :=
    (congrArg Core.shiftActive core).trans active
  have left : (s.run g.lead).bitCnt = 7 := (congrArg Core.bitCnt core).trans count
  obtain ⟨seven, acr', core', going', left', second⟩ :=
    cells_run led ok.cells going (by rw [left, ok.seven])
  rw [ok.seven, left] at left'
  have dir := shiftDir_acr (acr'.trans acr)
  obtain ⟨done, acr'', core'', third⟩ := before_run seven ok.last
  rw [dir] at done acr'' core'' third
  have both := second.append (going'.trans going.symm) third
  have watched := first.append (going.trans active.symm) both
  have period : rises (g.counted s.shiftDir) = true := by
    have some_ : g.cells ≠ [] := by
      intro none_
      have seven := ok.seven
      simp [none_] at seven
    rw [Group.counted, rises_append, rises_append, rises_pulses ok.cells some_]
    simp
  have pressed := watched.prev
  rw [← Group.counted, active, if_pos rfl, period, Bool.or_true] at pressed
  have quiet := watched.events
  rw [← Group.counted, active, if_pos rfl] at quiet
  rw [shiftDir_acr acr, core] at core'
  rw [← run_append, ← run_append, ← Group.counted] at done acr'' core''
  have stop : (s.run (g.counted s.shiftDir)).shiftActive = false := by
    refine (congrArg Core.shiftActive core'').trans ?_
    simp only [Core.edge]
    have zero : ((s.run g.lead).run (pulses g.cells)).core.bitCnt = 0 := left'
    rw [zero]
    simp
  refine ⟨done, acr''.trans (acr'.trans acr), ?_, stop, pressed, quiet⟩
  rw [core'', core', Group.pulses, List.map_append, Core.edges, Core.edges,
    List.foldl_append]
  rfl

/-- From the eighth counted edge to the next access. -/
theorem finish_run {out : Bool} (dir : s.shiftDir = out) (settled : Settled (!out) s)
    (ok : g.Ok out) (stopped : s.shiftActive = false)
    (pressed : s.shiftActivePrevRising = true) :
    Idle (s.run (g.last.after out ++ g.tail)) ∧
      (s.run (g.last.after out ++ g.tail)).core = s.core ∧
      s.events (g.last.after out ++ g.tail) = 1 := by
  subst dir
  obtain ⟨high, -, core, first⟩ := after_run settled ok.last
  obtain ⟨rest, core', second⟩ := parked_run ok.tail high
  have watched := first.append (congrArg Core.shiftActive core) second
  have cleared := watched.prev
  rw [stopped, if_neg Bool.false_ne_true, ok.waits, Bool.not_true, Bool.and_false] at cleared
  have once := watched.events
  rw [stopped, if_neg Bool.false_ne_true, ok.waits, pressed] at once
  rw [← run_append] at rest core'
  have same := core'.trans core
  exact ⟨⟨rest, (congrArg Core.shiftActive same).trans stopped, cleared⟩, same, once⟩

theorem edges_in (levels : List Bool) (c : Core) :
    (c.edges false levels).shiftReg = levels.foldl BitVec.shiftConcat c.shiftReg := by
  induction levels generalizing c with
  | nil => rfl
  | cons b levels ih => exact ih (c.edge false b)

/-- One group. -/
theorem group_run (idle : Idle s) (ok : g.Ok s.shiftDir) :
    Delivered s g ∧ Idle (s.run g.clocks) := by
  obtain ⟨start, acr, reg, active, count, -⟩ := access_run idle ok.run ok.sr ok.idle
  have dir := shiftDir_acr acr
  rw [← dir] at ok
  obtain ⟨mid, acr', core, stopped, pressed, quiet⟩ := transfer_run start ok active count
  obtain ⟨there, same, once⟩ := finish_run (shiftDir_acr acr') mid ok stopped pressed
  have clocks := g.clocks_eq (next g.access s).shiftDir
  have final : s.run g.clocks = ((next g.access s).run (g.counted (next g.access s).shiftDir)).run
      (g.last.after (next g.access s).shiftDir ++ g.tail) := by
    rw [clocks, ← run_append]
    rfl
  rw [← final] at there same
  have all : ∀ c ∈ g.pulses, c.Ok := by
    intro c mem
    rcases List.mem_append.mp mem with mem | mem
    · exact ok.cells c mem
    · exact List.mem_singleton.mp mem ▸ ok.last
  have eight : g.pulses.length = 8 := by
    rw [Group.pulses, List.length_append, ok.seven]
    rfl
  obtain ⟨led, still, -⟩ := parked_run ok.lead.parked start
  have mode := shiftDir_acr (level_acr ok.lead start.ext).1
  have loaded : g.access.wen = true → ((next g.access s).run g.lead).shiftReg = g.access.dataIn := by
    intro wen
    refine (congrArg Core.shiftReg still).trans (reg.trans ?_)
    rw [wen, if_pos rfl]
  refine ⟨⟨?_, ?_, ?_, ?_⟩, there⟩
  · have silent : s.sets g.access = false := by
      simp [sets, ok.sr]
    rw [clocks, events, events_append, quiet, once, silent]
    rfl
  · intro out wen
    have shown := presents led (mode.trans (dir.trans out)) all
    rw [loaded wen, eight, topBits_eight] at shown
    exact shown
  · intro out wen w xs ys split
    obtain ⟨done, -, core⟩ := pulses_out led (mode.trans (dir.trans out)) all
    have part : Parked true xs := fun w mem => ok.tail w (split ▸ List.mem_append_left ys mem)
    obtain ⟨rest, same, -⟩ := parked_run part done
    rw [← run_append] at rest same
    have bit : (((next g.access s).run g.lead).run (SerialPort.pulses g.pulses ++ xs)).cb2ShiftOut =
        ((next g.access s).run g.lead).shiftReg.getLsbD 0 :=
      (congrArg Core.cb2ShiftOut (same.trans core)).trans
        (eighth_out _ _ (by rw [List.length_map, eight]))
    rw [loaded wen] at bit
    exact (cb2O_ext w rest.ext).trans bit
  · intro inward w run sr
    have addr : w.addr = 0xa := by
      simp only [ViaIn.srAccess, Bool.and_eq_true, beq_iff_eq] at sr
      exact sr.2
    have value : (next w (s.run g.clocks)).dataOut = (s.run g.clocks).shiftReg := by
      simp [next, run, addr]
    have shifts := congrArg Core.shiftReg (same.trans core)
    rw [dir, inward, edges_in] at shifts
    rw [value]
    refine (congrArg msbFirst shifts).trans (msbFirst_shiftConcat _ _ ?_)
    rw [List.length_map, Group.pulses, List.length_append, ok.seven]
    rfl

/-- Every byte of every sequence of transfers arrives, in both directions and when the
port is turned round, provided that the host leaves the register alone until the
eighth pulse is over. -/
theorem bytes_delivered (idle : Idle s) (gs : List Group) (follows : Follows s gs) :
    Faithful s gs := by
  induction gs generalizing s with
  | nil => trivial
  | cons g gs ih =>
    obtain ⟨delivered, next_⟩ := group_run idle follows.1
    exact ⟨delivered, ih next_ follows.2⟩

end SerialPort

instance (w : ViaIn) : Decidable (Calm w) :=
  decidable_of_iff (w.reset = false ∧ (w.rising && w.falling) = false ∧ w.srAccess = false)
    ⟨fun h => ⟨h.1, h.2.1, h.2.2⟩, fun h => ⟨h.run, h.phases, h.noSr⟩⟩

instance (b : Bool) (ws : List ViaIn) : Decidable (SerialPort.Level b ws) :=
  inferInstanceAs (Decidable (∀ w ∈ ws, _))

instance (b : Bool) (ws : List ViaIn) : Decidable (SerialPort.Parked b ws) :=
  inferInstanceAs (Decidable (∀ w ∈ ws, _))

instance (c : Cell) : Decidable c.Ok :=
  decidable_of_iff (3 ≤ c.lows.length ∧ 3 ≤ c.highs.length ∧ SerialPort.Level false c.lows ∧
      SerialPort.Level true c.highs ∧ rises c.clocks = true)
    ⟨fun h => ⟨h.1, h.2.1, h.2.2.1, h.2.2.2.1, h.2.2.2.2⟩,
      fun h => ⟨h.longLow, h.longHigh, h.low, h.high, h.period⟩⟩

instance (out : Bool) (g : Group) : Decidable (g.Ok out) :=
  decidable_of_iff ((g.access.reset = false ∧ (g.access.rising && g.access.falling) = false ∧
      g.access.srAccess = true ∧ g.access.cb1I = true) ∧
      SerialPort.Level true g.lead ∧ g.cells.length = 7 ∧ (∀ c ∈ g.cells, c.Ok) ∧ g.last.Ok ∧
      SerialPort.Parked true g.tail ∧ rises (g.last.after out ++ g.tail) = true)
    ⟨fun h => ⟨h.1.1, h.1.2.1, h.1.2.2.1, h.1.2.2.2, h.2.1, h.2.2.1, h.2.2.2.1, h.2.2.2.2.1,
        h.2.2.2.2.2.1, h.2.2.2.2.2.2⟩,
      fun h => ⟨⟨h.run, h.phases, h.sr, h.idle⟩, h.lead, h.seven, h.cells, h.last, h.tail,
        h.waits⟩⟩

namespace SerialPort

/-- Clocks from `start` on, with eight of them to a period of phi2. -/
def phi2 (cb1 cb2 : Bool) (start n : Nat) : List ViaIn :=
  (List.range n).map fun i =>
    { rising := (start + i) % 8 == 0, falling := (start + i) % 8 == 4, cb1I := cb1, cb2I := cb2 }

def cellAt (start : Nat) (b : Bool) : Cell where
  lows := phi2 false b start 8
  highs := phi2 true b (start + 8) 8

/-- A byte to the microcontroller, and ACR to mode 011. -/
def sending : Group where
  access := { falling := true, addr := 0xa, wen := true, dataIn := 0xa5 }
  lead := phi2 true true 5 3
  cells := (List.range 7).map fun i => cellAt (8 + 16 * i) true
  last := cellAt 120 true
  tail := phi2 true true 136 4 ++
    { falling := true, addr := 0xb, wen := true, dataIn := 0x0c } :: phi2 true true 141 7

/-- A byte from the microcontroller. -/
def receiving : Group where
  access := { falling := true, addr := 0xa, ren := true }
  lead := phi2 true true 149 3
  cells := (List.range 7).map fun i => cellAt (152 + 16 * i) ((0x3c : Byte).getLsbD (7 - i))
  last := cellAt 264 false
  tail := phi2 true true 280 12

/-- A port in mode 111. -/
def sender : SerialPort := { acr := 0x1c }

theorem sender_idle : Idle sender := ⟨⟨by decide, rfl, rfl⟩, rfl, rfl⟩

set_option maxRecDepth 4000 in
theorem turned_round : sending.Ok sender.shiftDir ∧
    receiving.Ok (sender.run sending.clocks).shiftDir := by
  decide +kernel

/-- A byte out, and after a change of ACR one in. -/
theorem bytes_delivered_turned : Faithful sender [sending, receiving] := by
  refine bytes_delivered sender_idle [sending, receiving] ⟨turned_round.1, ?_⟩
  exact ⟨turned_round.2, trivial⟩

/-- A byte of zeros; the flag comes in the eighth low half, and the host writes the next
byte. -/
def hurried : Group :=
  { sending with
    access := { falling := true, addr := 0xa, wen := true, dataIn := 0 }
    last := ⟨phi2 false true 120 16, phi2 true true 136 8⟩ }

def nextWrite : ViaIn :=
  { falling := true, addr := 0xa, wen := true, dataIn := 0x80, cb1I := false }

/-- The first clocks of the eighth low half, the write, and the others. -/
def hurriedLow : List ViaIn × List ViaIn :=
  (phi2 false true 120 12, phi2 false true 133 3)

set_option maxRecDepth 4000 in
/-- The host has seen the flag, but the eighth bit is not on CB2 when CB1 rises. -/
theorem next_byte_early :
    Idle sender ∧ hurried.Ok sender.shiftDir ∧ nextWrite.srAccess = true ∧
      (sender.run (hurried.access :: hurried.lead ++ pulses hurried.cells ++
        hurriedLow.1)).serialFlag = true ∧
      (msbFirst hurried.access.dataIn).getLast? = some false ∧
      ∀ k < 8, (sender.run (hurried.access :: hurried.lead ++ pulses hurried.cells ++
        hurriedLow.1 ++ nextWrite :: hurriedLow.2 ++ hurried.last.highs.take k)).cb2O {} = true := by
  refine ⟨sender_idle, ?_⟩
  decide +kernel

end SerialPort

end Via

end MacIIvi
