import MacIIvi.Adb.Answers
import MacIIvi.Clocked.Run
import MacIIvi.Clocked.Strobe
import Mathlib.Data.List.Destutter
import Mathlib.Algebra.BigOperators.Group.List.Basic

/-!
# Mouse packets from the strobe to the answer

Source: `rtl/adb_device.sv`, the mouse update and Talk register 0 of the mouse. A
packet replaces the movement to report, and a Talk that comes in the same clock
wins over it.
-/

namespace MacIIvi

namespace Adb

open Clocked (Strobe record record_succ)

/-- A movement and the button. -/
structure Report where
  x : Int
  y : Int
  button : Bool
  deriving DecidableEq, Repr

/-- The seven-bit range. -/
def clamp7 (v : Int) : Int := max (-64) (min 63 v)

/-- What the two bytes of an answer say. -/
def Report.ofBytes (b0 b1 : Byte) : Report :=
  ⟨(b1.extractLsb' 0 7).toInt, (b0.extractLsb' 0 7).toInt, !b0.getLsbD 7⟩

namespace Mouse

variable (m : Mouse)

/-- The report of the event. -/
def report : Report := ⟨m.mouseX.toInt, m.mouseY.toInt, m.mouseButton⟩

def pending : List Report := if m.mouseEvt then [m.report] else []

end Mouse

/-- The report of the answer on its way. -/
def Line.moves (l : Line) : List Report :=
  if l.mouseTalk then
    match l.answered with
    | [b0, b1] => [.ofBytes b0 b1]
    | _ => []
  else []

/-! ### The clamps -/

/-- The deltas whose clamp is not the nearest end. -/
def misclampsX (m : BitVec 9) : Bool := decide (-191 ≤ m.toInt) && decide (m.toInt ≤ -129)

def misclampsY (m : BitVec 9) : Bool :=
  m.toInt == -64 || m.toInt == -192 || decide (-190 ≤ m.toInt) && decide (m.toInt ≤ -129)

/-- The clamp of X is wrong for just these deltas. -/
theorem clampX_eq_iff (m : BitVec 9) :
    (clampX m).toInt = clamp7 m.toInt ↔ misclampsX m = false := by
  revert m
  decide +kernel

theorem clampY_eq_iff (m : BitVec 9) :
    (clampY m).toInt = clamp7 (-m.toInt) ↔ misclampsY m = false := by
  revert m
  decide +kernel

/-! ### Tallies -/

/-- The button states in turn, from a released button on. -/
def changes (l : List Report) : List Bool := (l.map Report.button).destutter' (· ≠ ·) false

def lastButton (l : List Report) : Bool := (l.map Report.button).getLastD false

/-- One more state shows if it is another one. -/
theorem destutter_concat (l : List Bool) (a c : Bool) :
    (l ++ [c]).destutter' (· ≠ ·) a =
      l.destutter' (· ≠ ·) a ++ if l.getLastD a = c then [] else [c] := by
  induction l generalizing a with
  | nil =>
    rw [List.nil_append, List.destutter'_cons]
    by_cases same : a = c <;> simp [same]
  | cons x l ih =>
    rw [List.cons_append, List.destutter'_cons, List.destutter'_cons, List.getLastD_cons]
    by_cases same : a = x
    · rw [if_neg (by simp [same]), if_neg (by simp [same]), ih a, same]
    · rw [if_pos same, if_pos same, ih x, List.cons_append]

theorem changes_concat (l : List Report) (r : Report) :
    changes (l ++ [r]) = changes l ++ if lastButton l = r.button then [] else [r.button] := by
  rw [changes, List.map_append]
  exact destutter_concat _ _ _

@[simp] theorem lastButton_concat (l : List Report) (r : Report) :
    lastButton (l ++ [r]) = r.button := by
  simp [lastButton]

/-- The reports and the packets sum up to the same movement, go through the same button
states and end in the state `b`. -/
structure Tallies (reports packets : List Report) (b : Bool) : Prop where
  x : (reports.map Report.x).sum = (packets.map Report.x).sum
  y : (reports.map Report.y).sum = (packets.map Report.y).sum
  changes : changes reports = changes packets
  last : lastButton reports = b
  lastPacket : lastButton packets = b

namespace Tallies

variable {reports packets : List Report} {b : Bool}

/-- A packet that says nothing new. -/
theorem packet (tallies : Tallies reports packets b) :
    Tallies reports (packets ++ [⟨0, 0, b⟩]) b where
  x := by simp [tallies.x]
  y := by simp [tallies.y]
  changes := by rw [changes_concat, if_pos tallies.lastPacket, List.append_nil, tallies.changes]
  last := tallies.last
  lastPacket := lastButton_concat _ _

/-- A report that says nothing new. -/
theorem report (tallies : Tallies reports packets b) :
    Tallies (reports ++ [⟨0, 0, b⟩]) packets b where
  x := by simp [tallies.x]
  y := by simp [tallies.y]
  changes := by rw [changes_concat, if_pos tallies.last, List.append_nil, tallies.changes]
  last := lastButton_concat _ _
  lastPacket := tallies.lastPacket

theorem both (tallies : Tallies reports packets b) (r : Report) :
    Tallies (reports ++ [r]) (packets ++ [r]) r.button where
  x := by simp [tallies.x]
  y := by simp [tallies.y]
  changes := by
    rw [changes_concat, changes_concat, tallies.last, tallies.lastPacket, tallies.changes]
  last := lastButton_concat _ _
  lastPacket := lastButton_concat _ _

/-- A movement joins a report of the button alone. -/
theorem join {x y : Int} (tallies : Tallies (reports ++ [⟨0, 0, b⟩]) packets b) :
    Tallies (reports ++ [⟨x, y, b⟩]) (packets ++ [⟨x, y, b⟩]) b where
  x := by
    have before := tallies.x
    simp only [List.map_append, List.sum_append, List.map_cons, List.map_nil, List.sum_cons,
      List.sum_nil] at before ⊢
    omega
  y := by
    have before := tallies.y
    simp only [List.map_append, List.sum_append, List.map_cons, List.map_nil, List.sum_cons,
      List.sum_nil] at before ⊢
    omega
  changes := by
    have before := tallies.changes
    rw [changes_concat] at before ⊢
    rw [changes_concat, if_pos tallies.lastPacket, List.append_nil, ← before]
  last := lastButton_concat _ _
  lastPacket := lastButton_concat _ _

end Tallies

namespace Device

variable {w : DeviceIn} {s n : Device}

/-! ### The stop bit -/

/-- The report that a Talk gets. -/
def talkReport (s : Device) : List Report :=
  if s.line.mouseTalk then
    if s.mouse.mouseEvt then [s.mouse.report] else if s.mouseInit then [⟨0, 0, false⟩] else []
  else []

/-- The bytes of the event say what the event is. -/
theorem ofBytes_report (m : Mouse) :
    Report.ofBytes (BitVec.ofBool (!m.mouseButton) ++ m.mouseY) (BitVec.ofBool true ++ m.mouseX) =
      m.report := by
  have x : (BitVec.ofBool true ++ m.mouseX).extractLsb' 0 7 = m.mouseX := low_seven _ _
  have y : (BitVec.ofBool (!m.mouseButton) ++ m.mouseY).extractLsb' 0 7 = m.mouseY := low_seven _ _
  have button : (BitVec.ofBool (!m.mouseButton) ++ m.mouseY).getLsbD 7 = !m.mouseButton := by
    rw [BitVec.getLsbD_append]
    simp
  simp only [Report.ofBytes, Mouse.report, x, y, button, Bool.not_not]

/-- Talk to register 0 of the mouse. -/
theorem talk_moves (line : n.line = { s.line with respLen := 0 }) (talk : s.line.mouseTalk = true) :
    (match (if (s.talk n).line.respLen == 2 then [(s.talk n).line.resp0, (s.talk n).line.resp1]
        else []) with
      | [b0, b1] => [Report.ofBytes b0 b1]
      | _ => []) = s.talkReport ∧
      (s.talk n).mouse =
        (if s.mouse.mouseEvt then { n.mouse with mouseEvt := false, mouseX := 0, mouseY := 0 }
        else n.mouse) ∧
      (s.talk n).line.mouseTalk = true := by
  have kept : n.line.mouseTalk = true := by
    rw [line]
    exact talk
  have parts := talk
  simp only [Line.mouseTalk, Bool.and_eq_true, beq_iff_eq, bne_iff_ne] at parts
  obtain ⟨⟨⟨-, reg⟩, other⟩, addr⟩ := parts
  unfold Device.talk
  rw [if_neg other, if_pos addr]
  unfold talkMouse
  simp only [reg, talkReport, talk, if_true]
  cases event : s.mouse.mouseEvt with
  | true =>
    simp only [if_true]
    refine ⟨?_, trivial, kept⟩
    simp only [Line.answer, beq_self_eq_true, if_true, ofBytes_report]
  | false =>
    simp only [Bool.false_eq_true, if_false]
    cases s.mouseInit with
    | true =>
      refine ⟨?_, rfl, kept⟩
      simp only [Line.answer, beq_self_eq_true, if_true, List.cons.injEq, and_true]
      decide
    | false =>
      refine ⟨?_, rfl, kept⟩
      simp [line]

/-- Any other Talk leaves the mouse alone. -/
theorem talk_other (line : n.line = { s.line with respLen := 0 }) (talk : s.line.mouseTalk = false)
    (type : s.line.cmdType = 3) :
    (s.talk n).mouse = n.mouse ∧ (s.talk n).line.mouseTalk = false := by
  have silent : n.line.mouseTalk = false := by
    rw [line]
    exact talk
  unfold Device.talk
  split
  · unfold talkKbd
    repeat' split
    all_goals exact ⟨rfl, silent⟩
  split
  · rename_i other addr
    have reg : s.line.cmdReg ≠ 0 := by
      intro zero
      simp [Line.mouseTalk, type, zero, addr] at talk
      exact other (addr.trans talk)
    unfold talkMouse
    split
    · exact ⟨rfl, silent⟩
    · rename_i zero
      exact absurd zero reg
    · exact ⟨rfl, silent⟩
  · exact ⟨rfl, silent⟩

/-- What the stop bit of a command does to the mouse. -/
theorem stop_moves (line : n.line = s.line) :
    (s.stop n).line.moves = s.talkReport ∧
      (s.stop n).mouse =
        if s.line.mouseTalk && s.mouse.mouseEvt then
          { n.mouse with mouseEvt := false, mouseX := 0, mouseY := 0 }
        else n.mouse := by
  by_cases type : s.line.cmdType = 3
  · have noReset : s.isReset = false := by simp [isReset, type]
    have noListen : s.isListen = false := by simp [isListen, type]
    have isTalk : s.isTalk = true := by simp [isTalk, type]
    simp only [stop, noReset, noListen, isTalk, Bool.false_eq_true, if_false, if_true]
    obtain ⟨answered, same, -, mouse, -⟩ :=
      over_line s (s.talk { n with line := { n.line with respLen := 0 } })
    cases talk : s.line.mouseTalk with
    | true =>
      obtain ⟨moves, mouse', talk'⟩ := talk_moves (n := { n with line := { n.line with respLen := 0 } })
        (by rw [line]) talk
      rw [Line.moves, same.mouseTalk, talk', if_pos rfl, answered, mouse, Bool.true_and]
      exact ⟨moves, mouse'⟩
    | false =>
      obtain ⟨mouse', silent⟩ :=
        talk_other (n := { n with line := { n.line with respLen := 0 } }) (by rw [line]) talk type
      rw [Line.moves, same.mouseTalk, silent, if_neg Bool.false_ne_true, mouse, talkReport, talk,
        if_neg Bool.false_ne_true, Bool.false_and, if_neg Bool.false_ne_true]
      exact ⟨rfl, mouse'⟩
  · have talk : s.line.mouseTalk = false := by simp [Line.mouseTalk, type]
    have noTalk : s.isTalk = false := by simp [isTalk, type]
    have command : n.line.command = s.line.command := by rw [line]
    have off {l : Line} (same : l.command = s.line.command) : l.moves = [] := by
      simp [Line.moves, Line.mouseTalk, Line.cmdType, same] at type ⊢
      simp [type]
    rw [talkReport, talk, if_neg Bool.false_ne_true, Bool.false_and, if_neg Bool.false_ne_true]
    simp only [stop, noTalk, Bool.false_eq_true, if_false]
    split
    · exact ⟨off command, rfl⟩
    split
    · exact ⟨off command, rfl⟩
    · obtain ⟨-, same, -, mouse, -⟩ := over_line s { n with line := { n.line with respLen := 0 } }
      exact ⟨off (same.command.trans command), mouse⟩

/-! ### One clock -/

/-- A Talk takes the event in this clock. -/
def takesEvent (w : DeviceIn) (s : Device) : Bool :=
  s.stops w && s.line.mouseTalk && s.mouse.mouseEvt

/-- A Talk gets the idle report in this clock. -/
def takesIdle (w : DeviceIn) (s : Device) : Bool :=
  s.stops w && s.line.mouseTalk && !s.mouse.mouseEvt && s.mouseInit

/-- What a clock needs: a packet with news has deltas that are clamped right, finds no
event waiting but one of the same button alone, and does not come in the clock in which
a Talk takes the event; and the idle report is not given while the button is down. -/
def Clean (w : DeviceIn) (s : Device) : Prop :=
  (s.msync.counts s.mouse = true →
    misclampsX s.msync.mXS2 = false ∧ misclampsY s.msync.mYS2 = false ∧
      (s.mouse.mouseEvt = true →
        s.mouse.mouseX = 0 ∧ s.mouse.mouseY = 0 ∧ s.msync.mBtnS2 = s.mouse.mouseButton) ∧
      s.takesEvent w = false) ∧
  (s.takesIdle w = true → s.mouse.mouseButton = false)

instance : Decidable (Clean w s) := inferInstanceAs (Decidable (_ ∧ _))

/-- The packet that the synchronizer shows in this clock. -/
def arrivedNow (s : Device) : List Report :=
  if s.msync.mouseEdge then
    [⟨clamp7 s.msync.mXS2.toInt, clamp7 (-s.msync.mYS2.toInt), s.msync.mBtnS2⟩]
  else []

theorem next_mouse (run : w.reset = false) :
    (next w s).mouse =
      if s.takesEvent w then
        { s.msync.update s.mouse with mouseEvt := false, mouseX := 0, mouseY := 0 }
      else s.msync.update s.mouse := by
  rw [next_run run, takesEvent]
  cases stop : s.stops w with
  | true =>
    rw [if_pos rfl, (stop_moves (stops_line stop)).2, Bool.true_and]
    rfl
  | false => rfl

/-- The answers. -/
theorem next_moves (run : w.reset = false) :
    (if s.line.finishes then s.line.moves else []) ++ (next w s).line.moves =
      s.line.moves ++ if s.stops w then s.talkReport else [] := by
  have flight := next_answer (w := w) (s := s) Line.moves run
    (fun l empty => by simp [Line.moves, empty])
    (fun l l' same answered => by rw [Line.moves, Line.moves, same.mouseTalk, answered])
  rw [flight]
  cases stop : s.stops w with
  | true => rw [if_pos rfl, if_pos rfl, (stop_moves (stops_line stop)).1]
  | false => rfl

/-- A packet in a clock in which no event is taken. -/
theorem tallies_update {base packets : List Report}
    (tallies : Tallies (base ++ s.mouse.pending) packets s.mouse.mouseButton) (clean : Clean w s) :
    Tallies (base ++ (s.msync.update s.mouse).pending) (packets ++ s.arrivedNow)
      (s.msync.update s.mouse).mouseButton := by
  cases counts : s.msync.counts s.mouse with
  | false =>
    have same : s.msync.update s.mouse = s.mouse := by simp [MouseSync.update, counts]
    rw [same, arrivedNow]
    cases edge : s.msync.mouseEdge with
    | false => simpa using tallies
    | true =>
      simp only [MouseSync.counts, edge, Bool.true_and, Bool.or_eq_false_iff, bne_eq_false_iff_eq] at counts
      obtain ⟨⟨x, y⟩, button⟩ := counts
      rw [x, y, button]
      exact tallies.packet
  | true =>
    obtain ⟨x, y, alone, -⟩ := clean.1 counts
    have edge : s.msync.mouseEdge = true := by
      simp only [MouseSync.counts, Bool.and_eq_true] at counts
      exact counts.1
    have arrived : s.arrivedNow = [(s.msync.update s.mouse).report] := by
      rw [arrivedNow, if_pos edge, ← (clampX_eq_iff _).mpr x, ← (clampY_eq_iff _).mpr y]
      simp [MouseSync.update, counts, Mouse.report]
    have pending : (s.msync.update s.mouse).pending = [(s.msync.update s.mouse).report] := by
      simp [MouseSync.update, counts, Mouse.pending]
    rw [arrived, pending]
    cases waits : s.mouse.mouseEvt with
    | false =>
      have none_ : s.mouse.pending = [] := by simp [Mouse.pending, waits]
      rw [none_, List.append_nil] at tallies
      exact tallies.both _
    | true =>
      obtain ⟨x0, y0, button⟩ := alone waits
      have old : s.mouse.pending = [⟨0, 0, s.mouse.mouseButton⟩] := by
        simp [Mouse.pending, waits, Mouse.report, x0, y0]
      have same : (s.msync.update s.mouse).mouseButton = s.mouse.mouseButton := by
        simp [MouseSync.update, counts, button]
      rw [old] at tallies
      rw [same, Mouse.report, same]
      exact tallies.join

/-- One clock. -/
theorem next_tallies {told packets : List Report} (run : w.reset = false) (clean : Clean w s)
    (tallies : Tallies (told ++ s.line.moves ++ s.mouse.pending) packets s.mouse.mouseButton) :
    Tallies
      (told ++ (if s.line.finishes then s.line.moves else []) ++ (next w s).line.moves ++
        (next w s).mouse.pending)
      (packets ++ s.arrivedNow) (next w s).mouse.mouseButton := by
  rw [List.append_assoc told, next_moves run, ← List.append_assoc told, next_mouse run]
  cases takes : s.takesEvent w with
  | true =>
    have quiet : s.msync.counts s.mouse = false := by
      by_contra counts
      have apart := (clean.1 (by simpa using counts)).2.2.2
      rw [takes] at apart
      exact absurd apart (by decide)
    have same : s.msync.update s.mouse = s.mouse := by simp [MouseSync.update, quiet]
    have after := tallies_update tallies clean
    rw [same] at after
    simp only [takesEvent, Bool.and_eq_true] at takes
    obtain ⟨⟨stop, talk⟩, event⟩ := takes
    have now : s.talkReport = [s.mouse.report] := by simp [talkReport, talk, event]
    have pending : s.mouse.pending = [s.mouse.report] := by simp [Mouse.pending, event]
    rw [pending] at after
    simp only [if_true, stop, now, same, Mouse.pending, Bool.false_eq_true, if_false,
      List.append_nil]
    exact after
  | false =>
    rw [if_neg Bool.false_ne_true]
    cases idle : s.takesIdle w with
    | true =>
      have up := clean.2 idle
      simp only [takesIdle, Bool.and_eq_true, Bool.not_eq_true'] at idle
      obtain ⟨⟨⟨stop, talk⟩, event⟩, init⟩ := idle
      have now : s.talkReport = [⟨0, 0, s.mouse.mouseButton⟩] := by
        simp [talkReport, talk, event, init, up]
      have pending : s.mouse.pending = [] := by simp [Mouse.pending, event]
      rw [pending, List.append_nil] at tallies
      have more := tallies.report
      rw [stop, if_pos rfl, now]
      refine tallies_update ?_ clean
      rwa [pending, List.append_nil]
    | false =>
      have now : (if s.stops w then s.talkReport else []) = [] := by
        cases stop : s.stops w <;> cases talk : s.line.mouseTalk <;>
          cases event : s.mouse.mouseEvt <;> cases init : s.mouseInit <;>
          simp_all [takesIdle, takesEvent, talkReport]
      rw [now, List.append_nil]
      exact tallies_update tallies clean

end Device

/-! ### Runs -/

/-- The mouse port in the clock of the reset and after it. -/
def mouseSample (w : DeviceIn) (ins : Nat → DeviceIn) : Nat → BitVec 25
  | 0 => w.ps2Mouse
  | u + 1 => (ins u).ps2Mouse

/-- The fields of a packet. -/
def packetX (m : BitVec 25) : BitVec 9 := BitVec.ofBool (m.getLsbD 4) ++ m.extractLsb' 8 8

def packetY (m : BitVec 25) : BitVec 9 := BitVec.ofBool (m.getLsbD 5) ++ m.extractLsb' 16 8

/-- The packet of a strobe that changes after sample `u`, clamped and with Y reversed. The
fields are read one sample behind the strobe. -/
def packetAt (smp : Nat → BitVec 25) (u : Nat) : Option Report :=
  let m := smp (u + 2)
  if (smp u).getLsbD 24 != (smp (u + 1)).getLsbD 24 then
    some ⟨clamp7 (packetX m).toInt, clamp7 (-(packetY m).toInt), m.getLsbD 0⟩
  else none

/-- The synchronizer shows the samples. -/
structure MouseSynced (smp : Nat → BitVec 25) (t : Nat) (k : MouseSync) : Prop where
  strobe : Strobe (fun u => (smp u).getLsbD 24) t k.mstbS1 k.mstbS2 k.mstbS3 k.mstbD
  first : 1 ≤ t → k.mXS1 = packetX (smp t) ∧ k.mYS1 = packetY (smp t) ∧
    k.mBtnS1 = (smp t).getLsbD 0
  second : 2 ≤ t → k.mXS2 = packetX (smp (t - 1)) ∧ k.mYS2 = packetY (smp (t - 1)) ∧
    k.mBtnS2 = (smp (t - 1)).getLsbD 0

namespace Device

variable {w : DeviceIn} {fifo : Nat → Byte} {ins : Nat → DeviceIn} {t : Nat}

variable (w fifo) in
theorem mouseSynced_after (run : ∀ u < t, (ins u).reset = false) :
    MouseSynced (mouseSample w ins) t (after w fifo ins t).msync := by
  induction t with
  | zero => exact ⟨.start _, fun h => absurd h (by decide), fun h => absurd h (by decide)⟩
  | succ t ih =>
    have here := ih fun u low => run u (by omega)
    have frame := (next_frame (s := after w fifo ins t) (run t (Nat.lt_succ_self t))).2.1
    rw [after, frame]
    refine ⟨here.strobe.next rfl rfl, fun _ => ⟨rfl, rfl, rfl⟩, fun late => here.first (by omega)⟩

/-- The packets that have passed the synchronizer. -/
def packets (w : DeviceIn) (ins : Nat → DeviceIn) (t : Nat) : List Report :=
  record (packetAt (mouseSample w ins)) 0 (t - 3)

/-- The reports that the mouse has returned. -/
def told (w : DeviceIn) (fifo : Nat → Byte) (ins : Nat → DeviceIn) : Nat → List Report
  | 0 => []
  | t + 1 =>
    told w fifo ins t ++
      if (after w fifo ins t).line.finishes then (after w fifo ins t).line.moves else []

/-- The reports returned, on their way and waiting. -/
def moved (w : DeviceIn) (fifo : Nat → Byte) (ins : Nat → DeviceIn) (t : Nat) : List Report :=
  told w fifo ins t ++ (after w fifo ins t).line.moves ++ (after w fifo ins t).mouse.pending

variable (fifo) in
theorem packets_succ (run : ∀ u < t, (ins u).reset = false) :
    packets w ins (t + 1) = packets w ins t ++ (after w fifo ins t).arrivedNow := by
  have synced := mouseSynced_after w fifo run
  have edge : (after w fifo ins t).msync.mouseEdge = _ := synced.strobe.edge
  rw [packets, packets, arrivedNow, edge]
  by_cases late : 3 ≤ t
  · obtain ⟨u, rfl⟩ : ∃ u, t = u + 3 := ⟨t - 3, by omega⟩
    obtain ⟨x, y, button⟩ := synced.second (by omega)
    have next : u + 3 + 1 - 3 = u + 1 := by omega
    rw [next, Nat.add_sub_cancel, record_succ (Nat.zero_le _), x, y, button]
    simp only [late, decide_true, Bool.true_and, packetAt]
    split <;> rfl
  · have zero : t - 3 = 0 := by omega
    have zero' : t + 1 - 3 = 0 := by omega
    simp [zero, zero', late]

/-- **Mouse motion.** In every run whose clocks are clean, the reports and the event that
waits sum up to the movement of the packets, go through the same button states and end in
the state of the last packet. -/
theorem mouse_conserved (run : ∀ u < t, (ins u).reset = false)
    (clean : ∀ u < t, Clean (ins u) (after w fifo ins u)) :
    Tallies (moved w fifo ins t) (packets w ins t) (after w fifo ins t).mouse.mouseButton := by
  induction t with
  | zero =>
    have reports : moved w fifo ins 0 = [] := by
      simp [moved, told, after, reset, Line.moves, Line.mouseTalk, Line.cmdType, Mouse.pending]
    have none_ : packets w ins 0 = [] := rfl
    rw [reports, none_]
    exact ⟨rfl, rfl, rfl, rfl, rfl⟩
  | succ t ih =>
    have before := ih (fun u low => run u (by omega)) (fun u low => clean u (by omega))
    rw [packets_succ fifo fun u low => run u (by omega)]
    exact next_tallies (run t (Nat.lt_succ_self t)) (clean t (Nat.lt_succ_self t)) before

end Device

/-- A host that never polls. The mouse moves by five and, `gap` clocks later, by seven. -/
def moving (gap t : Nat) : DeviceIn :=
  { ps2Mouse :=
      if t < 16 then 0
      else if t < 16 + gap then BitVec.ofBool true ++ 0x000500#24
      else 0x000700#25 }

/-- The second movement replaces the first. -/
theorem movement_lost :
    ¬ Tallies (Device.moved {} (fun _ => 0) (moving 32) 60) (Device.packets {} (moving 32) 60)
      (Device.after {} (fun _ => 0) (moving 32) 60).mouse.mouseButton := by
  intro tallies
  exact absurd tallies.x (by decide +kernel)

theorem mouse_conserved_moving :
    Tallies (Device.moved {} (fun _ => 0) (moving 100) 60) (Device.packets {} (moving 100) 60)
      (Device.after {} (fun _ => 0) (moving 100) 60).mouse.mouseButton :=
  Device.mouse_conserved (fun _ _ => rfl) (by decide +kernel)

end Adb

end MacIIvi
