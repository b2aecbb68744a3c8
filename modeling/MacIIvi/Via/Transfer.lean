import MacIIvi.Via.ShiftRegister
import Mathlib.Data.List.Basic

/-!
# Bytes over the externally clocked shift register

Source: `rtl/via6522.sv`, modes 011 and 111. A transfer is an access to the shift
register and eight pulses of CB1. The edges shift and count clock by clock; the start
and the flag go by phi2.
-/

namespace MacIIvi

namespace Via

/-- A clock without an access to the shift register. -/
structure Calm (w : ViaIn) : Prop where
  run : w.reset = false
  phases : (w.rising && w.falling) = false
  noSr : w.srAccess = false

theorem Calm.noWrite {w : ViaIn} (calm : Calm w) : w.srWrite = false := by
  have noSr := calm.noSr
  simp only [ViaIn.srAccess, ViaIn.srWrite] at *
  revert noSr
  cases w.falling <;> cases w.wen <;> cases w.ren <;> simp

/-- Is there a rising enable in these clocks? -/
def rises (ws : List ViaIn) : Bool := ws.any ViaIn.rising

theorem rises_append (xs ys : List ViaIn) : rises (xs ++ ys) = (rises xs || rises ys) :=
  List.any_append

namespace SerialPort

variable {w : ViaIn} {ws xs ys : List ViaIn} {s : SerialPort} {host : Bool}

theorem run_append (s : SerialPort) (xs ys : List ViaIn) :
    s.run (xs ++ ys) = (s.run xs).run ys :=
  List.foldl_append

theorem events_append (s : SerialPort) (xs ys : List ViaIn) :
    s.events (xs ++ ys) = s.events xs + (s.run xs).events ys := by
  induction xs generalizing s with
  | nil => simp [events, run]
  | cons w xs ih =>
    rw [List.cons_append, events, ih, events, Nat.add_assoc]
    rfl

theorem ext_serport (ext : s.extClockMode = true) : s.serportEn = true := by
  simp only [extClockMode, siExtControl, soExtControl, shiftModeControl, Bool.or_eq_true,
    beq_iff_eq] at ext
  simp only [serportEn, shiftClkSel, Bool.or_eq_true, bne_iff_ne]
  omega

/-- What the edges of CB1 move. -/
structure Core where
  shiftReg : Byte
  cb2ShiftOut : Bool
  shiftActive : Bool
  bitCnt : Nat

def core (s : SerialPort) : Core := ⟨s.shiftReg, s.cb2ShiftOut, s.shiftActive, s.bitCnt⟩

/-- An edge that shifts and counts. -/
def Core.edge (out : Bool) (cb2I : Bool) (c : Core) : Core where
  shiftReg := if out then c.shiftReg.rotateLeft 1 else c.shiftReg.shiftConcat cb2I
  cb2ShiftOut := if out then c.shiftReg.getLsbD 7 else c.cb2ShiftOut
  shiftActive := c.shiftActive && c.bitCnt != 0
  bitCnt := if c.shiftActive then c.bitCnt - 1 else c.bitCnt

theorem ext_mode (ext : s.extClockMode = true) : (s.shiftModeControl != 0) = true := by
  simp only [extClockMode, siExtControl, soExtControl, Bool.or_eq_true, beq_iff_eq] at ext
  simp only [bne_iff_ne]
  omega

theorem clock_ext (w : ViaIn) (ext : s.extClockMode = true) :
    (s.clock w).shiftClock = w.cb1I ∧ (s.clock w).shiftClockD = s.shiftClock := by
  unfold SerialPort.clock
  rw [ext]
  simp only [if_true]
  split <;> exact ⟨rfl, rfl⟩

theorem shifted_calm (calm : Calm w) (ext : s.extClockMode = true) :
    s.shifted w =
      if s.counts then ((s.core.edge s.shiftDir w.cb2I).shiftReg,
        (s.core.edge s.shiftDir w.cb2I).cb2ShiftOut)
      else (s.shiftReg, s.cb2ShiftOut) := by
  simp only [SerialPort.shifted, calm.noWrite, ext, Bool.false_eq_true, if_false, if_true, counts,
    ext_mode ext, Bool.and_true, Core.edge, core]
  by_cases dir : s.shiftDir = true <;> simp [dir]

theorem activity_calm (calm : Calm w) (ext : s.extClockMode = true) :
    s.activity w =
      if s.counts then ((s.core.edge s.shiftDir w.cb2I).shiftActive,
        (s.core.edge s.shiftDir w.cb2I).bitCnt)
      else (s.shiftActive, s.bitCnt) := by
  have noStart : w.falling = true → ((w.ren || w.wen) && w.addr == 0xa) = false := by
    intro falling
    have noSr := calm.noSr
    simpa [ViaIn.srAccess, falling] using noSr
  have paced : (if w.falling then
      if !s.shiftActive && s.shiftModeControl != 0 then
        if (w.ren || w.wen) && w.addr == 0xa then (true, 7) else (s.shiftActive, s.bitCnt)
      else if !s.extClockMode then
        if s.shiftClkSel = 0 then (s.shiftDir, s.bitCnt)
        else if s.shiftPulse && s.shiftClock then
          if s.bitCnt = 0 then (false, s.bitCnt) else (s.shiftActive, s.bitCnt - 1)
        else (s.shiftActive, s.bitCnt)
      else (s.shiftActive, s.bitCnt)
    else (s.shiftActive, s.bitCnt)) = (s.shiftActive, s.bitCnt) := by
    cases falling : w.falling with
    | false => rfl
    | true =>
      rw [noStart falling, ext]
      simp
  unfold SerialPort.activity
  dsimp only
  rw [paced, ext]
  simp only [Bool.true_and, Core.edge, core]
  by_cases active : s.shiftActive = true <;> by_cases counts : s.counts = true <;>
    simp [active, counts]
  by_cases last : s.bitCnt = 0 <;> simp [last]

/-- A calm clock with an external clock. -/
theorem next_calm (calm : Calm w) (ext : s.extClockMode = true) :
    (next w s).acr = (if w.acrWrite then w.dataIn else s.acr) ∧
      (next w s).shiftClock = w.cb1I ∧ (next w s).shiftClockD = s.shiftClock ∧
      (next w s).core = (if s.counts then s.core.edge s.shiftDir w.cb2I else s.core) ∧
      (next w s).shiftActivePrevRising =
        (if w.rising then s.shiftActive else s.shiftActivePrevRising) := by
  have clock := clock_ext w ext
  have shifted := shifted_calm calm ext
  have activity := activity_calm calm ext
  unfold next
  rw [calm.run, if_neg Bool.false_ne_true]
  refine ⟨rfl, clock.1, clock.2, ?_, rfl⟩
  simp only [core, shifted, activity]
  split <;> rfl

/-- What these clocks see of the end of a transfer: nothing while the port is shifting,
the flag at the first rising enable once it has stopped. -/
structure Watched (s : SerialPort) (ws : List ViaIn) : Prop where
  prev : (s.run ws).shiftActivePrevRising =
    if s.shiftActive then s.shiftActivePrevRising || rises ws
    else s.shiftActivePrevRising && !rises ws
  events : s.events ws =
    if s.shiftActive then 0 else (s.shiftActivePrevRising && rises ws).toNat

theorem watched_nil (s : SerialPort) : Watched s [] := by
  constructor <;> cases s.shiftActive <;> simp [run, rises, events]

theorem sets_calm (calm : Calm w) (ext : s.extClockMode = true) :
    s.sets w = (s.shiftActivePrevRising && !s.shiftActive && w.rising) := by
  cases rising : w.rising with
  | false => simp [sets, serialEvent, rising]
  | true =>
    have falling : w.falling = false := by
      have phases := calm.phases
      rwa [rising, Bool.true_and] at phases
    simp [sets, serialEvent, rising, ext_serport ext, ViaIn.srAccess, ViaIn.ifrWrite, falling]

theorem watched_one (calm : Calm w) (ext : s.extClockMode = true) : Watched s [w] := by
  have prev := (next_calm calm ext).2.2.2.2
  constructor
  · simp only [run, List.foldl_cons, List.foldl_nil, prev, rises, List.any_cons, List.any_nil]
    cases w.rising <;> cases s.shiftActive <;> simp
  · simp only [events, sets_calm calm ext, rises, List.any_cons, List.any_nil]
    cases w.rising <;> cases s.shiftActive <;> simp

theorem Watched.append (first : Watched s xs)
    (same : (s.run xs).shiftActive = s.shiftActive) (second : Watched (s.run xs) ys) :
    Watched s (xs ++ ys) := by
  constructor
  · rw [run_append, second.prev, first.prev, same, rises_append]
    cases s.shiftActive <;> simp [Bool.and_assoc, Bool.or_assoc]
  · rw [events_append, second.events, first.events, first.prev, same, rises_append]
    cases s.shiftActive <;> cases s.shiftActivePrevRising <;> cases rises xs <;> simp

/-- Clocks without a counted edge. -/
theorem still_run {Q : SerialPort → Prop} (calm : ∀ w ∈ ws, Calm w)
    (ext : ∀ s, Q s → s.extClockMode = true) (still : ∀ s, Q s → s.counts = false)
    (keep : ∀ s, ∀ w ∈ ws, Q s → Q (next w s)) (here : Q s) :
    Q (s.run ws) ∧ (s.run ws).core = s.core ∧ Watched s ws := by
  induction ws generalizing s with
  | nil => exact ⟨here, rfl, watched_nil s⟩
  | cons w ws ih =>
    have calm' := calm w (List.mem_cons_self ..)
    have core : (next w s).core = s.core := by
      have step := (next_calm calm' (ext s here)).2.2.2.1
      rwa [still s here, if_neg Bool.false_ne_true] at step
    obtain ⟨there, rest, watched⟩ := ih (fun v mem => calm v (List.mem_cons_of_mem w mem))
      (fun s v mem => keep s v (List.mem_cons_of_mem w mem))
      (keep s w (List.mem_cons_self ..) here)
    refine ⟨there, rest.trans core, ?_⟩
    have first := watched_one calm' (ext s here)
    exact first.append (congrArg Core.shiftActive core) watched

/-- With an external clock, and the edges of this level seen. -/
structure Settled (b : Bool) (s : SerialPort) : Prop where
  ext : s.extClockMode = true
  level : s.shiftClock = b
  seen : s.shiftClockD = b

/-- Clocks at this level of CB1, in which ACR selects an external clock. -/
def Parked (b : Bool) (ws : List ViaIn) : Prop :=
  ∀ w ∈ ws, Calm w ∧ w.cb1I = b ∧
    (w.acrWrite = true → ({ acr := w.dataIn } : SerialPort).extClockMode = true)

/-- Clocks at this level of CB1, without an access to ACR. -/
def Level (b : Bool) (ws : List ViaIn) : Prop :=
  ∀ w ∈ ws, Calm w ∧ w.cb1I = b ∧ w.acrWrite = false

variable {b : Bool}

theorem Level.parked (level : Level b ws) : Parked b ws := by
  intro w mem
  obtain ⟨calm, cb1, noAcr⟩ := level w mem
  exact ⟨calm, cb1, fun acr => absurd (noAcr.symm.trans acr) Bool.false_ne_true⟩

theorem Level.append (first : Level b xs) (second : Level b ys) : Level b (xs ++ ys) := by
  intro w mem
  rcases List.mem_append.mp mem with mem | mem
  · exact first w mem
  · exact second w mem

theorem Level.sublist (level : Level b ws) (part : xs.Sublist ws) : Level b xs :=
  fun w mem => level w (part.subset mem)

theorem next_ext (calm : Calm w) (ext : s.extClockMode = true)
    (acr : w.acrWrite = true → ({ acr := w.dataIn } : SerialPort).extClockMode = true) :
    (next w s).extClockMode = true := by
  have kept := (next_calm calm ext).1
  cases write : w.acrWrite with
  | false =>
    rw [write, if_neg Bool.false_ne_true] at kept
    simpa only [extClockMode, siExtControl, soExtControl, shiftModeControl, kept] using ext
  | true =>
    rw [write, if_pos rfl] at kept
    simpa only [extClockMode, siExtControl, soExtControl, shiftModeControl, kept] using acr write

theorem Settled.counts (settled : Settled b s) : s.counts = false := by
  simp only [SerialPort.counts, shiftTickF, shiftTickR, settled.level, settled.seen]
  cases b <;> simp

theorem parked_run (parked : Parked b ws) (settled : Settled b s) :
    Settled b (s.run ws) ∧ (s.run ws).core = s.core ∧ Watched s ws := by
  refine still_run (fun w mem => (parked w mem).1) (fun s settled => settled.ext)
    (fun s settled => settled.counts) ?_ settled
  intro s w mem settled
  obtain ⟨calm, cb1, acr⟩ := parked w mem
  obtain ⟨-, clock, seen, -⟩ := next_calm calm settled.ext
  exact ⟨next_ext calm settled.ext acr, clock.trans cb1, seen.trans settled.level⟩

/-- A level and its edge, in the direction that counts the other edge. -/
structure Passing (b : Bool) (acr : Byte) (s : SerialPort) : Prop where
  ext : s.extClockMode = true
  dir : s.shiftDir = b
  mode : s.acr = acr
  once : s.shiftClockD = b → s.shiftClock = b

theorem shiftDir_acr {s' : SerialPort} (same : s'.acr = s.acr) : s'.shiftDir = s.shiftDir := by
  rw [shiftDir, shiftDir, same]

theorem Passing.counts {acr : Byte} (passing : Passing b acr s) : s.counts = false := by
  obtain ⟨-, dir, -, once⟩ := passing
  simp only [SerialPort.counts, shiftTickF, shiftTickR, dir]
  revert once
  cases b <;> cases s.shiftClock <;> cases s.shiftClockD <;> simp

theorem passing_run {acr : Byte} (level : Level b ws) (passing : Passing b acr s) :
    Passing b acr (s.run ws) ∧ (s.run ws).core = s.core ∧ Watched s ws := by
  refine still_run (fun w mem => (level w mem).1) (fun s passing => passing.ext)
    (fun s passing => passing.counts) ?_ passing
  intro s w mem passing
  obtain ⟨calm, cb1, noAcr⟩ := level w mem
  obtain ⟨same, clock, -, -⟩ := next_calm calm passing.ext
  rw [noAcr, if_neg Bool.false_ne_true] at same
  exact ⟨next_ext calm passing.ext fun write => absurd (noAcr.symm.trans write) Bool.false_ne_true,
    (shiftDir_acr same).trans passing.dir, same.trans passing.mode, fun _ => clock.trans cb1⟩

theorem level_acr (level : Level b ws) (ext : s.extClockMode = true) :
    (s.run ws).acr = s.acr ∧ (s.run ws).extClockMode = true := by
  induction ws generalizing s with
  | nil => exact ⟨rfl, ext⟩
  | cons w ws ih =>
    obtain ⟨calm, -, noAcr⟩ := level w (List.mem_cons_self ..)
    have same := (next_calm calm ext).1
    rw [noAcr, if_neg Bool.false_ne_true] at same
    obtain ⟨rest, there⟩ := ih (fun v mem => level v (List.mem_cons_of_mem w mem))
      (next_ext calm ext fun write => absurd (noAcr.symm.trans write) Bool.false_ne_true)
    exact ⟨rest.trans same, there⟩

/-- The first two clocks of a level: the edge is seen in the second. -/
theorem edge_run {u v : ViaIn} (level : Level b [u, v]) (settled : Settled (!b) s) :
    Settled b (s.run [u, v]) ∧
      (s.run [u, v]).core =
        (if s.shiftDir = b then s.core else s.core.edge s.shiftDir v.cb2I) ∧
      Watched s [u, v] := by
  obtain ⟨calm, cb1, noAcr⟩ := level u (List.mem_cons_self ..)
  obtain ⟨calm', cb1', noAcr'⟩ := level v (List.mem_cons_of_mem u (List.mem_cons_self ..))
  have single : Level b [u] := fun w mem => level w (List.mem_cons.mpr
    (Or.inl (List.mem_singleton.mp mem)))
  have kept : (next u s).acr = s.acr ∧ (next u s).extClockMode = true :=
    level_acr single settled.ext
  obtain ⟨acr, ext⟩ := kept
  obtain ⟨-, clock, seen, core, -⟩ := next_calm calm settled.ext
  rw [settled.counts, if_neg Bool.false_ne_true] at core
  obtain ⟨-, clock', seen', core', -⟩ := next_calm calm' ext
  have counts : (next u s).counts = !(s.shiftDir == b) := by
    rw [SerialPort.counts, shiftDir_acr acr, shiftTickF, shiftTickR, clock, seen, cb1,
      settled.level]
    cases s.shiftDir <;> cases b <;> rfl
  have ext' := (level_acr level settled.ext).2
  refine ⟨⟨ext', clock'.trans cb1', ?_⟩, ?_, ?_⟩
  · exact seen'.trans (clock.trans cb1)
  · refine core'.trans ?_
    rw [counts, core, shiftDir_acr acr]
    by_cases same : s.shiftDir = b <;> simp [same]
  · have first := watched_one calm settled.ext
    exact first.append (congrArg Core.shiftActive core) (watched_one calm' ext)

end SerialPort

/-- A pulse of CB1. -/
structure Cell where
  lows : List ViaIn
  highs : List ViaIn

namespace Cell

def clocks (c : Cell) : List ViaIn := c.lows ++ c.highs

/-- CB2 in the clock in which the port sees the rising edge. -/
def level (c : Cell) : Bool := (c.highs.getD 1 {}).cb2I

/-- At least three clocks a half, and a period of phi2 in it. -/
structure Ok (c : Cell) : Prop where
  longLow : 3 ≤ c.lows.length
  longHigh : 3 ≤ c.highs.length
  low : SerialPort.Level false c.lows
  high : SerialPort.Level true c.highs
  period : rises c.clocks = true

/-- Up to the edge that counts. -/
def before (c : Cell) (out : Bool) : List ViaIn :=
  if out then c.lows.take 2 else c.lows ++ c.highs.take 2

/-- From the edge that counts. -/
def after (c : Cell) (out : Bool) : List ViaIn :=
  if out then c.lows.drop 2 ++ c.highs else c.highs.drop 2

theorem before_after (c : Cell) (out : Bool) : c.before out ++ c.after out = c.clocks := by
  cases out with
  | true => rw [before, after, if_pos rfl, if_pos rfl, ← List.append_assoc, List.take_append_drop,
      clocks]
  | false => rw [before, after, if_neg Bool.false_ne_true, if_neg Bool.false_ne_true,
      List.append_assoc, List.take_append_drop, clocks]

end Cell

namespace SerialPort

variable {s : SerialPort} {ws xs ys : List ViaIn} {b : Bool} {c : Cell} {cs : List Cell}

/-- Where CB1 changes, with its level before `take` and its level after. -/
theorem take_two (long : 3 ≤ ws.length) : ∃ u v, ws.take 2 = [u, v] ∧ ws.getD 1 {} = v := by
  match ws, long with
  | u :: v :: _, _ => exact ⟨u, v, rfl, rfl⟩

/-- The first two clocks of a level. -/
theorem start_run (long : 3 ≤ ws.length) (level : Level b ws) (settled : Settled (!b) s) :
    Settled b (s.run (ws.take 2)) ∧ (s.run (ws.take 2)).acr = s.acr ∧
      (s.run (ws.take 2)).core =
        (if s.shiftDir = b then s.core else s.core.edge s.shiftDir (ws.getD 1 {}).cb2I) ∧
      Watched s (ws.take 2) := by
  obtain ⟨u, v, two, second⟩ := take_two long
  have part : Level b (ws.take 2) := level.sublist (List.take_sublist 2 ws)
  rw [two] at part ⊢
  obtain ⟨there, core, watched⟩ := edge_run part settled
  rw [second]
  exact ⟨there, (level_acr part settled.ext).1, core, watched⟩

/-- A whole level without a counted edge. -/
theorem skip_run (long : 3 ≤ ws.length) (level : Level b ws) (settled : Settled (!b) s)
    (dir : s.shiftDir = b) :
    Settled b (s.run ws) ∧ (s.run ws).acr = s.acr ∧ (s.run ws).core = s.core ∧ Watched s ws := by
  obtain ⟨there, -, core, first⟩ := start_run long level settled
  rw [if_pos dir] at core
  have rest : Level b (ws.drop 2) := level.sublist (List.drop_sublist 2 ws)
  obtain ⟨done, still, second⟩ := parked_run rest.parked there
  rw [← run_append, List.take_append_drop] at done still
  have watched := first.append (congrArg Core.shiftActive core) second
  rw [List.take_append_drop] at watched
  exact ⟨done, (level_acr level settled.ext).1, still.trans core, watched⟩

/-- Up to the counted edge of a pulse. -/
theorem before_run (settled : Settled true s) (ok : c.Ok) :
    Settled (!s.shiftDir) (s.run (c.before s.shiftDir)) ∧
      (s.run (c.before s.shiftDir)).acr = s.acr ∧
      (s.run (c.before s.shiftDir)).core = s.core.edge s.shiftDir c.level ∧
      Watched s (c.before s.shiftDir) := by
  cases dir : s.shiftDir with
  | true =>
    obtain ⟨there, acr, core, watched⟩ := start_run ok.longLow ok.low settled
    rw [dir, if_neg (by decide)] at core
    exact ⟨there, acr, core, watched⟩
  | false =>
    obtain ⟨low, acr, core, first⟩ := skip_run ok.longLow ok.low settled dir
    obtain ⟨there, acr', core', second⟩ := start_run ok.longHigh ok.high low
    rw [shiftDir_acr acr, dir, if_neg Bool.false_ne_true, core] at core'
    have watched := first.append (congrArg Core.shiftActive core) second
    rw [← run_append] at there acr' core'
    exact ⟨there, acr'.trans acr, core', watched⟩

/-- From the counted edge of a pulse to its end. -/
theorem after_run (settled : Settled (!s.shiftDir) s) (ok : c.Ok) :
    Settled true (s.run (c.after s.shiftDir)) ∧
      (s.run (c.after s.shiftDir)).acr = s.acr ∧
      (s.run (c.after s.shiftDir)).core = s.core ∧ Watched s (c.after s.shiftDir) := by
  cases dir : s.shiftDir with
  | true =>
    rw [dir] at settled
    have rest : Level false (c.lows.drop 2) := ok.low.sublist (List.drop_sublist 2 c.lows)
    obtain ⟨low, core, first⟩ := parked_run rest.parked settled
    have acr := (level_acr rest settled.ext).1
    obtain ⟨there, acr', core', second⟩ :=
      skip_run ok.longHigh ok.high low ((shiftDir_acr acr).trans dir)
    have watched := first.append (congrArg Core.shiftActive core) second
    rw [← run_append] at there acr' core'
    exact ⟨there, acr'.trans acr, core'.trans core, watched⟩
  | false =>
    rw [dir] at settled
    have rest : Level true (c.highs.drop 2) := ok.high.sublist (List.drop_sublist 2 c.highs)
    obtain ⟨there, core, watched⟩ := parked_run rest.parked settled
    exact ⟨there, (level_acr rest settled.ext).1, core, watched⟩

/-- A pulse while bits are left. -/
theorem cell_run (settled : Settled true s) (ok : c.Ok) (active : s.shiftActive = true)
    (left : 0 < s.bitCnt) :
    Settled true (s.run c.clocks) ∧ (s.run c.clocks).acr = s.acr ∧
      (s.run c.clocks).core = s.core.edge s.shiftDir c.level ∧
      (s.run c.clocks).shiftActive = true ∧ (s.run c.clocks).bitCnt = s.bitCnt - 1 ∧
      Watched s c.clocks := by
  obtain ⟨mid, acr, core, first⟩ := before_run settled ok
  have counted : Settled (!(s.run (c.before s.shiftDir)).shiftDir)
      (s.run (c.before s.shiftDir)) := by
    rw [shiftDir_acr acr]
    exact mid
  obtain ⟨there, acr', core', second⟩ := after_run counted ok
  rw [shiftDir_acr acr] at there acr' core' second
  have going : (s.core.edge s.shiftDir c.level).shiftActive = true := by
    simp only [Core.edge, SerialPort.core, active, Bool.true_and, bne_iff_ne]
    omega
  have taken : (s.core.edge s.shiftDir c.level).bitCnt = s.bitCnt - 1 := by
    simp only [Core.edge, SerialPort.core, active, if_true]
  have same : (s.run (c.before s.shiftDir)).shiftActive = s.shiftActive :=
    (congrArg Core.shiftActive core).trans (going.trans active.symm)
  have watched := first.append same second
  rw [c.before_after] at watched
  rw [← run_append, c.before_after] at there acr' core'
  rw [core] at core'
  exact ⟨there, acr'.trans acr, core', (congrArg Core.shiftActive core').trans going,
    (congrArg Core.bitCnt core').trans taken, watched⟩

/-- The counted edges of these pulses. -/
def Core.edges (out : Bool) (levels : List Bool) (c : Core) : Core :=
  levels.foldl (fun c level => c.edge out level) c

def pulses (cs : List Cell) : List ViaIn := cs.flatMap Cell.clocks

theorem cells_run (settled : Settled true s) (ok : ∀ c ∈ cs, c.Ok)
    (active : s.shiftActive = true) (left : cs.length ≤ s.bitCnt) :
    Settled true (s.run (pulses cs)) ∧ (s.run (pulses cs)).acr = s.acr ∧
      (s.run (pulses cs)).core = s.core.edges s.shiftDir (cs.map Cell.level) ∧
      (s.run (pulses cs)).shiftActive = true ∧
      (s.run (pulses cs)).bitCnt = s.bitCnt - cs.length ∧ Watched s (pulses cs) := by
  induction cs generalizing s with
  | nil => exact ⟨settled, rfl, rfl, active, rfl, watched_nil s⟩
  | cons c cs ih =>
    rw [List.length_cons] at left
    obtain ⟨one, acr, core, going, taken, first⟩ :=
      cell_run settled (ok c (List.mem_cons_self ..)) active (by omega)
    obtain ⟨all, acr', core', going', taken', second⟩ := ih one
      (fun d mem => ok d (List.mem_cons_of_mem c mem)) going (by omega)
    rw [shiftDir_acr acr, core] at core'
    have watched := first.append (going.trans active.symm) second
    rw [← run_append] at all acr' core' going' taken'
    refine ⟨all, acr'.trans acr, core', going', ?_, watched⟩
    exact taken'.trans (by rw [taken, List.length_cons]; omega)

end SerialPort

end Via

end MacIIvi
