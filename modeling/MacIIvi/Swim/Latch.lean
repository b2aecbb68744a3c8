import MacIIvi.Swim.Controller

/-!
# The IWM read latch

The bytes that a polling loop reads with bit 7 set, against the bytes the drive
delivered. Each byte goes through three stages: it waits in the latch, it is
read, and the one-shot that the read started clears it thirteen ticks later.
-/

namespace MacIIvi

namespace Swim

open Clocked

/-- A polling loop that only reads the data register, at `q6L` or `q7L`. -/
def PollsOnly (w : In) : Prop :=
  w.rst = false ∧
    (w.swimAcc = true → w.cpuRW = true ∧ (w.cpuAddrRegHi = 0xC ∨ w.cpuAddrRegHi = 0xE))

/-- The data register of an enabled drive is selected, and the squelch after the
enable has elapsed. -/
structure Ready (s : Swim) : Prop where
  mode : s.ism.ismMode = false
  q6 : s.iwm.q6 = false
  q7 : s.iwm.q7 = false
  enable : anyDiskEnable s = true
  enabled : s.latch.anyDiskEnableD = true
  armed : s.latch.readDataArmDelay = 0
  reading : s.acc.swimAccD = true → s.acc.accRwL = true

theorem Ready.step {w : In} {s : Swim} (h : Ready s) (polls : PollsOnly w) : Ready (next w s) := by
  obtain ⟨mode, q6, q7, enable, enabled, armed, reading⟩ := h
  obtain ⟨rst, data⟩ := polls
  have stays : switches w s = false := by
    cases acc : s.acc.swimAccD with
    | false => simp [switches, accEnd, acc]
    | true => simp [switches, switchBit, reading acc]
  have phases : ismWrites w s 4 = false := by simp [ismWrites, mode]
  have modeClear : ismWrites w s 6 = false := by simp [ismWrites, mode]
  have bits : (iwmBits w s).q6 = false ∧ (iwmBits w s).q7 = false ∧
      (iwmBits w s).diskEnableExt = s.iwm.diskEnableExt ∧
      (iwmBits w s).diskEnableInt = s.iwm.diskEnableInt := by
    unfold iwmBits
    cases acc : w.swimAcc with
    | false => simp [q6, q7]
    | true => rcases (data acc).2 with addr | addr <;> simp [mode, addr, q6, q7]
  have regs : (iwmNext w s).q6 = false ∧ (iwmNext w s).q7 = false ∧
      (iwmNext w s).diskEnableExt = s.iwm.diskEnableExt ∧
      (iwmNext w s).diskEnableInt = s.iwm.diskEnableInt := by
    simp [iwmNext, bits, phases]
  constructor
  · simp [next, rst, ismNext, stays, modeClear, mode]
  · simp [next, rst, regs]
  · simp [next, rst, regs]
  · simpa [next, rst, anyDiskEnable, regs] using enable
  · simp [next, rst, latchNext, enable]
  · simp [next, rst, latchNext, enabled, armed]
  · simp only [next, rst, Bool.false_eq_true, if_false, accNext]
    split
    case isTrue acc => exact fun _ => (data acc).1
    case isFalse => simp

/-! ### What the CPU reads -/

variable (r : Run Step) (sync : Bool)

/-- The tick whose registers the CPU takes when an access ends at `k`. The CPU takes
the data in the last clock of UDS; if that clock is itself a tick (`sync`), it sees
the registers before that tick. -/
def sampleTick (k : Nat) : Nat := if sync then k - 1 else k

/-- An access of the data register ends at tick `k`. -/
def readEnds (k : Nat) : Bool := iwmReadEnd (r.state k).1 (r.state k).2

/-- A byte arrives at tick `k`. -/
def arrives (k : Nat) : Bool := latches (r.state k).1 (r.state k).2

/-- The byte that arrives. -/
def arrival (k : Nat) : Option (BitVec 8) :=
  if arrives r k then some (iwmDrive (r.state k).1 (r.state k).2).readData else none

/-- The value read with bit 7 set by the access that ends at `k`. -/
def validRead (k : Nat) : Option (BitVec 8) :=
  if readEnds r k then
    (some (dataOutLatch (r.state (sampleTick sync k)).2)).filter fun v => v.getLsbD 7
  else none

/-- The read-latch registers at tick `k`. -/
def latchAt (k : Nat) : ReadLatch := (r.state k).2.latch

/-- The conditions at tick `k`. No byte arrives while a clear delay runs; the CPU
takes no data while one runs, and, if it takes them at a tick, no byte arrives then. -/
structure Clean (k : Nat) : Prop where
  undisturbed : arrives r k = true → (latchAt r k).readLatchClearTimer < 2 ∧
    ¬ (readEnds r k = true ∧ (latchAt r k).readDataLatch.getLsbD 7 = true)
  once : readEnds r k = true → (latchAt r (sampleTick sync k)).readLatchClearTimer = 0
  apart : readEnds r k = true → sync = true → arrives r (k - 1) = false

/-- The polling of a stretch of ticks: from `a` to `T` the CPU reads nothing but
the data register, and ends a read in every `spacing` ticks; the bytes have bit 7
set and come at least `spacing` ticks apart. -/
structure Polling (spacing a T : Nat) : Prop where
  ready : Ready (r.state a).2
  idle : (latchAt r a).iwmReadD = false
  clear : (latchAt r a).readDataLatch = 0
  still : (latchAt r a).readLatchClearTimer = 0
  polls : ∀ k, a ≤ k → k < T → PollsOnly (r.state k).1
  often : ∀ k, a ≤ k → k + spacing ≤ T → ∃ e, k < e ∧ e ≤ k + spacing ∧ readEnds r e = true
  msb : ∀ k, a ≤ k → k < T → ∀ b, arrival r k = some b → b.getLsbD 7 = true
  spaced : ∀ k l, a ≤ k → k < l → l < T → arrives r k = true → arrives r l = true → k + spacing ≤ l

instance (k : Nat) : Decidable (Clean r sync k) :=
  decidable_of_iff ((arrives r k = true → (latchAt r k).readLatchClearTimer < 2 ∧
        ¬ (readEnds r k = true ∧ (latchAt r k).readDataLatch.getLsbD 7 = true)) ∧
      (readEnds r k = true → (latchAt r (sampleTick sync k)).readLatchClearTimer = 0) ∧
      (readEnds r k = true → sync = true → arrives r (k - 1) = false))
    ⟨fun ⟨undisturbed, once, apart⟩ => ⟨undisturbed, once, apart⟩,
      fun h => ⟨h.undisturbed, h.once, h.apart⟩⟩

variable {r sync} {spacing a T t : Nat}

theorem Polling.ready_at (p : Polling r spacing a T) (ht : a ≤ t) (hT : t ≤ T) :
    Ready (r.state t).2 := by
  induction t, ht using Nat.le_induction with
  | base => exact p.ready
  | succ t ht ih =>
    rw [r.step t]
    exact (ih (by omega)).step (p.polls t ht (by omega))

/-- The latch after a tick of polling. -/
theorem Polling.latch_next (p : Polling r spacing a T) (ht : a ≤ t) (hT : t < T) :
    (latchAt r (t + 1)).readLatchClearTimer =
      (if readEnds r t && (latchAt r t).readDataLatch.getLsbD 7 then 0xD
        else (latchAt r t).readLatchClearTimer - 1) ∧
    (latchAt r (t + 1)).readDataLatch =
      (if arrives r t then (iwmDrive (r.state t).1 (r.state t).2).readData
        else if (latchAt r t).readLatchClearTimer = 1 then 0 else (latchAt r t).readDataLatch) ∧
    (latchAt r (t + 1)).iwmReadD = iwmRead (r.state t).1 (r.state t).2 := by
  have ready := p.ready_at ht (Nat.le_of_lt hT)
  have rst := (p.polls t ht hT).1
  have step : (latchAt r (t + 1)) = latchNext (r.state t).1 (r.state t).2 := by
    rw [latchAt, r.step t]
    simp [next, rst]
  rw [step]
  simp only [latchNext, rst, ready.enabled, Bool.not_true, Bool.and_false, Bool.false_eq_true,
    if_false]
  exact ⟨rfl, rfl, trivial⟩

/-- A read that ends has been going on in the tick before, so no read ended there. -/
theorem Polling.read_before (p : Polling r spacing a T) (ht : a ≤ t) (hT : t < T)
    (ends : readEnds r t = true) : a < t ∧ readEnds r (t - 1) = false := by
  have reading : (latchAt r t).iwmReadD = true := by
    simp only [readEnds, iwmReadEnd, Bool.and_eq_true] at ends
    exact ends.1
  have later : a < t := by
    by_contra first
    have here : t = a := by omega
    rw [here, p.idle] at reading
    cases reading
  obtain ⟨u, rfl⟩ : ∃ u, t = u + 1 := ⟨t - 1, by omega⟩
  rw [(p.latch_next (by omega) (by omega)).2.2] at reading
  refine ⟨later, ?_⟩
  simp [readEnds, iwmReadEnd, reading]

/-- In a clean tick the CPU takes what the latch holds at the end of the access, and
no clear delay runs. -/
theorem Clean.sampled (clean : Clean r sync t) (p : Polling r spacing a T) (ht : a ≤ t) (hT : t < T)
    (ends : readEnds r t = true) :
    (latchAt r t).readLatchClearTimer = 0 ∧
      validRead r sync t =
        if (latchAt r t).readDataLatch.getLsbD 7 then some (latchAt r t).readDataLatch else none := by
  obtain ⟨later, quiet⟩ := p.read_before ht hT ends
  have timer := clean.once ends
  have same : (latchAt r t).readLatchClearTimer = 0 ∧
      (latchAt r (sampleTick sync t)).readDataLatch = (latchAt r t).readDataLatch := by
    cases mode : sync with
    | false =>
      rw [mode] at timer
      exact ⟨timer, rfl⟩
    | true =>
      obtain ⟨u, rfl⟩ : ∃ u, t = u + 1 := ⟨t - 1, by omega⟩
      have still := clean.apart ends mode
      rw [mode] at timer
      simp only [sampleTick, if_true, Nat.add_sub_cancel] at timer quiet still ⊢
      obtain ⟨next, latch, -⟩ := p.latch_next (t := u) (by omega) (by omega)
      refine ⟨?_, ?_⟩
      · rw [next, quiet, timer]
        rfl
      · rw [latch, still, timer]
        rfl
  have enable : anyDiskEnable (r.state (sampleTick sync t)).2 = true := by
    refine (p.ready_at (t := sampleTick sync t) ?_ ?_).enable
    all_goals
      unfold sampleTick
      split <;> omega
  refine ⟨same.1, ?_⟩
  have shown : dataOutLatch (r.state (sampleTick sync t)).2 = (latchAt r t).readDataLatch := by
    rw [dataOutLatch, if_pos enable]
    exact same.2
  rw [validRead, if_pos ends, shown]
  simp only [Option.filter]

/-! ### The three stages of a byte -/

/-- The latch at tick `t` and the bytes read so far: it is empty, it holds a byte
not yet read, or it holds the last byte read while the clear delay runs. -/
inductive Held (r : Run Step) (sync : Bool) (a t : Nat) : Prop
  | empty (latch : (latchAt r t).readDataLatch = 0) (timer : (latchAt r t).readLatchClearTimer = 0)
      (read : record (validRead r sync) a t = record (arrival r) a t)
  | waiting (since : Nat) (b : BitVec 8) (after : a ≤ since) (before : since < t)
      (byte : arrival r since = some b) (latch : (latchAt r t).readDataLatch = b)
      (timer : (latchAt r t).readLatchClearTimer = 0)
      (read : record (validRead r sync) a t = record (arrival r) a since)
      (here : record (arrival r) a t = record (arrival r) a since ++ [b])
      (unread : ∀ e, since < e → e < t → readEnds r e = false)
  | spent (timer : 0 < (latchAt r t).readLatchClearTimer)
      (read : record (validRead r sync) a t = record (arrival r) a t)

theorem Held.step (held : Held r sync a t) (p : Polling r spacing a T) (clean : Clean r sync t)
    (ht : a ≤ t) (hT : t < T) : Held r sync a (t + 1) := by
  obtain ⟨timerNext, latchNext, -⟩ := p.latch_next ht hT
  have values : record (validRead r sync) a (t + 1) =
      record (validRead r sync) a t ++ (validRead r sync t).toList := record_succ ht
  have bytes : record (arrival r) a (t + 1) = record (arrival r) a t ++ (arrival r t).toList :=
    record_succ ht
  have zeroBit : (0 : BitVec 8).getLsbD 7 = false := by decide
  -- a byte that comes while nothing unread is in the latch
  have comes : arrives r t = true → record (validRead r sync) a t = record (arrival r) a t →
      validRead r sync t = none → (latchAt r (t + 1)).readLatchClearTimer = 0 →
      Held r sync a (t + 1) := by
    intro byte read none timer
    have some : arrival r t = some (iwmDrive (r.state t).1 (r.state t).2).readData := by
      rw [arrival, if_pos byte]
    refine .waiting t _ ht (by omega) some ?_ timer ?_ ?_ (by intro e; omega)
    · rw [latchNext, if_pos byte]
    · rw [values, none, read]
      simp
    · rw [bytes, some]
      simp
  cases held with
  | empty latch timer read =>
    have none : validRead r sync t = none := by
      by_cases ends : readEnds r t = true
      · rw [(clean.sampled p ht hT ends).2, latch]
        simp
      · rw [validRead, if_neg ends]
    have off : (latchAt r (t + 1)).readLatchClearTimer = 0 := by
      rw [timerNext, latch, timer, zeroBit]
      simp
    cases byte : arrives r t with
    | true => exact comes byte read none off
    | false =>
      refine .empty ?_ off ?_
      · rw [latchNext, byte, timer, latch]
        simp
      · rw [values, bytes, none, read, arrival, byte]
        simp
  | waiting since b after before byte latch timer read here unread =>
    have msb : b.getLsbD 7 = true := p.msb since after (by omega) b byte
    have first : arrives r since = true := by
      by_contra absent
      rw [arrival, if_neg absent] at byte
      cases byte
    have quiet : arrives r t = false := by
      by_contra next
      have next : arrives r t = true := by simpa using next
      have far := p.spaced since t after before hT first next
      obtain ⟨e, he, hle, ends⟩ := p.often since after (by omega)
      rcases Nat.lt_or_ge e t with early | late
      · rw [unread e he early] at ends
        cases ends
      · have now : e = t := by omega
        subst now
        exact (clean.undisturbed next).2 ⟨ends, by rw [latch]; exact msb⟩
    have noByte : arrival r t = none := by simp [arrival, quiet]
    cases ends : readEnds r t with
    | true =>
      have value := (clean.sampled p ht hT ends).2
      rw [latch, msb, if_pos rfl] at value
      refine .spent ?_ ?_
      · rw [timerNext, ends, latch, msb]
        simp
      · rw [values, bytes, value, noByte, read, here]
        simp
    | false =>
      have none : validRead r sync t = none := by simp [validRead, ends]
      refine .waiting since b after (by omega) byte ?_ ?_ ?_ ?_ ?_
      · rw [latchNext, quiet, timer, latch]
        simp
      · rw [timerNext, ends, timer]
        simp
      · rw [values, none, read]
        simp
      · rw [bytes, noByte, here]
        simp
      · intro e he hlt
        rcases Nat.lt_or_ge e t with early | late
        · exact unread e he early
        · have now : e = t := by omega
          rw [now]
          exact ends
  | spent timer read =>
    have between : readEnds r t = false := by
      by_contra ends
      have off := (clean.sampled p ht hT (by simpa using ends)).1
      omega
    have none : validRead r sync t = none := by simp [validRead, between]
    have down : (latchAt r (t + 1)).readLatchClearTimer = (latchAt r t).readLatchClearTimer - 1 := by
      rw [timerNext, between]
      simp
    cases byte : arrives r t with
    | true =>
      have last := (clean.undisturbed byte).1
      exact comes byte read none (by omega)
    | false =>
      have same : record (validRead r sync) a (t + 1) = record (arrival r) a (t + 1) := by
        rw [values, bytes, none, read, arrival, byte]
        simp
      by_cases last : (latchAt r t).readLatchClearTimer = 1
      · refine .empty ?_ (by omega) same
        rw [latchNext, byte, last]
        simp
      · exact .spent (by omega) same

theorem Polling.held (p : Polling r spacing a T) (clean : ∀ k, a ≤ k → k < T → Clean r sync k)
    (ht : a ≤ t) (hT : t ≤ T) : Held r sync a t := by
  induction t, ht using Nat.le_induction with
  | base => exact .empty p.clear p.still (by simp)
  | succ t ht ih => exact (ih (by omega)).step p (clean t ht (by omega)) ht (by omega)

/-- The values read with bit 7 set are the bytes delivered: no other is ever read,
and each byte is read within `spacing` ticks. -/
def Faithful (r : Run Step) (sync : Bool) (spacing a T : Nat) : Prop :=
  (∀ t, a ≤ t → t ≤ T → record (validRead r sync) a t <+: record (arrival r) a t) ∧
    ∀ t, a ≤ t → t + spacing + 1 ≤ T →
      record (arrival r) a t <+: record (validRead r sync) a (t + spacing + 1)

/-- A polling loop in clean ticks reads each delivered byte exactly once. -/
theorem iwm_reads_each_once (r : Run Step) (sync : Bool) (spacing a T : Nat)
    (p : Polling r spacing a T) (clean : ∀ k, a ≤ k → k < T → Clean r sync k) :
    Faithful r sync spacing a T := by
  refine ⟨?_, ?_⟩
  · intro t ht hT
    cases p.held clean ht hT with
    | empty _ _ read => rw [read]
    | waiting since b _ _ _ _ _ read here _ =>
      rw [read, here]
      exact List.prefix_append _ _
    | spent _ read => rw [read]
  · intro t ht hT
    have grows : record (arrival r) a t <+: record (arrival r) a (t + spacing + 1) :=
      record_prefix ht (by omega)
    cases p.held clean (t := t + spacing + 1) (by omega) hT with
    | empty _ _ read =>
      rw [read]
      exact grows
    | waiting since b after before _ _ _ read _ unread =>
      -- a byte still waiting arrived at `t` or later
      have late : t ≤ since := by
        by_contra early
        obtain ⟨e, he, hle, ends⟩ := p.often since after (by omega)
        rw [unread e he (by omega)] at ends
        cases ends
      rw [read]
      exact record_prefix ht late
    | spent _ read =>
      rw [read]
      exact grows

/-! ### A byte that arrives in the clear delay of the one before -/

/-- The internal drive is enabled and `n` ticks of the squelch are left. -/
def squelched (n : Nat) : Swim :=
  { iwm := { diskEnableInt := true }, acc := { accAddrL := 9 }
    latch := { anyDiskEnableD := true, readDataArmDelay := n } }

/-- Reset, the access that enables the drive, and then nothing. -/
def enabling (t : Nat) : In := if t = 0 then { rst := true } else if t = 1 then uds false 9 0 else quiet

/-- The state in which the scripts below start is reached from power-up. -/
theorem squelched_reached (n : Nat) (h : n ≤ 0x400) :
    trace {} enabling (3 + (0x400 - n)) = squelched n := by
  induction h using Nat.decreasingInduction with
  | self => rfl
  | of_succ n h ih =>
    have index : 3 + (0x400 - n) = 3 + (0x400 - (n + 1)) + 1 := by omega
    have rest : enabling (3 + (0x400 - (n + 1))) = quiet := by
      unfold enabling
      rw [if_neg (by omega), if_neg (by omega)]
    rw [index, trace, ih, rest]
    rfl

/-- Reads of the data register that end at `ends`, each ten ticks long, and the bytes
that arrive. -/
def pollScript (ends : List Nat) (bytes : List (Nat × BitVec 8)) (t : Nat) : In :=
  let access := ends.any fun e => decide (t < e) && decide (e ≤ t + 10)
  { selectSWIM := access, uds := access, cpuAddrRegHi := 0xC
    driveInt :=
      match bytes.find? fun b => b.1 == t with
      | some b => { newByteReady := true, readData := b.2 }
      | none => {} }

/-- Two bytes 128 ticks apart. -/
def polled (ends : List Nat) : Run Step :=
  ofScript (squelched 0) (pollScript ends [(11, 0xD5), (139, 0xAA)])

/-- The facts of such a run that are checked tick by tick. -/
def polledAt (ends : List Nat) (k : Nat) : Prop :=
  PollsOnly ((polled ends).state k).1 ∧ arrives (polled ends) k = (k == 11 || k == 139) ∧
    (arrival (polled ends) k).all (fun b => b.getLsbD 7) = true

instance (ends : List Nat) : DecidablePred (polledAt ends) := fun _ =>
  inferInstanceAs (Decidable ((_ ∧ (_ → _ ∧ _)) ∧ _ ∧ _))

/-- Two bytes 128 ticks apart and reads that end at most 128 ticks apart are polling. -/
theorem polling_of_checks {ends : List Nat} {T : Nat} (all : ∀ k, k < T → polledAt ends k)
    (often : ∀ k, k + 128 ≤ T → ∃ e, k < e ∧ e ≤ k + 128 ∧ readEnds (polled ends) e = true) :
    Polling (polled ends) 128 0 T := by
  refine ⟨⟨rfl, rfl, rfl, rfl, rfl, rfl, by intro h; cases h⟩, rfl, rfl, rfl, ?_, ?_, ?_, ?_⟩
  · exact fun k _ hk => (all k hk).1
  · exact fun k _ hk => often k hk
  · intro k _ hk b byte
    have msb := (all k hk).2.2
    rw [byte] at msb
    exact msb
  · intro k l _ hkl hl first second
    rw [(all k (by omega)).2.1] at first
    rw [(all l hl).2.1] at second
    simp only [Bool.or_eq_true, beq_iff_eq] at first second
    omega

/-- A read ends in each of these ticks. -/
theorem often_of_ends {ends : List Nat} {r : Run Step} (all : ∀ e ∈ ends, readEnds r e = true)
    {T : Nat} (near : ∀ k, k + 128 ≤ T → ∃ e ∈ ends, k < e ∧ e ≤ k + 128) (k : Nat)
    (hk : k + 128 ≤ T) : ∃ e, k < e ∧ e ≤ k + 128 ∧ readEnds r e = true := by
  obtain ⟨e, member, before, after⟩ := near k hk
  exact ⟨e, before, after, all e member⟩

/-- A loop that reads every fifty ticks. -/
def steady : List Nat := [10, 60, 110, 160, 210, 260]

theorem steady_facts :
    ((List.range 269).all fun k => decide (polledAt steady k ∧ Clean (polled steady) false k)) =
      true ∧
    (steady.all fun e => readEnds (polled steady) e) = true ∧
    (record (validRead (polled steady) false) 0 269).length = 2 := by
  decide +kernel

/-- The theorem at that loop: it starts in a state that is reached from power-up, and it reads
both bytes. -/
theorem iwm_reads_each_once_steady :
    trace {} enabling (3 + 0x400) = ((polled steady).state 0).2 ∧
      Faithful (polled steady) false 128 0 269 ∧
      (record (validRead (polled steady) false) 0 269).length = 2 := by
  obtain ⟨all, ends, two⟩ := steady_facts
  have at_ : ∀ k, k < 269 → polledAt steady k ∧ Clean (polled steady) false k := fun k hk =>
    of_decide_eq_true (List.all_eq_true.mp all k (List.mem_range.mpr hk))
  have often := often_of_ends (T := 269) (fun e he => List.all_eq_true.mp ends e he) fun k hk => by
    rcases Nat.lt_or_ge k 60 with early | late
    · exact ⟨60, by decide, early, by omega⟩
    · rcases Nat.lt_or_ge k 160 with mid | last
      · exact ⟨160, by decide, mid, by omega⟩
      · omega
  exact ⟨squelched_reached 0 (by decide), iwm_reads_each_once (polled steady) false 128 0 269
    (polling_of_checks (fun k hk => (at_ k hk).1) often) (fun k _ hk => (at_ k hk).2), two⟩

/-- A loop that reads every 120 ticks, more often than a byte comes. -/
def slow : List Nat := [10, 130, 250]

/-- The first byte is read nine ticks before the second one comes, and the clear
delay takes the second one away. -/
theorem slow_facts :
    ((List.range 269).all fun k => decide (polledAt slow k)) = true ∧
    (slow.all fun e => readEnds (polled slow) e) = true ∧
    ¬ record (arrival (polled slow)) 0 140 <+: record (validRead (polled slow) false) 0 269 := by
  decide +kernel

theorem iwm_loses_byte :
    ¬ ∀ (r : Run Step) (sync : Bool) (spacing a T : Nat), Polling r spacing a T →
      Faithful r sync spacing a T := by
  intro claim
  obtain ⟨all, ends, lost⟩ := slow_facts
  have at_ : ∀ k, k < 269 → polledAt slow k := fun k hk =>
    of_decide_eq_true (List.all_eq_true.mp all k (List.mem_range.mpr hk))
  have often := often_of_ends (T := 269) (fun e he => List.all_eq_true.mp ends e he) fun k hk => by
    rcases Nat.lt_or_ge k 10 with first | later
    · exact ⟨10, by decide, first, by omega⟩
    · rcases Nat.lt_or_ge k 130 with early | late
      · exact ⟨130, by decide, early, by omega⟩
      · exact ⟨250, by decide, by omega, by omega⟩
  exact lost ((claim (polled slow) false 128 0 269 (polling_of_checks at_ often)).2 140
    (by omega) (by omega))

end Swim

end MacIIvi
