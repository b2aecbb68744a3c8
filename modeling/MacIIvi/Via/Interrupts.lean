import MacIIvi.Clocked.Pending
import MacIIvi.Via.ShiftRegister

/-!
# The interrupt flags of the VIA

Source: `rtl/via6522.sv`: the edges of the handshake pins, the timers and the flags, around
the serial port.
-/

namespace MacIIvi

namespace Via

open Clocked

/-! ## The timers -/

/-- The counters and latches of both timers. -/
structure Timers where
  aLatch : BitVec 16 := 0x5550
  bLatch : BitVec 16 := 0x5550
  aCount : BitVec 16 := 0x5550
  bCount : BitVec 16 := 0x5550
  aReload : Bool := false
  aMayInterrupt : Bool := false
  bReloadLo : Bool := false
  bOneshotTrig : Bool := false
  bTimeout : Bool := false
  bTick : Bool := false
  pb6C : Bool := false
  pb6D : Bool := false

/-- The ports of the chip; `otherOut` is what the registers but the shift register put on
`data_out`. -/
structure ChipIn where
  rising : Bool := false
  falling : Bool := false
  reset : Bool := false
  addr : Nat := 0
  wen : Bool := false
  ren : Bool := false
  dataIn : Byte := 0
  ca1I : Bool := false
  ca2I : Bool := false
  cb1I : Bool := true
  cb2I : Bool := false
  pb6I : Bool := false
  otherOut : Byte := 0

def ChipIn.writes (w : ChipIn) (a : Nat) : Bool := w.wen && w.falling && w.addr == a

def ChipIn.reads (w : ChipIn) (a : Nat) : Bool := w.ren && w.falling && w.addr == a

/-- `x` with another low byte. -/
def setLow (x : BitVec 16) (b : Byte) : BitVec 16 := x.extractLsb' 8 8 ++ b

def setHigh (x : BitVec 16) (b : Byte) : BitVec 16 := b ++ x.extractLsb' 0 8

namespace Timers

variable (w : ChipIn) (acr : Byte) (s : Timers)

def aEvent : Bool := w.rising && s.aReload && s.aMayInterrupt

def bEvent : Bool := w.rising && s.bTimeout

def latches : Timers :=
  if w.reset then { s with aLatch := 0x5550, bLatch := 0x5550 }
  else if w.writes 4 || w.writes 6 then { s with aLatch := setLow s.aLatch w.dataIn }
  else if w.writes 5 || w.writes 7 then { s with aLatch := setHigh s.aLatch w.dataIn }
  else if w.writes 8 then { s with bLatch := setLow s.bLatch w.dataIn }
  else s

/-- Timer A: count, reload and leave to interrupt. -/
def timerA : BitVec 16 × Bool × Bool :=
  if w.reset then (0x5550, false, false)
  else if w.writes 5 then (w.dataIn ++ s.aLatch.extractLsb' 0 8, false, true)
  else if w.falling then
    if s.aReload then
      (if w.writes 4 || w.writes 6 then setLow s.aLatch w.dataIn else s.aLatch, false,
        s.aMayInterrupt && acr.getLsbD 6)
    else (s.aCount - 1, s.aCount == 0, s.aMayInterrupt)
  else (s.aCount, s.aReload, s.aMayInterrupt)

/-- The modes of the shift register that go by timer B. -/
def ticks : Bool := [1, 4, 5].contains (acr.toNat / 4 % 8)

def bDecrement : Bool := if acr.getLsbD 5 then s.pb6D && !s.pb6C else true

/-- Timer B in a falling phase. -/
def timerBFalls : Timers :=
  let n : Timers := { s with bTimeout := false, bTick := false }
  let n :=
    if s.bDecrement acr then
      { n with
        bOneshotTrig := s.bOneshotTrig && s.bCount != 0
        bTimeout := s.bOneshotTrig && s.bCount == 0
        bReloadLo := s.bReloadLo || s.bCount.extractLsb' 0 8 == 0 && ticks acr
        bTick := s.bCount.extractLsb' 0 8 == 0 && ticks acr
        bCount := s.bCount - 1 }
    else n
  if s.bReloadLo then
    { n with bCount := setLow n.bCount (s.bLatch.extractLsb' 0 8), bReloadLo := false }
  else n

def timerB : Timers :=
  let n := if w.rising then { s with pb6C := w.pb6I, pb6D := s.pb6C } else s
  let f := s.timerBFalls acr
  let n : Timers :=
    if w.falling then
      { n with
        bCount := f.bCount, bReloadLo := f.bReloadLo, bOneshotTrig := f.bOneshotTrig
        bTimeout := f.bTimeout, bTick := f.bTick }
    else n
  let n :=
    if w.writes 9 then
      { n with bCount := w.dataIn ++ s.bLatch.extractLsb' 0 8, bOneshotTrig := true }
    else n
  if w.reset then { n with bCount := 0x5550, bReloadLo := false, bOneshotTrig := false } else n

/-- One clock. -/
def next : Timers :=
  { s.timerB w acr with
    aLatch := (s.latches w).aLatch
    bLatch := (s.latches w).bLatch
    aCount := (s.timerA w acr).1
    aReload := (s.timerA w acr).2.1
    aMayInterrupt := (s.timerA w acr).2.2 }

end Timers

/-! ## The flags -/

/-- The sources, by their bits. -/
inductive Source where
  | ca2 | ca1 | serial | cb2 | cb1 | timerB | timerA
  deriving DecidableEq, Repr

def Source.bit : Source → Nat
  | .ca2 => 0
  | .ca1 => 1
  | .serial => 2
  | .cb2 => 3
  | .cb1 => 4
  | .timerB => 5
  | .timerA => 6

/-- A pin through two registers. -/
structure Pin where
  c : Bool := false
  d : Bool := false

def Pin.event (p : Pin) (edgeSelect : Bool) : Bool := (p.c ^^ p.d) && (p.d ^^ edgeSelect)

def Pin.next (p : Pin) (level : Bool) : Pin where
  c := level
  d := p.c

structure Chip where
  port : SerialPort := {}
  timers : Timers := {}
  pcr : Byte := 0
  irqFlags : Source → Bool := fun _ => false
  ca1 : Pin := {}
  ca2 : Pin := {}
  cb1 : Pin := {}
  cb2 : Pin := {}
  cb2HandshakeO : Bool := true
  cb2PulseO : Bool := true

namespace Chip

variable (w : ChipIn) (s : Chip)

def ca2NoIrqClr : Bool := s.pcr.getLsbD 1
def cb2NoIrqClr : Bool := s.pcr.getLsbD 5

/-- `hs_cb2_o` -/
def hsCb2O : Bool :=
  match s.pcr.toNat / 32 % 4 with
  | 0 => s.cb2HandshakeO
  | 1 => s.cb2PulseO
  | 2 => false
  | _ => true

/-- What the serial port sees. -/
def portIn : ViaIn where
  rising := w.rising
  falling := w.falling
  reset := w.reset
  addr := w.addr
  wen := w.wen
  ren := w.ren
  dataIn := w.dataIn
  cb1I := w.cb1I
  cb2I := w.cb2I
  timerBTick := s.timers.bTick
  otherOut := w.otherOut
  hsCb2O := s.hsCb2O

/-- `cb1_t_int` -/
def cb1T : Bool := if s.port.extClockMode then false else s.port.serportEn

/-- `cb2_t_int` -/
def cb2T : Bool := if s.port.serportEn then s.port.shiftDir else s.pcr.getLsbD 7

/-- `irq_events` -/
def irqEvents : Source → Bool
  | .ca2 => s.ca2.event (s.pcr.getLsbD 2)
  | .ca1 => s.ca1.event (s.pcr.getLsbD 0)
  | .serial => s.port.serialEvent (s.portIn w)
  | .cb2 => s.cb2.event (s.pcr.getLsbD 6)
  | .cb1 => s.cb1.event (s.pcr.getLsbD 4)
  | .timerB => s.timers.bEvent w
  | .timerA => s.timers.aEvent w

/-- `irq_flags[k] <= 0` -/
def clear (f : Source → Bool) (k : Source) : Source → Bool := Function.update f k false

def clearUnless (f : Source → Bool) (k : Source) (noIrqClr : Bool) : Source → Bool :=
  if noIrqClr then f else clear f k

/-- What a register write does to the flags `f` of this clock. -/
def writeFlags (f : Source → Bool) : Source → Bool :=
  match w.addr with
  | 0x0 => clear (clearUnless f .cb2 s.cb2NoIrqClr) .cb1
  | 0x1 => clear (clearUnless f .ca2 s.ca2NoIrqClr) .ca1
  | 0x5 => clear f .timerA
  | 0x7 => clear f .timerA
  | 0x9 => clear f .timerB
  | 0xa => clear f .serial
  | 0xd => fun k => s.irqFlags k && !w.dataIn.getLsbD k.bit
  | _ => f

/-- What a register read does. -/
def readFlags (f : Source → Bool) : Source → Bool :=
  match w.addr with
  | 0x0 => clear (clearUnless f .cb2 s.cb2NoIrqClr) .cb1
  | 0x1 => clear (clearUnless f .ca2 s.ca2NoIrqClr) .ca1
  | 0x4 => clear f .timerA
  | 0x8 => clear f .timerB
  | 0xa => clear f .serial
  | _ => f

def flagsNext : Source → Bool :=
  let f : Source → Bool := fun k => s.irqFlags k || s.irqEvents w k
  let f := if s.irqEvents w .serial then Function.update f .serial true else f
  let f := if w.wen && w.falling then s.writeFlags w f else f
  let f := if w.ren && w.falling then s.readFlags w f else f
  if w.reset then fun _ => false else f

/-- One clock. -/
def next : Chip where
  port := SerialPort.next (s.portIn w) s.port
  timers := s.timers.next w s.port.acr
  pcr := if w.reset then 0 else if w.writes 0xc then w.dataIn else s.pcr
  irqFlags := s.flagsNext w
  ca1 := s.ca1.next w.ca1I
  ca2 := s.ca2.next w.ca2I
  cb1 := s.cb1.next (if s.cb1T then s.port.shiftClockD else w.cb1I)
  cb2 := s.cb2.next (if s.cb2T then s.port.cb2O (s.portIn w) else w.cb2I)
  cb2HandshakeO :=
    if w.reset then true
    else if s.irqEvents w .cb1 then true
    else if w.reads 0 || w.writes 0 then false
    else s.cb2HandshakeO
  cb2PulseO :=
    if w.reset then true
    else if w.falling then !(w.reads 0 || w.writes 0)
    else s.cb2PulseO

/-- The chip after `t` clocks. -/
def after (w : Nat → ChipIn) : Nat → Chip
  | 0 => s
  | t + 1 => next (w t) (after w t)

/-! ## What is claimed -/

/-- The writes that clear a flag, besides the write of the flags themselves. -/
def writeClears : Source → Bool
  | .ca2 => w.writes 0x1 && !s.ca2NoIrqClr
  | .ca1 => w.writes 0x1
  | .serial => w.writes 0xa
  | .cb2 => w.writes 0x0 && !s.cb2NoIrqClr
  | .cb1 => w.writes 0x0
  | .timerB => w.writes 0x9
  | .timerA => w.writes 0x5 || w.writes 0x7

/-- The reads that clear a flag. -/
def readClears : Source → Bool
  | .ca2 => w.reads 0x1 && !s.ca2NoIrqClr
  | .ca1 => w.reads 0x1
  | .serial => w.reads 0xa
  | .cb2 => w.reads 0x0 && !s.cb2NoIrqClr
  | .cb1 => w.reads 0x0
  | .timerB => w.reads 0x8
  | .timerA => w.reads 0x4

/-- The flag is cleared in this clock. -/
def clears (k : Source) : Bool :=
  w.reset || s.writeClears w k || s.readClears w k || (w.writes 0xd && w.dataIn.getLsbD k.bit)

/-- The write of the flags meets an event of a source it does not name. -/
def Collides : Prop :=
  w.writes 0xd = true ∧ ∃ k, s.irqEvents w k = true ∧ s.clears w k = false ∧ s.irqFlags k = false

/-- No flag is lost. -/
def FlagsKept (w : Nat → ChipIn) : Prop :=
  Kept (fun t k => (s.after w t).irqFlags k = true)
    (fun t k => (s.after w t).irqEvents (w t) k = true)
    (fun t k => (s.after w t).clears (w t) k = true)

section Flags

variable {w : ChipIn} {s : Chip} {f : Source → Bool}

@[simp] theorem clear_apply (f : Source → Bool) (k j : Source) :
    clear f k j = (f j && decide (j ≠ k)) := by
  by_cases same : j = k <;> simp [clear, same]

@[simp] theorem clearUnless_apply (f : Source → Bool) (k j : Source) (keep : Bool) :
    clearUnless f k keep j = (f j && (keep || decide (j ≠ k))) := by
  cases keep <;> simp [clearUnless]

/-- A write but that of the flags. -/
theorem writeFlags_eq (on : (w.wen && w.falling) = true) (other : w.writes 0xd = false) :
    s.writeFlags w f = fun k => f k && !s.writeClears w k := by
  simp only [Bool.and_eq_true] at on
  unfold writeFlags
  split <;> funext k <;> cases k <;> simp_all [writeClears, ChipIn.writes]

/-- The write of the flags goes by those before this clock. -/
theorem writeFlags_ifr (write : w.writes 0xd = true) :
    s.writeFlags w f = fun k => s.irqFlags k && !w.dataIn.getLsbD k.bit := by
  have addr : w.addr = 0xd := by
    simp only [ChipIn.writes, Bool.and_eq_true, beq_iff_eq] at write
    exact write.2
  unfold writeFlags
  split <;> simp_all

theorem readFlags_eq (on : (w.ren && w.falling) = true) :
    s.readFlags w f = fun k => f k && !s.readClears w k := by
  simp only [Bool.and_eq_true] at on
  unfold readFlags
  split <;> funext k <;> cases k <;> simp_all [readClears, ChipIn.reads]

theorem writeClears_none (off : (w.wen && w.falling) = false) (k : Source) :
    s.writeClears w k = false := by
  have none_ : ∀ a, w.writes a = false := fun a => by rw [ChipIn.writes, off, Bool.false_and]
  cases k <;> simp [writeClears, none_]

theorem readClears_none (off : (w.ren && w.falling) = false) (k : Source) :
    s.readClears w k = false := by
  have none_ : ∀ a, w.reads a = false := fun a => by rw [ChipIn.reads, off, Bool.false_and]
  cases k <;> simp [readClears, none_]

/-- The write of the flags clears no other. -/
theorem writeClears_ifr (write : w.writes 0xd = true) (k : Source) :
    s.writeClears w k = false := by
  have addr : w.addr = 0xd := by simpa using (Bool.and_eq_true_iff.mp write).2
  cases k <;> simp [writeClears, ChipIn.writes, addr]

/-- The event of the serial port is one of the events. -/
theorem accumulate_eq (w : ChipIn) (s : Chip) :
    (if s.irqEvents w .serial then
      Function.update (fun k => s.irqFlags k || s.irqEvents w k) .serial true
    else fun k => s.irqFlags k || s.irqEvents w k) =
      fun k => s.irqFlags k || s.irqEvents w k := by
  split
  · next event =>
    refine Function.update_eq_self_iff.mpr ?_
    rw [event, Bool.or_true]
  · rfl

/-- The reads of a clock. -/
theorem reads_eq : (if w.ren && w.falling then s.readFlags w f else f) =
    fun k => f k && !s.readClears w k := by
  cases on : w.ren && w.falling with
  | true => rw [if_pos rfl, readFlags_eq on]
  | false =>
    funext k
    rw [if_neg Bool.false_ne_true, readClears_none on, Bool.not_false, Bool.and_true]

/-- The flags after a clock that does not write them. -/
theorem flagsNext_eq (other : w.writes 0xd = false) (k : Source) :
    s.flagsNext w k = ((s.irqFlags k || s.irqEvents w k) && !s.clears w k) := by
  unfold flagsNext
  rw [accumulate_eq, reads_eq, clears, other, Bool.false_and, Bool.or_false]
  cases w.reset with
  | true => simp
  | false =>
    rw [if_neg Bool.false_ne_true, Bool.false_or]
    cases on : w.wen && w.falling with
    | true => simp [writeFlags_eq on other, Bool.and_assoc]
    | false => simp [writeClears_none on]

/-- The flags after a write. -/
theorem flagsNext_ifr (write : w.writes 0xd = true) (k : Source) :
    s.flagsNext w k = (s.irqFlags k && !s.clears w k) := by
  have on : (w.wen && w.falling) = true := (Bool.and_eq_true_iff.mp write).1
  unfold flagsNext
  rw [accumulate_eq, reads_eq, clears, write, Bool.true_and, if_pos on]
  cases w.reset with
  | true => simp
  | false =>
    rw [if_neg Bool.false_ne_true, writeFlags_ifr write, writeClears_ifr write]
    simp [Bool.and_assoc, Bool.and_comm]

/-- A clock loses a flag exactly if a write of the flags meets an event of another source. -/
theorem lost_iff : (∃ k, (s.irqEvents w k = true ∨ s.irqFlags k = true) ∧
    s.clears w k = false ∧ s.flagsNext w k = false) ↔ s.Collides w := by
  cases write : w.writes 0xd with
  | true =>
    constructor
    · rintro ⟨k, here, open_, lost⟩
      rw [flagsNext_ifr write, open_, Bool.not_false, Bool.and_true] at lost
      rcases here with event | flag
      · exact ⟨write, k, event, open_, lost⟩
      · exact absurd (lost.symm.trans flag) Bool.false_ne_true
    · rintro ⟨-, k, event, open_, clear_⟩
      refine ⟨k, .inl event, open_, ?_⟩
      rw [flagsNext_ifr write, clear_, Bool.false_and]
  | false =>
    constructor
    · rintro ⟨k, here, open_, lost⟩
      rw [flagsNext_eq write, open_, Bool.not_false, Bool.and_true, Bool.or_eq_false_iff] at lost
      rcases here with event | flag
      · exact absurd (lost.2.symm.trans event) Bool.false_ne_true
      · exact absurd (lost.1.symm.trans flag) Bool.false_ne_true
    · rintro ⟨other, -⟩
      exact absurd (write.symm.trans other) Bool.false_ne_true

/-- The serial port has the flag of the shift register for itself. -/
theorem serialFlag_next (same : s.port.serialFlag = s.irqFlags .serial) :
    (next w s).port.serialFlag = (next w s).irqFlags .serial := by
  have flag : (next w s).irqFlags .serial = s.flagsNext w .serial := rfl
  have event : s.irqEvents w .serial = s.port.serialEvent (s.portIn w) := rfl
  have access : (s.portIn w).srAccess = (w.writes 0xa || w.reads 0xa) := by
    cases rd : w.ren <;> cases wr : w.wen <;> cases ph : w.falling <;>
      simp [ViaIn.srAccess, portIn, ChipIn.writes, ChipIn.reads, rd, wr, ph]
  have ifr : (s.portIn w).ifrWrite = w.writes 0xd := by
    simp [ViaIn.ifrWrite, portIn, ChipIn.writes, Bool.and_comm]
  have clears : s.clears w .serial = (w.reset || w.writes 0xa || w.reads 0xa ||
      (w.writes 0xd && w.dataIn.getLsbD 2)) := rfl
  have port : (next w s).port.serialFlag =
      if w.reset then false
      else if w.writes 0xa || w.reads 0xa then false
      else if w.writes 0xd then s.port.serialFlag && !w.dataIn.getLsbD 2
      else s.port.serialFlag || s.port.serialEvent (s.portIn w) := by
    change (SerialPort.next (s.portIn w) s.port).serialFlag = _
    have reset : (s.portIn w).reset = w.reset := rfl
    rw [← access, ← ifr, SerialPort.next, reset]
    cases w.reset <;> rfl
  rw [port, flag, same]
  cases write : w.writes 0xd with
  | true =>
    rw [flagsNext_ifr write, clears, write]
    cases w.reset <;> cases w.writes 0xa <;> cases w.reads 0xa <;> simp
  | false =>
    rw [flagsNext_eq write, clears, write, event]
    cases w.reset <;> cases w.writes 0xa <;> cases w.reads 0xa <;> simp

end Flags

/-- The two copies of the flag agree. -/
theorem serialFlag_run {s : Chip} {w : Nat → ChipIn}
    (same : s.port.serialFlag = s.irqFlags .serial) (t : Nat) :
    (s.after w t).port.serialFlag = (s.after w t).irqFlags .serial := by
  induction t with
  | zero => exact same
  | succ t ih => exact serialFlag_next ih

/-- **Interrupt flags.** In a run no flag is lost exactly if no write of the flags meets an
event of a source that it does not name. -/
theorem flags_kept_iff (s : Chip) (w : Nat → ChipIn) :
    s.FlagsKept w ↔ ∀ t, ¬ (s.after w t).Collides (w t) := by
  rw [FlagsKept, kept_iff]
  constructor
  · intro step t collides
    obtain ⟨k, here, open_, lost⟩ := lost_iff.mpr collides
    have flag : (s.after w t).flagsNext (w t) k = true :=
      step t k here fun clears => absurd (open_.symm.trans clears) Bool.false_ne_true
    exact absurd (lost.symm.trans flag) Bool.false_ne_true
  · intro clean t k here open_
    by_contra lost
    have lost : (s.after w t).flagsNext (w t) k = false := Bool.eq_false_iff.mpr lost
    exact clean t (lost_iff.mp ⟨k, here, Bool.eq_false_iff.mpr open_, lost⟩)

/-- The 60 Hz tick falls in the clock in which the flag of the shift register is cleared. -/
def tickAtAck (t : Nat) : ChipIn where
  falling := t == 5
  addr := 0xd
  wen := t == 5
  dataIn := 0x04
  ca1I := decide (t < 4)

theorem tick_lost : ¬ ({} : Chip).FlagsKept tickAtAck := by
  intro kept
  have flag : (({} : Chip).after tickAtAck 6).irqFlags .ca1 = true := by
    refine kept .ca1 5 6 (by decide) (.inl (by decide)) fun v from_ before => ?_
    obtain rfl : v = 5 := by omega
    decide
  revert flag
  decide

end Chip

end Via

end MacIIvi
