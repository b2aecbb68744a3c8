import Mathlib.Tactic.Linarith
import MacIIvi.Clocked.Queue
import MacIIvi.Rtl.Dpram

/-!
# The sample FIFO of the sound chip

Source: `rtl/asc.sv` with `USE_ASC_AUDIO`, and `cd_sdp` of `rtl/cd_audio.sv`. The
trace probes of the top level are left out.
-/

namespace MacIIvi.Asc

open Clocked

/-- The CPU's side of one clock. -/
structure Inputs where
  cs : Bool
  addr : BitVec 12
  dataIn : BitVec 16
  we : Bool
  cpuAsN : Bool
  udsN : Bool
  ldsN : Bool
  deriving DecidableEq, Repr

/-- `fifoA` and `fifoAQ` are the memory and the read register of `fifo_a_ram`. The
pointers have 10 bits, the count 11 and the divider 16. -/
structure State where
  fifoA : Nat → Byte
  fifoAQ : Byte
  wptrA : Nat
  rptrA : Nat
  countA : Nat
  sampleDiv : Nat
  regs : BitVec 4 → Byte
  ascArmed : Bool
  fifoPendV : Bool
  fifoPendB : Byte
  sampleL : BitVec 16
  sampleR : BitVec 16
  sampleTick : Bool
  irq : Bool

def SAMPLE_DIV : Nat := 1460

section Wires

variable (s : State) (i : Inputs)

/-- The one-shot of a bus cycle. -/
def weStb : Bool := s.ascArmed && i.cs && i.we && !i.cpuAsN && (!i.udsN || !i.ldsN)

def fifoAWrite : Bool := weStb s i && decide (i.addr < 0x400)

/-- An address of the register file. -/
def isReg (addr : BitVec 12) : Bool := decide (0x800 ≤ addr) && decide (addr ≤ 0x80F)

def regWrite : Bool := weStb s i && isReg i.addr

def regRead : Bool := i.cs && !i.we && isReg i.addr

/-- The number of a register. -/
def reg (addr : BitVec 12) : BitVec 4 := addr.extractLsb' 0 4

def upper (d : BitVec 16) : Byte := d.extractLsb' 8 8

def lower (d : BitVec 16) : Byte := d.extractLsb' 0 8

def fifoClear : Bool := regWrite s i && reg i.addr == 0x3 && i.dataIn.getLsbD 7

def fifoAWord : Bool := fifoAWrite s i && !i.udsN && !i.ldsN

def fifoAByte : Byte :=
  if s.fifoPendV then s.fifoPendB else if !i.udsN then upper i.dataIn else lower i.dataIn

def popTick : Bool := s.sampleDiv == SAMPLE_DIV - 1

def popA : Bool := popTick s && s.countA != 0

def fifoAPush : Bool := (fifoAWrite s i || s.fifoPendV) && decide (s.countA < 1024) && !fifoClear s i

/-- FIFO status, register 4. -/
def fifoStat : Byte :=
  (if s.countA = 0 ∨ 1023 ≤ s.countA then 0b10 else 0) ||| (if s.countA < 512 then 0b01 else 0)

/-- What a read returns. -/
def dataOut : Byte :=
  if isReg i.addr then
    match reg i.addr with
    | 0x0 => 0xE8
    | 0x1 => 0x01
    | 0x2 => 0x01
    | 0x3 => 0x01
    | 0x4 => fifoStat s
    | 0x5 => 0x00
    | 0x7 => 0x00
    | 0x8 => 0x00
    | r => s.regs r
  else 0x00

end Wires

/-- `{~q[7], q[6:0], 8'h00}` -/
def sampleOf (q : Byte) : BitVec 16 := (q ^^^ 0x80#8) ++ 0x00#8

/-- A clock out of reset. -/
def step (s : State) (i : Inputs) : State where
  fifoA := if fifoAPush s i then Function.update s.fifoA s.wptrA (fifoAByte s i) else s.fifoA
  fifoAQ := s.fifoA s.rptrA
  wptrA :=
    if fifoClear s i then 0 else if fifoAPush s i then (s.wptrA + 1) % 2 ^ 10 else s.wptrA
  rptrA := if fifoClear s i then 0 else if popA s then (s.rptrA + 1) % 2 ^ 10 else s.rptrA
  countA :=
    if fifoClear s i then 0
    else match fifoAPush s i, popA s with
    | true, false => (s.countA + 1) % 2 ^ 11
    | false, true => (s.countA + (2 ^ 11 - 1)) % 2 ^ 11
    | _, _ => s.countA
  sampleDiv := if popTick s then 0 else (s.sampleDiv + 1) % 2 ^ 16
  regs :=
    if regWrite s i && reg i.addr != 0x0 && reg i.addr != 0x4 then
      Function.update s.regs (reg i.addr) (lower i.dataIn)
    else s.regs
  ascArmed := if i.cpuAsN then true else if weStb s i then false else s.ascArmed
  fifoPendV := fifoAWord s i
  fifoPendB := if fifoAWord s i then lower i.dataIn else s.fifoPendB
  sampleL := if popA s then sampleOf s.fifoAQ else s.sampleL
  sampleR := if popA s then sampleOf s.fifoAQ else s.sampleR
  sampleTick := popTick s
  irq :=
    if regRead i && reg i.addr == 0x4 then false
    else if popTick s && decide (s.countA < 512) then true
    else s.irq

/-- A clock in reset. -/
def reset (s : State) (i : Inputs) : State where
  fifoA := if fifoAPush s i then Function.update s.fifoA s.wptrA (fifoAByte s i) else s.fifoA
  fifoAQ := s.fifoA s.rptrA
  wptrA := 0
  rptrA := 0
  countA := 0
  sampleDiv := 0
  regs := Function.update (fun _ => 0x00) 0x0 0xE8
  ascArmed := true
  fifoPendV := false
  fifoPendB := s.fifoPendB
  sampleL := 0
  sampleR := 0
  sampleTick := false
  irq := false

/-- The state after `t` clocks. -/
def after (s : State) (i : Nat → Inputs) : Nat → State
  | 0 => s
  | t + 1 => step (after s i t) (i t)

/-! ## The queue -/

section Queue

variable (s : State) (i : Nat → Inputs)

/-- The bytes accepted since the last clear. -/
def accepted : Nat → List Byte
  | 0 => []
  | t + 1 =>
    if fifoClear (after s i t) (i t) then []
    else if fifoAPush (after s i t) (i t) then accepted t ++ [fifoAByte (after s i t) (i t)]
    else accepted t

/-- The number of bytes popped since the last clear. -/
def popped : Nat → Nat
  | 0 => 0
  | t + 1 =>
    if fifoClear (after s i t) (i t) then 0
    else if popA (after s i t) then popped t + 1
    else popped t

/-- A byte, or nothing when 1024 are stored. -/
def room (s : State) (b : Byte) : List Byte := if s.countA < 1024 then [b] else []

/-- The FIFO is a queue. -/
structure QueueLaws : Prop where
  /-- The count is accepted minus popped bytes, and at most 1024. -/
  count : ∀ t, (after s i t).countA + popped s i t = (accepted s i t).length ∧
    (after s i t).countA ≤ 1024
  /-- Writes are at least two clocks apart. -/
  apart : ∀ t, fifoAWrite (after s i t) (i t) = true → weStb (after s i (t + 1)) (i (t + 1)) = false
  /-- A write of one lane enqueues it, unless 1024 bytes are stored. -/
  byte : ∀ t, fifoAWrite (after s i t) (i t) = true → ((i t).udsN || (i t).ldsN) = true →
    accepted s i (t + 1) = accepted s i t ++
      room (after s i t) (if (i t).udsN then lower (i t).dataIn else upper (i t).dataIn)
  /-- A write of both enqueues the upper lane, then the lower one. -/
  word : ∀ t, fifoAWord (after s i t) (i t) = true →
    accepted s i (t + 1) = accepted s i t ++ room (after s i t) (upper (i t).dataIn) ∧
    accepted s i (t + 2) = accepted s i (t + 1) ++ room (after s i (t + 1)) (lower (i t).dataIn)
  /-- Nothing else is enqueued. -/
  other : ∀ t, fifoAWrite (after s i t) (i t) = false →
    (t = 0 ∨ fifoAWord (after s i (t - 1)) (i (t - 1)) = false) →
    accepted s i (t + 1) = if fifoClear (after s i t) (i t) then [] else accepted s i t
  /-- A pop emits the oldest byte, as a signed sample about 0x80. -/
  sample : ∀ t, popA (after s i t) = true → ∃ b, (accepted s i t)[popped s i t]? = some b ∧
    (after s i (t + 1)).sampleL.toInt = (b.toNat - 128 : Int) * 256 ∧
    (after s i (t + 1)).sampleR.toInt = (b.toNat - 128 : Int) * 256

end Queue

/-! ## The invariant -/

/-- The memory holds the bytes accepted and not yet popped, and a pending byte finds
the one-shot spent. -/
structure Sound (s : State) (acc : List Byte) (n : Nat) : Prop where
  holds : Queue.Holds s.fifoA 1024 s.wptrA s.rptrA s.countA acc n
  div : s.sampleDiv < SAMPLE_DIV
  pending : s.fifoPendV = true → s.ascArmed = false

section Step

variable {s : State} {i : Inputs} {acc : List Byte} {n : Nat}

theorem weStb_pending (sound : Sound s acc n) (pend : s.fifoPendV = true) : weStb s i = false := by
  simp [weStb, sound.pending pend]

theorem fifoClear_weStb (clear : fifoClear s i = true) : weStb s i = true := by
  simp only [fifoClear, regWrite, Bool.and_eq_true] at clear
  exact clear.1.1.1

theorem fifoAWrite_weStb (write : fifoAWrite s i = true) : weStb s i = true := by
  rw [fifoAWrite, Bool.and_eq_true] at write
  exact write.1

/-- A write of the FIFO clears nothing. -/
theorem fifoClear_write (write : fifoAWrite s i = true) : fifoClear s i = false := by
  rw [fifoAWrite, Bool.and_eq_true, decide_eq_true_eq] at write
  have outside : isReg i.addr = false := by
    rw [isReg, decide_eq_false (by bv_omega), Bool.false_and]
  simp [fifoClear, regWrite, outside]

theorem fifoAWord_write (word : fifoAWord s i = true) : fifoAWrite s i = true := by
  simp only [fifoAWord, Bool.and_eq_true] at word
  exact word.1.1

/-- After a word the one-shot is spent. -/
theorem pending_step : (step s i).fifoPendV = true → (step s i).ascArmed = false := by
  intro word
  have stb : weStb s i = true := fifoAWrite_weStb (fifoAWord_write word)
  have cycle : i.cpuAsN = false := by
    simp only [weStb, Bool.and_eq_true, Bool.not_eq_true'] at stb
    exact stb.1.2
  simp [step, cycle, stb]

theorem sampleDiv_step (div : s.sampleDiv < SAMPLE_DIV) :
    (step s i).sampleDiv = (if popTick s then 0 else s.sampleDiv + 1) ∧
    (step s i).sampleDiv < SAMPLE_DIV := by
  cases tick : popTick s
  · have early : s.sampleDiv ≠ 1459 := by simpa [popTick, SAMPLE_DIV] using tick
    rw [SAMPLE_DIV] at div ⊢
    have small : (s.sampleDiv + 1) % 2 ^ 16 = s.sampleDiv + 1 := Nat.mod_eq_of_lt (by omega)
    simp only [step, tick, small, Bool.false_eq_true, if_false]
    exact ⟨trivial, by omega⟩
  · simp [step, tick, SAMPLE_DIV]

theorem fifoAPush_spec (push : fifoAPush s i = true) :
    s.countA < 1024 ∧ fifoClear s i = false := by
  simp only [fifoAPush, Bool.and_eq_true, decide_eq_true_eq, Bool.not_eq_true'] at push
  exact ⟨push.1.2, push.2⟩

theorem popA_spec (pop : popA s = true) : s.sampleDiv = 1459 ∧ 0 < s.countA := by
  simp only [popA, popTick, Bool.and_eq_true, beq_iff_eq, bne_iff_ne] at pop
  exact ⟨pop.1, Nat.pos_of_ne_zero pop.2⟩

/-- The pointers and the memory, by what the clock does. -/
theorem holds_step (sound : Sound s acc n) :
    Queue.Holds (step s i).fifoA 1024 (step s i).wptrA (step s i).rptrA (step s i).countA
      (if fifoClear s i then [] else if fifoAPush s i then acc ++ [fifoAByte s i] else acc)
      (if fifoClear s i then 0 else if popA s then n + 1 else n) := by
  have le := sound.holds.count_le
  cases clear : fifoClear s i
  case true => simpa [step, clear] using Queue.holds_empty _ (by decide)
  case false =>
    cases push : fifoAPush s i <;> cases pop : popA s
    · simpa [step, clear, push, pop] using sound.holds
    · obtain ⟨count, full⟩ : ∃ count, s.countA = count + 1 :=
        ⟨s.countA - 1, by have := (popA_spec pop).2; omega⟩
      have less : (s.countA + 2047) % 2048 = count := by omega
      have holds := sound.holds
      rw [full] at holds
      simpa [step, clear, push, pop, less] using holds.pop
    · have free := (fifoAPush_spec push).1
      have more : (s.countA + 1) % 2048 = s.countA + 1 := Nat.mod_eq_of_lt (by omega)
      simpa [step, clear, push, pop, more] using sound.holds.push free (fifoAByte s i)
    · have free := (fifoAPush_spec push).1
      simpa [step, clear, push, pop] using (sound.holds.push free (fifoAByte s i)).pop

end Step

section Run

variable (s : State) (j : Inputs) (i : Nat → Inputs)

theorem sound_after (t : Nat) :
    Sound (after (reset s j) i t) (accepted (reset s j) i t) (popped (reset s j) i t) := by
  induction t with
  | zero =>
    refine ⟨Queue.holds_empty _ (by decide), Nat.zero_lt_succ _, ?_⟩
    intro pend
    cases pend
  | succ t ih => exact ⟨holds_step ih, (sampleDiv_step ih.div).2, pending_step⟩

theorem laws_apart (t : Nat) (write : fifoAWrite (after (reset s j) i t) (i t) = true) :
    weStb (after (reset s j) i (t + 1)) (i (t + 1)) = false := by
  have stb := fifoAWrite_weStb write
  have cycle : (i t).cpuAsN = false := by
    simp only [weStb, Bool.and_eq_true, Bool.not_eq_true'] at stb
    exact stb.1.2
  have spent : (after (reset s j) i (t + 1)).ascArmed = false := by
    simp [after, step, cycle, stb]
  simp [weStb, spent]

end Run

/-! ## What a clock enqueues -/

section Enqueue

variable {s : State} {j : Inputs} {i : Nat → Inputs} {t : Nat}

theorem accepted_push (present : (fifoAWrite (after s i t) (i t) ||
      (after s i t).fifoPendV) = true) (uncleared : fifoClear (after s i t) (i t) = false) :
    accepted s i (t + 1) =
      accepted s i t ++ room (after s i t) (fifoAByte (after s i t) (i t)) := by
  rw [accepted, uncleared, fifoAPush, present, uncleared, room]
  by_cases free : (after s i t).countA < 1024
  · simp [free]
  · simp [free]

theorem accepted_idle (absent : (fifoAWrite (after s i t) (i t) ||
      (after s i t).fifoPendV) = false) :
    accepted s i (t + 1) =
      if fifoClear (after s i t) (i t) then [] else accepted s i t := by
  rw [accepted, fifoAPush, absent]
  simp

/-- No byte is pending in a clock with a write. -/
theorem write_alone (write : fifoAWrite (after (reset s j) i t) (i t) = true) :
    (after (reset s j) i t).fifoPendV = false := by
  by_contra pend
  have spent := weStb_pending (i := i t) (sound_after s j i t) (by simpa using pend)
  rw [fifoAWrite_weStb write] at spent
  cases spent

theorem laws_byte (write : fifoAWrite (after (reset s j) i t) (i t) = true) :
    accepted (reset s j) i (t + 1) = accepted (reset s j) i t ++
      room (after (reset s j) i t) (if (i t).udsN then lower (i t).dataIn else upper (i t).dataIn) := by
  have lane : fifoAByte (after (reset s j) i t) (i t) =
      if (i t).udsN then lower (i t).dataIn else upper (i t).dataIn := by
    rw [fifoAByte, write_alone write]
    cases (i t).udsN <;> rfl
  rw [accepted_push (by rw [write, Bool.true_or]) (fifoClear_write write), lane]

theorem laws_word (word : fifoAWord (after (reset s j) i t) (i t) = true) :
    accepted (reset s j) i (t + 1) =
      accepted (reset s j) i t ++ room (after (reset s j) i t) (upper (i t).dataIn) ∧
    accepted (reset s j) i (t + 2) =
      accepted (reset s j) i (t + 1) ++ room (after (reset s j) i (t + 1)) (lower (i t).dataIn) := by
  have write := fifoAWord_write word
  have both : (i t).udsN = false := by
    simp only [fifoAWord, Bool.and_eq_true, Bool.not_eq_true'] at word
    exact word.1.2
  constructor
  · rw [laws_byte write, both]
    rfl
  · have pend : (after (reset s j) i (t + 1)).fifoPendV = true := word
    have second : fifoAByte (after (reset s j) i (t + 1)) (i (t + 1)) = lower (i t).dataIn := by
      rw [fifoAByte, pend]
      exact if_pos word
    have uncleared : fifoClear (after (reset s j) i (t + 1)) (i (t + 1)) = false := by
      by_contra clear
      have stb := fifoClear_weStb (by simpa using clear)
      rw [laws_apart s j i t write] at stb
      cases stb
    rw [accepted_push (by rw [pend, Bool.or_true]) uncleared, second]

theorem laws_other (none_ : fifoAWrite (after (reset s j) i t) (i t) = false)
    (single : t = 0 ∨ fifoAWord (after (reset s j) i (t - 1)) (i (t - 1)) = false) :
    accepted (reset s j) i (t + 1) =
      if fifoClear (after (reset s j) i t) (i t) then [] else accepted (reset s j) i t := by
  refine accepted_idle ?_
  cases t with
  | zero => rw [none_]; rfl
  | succ t =>
    have pend : (after (reset s j) i (t + 1)).fifoPendV = false := single.resolve_left (by omega)
    rw [none_, pend]
    rfl

end Enqueue

/-! ## The read register -/

theorem sampleOf_toInt : ∀ b : Byte, (sampleOf b).toInt = (b.toNat - 128 : Int) * 256 := by decide +kernel

/-- A pop finds the oldest byte in the read register. -/
def Fresh (s : State) : Prop := popA s = true → s.fifoAQ = s.fifoA s.rptrA

/-- A byte that is accepted into the empty FIFO in the clock before a sample tick is the
one that its cell still holds. -/
def Settled (s : State) (i : Inputs) : Prop :=
  fifoAPush s i = true → s.countA = 0 → s.sampleDiv = SAMPLE_DIV - 2 →
    s.fifoA s.wptrA = fifoAByte s i

section Fresh

variable {s : State} {i : Inputs} {acc : List Byte} {n : Nat}

/-- What the clock before a pop did. -/
theorem before_pop (sound : Sound s acc n) (pop : popA (step s i) = true) :
    s.sampleDiv = 1458 ∧ popA s = false ∧ fifoClear s i = false := by
  obtain ⟨last, stored⟩ := popA_spec pop
  obtain ⟨div, -⟩ := sampleDiv_step (i := i) sound.div
  rw [div] at last
  cases tick : popTick s
  · rw [tick, if_neg (by decide)] at last
    refine ⟨by omega, by rw [popA, tick, Bool.false_and], ?_⟩
    cases clear : fifoClear s i
    · rfl
    · simp [step, clear] at stored
  · rw [tick, if_pos rfl] at last
    cases last

theorem fresh_step (sound : Sound s acc n) (settled : Settled s i) : Fresh (step s i) := by
  intro pop
  obtain ⟨div, unpopped, uncleared⟩ := before_pop sound pop
  have rptr : (step s i).rptrA = s.rptrA := by simp [step, unpopped, uncleared]
  rw [rptr]
  cases push : fifoAPush s i
  · simp [step, push]
  · have free := (fifoAPush_spec push).1
    by_cases empty : s.countA = 0
    · have wptr : s.wptrA = s.rptrA := by
        rw [sound.holds.wr_eq, empty, Nat.add_zero, Nat.mod_eq_of_lt sound.holds.rd_lt]
      have same := settled push empty div
      rw [wptr] at same
      simp [step, push, wptr, same]
    · have other : s.rptrA ≠ s.wptrA := by
        have ne : (s.rptrA + 0) % 1024 ≠ (s.rptrA + s.countA) % 1024 :=
          Queue.cell_ne (Nat.pos_of_ne_zero empty) free
        rwa [Nat.add_zero, Nat.mod_eq_of_lt sound.holds.rd_lt, ← sound.holds.wr_eq] at ne
      simp [step, push, Function.update_of_ne other]

theorem settled_of_fresh (sound : Sound s acc n) (fresh : Fresh (step s i)) : Settled s i := by
  intro push empty div
  obtain ⟨free, uncleared⟩ := fifoAPush_spec push
  have tick : popTick s = false := by simp [popTick, div, SAMPLE_DIV]
  have unpopped : popA s = false := by rw [popA, tick, Bool.false_and]
  have wptr : s.wptrA = s.rptrA := by
    rw [sound.holds.wr_eq, empty, Nat.add_zero, Nat.mod_eq_of_lt sound.holds.rd_lt]
  have pop : popA (step s i) = true := by
    have last : (step s i).sampleDiv = 1459 := by
      rw [(sampleDiv_step sound.div).1, tick, div]
      rfl
    have count : (step s i).countA = 1 := by simp [step, push, unpopped, uncleared, empty]
    rw [popA, popTick, last, count]
    rfl
  have same := fresh pop
  simpa [step, push, unpopped, uncleared, wptr] using same

/-- Whether a pop emits the oldest byte. -/
theorem sample_iff (sound : Sound s acc n) (pop : popA s = true) :
    (∃ b, acc[n]? = some b ∧ (step s i).sampleL.toInt = (b.toNat - 128 : Int) * 256 ∧
      (step s i).sampleR.toInt = (b.toNat - 128 : Int) * 256) ↔
    s.fifoAQ = s.fifoA s.rptrA := by
  obtain ⟨count, full⟩ : ∃ count, s.countA = count + 1 :=
    ⟨s.countA - 1, by have := (popA_spec pop).2; omega⟩
  have holds := sound.holds
  rw [full] at holds
  have oldest := holds.oldest
  have emitted : (step s i).sampleL.toInt = (s.fifoAQ.toNat - 128 : Int) * 256 ∧
      (step s i).sampleR.toInt = (s.fifoAQ.toNat - 128 : Int) * 256 := by
    rw [← sampleOf_toInt]
    simp [step, pop]
  constructor
  · rintro ⟨b, here, left, -⟩
    rw [oldest, Option.some.injEq] at here
    rw [emitted.1, ← here] at left
    exact BitVec.eq_of_toNat_eq (by omega)
  · intro same
    rw [same] at emitted
    exact ⟨_, oldest, emitted⟩

end Fresh

section Laws

variable (s : State) (j : Inputs) (i : Nat → Inputs)

theorem fresh_iff :
    (∀ t, Fresh (after (reset s j) i t)) ↔ ∀ t, Settled (after (reset s j) i t) (i t) := by
  constructor
  · intro fresh t
    exact settled_of_fresh (sound_after s j i t) (fresh (t + 1))
  · intro settled t
    cases t with
    | zero =>
      intro pop
      cases pop
    | succ t => exact fresh_step (sound_after s j i t) (settled t)

/-- The FIFO is a queue exactly when no pop comes a clock after a byte that found it
empty, and differs from what its cell held. -/
theorem queueLaws_iff : QueueLaws (reset s j) i ↔ ∀ t, Settled (after (reset s j) i t) (i t) := by
  rw [← fresh_iff]
  constructor
  · intro laws t pop
    exact (sample_iff (sound_after s j i t) pop).1 (laws.sample t pop)
  · intro fresh
    exact {
      count := fun t => ⟨(sound_after s j i t).holds.total, (sound_after s j i t).holds.count_le⟩
      apart := laws_apart s j i
      byte := fun _ write _ => laws_byte write
      word := fun _ word => laws_word word
      other := fun _ none_ single => laws_other none_ single
      sample := fun t pop => (sample_iff (sound_after s j i t) pop).2 (fresh t pop) }

end Laws

/-! ## A run -/

section Idle

/-- No access. -/
def Inputs.idle : Inputs := ⟨false, 0, 0, false, true, true, true⟩

/-- MOVE.B to the FIFO. -/
def Inputs.store (b : Byte) : Inputs := ⟨true, 0, b ++ b, true, false, false, true⟩

/-- A byte that is written in one clock, and no other access. -/
def oneByte (b : Byte) (at_ t : Nat) : Inputs := if t = at_ then .store b else .idle

theorem step_idle {s : State} (tick : popTick s = false) (pend : s.fifoPendV = false) :
    (step s .idle).countA = s.countA ∧ (step s .idle).wptrA = s.wptrA ∧
    (step s .idle).fifoA = s.fifoA ∧ (step s .idle).ascArmed = true ∧
    (step s .idle).fifoPendV = false := by
  have quiet : weStb s .idle = false := by simp [weStb, Inputs.idle]
  have clear : fifoClear s .idle = false := by rw [fifoClear, regWrite, quiet]; rfl
  have push : fifoAPush s .idle = false := by rw [fifoAPush, fifoAWrite, quiet, pend]; rfl
  have word : fifoAWord s .idle = false := by rw [fifoAWord, fifoAWrite, quiet]; rfl
  have unpopped : popA s = false := by rw [popA, tick, Bool.false_and]
  unfold step
  rw [clear, push, unpopped, word]
  exact ⟨rfl, rfl, rfl, rfl, rfl⟩

/-- Nothing moves but the divider. -/
theorem after_idle (s : State) (b : Byte) {at_ t : Nat} (before : t ≤ at_) (early : t < SAMPLE_DIV) :
    (after (reset s .idle) (oneByte b at_) t).countA = 0 ∧
    (after (reset s .idle) (oneByte b at_) t).wptrA = 0 ∧
    (after (reset s .idle) (oneByte b at_) t).fifoA = (reset s .idle).fifoA ∧
    (after (reset s .idle) (oneByte b at_) t).ascArmed = true ∧
    (after (reset s .idle) (oneByte b at_) t).fifoPendV = false ∧
    (after (reset s .idle) (oneByte b at_) t).sampleDiv = t := by
  induction t with
  | zero => exact ⟨rfl, rfl, rfl, rfl, rfl, rfl⟩
  | succ t ih =>
    obtain ⟨count, wptr, fifo, -, pend, div⟩ := ih (by omega) (by omega)
    have idle : oneByte b at_ t = .idle := if_neg (by omega)
    have tick : popTick (after (reset s .idle) (oneByte b at_) t) = false := by
      rw [popTick, div]
      exact beq_eq_false_iff_ne.2 (by omega)
    obtain ⟨count', wptr', fifo', armed, pend'⟩ := step_idle tick pend
    have next : after (reset s .idle) (oneByte b at_) (t + 1) = step _ .idle :=
      congrArg (step _) idle
    rw [next]
    refine ⟨count'.trans count, wptr'.trans wptr, fifo'.trans fifo, armed, pend', ?_⟩
    rw [(sampleDiv_step (by omega)).1, tick, div]
    rfl

/-- The registers before reset, and a memory of zeros. -/
def blank : State where
  fifoA := fun _ => 0x00
  fifoAQ := 0x00
  wptrA := 0
  rptrA := 0
  countA := 0
  sampleDiv := 0
  regs := fun _ => 0x00
  ascArmed := false
  fifoPendV := false
  fifoPendB := 0x00
  sampleL := 0
  sampleR := 0
  sampleTick := false
  irq := false

/-- The byte 0x80 is accepted a clock before the first tick; the sample is the one of
the 0x00 that the memory held. -/
theorem queueLaws_fail : ¬ QueueLaws (reset blank .idle) (oneByte 0x80 1458) := by
  intro laws
  obtain ⟨count, wptr, fifo, armed, pend, div⟩ :=
    after_idle blank 0x80 (show 1458 ≤ 1458 by omega) (by decide)
  have write : weStb (after (reset blank .idle) (oneByte 0x80 1458) 1458) (.store 0x80) = true := by
    rw [weStb, armed]
    rfl
  have clear := fifoClear_write (s := after (reset blank .idle) (oneByte 0x80 1458) 1458)
    (i := .store 0x80) (by rw [fifoAWrite, write]; rfl)
  have push : fifoAPush (after (reset blank .idle) (oneByte 0x80 1458) 1458) (.store 0x80) = true := by
    rw [fifoAPush, fifoAWrite, write, count, clear]
    rfl
  have fresh := fun t pop => (sample_iff (sound_after blank .idle (oneByte 0x80 1458) t) pop).1
    (laws.sample t pop)
  have same := settled_of_fresh (i := .store 0x80) (sound_after blank .idle (oneByte 0x80 1458) 1458)
    (fresh 1459) push count div
  rw [wptr, fifo, fifoAByte, pend] at same
  revert same
  decide

end Idle

end MacIIvi.Asc
