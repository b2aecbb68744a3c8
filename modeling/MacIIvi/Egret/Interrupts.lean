import Mathlib.Logic.Function.Basic
import MacIIvi.Clocked.Run
import MacIIvi.Egret.Flow

/-!
# Interrupts of the Egret's processor

A request is latched in a clock with `I` clear, and taken in state 2 whatever `I`
is by then; the states that push the frame are shared by interrupts and SWI and
choose the vector by the request that stands in state 7. So a request that comes
up during SEI, during an RTI that pops `I` set, or during SWI goes wrong.
-/

namespace MacIIvi.Egret

/-! ## What a clock does to the interrupt state -/

/-- The machine takes the opcode on the bus. -/
def State.Takes (s : State) : Prop :=
  s.mainFSM = .cycle1 ∧ s.trace = false ∧ s.irqRequest = false

/-- The registers of the interrupt logic. -/
def State.control (s : State) : Bool × IrqSource × Bool × Bool :=
  (s.irqRequest, s.irqSource, s.trace, s.traceI)

section Cycles

variable (s : State) (d : Byte)

theorem item1_mask : ∀ d : Byte, item1 d = .mask ↔ d = 0x9A ∨ d = 0x9B := by decide +kernel

theorem item1_rtt : ∀ d : Byte, item1 d = .rtt ↔ d = 0x82 := by decide +kernel

theorem item2_rti : ∀ d : Byte, item2 d = .rti ↔ d = 0x80 ∨ d = 0x82 := by decide +kernel

theorem decode_flagI :
    (decode s d).flagI = if d = 0x9A ∨ d = 0x9B then d.getLsbD 0 else s.flagI := by
  simp only [← item1_mask]
  unfold decode
  cases item1 d <;> rfl

theorem decode_control : (decode s d).control =
    (s.irqRequest, s.irqSource, s.trace, decide (d = 0x82) || s.traceI) := by
  simp only [← item1_rtt]
  unfold decode
  cases item1 d <;> rfl

theorem cycle1_takes {s : State} (d : Byte) (takes : s.Takes) :
    cycle1 s d = decode { s with trace := s.traceI } d := by
  obtain ⟨-, single, none_⟩ := takes
  simp [cycle1, single, none_]

/-- State 2. -/
theorem cycle1_frame :
    (cycle1 s d).flagI = (if !s.trace && !s.irqRequest && (d = 0x9A || d = 0x9B) then d.getLsbD 0
      else s.flagI) ∧
    (cycle1 s d).control = (s.irqRequest, s.irqSource, s.traceI,
      !s.trace && !s.irqRequest && decide (d = 0x82) || s.traceI) := by
  cases trace : s.trace
  · cases request : s.irqRequest
    · have taken : cycle1 s d = decode { s with trace := s.traceI } d := by simp [cycle1, trace, request]
      rw [taken, decode_flagI, decode_control]
      simp [request]
    · simp [cycle1, trace, request, State.control]
  · simp [cycle1, trace, State.control]

theorem cycle2_flagI (irq : Bool) : (cycle2 s irq d).flagI =
    if s.opcode = 0x80 ∨ s.opcode = 0x82 then d.getLsbD 3 else s.flagI := by
  simp only [← item2_rti]
  unfold cycle2
  cases item2 s.opcode <;> rfl

theorem cycle2_control (irq : Bool) : (cycle2 s irq d).control = s.control := by
  unfold cycle2
  cases item2 s.opcode <;> rfl

theorem cycle3_frame : (cycle3 s d).flagI = s.flagI ∧ (cycle3 s d).control = s.control := by
  unfold cycle3
  cases item3 s.opcode <;> exact ⟨rfl, rfl⟩

theorem cycle4_frame : (cycle4 s d).flagI = s.flagI ∧ (cycle4 s d).control = s.control := by
  unfold cycle4
  cases item4 s.opcode
  case operate f => cases f <;> exact ⟨rfl, rfl⟩
  all_goals exact ⟨rfl, rfl⟩

theorem cycle5_frame : (cycle5 s d).flagI = s.flagI ∧ (cycle5 s d).control = s.control := by
  unfold cycle5
  split_ifs <;> exact ⟨rfl, rfl⟩

theorem cycle6_frame : (cycle6 s d).flagI = (s.flagI || decide (s.opcode = 0x83)) ∧
    (cycle6 s d).control =
      (s.irqRequest && !(decide (s.opcode = 0x83) && !s.trace), s.irqSource, s.trace, s.traceI) := by
  unfold cycle6 State.control
  by_cases push : s.opcode = 0x83
  · rw [push]
    cases trace : s.trace <;> cases request : s.irqRequest <;> simp [*]
  · rw [decide_eq_false push, if_neg push]
    split_ifs <;> simp

theorem cycle7_frame : (cycle7 s).flagI = s.flagI ∧ (cycle7 s).control = s.control := by
  unfold cycle7
  split_ifs <;> exact ⟨rfl, rfl⟩

theorem cycle8_frame : (cycle8 s d).flagI = s.flagI ∧ (cycle8 s d).control = s.control := by
  unfold cycle8
  split_ifs <;> exact ⟨rfl, rfl⟩

theorem cycle9_frame : (cycle9 s d).flagI = s.flagI ∧ (cycle9 s d).control = s.control := by
  unfold cycle9
  split_ifs <;> exact ⟨rfl, rfl⟩

end Cycles

/-- The interrupt registers after a clock, but for a request that is latched. -/
def controlNext (s : State) (d : Byte) : Bool × IrqSource × Bool × Bool :=
  match s.mainFSM with
  | .cycle1 =>
    (s.irqRequest, s.irqSource, s.traceI,
      !s.trace && !s.irqRequest && decide (d = 0x82) || s.traceI)
  | .cycle6 =>
    (s.irqRequest && !(decide (s.opcode = 0x83) && !s.trace), s.irqSource, s.trace, s.traceI)
  | .cycle6a => (s.irqRequest, s.irqSource, false, false)
  | _ => s.control

/-- `flagI` after a clock. -/
def flagINext (s : State) (d : Byte) : Bool :=
  match s.mainFSM with
  | .cycle1 =>
    if !s.trace && !s.irqRequest && (d = 0x9A || d = 0x9B) then d.getLsbD 0 else s.flagI
  | .cycle2 => if s.opcode = 0x80 ∨ s.opcode = 0x82 then d.getLsbD 3 else s.flagI
  | .cycle6 => s.flagI || decide (s.opcode = 0x83)
  | _ => s.flagI

section Clock

variable (s : State) (i : Inputs)

theorem execute_frame : (execute s i).flagI = flagINext s i.datain ∧
    (execute s i).control = controlNext s i.datain := by
  unfold execute flagINext controlNext
  cases fsm : s.mainFSM
  case resetHigh => exact ⟨rfl, rfl⟩
  case resetLow => exact ⟨rfl, rfl⟩
  case cycle1 => exact cycle1_frame s i.datain
  case cycle2 => exact ⟨cycle2_flagI s i.datain i.irq, cycle2_control s i.datain i.irq⟩
  case cycle3 => exact cycle3_frame s i.datain
  case cycle4 => exact cycle4_frame s i.datain
  case cycle5 => exact cycle5_frame s i.datain
  case cycle6 => exact cycle6_frame s i.datain
  case cycle7 => exact cycle7_frame s
  case cycle8 => exact cycle8_frame s i.datain
  case cycle9 => exact cycle9_frame s i.datain
  case cycle6a => exact ⟨rfl, rfl⟩

theorem step_flagI : (step s i).flagI = flagINext s i.datain := (execute_frame s i).1

theorem step_irqRequest :
    (step s i).irqRequest = ((controlNext s i.datain).1 || (latches s i).isSome) := by
  rw [← (execute_frame s i).2]
  rfl

theorem step_trace : (step s i).trace = (controlNext s i.datain).2.2.1 ∧
    (step s i).traceI = (controlNext s i.datain).2.2.2 := by
  rw [← (execute_frame s i).2]
  exact ⟨rfl, rfl⟩

/-- A request is latched only while none stands and `I` is clear, and from an
active line. -/
theorem latches_spec {k : IrqSource} (some_ : latches s i = some k) :
    s.flagI = false ∧ s.irqRequest = false ∧ requests s i = some k := by
  unfold latches at some_
  split at some_
  · next free =>
    simp only [Bool.and_eq_true, Bool.not_eq_true'] at free
    exact ⟨free.1, free.2, some_⟩
  · cases some_

end Clock

/-! ## The laws -/

/-- The line of a source is active. -/
def active (i : Inputs) (k : IrqSource) : Bool :=
  match k with
  | .irq => !i.irq
  | .timer => !i.timerIrq
  | .onesec => !i.onesecIrq

theorem requests_active (s : State) (i : Inputs) {k : IrqSource} (line : requests s i = some k) :
    active i k = true := by
  unfold requests at line
  split_ifs at line with onesec timer irq <;> cases line
  · exact onesec
  · exact timer
  · exact (Bool.and_eq_true_iff.1 irq).1

/-- An active internal line requests. -/
theorem requests_internal (s : State) (i : Inputs) {k : IrqSource} (internal : k ≠ .irq)
    (line : active i k = true) : (requests s i).isSome = true := by
  unfold requests active at *
  cases k <;> simp_all
  split <;> rfl

section Laws

variable (s : State) (i : Nat → Inputs)

/-- An instruction boundary. -/
def Boundary (t : Nat) : Prop := (after s i t).mainFSM = .cycle1

/-- An interrupt sequence starts. -/
def StartsInterrupt (t : Nat) : Prop :=
  Boundary s i t ∧ (after s i t).trace = false ∧ (after s i t).irqRequest = true

/-- The instruction with opcode `d` starts. -/
def Starts (d : Byte) (t : Nat) : Prop :=
  Boundary s i t ∧ (after s i t).trace = false ∧ (after s i t).irqRequest = false ∧
    (i t).datain = d

/-- Two boundaries with none between them. -/
def Consecutive (t u : Nat) : Prop :=
  t < u ∧ Boundary s i t ∧ Boundary s i u ∧ ∀ w, t < w → w < u → ¬ Boundary s i w

/-- The sequence that starts goes through a vector: nine clocks later the program
counter holds what was read there. -/
def Vectors (t : Nat) (v : Word) : Prop :=
  addr (after s i (t + 7)) = v ∧ addr (after s i (t + 8)) = v + 1 ∧ Boundary s i (t + 9) ∧
    (after s i (t + 9)).regPC = (i (t + 7)).datain ++ (i (t + 8)).datain

/-- The source has requested an interrupt, and none was taken since. -/
def Requested (k : IrqSource) (t : Nat) : Prop :=
  ∃ w < t, active (i w) k = true ∧ (after s i w).flagI = false ∧
    ∀ u, w < u → u ≤ t → (after s i u).irqRequest = true ∧ (after s i u).irqSource = k

/-- What has been written to an address, in a memory that held `m`. -/
def ram (m : Word → Byte) : Nat → Word → Byte
  | 0 => m
  | t + 1 =>
    if (after s i t).wr then ram m t
    else Function.update (ram m t) (addr (after s i t)) (dataout (after s i t))

/-- The five bytes of the frame below a stack pointer. -/
def InFrame (sp a : Word) : Prop := ∃ k < 5, a = sp - BitVec.ofNat 16 k

/-- The frame that a sequence pushes at `t` is in memory, and stands unchanged at
`u`, with the stack pointer below it. -/
def FrameStands (m : Word → Byte) (t u : Nat) : Prop :=
  (after s i u).regSP = (after s i t).regSP - 5 ∧
  (∀ a, InFrame (after s i t).regSP a → ram s i m u a = ram s i m (t + 9) a) ∧
  ∀ w, u ≤ w → InFrame (after s i t).regSP (addr (after s i w)) →
    (i w).datain = ram s i m w (addr (after s i w))

/-- Where a sequence is to return to. -/
def returnPC (t : Nat) : Word :=
  if (after s i t).irqRequest then (after s i t).regPC else (after s i t).regPC + 1

/-- The interrupt law. -/
structure Laws : Prop where
  /-- No interrupt starts with `I` set. -/
  masked : ∀ t, StartsInterrupt s i t → (after s i t).flagI = false
  /-- SWI goes through its vector, and its handler is executed. -/
  swi : ∀ t, Starts s i 0x83 t → Vectors s i t 0xFFFC ∧
    (after s i (t + 9)).trace = false ∧ (after s i (t + 9)).irqRequest = false
  /-- An interrupt that comes up while SWI pushes its frame, and stays, is taken
  once `I` is clear. -/
  pending : ∀ t, Starts s i 0x83 t → ∀ k w, t < w → w ≤ t + 6 →
    active (i (w - 1)) k = false → active (i w) k = true →
    ∀ u u', t + 9 ≤ u → Consecutive s i u u' →
    (after s i u).flagI = false → (after s i u').flagI = false →
    (∀ x, w ≤ x → x ≤ u' → active (i x) k = true) →
    StartsInterrupt s i u ∨ StartsInterrupt s i u'
  /-- An internal line that is active at two boundaries in a row with `I` clear has
  started an interrupt. -/
  level : ∀ t u, Consecutive s i t u → (after s i t).flagI = false →
    (after s i u).flagI = false → ∀ k ≠ .irq, active (i t) k = true → active (i u) k = true →
    StartsInterrupt s i t ∨ StartsInterrupt s i u
  /-- An interrupt goes through the vector of a source that requested it. -/
  source : ∀ t, StartsInterrupt s i t → ∃ k, Requested s i k t ∧ Vectors s i t (vector k)
  /-- RTI restores what the sequence has pushed. -/
  restores : ∀ t, StartsInterrupt s i t ∨ Starts s i 0x83 t →
    ∀ m u, t + 9 ≤ u → Starts s i 0x80 u → FrameStands s i m t u →
    Boundary s i (u + 6) ∧
    (after s i (u + 6)).toRegisters =
      { (after s i t).toRegisters with regPC := returnPC s i t }

end Laws

/-! ## When they hold -/

/-- No request stands, and none is latched. -/
def Quiet (s : State) (i : Inputs) : Prop := s.irqRequest = false ∧ latches s i = none

/-- The states that push a frame, up to the choice of the vector. -/
def State.Pushing (s : State) : Prop :=
  s.opcode = 0x83 ∧ (s.mainFSM = .cycle2 ∨ s.mainFSM = .cycle3 ∨ s.mainFSM = .cycle4 ∨
    s.mainFSM = .cycle5 ∨ s.mainFSM = .cycle6)

/-- The states that push the frame of SWI. -/
def State.PushingSwi (s : State) : Prop :=
  s.Pushing ∧ s.irqRequest = false ∧ s.trace = false ∨
    s.opcode = 0x83 ∧ s.mainFSM = .cycle7 ∧ s.temp = 0xFFFC

/-- A clock in which no request goes wrong. -/
structure Undisturbed (s : State) (i : Inputs) : Prop where
  /-- No request comes up in SEI. -/
  sei : s.Takes → i.datain = 0x9B → latches s i = none
  /-- None comes up in SWI, before its vector is chosen, -/
  swi : s.Takes → i.datain = 0x83 → latches s i = none
  push : s.Pushing → latches s i = none
  /-- and the pin, which is sensed by its edge and only with `I` clear, does not
  fall while SWI pushes its frame. -/
  pin : s.PushingSwi → s.irqD = true → i.irq = true
  /-- None comes up in an RTI that pops `I` set. -/
  rti : s.mainFSM = .cycle2 → s.opcode = 0x80 ∨ s.opcode = 0x82 → i.datain.getLsbD 3 = true →
    Quiet s i
  /-- RTT single-steps an instruction other than SWI, with no interrupt about. -/
  rtt : s.mainFSM = .cycle1 → s.trace = true ∨ s.traceI = true →
    Quiet s i ∧ (s.trace = true ∨ i.datain ≠ 0x83)

/-! ## The push, clock by clock -/

section Push

variable {s : State} {i : Inputs}

/-- A clock without a request. -/
theorem step_quiet (quiet : latches s i = none) :
    step s i = { execute s i with irqD := i.irq, irqSource := s.irqSource } := by
  unfold step
  rw [quiet]
  simp

theorem step_push2 (op : s.opcode = 0x83) (fsm : s.mainFSM = .cycle2) (quiet : latches s i = none) :
    step s i = { s with wr := false, dataMux := .pcl, mainFSM := .cycle3, irqD := i.irq } := by
  rw [step_quiet quiet, execute, fsm]
  simp only [cycle2, op, show item2 0x83 = .swi from rfl]

theorem step_push3 (op : s.opcode = 0x83) (fsm : s.mainFSM = .cycle3) (quiet : latches s i = none) :
    step s i =
      { s with regSP := s.regSP - 1, dataMux := .pch, mainFSM := .cycle4, irqD := i.irq } := by
  rw [step_quiet quiet, execute, fsm]
  simp only [cycle3, op, show item3 0x83 = .swi from rfl]

theorem step_push4 (op : s.opcode = 0x83) (fsm : s.mainFSM = .cycle4) (quiet : latches s i = none) :
    step s i =
      { s with
        regSP := s.regSP - 1, dataMux := .x, help := s.toRegisters.ccr, mainFSM := .cycle5
        irqD := i.irq } := by
  rw [step_quiet quiet, execute, fsm]
  simp only [cycle4, op, show item4 0x83 = .swi from rfl]

theorem step_push5 (op : s.opcode = 0x83) (fsm : s.mainFSM = .cycle5) (quiet : latches s i = none) :
    step s i =
      { s with regSP := s.regSP - 1, dataMux := .a, mainFSM := .cycle6, irqD := i.irq } := by
  rw [step_quiet quiet, execute, fsm]
  simp [cycle5, op]

/-- The vector that state 7 chooses. -/
def State.chosen (s : State) : Word := if s.irqRequest then vector s.irqSource else 0xFFFC

theorem step_push6 (op : s.opcode = 0x83) (fsm : s.mainFSM = .cycle6) (quiet : latches s i = none)
    (single : s.trace = false) :
    step s i =
      { s with
        regSP := s.regSP - 1, dataMux := .help, flagI := true, irqRequest := false
        temp := s.chosen, mainFSM := .cycle7, irqD := i.irq } := by
  rw [step_quiet quiet, execute, fsm]
  cases request : s.irqRequest <;> simp [cycle6, op, single, request, State.chosen]

theorem step_push7 (op : s.opcode = 0x83) (fsm : s.mainFSM = .cycle7) (quiet : latches s i = none) :
    step s i =
      { s with
        wr := true, addrMux := .tm, regSP := s.regSP - 1, mainFSM := .cycle8, irqD := i.irq } := by
  rw [step_quiet quiet, execute, fsm]
  simp [cycle7, op]

theorem step_push8 (op : s.opcode = 0x83) (fsm : s.mainFSM = .cycle8) (quiet : latches s i = none) :
    step s i =
      { s with
        regPC := setHigh s.regPC i.datain, temp := s.temp + 1, mainFSM := .cycle9
        irqD := i.irq } := by
  rw [step_quiet quiet, execute, fsm]
  simp [cycle8, op]

theorem step_push9 (op : s.opcode = 0x83) (fsm : s.mainFSM = .cycle9) (quiet : latches s i = none) :
    step s i =
      { s with
        regPC := setLow s.regPC i.datain, addrMux := .pc, mainFSM := .cycle1, irqD := i.irq } := by
  rw [step_quiet quiet, execute, fsm]
  simp [cycle9, op]

theorem latches_masked (masked : s.flagI = true) : latches s i = none := by simp [latches, masked]

theorem latches_standing (request : s.irqRequest = true) : latches s i = none := by
  simp [latches, request]

end Push

section Sequence

variable {s : State} {i : Nat → Inputs} {t : Nat}

/-- The first clock of a push that is not traced, with no request coming up in the
clocks that follow. -/
structure Enters (s : State) (i : Nat → Inputs) (t : Nat) : Prop where
  fsm : (after s i (t + 1)).mainFSM = .cycle2
  opcode : (after s i (t + 1)).opcode = 0x83
  mux : (after s i (t + 1)).addrMux = .sp
  trace : (after s i (t + 1)).trace = false
  quiet : ∀ n, 1 ≤ n → n ≤ 5 → latches (after s i (t + n)) (i (t + n)) = none

/-- The five bytes go out one a clock. -/
theorem Enters.pushes (h : Enters s i t) :
    after s i (t + 2) =
      { after s i (t + 1) with
        wr := false, dataMux := .pcl, mainFSM := .cycle3, irqD := (i (t + 1)).irq } ∧
    after s i (t + 3) =
      { after s i (t + 1) with
        wr := false, dataMux := .pch, mainFSM := .cycle4, irqD := (i (t + 2)).irq
        regSP := (after s i (t + 1)).regSP - 1 } ∧
    after s i (t + 4) =
      { after s i (t + 1) with
        wr := false, dataMux := .x, mainFSM := .cycle5, irqD := (i (t + 3)).irq
        regSP := (after s i (t + 1)).regSP - 1 - 1, help := (after s i (t + 1)).toRegisters.ccr } ∧
    after s i (t + 5) =
      { after s i (t + 1) with
        wr := false, dataMux := .a, mainFSM := .cycle6, irqD := (i (t + 4)).irq
        regSP := (after s i (t + 1)).regSP - 1 - 1 - 1
        help := (after s i (t + 1)).toRegisters.ccr } ∧
    after s i (t + 6) =
      { after s i (t + 1) with
        wr := false, dataMux := .help, mainFSM := .cycle7, irqD := (i (t + 5)).irq
        regSP := (after s i (t + 1)).regSP - 1 - 1 - 1 - 1
        help := (after s i (t + 1)).toRegisters.ccr
        flagI := true, irqRequest := false, temp := (after s i (t + 1)).chosen } := by
  have e2 : after s i (t + 2) = _ := step_push2 h.opcode h.fsm (h.quiet 1 (by omega) (by omega))
  have q2 := h.quiet 2 (by omega) (by omega)
  rw [e2] at q2
  have e3 : after s i (t + 3) = _ :=
    (congrArg (step · (i (t + 2))) e2).trans (step_push3 h.opcode rfl q2)
  have q3 := h.quiet 3 (by omega) (by omega)
  rw [e3] at q3
  have e4 : after s i (t + 4) = _ :=
    (congrArg (step · (i (t + 3))) e3).trans (step_push4 h.opcode rfl q3)
  have q4 := h.quiet 4 (by omega) (by omega)
  rw [e4] at q4
  have e5 : after s i (t + 5) = _ :=
    (congrArg (step · (i (t + 4))) e4).trans (step_push5 h.opcode rfl q4)
  have q5 := h.quiet 5 (by omega) (by omega)
  rw [e5] at q5
  have e6 : after s i (t + 6) = _ :=
    (congrArg (step · (i (t + 5))) e5).trans (step_push6 h.opcode rfl q5 h.trace)
  exact ⟨e2, e3, e4, e5, e6⟩

/-- Then the vector is read. -/
theorem Enters.leads (h : Enters s i t) :
    after s i (t + 7) =
      { after s i (t + 6) with
        wr := true, addrMux := .tm, mainFSM := .cycle8, irqD := (i (t + 6)).irq
        regSP := (after s i (t + 6)).regSP - 1 } ∧
    after s i (t + 8) =
      { after s i (t + 7) with
        mainFSM := .cycle9, irqD := (i (t + 7)).irq, temp := (after s i (t + 7)).temp + 1
        regPC := setHigh (after s i (t + 7)).regPC (i (t + 7)).datain } ∧
    after s i (t + 9) =
      { after s i (t + 8) with
        addrMux := .pc, mainFSM := .cycle1, irqD := (i (t + 8)).irq
        regPC := setLow (after s i (t + 8)).regPC (i (t + 8)).datain } := by
  obtain ⟨-, -, -, -, e6⟩ := h.pushes
  have op6 : (after s i (t + 6)).opcode = 0x83 := by rw [e6]; exact h.opcode
  have e7 : after s i (t + 7) = _ := step_push7 op6 (by rw [e6]) (latches_masked (by rw [e6]))
  have op7 : (after s i (t + 7)).opcode = 0x83 := by rw [e7]; exact op6
  have e8 : after s i (t + 8) = _ := step_push8 op7 (by rw [e7]) (latches_masked (by rw [e7, e6]))
  have op8 : (after s i (t + 8)).opcode = 0x83 := by rw [e8]; exact op7
  have e9 : after s i (t + 9) = _ :=
    step_push9 op8 (by rw [e8]) (latches_masked (by rw [e8, e7, e6]))
  exact ⟨e7, e8, e9⟩

/-- Where the machine stands when a handler begins. -/
theorem Enters.handler (h : Enters s i t) :
    Vectors s i t (after s i (t + 1)).chosen ∧
    (after s i (t + 9)).trace = false ∧ (after s i (t + 9)).irqRequest = false := by
  obtain ⟨-, -, -, -, e6⟩ := h.pushes
  obtain ⟨e7, e8, e9⟩ := h.leads
  refine ⟨⟨?_, ?_, ?_, ?_⟩, ?_, ?_⟩
  · rw [e7, e6]
    rfl
  · rw [e8, e7, e6]
    rfl
  · rw [Boundary, e9]
  · rw [e9, e8]
    exact setLow_setHigh _ _ _
  · rw [e9, e8, e7, e6]
    exact h.trace
  · rw [e9, e8, e7, e6]

end Sequence

/-! ## Requests and the mask -/

section Mask

variable {s : State} {i : Inputs}

/-- A request stands only while `I` is clear, and no traced push meets one. -/
structure Honest (s : State) : Prop where
  masked : s.irqRequest = true → s.flagI = false
  single : s.Pushing → s.trace = true → s.irqRequest = false

theorem irqRequest_quiet (quiet : Quiet s i) : (step s i).irqRequest = false := by
  obtain ⟨none_, unlatched⟩ := quiet
  have kept : (controlNext s i.datain).1 = false := by
    unfold controlNext State.control
    cases s.mainFSM <;> simp [none_]
  rw [step_irqRequest, kept, unlatched]
  rfl

/-- Where a request after a clock comes from. -/
theorem irqRequest_source (request : (step s i).irqRequest = true) :
    (latches s i).isSome = true ∨
      latches s i = none ∧ s.irqRequest = true ∧
        ¬ (s.mainFSM = .cycle6 ∧ s.opcode = 0x83 ∧ s.trace = false) := by
  rw [step_irqRequest, Bool.or_eq_true] at request
  rcases request with kept | latched
  · cases unlatched : latches s i
    · refine .inr ⟨rfl, ?_⟩
      unfold controlNext State.control at kept
      cases fsm : s.mainFSM <;> simp_all
      exact fun push => kept.2.resolve_left fun other => other push
    · exact .inl rfl
  · exact .inl latched

/-- `I` is clear in a clock with a request about. -/
theorem flagI_clear (honest : Honest s) (request : (step s i).irqRequest = true) :
    s.flagI = false := by
  rcases irqRequest_source request with latched | ⟨-, stands, -⟩
  · obtain ⟨k, hk⟩ := Option.isSome_iff_exists.1 latched
    exact (latches_spec s i hk).1
  · exact honest.masked stands

theorem masked_step (calm : Undisturbed s i) (honest : Honest s)
    (request : (step s i).irqRequest = true) : (step s i).flagI = false := by
  have before := flagI_clear honest request
  have loud : ¬ Quiet s i := fun quiet => by
    rw [irqRequest_quiet quiet] at request
    cases request
  rw [step_flagI]
  unfold flagINext
  cases fsm : s.mainFSM
  case cycle1 =>
    dsimp only
    split
    · next taken =>
      simp only [Bool.and_eq_true, Bool.not_eq_true', Bool.or_eq_true, decide_eq_true_eq] at taken
      obtain ⟨⟨single, none_⟩, clear | set_⟩ := taken
      · rw [clear]
        rfl
      · exact absurd ⟨none_, calm.sei ⟨fsm, single, none_⟩ set_⟩ loud
    · exact before
  case cycle2 =>
    dsimp only
    split
    · next pop =>
      cases bit : i.datain.getLsbD 3
      · rfl
      · exact absurd (calm.rti fsm pop bit) loud
    · exact before
  case cycle6 =>
    by_cases push : s.opcode = 0x83
    · have pushing : s.Pushing := ⟨push, .inr (.inr (.inr (.inr fsm)))⟩
      have unlatched := calm.push pushing
      rcases irqRequest_source request with latched | ⟨-, stands, traced⟩
      · rw [unlatched] at latched
        cases latched
      · have trace : s.trace = true := by
          by_contra single
          exact traced ⟨fsm, push, by simpa using single⟩
        rw [honest.single pushing trace] at stands
        cases stands
    · rw [before, decide_eq_false push]
      rfl
  all_goals exact before

/-- The push of a frame is entered in state 2 only, and goes on state by state. -/
theorem pushing_step (pushing : (step s i).Pushing) :
    s.mainFSM = .cycle1 ∨ s.mainFSM ≠ .cycle6 ∧ s.Pushing := by
  obtain ⟨opcode, states⟩ := pushing
  obtain ⟨flow, next⟩ := step_flow s i
  by_cases first : s.mainFSM = .cycle1
  · exact .inl first
  · have same : s.opcode = 0x83 := by
      rw [← opcode, next]
      exact (if_neg first).symm
    have fsm : (step s i).mainFSM = (s.flow.next 0x83 s.trace).mainFSM := by
      rw [← opcode, next]
      exact congrArg Flow.mainFSM flow
    rw [fsm] at states
    refine .inr ?_
    unfold Flow.next at states
    cases here : s.mainFSM <;> cases trace : s.trace <;>
      simp_all [State.flow, State.Pushing, flow6, flowEntry]

theorem honest_step (calm : Undisturbed s i) (honest : Honest s) : Honest (step s i) where
  masked := masked_step calm honest
  single := by
    intro pushing trace
    rcases pushing_step pushing with first | ⟨before, inside⟩
    · refine irqRequest_quiet (calm.rtt first (.inr ?_)).1
      rw [(step_trace s i).1] at trace
      simpa [controlNext, first] using trace
    · have same : (step s i).trace = s.trace := by
        rw [(step_trace s i).1]
        unfold controlNext State.control
        obtain ⟨-, states⟩ := inside
        rcases states with fsm | fsm | fsm | fsm | fsm <;> rw [fsm]
      rw [same] at trace
      exact irqRequest_quiet ⟨honest.single inside trace, calm.push inside⟩

end Mask

/-! ## Runs in which no request goes wrong -/

/-- A run out of reset whose clocks are all undisturbed. -/
structure Calm (s : State) (i : Nat → Inputs) : Prop where
  reset : ∃ opcode traceOpCode, s = reset opcode traceOpCode
  undisturbed : ∀ t, Undisturbed (after s i t) (i t)

section Calm

variable {s : State} {i : Nat → Inputs} {t u : Nat}

theorem Calm.honest (h : Calm s i) (t : Nat) : Honest (after s i t) := by
  induction t with
  | zero =>
    obtain ⟨opcode, traceOpCode, rfl⟩ := h.reset
    refine ⟨?_, fun _ _ => rfl⟩
    intro request
    cases request
  | succ t ih => exact honest_step (h.undisturbed t) ih

theorem Calm.inFlight (h : Calm s i) (t : Nat) : (after s i t).flow.InFlight (after s i t).opcode := by
  refine inFlight_after i ?_ t
  obtain ⟨opcode, traceOpCode, rfl⟩ := h.reset
  exact .inl rfl

/-- The latch of an interrupt sequence, and the source it came from. -/
theorem Calm.requested (h : Calm s i) (t : Nat) (request : (after s i t).irqRequest = true) :
    Requested s i (after s i t).irqSource t := by
  induction t with
  | zero =>
    obtain ⟨opcode, traceOpCode, rfl⟩ := h.reset
    cases request
  | succ t ih =>
    rcases irqRequest_source request with latched | ⟨unlatched, stands, -⟩
    · obtain ⟨k, hk⟩ := Option.isSome_iff_exists.1 latched
      obtain ⟨clear, -, line⟩ := latches_spec _ _ hk
      have source : (after s i (t + 1)).irqSource = k := by
        change (latches _ _).getD _ = k
        rw [hk]
        rfl
      refine ⟨t, by omega, ?_, clear, ?_⟩
      · rw [source]
        exact requests_active _ _ line
      · intro u after before
        have here : u = t + 1 := by omega
        rw [here]
        exact ⟨request, rfl⟩
    · have source : (after s i (t + 1)).irqSource = (after s i t).irqSource := by
        change (latches _ _).getD _ = _
        rw [unlatched]
        rfl
      obtain ⟨w, before, line, clear, stood⟩ := ih stands
      refine ⟨w, by omega, by rw [source]; exact line, clear, ?_⟩
      intro u later upTo
      by_cases last : u = t + 1
      · rw [last]
        exact ⟨request, rfl⟩
      · rw [source]
        exact stood u later (by omega)

theorem Calm.enters (h : Calm s i) (fsm : (after s i (t + 1)).mainFSM = .cycle2)
    (opcode : (after s i (t + 1)).opcode = 0x83) (mux : (after s i (t + 1)).addrMux = .sp)
    (trace : (after s i (t + 1)).trace = false) : Enters s i t := by
  have f1 : (after s i (t + 1)).flow = ⟨.cycle2, .sp, (after s i (t + 1)).wr⟩ := by
    rw [← fsm, ← mux]
    rfl
  obtain ⟨f2, o2⟩ : (after s i (t + 2)).flow = ⟨.cycle3, .sp, false⟩ ∧ (after s i (t + 2)).opcode = 0x83 :=
    flow_step f1 opcode (by simp) fun _ => rfl
  obtain ⟨f3, o3⟩ : (after s i (t + 3)).flow = ⟨.cycle4, .sp, false⟩ ∧ (after s i (t + 3)).opcode = 0x83 :=
    flow_step f2 o2 (by decide) fun _ => rfl
  obtain ⟨f4, o4⟩ : (after s i (t + 4)).flow = ⟨.cycle5, .sp, false⟩ ∧ (after s i (t + 4)).opcode = 0x83 :=
    flow_step f3 o3 (by decide) fun _ => rfl
  obtain ⟨f5, o5⟩ : (after s i (t + 5)).flow = ⟨.cycle6, .sp, false⟩ ∧ (after s i (t + 5)).opcode = 0x83 :=
    flow_step f4 o4 (by decide) fun _ => rfl
  refine ⟨fsm, opcode, mux, trace, ?_⟩
  intro n from_ upTo
  refine (h.undisturbed (t + n)).push ?_
  obtain rfl | rfl | rfl | rfl | rfl : n = 1 ∨ n = 2 ∨ n = 3 ∨ n = 4 ∨ n = 5 := by omega
  · exact ⟨opcode, .inl fsm⟩
  · exact ⟨o2, .inr (.inl (congrArg Flow.mainFSM f2))⟩
  · exact ⟨o3, .inr (.inr (.inl (congrArg Flow.mainFSM f3)))⟩
  · exact ⟨o4, .inr (.inr (.inr (.inl (congrArg Flow.mainFSM f4))))⟩
  · exact ⟨o5, .inr (.inr (.inr (.inr (congrArg Flow.mainFSM f5))))⟩

/-- State 2 with a request standing. -/
theorem step_interrupt {s : State} {i : Inputs} (fsm : s.mainFSM = .cycle1)
    (single : s.trace = false) (request : s.irqRequest = true) :
    step s i =
      { s with
        trace := s.traceI, opcode := 0x83, addrMux := .sp, mainFSM := .cycle2, irqD := i.irq } := by
  rw [step_quiet (latches_standing request), execute, fsm]
  simp [cycle1, single, request]

/-- State 2 with SWI on the bus. -/
theorem step_swi {s : State} {i : Inputs} (takes : s.Takes) (swi : i.datain = 0x83)
    (quiet : latches s i = none) :
    step s i =
      { s with
        trace := s.traceI, opcode := 0x83, regPC := s.regPC + 1, addrMux := .sp
        mainFSM := .cycle2, irqD := i.irq } := by
  rw [step_quiet quiet, execute, takes.1]
  simp only [cycle1_takes _ takes, decode, swi, show item1 0x83 = .swi from rfl]

/-- An interrupt enters the push with its request standing. -/
theorem Calm.interrupt (h : Calm s i) (starts : StartsInterrupt s i t) :
    Enters s i t ∧ (after s i (t + 1)).chosen = vector (after s i t).irqSource ∧
    (after s i (t + 1)).toRegisters = (after s i t).toRegisters := by
  obtain ⟨fsm, single, request⟩ := starts
  have next : after s i (t + 1) = _ := step_interrupt fsm single request
  have untraced : (after s i t).traceI = false := by
    by_contra armed
    have quiet := ((h.undisturbed t).rtt fsm (.inr (by simpa using armed))).1
    rw [quiet.1] at request
    cases request
  refine ⟨h.enters (by rw [next]) (by rw [next]) (by rw [next]) (by rw [next]; exact untraced), ?_, ?_⟩
  · rw [next, State.chosen, if_pos request]
  · rw [next]

/-- SWI enters the push without a request. -/
theorem Calm.software (h : Calm s i) (starts : Starts s i 0x83 t) :
    Enters s i t ∧ (after s i (t + 1)).irqRequest = false ∧
    (after s i (t + 1)).toRegisters =
      { (after s i t).toRegisters with regPC := (after s i t).regPC + 1 } := by
  obtain ⟨fsm, single, none_, swi⟩ := starts
  have takes : (after s i t).Takes := ⟨fsm, single, none_⟩
  have next : after s i (t + 1) = _ := step_swi takes swi ((h.undisturbed t).swi takes swi)
  have untraced : (after s i t).traceI = false := by
    by_contra armed
    rcases ((h.undisturbed t).rtt fsm (.inr (by simpa using armed))).2 with traced | other
    · rw [single] at traced
      cases traced
    · exact other swi
  refine ⟨h.enters (by rw [next]) (by rw [next]) (by rw [next]) (by rw [next]; exact untraced), ?_, ?_⟩
  · rw [next]
    exact none_
  · rw [next]

theorem chosen_none {s : State} (none_ : s.irqRequest = false) : s.chosen = 0xFFFC := by
  rw [State.chosen, none_]
  rfl

/-- Until the next boundary, a request that comes up at one stands. -/
theorem Calm.stands (h : Calm s i) (takes : (after s i t).Takes)
    (latched : latches (after s i t) (i t) ≠ none) (later : t < u)
    (inside : ∀ w, t < w → w < u → ¬ Boundary s i w) :
    (after s i u).irqRequest = true ∧ (after s i u).opcode = (i t).datain := by
  have other : (i t).datain ≠ 0x83 := fun swi => latched ((h.undisturbed t).swi takes swi)
  induction u, later using Nat.le_induction with
  | base =>
    constructor
    · change (step _ _).irqRequest = true
      rw [step_irqRequest, Option.isSome_iff_ne_none.2 latched, Bool.or_true]
    · refine (step_flow (after s i t) (i t)).2.trans ?_
      rw [opcodeNext, takes.1, if_pos rfl, fetched, takes.2.1, takes.2.2]
      rfl
  | succ u later ih =>
    obtain ⟨request, opcode⟩ := ih fun w after before => inside w after (by omega)
    have between : ¬ Boundary s i u := inside u (by omega) (by omega)
    constructor
    · change (step _ _).irqRequest = true
      have kept : (controlNext (after s i u) (i u).datain).1 = true := by
        unfold controlNext State.control
        cases (after s i u).mainFSM
        case cycle6 =>
          rw [request, opcode, decide_eq_false other]
          rfl
        all_goals exact request
      rw [step_irqRequest, kept, Bool.true_or]
    · refine (step_flow (after s i u) (i u)).2.trans ?_
      rw [opcodeNext]
      exact (if_neg between).trans opcode

theorem Calm.level (h : Calm s i) (next : Consecutive s i t u)
    (clear : (after s i t).flagI = false) {k : IrqSource} (internal : k ≠ .irq)
    (line : active (i t) k = true) : StartsInterrupt s i t ∨ StartsInterrupt s i u := by
  obtain ⟨later, first, last, between⟩ := next
  have untraced : ∀ x, Boundary s i x → ¬ Quiet (after s i x) (i x) → (after s i x).trace = false := by
    intro x boundary loud
    by_contra traced
    exact loud ((h.undisturbed x).rtt boundary (.inl (by simpa using traced))).1
  cases request : (after s i t).irqRequest
  · have latched : latches (after s i t) (i t) ≠ none := by
      rw [latches, clear, request]
      exact Option.isSome_iff_ne_none.1 (requests_internal _ _ internal line)
    have takes : (after s i t).Takes :=
      ⟨first, untraced t first fun quiet => latched quiet.2, request⟩
    have stands := (h.stands takes latched later between).1
    refine .inr ⟨last, untraced u last ?_, stands⟩
    rintro ⟨none_, -⟩
    rw [stands] at none_
    cases none_
  · refine .inl ⟨first, untraced t first ?_, request⟩
    rintro ⟨none_, -⟩
    rw [request] at none_
    cases none_

/-- The pin does not fall while SWI pushes its frame. -/
theorem Calm.pin_still (h : Calm s i) (starts : Starts s i 0x83 t) {w : Nat} (later : t < w)
    (upTo : w ≤ t + 6) (before : active (i (w - 1)) .irq = false) :
    active (i w) .irq = false := by
  obtain ⟨enters, none_, -⟩ := h.software starts
  obtain ⟨e2, e3, e4, e5, e6⟩ := enters.pushes
  have pushing : (after s i w).PushingSwi := by
    obtain rfl | rfl | rfl | rfl | rfl | rfl :
        w = t + 1 ∨ w = t + 2 ∨ w = t + 3 ∨ w = t + 4 ∨ w = t + 5 ∨ w = t + 6 := by omega
    · exact .inl ⟨⟨enters.opcode, .inl enters.fsm⟩, none_, enters.trace⟩
    · rw [e2]
      exact .inl ⟨⟨enters.opcode, .inr (.inl rfl)⟩, none_, enters.trace⟩
    · rw [e3]
      exact .inl ⟨⟨enters.opcode, .inr (.inr (.inl rfl))⟩, none_, enters.trace⟩
    · rw [e4]
      exact .inl ⟨⟨enters.opcode, .inr (.inr (.inr (.inl rfl)))⟩, none_, enters.trace⟩
    · rw [e5]
      exact .inl ⟨⟨enters.opcode, .inr (.inr (.inr (.inr rfl)))⟩, none_, enters.trace⟩
    · rw [e6]
      exact .inr ⟨enters.opcode, rfl, chosen_none none_⟩
  have sensed : (after s i w).irqD = (i (w - 1)).irq := by
    obtain ⟨x, rfl⟩ : ∃ x, w = x + 1 := ⟨w - 1, by omega⟩
    rfl
  rw [active, Bool.not_eq_false'] at before ⊢
  exact (h.undisturbed w).pin pushing (sensed.trans before)

end Calm

/-! ## The frame is popped -/

section Pop

variable {s : State} {i : Inputs}

theorem step_pop1 (takes : s.Takes) (rti : i.datain = 0x80) :
    (step s i).toRegisters = { s.toRegisters with regSP := s.regSP + 1 } := by
  change (execute s i).toRegisters = _
  rw [execute, takes.1]
  simp only [cycle1_takes _ takes, decode, rti, show item1 0x80 = .pull from rfl]

theorem step_pop2 (op : s.opcode = 0x80) (fsm : s.mainFSM = .cycle2) :
    (step s i).toRegisters =
      { s.toRegisters.setCcr i.datain with regSP := s.regSP + 1 } := by
  change (execute s i).toRegisters = _
  rw [execute, fsm]
  simp only [cycle2, op, show item2 0x80 = .rti from rfl]

theorem step_pop3 (op : s.opcode = 0x80) (fsm : s.mainFSM = .cycle3) :
    (step s i).toRegisters =
      { s.toRegisters with regA := i.datain, regSP := s.regSP + 1 } := by
  change (execute s i).toRegisters = _
  rw [execute, fsm]
  simp only [cycle3, op, show item3 0x80 = .rti from rfl]

theorem step_pop4 (op : s.opcode = 0x80) (fsm : s.mainFSM = .cycle4) :
    (step s i).toRegisters =
      { s.toRegisters with regX := i.datain, regSP := s.regSP + 1 } := by
  change (execute s i).toRegisters = _
  rw [execute, fsm]
  simp only [cycle4, op, show item4 0x80 = .rti from rfl]

theorem step_pop5 (op : s.opcode = 0x80) (fsm : s.mainFSM = .cycle5) :
    (step s i).toRegisters =
      { s.toRegisters with regPC := setHigh s.regPC i.datain, regSP := s.regSP + 1 } := by
  change (execute s i).toRegisters = _
  rw [execute, fsm]
  simp [cycle5, op]

theorem step_pop6 (op : s.opcode = 0x80) (fsm : s.mainFSM = .cycle6) :
    (step s i).toRegisters = { s.toRegisters with regPC := setLow s.regPC i.datain } := by
  change (execute s i).toRegisters = _
  rw [execute, fsm]
  simp [cycle6, op]

/-- The flags come back from their byte. -/
theorem setCcr_ccr (r r' : Registers) : r'.setCcr r.ccr =
    { r' with
      flagH := r.flagH, flagI := r.flagI, flagN := r.flagN, flagZ := r.flagZ, flagC := r.flagC } := by
  unfold Registers.setCcr Registers.ccr
  cases r.flagH <;> cases r.flagI <;> cases r.flagN <;> cases r.flagZ <;> cases r.flagC <;> rfl

end Pop

section Restore

variable {s : State} {i : Nat → Inputs} {t u : Nat}

/-- The flow and the registers of an RTI, clock by clock. -/
theorem Calm.pops (h : Calm s i) (starts : Starts s i 0x80 u) :
    (∀ n ≤ 5, (after s i (u + n)).wr = true) ∧
    (∀ n, 1 ≤ n → n ≤ 5 →
      addr (after s i (u + n)) = (after s i u).regSP + BitVec.ofNat 16 n) ∧
    Boundary s i (u + 6) ∧
    (after s i (u + 6)).toRegisters =
      { ((after s i u).toRegisters.setCcr (i (u + 1)).datain) with
        regA := (i (u + 2)).datain, regX := (i (u + 3)).datain
        regPC := (i (u + 4)).datain ++ (i (u + 5)).datain
        regSP := (after s i u).regSP + 5 } := by
  obtain ⟨first, single, none_, rti⟩ := starts
  have takes : (after s i u).Takes := ⟨first, single, none_⟩
  have f0 := boundary_flow (h.inFlight u) first
  have byte : opcodeNext (after s i u) (i u).datain = 0x80 := by
    rw [opcodeNext, first, if_pos rfl, fetched, single, none_, rti]
    rfl
  obtain ⟨f1, o1⟩ : (after s i (u + 1)).flow = ⟨.cycle2, .sp, true⟩ ∧
      (after s i (u + 1)).opcode = 0x80 := by
    obtain ⟨flow, opcode⟩ := step_flow (after s i u) (i u)
    rw [byte, f0] at flow
    rw [byte] at opcode
    exact ⟨flow, opcode⟩
  obtain ⟨f2, o2⟩ : (after s i (u + 2)).flow = ⟨.cycle3, .sp, true⟩ ∧
      (after s i (u + 2)).opcode = 0x80 := flow_step f1 o1 (by decide) (by decide)
  obtain ⟨f3, o3⟩ : (after s i (u + 3)).flow = ⟨.cycle4, .sp, true⟩ ∧
      (after s i (u + 3)).opcode = 0x80 := flow_step f2 o2 (by decide) (by decide)
  obtain ⟨f4, o4⟩ : (after s i (u + 4)).flow = ⟨.cycle5, .sp, true⟩ ∧
      (after s i (u + 4)).opcode = 0x80 := flow_step f3 o3 (by decide) (by decide)
  obtain ⟨f5, o5⟩ : (after s i (u + 5)).flow = ⟨.cycle6, .sp, true⟩ ∧
      (after s i (u + 5)).opcode = 0x80 := flow_step f4 o4 (by decide) (by decide)
  obtain ⟨f6, o6⟩ : (after s i (u + 6)).flow = ⟨.cycle1, .pc, true⟩ ∧
      (after s i (u + 6)).opcode = 0x80 := flow_step f5 o5 (by decide) (by decide)
  have r1 : (after s i (u + 1)).toRegisters = _ := step_pop1 takes rti
  have r2 : (after s i (u + 2)).toRegisters = _ := step_pop2 o1 (congrArg Flow.mainFSM f1)
  have r3 : (after s i (u + 3)).toRegisters = _ := step_pop3 o2 (congrArg Flow.mainFSM f2)
  have r4 : (after s i (u + 4)).toRegisters = _ := step_pop4 o3 (congrArg Flow.mainFSM f3)
  have r5 : (after s i (u + 5)).toRegisters = _ := step_pop5 o4 (congrArg Flow.mainFSM f4)
  have r6 : (after s i (u + 6)).toRegisters = _ := step_pop6 o5 (congrArg Flow.mainFSM f5)
  refine ⟨?_, ?_, congrArg Flow.mainFSM f6, ?_⟩
  · intro n upTo
    obtain rfl | rfl | rfl | rfl | rfl | rfl :
        n = 0 ∨ n = 1 ∨ n = 2 ∨ n = 3 ∨ n = 4 ∨ n = 5 := by omega
    · exact congrArg Flow.wr f0
    · exact congrArg Flow.wr f1
    · exact congrArg Flow.wr f2
    · exact congrArg Flow.wr f3
    · exact congrArg Flow.wr f4
    · exact congrArg Flow.wr f5
  · intro n from_ upTo
    have stack : (after s i (u + n)).addrMux = .sp ∧
        (after s i (u + n)).regSP = (after s i u).regSP + BitVec.ofNat 16 n := by
      obtain rfl | rfl | rfl | rfl | rfl : n = 1 ∨ n = 2 ∨ n = 3 ∨ n = 4 ∨ n = 5 := by omega
      · exact ⟨congrArg Flow.addrMux f1, by rw [r1]; rfl⟩
      · exact ⟨congrArg Flow.addrMux f2, by rw [r2, r1]; simp [BitVec.add_assoc]⟩
      · exact ⟨congrArg Flow.addrMux f3, by rw [r3, r2, r1]; simp [BitVec.add_assoc]⟩
      · exact ⟨congrArg Flow.addrMux f4, by rw [r4, r3, r2, r1]; simp [BitVec.add_assoc]⟩
      · exact ⟨congrArg Flow.addrMux f5, by rw [r5, r4, r3, r2, r1]; simp [BitVec.add_assoc]⟩
    rw [addr, stack.1, ← stack.2]
  · rw [r6, r5, r4, r3, r2, r1]
    simp [Registers.setCcr, BitVec.add_assoc]

/-- The frame in memory when the handler begins. -/
theorem Enters.frame (h : Enters s i t) (m : Word → Byte) :
    let r := (after s i (t + 1)).toRegisters
    ram s i m (t + 9) r.regSP = r.regPC.extractLsb' 0 8 ∧
    ram s i m (t + 9) (r.regSP - 1) = high r.regPC ∧
    ram s i m (t + 9) (r.regSP - 2) = r.regX ∧
    ram s i m (t + 9) (r.regSP - 3) = r.regA ∧
    ram s i m (t + 9) (r.regSP - 4) = r.ccr := by
  intro r
  obtain ⟨e2, e3, e4, e5, e6⟩ := h.pushes
  obtain ⟨e7, e8, -⟩ := h.leads
  have w2 : ram s i m (t + 3) =
      Function.update (ram s i m (t + 2)) r.regSP (r.regPC.extractLsb' 0 8) := by
    change (if (after s i (t + 2)).wr then _ else _) = _
    rw [e2]
    simp [addr, dataout, h.mux, r]
  have w3 : ram s i m (t + 4) = Function.update (ram s i m (t + 3)) (r.regSP - 1) (high r.regPC) := by
    change (if (after s i (t + 3)).wr then _ else _) = _
    rw [e3]
    simp [addr, dataout, h.mux, r]
  have w4 : ram s i m (t + 5) = Function.update (ram s i m (t + 4)) (r.regSP - 2) r.regX := by
    change (if (after s i (t + 4)).wr then _ else _) = _
    rw [e4]
    simp [addr, dataout, h.mux, r, BitVec.sub_sub]
  have w5 : ram s i m (t + 6) = Function.update (ram s i m (t + 5)) (r.regSP - 3) r.regA := by
    change (if (after s i (t + 5)).wr then _ else _) = _
    rw [e5]
    simp [addr, dataout, h.mux, r, BitVec.sub_sub]
  have w6 : ram s i m (t + 7) = Function.update (ram s i m (t + 6)) (r.regSP - 4) r.ccr := by
    change (if (after s i (t + 6)).wr then _ else _) = _
    rw [e6]
    simp [addr, dataout, h.mux, r, BitVec.sub_sub]
  have w8 : ram s i m (t + 9) = ram s i m (t + 7) := by
    change (if (after s i (t + 8)).wr then (if (after s i (t + 7)).wr then _ else _) else _) = _
    rw [e8, e7]
    rfl
  have below : ∀ b : Word, b ≠ 0 → r.regSP ≠ r.regSP - b := by
    intro b other same
    exact other (by bv_omega)
  have apart : ∀ a b : Word, a ≠ b → r.regSP - a ≠ r.regSP - b := by
    intro a b other same
    exact other (by bv_omega)
  rw [w8, w6, w5, w4, w3, w2]
  refine ⟨?_, ?_, ?_, ?_, Function.update_self ..⟩
  · rw [Function.update_of_ne (below _ (by decide)), Function.update_of_ne (below _ (by decide)),
      Function.update_of_ne (below _ (by decide)), Function.update_of_ne (below _ (by decide)),
      Function.update_self]
  · rw [Function.update_of_ne (apart _ _ (by decide)), Function.update_of_ne (apart _ _ (by decide)),
      Function.update_of_ne (apart _ _ (by decide)), Function.update_self]
  · rw [Function.update_of_ne (apart _ _ (by decide)), Function.update_of_ne (apart _ _ (by decide)),
      Function.update_self]
  · rw [Function.update_of_ne (apart _ _ (by decide)), Function.update_self]

/-- Nothing is written while RTI pops. -/
theorem Calm.ram_pops (h : Calm s i) (starts : Starts s i 0x80 u) (m : Word → Byte) :
    ∀ n ≤ 5, ram s i m (u + n) = ram s i m u := by
  intro n upTo
  induction n with
  | zero => rfl
  | succ n ih =>
    have reads : (after s i (u + n)).wr = true := (h.pops starts).1 n (by omega)
    calc ram s i m (u + n + 1)
        = ram s i m (u + n) := if_pos reads
      _ = ram s i m u := ih (by omega)

/-- What RTI reads of a frame that stands. -/
theorem Calm.popped (h : Calm s i) (starts : Starts s i 0x80 u) {m : Word → Byte}
    (stands : FrameStands s i m t u) {n k : Nat} (from_ : 1 ≤ n) (sum : n + k = 5) :
    (i (u + n)).datain =
      ram s i m (t + 9) ((after s i t).regSP - BitVec.ofNat 16 k) := by
  obtain ⟨below, kept, read⟩ := stands
  obtain ⟨-, reads, -⟩ := h.pops starts
  have place : addr (after s i (u + n)) = (after s i t).regSP - BitVec.ofNat 16 k := by
    rw [reads n from_ (by omega), below]
    obtain ⟨rfl, rfl⟩ | ⟨rfl, rfl⟩ | ⟨rfl, rfl⟩ | ⟨rfl, rfl⟩ | ⟨rfl, rfl⟩ :
        n = 1 ∧ k = 4 ∨ n = 2 ∧ k = 3 ∨ n = 3 ∧ k = 2 ∨ n = 4 ∧ k = 1 ∨ n = 5 ∧ k = 0 := by omega
    all_goals bv_omega
  have inside : InFrame (after s i t).regSP (addr (after s i (u + n))) := ⟨k, by omega, place⟩
  rw [read (u + n) (by omega) inside, h.ram_pops starts m n (by omega), kept _ inside, place]

/-- The frame of a sequence, popped. -/
theorem Calm.restores (h : Calm s i) (enters : Enters s i t) {pc : Word}
    (pushed : (after s i (t + 1)).toRegisters = { (after s i t).toRegisters with regPC := pc })
    (starts : Starts s i 0x80 u) {m : Word → Byte} (stands : FrameStands s i m t u) :
    (after s i (u + 6)).toRegisters = { (after s i t).toRegisters with regPC := pc } := by
  obtain ⟨low_, high_, x, a, ccr⟩ :
      ram s i m (t + 9) (after s i t).regSP = pc.extractLsb' 0 8 ∧
      ram s i m (t + 9) ((after s i t).regSP - 1#16) = high pc ∧
      ram s i m (t + 9) ((after s i t).regSP - 2#16) = (after s i t).regX ∧
      ram s i m (t + 9) ((after s i t).regSP - 3#16) = (after s i t).regA ∧
      ram s i m (t + 9) ((after s i t).regSP - 4#16) = (after s i t).ccr := by
    have frame := enters.frame m
    rw [pushed] at frame
    exact frame
  obtain ⟨below, -, -⟩ := id stands
  obtain ⟨-, -, -, popped⟩ := h.pops starts
  rw [popped, h.popped starts stands (show 1 ≤ 1 by omega) (show 1 + 4 = 5 by omega),
    h.popped starts stands (show 1 ≤ 2 by omega) (show 2 + 3 = 5 by omega),
    h.popped starts stands (show 1 ≤ 3 by omega) (show 3 + 2 = 5 by omega),
    h.popped starts stands (show 1 ≤ 4 by omega) (show 4 + 1 = 5 by omega),
    h.popped starts stands (show 1 ≤ 5 by omega) (show 5 + 0 = 5 by omega), below]
  have top : (after s i t).regSP - BitVec.ofNat 16 0 = (after s i t).regSP := BitVec.sub_zero _
  have back : (after s i t).regSP - 5 + 5 = (after s i t).regSP := BitVec.sub_add_cancel _ _
  rw [top, back, ccr, a, x, high_, low_, high_low, setCcr_ccr]

end Restore

/-- The law holds as long as no request comes up where it goes wrong. -/
theorem interrupt_law (s : State) (i : Nat → Inputs) (h : Calm s i) : Laws s i where
  masked := fun t starts => (h.honest t).masked starts.2.2
  swi := by
    intro t starts
    obtain ⟨enters, none_, -⟩ := h.software starts
    obtain ⟨vectors, handler⟩ := enters.handler
    rw [chosen_none none_] at vectors
    exact ⟨vectors, handler⟩
  pending := by
    intro t starts k w later upTo before rises u u' after_ next clear _ stays
    by_cases pin : k = .irq
    · subst pin
      rw [h.pin_still starts later upTo before] at rises
      cases rises
    · have at_ : active (i u) k = true := stays u (by omega) next.1.le
      exact h.level next clear pin at_
  level := fun _ _ next clear _ _ internal line _ => h.level next clear internal line
  source := by
    intro t starts
    obtain ⟨enters, chosen, -⟩ := h.interrupt starts
    have vectors := enters.handler.1
    rw [chosen] at vectors
    exact ⟨_, h.requested t starts.2.2, vectors⟩
  restores := by
    intro t starts m u after_ rti stands
    refine ⟨(h.pops rti).2.2.1, ?_⟩
    rcases starts with starts | starts
    · obtain ⟨enters, -, pushed⟩ := h.interrupt starts
      rw [returnPC, if_pos starts.2.2]
      exact h.restores enters pushed rti stands
    · obtain ⟨enters, -, pushed⟩ := h.software starts
      rw [returnPC, if_neg (by rw [starts.2.2.1]; simp)]
      exact h.restores enters pushed rti stands

/-! ## Runs -/

/-- The bytes that are read in a run, NOPs after them, and a timer line that is low
from a clock on. -/
def fed (bytes : List Byte) (from_ : Nat) (t : Nat) : Inputs where
  irq := true
  timerIrq := decide (t < from_)
  onesecIrq := true
  datain := bytes.getD t 0x9D

instance (s : State) : Decidable s.Takes := inferInstanceAs (Decidable (_ ∧ _ ∧ _))

instance (s : State) : Decidable s.Pushing := inferInstanceAs (Decidable (_ ∧ _))

instance (s : State) : Decidable s.PushingSwi := inferInstanceAs (Decidable (_ ∧ _ ∨ _ ∧ _))

instance (s : State) (i : Inputs) : Decidable (Quiet s i) := inferInstanceAs (Decidable (_ ∧ _))

instance (s : State) (i : Nat → Inputs) (t : Nat) : Decidable (StartsInterrupt s i t) :=
  inferInstanceAs (Decidable (_ = _ ∧ _ ∧ _))

instance (s : State) (i : Nat → Inputs) (d : Byte) (t : Nat) : Decidable (Starts s i d t) :=
  inferInstanceAs (Decidable (_ = _ ∧ _ ∧ _ ∧ _))

/-- CLI, SEI and a timer line that falls in SEI: the interrupt starts with `I` set. CLI,
SWI and a timer line that falls while SWI pushes its frame: SWI goes through the
vector of the timer. -/
theorem interrupt_law_fails :
    ¬ Laws (reset 0x00 0x00) (fed [0x10, 0x00, 0x9A, 0x9B] 3) ∧
    ¬ Laws (reset 0x00 0x00) (fed [0x10, 0x00, 0x9A, 0x83] 4) := by
  constructor
  · intro laws
    exact absurd (laws.masked 4 (by decide)) (by decide)
  · intro laws
    exact absurd (laws.swi 3 (by decide)).1.1 (by decide)

/-! ## A run with its memory -/

/-- The processor on a memory of its own. -/
structure Board where
  cpu : State
  mem : Word → Byte

namespace Board

variable (low : Bool) (b : Board)

/-- The inputs of a clock, with the timer line low or not. -/
def inputs : Inputs where
  irq := true
  timerIrq := !low
  onesecIrq := true
  datain := b.mem (addr b.cpu)

def next : Board where
  cpu := step b.cpu (b.inputs low)
  mem := if b.cpu.wr then b.mem else Function.update b.mem (addr b.cpu) (dataout b.cpu)

end Board

/-- The board after `t` clocks, out of reset with a program in memory. -/
def board (m : Word → Byte) (low : Nat → Bool) : Nat → Board
  | 0 => ⟨reset 0x00 0x00, m⟩
  | t + 1 => (board m low t).next (low t)

/-- What the processor reads in that run. -/
def wired (m : Word → Byte) (low : Nat → Bool) (t : Nat) : Inputs :=
  (board m low t).inputs (low t)

section Wired

variable (m : Word → Byte) (low : Nat → Bool) (t : Nat)

theorem board_cpu : (board m low t).cpu = after (reset 0x00 0x00) (wired m low) t := by
  induction t with
  | zero => rfl
  | succ t ih =>
    change step (board m low t).cpu (wired m low t) = step (after _ _ t) (wired m low t)
    rw [ih]

theorem board_mem : (board m low t).mem = ram (reset 0x00 0x00) (wired m low) m t := by
  induction t with
  | zero => rfl
  | succ t ih =>
    change (if (board m low t).cpu.wr then (board m low t).mem else _) = if _ then _ else _
    rw [ih, board_cpu]

/-- What is read is what stands in memory. -/
theorem wired_datain : (wired m low t).datain =
    ram (reset 0x00 0x00) (wired m low) m t (addr (after (reset 0x00 0x00) (wired m low) t)) := by
  rw [← board_mem, ← board_cpu]
  rfl

/-- The frame of a sequence whose bytes are still there. -/
theorem wired_frame {u : Nat} (below : (board m low u).cpu.regSP = (board m low t).cpu.regSP - 5)
    (kept : ∀ k < 5, (board m low u).mem ((board m low t).cpu.regSP - BitVec.ofNat 16 k) =
      (board m low (t + 9)).mem ((board m low t).cpu.regSP - BitVec.ofNat 16 k)) :
    FrameStands (reset 0x00 0x00) (wired m low) m t u := by
  rw [board_cpu, board_cpu] at below
  refine ⟨below, ?_, fun w _ _ => wired_datain m low w⟩
  rintro a ⟨k, few, rfl⟩
  have same := kept k few
  rwa [board_cpu, board_mem, board_mem] at same

end Wired

/-- CLI, LDA #$5A, SWI, SEI and a branch to itself at $1000; CLI, NOP and RTI at $2000 for SWI;
CLRA and RTI at $3000 for the timer. -/
def program (a : Word) : Byte :=
  match a.toNat with
  | 0x1000 => 0x9A
  | 0x1001 => 0xA6
  | 0x1002 => 0x5A
  | 0x1003 => 0x83
  | 0x1004 => 0x9B
  | 0x1005 => 0x20
  | 0x1006 => 0xFE
  | 0x2000 => 0x9A
  | 0x2001 => 0x9D
  | 0x2002 => 0x80
  | 0x3000 => 0x4F
  | 0x3001 => 0x80
  | 0xFFF8 => 0x30
  | 0xFFFC => 0x20
  | 0xFFFE => 0x10
  | _ => 0x00

/-- The timer line is low from LDA on, and from the vector of SWI on, each time up to the
handler of the timer. -/
def alarm (t : Nat) : Bool := decide (4 ≤ t ∧ t < 15) || decide (27 ≤ t ∧ t < 42)

def timerRun : Nat → Inputs := wired program alarm

/-- The branch to itself, with `I` set. -/
def Loops (b : Board) : Prop :=
  b.cpu.flagI = true ∧ b.cpu.irqRequest = false ∧ b.cpu.trace = false ∧ b.cpu.traceI = false ∧
    b.cpu.wr = true ∧ b.cpu.addrMux = .pc ∧ (b.mem 0x1005 = 0x20 ∧ b.mem 0x1006 = 0xFE) ∧
    (b.cpu.mainFSM = .cycle1 ∧ b.cpu.regPC = 0x1005 ∨
      b.cpu.mainFSM = .cycle2 ∧ b.cpu.opcode = 0x20 ∧ b.cpu.regPC = 0x1006)

instance (b : Board) : Decidable (Loops b) := by unfold Loops; infer_instance

theorem Loops.next {b : Board} (h : Loops b) (low : Bool) : Loops (b.next low) := by
  obtain ⟨masked, request, trace, traceI, wr, mux, ⟨code, offset⟩, place⟩ := h
  have quiet : latches b.cpu (b.inputs low) = none := latches_masked masked
  have keeps : (b.next low).mem = b.mem := if_pos wr
  have stepped : (b.next low).cpu = _ := step_quiet quiet
  rcases place with ⟨fsm, pc⟩ | ⟨fsm, opcode, pc⟩
  · have read : (b.inputs low).datain = 0x20 := by
      change b.mem (addr b.cpu) = _
      rw [addr, mux]
      dsimp only
      rw [pc, code]
    have taken : execute b.cpu (b.inputs low) =
        { b.cpu with
          trace := b.cpu.traceI, opcode := 0x20, regPC := b.cpu.regPC + 1, mainFSM := .cycle2 } :=
      calc execute b.cpu (b.inputs low)
          = cycle1 b.cpu (b.inputs low).datain := by rw [execute, fsm]
        _ = decode { b.cpu with trace := b.cpu.traceI } 0x20 := by
            rw [cycle1_takes _ ⟨fsm, trace, request⟩, read]
        _ = _ := by simp only [decode, show item1 0x20 = .twoBytes from rfl]
    rw [taken] at stepped
    refine ⟨?_, ?_, ?_, ?_, ?_, ?_, by rw [keeps]; exact ⟨code, offset⟩, .inr ?_⟩
    all_goals rw [stepped]
    · exact masked
    · exact request
    · exact traceI
    · exact traceI
    · exact wr
    · exact mux
    · refine ⟨rfl, rfl, ?_⟩
      change b.cpu.regPC + 1 = 0x1006
      rw [pc]
      rfl
  · have read : (b.inputs low).datain = 0xFE := by
      change b.mem (addr b.cpu) = _
      rw [addr, mux]
      dsimp only
      rw [pc, offset]
    have taken : execute b.cpu (b.inputs low) =
        { b.cpu with regPC := target b.cpu.regPC 0xFE, mainFSM := .cycle1 } := by
      have always : Egret.taken b.cpu (b.inputs low).irq = true := by
        rw [Egret.taken, opcode]
        rfl
      rw [execute, fsm]
      simp only [cycle2, opcode, show item2 0x20 = .branch from rfl, always, read, if_true]
    rw [taken] at stepped
    refine ⟨?_, ?_, ?_, ?_, ?_, ?_, by rw [keeps]; exact ⟨code, offset⟩, .inl ?_⟩
    all_goals rw [stepped]
    · exact masked
    · exact request
    · exact trace
    · exact traceI
    · exact wr
    · exact mux
    · refine ⟨rfl, ?_⟩
      change target b.cpu.regPC 0xFE = 0x1005
      rw [pc]
      rfl

/-- The five bytes of a frame at the top of the stack, the return address in page $10. -/
def Framed (low : Byte) (b : Board) : Prop :=
  b.mem 0xFF = low ∧ b.mem 0xFE = 0x10 ∧ b.mem 0xFD = 0x02 ∧ b.mem 0xFC = 0x5A ∧ b.mem 0xFB = 0xE0

instance (low : Byte) (b : Board) : Decidable (Framed low b) := by unfold Framed; infer_instance

theorem Framed.same {b b' : Board} {low : Byte} (h : Framed low b) (h' : Framed low b') :
    ∀ k < 5, b.mem (0xFF - BitVec.ofNat 16 k) = b'.mem (0xFF - BitVec.ofNat 16 k) := by
  obtain ⟨first, second, third, fourth, last⟩ := h
  obtain ⟨first', second', third', fourth', last'⟩ := h'
  intro k few
  obtain rfl | rfl | rfl | rfl | rfl : k = 0 ∨ k = 1 ∨ k = 2 ∨ k = 3 ∨ k = 4 := by omega
  · exact first.trans first'.symm
  · exact second.trans second'.symm
  · exact third.trans third'.symm
  · exact fourth.trans fourth'.symm
  · exact last.trans last'.symm

/-- The clocks of the run up to the loop: two interrupts (5, 32), SWI (21), and the RTI of the
first of them (15) and of SWI (48) with their frames. -/
def TimerAt (t : Nat) (b : Board) : Prop :=
  Undisturbed b.cpu (b.inputs (alarm t)) ∧
  (t = 5 ∨ t = 32 → b.cpu.mainFSM = .cycle1 ∧ b.cpu.trace = false ∧ b.cpu.irqRequest = true) ∧
  (t = 15 ∨ t = 21 ∨ t = 48 → b.cpu.mainFSM = .cycle1 ∧ b.cpu.trace = false ∧
    b.cpu.irqRequest = false ∧ (b.inputs (alarm t)).datain = if t = 21 then 0x83 else 0x80) ∧
  (t = 5 ∨ t = 21 → b.cpu.regSP = 0xFF) ∧ (t = 15 ∨ t = 48 → b.cpu.regSP = 0xFA) ∧
  (t = 14 ∨ t = 15 ∨ t = 30 ∨ t = 48 → Framed (if t < 30 then 0x03 else 0x04) b) ∧
  (t = 55 → Loops b)

instance (s : State) (i : Inputs) : Decidable (Undisturbed s i) :=
  decidable_of_iff ((s.Takes → i.datain = 0x9B → latches s i = none) ∧
      (s.Takes → i.datain = 0x83 → latches s i = none) ∧ (s.Pushing → latches s i = none) ∧
      (s.PushingSwi → s.irqD = true → i.irq = true) ∧
      (s.mainFSM = .cycle2 → s.opcode = 0x80 ∨ s.opcode = 0x82 → i.datain.getLsbD 3 = true →
        Quiet s i) ∧
      (s.mainFSM = .cycle1 → s.trace = true ∨ s.traceI = true →
        Quiet s i ∧ (s.trace = true ∨ i.datain ≠ 0x83))) <| by
    constructor
    · rintro ⟨sei, swi, push, pin, rti, rtt⟩
      exact ⟨sei, swi, push, pin, rti, rtt⟩
    · rintro ⟨sei, swi, push, pin, rti, rtt⟩
      exact ⟨sei, swi, push, pin, rti, rtt⟩

instance (t : Nat) (b : Board) : Decidable (TimerAt t b) := by unfold TimerAt; infer_instance

/-- The same board, with its registers evaluated. -/
def Board.evaluated (b : Board) : Board :=
  { b with
    cpu :=
      { b.cpu with
        regA := BitVec.ofNat 8 b.cpu.regA.toNat, regSP := BitVec.ofNat 16 b.cpu.regSP.toNat
        regPC := BitVec.ofNat 16 b.cpu.regPC.toNat, temp := BitVec.ofNat 16 b.cpu.temp.toNat
        flagI := b.cpu.flagI && true } }

theorem Board.evaluated_eq (b : Board) : b.evaluated = b := by simp [evaluated]

theorem timerRun_facts : ∀ t < 56, TimerAt t (board program alarm t) := by
  have pass : Clocked.passes (fun t (b : Board) => (b.next (alarm t)).evaluated)
      (fun t b => decide (TimerAt t b)) 56 0 (board program alarm 0) = true := by decide +kernel
  intro t inside
  have here := Clocked.of_passes (board program alarm) (fun _ => (Board.evaluated_eq _).symm) pass t inside
  rw [Nat.zero_add] at here
  exact of_decide_eq_true here

theorem board_loops (t : Nat) : Loops (board program alarm (t + 55)) := by
  induction t with
  | zero => exact (timerRun_facts 55 (by decide)).2.2.2.2.2.2 rfl
  | succ t ih =>
    rw [show t + 1 + 55 = t + 55 + 1 by omega]
    exact ih.next _

theorem timerRun_calm : Calm (reset 0x00 0x00) timerRun where
  reset := ⟨_, _, rfl⟩
  undisturbed := by
    intro t
    change Undisturbed (after _ (wired program alarm) t) (timerRun t)
    rw [← board_cpu]
    by_cases early : t < 56
    · exact (timerRun_facts t early).1
    · obtain ⟨k, rfl⟩ : ∃ k, t = k + 55 := ⟨t - 55, by omega⟩
      obtain ⟨masked, -, single, untraced, -, -, -, place⟩ := board_loops k
      have unlatched := latches_masked (i := timerRun (k + 55)) masked
      refine ⟨fun _ _ => unlatched, fun _ _ => unlatched, fun _ => unlatched, fun _ _ => rfl, ?_, ?_⟩
      · intro second pops
        rcases place with ⟨first, -⟩ | ⟨-, branch, -⟩
        · rw [first] at second
          cases second
        · rw [branch] at pops
          exact absurd pops (by decide)
      · rintro - (traced | armed)
        · rw [single] at traced
          cases traced
        · rw [untraced] at armed
          cases armed

/-- The frame of the sequence at `t` stands for the RTI at `u`. -/
theorem timerRun_frame {t u : Nat} (pair : t = 5 ∧ u = 15 ∨ t = 21 ∧ u = 48) :
    FrameStands (reset 0x00 0x00) timerRun program t u := by
  obtain ⟨-, -, -, top, -⟩ := timerRun_facts t (by omega)
  obtain ⟨-, -, -, -, below, rest, -⟩ := timerRun_facts u (by omega)
  obtain ⟨-, -, -, -, -, pushed, -⟩ := timerRun_facts (t + 9) (by omega)
  refine wired_frame _ _ _ ?_ ?_
  · rw [top (by omega), below (by omega)]
    rfl
  · rw [top (by omega)]
    rcases pair with ⟨rfl, rfl⟩ | ⟨rfl, rfl⟩
    · exact (rest (by decide)).same (pushed (by decide))
    · exact (rest (by decide)).same (pushed (by decide))

/-- The timer interrupts the program and then the handler of SWI, and each RTI restores what
its sequence has pushed. -/
theorem interrupt_law_timer :
    Calm (reset 0x00 0x00) timerRun ∧
    (StartsInterrupt (reset 0x00 0x00) timerRun 5 ∧ Starts (reset 0x00 0x00) timerRun 0x80 15 ∧
      FrameStands (reset 0x00 0x00) timerRun program 5 15) ∧
    (Starts (reset 0x00 0x00) timerRun 0x83 21 ∧ StartsInterrupt (reset 0x00 0x00) timerRun 32 ∧
      Starts (reset 0x00 0x00) timerRun 0x80 48 ∧
      FrameStands (reset 0x00 0x00) timerRun program 21 48) ∧
    Laws (reset 0x00 0x00) timerRun := by
  have interrupt (t : Nat) (at_ : t = 5 ∨ t = 32) : StartsInterrupt (reset 0x00 0x00) timerRun t := by
    have start := (timerRun_facts t (by omega)).2.1 at_
    rwa [board_cpu] at start
  have starts (t : Nat) (at_ : t = 15 ∨ t = 21 ∨ t = 48) :
      Starts (reset 0x00 0x00) timerRun (if t = 21 then 0x83 else 0x80) t := by
    obtain ⟨fsm, trace, request, code⟩ := (timerRun_facts t (by omega)).2.2.1 at_
    rw [board_cpu] at fsm trace request
    exact ⟨fsm, trace, request, code⟩
  exact ⟨timerRun_calm, ⟨interrupt 5 (by decide), starts 15 (by decide), timerRun_frame (by decide)⟩,
    ⟨starts 21 (by decide), interrupt 32 (by decide), starts 48 (by decide),
      timerRun_frame (by decide)⟩, interrupt_law _ _ timerRun_calm⟩

end MacIIvi.Egret
