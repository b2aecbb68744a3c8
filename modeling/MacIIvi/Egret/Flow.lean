import MacIIvi.Egret.Core

/-!
# The states an instruction passes through

Which state follows, where the address comes from and whether the bus writes
depend on the opcode alone. Every opcode leads back to state 2, with the program
counter on the address bus and no write; no `default` that falls into the reset
states is ever met.
-/

namespace MacIIvi.Egret

/-- What moves with the opcode alone. -/
structure Flow where
  mainFSM : MainFsm
  addrMux : AddrMux
  wr : Bool
  deriving DecidableEq, Repr

def State.flow (s : State) : Flow := ⟨s.mainFSM, s.addrMux, s.wr⟩

/-- State 2 of the next instruction. -/
def Flow.boundary : Flow := ⟨.cycle1, .pc, true⟩

/-- What state 2 leads to. -/
def flow1 (d : Byte) (f : Flow) : Flow :=
  match item1 d with
  | .rtt | .pull | .swi => { f with addrMux := .sp, mainFSM := .cycle2 }
  | .direct | .twoBytes | .indexed8Rmw | .call2 | .call3 => { f with mainFSM := .cycle2 }
  | .indexedRmw => { f with addrMux := .hx, mainFSM := .cycle3 }
  | .immediate => { f with mainFSM := .cycle4 }
  | .indexed8 => { f with mainFSM := .cycle3 }
  | .indexed => { f with addrMux := .hx, mainFSM := .cycle4 }
  | .staX | .stxX => { f with wr := false, addrMux := .hx, mainFSM := .cycle4 }
  | .clrX => { f with wr := false, addrMux := .hx, mainFSM := .cycle2 }
  | .jsrX => { f with wr := false, addrMux := .sp, mainFSM := .cycle3 }
  | _ => { f with mainFSM := .cycle1 }

def flow2 (d : Byte) (f : Flow) : Flow :=
  match item2 d with
  | .operand | .indexed8Rmw => { f with addrMux := .tm, mainFSM := .cycle3 }
  | .extended | .rti | .rts | .call3 => { f with mainFSM := .cycle3 }
  | .staDirect | .stxDirect => { f with wr := false, addrMux := .tm, mainFSM := .cycle4 }
  | .operand8 => { f with addrMux := .tm, mainFSM := .cycle4 }
  | .branch | .jmpDirect => { f with mainFSM := .cycle1 }
  | .clr => { f with wr := false, addrMux := .tm, mainFSM := .cycle3 }
  | .clrX => { f with wr := true, addrMux := .pc, mainFSM := .cycle1 }
  | .swi => { f with wr := false, mainFSM := .cycle3 }
  | .call2 => { f with wr := false, addrMux := .sp, mainFSM := .cycle3 }
  | .none => { f with mainFSM := .resetHigh }

def flow3 (d : Byte) (f : Flow) : Flow :=
  match item3 d with
  | .bitTest => { f with addrMux := .pc, mainFSM := .cycle4 }
  | .bitModify | .modify _ => { f with wr := false, mainFSM := .cycle4 }
  | .operand => { f with addrMux := operandMux d, mainFSM := .cycle4 }
  | .jmpExtended | .jmpIndexed16 | .jmpIndexed8 => { f with mainFSM := .cycle1 }
  | .sta | .stx => { f with wr := false, addrMux := operandMux d, mainFSM := .cycle4 }
  | .tst | .rts => { f with addrMux := .pc, mainFSM := .cycle1 }
  | .clr => { f with wr := true, addrMux := .pc, mainFSM := .cycle1 }
  | .rti | .swi | .call2 | .jsrX => { f with mainFSM := .cycle4 }
  | .call3 => { f with wr := false, addrMux := .sp, mainFSM := .cycle4 }
  | .none => { f with mainFSM := .resetHigh }

def flow4 (d : Byte) (f : Flow) : Flow :=
  match item4 d with
  | .bitBranch | .operate _ => { f with addrMux := .pc, mainFSM := .cycle1 }
  | .done | .bsr | .jsrDirect | .jsrIndexed8 | .jsrX => .boundary
  | .rti | .swi | .call3 => { f with mainFSM := .cycle5 }
  | .none => { f with mainFSM := .resetHigh }

def flow5 (d : Byte) (f : Flow) : Flow :=
  if d = 0x80 ∨ d = 0x82 then { f with mainFSM := .cycle6 }
  else if d = 0x83 then { f with mainFSM := .cycle6 }
  else if d = 0xCD then .boundary
  else if d = 0xDD then .boundary
  else { f with mainFSM := .resetHigh }

/-- State 7 has two ways out. -/
def flow6 (d : Byte) (trace : Bool) (f : Flow) : Flow :=
  if d = 0x80 ∨ d = 0x82 then { f with addrMux := .pc, mainFSM := .cycle1 }
  else if d = 0x83 then { f with mainFSM := if trace then .cycle6a else .cycle7 }
  else { f with mainFSM := .resetHigh }

/-- The states 8 to A lead on for one opcode only. -/
def flowEntry (d : Byte) (f next : Flow) : Flow :=
  if d = 0x83 then next else { f with mainFSM := .resetHigh }

/-- One clock of the flow, with the opcode in the machine after it. -/
def Flow.next (d : Byte) (trace : Bool) (f : Flow) : Flow :=
  match f.mainFSM with
  | .resetHigh => { f with mainFSM := .resetLow }
  | .resetLow => { f with addrMux := .pc, mainFSM := .cycle1 }
  | .cycle1 => flow1 d f
  | .cycle2 => flow2 d f
  | .cycle3 => flow3 d f
  | .cycle4 => flow4 d f
  | .cycle5 => flow5 d f
  | .cycle6 => flow6 d trace f
  | .cycle7 => flowEntry d f ⟨.cycle8, .tm, true⟩
  | .cycle8 => flowEntry d f { f with mainFSM := .cycle9 }
  | .cycle9 => flowEntry d f { f with addrMux := .pc, mainFSM := .cycle1 }
  | .cycle6a => { f with mainFSM := .cycle7 }

/-- The opcode that state 2 takes: an interrupt and a trace take the place of the
byte on the bus. -/
def fetched (s : State) (d : Byte) : Byte := if s.trace || s.irqRequest then 0x83 else d

section Cycles

variable (s : State) (d : Byte)

theorem decode_flow : (decode s d).flow = flow1 d s.flow ∧ (decode s d).opcode = d := by
  unfold decode flow1
  cases item1 d <;> exact ⟨rfl, rfl⟩

theorem cycle2_flow (irq : Bool) :
    (cycle2 s irq d).flow = flow2 s.opcode s.flow ∧ (cycle2 s irq d).opcode = s.opcode := by
  unfold cycle2 flow2
  cases item2 s.opcode <;> exact ⟨rfl, rfl⟩

theorem cycle3_flow :
    (cycle3 s d).flow = flow3 s.opcode s.flow ∧ (cycle3 s d).opcode = s.opcode := by
  unfold cycle3 flow3
  cases item3 s.opcode <;> exact ⟨rfl, rfl⟩

theorem cycle4_flow :
    (cycle4 s d).flow = flow4 s.opcode s.flow ∧ (cycle4 s d).opcode = s.opcode := by
  unfold cycle4 flow4
  cases item4 s.opcode <;> exact ⟨rfl, rfl⟩

theorem cycle5_flow :
    (cycle5 s d).flow = flow5 s.opcode s.flow ∧ (cycle5 s d).opcode = s.opcode := by
  unfold cycle5 flow5
  split_ifs <;> exact ⟨rfl, rfl⟩

theorem cycle6_flow :
    (cycle6 s d).flow = flow6 s.opcode s.trace s.flow ∧ (cycle6 s d).opcode = s.opcode := by
  unfold cycle6 flow6
  cases trace : s.trace <;> cases request : s.irqRequest <;>
    simp only [Bool.not_true, Bool.not_false, if_true, Bool.false_eq_true, if_false] <;>
    split_ifs <;> exact ⟨rfl, rfl⟩

theorem cycle7_flow : (cycle7 s).flow = flowEntry s.opcode s.flow ⟨.cycle8, .tm, true⟩ ∧
    (cycle7 s).opcode = s.opcode := by
  unfold cycle7 flowEntry
  split_ifs <;> exact ⟨rfl, rfl⟩

theorem cycle8_flow : (cycle8 s d).flow = flowEntry s.opcode s.flow { s.flow with mainFSM := .cycle9 } ∧
    (cycle8 s d).opcode = s.opcode := by
  unfold cycle8 flowEntry
  split_ifs <;> exact ⟨rfl, rfl⟩

theorem cycle9_flow : (cycle9 s d).flow =
      flowEntry s.opcode s.flow { s.flow with addrMux := .pc, mainFSM := .cycle1 } ∧
    (cycle9 s d).opcode = s.opcode := by
  unfold cycle9 flowEntry
  split_ifs <;> exact ⟨rfl, rfl⟩

theorem cycle1_flow :
    (cycle1 s d).flow = flow1 (fetched s d) s.flow ∧ (cycle1 s d).opcode = fetched s d := by
  cases trace : s.trace
  · cases request : s.irqRequest
    · have taken : cycle1 s d = decode { s with trace := s.traceI } d := by simp [cycle1, trace, request]
      have byte : fetched s d = d := by simp [fetched, trace, request]
      rw [taken, byte]
      exact decode_flow _ d
    · simp only [cycle1, fetched, trace, request, Bool.false_or, if_true, Bool.false_eq_true, if_false]
      exact ⟨rfl, trivial⟩
  · simp only [cycle1, fetched, trace, Bool.true_or, if_true]
    exact ⟨rfl, trivial⟩

end Cycles

/-- The opcode in the machine after a clock. -/
def opcodeNext (s : State) (d : Byte) : Byte := if s.mainFSM = .cycle1 then fetched s d else s.opcode

theorem execute_flow (s : State) (i : Inputs) :
    (execute s i).flow = s.flow.next (opcodeNext s i.datain) s.trace ∧
    (execute s i).opcode = opcodeNext s i.datain := by
  unfold execute opcodeNext Flow.next
  cases fsm : s.mainFSM
  all_goals simp only [State.flow, fsm, reduceCtorEq, if_true, if_false]
  case resetHigh => exact ⟨trivial, trivial⟩
  case resetLow => exact ⟨trivial, trivial⟩
  case cycle1 => exact fsm ▸ cycle1_flow s i.datain
  case cycle2 => exact fsm ▸ cycle2_flow s i.datain i.irq
  case cycle3 => exact fsm ▸ cycle3_flow s i.datain
  case cycle4 => exact fsm ▸ cycle4_flow s i.datain
  case cycle5 => exact fsm ▸ cycle5_flow s i.datain
  case cycle6 => exact fsm ▸ cycle6_flow s i.datain
  case cycle7 => exact fsm ▸ cycle7_flow s
  case cycle8 => exact ⟨fsm ▸ (cycle8_flow s i.datain).1, (cycle8_flow s i.datain).2⟩
  case cycle9 => exact fsm ▸ cycle9_flow s i.datain
  case cycle6a => exact ⟨rfl, rfl⟩

/-! ## Every instruction ends -/

/-- The flows of an opcode, clock by clock until state 2; a trace makes a detour. -/
def flights (d : Byte) : List Flow :=
  let clocks := ((List.range 9).map fun n => (Flow.next d false)^[n] (flow1 d .boundary))
  clocks.takeWhile (fun f => f.mainFSM ≠ .cycle1) ++ if d = 0x83 then [⟨.cycle6a, .sp, false⟩] else []

/-- Where the machine can stand. -/
def Flow.InFlight (d : Byte) (f : Flow) : Prop :=
  f = ⟨.resetHigh, .tm, true⟩ ∨ f = ⟨.resetLow, .tm, true⟩ ∨ f = .boundary ∨ f ∈ flights d

theorem flights_open : ∀ d : Byte, flow1 d .boundary = .boundary ∨ flow1 d .boundary ∈ flights d := by
  decide +kernel

theorem flights_next : ∀ d : Byte, ∀ trace, ∀ f ∈ flights d,
    f.mainFSM ≠ .cycle1 ∧ f.mainFSM ≠ .resetHigh ∧ f.mainFSM ≠ .resetLow ∧
    (Flow.next d trace f = .boundary ∨ Flow.next d trace f ∈ flights d) := by
  decide +kernel

theorem step_flow (s : State) (i : Inputs) :
    (step s i).flow = s.flow.next (opcodeNext s i.datain) s.trace ∧
    (step s i).opcode = opcodeNext s i.datain := execute_flow s i

/-- Away from state 2 the opcode stays, and the flow moves with it. -/
theorem flow_step {s : State} {i : Inputs} {d : Byte} {f f' : Flow} (flow : s.flow = f)
    (opcode : s.opcode = d) (inside : f.mainFSM ≠ .cycle1) (next : ∀ trace, f.next d trace = f') :
    (step s i).flow = f' ∧ (step s i).opcode = d := by
  obtain ⟨moved, kept⟩ := step_flow s i
  have state : s.mainFSM ≠ .cycle1 := by
    rw [← flow] at inside
    exact inside
  rw [opcodeNext, if_neg state, opcode] at moved kept
  exact ⟨by rw [moved, flow, next], kept⟩

/-- A clock leads to a flow of the opcode, or to state 2. -/
theorem inFlight_step {s : State} (i : Inputs) (h : s.flow.InFlight s.opcode) :
    (step s i).flow.InFlight (step s i).opcode := by
  obtain ⟨flow, opcode⟩ := step_flow s i
  rw [flow, opcode]
  rcases h with high | low | here | inside
  · rw [high]
    exact .inr (.inl rfl)
  · rw [low]
    exact .inr (.inr (.inl rfl))
  · rw [here]
    exact .inr (.inr (flights_open _))
  · obtain ⟨notFirst, -, -, next⟩ := flights_next s.opcode s.trace s.flow inside
    have same : opcodeNext s i.datain = s.opcode := if_neg notFirst
    rw [same]
    exact .inr (.inr next)

theorem inFlight_after {s : State} (i : Nat → Inputs) (h : s.flow.InFlight s.opcode) (t : Nat) :
    (after s i t).flow.InFlight (after s i t).opcode := by
  induction t with
  | zero => exact h
  | succ t ih => exact inFlight_step (i t) ih

/-- At state 2 the program counter is on the address bus, and the bus reads. -/
theorem boundary_flow {s : State} (h : s.flow.InFlight s.opcode) (first : s.mainFSM = .cycle1) :
    s.flow = .boundary := by
  have state : s.flow.mainFSM = .cycle1 := first
  rcases h with high | low | here | inside
  · rw [high] at state
    cases state
  · rw [low] at state
    cases state
  · exact here
  · exact absurd first (flights_next s.opcode true s.flow inside).1

end MacIIvi.Egret
