import MacIIvi.Egret.Alu

/-!
# The Egret's processor

m68hc05_core.sv: a 68HC05 as one machine of twelve states. Each state decodes
the opcode with a `case` of its own; its items are an inductive type here, with
the opcodes of each item in the order of the opcode map.
-/

namespace MacIIvi.Egret

inductive AddrMux where
  | pc | sp | hx | tm | x2 | s2 | x1 | s1
  deriving DecidableEq, Repr

inductive DataMux where
  | a | h | x | spl | sph | pcl | pch | tl | th | help | code
  deriving DecidableEq, Repr

/-- `mainFSM`, in the order of its codes. -/
inductive MainFsm where
  | resetHigh | resetLow | cycle1 | cycle2 | cycle3 | cycle4 | cycle5 | cycle6 | cycle7 | cycle8
  | cycle9 | cycle6a
  deriving DecidableEq, Repr

/-- `irq_source` -/
inductive IrqSource where
  | irq | timer | onesec
  deriving DecidableEq, Repr

/-- The registers and flags of the programming model. -/
structure Registers where
  regA : Byte
  regX : Byte
  regSP : Word
  regPC : Word
  flagH : Bool
  flagI : Bool
  flagN : Bool
  flagZ : Bool
  flagC : Bool
  deriving DecidableEq, Repr

/-- All registers. `wr` is high for a read. -/
structure State extends Registers where
  help : Byte
  temp : Word
  mainFSM : MainFsm
  addrMux : AddrMux
  dataMux : DataMux
  opcode : Byte
  wr : Bool
  irqD : Bool
  irqRequest : Bool
  irqSource : IrqSource
  trace : Bool
  traceI : Bool
  traceOpCode : Byte
  deriving DecidableEq, Repr

/-- What a clock with `cen` sees. The three interrupt lines are low when active. -/
structure Inputs where
  irq : Bool
  timerIrq : Bool
  onesecIrq : Bool
  datain : Byte
  deriving DecidableEq, Repr

/-! ## The multiplexers -/

/-- `{8'h00, b}` -/
def low (b : Byte) : Word := 0x00#8 ++ b

/-- The high byte of a word. -/
def high (w : Word) : Byte := w.extractLsb' 8 8

/-- `w[15:8] <= b` -/
def setHigh (w : Word) (b : Byte) : Word := b ++ w.extractLsb' 0 8

/-- `w[7:0] <= b` -/
def setLow (w : Word) (b : Byte) : Word := high w ++ b

@[simp] theorem high_append (a b : Byte) : high (a ++ b) = a := BitVec.extractLsb'_append_eq_left

@[simp] theorem setLow_setHigh (w : Word) (a b : Byte) : setLow (setHigh w a) b = a ++ b := by
  rw [setLow, setHigh, high_append]

/-- A word is its two bytes. -/
theorem high_low (w : Word) : high w ++ w.extractLsb' 0 8 = w := by
  apply BitVec.eq_of_getLsbD_eq
  intro k small
  rw [high, BitVec.getLsbD_append, BitVec.getLsbD_extractLsb', BitVec.getLsbD_extractLsb']
  by_cases below : k < 8
  · simp [below]
  · have inside : k - 8 < 8 := by omega
    have there : 8 + (k - 8) = k := by omega
    simp [below, inside, there]

def addr (s : State) : Word :=
  match s.addrMux with
  | .pc => s.regPC
  | .sp => s.regSP
  | .hx => low s.regX
  | .tm => s.temp
  | .x2 => low s.regX + s.temp
  | .s2 => s.regSP + s.temp
  | .x1 => low s.regX + low (s.temp.extractLsb' 0 8)
  | .s1 => s.regSP + low (s.temp.extractLsb' 0 8)

def dataout (s : State) : Byte :=
  match s.dataMux with
  | .a => s.regA
  | .h => s.regX
  | .x => s.regX
  | .spl => s.regSP.extractLsb' 0 8
  | .sph => high s.regSP
  | .pcl => s.regPC.extractLsb' 0 8
  | .pch => high s.regPC
  | .tl => s.temp.extractLsb' 0 8
  | .th => high s.temp
  | .help => s.help
  | .code => s.traceOpCode

/-! ## Operations -/

/-- The operations on one operand, which the source repeats for A, for X and
for memory. -/
inductive Unary where
  | neg | com | lsr | ror | asr | lsl | rol | dec | inc | tst | clr
  deriving DecidableEq, Repr

/-- `tres` -/
def Unary.result (f : Unary) (c : Bool) (v : Byte) : Byte :=
  match f with
  | .neg => 0x00 - v
  | .com => v ^^^ 0xFF
  | .lsr => 0#1 ++ v.extractLsb' 1 7
  | .ror => BitVec.ofBool c ++ v.extractLsb' 1 7
  | .asr => v.extractLsb' 7 1 ++ v.extractLsb' 1 7
  | .lsl => v.extractLsb' 0 7 ++ 0#1
  | .rol => v.extractLsb' 0 7 ++ BitVec.ofBool c
  | .dec => v - 0x01
  | .inc => v + 0x01
  | .tst => v
  | .clr => 0x00

/-- The flags after an operation on one operand. -/
def Unary.flags (f : Unary) (r : Registers) (v : Byte) : Registers :=
  let tres := f.result r.flagC v
  { r with
    flagN := match f with
      | .lsr | .clr => false
      | .ror => r.flagC
      | .asr => v.getLsbD 7
      | .lsl | .rol => v.getLsbD 6
      | _ => tres.getLsbD 7
    flagZ := match f with
      | .clr => true
      | _ => tres = 0x00
    flagC := match f with
      | .neg => tres ≠ 0x00
      | .com => true
      | .lsr | .ror | .asr => v.getLsbD 0
      | .lsl | .rol => v.getLsbD 7
      | _ => r.flagC }

/-- The operations of a register with an operand. -/
inductive Binary where
  | sub | cmp | sbc | cpx | and | bit | lda | eor | adc | ora | add | ldx
  deriving DecidableEq, Repr

/-- N and Z from a byte. -/
def Registers.nz (r : Registers) (t : Byte) : Registers :=
  { r with flagN := t.getLsbD 7, flagZ := t = 0x00 }

/-- The carry of a difference, from the top bits. -/
def borrow (x d t : Byte) : Bool :=
  (!x.getLsbD 7 && d.getLsbD 7) || (d.getLsbD 7 && t.getLsbD 7) || (t.getLsbD 7 && !x.getLsbD 7)

/-- The carry of a sum out of bit `k`. -/
def carryOut (k : Nat) (x d t : Byte) : Bool :=
  (x.getLsbD k && d.getLsbD k) || (d.getLsbD k && !t.getLsbD k) || (!t.getLsbD k && x.getLsbD k)

/-- The registers after an operation with an operand. -/
def Binary.apply (f : Binary) (r : Registers) (d : Byte) : Registers :=
  match f with
  | .sub =>
    let tres := r.regA - d
    { r.nz tres with regA := tres, flagC := borrow r.regA d tres }
  | .cmp =>
    let tres := r.regA - d
    { r.nz tres with flagC := borrow r.regA d tres }
  | .sbc =>
    let tres := r.regA - d - (0#7 ++ BitVec.ofBool r.flagC)
    { r.nz tres with regA := tres, flagC := borrow r.regA d tres }
  | .cpx =>
    let tres := r.regX - d
    { r.nz tres with flagC := borrow r.regX d tres }
  | .and => { r.nz (r.regA &&& d) with regA := r.regA &&& d }
  | .bit => r.nz (r.regA &&& d)
  | .lda => { r.nz d with regA := d }
  | .eor => { r.nz (r.regA ^^^ d) with regA := r.regA ^^^ d }
  | .adc =>
    let tres := r.regA + d + (0#7 ++ BitVec.ofBool r.flagC)
    { r.nz tres with
      regA := tres, flagH := carryOut 3 r.regA d tres, flagC := carryOut 7 r.regA d tres }
  | .ora => { r.nz (r.regA ||| d) with regA := r.regA ||| d }
  | .add =>
    let tres := r.regA + d
    { r.nz tres with
      regA := tres, flagH := carryOut 3 r.regA d tres, flagC := carryOut 7 r.regA d tres }
  | .ldx => { r.nz d with regX := d }

/-- The target of a taken branch: `pc` points to the displacement. -/
def target (pc : Word) (d : Byte) : Word :=
  if d.getLsbD 7 then pc + (0xFF#8 ++ d) + 1 else pc + (0x00#8 ++ d) + 1

/-- The flags as a byte. -/
def Registers.ccr (r : Registers) : Byte :=
  0b111#3 ++ BitVec.ofBool r.flagH ++ BitVec.ofBool r.flagI ++ BitVec.ofBool r.flagN ++
    BitVec.ofBool r.flagZ ++ BitVec.ofBool r.flagC

/-- The flags from a byte. -/
def Registers.setCcr (r : Registers) (d : Byte) : Registers :=
  { r with
    flagH := d.getLsbD 4, flagI := d.getLsbD 3, flagN := d.getLsbD 2, flagZ := d.getLsbD 1
    flagC := d.getLsbD 0 }

/-- `mask1[n]` -/
def mask1 (n : Nat) : Byte := 1#8 <<< n

/-- `mask0[n]` -/
def mask0 (n : Nat) : Byte := ~~~(1#8 <<< n)

/-! ## The opcode map -/

/-- `opcode[7:4]` -/
def row (d : Byte) : Nat := d.toNat / 16

/-- `opcode[3:0]` -/
def column (d : Byte) : Nat := d.toNat % 16

/-- The operation of a column of the rows `3` to `7`. -/
def unaryOf (column : Nat) : Unary :=
  match column with
  | 0x0 => .neg
  | 0x3 => .com
  | 0x4 => .lsr
  | 0x6 => .ror
  | 0x7 => .asr
  | 0x8 => .lsl
  | 0x9 => .rol
  | 0xA => .dec
  | 0xC => .inc
  | 0xD => .tst
  | _ => .clr

/-- The columns of the rows `3` to `7` that write their operand back. -/
def modifies (column : Nat) : Bool := column ∈ [0x0, 0x3, 0x4, 0x6, 0x7, 0x8, 0x9, 0xA, 0xC]

/-- The operation of a column of the rows `A` to `F`. -/
def binaryOf (column : Nat) : Binary :=
  match column with
  | 0x0 => .sub
  | 0x1 => .cmp
  | 0x2 => .sbc
  | 0x3 => .cpx
  | 0x4 => .and
  | 0x5 => .bit
  | 0x6 => .lda
  | 0x8 => .eor
  | 0x9 => .adc
  | 0xA => .ora
  | 0xB => .add
  | _ => .ldx

/-- The columns of the rows `A` to `F` that read an operand. -/
def reads (column : Nat) : Bool :=
  column ∈ [0x0, 0x1, 0x2, 0x3, 0x4, 0x5, 0x6, 0x8, 0x9, 0xA, 0xB, 0xE]

/-! ## Instruction cycle 1 -/

/-- The items of the `case` of state 2. -/
inductive Item1 where
  | rtt | direct | twoBytes | indexedRmw | immediate | indexed8 | indexed | jmpX | staX | stxX
  | accumulator (f : Unary) | mul | indexRegister (f : Unary) | indexed8Rmw | clrX | pull | swi
  | idle | tax | carry | mask | rsp | txa | call2 | call3 | jsrX | illegal
  deriving DecidableEq, Repr

def item1 (d : Byte) : Item1 :=
  let c := column d
  match row d with
  | 0x0 | 0x1 => .direct
  | 0x2 => .twoBytes
  | 0x3 => if modifies c || c = 0xD || c = 0xF then .direct else .illegal
  | 0x4 =>
    if c = 0x2 then .mul
    else if modifies c || c = 0xD || c = 0xF then .accumulator (unaryOf c)
    else .illegal
  | 0x5 => if modifies c || c = 0xD || c = 0xF then .indexRegister (unaryOf c) else .illegal
  | 0x6 => if modifies c || c = 0xD || c = 0xF then .indexed8Rmw else .illegal
  | 0x7 => if modifies c || c = 0xD then .indexedRmw else if c = 0xF then .clrX else .illegal
  | 0x8 =>
    match c with
    | 0x0 | 0x1 => .pull
    | 0x2 => .rtt
    | 0x3 => .swi
    | 0xE | 0xF => .idle
    | _ => .illegal
  | 0x9 =>
    match c with
    | 0x7 => .tax
    | 0x8 | 0x9 => .carry
    | 0xA | 0xB => .mask
    | 0xC => .rsp
    | 0xF => .txa
    | _ => .illegal
  | 0xA => if reads c then .immediate else if c = 0xD then .call2 else .illegal
  | 0xB => if c = 0xD then .call2 else .direct
  | 0xC => if c = 0xD then .call3 else .twoBytes
  | 0xD => if c = 0xD then .call3 else .twoBytes
  | 0xE => if c = 0xD then .call2 else .indexed8
  | _ =>
    match c with
    | 0x7 => .staX
    | 0xC => .jmpX
    | 0xD => .jsrX
    | 0xF => .stxX
    | _ => .indexed

/-- The next instruction is fetched from the byte after this one. -/
def State.oneByte (s : State) : State := { s with regPC := s.regPC + 1, mainFSM := .cycle1 }

/-- State 2, when the opcode on the bus is taken. -/
def decode (s : State) (d : Byte) : State :=
  let s := { s with opcode := d }
  match item1 d with
  | .rtt => { s with traceI := true, regSP := s.regSP + 1, addrMux := .sp, mainFSM := .cycle2 }
  | .direct => { s with temp := 0x0000, regPC := s.regPC + 1, mainFSM := .cycle2 }
  | .twoBytes => { s with regPC := s.regPC + 1, mainFSM := .cycle2 }
  | .indexedRmw => { s with addrMux := .hx, regPC := s.regPC + 1, mainFSM := .cycle3 }
  | .immediate => { s with regPC := s.regPC + 1, mainFSM := .cycle4 }
  | .indexed8 => { s with regPC := s.regPC + 1, mainFSM := .cycle3 }
  | .indexed => { s with addrMux := .hx, regPC := s.regPC + 1, mainFSM := .cycle4 }
  | .jmpX => { s with regPC := low s.regX, mainFSM := .cycle1 }
  | .staX =>
    { s with
      toRegisters := { s.toRegisters.nz s.regA with regPC := s.regPC + 1 }
      wr := false, dataMux := .a, addrMux := .hx, mainFSM := .cycle4 }
  | .stxX =>
    { s with
      toRegisters := { s.toRegisters.nz s.regX with regPC := s.regPC + 1 }
      wr := false, dataMux := .x, addrMux := .hx, mainFSM := .cycle4 }
  | .accumulator f =>
    State.oneByte { s with
      toRegisters := { f.flags s.toRegisters s.regA with regA := f.result s.flagC s.regA } }
  | .mul =>
    let prod := mul8 s.regA s.regX
    State.oneByte { s with
      flagH := false, flagC := false, regA := prod.extractLsb' 0 8, regX := high prod }
  | .indexRegister f =>
    State.oneByte { s with
      toRegisters := { f.flags s.toRegisters s.regX with regX := f.result s.flagC s.regX } }
  | .indexed8Rmw => { s with temp := low s.regX, regPC := s.regPC + 1, mainFSM := .cycle2 }
  | .clrX =>
    { s with
      flagN := false, flagZ := true, addrMux := .hx, dataMux := .help, wr := false, help := 0x00
      regPC := s.regPC + 1, mainFSM := .cycle2 }
  | .pull => { s with regSP := s.regSP + 1, addrMux := .sp, mainFSM := .cycle2 }
  | .swi => { s with regPC := s.regPC + 1, addrMux := .sp, mainFSM := .cycle2 }
  | .idle => s.oneByte
  | .tax => State.oneByte { s with regX := s.regA }
  | .carry => State.oneByte { s with flagC := d.getLsbD 0 }
  | .mask => State.oneByte { s with flagI := d.getLsbD 0 }
  | .rsp => State.oneByte { s with regSP := 0x00FF }
  | .txa => State.oneByte { s with regA := s.regX }
  | .call2 => { s with temp := s.regPC + 2, regPC := s.regPC + 1, mainFSM := .cycle2 }
  | .call3 => { s with temp := s.regPC + 3, regPC := s.regPC + 1, mainFSM := .cycle2 }
  | .jsrX =>
    { s with
      temp := s.regPC + 1, wr := false, addrMux := .sp, dataMux := .tl, regPC := s.regPC + 1
      mainFSM := .cycle3 }
  | .illegal => s.oneByte

/-- State 2. -/
def cycle1 (s : State) (d : Byte) : State :=
  let next := { s with trace := s.traceI }
  if s.trace then
    { next with opcode := 0x83, traceOpCode := d, addrMux := .sp, mainFSM := .cycle2 }
  else if s.irqRequest then { next with opcode := 0x83, addrMux := .sp, mainFSM := .cycle2 }
  else decode next d

/-! ## Instruction cycle 2 -/

/-- The items of the `case` of state 3. -/
inductive Item2 where
  | operand | extended | staDirect | stxDirect | operand8 | branch | clr | indexed8Rmw | clrX | rti
  | rts | swi | call2 | jmpDirect | call3 | none
  deriving DecidableEq, Repr

def item2 (d : Byte) : Item2 :=
  let c := column d
  match row d with
  | 0x0 | 0x1 => .operand
  | 0x2 => .branch
  | 0x3 => if modifies c || c = 0xD then .operand else if c = 0xF then .clr else .none
  | 0x6 => if modifies c || c = 0xD then .indexed8Rmw else if c = 0xF then .clr else .none
  | 0x7 => if c = 0xF then .clrX else .none
  | 0x8 =>
    match c with
    | 0x0 | 0x2 => .rti
    | 0x1 => .rts
    | 0x3 => .swi
    | _ => .none
  | 0xA => if c = 0xD then .call2 else .none
  | 0xB =>
    match c with
    | 0x7 => .staDirect
    | 0xC => .jmpDirect
    | 0xD => .call2
    | 0xF => .stxDirect
    | _ => .operand8
  | 0xC => if c = 0xD then .call3 else .extended
  | 0xD => if c = 0xD then .call3 else .extended
  | 0xE => if c = 0xD then .call2 else .none
  | _ => .none

/-- The condition of a branch is met. -/
def taken (s : State) (irq : Bool) : Bool :=
  let bit := s.opcode.getLsbD 0
  match column s.opcode with
  | 0x0 => true
  | 0x1 => false
  | 0x2 | 0x3 => (s.flagC || s.flagZ) = bit
  | 0x4 | 0x5 => s.flagC = bit
  | 0x6 | 0x7 => s.flagZ = bit
  | 0x8 | 0x9 => s.flagH = bit
  | 0xA | 0xB => s.flagN = bit
  | 0xC | 0xD => s.flagI = bit
  | _ => irq = bit

/-- State 3. -/
def cycle2 (s : State) (irq : Bool) (d : Byte) : State :=
  match item2 s.opcode with
  | .operand =>
    { s with temp := setLow s.temp d, addrMux := .tm, regPC := s.regPC + 1, mainFSM := .cycle3 }
  | .extended => { s with temp := setHigh s.temp d, regPC := s.regPC + 1, mainFSM := .cycle3 }
  | .staDirect =>
    { s with
      wr := false, dataMux := .a, temp := setLow s.temp d, addrMux := .tm, regPC := s.regPC + 1
      mainFSM := .cycle4 }
  | .stxDirect =>
    { s with
      wr := false, dataMux := .x, temp := setLow s.temp d, addrMux := .tm, regPC := s.regPC + 1
      mainFSM := .cycle4 }
  | .operand8 =>
    { s with temp := setLow s.temp d, addrMux := .tm, regPC := s.regPC + 1, mainFSM := .cycle4 }
  | .branch =>
    { s with
      regPC := if taken s irq then target s.regPC d else s.regPC + 1
      mainFSM := .cycle1 }
  | .clr =>
    { s with
      wr := false
      temp := if s.opcode = 0x3F then setLow s.temp d else s.temp + low d
      addrMux := .tm, dataMux := .help, flagZ := true, flagN := false, help := 0x00
      regPC := s.regPC + 1, mainFSM := .cycle3 }
  | .indexed8Rmw =>
    { s with temp := s.temp + low d, regPC := s.regPC + 1, addrMux := .tm, mainFSM := .cycle3 }
  | .clrX => { s with wr := true, addrMux := .pc, mainFSM := .cycle1 }
  | .rti =>
    { s with
      toRegisters := { s.toRegisters.setCcr d with regSP := s.regSP + 1 }
      mainFSM := .cycle3 }
  | .rts => { s with regPC := setHigh s.regPC d, regSP := s.regSP + 1, mainFSM := .cycle3 }
  | .swi => { s with wr := false, dataMux := .pcl, mainFSM := .cycle3 }
  | .call2 =>
    { s with
      regPC := s.regPC + 1, wr := false, help := d, addrMux := .sp, dataMux := .pcl
      mainFSM := .cycle3 }
  | .jmpDirect => { s with regPC := low d, mainFSM := .cycle1 }
  | .call3 => { s with temp := setHigh s.temp d, regPC := s.regPC + 1, mainFSM := .cycle3 }
  | .none => { s with mainFSM := .resetHigh }

/-! ## Instruction cycle 3 -/

/-- The items of the `case` of state 4. -/
inductive Item3 where
  | bitTest | bitModify | operand | jmpExtended | jmpIndexed16 | jmpIndexed8 | sta | stx
  | modify (f : Unary) | tst | clr | rti | rts | swi | call2 | jsrX | call3 | none
  deriving DecidableEq, Repr

def item3 (d : Byte) : Item3 :=
  let c := column d
  match row d with
  | 0x0 => .bitTest
  | 0x1 => .bitModify
  | 0x3 | 0x6 =>
    if modifies c then .modify (unaryOf c)
    else if c = 0xD then .tst
    else if c = 0xF then .clr
    else .none
  | 0x7 => if modifies c then .modify (unaryOf c) else if c = 0xD then .tst else .none
  | 0x8 =>
    match c with
    | 0x0 | 0x2 => .rti
    | 0x1 => .rts
    | 0x3 => .swi
    | _ => .none
  | 0xA => if c = 0xD then .call2 else .none
  | 0xB => if c = 0xD then .call2 else .none
  | 0xC =>
    match c with
    | 0x7 => .sta
    | 0xC => .jmpExtended
    | 0xD => .call3
    | 0xF => .stx
    | _ => .operand
  | 0xD =>
    match c with
    | 0x7 => .sta
    | 0xC => .jmpIndexed16
    | 0xD => .call3
    | 0xF => .stx
    | _ => .operand
  | 0xE =>
    match c with
    | 0x7 => .sta
    | 0xC => .jmpIndexed8
    | 0xD => .call2
    | 0xF => .stx
    | _ => .operand
  | 0xF => if c = 0xD then .jsrX else .none
  | _ => .none

/-- `case (opcode[7:4])` of the address of an operand. -/
def operandMux (d : Byte) : AddrMux :=
  match row d with
  | 0xD => .x2
  | 0xE => .x1
  | _ => .tm

/-- `opcode[3:1]` -/
def bitNumber (d : Byte) : Nat := d.toNat / 2 % 8

/-- State 4. -/
def cycle3 (s : State) (d : Byte) : State :=
  match item3 s.opcode with
  | .bitTest =>
    { s with
      flagC := d &&& mask1 (bitNumber s.opcode) ≠ 0x00
      addrMux := .pc, mainFSM := .cycle4 }
  | .bitModify =>
    { s with
      wr := false, dataMux := .help
      help := if s.opcode.getLsbD 0 then d &&& mask0 (bitNumber s.opcode)
        else d ||| mask1 (bitNumber s.opcode)
      mainFSM := .cycle4 }
  | .operand =>
    { s with
      temp := setLow s.temp d, addrMux := operandMux s.opcode, regPC := s.regPC + 1
      mainFSM := .cycle4 }
  | .jmpExtended => { s with regPC := setLow s.temp d, mainFSM := .cycle1 }
  | .jmpIndexed16 => { s with regPC := setLow s.temp d + low s.regX, mainFSM := .cycle1 }
  | .jmpIndexed8 => { s with regPC := low d + low s.regX, mainFSM := .cycle1 }
  | .sta =>
    { s with
      toRegisters := { s.toRegisters.nz s.regA with regPC := s.regPC + 1 }
      wr := false, dataMux := .a, temp := setLow s.temp d, addrMux := operandMux s.opcode
      mainFSM := .cycle4 }
  | .stx =>
    { s with
      toRegisters := { s.toRegisters.nz s.regX with regPC := s.regPC + 1 }
      wr := false, dataMux := .x, temp := setLow s.temp d, addrMux := operandMux s.opcode
      mainFSM := .cycle4 }
  | .modify f =>
    { s with
      toRegisters := f.flags s.toRegisters d
      wr := false, dataMux := .help, help := f.result s.flagC d, mainFSM := .cycle4 }
  | .tst => { s with toRegisters := s.toRegisters.nz d, addrMux := .pc, mainFSM := .cycle1 }
  | .clr => { s with wr := true, addrMux := .pc, mainFSM := .cycle1 }
  | .rti => { s with regA := d, regSP := s.regSP + 1, mainFSM := .cycle4 }
  | .rts => { s with regPC := setLow s.regPC d, addrMux := .pc, mainFSM := .cycle1 }
  | .swi => { s with regSP := s.regSP - 1, dataMux := .pch, mainFSM := .cycle4 }
  | .call2 => { s with regSP := s.regSP - 1, dataMux := .pch, mainFSM := .cycle4 }
  | .jsrX => { s with regSP := s.regSP - 1, dataMux := .th, mainFSM := .cycle4 }
  | .call3 =>
    { s with
      wr := false, temp := setLow s.temp d, regPC := s.regPC + 1, addrMux := .sp, dataMux := .pcl
      mainFSM := .cycle4 }
  | .none => { s with mainFSM := .resetHigh }

/-! ## Instruction cycle 4 -/

/-- The items of the `case` of state 5. -/
inductive Item4 where
  | bitBranch | done | rti | swi | operate (f : Binary) | bsr | jsrDirect | call3 | jsrIndexed8
  | jsrX | none
  deriving DecidableEq, Repr

def item4 (d : Byte) : Item4 :=
  let c := column d
  match row d with
  | 0x0 => .bitBranch
  | 0x1 => .done
  | 0x3 | 0x6 | 0x7 => if modifies c then .done else .none
  | 0x8 =>
    match c with
    | 0x0 | 0x2 => .rti
    | 0x3 => .swi
    | _ => .none
  | 0xA => if c = 0xD then .bsr else if reads c then .operate (binaryOf c) else .none
  | 0xB =>
    match c with
    | 0x7 | 0xF => .done
    | 0xD => .jsrDirect
    | _ => if reads c then .operate (binaryOf c) else .none
  | 0xC | 0xD =>
    match c with
    | 0x7 | 0xF => .done
    | 0xD => .call3
    | _ => if reads c then .operate (binaryOf c) else .none
  | 0xE =>
    match c with
    | 0x7 | 0xF => .done
    | 0xD => .jsrIndexed8
    | _ => if reads c then .operate (binaryOf c) else .none
  | 0xF =>
    match c with
    | 0x7 | 0xF => .done
    | 0xD => .jsrX
    | _ => if reads c then .operate (binaryOf c) else .none
  | _ => .none

/-- State 5. -/
def cycle4 (s : State) (d : Byte) : State :=
  match item4 s.opcode with
  | .bitBranch =>
    { s with
      regPC := if s.opcode.getLsbD 0 ^^ s.flagC then target s.regPC d else s.regPC + 1
      addrMux := .pc, mainFSM := .cycle1 }
  | .done => { s with wr := true, addrMux := .pc, mainFSM := .cycle1 }
  | .rti => { s with regX := d, regSP := s.regSP + 1, mainFSM := .cycle5 }
  | .swi =>
    { s with
      regSP := s.regSP - 1, dataMux := .x, help := s.toRegisters.ccr, mainFSM := .cycle5 }
  | .operate f =>
    let r := f.apply s.toRegisters d
    { s with
      toRegisters := { r with regPC := if row s.opcode = 0xA then s.regPC + 1 else s.regPC }
      addrMux := .pc, mainFSM := .cycle1 }
  | .bsr =>
    { s with
      wr := true, addrMux := .pc
      regPC := if s.help.getLsbD 7 then s.regPC + (0xFF#8 ++ s.help) else s.regPC + (0x00#8 ++ s.help)
      regSP := s.regSP - 1, mainFSM := .cycle1 }
  | .jsrDirect =>
    { s with
      wr := true, addrMux := .pc, regPC := low s.help, regSP := s.regSP - 1, mainFSM := .cycle1 }
  | .call3 => { s with regSP := s.regSP - 1, dataMux := .pch, mainFSM := .cycle5 }
  | .jsrIndexed8 =>
    { s with
      wr := true, addrMux := .pc, regPC := low s.help + low s.regX, regSP := s.regSP - 1
      mainFSM := .cycle1 }
  | .jsrX =>
    { s with
      wr := true, addrMux := .pc, regPC := low s.regX, regSP := s.regSP - 1, mainFSM := .cycle1 }
  | .none => { s with mainFSM := .resetHigh }

/-! ## Instruction cycles 5 to 9 -/

/-- State 6. -/
def cycle5 (s : State) (d : Byte) : State :=
  if s.opcode = 0x80 ∨ s.opcode = 0x82 then
    { s with regPC := setHigh s.regPC d, regSP := s.regSP + 1, mainFSM := .cycle6 }
  else if s.opcode = 0x83 then
    { s with regSP := s.regSP - 1, dataMux := .a, mainFSM := .cycle6 }
  else if s.opcode = 0xCD then
    { s with wr := true, addrMux := .pc, regSP := s.regSP - 1, regPC := s.temp, mainFSM := .cycle1 }
  else if s.opcode = 0xDD then
    { s with
      wr := true, addrMux := .pc, regSP := s.regSP - 1, regPC := s.temp + low s.regX
      mainFSM := .cycle1 }
  else { s with mainFSM := .resetHigh }

/-- The vector of an interrupt. -/
def vector (source : IrqSource) : Word :=
  match source with
  | .onesec => 0xFFF6
  | .timer => 0xFFF8
  | .irq => 0xFFFA

/-- State 7. -/
def cycle6 (s : State) (d : Byte) : State :=
  if s.opcode = 0x80 ∨ s.opcode = 0x82 then
    { s with regPC := setLow s.regPC d, addrMux := .pc, mainFSM := .cycle1 }
  else if s.opcode = 0x83 then
    let pushed := { s with regSP := s.regSP - 1, dataMux := .help, flagI := true }
    if !s.trace then
      if !s.irqRequest then { pushed with temp := 0xFFFC, mainFSM := .cycle7 }
      else { pushed with irqRequest := false, temp := vector s.irqSource, mainFSM := .cycle7 }
    else { pushed with temp := 0xFFF8, mainFSM := .cycle6a }
  else { s with mainFSM := .resetHigh }

/-- State 8. -/
def cycle7 (s : State) : State :=
  if s.opcode = 0x83 then
    { s with wr := true, addrMux := .tm, regSP := s.regSP - 1, mainFSM := .cycle8 }
  else { s with mainFSM := .resetHigh }

/-- State 9. -/
def cycle8 (s : State) (d : Byte) : State :=
  if s.opcode = 0x83 then
    { s with regPC := setHigh s.regPC d, temp := s.temp + 1, mainFSM := .cycle9 }
  else { s with mainFSM := .resetHigh }

/-- State A. -/
def cycle9 (s : State) (d : Byte) : State :=
  if s.opcode = 0x83 then { s with regPC := setLow s.regPC d, addrMux := .pc, mainFSM := .cycle1 }
  else { s with mainFSM := .resetHigh }

/-- State B. -/
def cycle6a (s : State) : State :=
  { s with
    regSP := s.regSP - 1, dataMux := .code, trace := false, traceI := false, mainFSM := .cycle7 }

/-! ## One clock -/

/-- The source that requests an interrupt, by priority. The internal lines are
sensed by level, the pin by its edge. -/
def requests (s : State) (i : Inputs) : Option IrqSource :=
  if !i.onesecIrq then some .onesec
  else if !i.timerIrq then some .timer
  else if !i.irq && s.irqD then some .irq
  else none

/-- A request is latched. -/
def latches (s : State) (i : Inputs) : Option IrqSource :=
  if !s.flagI && !s.irqRequest then requests s i else none

/-- The `case (mainFSM)`. -/
def execute (s : State) (i : Inputs) : State :=
  let d := i.datain
  match s.mainFSM with
  | .resetHigh =>
    { s with regPC := setHigh s.regPC d, temp := s.temp + 1, mainFSM := .resetLow }
  | .resetLow => { s with regPC := setLow s.regPC d, addrMux := .pc, mainFSM := .cycle1 }
  | .cycle1 => cycle1 s d
  | .cycle2 => cycle2 s i.irq d
  | .cycle3 => cycle3 s d
  | .cycle4 => cycle4 s d
  | .cycle5 => cycle5 s d
  | .cycle6 => cycle6 s d
  | .cycle7 => cycle7 s
  | .cycle8 => cycle8 s d
  | .cycle9 => cycle9 s d
  | .cycle6a => cycle6a s

/-- A clock with `cen`. State 7 clears a request only that stood before, and then
none is latched. -/
def step (s : State) (i : Inputs) : State :=
  let next := execute s i
  { next with
    irqD := i.irq
    irqRequest := next.irqRequest || (latches s i).isSome
    irqSource := (latches s i).getD s.irqSource }

/-- One clock. -/
def clock (s : State) (cen : Bool) (i : Inputs) : State := if cen then step s i else s

/-- The state after the first `t` clocks with `cen`. -/
def after (s : State) (i : Nat → Inputs) : Nat → State
  | 0 => s
  | t + 1 => step (after s i t) (i t)

/-- The clocks without `cen` leave no trace. -/
theorem clocks_eq (s : State) (inputs : List (Bool × Inputs)) :
    inputs.foldl (fun s c => clock s c.1 c.2) s =
      ((inputs.filter Prod.fst).map Prod.snd).foldl step s := by
  induction inputs generalizing s with
  | nil => rfl
  | cons c inputs ih =>
    obtain ⟨cen, i⟩ := c
    cases cen
    · exact ih s
    · exact ih (step s i)

/-- The registers that a reset loads. `opcode` and `traceOpCode` have none. -/
def reset (opcode traceOpCode : Byte) : State where
  regA := 0x00
  regX := 0x02
  regSP := 0x00FF
  regPC := 0xFFFE
  flagH := false
  flagI := true
  flagN := false
  flagZ := false
  flagC := false
  help := 0x00
  temp := 0xFFFE
  mainFSM := .resetHigh
  addrMux := .tm
  dataMux := .a
  opcode := opcode
  wr := true
  irqD := true
  irqRequest := false
  irqSource := .irq
  trace := false
  traceI := false
  traceOpCode := traceOpCode

end MacIIvi.Egret
