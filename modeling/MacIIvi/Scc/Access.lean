import Mathlib.Data.BitVec
import Mathlib.Logic.Function.Basic
import Mathlib.Tactic.Common

/-!
# The serial controller on its bus

Source: `rtl/scc.v`: the register pointers, the write registers, the receive queues and the
read multiplexer. The receivers and transmitters and the registers they give are inputs.
-/

namespace MacIIvi

namespace Scc

abbrev Byte := BitVec 8

inductive Channel where
  | a | b
  deriving DecidableEq, Repr

/-- The read registers that the rest of the chip computes. -/
inductive Status where
  | rr0 | rr1 | rr2 | rr3 | rr10 | rr15
  deriving DecidableEq, Repr

end Scc

open Scc (Channel Status)

/-- The bus, the receivers (`rx`) and the transmitters (`tx`) in one clock. -/
structure SccIn where
  resetHw : Bool := false
  cen : Bool := false
  cs : Bool := false
  we : Bool := false
  rs1 : Bool := false
  rs0 : Bool := false
  wdata : Scc.Byte := 0
  rxWr : Channel → Bool := fun _ => false
  rxData : Channel → Scc.Byte := fun _ => 0
  txBusy : Channel → Bool := fun _ => false
  status : Channel → Status → Scc.Byte := fun _ _ => 0

/-- The channel that the bus addresses. -/
def SccIn.side (w : SccIn) : Channel := if w.rs0 then .a else .b

/-- `we` and `rs` select the control port of a channel. -/
def SccIn.control (w : SccIn) (c : Channel) : Bool := !w.rs1 && decide (w.side = c)

def SccIn.dataPort (w : SccIn) (c : Channel) : Bool := w.rs1 && decide (w.side = c)

structure Scc where
  rindex : Channel → Nat := fun _ => 0
  state : Channel → Bool := fun _ => false
  pendingCleanup : Channel → Bool := fun _ => false
  pendingDequeue : Channel → Bool := fun _ => false
  rxQueue : Channel → Nat → Scc.Byte := fun _ _ => 0
  rxQueuePos : Channel → Nat := fun _ => 0
  rxFirst : Channel → Bool := fun _ => true
  txData : Channel → Scc.Byte := fun _ => 0
  txBufferFull : Channel → Bool := fun _ => false
  csAccessDone : Bool := false
  wr : Channel → Nat → Scc.Byte := fun _ n => if n = 15 then 0xf8 else 0
  wr2 : Scc.Byte := 0
  wr9 : BitVec 6 := 0

namespace Scc

variable (w : SccIn) (s : Scc) (c : Channel)

/-! ## The wires -/

/-- `wreg_a`, `wreg_b` -/
def wreg : Bool := w.cs && w.we && w.control c && !s.csAccessDone

def rindexLatch : Nat := if w.cs && !w.rs1 then s.rindex w.side else 0

/-- A write to WR9 with a reset command. -/
def resetCommand (top : BitVec 2) : Bool :=
  (s.wreg w .a || s.wreg w .b) && decide (s.rindexLatch w = 9) &&
    decide (w.wdata.extractLsb' 6 2 = top)

def reset : Bool := s.resetCommand w 3 || w.resetHw

/-- `reset_a`, `reset_b` -/
def resetChannel : Bool :=
  s.resetCommand w (match c with | .a => 2 | .b => 1) || s.resetCommand w 3 || s.reset w

/-- The clock in which an access is processed. -/
def processes : Bool := w.cen && w.cs && !s.csAccessDone

/-- The clock in which an access that has ended is cleaned up. -/
def cleansUp : Bool := w.cen && !w.cs

/-- The pointer that a write to WR0 sets, with the point-high command. -/
def pointerOf (data : Byte) : Nat :=
  (if data.extractLsb' 3 3 = 1 then 8 else 0) + (data.extractLsb' 0 3).toNat

/-- A write to WR0. -/
def writesPointer : Bool := s.processes w && w.control c && w.we && !s.state c

/-- The strobe of a write register. -/
def writesRegister (n : Nat) : Bool := w.cen && s.wreg w c && decide (s.rindexLatch w = n)

def readsRegister : Bool := s.processes w && w.control c && !w.we

/-- A read of the data port flags the pop. -/
def flagsPop : Bool := s.processes w && w.dataPort c && !w.we

def writesData : Bool := s.processes w && w.dataPort c && w.we

/-- The pop, which waits for a clock without an arrival. -/
def pops : Bool := cleansUp w && s.pendingDequeue c && !w.rxWr c

/-! ## One clock -/

def rindexNext : Nat :=
  if s.reset w then 0
  else if s.writesPointer w c then pointerOf w.wdata
  else if cleansUp w && s.pendingCleanup c then 0
  else s.rindex c

def stateNext : Bool :=
  if s.reset w then false
  else if s.writesPointer w c then
    decide (w.wdata.extractLsb' 0 3 ≠ 0 ∨ w.wdata.extractLsb' 3 3 = 1) || s.state c
  else if cleansUp w && s.pendingCleanup c then false
  else s.state c

def pendingCleanupNext : Bool :=
  if s.reset w then false
  else if s.processes w && w.control c && s.state c then true
  else if cleansUp w && s.pendingCleanup c then false
  else s.pendingCleanup c

def pendingDequeueNext : Bool :=
  if s.reset w then false
  else if s.flagsPop w c then true
  else if s.pops w c then false
  else s.pendingDequeue c

def accepts : Bool := w.rxWr c && decide (s.rxQueuePos c < 3)

def shifted (q : Nat → Byte) : Nat → Byte
  | 0 => q 1
  | 1 => q 2
  | 2 => 0
  | i => q i

def rxQueueNext : Nat → Byte :=
  if s.accepts w c then Function.update (s.rxQueue c) (s.rxQueuePos c) (w.rxData c)
  else if !s.reset w && s.pops w c && decide (0 < s.rxQueuePos c) then shifted (s.rxQueue c)
  else s.rxQueue c

def rxQueuePosNext : Nat :=
  if s.reset w then 0
  else if s.accepts w c then s.rxQueuePos c + 1
  else if s.pops w c then s.rxQueuePos c - 1
  else s.rxQueuePos c

def rxFirstNext : Bool :=
  if s.reset w then true
  else if s.writesPointer w c && decide (w.wdata.extractLsb' 3 3 = 4) then true
  else if s.pops w c && decide (0 < s.rxQueuePos c) then false
  else s.rxFirst c

def txDataNext : Byte :=
  if s.reset w then 0 else if s.writesData w c then w.wdata else s.txData c

def txBufferFullNext : Bool :=
  if s.reset w then false
  else if s.txBufferFull c && !w.txBusy c then false
  else if s.writesData w c then w.txBusy c
  else s.txBufferFull c

def csAccessDoneNext : Bool :=
  if s.reset w then !w.resetHw
  else if cleansUp w then false
  else if s.processes w then true
  else s.csAccessDone

/-- The write registers of a channel, by their numbers. -/
def wrNext (n : Nat) : Byte :=
  let old := s.wr c n
  let new := if s.writesRegister w c n then w.wdata else old
  match n with
  | 1 =>
    if w.resetHw then 0 else if w.cen && s.resetChannel w c then old &&& 0x24 else new
  | 3 | 4 | 12 | 13 => if w.resetHw then 0 else new
  | 5 =>
    if w.resetHw then 0 else if w.cen && s.resetChannel w c then old &&& 0x61 else new
  | 10 =>
    if s.reset w then 0 else if w.cen && s.resetChannel w c then old &&& 0x60 else new
  | 11 => if w.resetHw then 0 else if w.cen && s.reset w then 0 else new
  | 14 =>
    if w.resetHw then 0
    else if w.cen && s.reset w then (old &&& 0xc0) ||| 0x30
    else if w.cen && s.resetChannel w c then (old &&& 0xc3) ||| 0x20
    else new
  | 15 => if s.reset w then 0xf8 else new
  | _ => old

def wr2Next : Byte :=
  if w.resetHw then 0
  else if s.writesRegister w .a 2 || s.writesRegister w .b 2 then w.wdata
  else s.wr2

def wr9Next : BitVec 6 :=
  if w.resetHw then 0
  else if s.writesRegister w .a 9 || s.writesRegister w .b 9 then w.wdata.extractLsb' 0 6
  else s.wr9

def next : Scc where
  rindex := s.rindexNext w
  state := s.stateNext w
  pendingCleanup := s.pendingCleanupNext w
  pendingDequeue := s.pendingDequeueNext w
  rxQueue := s.rxQueueNext w
  rxQueuePos := s.rxQueuePosNext w
  rxFirst := s.rxFirstNext w
  txData := s.txDataNext w
  txBufferFull := s.txBufferFullNext w
  csAccessDone := s.csAccessDoneNext w
  wr := s.wrNext w
  wr2 := s.wr2Next w
  wr9 := s.wr9Next w

/-- The controller after `t` clocks. -/
def after (w : Nat → SccIn) : Nat → Scc
  | 0 => s
  | t + 1 => next (w t) (after w t)

/-- The same from the reset on. -/
def run (w : Nat → SccIn) (t : Nat) : Scc := after {} w t

/-! ## The read multiplexer -/

/-- What a register number reads. -/
inductive Source where
  | status (r : Status)
  | wr (n : Nat)
  | wr2
  | zero
  | head
  deriving DecidableEq, Repr

def source : Channel → Nat → Source
  | .a, 2 | .a, 6 => .wr2
  | .b, 2 | .b, 6 => .status .rr2
  | .a, 3 | .a, 7 => .status .rr3
  | .b, 3 | .b, 7 => .zero
  | _, 0 | _, 4 => .status .rr0
  | _, 1 | _, 5 => .status .rr1
  | _, 8 => .head
  | _, 9 | _, 13 => .wr 13
  | _, 10 | _, 14 => .status .rr10
  | _, 12 => .wr 12
  | _, _ => .status .rr15

def rdata : Byte :=
  match if w.rs1 then Source.head else source w.side (s.rindexLatch w) with
  | .status r => w.status w.side r
  | .wr n => s.wr w.side n
  | .wr2 => s.wr2
  | .zero => 0
  | .head => s.rxQueue w.side 0

end Scc

end MacIIvi
