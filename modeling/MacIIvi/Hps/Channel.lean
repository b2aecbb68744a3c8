import Mathlib.Tactic.Common

/-!
# One block slot of the HPS

Source: `sys/hps_io.sv`, commands 0x16 to 0x18. The HPS serves one slot at a
time: it polls the request lines and reads the sector address, raises `sd_ack`
at any later clock, moves the words of the session at any pace, and drops
`sd_ack`. Nothing else is assumed of its timing.
-/

namespace MacIIvi

/-- The request lines of a slot. -/
structure HpsReq where
  rd : Bool
  wr : Bool
  lba : Nat

/-- What the HPS is doing for a slot. A session that writes to the medium reads
the core's buffer, and can take word `w` once its address has been `settled`
for a clock. -/
inductive HpsChan where
  | idle
  | latched (write : Bool) (lba : Nat)
  | reading (lba w : Nat)
  | writing (lba w : Nat) (settled : Bool)
  deriving DecidableEq, Repr

/-- What the HPS does in one clock. `other` is a word of another slot's
session, whose strobe and address all slots see. -/
inductive HpsMove where
  | wait
  | latch (write : Bool)
  | raise
  | word (d : BitVec 16)
  | drop
  | other (addr : Nat) (d : BitVec 16)
  deriving DecidableEq, Repr

namespace HpsChan

/-- `sd_ack` of the slot. -/
def ack : HpsChan → Bool
  | idle | latched .. => false
  | reading .. | writing .. => true

/-- Words of a session on a disk slot: one sector, whatever its address. -/
abbrev sectorWords : Nat → Nat := fun _ => 256

/-- The moves open to the HPS; `words lba` is the length of a session there. -/
def allows (words : Nat → Nat) (req : HpsReq) : HpsChan → HpsMove → Bool
  | _, .wait => true
  | idle, .latch write => if write then req.wr else req.rd
  | latched .., .raise => true
  | reading lba w, .word _ => decide (w < words lba)
  | writing lba w settled, .word _ => decide (w < words lba) && settled
  | reading lba w, .drop => w == words lba
  | writing lba w _, .drop => w == words lba
  | idle, .other .. => true
  | latched .., .other .. => true
  | _, _ => false

/-- The session after a move. -/
def next (req : HpsReq) : HpsChan → HpsMove → HpsChan
  | idle, .latch write => latched write req.lba
  | latched write lba, .raise => if write then writing lba 0 false else reading lba 0
  | reading lba w, .word _ => reading lba (w + 1)
  | writing lba w _, .word _ => writing lba (w + 1) false
  | writing lba w _, .wait => writing lba w true
  | reading .., .drop => idle
  | writing .., .drop => idle
  | c, _ => c

/-- `sd_buff_wr` -/
def strobe : HpsChan → HpsMove → Bool
  | reading .., .word _ => true
  | _, .other .. => true
  | _, _ => false

/-- `sd_buff_addr[7:0]` -/
def addr : HpsChan → HpsMove → Nat
  | _, .other a _ => a % 256
  | reading _ w, _ => w % 256
  | writing _ w _, _ => w % 256
  | _, _ => 0

/-- `sd_buff_addr[12:8]` -/
def addrHi : HpsChan → HpsMove → Nat
  | _, .other a _ => a / 256 % 32
  | reading _ w, _ => w / 256 % 32
  | writing _ w _, _ => w / 256 % 32
  | _, _ => 0

/-- `sd_buff_dout` -/
def dout : HpsChan → HpsMove → BitVec 16
  | reading .., .word d => d
  | _, .other _ d => d
  | _, _ => 0

/-- The words of a read session are those of the medium. -/
def Serves (medium : Nat → Nat → BitVec 16) : HpsChan → HpsMove → Prop
  | reading lba w, .word d => d = medium lba w
  | _, _ => True

end HpsChan

end MacIIvi
