import MacIIvi.Scsi.Ncr5380

/-!
# What a driver does

The accesses of a SCSI driver as lists of host bus clocks: register writes, a
command sent by hand, pseudo-DMA accesses.
-/

namespace MacIIvi

namespace Driver

/-- An access of two clocks and the pause after it. -/
def access (h : HostIn) : List HostIn := [h, h, {}, {}]

/-- A byte is driven on both lanes. -/
def regWrite (rs : Nat) (v : Byte) : List HostIn :=
  access { cs := true, iow := true, rs := rs, wdata := v ++ v }

def dmaWriteByte (v : Byte) : List HostIn :=
  access { cs := true, dack := true, iow := true, wdata := v ++ v }

def dmaWriteWord (hi lo : Byte) : List HostIn :=
  access { cs := true, dack := true, iow := true, wdata := hi ++ lo, dmaWord := true }

def dmaReadWord : List HostIn := access { cs := true, dack := true, ior := true, dmaWord := true }

/-- The initiator command register: the data bus driven, with `bits` besides. -/
def icr (bits : Byte) : List HostIn := regWrite 1 (bits ||| 0x01)

/-- Select the target with this id. -/
def select (id : Nat) : List HostIn :=
  regWrite 0 (BitVec.ofNat 8 (2 ^ id)) ++ icr 0x04 ++ icr 0x00

/-- Hand one byte over. -/
def handshake (b : Byte) : List HostIn := regWrite 0 b ++ icr 0x10 ++ icr 0x00

/-- Select a target and send it a command. -/
def command (id : Nat) (cdb : List Byte) : List HostIn := select id ++ cdb.flatMap handshake

/-- Start pseudo-DMA in the phase `tcr`; `register` is one of the two start registers. -/
def start (tcr : Byte) (register : Nat) : List HostIn :=
  regWrite 3 tcr ++ regWrite 2 0x02 ++ regWrite register 0x00

/-- The host bus clock by clock; nothing happens after the last clock. -/
def host (xs : List HostIn) (t : Nat) : HostIn := xs.getD t {}

end Driver

end MacIIvi
