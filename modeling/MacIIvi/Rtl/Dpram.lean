import Mathlib.Algebra.Group.Nat.Defs
import Mathlib.Logic.Function.Basic
import Mathlib.Tactic.Common

/-!
# `scsi_dpram`: the sector-buffer memory of the SCSI target

Source: `rtl/scsi.v`, `module scsi_dpram`. One true dual-port array; port A is
the HPS side, port B the Mac side. The two look-ahead outputs `q_c` and `q_d`
are filled by a prefetch controller that borrows idle port-B read cycles, so
that for a few clocks after an address change (or after a write that hits a
look-ahead address) `q_b` shows a look-ahead byte instead of its own.
-/

namespace MacIIvi

abbrev Byte := BitVec 8

/-- States of the look-ahead prefetch controller. -/
inductive PfState where
  | idle | rdc | rdd
  deriving DecidableEq, Repr

/-- The ports of one clock. -/
structure DpramIn where
  addressA : Nat
  dataA : Byte
  wrenA : Bool
  addressB : Nat
  dataB : Byte
  wrenB : Bool
  addressC : Nat
  addressD : Nat

/-- `ram_ab` and the registers around it. `addrWidth` is fixed at power-up:
`pf_c_addr` and `pf_d_addr` start as all ones. -/
structure Dpram where
  ramAb : Nat → Byte := fun _ => 0
  qA : Byte := 0
  qB : Byte := 0
  qC : Byte := 0
  qD : Byte := 0
  pfSt : PfState := .idle
  pfCAddr : Nat
  pfDAddr : Nat
  pfCTgt : Nat := 0
  pfDTgt : Nat := 0
  pfValid : Bool := false
  pfSnooped : Bool := false

namespace Dpram

def powerUp (addrWidth : Nat) : Dpram :=
  { pfCAddr := 2 ^ addrWidth - 1, pfDAddr := 2 ^ addrWidth - 1 }

/-- The fetched look-ahead addresses are not the ones asked for now. -/
def pfStale (i : DpramIn) (m : Dpram) : Bool :=
  !m.pfValid || m.pfSnooped || i.addressC != m.pfCAddr || i.addressD != m.pfDAddr

def pfStealC (i : DpramIn) (m : Dpram) : Bool :=
  m.pfSt == .idle && pfStale i m && !i.wrenB

def pfStealD (i : DpramIn) (m : Dpram) : Bool :=
  m.pfSt == .rdc && !i.wrenB

/-- An address the controller holds or is fetching. -/
def pfWatched (m : Dpram) (a : Nat) : Bool :=
  a == m.pfCAddr || a == m.pfDAddr || (m.pfSt != .idle && (a == m.pfCTgt || a == m.pfDTgt))

def pfSnoopHit (i : DpramIn) (m : Dpram) : Bool :=
  (i.wrenA && (pfWatched m i.addressA || (pfStealC i m && i.addressA == i.addressC))) ||
    (i.wrenB && pfWatched m i.addressB)

def addressBEff (i : DpramIn) (m : Dpram) : Nat :=
  if pfStealC i m then i.addressC else if pfStealD i m then m.pfDTgt else i.addressB

/-- Both write ports. When they hit one address in one clock the port-B value
stays; the source leaves that case to the memory primitive. -/
def writePorts (i : DpramIn) (ram : Nat → Byte) : Nat → Byte :=
  let afterA := if i.wrenA then Function.update ram i.addressA i.dataA else ram
  if i.wrenB then Function.update afterA i.addressB i.dataB else afterA

/-- One clock edge. -/
def step (i : DpramIn) (m : Dpram) : Dpram :=
  let common : Dpram :=
    { m with
      ramAb := writePorts i m.ramAb
      qA := if i.wrenA then i.dataA else m.ramAb i.addressA
      qB := if i.wrenB then i.dataB else m.ramAb (addressBEff i m) }
  match m.pfSt with
  | .idle =>
    let snooped := m.pfSnooped || pfSnoopHit i m
    if pfStealC i m then
      { common with
        pfSnooped := snooped, pfCTgt := i.addressC, pfDTgt := i.addressD, pfSt := .rdc }
    else { common with pfSnooped := snooped }
  | .rdc =>
    { common with
      pfSnooped := m.pfSnooped || pfSnoopHit i m
      qC := m.qB
      pfSt := if pfStealD i m then .rdd else .idle }
  | .rdd =>
    if !m.pfSnooped && !pfSnoopHit i m then
      { common with
        qD := m.qB, pfCAddr := m.pfCTgt, pfDAddr := m.pfDTgt, pfValid := true
        pfSnooped := false, pfSt := .idle }
    else { common with qD := m.qB, pfValid := false, pfSnooped := false, pfSt := .idle }

/-- The array changes through the write ports only. -/
@[simp] theorem step_ramAb (i : DpramIn) (m : Dpram) :
    (step i m).ramAb = writePorts i m.ramAb := by
  unfold step
  cases m.pfSt with
  | idle => dsimp only; split <;> rfl
  | rdc => rfl
  | rdd => dsimp only; split <;> rfl

/-- The port-A output register. -/
@[simp] theorem step_qA (i : DpramIn) (m : Dpram) :
    (step i m).qA = if i.wrenA then i.dataA else m.ramAb i.addressA := by
  unfold step
  cases m.pfSt with
  | idle => dsimp only; split <;> rfl
  | rdc => rfl
  | rdd => dsimp only; split <;> rfl

/-- The port-B output register. -/
@[simp] theorem step_qB (i : DpramIn) (m : Dpram) :
    (step i m).qB = if i.wrenB then i.dataB else m.ramAb (addressBEff i m) := by
  unfold step
  cases m.pfSt with
  | idle => dsimp only; split <;> rfl
  | rdc => rfl
  | rdd => dsimp only; split <;> rfl

theorem writePorts_idle (i : DpramIn) (ram : Nat → Byte) (ha : i.wrenA = false)
    (hb : i.wrenB = false) : writePorts i ram = ram := by
  simp [writePorts, ha, hb]

end Dpram

end MacIIvi
