import Mathlib.Data.BitVec
import Mathlib.Data.Nat.Find
import Mathlib.Tactic.Common

/-!
# The pseudo-VIA

Source: `rtl/pseudovia.sv`, with the wires of its port in `MacIIvi.sv`: the strobes last
for as long as the CPU has the address on the bus, but for the slots of the others.
-/

namespace MacIIvi

abbrev PseudoVia.Byte := BitVec 8

/-- The port, the bus behind it and the lines of the sources. -/
structure PviaIn where
  reset : Bool := false
  softRst : Bool := false
  select : Bool := false
  cpuBusControl : Bool := true
  write : Bool := false
  addr : Nat := 0
  dataIn : PseudoVia.Byte := 0
  vblankIrq : Bool := false
  slotIrqC : Bool := false
  slotIrqD : Bool := false
  slotIrqE : Bool := false
  ascIrq : Bool := false
  scsiIrq : Bool := false
  scsiDrq : Bool := false
  monitorId : BitVec 4 := 0

def PviaIn.req (w : PviaIn) : Bool := w.select && w.cpuBusControl

structure PseudoVia where
  slotIer : PseudoVia.Byte
  ier : PseudoVia.Byte
  regB : PseudoVia.Byte
  regConfig : PseudoVia.Byte
  videoConfig : PseudoVia.Byte
  dataOut : PseudoVia.Byte
  vblPendingN : Bool
  ifrAsc : Bool
  ifrB2 : Bool
  ifrB5 : Bool
  ifrB6 : Bool
  irqOut : Bool
  ascIrqD : Bool
  vblankIrqD : Bool

namespace PseudoVia

/-- The registers, by `reg_sel`. -/
inductive Register where
  | portB | config | slotStatus | ifr | video | unused | slotIer | ier
  deriving DecidableEq, Repr

def regSel (addr : Nat) : Register :=
  match addr / 16 % 2, addr % 4 with
  | 0, 0 => .portB
  | 0, 1 => .config
  | 0, 2 => .slotStatus
  | 0, _ => .ifr
  | _, 0 => .video
  | _, 1 => .unused
  | _, 2 => .slotIer
  | _, _ => .ier

variable (w : PviaIn) (s : PseudoVia)

/-! ## The recalculated view -/

/-- `slot_pending`, active low. -/
def slotPending : Byte :=
  BitVec.ofBoolListBE
    [false, s.vblPendingN, !w.slotIrqE, !w.slotIrqD, !w.slotIrqC, true, true, true]

def slotIrqs : Byte := ~~~s.slotPending w &&& 0x78 &&& (s.slotIer &&& 0x78)

def anySlotIrq : Bool := s.slotIrqs w != 0

def ifrLive : Byte :=
  BitVec.ofBoolListBE
    [false, s.ifrB6, s.ifrB5, s.ifrAsc, w.scsiIrq, s.ifrB2, s.anySlotIrq w, w.scsiDrq]

def ifrMasked : Byte := s.ifrLive w &&& s.ier &&& 0x1b

def irqPending : Bool := s.ifrMasked w != 0

def ifrRead : Byte := if s.irqPending w then s.ifrMasked w ||| 0x80 else s.ifrLive w &&& 0x7f

/-! ## One clock -/

def ascRise : Bool := w.ascIrq && !s.ascIrqD
def vblStart : Bool := w.vblankIrq && !s.vblankIrqD
def vblEnd : Bool := !w.vblankIrq && s.vblankIrqD

/-- The events of the sources and the interrupt output. -/
def tick : PseudoVia :=
  { s with
    ascIrqD := w.ascIrq
    vblankIrqD := w.vblankIrq
    ifrAsc := s.ifrAsc || s.ascRise w
    vblPendingN := if s.vblStart w then false else if s.vblEnd w then true else s.vblPendingN
    irqOut := s.irqPending w }

/-- Bit 7 sets or clears the other bits of an enable register. -/
def setOrClear (r data : Byte) : Byte :=
  if data.getLsbD 7 then r ||| (data &&& 0x7f) else r &&& ~~~(data &&& 0x7f)

/-- A register write. -/
def store (r : Register) (data : Byte) : PseudoVia :=
  match r with
  | .portB => { s with regB := data }
  | .config => { s with regConfig := data }
  | .slotStatus => if data.getLsbD 6 then { s with vblPendingN := true } else s
  | .ifr =>
    { s with
      ifrAsc := s.ifrAsc && !data.getLsbD 4
      ifrB2 := s.ifrB2 && !data.getLsbD 2
      ifrB5 := s.ifrB5 && !data.getLsbD 5
      ifrB6 := s.ifrB6 && !data.getLsbD 6 }
  | .video => { s with videoConfig := data }
  | .unused => s
  | .slotIer => { s with slotIer := setOrClear s.slotIer data }
  | .ier => { s with ier := if data = 0xff then 0x1f else setOrClear s.ier data }

/-- What a register reads. -/
def load (r : Register) : Byte :=
  match r with
  | .portB => s.regB
  | .config => s.regConfig
  | .slotStatus => s.slotPending w
  | .ifr => s.ifrRead w
  | .video => (s.videoConfig &&& 0xc7) ||| (w.monitorId.extractLsb' 0 3).setWidth 8 <<< 3
  | .unused => 0
  | .slotIer => s.slotIer &&& 0x7f
  | .ier => s.ier &&& 0x7f

/-- The values of `reset`. -/
def initial : PseudoVia where
  slotIer := 0
  ier := 0
  regB := 0x4f
  regConfig := 0x06
  videoConfig := 0
  dataOut := 0
  vblPendingN := true
  ifrAsc := true
  ifrB2 := false
  ifrB5 := false
  ifrB6 := false
  irqOut := false
  ascIrqD := false
  vblankIrqD := false

def next : PseudoVia :=
  if w.reset then initial
  else if w.softRst then
    { s with
      slotIer := 0, ier := 0, vblPendingN := true, ifrAsc := true, ifrB2 := false
      ifrB5 := false, ifrB6 := false, irqOut := false }
  else if w.req then
    if w.write then (s.tick w).store (regSel w.addr) w.dataIn
    else { s.tick w with dataOut := s.load w (regSel w.addr) }
  else s.tick w

/-- The registers after `t` clocks. -/
def after (w : Nat → PviaIn) : Nat → PseudoVia
  | 0 => s
  | t + 1 => next (w t) (after w t)

/-! ## What is claimed -/

/-- The sources that can raise the interrupt. -/
inductive Source where
  | drq | slot | scsi | asc
  deriving DecidableEq, Repr

/-- The bit of a source in the flags and in their enables. -/
def Source.bit : Source → Nat
  | .drq => 0
  | .slot => 1
  | .scsi => 3
  | .asc => 4

/-- A slot whose own enable is set. -/
def slotPends : Bool :=
  !s.vblPendingN && s.slotIer.getLsbD 6 || w.slotIrqE && s.slotIer.getLsbD 5 ||
    w.slotIrqD && s.slotIer.getLsbD 4 || w.slotIrqC && s.slotIer.getLsbD 3

def pends : Source → Bool
  | .drq => w.scsiDrq
  | .slot => s.slotPends w
  | .scsi => w.scsiIrq
  | .asc => s.ifrAsc

/-- A source that pends and is enabled. -/
def raises (k : Source) : Bool := s.pends w k && s.ier.getLsbD k.bit

def resets : Bool := w.reset || w.softRst

/-- The access of clock `t` has had its strobe before; a reset ends the access. -/
def seen (w : Nat → PviaIn) : Nat → Bool
  | 0 => false
  | t + 1 => (w t).select && !resets (w t) && (seen w t || (w t).req)

/-- The same accesses, each write with its first strobe alone. -/
def once (w : Nat → PviaIn) (t : Nat) : PviaIn :=
  if seen w t && (w t).write then { w t with cpuBusControl := false } else w t

/-- The strobe of a write of a one to a bit of a register. -/
def acks (r : Register) (i : Nat) : Bool :=
  w.req && w.write && !resets w && decide (regSel w.addr = r) && w.dataIn.getLsbD i

def readStrobe : Bool := w.req && !w.write && !resets w

/-- While the address is on the bus, the access stays as it is. -/
def Stable (w : Nat → PviaIn) : Prop :=
  ∀ t, (w t).select = true → (w (t + 1)).select = true →
    (w (t + 1)).addr = (w t).addr ∧ (w (t + 1)).dataIn = (w t).dataIn ∧
      (w (t + 1)).write = (w t).write

/-- A strobe of an acknowledging write that is not its first, after the line of the sound
chip has risen in between. -/
structure LosesAsc (w : Nat → PviaIn) (e v : Nat) : Prop where
  order : e ≤ v
  rise : (s.after w e).ascRise (w e) = true
  inside : ∀ u, e ≤ u → u ≤ v → seen w u = true
  strobe : acks (w v) .ifr 4 = true

/-- The same for the start of a vertical blank that has not ended yet. -/
structure LosesVbl (w : Nat → PviaIn) (e v : Nat) : Prop where
  order : e ≤ v
  start : (s.after w e).vblStart (w e) = true
  goesOn : ∀ u, e < u → u ≤ v → (s.after w u).vblEnd (w u) = false
  inside : ∀ u, e ≤ u → u ≤ v → seen w u = true
  strobe : acks (w v) .slotStatus 6 = true

/-- An access acts once: a write where its first strobe is, a read where its last one is. -/
structure ActsOnce (w : Nat → PviaIn) : Prop where
  write : ∀ t, s.after w t = s.after (once w) t
  read : ∀ u t, u < t → readStrobe (w u) = true →
    (∀ v, u < v → v < t → (w v).reset = false ∧ readStrobe (w v) = false) →
    (s.after w t).dataOut = (s.after w u).load (w u) (regSel (w u).addr)
  readsOnly : ∀ t, readStrobe (w t) = true →
    s.after w (t + 1) =
      { (s.after w t).tick (w t) with dataOut := (s.after w (t + 1)).dataOut }
  asc : ∀ e t, e < t → (s.after w e).ascRise (w e) = true →
    (∀ u, e ≤ u → u ≤ t → seen w u = true) → (s.after w t).ifrAsc = true
  vbl : ∀ e t, e < t → (s.after w e).vblStart (w e) = true →
    (∀ u, e < u → u < t → (s.after w u).vblEnd (w u) = false) →
    (∀ u, e ≤ u → u ≤ t → seen w u = true) → (s.after w t).vblPendingN = false

/-- The output and the read value are those of the sources that raise the interrupt. -/
structure Shows (w : Nat → PviaIn) (t : Nat) : Prop where
  irqOut : (s.after w (t + 1)).irqOut = true ↔
    resets (w t) = false ∧ ∃ k, (s.after w t).raises (w t) k = true
  top : ((s.after w t).ifrRead (w t)).getLsbD 7 = true ↔ ∃ k, (s.after w t).raises (w t) k = true
  exactly : (∃ k, (s.after w t).raises (w t) k = true) → ∀ i < 7,
    (((s.after w t).ifrRead (w t)).getLsbD i = true ↔
      ∃ k : Source, k.bit = i ∧ (s.after w t).raises (w t) k = true)

section Lines

variable {w : PviaIn} {s : PseudoVia}

theorem any_bit : ∀ x : Byte, (x != 0) =
    (x.getLsbD 0 || x.getLsbD 1 || x.getLsbD 2 || x.getLsbD 3 ||
      x.getLsbD 4 || x.getLsbD 5 || x.getLsbD 6 || x.getLsbD 7) := by
  decide +kernel

theorem bits_getLsbD (b₇ b₆ b₅ b₄ b₃ b₂ b₁ b₀ : Bool) (i : Nat) :
    (BitVec.ofBoolListBE [b₇, b₆, b₅, b₄, b₃, b₂, b₁, b₀] : Byte).getLsbD i =
      [b₀, b₁, b₂, b₃, b₄, b₅, b₆, b₇].getD i false := by
  refine BitVec.getLsbD_ofBoolListBE.trans ?_
  match i with
  | 0 | 1 | 2 | 3 | 4 | 5 | 6 | 7 => rfl
  | i + 8 => simp

theorem anySlotIrq_eq : s.anySlotIrq w = s.slotPends w := by
  rw [anySlotIrq, any_bit]
  simp only [slotIrqs, slotPending, BitVec.getLsbD_and, BitVec.getLsbD_not, bits_getLsbD]
  simp [slotPends]
  grind

/-- The masked flags are the sources that raise the interrupt, each in its bit. -/
theorem ifrMasked_getLsbD (i : Nat) : (s.ifrMasked w).getLsbD i =
    [s.raises w .drq, s.raises w .slot, false, s.raises w .scsi, s.raises w .asc].getD i false := by
  simp only [ifrMasked, ifrLive, BitVec.getLsbD_and, bits_getLsbD, anySlotIrq_eq]
  match i with
  | 0 | 1 | 2 | 3 | 4 | 5 | 6 | 7 => simp [raises, pends, Source.bit]
  | i + 8 => simp

theorem ifrMasked_iff (i : Nat) : (s.ifrMasked w).getLsbD i = true ↔
    ∃ k : Source, k.bit = i ∧ s.raises w k = true := by
  rw [ifrMasked_getLsbD]
  constructor
  · intro set_
    match i with
    | 0 => exact ⟨.drq, rfl, set_⟩
    | 1 => exact ⟨.slot, rfl, set_⟩
    | 3 => exact ⟨.scsi, rfl, set_⟩
    | 4 => exact ⟨.asc, rfl, set_⟩
    | 2 | i + 5 => simp at set_
  · rintro ⟨k, rfl, up⟩
    cases k <;> exact up

theorem irqPending_iff : s.irqPending w = true ↔ ∃ k, s.raises w k = true := by
  rw [irqPending, any_bit]
  simp only [ifrMasked_getLsbD]
  constructor
  · intro any
    simp only [List.getD_cons_zero, List.getD_cons_succ, List.getD_nil, Bool.or_false,
      Bool.or_eq_true] at any
    rcases any with ((drq | slot) | scsi) | asc
    · exact ⟨.drq, drq⟩
    · exact ⟨.slot, slot⟩
    · exact ⟨.scsi, scsi⟩
    · exact ⟨.asc, asc⟩
  · rintro ⟨k, up⟩
    cases k <;> simp [up]

theorem ifrRead_top : (s.ifrRead w).getLsbD 7 = s.irqPending w := by
  unfold ifrRead
  cases pending : s.irqPending w <;> simp

theorem ifrRead_pending (pending : s.irqPending w = true) {i : Nat} (low : i < 7) :
    (s.ifrRead w).getLsbD i = (s.ifrMasked w).getLsbD i := by
  rw [ifrRead, if_pos pending, BitVec.getLsbD_or]
  match i with
  | 0 | 1 | 2 | 3 | 4 | 5 | 6 => simp
  | i + 7 => omega

end Lines

/-! ## A repeated write -/

/-- The write has nothing left to do but to clear the flags. -/
def Settled (r : Register) (data : Byte) (s : PseudoVia) : Prop :=
  s.store r data =
    { s with
      ifrAsc := s.ifrAsc && !(decide (r = .ifr) && data.getLsbD 4)
      vblPendingN := s.vblPendingN || (decide (r = .slotStatus) && data.getLsbD 6) }

section Repeat

variable {w : PviaIn} {s : PseudoVia} {r : Register} {data : Byte}

theorem setOrClear_twice (x data : Byte) :
    setOrClear (setOrClear x data) data = setOrClear x data := by
  unfold setOrClear
  split
  · rw [BitVec.or_assoc, BitVec.or_self]
  · rw [BitVec.and_assoc, BitVec.and_self]

theorem store_slotStatus :
    s.store .slotStatus data = { s with vblPendingN := s.vblPendingN || data.getLsbD 6 } := by
  unfold store
  cases data.getLsbD 6 <;> simp

theorem settled_store : Settled r data (s.store r data) := by
  cases r with
  | slotIer => simp [Settled, store, setOrClear_twice]
  | ier =>
    have twice : ∀ x : Byte,
        (if data = 0xff then (0x1f : Byte) else
          setOrClear (if data = 0xff then 0x1f else setOrClear x data) data) =
          if data = 0xff then 0x1f else setOrClear x data := by
      intro x
      split
      · rfl
      · exact setOrClear_twice x data
    simpa [Settled, store] using twice s.ier
  | slotStatus => simp [Settled, store_slotStatus]
  | _ => simp [Settled, store]

/-- What the sources do in between leaves a write settled. -/
theorem settled_tick (settled : Settled r data s) : Settled r data (s.tick w) := by
  cases r with
  | slotStatus => simp [Settled, store_slotStatus]
  | _ => simp_all [Settled, store, tick]

theorem store_ifrAsc :
    (s.store r data).ifrAsc = (s.ifrAsc && !(decide (r = .ifr) && data.getLsbD 4)) := by
  cases r with
  | slotStatus => simp [store_slotStatus]
  | _ => simp [store]

theorem store_vblPendingN : (s.store r data).vblPendingN =
    (s.vblPendingN || (decide (r = .slotStatus) && data.getLsbD 6)) := by
  cases r with
  | slotStatus => simp [store_slotStatus]
  | _ => simp [store]

variable (live : resets w = false)

include live

theorem next_idle (off : w.req = false) : next w s = s.tick w := by
  obtain ⟨hard, soft⟩ := Bool.or_eq_false_iff.mp live
  simp [next, hard, soft, off]

theorem next_write (on : w.req = true) (dir : w.write = true) :
    next w s = (s.tick w).store (regSel w.addr) w.dataIn := by
  obtain ⟨hard, soft⟩ := Bool.or_eq_false_iff.mp live
  simp [next, hard, soft, on, dir]

theorem next_read (on : w.req = true) (dir : w.write = false) :
    next w s = { s.tick w with dataOut := s.load w (regSel w.addr) } := by
  obtain ⟨hard, soft⟩ := Bool.or_eq_false_iff.mp live
  simp [next, hard, soft, on, dir]

theorem next_ifrAsc :
    (next w s).ifrAsc = ((s.ifrAsc || s.ascRise w) && !acks w .ifr 4) := by
  have flag : (s.tick w).ifrAsc = (s.ifrAsc || s.ascRise w) := rfl
  cases on : w.req with
  | false => simp [next_idle live on, flag, acks, on]
  | true =>
    cases dir : w.write with
    | false => simp [next_read live on dir, flag, acks, dir]
    | true => simp [next_write live on dir, store_ifrAsc, flag, acks, on, dir, live]

theorem next_vblPendingN : (next w s).vblPendingN =
    ((if s.vblStart w then false else if s.vblEnd w then true else s.vblPendingN) ||
      acks w .slotStatus 6) := by
  have flag : (s.tick w).vblPendingN =
      if s.vblStart w then false else if s.vblEnd w then true else s.vblPendingN := rfl
  cases on : w.req with
  | false => simp [next_idle live on, flag, acks, on]
  | true =>
    cases dir : w.write with
    | false => simp [next_read live on dir, flag, acks, dir]
    | true => simp [next_write live on dir, store_vblPendingN, flag, acks, on, dir, live]

end Repeat

theorem next_irqOut (w : PviaIn) (s : PseudoVia) :
    (next w s).irqOut = (!resets w && s.irqPending w) := by
  cases live : resets w with
  | true =>
    rcases Bool.or_eq_true_iff.mp live with hard | soft
    · simp [next, hard, initial]
    · cases hard : w.reset <;> simp [next, hard, soft, initial]
  | false =>
    have out : (s.tick w).irqOut = s.irqPending w := rfl
    cases on : w.req with
    | false => simp [next_idle live on, out]
    | true =>
      cases dir : w.write with
      | false => simp [next_read live on dir, out]
      | true =>
        have kept : ∀ r data, ((s.tick w).store r data).irqOut = (s.tick w).irqOut := by
          intro r data
          cases r with
          | slotStatus => rw [store_slotStatus]
          | _ => rfl
        simp [next_write live on dir, kept, out]

/-- The address, the direction and the data of the access of a clock. -/
structure Writing (w : Nat → PviaIn) (t : Nat) (r : Register) (data : Byte) : Prop where
  select : (w t).select = true
  write : (w t).write = true
  reg : regSel (w t).addr = r
  data : (w t).dataIn = data

section Runs

variable {w : Nat → PviaIn} {s : PseudoVia} {r : Register} {data : Byte} {t : Nat}

theorem seen_succ (seen_ : seen w (t + 1) = true) :
    (w t).select = true ∧ resets (w t) = false ∧ (seen w t = true ∨ (w t).req = true) := by
  simp only [seen, Bool.and_eq_true, Bool.not_eq_true', Bool.or_eq_true] at seen_
  exact ⟨seen_.1.1, seen_.1.2, seen_.2⟩

theorem Writing.back (stable : Stable w) (writing : Writing w (t + 1) r data)
    (select : (w t).select = true) : Writing w t r data := by
  obtain ⟨addr, dataIn, dir⟩ := stable t select writing.select
  exact ⟨select, dir ▸ writing.write, addr ▸ writing.reg, dataIn ▸ writing.data⟩

theorem Writing.acks (writing : Writing w t r data) (live : resets (w t) = false)
    (on : (w t).req = true) (i : Nat) : acks (w t) r i = data.getLsbD i := by
  simp [PseudoVia.acks, on, writing.write, live, writing.reg, writing.data]

/-- After its first strobe a write is settled for the rest of the access. -/
theorem settled_run (stable : Stable w) (writing : Writing w t r data)
    (seen_ : seen w t = true) : Settled r data (s.after w t) := by
  induction t with
  | zero => exact absurd seen_ Bool.false_ne_true
  | succ t ih =>
    obtain ⟨select, live, before⟩ := seen_succ seen_
    have earlier := writing.back stable select
    change Settled r data (next (w t) (s.after w t))
    by_cases on : (w t).req = true
    · rw [next_write live on earlier.write, earlier.reg, earlier.data]
      exact settled_store
    · rw [next_idle live (Bool.eq_false_iff.mpr on)]
      exact settled_tick (ih earlier (before.resolve_right on))

/-- A flag of the sound chip within an acknowledging write has come since its first strobe. -/
theorem asc_since (stable : Stable w) (writing : Writing w t .ifr data)
    (ack : data.getLsbD 4 = true) (seen_ : seen w t = true)
    (flag : (s.after w t).ifrAsc = true) :
    ∃ e < t, (s.after w e).ascRise (w e) = true ∧ ∀ u, e ≤ u → u < t → seen w u = true := by
  induction t with
  | zero => exact absurd seen_ Bool.false_ne_true
  | succ t ih =>
    obtain ⟨select, live, before⟩ := seen_succ seen_
    have earlier := writing.back stable select
    change (next (w t) (s.after w t)).ifrAsc = true at flag
    rw [next_ifrAsc live, Bool.and_eq_true, Bool.not_eq_true'] at flag
    have off : (w t).req ≠ true := fun on => by
      rw [earlier.acks live on, ack] at flag
      exact absurd flag.2.symm Bool.false_ne_true
    have here := before.resolve_right off
    rcases Bool.or_eq_true_iff.mp flag.1 with old | rise
    · obtain ⟨e, order, rise, inside⟩ := ih earlier here old
      refine ⟨e, Nat.lt_succ_of_lt order, rise, fun u from_ upTo => ?_⟩
      rcases Nat.lt_succ_iff_lt_or_eq.mp upTo with lt | rfl
      · exact inside u from_ lt
      · exact here
    · refine ⟨t, Nat.lt_succ_self t, rise, fun u from_ upTo => ?_⟩
      obtain rfl : u = t := by omega
      exact here

/-- The same for the flag of the vertical blank. -/
theorem vbl_since (stable : Stable w) (writing : Writing w t .slotStatus data)
    (ack : data.getLsbD 6 = true) (seen_ : seen w t = true)
    (flag : (s.after w t).vblPendingN = false) :
    ∃ e < t, (s.after w e).vblStart (w e) = true ∧
      (∀ u, e < u → u < t → (s.after w u).vblEnd (w u) = false) ∧
      ∀ u, e ≤ u → u < t → seen w u = true := by
  induction t with
  | zero => exact absurd seen_ Bool.false_ne_true
  | succ t ih =>
    obtain ⟨select, live, before⟩ := seen_succ seen_
    have earlier := writing.back stable select
    change (next (w t) (s.after w t)).vblPendingN = false at flag
    rw [next_vblPendingN live, Bool.or_eq_false_iff] at flag
    have off : (w t).req ≠ true := fun on => by
      rw [earlier.acks live on, ack] at flag
      exact absurd flag.2.symm Bool.false_ne_true
    have here := before.resolve_right off
    by_cases start : (s.after w t).vblStart (w t) = true
    · refine ⟨t, Nat.lt_succ_self t, start, fun u after_ upTo => by omega, fun u from_ upTo => ?_⟩
      obtain rfl : u = t := by omega
      exact here
    · have goesOn : (s.after w t).vblEnd (w t) = false := by
        by_contra ends
        simp [start, ends] at flag
      have old : (s.after w t).vblPendingN = false := by simpa [start, goesOn] using flag.1
      obtain ⟨e, order, start, open_, inside⟩ := ih earlier here old
      refine ⟨e, Nat.lt_succ_of_lt order, start, fun u after_ upTo => ?_, fun u from_ upTo => ?_⟩
      · rcases Nat.lt_succ_iff_lt_or_eq.mp upTo with lt | rfl
        · exact open_ u after_ lt
        · exact goesOn
      · rcases Nat.lt_succ_iff_lt_or_eq.mp upTo with lt | rfl
        · exact inside u from_ lt
        · exact here

theorem once_of_first (first : (seen w t && (w t).write) = false) : once w t = w t := by
  rw [once, first, if_neg Bool.false_ne_true]

/-- A clock that leaves out a strobe it has had leaves the events of the sources. -/
theorem next_once (again : (seen w t && (w t).write) = true) (live : resets (w t) = false) :
    next (once w t) s = s.tick (w t) := by
  have alone : once w t = { w t with cpuBusControl := false } := by rw [once, again, if_pos rfl]
  have off : (once w t).req = false := by rw [alone, PviaIn.req, Bool.and_false]
  have live : resets (once w t) = false := by rw [alone]; exact live
  rw [next_idle live off, alone]
  rfl

theorem next_once_resets (down : resets (w t) = true) :
    next (once w t) s = next (w t) s := by
  cases again : seen w t && (w t).write with
  | false => rw [once_of_first again]
  | true =>
    rw [once, again, if_pos rfl]
    rcases Bool.or_eq_true_iff.mp down with hard | soft
    · simp [next, hard]
    · simp [next, soft]

/-- The access that a strobe belongs to. -/
theorem writing_of_req (on : (w t).req = true) (dir : (w t).write = true) :
    Writing w t (regSel (w t).addr) (w t).dataIn :=
  ⟨(Bool.and_eq_true_iff.mp on).1, dir, rfl, rfl⟩

theorem seen_next (live : resets (w t) = false) (on : (w t).req = true) :
    seen w (t + 1) = true := by
  simp [seen, live, on, (Bool.and_eq_true_iff.mp on).1]

theorem acks_iff {i : Nat} : acks (w t) r i = true ↔
    (w t).req = true ∧ resets (w t) = false ∧ Writing w t r (w t).dataIn ∧
      (w t).dataIn.getLsbD i = true := by
  constructor
  · intro ack
    simp only [acks, Bool.and_eq_true, Bool.not_eq_true', decide_eq_true_eq] at ack
    obtain ⟨⟨⟨⟨on, dir⟩, live⟩, reg⟩, bit⟩ := ack
    exact ⟨on, live, ⟨(Bool.and_eq_true_iff.mp on).1, dir, reg, rfl⟩, bit⟩
  · rintro ⟨on, live, writing, bit⟩
    rw [writing.acks live on, bit]

/-- The flags at a strobe that is not the first, if no event is lost there. -/
theorem flags_at_strobe (stable : Stable w) (asc : ∀ e, ¬ s.LosesAsc w e t)
    (vbl : ∀ e, ¬ s.LosesVbl w e t) (again : seen w t = true) :
    (acks (w t) .ifr 4 = true → ((s.after w t).tick (w t)).ifrAsc = false) ∧
      (acks (w t) .slotStatus 6 = true → ((s.after w t).tick (w t)).vblPendingN = true) := by
  have upTo : ∀ {e}, (∀ u, e ≤ u → u < t → seen w u = true) →
      ∀ u, e ≤ u → u ≤ t → seen w u = true := by
    intro e inside u from_ le
    rcases Nat.lt_or_eq_of_le le with lt | rfl
    · exact inside u from_ lt
    · exact again
  constructor
  · intro strobe
    obtain ⟨-, -, writing, bit⟩ := acks_iff.mp strobe
    by_contra flag
    have flag : ((s.after w t).ifrAsc || (s.after w t).ascRise (w t)) = true :=
      Bool.not_eq_false _ ▸ flag
    rcases Bool.or_eq_true_iff.mp flag with old | rise
    · obtain ⟨e, order, rise, inside⟩ := asc_since stable writing bit again old
      exact asc e ⟨Nat.le_of_lt order, rise, upTo inside, strobe⟩
    · exact asc t ⟨Nat.le_refl t, rise, upTo fun u from_ lt => by omega, strobe⟩
  · intro strobe
    obtain ⟨-, -, writing, bit⟩ := acks_iff.mp strobe
    by_contra flag
    by_cases start : (s.after w t).vblStart (w t) = true
    · exact vbl t ⟨Nat.le_refl t, start, fun u after_ le => by omega,
        upTo fun u from_ lt => by omega, strobe⟩
    · have goesOn : (s.after w t).vblEnd (w t) = false := by
        by_contra ends
        simp [tick, start, ends] at flag
      have old : (s.after w t).vblPendingN = false := by
        simpa [tick, start, goesOn] using flag
      obtain ⟨e, order, start, open_, inside⟩ := vbl_since stable writing bit again old
      refine vbl e ⟨Nat.le_of_lt order, start, fun u after_ le => ?_, upTo inside, strobe⟩
      rcases Nat.lt_or_eq_of_le le with lt | rfl
      · exact open_ u after_ lt
      · exact goesOn

/-- A repeated strobe that finds nothing new does nothing. -/
theorem next_eq_once (stable : Stable w) (asc : ∀ e, ¬ s.LosesAsc w e t)
    (vbl : ∀ e, ¬ s.LosesVbl w e t) :
    next (w t) (s.after w t) = next (once w t) (s.after w t) := by
  cases again : seen w t && (w t).write with
  | false => rw [once_of_first again]
  | true =>
    cases live : resets (w t) with
    | true => rw [next_once_resets live]
    | false =>
      rw [next_once again live]
      obtain ⟨seen_, dir⟩ := Bool.and_eq_true_iff.mp again
      cases on : (w t).req with
      | false => rw [next_idle live on]
      | true =>
        have writing := writing_of_req on dir
        obtain ⟨ascClear, vblClear⟩ := flags_at_strobe stable asc vbl seen_
        have settled : Settled (regSel (w t).addr) (w t).dataIn ((s.after w t).tick (w t)) :=
          settled_tick (settled_run stable writing seen_)
        have ack : ∀ r i, acks (w t) r i =
            (decide (regSel (w t).addr = r) && (w t).dataIn.getLsbD i) := by
          intro r i
          simp [acks, on, dir, live]
        have ascSame : (((s.after w t).tick (w t)).ifrAsc &&
            !(decide (regSel (w t).addr = .ifr) && (w t).dataIn.getLsbD 4)) =
              ((s.after w t).tick (w t)).ifrAsc := by
          cases strobe : acks (w t) .ifr 4 with
          | false => rw [← ack, strobe, Bool.not_false, Bool.and_true]
          | true => rw [ascClear strobe, Bool.false_and]
        have vblSame : (((s.after w t).tick (w t)).vblPendingN ||
            (decide (regSel (w t).addr = .slotStatus) && (w t).dataIn.getLsbD 6)) =
              ((s.after w t).tick (w t)).vblPendingN := by
          cases strobe : acks (w t) .slotStatus 6 with
          | false => rw [← ack, strobe, Bool.or_false]
          | true => rw [vblClear strobe, Bool.true_or]
        rw [next_write live on dir, settled, ascSame, vblSame]

theorem after_once (stable : Stable w) (asc : ∀ e v, ¬ s.LosesAsc w e v)
    (vbl : ∀ e v, ¬ s.LosesVbl w e v) (t : Nat) : s.after w t = s.after (once w) t := by
  induction t with
  | zero => rfl
  | succ t ih =>
    change next (w t) (s.after w t) = next (once w t) (s.after (once w) t)
    rw [next_eq_once stable (asc · t) (vbl · t), ih]

/-- An event that no repeated strobe meets is found as long as the access lasts. -/
theorem asc_kept (asc : ∀ e v, ¬ s.LosesAsc w e v) {e : Nat} (order : e < t)
    (rise : (s.after w e).ascRise (w e) = true)
    (inside : ∀ u, e ≤ u → u ≤ t → seen w u = true) : (s.after w t).ifrAsc = true := by
  induction t, order using Nat.le_induction with
  | base =>
    change (next (w e) (s.after w e)).ifrAsc = true
    have live := (seen_succ (inside (e + 1) (Nat.le_succ e) (Nat.le_refl _))).2.1
    have clear : acks (w e) .ifr 4 = false := by
      refine Bool.eq_false_iff.mpr fun strobe => asc e e ⟨Nat.le_refl e, rise, ?_, strobe⟩
      exact fun u from_ le => inside u from_ (Nat.le_succ_of_le le)
    rw [next_ifrAsc live, rise, clear, Bool.or_true]
    rfl
  | succ t order ih =>
    have ih := ih fun u from_ le => inside u from_ (Nat.le_succ_of_le le)
    change (next (w t) (s.after w t)).ifrAsc = true
    have live := (seen_succ (inside (t + 1) (by omega) (Nat.le_refl _))).2.1
    have clear : acks (w t) .ifr 4 = false := by
      refine Bool.eq_false_iff.mpr fun strobe => asc e t ⟨Nat.le_of_lt order, rise, ?_, strobe⟩
      exact fun u from_ le => inside u from_ (Nat.le_succ_of_le le)
    rw [next_ifrAsc live, ih, clear, Bool.true_or]
    rfl

theorem vbl_kept (vbl : ∀ e v, ¬ s.LosesVbl w e v) {e : Nat} (order : e < t)
    (start : (s.after w e).vblStart (w e) = true)
    (goesOn : ∀ u, e < u → u < t → (s.after w u).vblEnd (w u) = false)
    (inside : ∀ u, e ≤ u → u ≤ t → seen w u = true) : (s.after w t).vblPendingN = false := by
  induction t, order using Nat.le_induction with
  | base =>
    change (next (w e) (s.after w e)).vblPendingN = false
    have live := (seen_succ (inside (e + 1) (Nat.le_succ e) (Nat.le_refl _))).2.1
    have clear : acks (w e) .slotStatus 6 = false := by
      refine Bool.eq_false_iff.mpr fun strobe =>
        vbl e e ⟨Nat.le_refl e, start, fun u after_ le => by omega, ?_, strobe⟩
      exact fun u from_ le => inside u from_ (Nat.le_succ_of_le le)
    rw [next_vblPendingN live, start, clear, if_pos rfl]
    rfl
  | succ t order ih =>
    have order : e < t := order
    have ih := ih (fun u after_ lt => goesOn u after_ (Nat.lt_succ_of_lt lt))
      fun u from_ le => inside u from_ (Nat.le_succ_of_le le)
    change (next (w t) (s.after w t)).vblPendingN = false
    have live := (seen_succ (inside (t + 1) (by omega) (Nat.le_refl _))).2.1
    have clear : acks (w t) .slotStatus 6 = false := by
      refine Bool.eq_false_iff.mpr fun strobe =>
        vbl e t ⟨Nat.le_of_lt order, start, fun u after_ le => ?_, ?_, strobe⟩
      · exact goesOn u after_ (Nat.lt_succ_of_le le)
      · exact fun u from_ le => inside u from_ (Nat.le_succ_of_le le)
    rw [next_vblPendingN live, ih, clear, goesOn t order (Nat.lt_succ_self t)]
    simp

theorem dataOut_held (live : (w t).reset = false) (off : readStrobe (w t) = false) :
    (next (w t) s).dataOut = s.dataOut := by
  cases soft : (w t).softRst with
  | true => simp [next, live, soft]
  | false =>
    have live : resets (w t) = false := by rw [resets, live, soft]; rfl
    cases on : (w t).req with
    | false => rw [next_idle live on]; rfl
    | true =>
      have dir : (w t).write = true := by simpa [readStrobe, on, live] using off
      rw [next_write live on dir]
      cases regSel (w t).addr with
      | slotStatus => rw [store_slotStatus]; rfl
      | _ => rfl

theorem readStrobe_iff : readStrobe (w t) = true ↔
    ((w t).req = true ∧ (w t).write = false) ∧ resets (w t) = false := by
  simp [readStrobe]

/-- The value of a read stays until the next. -/
theorem read_value {u : Nat} (order : u < t) (strobe : readStrobe (w u) = true)
    (held : ∀ v, u < v → v < t → (w v).reset = false ∧ readStrobe (w v) = false) :
    (s.after w t).dataOut = (s.after w u).load (w u) (regSel (w u).addr) := by
  induction t, order using Nat.le_induction with
  | base =>
    obtain ⟨⟨on, dir⟩, live⟩ := readStrobe_iff.mp strobe
    change (next (w u) (s.after w u)).dataOut = _
    rw [next_read live on dir]
  | succ t order ih =>
    have order : u < t := order
    obtain ⟨live, off⟩ := held t order (Nat.lt_succ_self t)
    change (next (w t) (s.after w t)).dataOut = _
    rw [dataOut_held live off]
    exact ih fun v after_ lt => held v after_ (Nat.lt_succ_of_lt lt)

/-- The output and the flags follow the sources in every clock. -/
theorem shows (s : PseudoVia) (w : Nat → PviaIn) (t : Nat) : s.Shows w t where
  irqOut := by
    change (next (w t) (s.after w t)).irqOut = true ↔ _
    rw [next_irqOut, Bool.and_eq_true, Bool.not_eq_true', irqPending_iff]
  top := by rw [ifrRead_top, irqPending_iff]
  exactly := by
    intro some_ i low
    rw [ifrRead_pending (irqPending_iff.mpr some_) low, ifrMasked_iff]

end Runs

/-- **Accesses to the pseudo-VIA.** Every access acts once, with the output and the flags
those of the sources, exactly if no acknowledging write repeats its strobe after an event of
its source that came since its first. -/
theorem acts_once_iff (s : PseudoVia) (w : Nat → PviaIn) (stable : Stable w) :
    (s.ActsOnce w ∧ ∀ t, s.Shows w t) ↔
      ∀ e v, ¬ s.LosesAsc w e v ∧ ¬ s.LosesVbl w e v := by
  constructor
  · rintro ⟨acts, -⟩ e v
    have whole : ∀ {r : Register} {i : Nat}, acks (w v) r i = true →
        (∀ u, e ≤ u → u ≤ v → seen w u = true) → ∀ u, e ≤ u → u ≤ v + 1 → seen w u = true := by
      intro r i strobe inside u from_ le
      obtain ⟨on, live, -, -⟩ := acks_iff.mp strobe
      rcases Nat.lt_or_eq_of_le le with lt | rfl
      · exact inside u from_ (Nat.le_of_lt_succ lt)
      · exact seen_next live on
    constructor
    · intro lost
      obtain ⟨-, live, -, -⟩ := acks_iff.mp lost.strobe
      have flag : (next (w v) (s.after w v)).ifrAsc = true :=
        acts.asc e (v + 1) (Nat.lt_succ_of_le lost.order) lost.rise (whole lost.strobe lost.inside)
      rw [next_ifrAsc live, lost.strobe, Bool.not_true, Bool.and_false] at flag
      exact Bool.false_ne_true flag
    · intro lost
      obtain ⟨-, live, -, -⟩ := acks_iff.mp lost.strobe
      have flag : (next (w v) (s.after w v)).vblPendingN = false :=
        acts.vbl e (v + 1) (Nat.lt_succ_of_le lost.order) lost.start
          (fun u after_ lt => lost.goesOn u after_ (Nat.le_of_lt_succ lt))
          (whole lost.strobe lost.inside)
      rw [next_vblPendingN live, lost.strobe, Bool.or_true] at flag
      exact Bool.false_ne_true flag.symm
  · intro clean
    have asc : ∀ e v, ¬ s.LosesAsc w e v := fun e v => (clean e v).1
    have vbl : ∀ e v, ¬ s.LosesVbl w e v := fun e v => (clean e v).2
    refine ⟨?_, shows s w⟩
    exact
      { write := after_once stable asc vbl
        read := fun u t order strobe held => read_value order strobe held
        readsOnly := by
          intro t strobe
          obtain ⟨⟨on, dir⟩, live⟩ := readStrobe_iff.mp strobe
          change next (w t) (s.after w t) =
            { (s.after w t).tick (w t) with dataOut := (next (w t) (s.after w t)).dataOut }
          rw [next_read live on dir]
        asc := fun e t order rise inside => asc_kept asc order rise inside
        vbl := fun e t order start goesOn inside => vbl_kept vbl order start goesOn inside }

/-- A write that clears the flag of the sound chip, in all the slots of a long cycle; the
sound chip asks for service from clock `rise` on. -/
def ackWrite (rise t : Nat) : PviaIn where
  select := decide (1 ≤ t ∧ t < 30)
  cpuBusControl := decide (t / 4 % 4 ≠ 2)
  write := true
  addr := 3
  dataIn := 0x10
  ascIrq := decide (rise ≤ t ∧ rise ≠ 0)

theorem ackWrite_stable (rise : Nat) : Stable (ackWrite rise) :=
  fun _ _ _ => ⟨rfl, rfl, rfl⟩

theorem ack_quiet : initial.ActsOnce (ackWrite 0) ∧ ∀ t, initial.Shows (ackWrite 0) t := by
  refine (acts_once_iff initial (ackWrite 0) (ackWrite_stable 0)).mpr fun e v => ⟨?_, ?_⟩
  · exact fun lost => absurd lost.rise (by simp [ascRise, ackWrite])
  · exact fun lost => absurd lost.start (by simp [vblStart, ackWrite])

theorem edge_lost : ¬ (initial.ActsOnce (ackWrite 5) ∧ ∀ t, initial.Shows (ackWrite 5) t) := by
  rintro ⟨acts, -⟩
  have inside : ∀ u ≤ 30, 5 ≤ u → seen (ackWrite 5) u = true := by decide
  have flag := acts.asc 5 30 (by decide) (by decide) fun u from_ le => inside u le from_
  revert flag
  decide

end PseudoVia

end MacIIvi
