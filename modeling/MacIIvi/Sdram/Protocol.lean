import MacIIvi.Sdram.Controller
import Mathlib.Algebra.Order.Group.Nat

/-!
# The command bus

Whatever the chipset asks for, and whenever the initialisation is run again, the chips get
no command too early: the slots keep the distances of their rules, every access finds the
row that its slot opened, and both chips are initialised before the first slot.
-/

namespace MacIIvi

namespace Sdram

variable {w : SdramIn} {s : Sdram} {i : Nat → SdramIn} {p n : Nat}

/-! ## The counter -/

/-- The chipset clock: high for four clocks and low for four. -/
def Chipset (i : Nat → SdramIn) (p : Nat) : Prop := ∀ n, (i n).clk8 = decide ((n + p) % 8 < 4)

/-- The counter `n` clocks after it was `t`, with the chipset clock. -/
def counted (p t : Nat) : Nat → Nat
  | 0 => t
  | n + 1 => tNext { clk8 := decide ((n + p) % 8 < 4) }
      { t := counted p t n, reset := 0, sdCmd := .inhibit, sdCs := true, sdAddr := 0, sdBa := 0
        sdDrive := none, oeLatch := false, weLatch := false, rfshChip := false, addrLatch := 0
        dout := 0, doutAddr := 0, doutValid := false }

theorem counted_mod (p t n : Nat) : counted (p % 8) t n = counted p t n := by
  induction n with
  | zero => rfl
  | succ n ih => rw [counted, counted, ih, Nat.add_mod_mod]

/-- From any state on the counter is in step after fifteen clocks. -/
theorem counted_locks (p : Nat) {t : Nat} (small : t < 8) : counted p t 15 = (15 + p) % 8 := by
  have all : ∀ p < 8, ∀ t < 8, counted p t 15 = (15 + p) % 8 := by decide +kernel
  rw [← counted_mod, all (p % 8) (Nat.mod_lt _ (by decide)) t small, Nat.add_mod_mod]

theorem step_t : (s.step w).t = s.tNext w := by
  unfold step ladder start column arrive
  dsimp only
  repeat' split
  all_goals rfl

theorem step_reset : (s.step w).reset = s.resetNext w := by
  unfold step ladder start column arrive
  dsimp only
  repeat' split
  all_goals rfl

/-- A counter in step stays so. -/
theorem tNext_locked {q : Nat} (high : w.clk8 = decide (q % 8 < 4)) (here : s.t = q % 8) :
    s.tNext w = (q + 1) % 8 := by
  unfold tNext
  rw [if_pos, here, Nat.mod_add_mod]
  simp only [high, here, decide_eq_false_iff_not, decide_eq_true_eq]
  omega

end Sdram

namespace SdramSystem

open Sdram (Chipset counted)

variable {i : Nat → SdramIn} {p n : Nat} {y : SdramSystem}

theorem after_t (clock : Chipset i p) (n : Nat) :
    (y.after i n).ctl.t = counted p y.ctl.t n := by
  induction n with
  | zero => rfl
  | succ n ih =>
    have here : (y.after i (n + 1)).ctl.t = (y.after i n).ctl.tNext (i n) := Sdram.step_t
    rw [here, counted, Sdram.tNext, Sdram.tNext, ih, clock n]

theorem locked (clock : Chipset i p) (small : y.ctl.t < 8) (late : 15 ≤ n) :
    (y.after i n).ctl.t = (n + p) % 8 := by
  induction n, late using Nat.le_induction with
  | base => rw [after_t clock, Sdram.counted_locks p small]
  | succ n late ih =>
    have here : (y.after i (n + 1)).ctl.t = (y.after i n).ctl.tNext (i n) := Sdram.step_t
    rw [here, Sdram.tNext_locked (clock n) ih, Nat.add_right_comm]

end SdramSystem

namespace Sdram

/-! ## What holds between a slot and its chips -/

/-- The slots of the initialisation from this number on are done. -/
def stage (s : Sdram) : Nat := if s.t = 0 then s.reset + 1 else s.reset

/-- Clocks since the last command to a row or to the chip, at least. -/
def rowAge (t : Nat) : Nat := if t = 0 then 8 else t

/-- Clocks since the last access, at least. -/
def columnAge (t : Nat) : Nat := if t = 0 then 6 else if t < 3 then t + 6 else t - 2

/-- The slot has opened a row of this chip and has not accessed it yet. -/
structure Opening (s : Sdram) (d : Bool) : Prop where
  normal : s.reset = 0
  early : s.t = 1 ∨ s.t = 2
  access : (s.weLatch || s.oeLatch) = true
  chip : chip s.addrLatch = d

/-- What the chip `d` has had. -/
structure Served (s : Sdram) (d : Bool) (c : Chip) : Prop where
  elapsed : c.precharged = false →
    8 * (0x3ff - s.reset) + s.t ≤ c.sinceRow + 136 ∧ c.sinceColumn = c.sinceRow
  rested : c.precharged = true → rowAge s.t ≤ c.sinceRow ∧ columnAge s.t ≤ c.sinceColumn
  precharged : s.stage ≤ 66 - d.toNat → c.precharged = true
  refreshed : (60 - d.toNat - max s.stage 43) / 2 ≤ c.refreshed
  mode : s.stage ≤ 4 - d.toNat → c.mode = some Sdram.mode
  closed : s.stage ≤ 66 - d.toNat → ∀ b, ¬(s.Opening d ∧ b = bank s.addrLatch) → c.opened b = none
  opened : s.Opening d → c.opened (bank s.addrLatch) = some (row s.addrLatch)
  pins : s.Opening d → s.sdBa = bank s.addrLatch

/-- The distances that the slots keep. -/
structure Fits (T : Dram.Timing) : Prop where
  powerUp : T.powerUp ≤ 7500
  refreshes : T.refreshes ≤ 8
  rcd : T.rcd ≤ 2
  row : T.row ≤ 8
  recover : T.recover ≤ 6

/-- A slot of the initialisation that is for the chip `d`. -/
def Slot (d : Bool) (r : Nat) : Prop :=
  r = 66 - d.toNat ∨ (43 ≤ r ∧ r ≤ 58 ∧ r % 2 = d.toNat) ∨ r = 4 - d.toNat

section Clock

variable {w : SdramIn} {s s' : Sdram} {d : Bool} {c : Chip} {T : Dram.Timing}

/-- The counters of the next clock. -/
structure Ticks (w : SdramIn) (s s' : Sdram) : Prop where
  small : s.t < 8
  t : s'.t = (s.t + 1) % 8
  reset : s'.reset = s.resetNext w

theorem stage_first (first : s.t = 0) : s.stage = s.reset + 1 := if_pos first

/-- What one clock does to the stage. -/
theorem Ticks.stage (tick : Ticks w s s') : (w.init = true ∧ s'.reset = 0x3ff ∧ 0x3ff ≤ s'.stage) ∨
    (w.init = false ∧ (s.t = 0 → s'.stage = s.reset ∧ s.stage = s.reset + 1 ∧ s'.reset = s.reset) ∧
      (s.t ≠ 0 → s.stage = s.reset ∧ s'.stage = max s.stage (if s.t = 7 then 1 else 0)) ∧
      (s.t ≠ 7 → s'.reset = s.reset) ∧ (s.t = 7 → s'.reset = s.reset - 1)) := by
  have small := tick.small
  have reset := tick.reset
  simp only [Sdram.stage, tick.t]
  unfold resetNext at reset
  cases init : w.init
  · right
    simp only [init, Bool.false_eq_true, if_false] at reset
    refine ⟨rfl, ?_, ?_, ?_, ?_⟩
    all_goals
      intro at_
      split at reset <;> grind
  · left
    simp only [init, if_true] at reset
    refine ⟨rfl, reset, ?_⟩
    split <;> omega

/-- A clock without a command. -/
theorem Served.idle (ok : s.Served d c) (tick : Ticks w s s')
    (noSlot : s.t = 0 → ¬ Slot d s.reset)
    (opens : s'.Opening d → s.Opening d ∧ s'.addrLatch = s.addrLatch ∧ s'.sdBa = s.sdBa)
    (stays : s.Opening d → s'.Opening d ∨ 66 < s'.stage) : s'.Served d (c.next .nop) := by
  have small := tick.small
  have next := tick.t
  have slot : s.t = 0 → _ := fun first => noSlot first
  simp only [Slot, not_or, not_and] at slot
  have one : d.toNat ≤ 1 := Bool.toNat_le d
  have steps := tick.stage
  constructor
  · intro raw
    obtain ⟨clocks, same⟩ := ok.elapsed raw
    refine ⟨?_, congrArg (· + 1) same⟩
    change _ ≤ c.sinceRow + 1 + 136
    grind
  · intro ready
    obtain ⟨row, column⟩ := ok.rested ready
    change rowAge s'.t ≤ c.sinceRow + 1 ∧ columnAge s'.t ≤ c.sinceColumn + 1
    simp only [rowAge, columnAge] at row column ⊢
    grind
  · intro late
    refine ok.precharged ?_
    grind
  · refine Nat.le_trans ?_ ok.refreshed
    grind
  · intro late
    refine ok.mode ?_
    grind
  · intro late b other
    refine ok.closed (by grind) b fun both => ?_
    rcases stays both.1 with on | far
    · exact other ⟨on, by rw [(opens on).2.1]; exact both.2⟩
    · omega
  · intro on
    obtain ⟨before, same, -⟩ := opens on
    rw [same]
    exact ok.opened before
  · intro on
    obtain ⟨before, address, bank⟩ := opens on
    rw [address, bank]
    exact ok.pins before

/-! ### The slots of the initialisation -/

theorem Served.atRest (ok : s.Served d c) (fits : Fits T) (first : s.t = 0)
    (ready : c.precharged = true) : c.Rested T := by
  obtain ⟨row, column⟩ := ok.rested ready
  simp only [rowAge, columnAge, first, if_true] at row column
  exact ⟨fits.row.trans row, fits.recover.trans column⟩

theorem Served.allClosed (ok : s.Served d c) (late : s.stage ≤ 66 - d.toNat)
    (no : ¬ s.Opening d) (b : BitVec 2) : c.opened b = none :=
  ok.closed late b fun both => no both.1

theorem Served.precharge (ok : s.Served d c) (fits : Fits T) (tick : Ticks w s s') (first : s.t = 0)
    (here : s.reset = 66 - d.toNat) :
    c.Accepts T (.precharge none) ∧ s'.Served d (c.next (.precharge none)) := by
  have one : d.toNat ≤ 1 := Bool.toNat_le d
  have steps := tick.stage
  have next := tick.t
  have long := fits.powerUp
  have row := fits.row
  have recover := fits.recover
  have aged : (c.precharged = true ∨ T.powerUp ≤ c.sinceRow) ∧ 8 ≤ c.sinceRow ∧ 6 ≤ c.sinceColumn := by
    cases ready : c.precharged
    · obtain ⟨clocks, same⟩ := ok.elapsed ready
      rw [same]
      exact ⟨.inr (by omega), by omega, by omega⟩
    · obtain ⟨row, column⟩ := ok.rested ready
      simp only [rowAge, columnAge, first, if_true] at row column
      exact ⟨.inl rfl, row, column⟩
  have away : 65 ≤ s'.stage ∧ s'.reset ≠ 0 := by grind
  refine ⟨⟨aged.1, by omega, by omega⟩, ?_⟩
  constructor
  · exact fun raw => absurd raw (by simp [Dram.Chip.next])
  · intro _
    change rowAge s'.t ≤ 1 ∧ columnAge s'.t ≤ c.sinceColumn + 1
    rw [next, first]
    exact ⟨Nat.le_refl 1, Nat.succ_le_succ aged.2.2⟩
  · exact fun _ => rfl
  · have none_ : (60 - d.toNat - max s'.stage 43) / 2 = 0 := by omega
    rw [none_]
    exact Nat.zero_le _
  · exact fun late => absurd late (by omega)
  · exact fun _ _ _ => rfl
  · exact fun on => absurd on.normal away.2
  · exact fun on => absurd on.normal away.2

theorem Served.refresh (ok : s.Served d c) (fits : Fits T) (tick : Ticks w s s') (first : s.t = 0)
    (slot : s.stage ≤ 66 - d.toNat)
    (counts : s.reset ≠ 0 → 43 ≤ s.reset ∧ s.reset ≤ 58 ∧ s.reset % 2 = d.toNat)
    (no : ¬ s'.Opening d) :
    c.Accepts T .refresh ∧ s'.Served d (c.next .refresh) := by
  have one : d.toNat ≤ 1 := Bool.toNat_le d
  have steps := tick.stage
  have ready := ok.precharged slot
  have idle : ¬ s.Opening d := fun on => by
    have := on.early
    omega
  have shut := ok.allClosed slot idle
  have rested := ok.rested ready
  simp only [rowAge, columnAge, first, if_true] at rested
  refine ⟨⟨ready, shut, ok.atRest fits first ready⟩, ?_⟩
  constructor
  · exact fun raw => absurd (ready.symm.trans raw) (by decide)
  · intro _
    change rowAge s'.t ≤ 1 ∧ columnAge s'.t ≤ c.sinceColumn + 1
    rw [tick.t, first]
    exact ⟨Nat.le_refl 1, Nat.succ_le_succ rested.2⟩
  · exact fun _ => ready
  · have had := ok.refreshed
    change _ ≤ c.refreshed + 1
    grind
  · exact fun late => ok.mode (by grind)
  · exact fun _ b _ => shut b
  · exact fun on => absurd on no
  · exact fun on => absurd on no

theorem Served.loadMode (ok : s.Served d c) (fits : Fits T) (tick : Ticks w s s') (first : s.t = 0)
    (here : s.reset = 4 - d.toNat) :
    c.Accepts T (.loadMode Sdram.mode) ∧ s'.Served d (c.next (.loadMode Sdram.mode)) := by
  have one : d.toNat ≤ 1 := Bool.toNat_le d
  have steps := tick.stage
  have at_ : s.stage = 5 - d.toNat := by
    rw [stage_first first, here]
    omega
  have ready := ok.precharged (by omega)
  have idle : ¬ s.Opening d := fun on => by
    have := on.early
    omega
  have shut := ok.allClosed (by omega) idle
  have rested := ok.rested ready
  have had := ok.refreshed
  have enough := fits.refreshes
  have no : ¬ s'.Opening d := fun on => by
    have := on.normal
    grind
  simp only [rowAge, columnAge, first, if_true] at rested
  refine ⟨⟨ready, by omega, shut, ok.atRest fits first ready⟩, ?_⟩
  constructor
  · exact fun raw => absurd (ready.symm.trans raw) (by decide)
  · intro _
    change rowAge s'.t ≤ 1 ∧ columnAge s'.t ≤ c.sinceColumn + 1
    rw [tick.t, first]
    exact ⟨Nat.le_refl 1, Nat.succ_le_succ rested.2⟩
  · exact fun _ => ready
  · change _ ≤ c.refreshed
    omega
  · exact fun _ => rfl
  · exact fun _ b _ => shut b
  · exact fun on => absurd on no
  · exact fun on => absurd on no

/-! ### The slots of the chipset -/

theorem Served.active (ok : s.Served d c) (fits : Fits T) (tick : Ticks w s s') (first : s.t = 0)
    (normal : s.reset = 0) (access : (s'.weLatch || s'.oeLatch) = true)
    (here : chip s'.addrLatch = d) (pins : s'.sdBa = bank s'.addrLatch) :
    c.Accepts T (.active (bank s'.addrLatch) (row s'.addrLatch)) ∧
      s'.Served d (c.next (.active (bank s'.addrLatch) (row s'.addrLatch))) := by
  have one : d.toNat ≤ 1 := Bool.toNat_le d
  have steps := tick.stage
  have at_ : s.stage = 1 := by rw [stage_first first, normal]
  have ready := ok.precharged (by omega)
  have idle : ¬ s.Opening d := fun on => by
    have := on.early
    omega
  have shut := ok.allClosed (by omega) idle
  have rested := ok.rested ready
  have had := ok.refreshed
  have enough := fits.refreshes
  have mode := ok.mode (by omega)
  simp only [rowAge, columnAge, first, if_true] at rested
  refine ⟨⟨⟨ready, by omega, by rw [mode]; rfl⟩, shut _, ok.atRest fits first ready⟩, ?_⟩
  have early : s'.t = 1 := by rw [tick.t, first]
  constructor
  · exact fun raw => absurd (ready.symm.trans raw) (by decide)
  · intro _
    change rowAge s'.t ≤ 1 ∧ columnAge s'.t ≤ c.sinceColumn + 1
    rw [early]
    exact ⟨Nat.le_refl 1, Nat.succ_le_succ rested.2⟩
  · exact fun _ => ready
  · change _ ≤ c.refreshed
    omega
  · exact fun _ => mode
  · intro late b other
    have normal' : s'.reset = 0 := by grind
    have apart : b ≠ bank s'.addrLatch := fun same =>
      other ⟨⟨normal', .inl early, access, here⟩, same⟩
    exact (Function.update_of_ne apart ..).trans (shut b)
  · exact fun _ => Function.update_self ..
  · exact fun _ => pins

/-- The access to the open row, a read or a write. -/
theorem Served.access (ok : s.Served d c) (fits : Fits T) (tick : Ticks w s s') (at_ : s.t = 2)
    (on : s.Opening d) {k : BitVec 10} (put : Option (BitVec 16 → BitVec 16)) :
    let cmd : ChipCommand :=
      match put with
      | some f => .write (bank s.addrLatch) k true f
      | none => .read (bank s.addrLatch) k true
    c.Accepts T cmd ∧ s'.Served d (c.next cmd) := by
  have one : d.toNat ≤ 1 := Bool.toNat_le d
  have steps := tick.stage
  have normal := on.normal
  have stage : s.stage = 0 := (if_neg (by omega)).trans normal
  have ready := ok.precharged (by omega)
  have open_ := ok.opened on
  have rested := ok.rested ready
  have rcd := fits.rcd
  have shut : ∀ b, c.closing (bank s.addrLatch) true b = none :=
    Dram.Chip.closing_closed fun b other => ok.closed (by omega) b fun both => other both.2
  have after : s'.t = 3 := by rw [tick.t, at_]
  have no : ¬ s'.Opening d := fun on' => by
    have := on'.early
    omega
  rw [at_] at rested
  change 2 ≤ c.sinceRow ∧ 8 ≤ c.sinceColumn at rested
  have served : ∀ c' : Chip, c'.opened = c.closing (bank s.addrLatch) true →
      c'.sinceRow = c.sinceRow + 1 → c'.sinceColumn = 1 → c'.precharged = c.precharged →
      c'.refreshed = c.refreshed → c'.mode = c.mode → s'.Served d c' := by
    intro c' opened sinceRow sinceColumn precharged refreshed mode
    constructor
    · exact fun raw => absurd (ready.symm.trans (precharged.symm.trans raw)) (by decide)
    · intro _
      rw [sinceRow, sinceColumn, after]
      exact ⟨Nat.succ_le_succ rested.1, Nat.le_refl 1⟩
    · exact fun _ => precharged.trans ready
    · have had := ok.refreshed
      omega
    · exact fun _ => mode.trans (ok.mode (by omega))
    · exact fun _ b _ => (congrFun opened b).trans (shut b)
    · exact fun on' => absurd on' no
    · exact fun on' => absurd on' no
  have accepts : (c.opened (bank s.addrLatch)).isSome = true ∧ T.rcd ≤ c.sinceRow :=
    ⟨by rw [open_]; rfl, by omega⟩
  cases put with
  | none => exact ⟨accepts, served _ rfl rfl rfl rfl rfl rfl⟩
  | some f => exact ⟨accepts, served _ rfl rfl rfl rfl rfl rfl⟩

/-! ### Every clock -/

theorem command_inhibit (quiet : s'.sdCmd = .inhibit) (bus : BitVec 16) :
    s'.command d bus = .nop := by
  unfold command
  split
  · rw [quiet]
  · rfl

theorem command_other (other : s'.sdCs ≠ d) (bus : BitVec 16) : s'.command d bus = .nop :=
  if_neg other

/-- The chip `d` accepts what the clock sends it and is served after it. -/
def Serves (T : Dram.Timing) (w : SdramIn) (s' : Sdram) (d : Bool) (c : Chip) : Prop :=
  c.Accepts T (s'.command d w.sdData) ∧ s'.Served d (c.next (s'.command d w.sdData))

theorem Served.nop (ok : s.Served d c) (tick : Ticks w s s')
    (none_ : s'.command d w.sdData = .nop) (noSlot : s.t = 0 → ¬ Slot d s.reset)
    (opens : s'.Opening d → s.Opening d ∧ s'.addrLatch = s.addrLatch ∧ s'.sdBa = s.sdBa)
    (stays : s.Opening d → s'.Opening d ∨ 66 < s'.stage) : Serves T w s' d c := by
  unfold Serves
  rw [none_]
  exact ⟨trivial, ok.idle tick noSlot opens stays⟩

theorem Served.ladder (ok : s.Served d c) (fits : Fits T) (tick : Ticks w s (s.ladder w))
    (busy : s.reset ≠ 0) : Serves T w (s.ladder w) d c := by
  have one : d.toNat ≤ 1 := Bool.toNat_le d
  have no : ¬ (s.ladder w).Opening d := fun on => by
    have := on.normal
    have := on.early
    have := tick.t
    have := tick.reset
    unfold resetNext at this
    grind
  have quiet (none_ : (s.ladder w).command d w.sdData = .nop)
      (noSlot : s.t = 0 → ¬ Slot d s.reset) : Serves T w (s.ladder w) d c :=
    ok.nop tick none_ noSlot (fun on => absurd on no) fun on => absurd on.normal busy
  by_cases first : s.t = 0
  · have parity : s.reset % 2 = d.toNat ↔ (s.reset % 2 == 1) = d := by
      cases d <;> simp
    by_cases mine : s.reset % 2 = d.toNat
    · have cs := parity.1 mine
      by_cases pre : s.reset = 66 ∨ s.reset = 65
      · have cmd : (s.ladder w).command d w.sdData = .precharge none := by
          simp [Sdram.ladder, first, pre, command, cs]
        unfold Serves
        rw [cmd]
        exact ok.precharge fits tick first (by omega)
      by_cases ref : 43 ≤ s.reset ∧ s.reset ≤ 58
      · have cmd : (s.ladder w).command d w.sdData = .refresh := by
          simp [Sdram.ladder, first, pre, ref, command, cs]
        unfold Serves
        rw [cmd]
        refine ok.refresh fits tick first ?_ (fun _ => ⟨ref.1, ref.2, mine⟩) no
        rw [stage_first first]
        omega
      by_cases load : s.reset = 4 ∨ s.reset = 3
      · have cmd : (s.ladder w).command d w.sdData = .loadMode Sdram.mode := by
          simp [Sdram.ladder, first, pre, ref, load, command, cs]
        unfold Serves
        rw [cmd]
        exact ok.loadMode fits tick first (by omega)
      · refine quiet (command_inhibit ?_ _) fun _ slot => ?_
        · simp [Sdram.ladder, first, pre, ref, load, Sdram.quiet]
        · unfold Slot at slot
          omega
    · refine quiet ?_ fun _ slot => ?_
      · have cs : ¬ (s.reset % 2 == 1) = d := fun same => mine (parity.2 same)
        unfold Sdram.ladder
        dsimp only
        rw [if_pos first]
        repeat' split
        · exact command_other cs _
        · exact command_other cs _
        · exact command_other cs _
        · exact command_inhibit rfl _
      · unfold Slot at slot
        omega
  · refine quiet (command_inhibit ?_ _) fun first' => absurd first' first
    simp [Sdram.ladder, first, Sdram.quiet]

theorem noSlot_normal (normal : s.reset = 0) : ¬ Slot d s.reset := by
  have one : d.toNat ≤ 1 := Bool.toNat_le d
  unfold Slot
  omega

theorem Served.start (ok : s.Served d c) (fits : Fits T) (tick : Ticks w s (s.start w))
    (normal : s.reset = 0) (first : s.t = 0) : Serves T w (s.start w) d c := by
  have before : ¬ s.Opening d := fun on => by
    have := on.early
    omega
  have quiet (none_ : (s.start w).command d w.sdData = .nop) (no : ¬ (s.start w).Opening d) :
      Serves T w (s.start w) d c :=
    ok.nop tick none_ (fun _ => noSlot_normal normal) (fun on => absurd on no)
      fun on => absurd on before
  by_cases request : (w.we || w.oe) = true
  · have same : s.start w =
        { s.quiet w with
          oeLatch := w.oe, weLatch := w.we, doutValid := if w.we then false else s.doutValid
          addrLatch := w.addr, sdCmd := .active, sdCs := chip w.addr, sdAddr := row w.addr
          sdBa := bank w.addr } := by
      unfold Sdram.start
      rw [if_pos request]
    by_cases here : chip w.addr = d
    · have active := ok.active fits tick first normal (by rw [same]; exact request)
        (by rw [same]; exact here) (by rw [same])
      have cmd : (s.start w).command d w.sdData =
          .active (bank (s.start w).addrLatch) (row (s.start w).addrLatch) := by
        rw [same]
        exact if_pos here
      unfold Serves
      rw [cmd]
      exact active
    · refine quiet ?_ fun on => here ?_
      · rw [same]
        exact command_other here _
      · have := on.chip
        rw [same] at this
        exact this
  · have same : s.start w =
        { s.quiet w with
          oeLatch := w.oe, weLatch := w.we, doutValid := if w.we then false else s.doutValid
          sdCmd := .autoRefresh, sdCs := s.rfshChip, rfshChip := !s.rfshChip } := by
      unfold Sdram.start
      rw [if_neg request]
    have no : ¬ (s.start w).Opening d := fun on => by
      have := on.access
      rw [same] at this
      exact request this
    by_cases here : s.rfshChip = d
    · have cmd : (s.start w).command d w.sdData = .refresh := by
        rw [same]
        exact if_pos here
      unfold Serves
      rw [cmd]
      refine ok.refresh fits tick first ?_ (fun busy => absurd normal busy) no
      have one : d.toNat ≤ 1 := Bool.toNat_le d
      rw [stage_first first, normal]
      omega
    · exact quiet (by rw [same]; exact command_other here _) no

/-- The column, the closing of the row and the byte masks share the pins. -/
theorem columnPins (q : BitVec 2) (k : BitVec 10) :
    (q ++ (1 : BitVec 1) ++ k).extractLsb' 0 10 = k ∧
      (q ++ (1 : BitVec 1) ++ k).getLsbD 10 = true ∧
      (q ++ (1 : BitVec 1) ++ k).extractLsb' 11 2 = q := by
  refine ⟨?_, ?_, ?_⟩
  · exact BitVec.extractLsb'_append_eq_right
  · rw [BitVec.getLsbD_append, BitVec.getLsbD_append]
    rfl
  · rw [BitVec.append_assoc]
    exact BitVec.extractLsb'_append_eq_left

theorem column_write (write : s.weLatch = true) (here : chip s.addrLatch = d) (bus : BitVec 16) :
    (s.column w).command d bus =
      .write s.sdBa (col s.addrLatch) true (masked (~~~w.ds) w.din) := by
  obtain ⟨k, close, mask⟩ := columnPins (~~~w.ds) (col s.addrLatch)
  unfold Sdram.column
  simp only [write, Bool.true_or, if_true]
  rw [command, if_pos here]
  dsimp only
  rw [k, close, mask]
  rfl

theorem column_read (write : s.weLatch = false) (read : s.oeLatch = true)
    (here : chip s.addrLatch = d) (bus : BitVec 16) :
    (s.column w).command d bus = .read s.sdBa (col s.addrLatch) true := by
  obtain ⟨k, close, -⟩ := columnPins 0 (col s.addrLatch)
  unfold Sdram.column
  simp only [write, read, Bool.or_true, Bool.false_eq_true, if_true, if_false]
  rw [command, if_pos here]
  dsimp only
  rw [k, close]
  rfl

theorem Served.column (ok : s.Served d c) (fits : Fits T) (tick : Ticks w s (s.column w))
    (normal : s.reset = 0) (at_ : s.t = 2) : Serves T w (s.column w) d c := by
  by_cases on : s.Opening d
  · have access := on.access
    unfold Serves
    cases write : s.weLatch
    · have read : s.oeLatch = true := by simpa [write] using access
      rw [column_read write read on.chip, ok.pins on]
      exact ok.access fits tick at_ on none
    · rw [column_write write on.chip, ok.pins on]
      exact ok.access fits tick at_ on (some (masked (~~~w.ds) w.din))
  · have no : ¬ (s.column w).Opening d := fun after => by
      have := after.early
      have := tick.t
      omega
    refine ok.nop tick ?_ (fun first => by omega) (fun after => absurd after no)
      fun before => absurd before on
    unfold Sdram.column
    split
    · next access => exact command_other (fun here => on ⟨normal, .inr at_, access, here⟩) _
    · exact command_inhibit rfl _

/-- A clock in the middle of a slot, with or without a word that arrives. -/
theorem Served.middle (ok : s.Served d c) (tick : Ticks w s s') (normal : s.reset = 0)
    (late : s.t ≠ 0) (other : s.t ≠ 2) (cmd : s'.sdCmd = .inhibit)
    (latches : s'.oeLatch = s.oeLatch ∧ s'.weLatch = s.weLatch)
    (address : s'.addrLatch = s.addrLatch ∧ s'.sdBa = s.sdBa) : Serves T w s' d c := by
  have next := tick.t
  have small := tick.small
  obtain ⟨oe, we⟩ := latches
  refine ok.nop tick (command_inhibit cmd _) (fun first => absurd first late) ?_ ?_
  · intro on
    have early := on.early
    have access := on.access
    have chip := on.chip
    rw [oe, we] at access
    rw [address.1] at chip
    exact ⟨⟨normal, by omega, access, chip⟩, address⟩
  · intro on
    have early := on.early
    rcases tick.stage with ⟨-, -, far⟩ | ⟨-, -, -, same, -⟩
    · exact .inr (by omega)
    · refine .inl ⟨(same (by omega)).trans normal, .inr (by omega), ?_, ?_⟩
      · rw [oe, we]
        exact on.access
      · rw [address.1]
        exact on.chip

/-- Each clock sends a chip what it accepts. -/
theorem Served.step (ok : s.Served d c) (fits : Fits T) (tick : Ticks w s (s.step w)) :
    Serves T w (s.step w) d c := by
  rcases step_cases (s := s) (w := w) with ⟨busy, same⟩ | ⟨normal, first, same⟩ |
    ⟨normal, here, same⟩ | ⟨normal, here, same⟩ | ⟨normal, late, other, -, same⟩
  · rw [same] at tick ⊢
    exact ok.ladder fits tick busy
  · rw [same] at tick ⊢
    exact ok.start fits tick normal first
  · rw [same] at tick ⊢
    exact ok.column fits tick normal here
  · rw [same] at tick ⊢
    unfold Sdram.arrive at tick ⊢
    split at tick
    · next read =>
      rw [if_pos read]
      exact ok.middle tick normal (by omega) (by omega) rfl ⟨rfl, rfl⟩ ⟨rfl, rfl⟩
    · next none_ =>
      rw [if_neg none_]
      exact ok.middle tick normal (by omega) (by omega) rfl ⟨rfl, rfl⟩ ⟨rfl, rfl⟩
  · rw [same] at tick ⊢
    exact ok.middle tick normal late other rfl ⟨rfl, rfl⟩ ⟨rfl, rfl⟩

/-! ### Power-up -/

/-- While the counter may still be out of step, the initialisation has not come to a slot. -/
structure Waiting (n : Nat) (s : Sdram) (c : Chip) : Prop where
  small : s.t < 8
  reset : 0x3ff ≤ s.reset + n
  sinceRow : c.sinceRow = n
  sinceColumn : c.sinceColumn = n
  precharged : c.precharged = false

theorem tNext_small (small : s.t < 8) : s.tNext w < 8 := by
  unfold tNext
  split
  · exact Nat.mod_lt _ (by decide)
  · exact small

theorem resetNext_slow : s.reset ≤ s.resetNext w + 1 ∨ s.resetNext w = 0x3ff := by
  unfold resetNext
  split
  · exact .inr rfl
  · split <;> omega

theorem Waiting.next {n : Nat} (ok : Waiting n s c) (early : n < 15) :
    (s.step w).command d w.sdData = .nop ∧
      Waiting (n + 1) (s.step w) (c.next ((s.step w).command d w.sdData)) := by
  have far := ok.reset
  have cmd : (s.step w).command d w.sdData = .nop := by
    refine command_inhibit ?_ _
    unfold Sdram.step Sdram.ladder
    have pre : ¬ (s.reset = 66 ∨ s.reset = 65) := by omega
    have ref : ¬ (43 ≤ s.reset ∧ s.reset ≤ 58) := by omega
    have load : ¬ (s.reset = 4 ∨ s.reset = 3) := by omega
    have busy : s.reset ≠ 0 := by omega
    simp only [pre, ref, load, busy, ne_eq, not_false_eq_true, if_true, if_false, ite_self]
    rfl
  have slow := resetNext_slow (s := s) (w := w)
  rw [cmd]
  refine ⟨rfl, ?_, ?_, ?_, ?_, ok.precharged⟩
  · rw [step_t]
    exact tNext_small ok.small
  · rw [step_reset]
    omega
  · exact congrArg (· + 1) ok.sinceRow
  · exact congrArg (· + 1) ok.sinceColumn

theorem Waiting.served (ok : Waiting 15 s c) : s.Served d c := by
  have far := ok.reset
  have stage : s.reset ≤ s.stage := by
    unfold Sdram.stage
    split <;> omega
  have small := ok.small
  have same := ok.sinceRow
  have off : ¬ s.Opening d := fun on => by
    have := on.normal
    omega
  constructor
  · exact fun _ => ⟨by omega, ok.sinceColumn.trans same.symm⟩
  · exact fun ready => absurd (ready.symm.trans ok.precharged) (by decide)
  · exact fun late => absurd late (by omega)
  · have none_ : (60 - d.toNat - max s.stage 43) / 2 = 0 := by omega
    rw [none_]
    exact Nat.zero_le _
  · exact fun late => absurd late (by omega)
  · exact fun late => absurd late (by omega)
  · exact fun on => absurd on off
  · exact fun on => absurd on off

end Clock

end Sdram

/-! ## Every run -/

namespace SdramSystem

open Sdram (Chipset Fits Waiting)

variable {i : Nat → SdramIn} {p n m : Nat} {y : SdramSystem} {T : Dram.Timing}

/-- After the configuration the counter can stand anywhere. -/
structure PowerUp (y : SdramSystem) : Prop where
  t : y.ctl.t < 8
  reset : y.ctl.reset = 0x3ff
  chips : ∀ d, (y.chips d).Fresh

theorem waiting (up : y.PowerUp) (d : Bool) (early : n ≤ 15) :
    Waiting n (y.after i n).ctl ((y.after i n).chips d) := by
  induction n with
  | zero =>
    have fresh := up.chips d
    exact ⟨up.t, up.reset.ge, fresh.sinceRow, fresh.sinceColumn, fresh.precharged⟩
  | succ n ih => exact ((ih (by omega)).next early).2

theorem tick (up : y.PowerUp) (clock : Chipset i p) (late : 15 ≤ n) :
    Sdram.Ticks (i n) (y.after i n).ctl ((y.after i n).ctl.step (i n)) := by
  have here := locked (y := y) clock up.t late
  refine ⟨?_, ?_, Sdram.step_reset⟩
  · rw [here]
    exact Nat.mod_lt _ (by decide)
  · rw [Sdram.step_t, Sdram.tNext_locked (clock n) here, here, Nat.mod_add_mod]

theorem served (fits : Fits T) (up : y.PowerUp) (clock : Chipset i p) (d : Bool) (late : 15 ≤ n) :
    (y.after i n).ctl.Served d ((y.after i n).chips d) := by
  induction n, late using Nat.le_induction with
  | base => exact (waiting up d (Nat.le_refl 15)).served
  | succ n late ih => exact (ih.step fits (tick up clock late)).2

/-- The rules of the modules, in clocks of 65 MHz. -/
def moduleTiming : Dram.Timing := ⟨6500, 8, 2, 5, 5⟩

theorem moduleTiming_fits : Fits moduleTiming := by
  constructor <;> decide

/-- A system that is switched on. -/
def cold : SdramSystem where
  ctl :=
    { t := 5, reset := 0x3ff, sdCmd := .inhibit, sdCs := true, sdAddr := 0, sdBa := 0
      sdDrive := none, oeLatch := false, weLatch := false, rfshChip := false, addrLatch := 0
      dout := 0, doutAddr := 0, doutValid := false }
  chips _ :=
    { mem := fun _ _ _ => 0, opened := fun _ => none, sinceRow := 0, sinceColumn := 0
      precharged := false, refreshed := 0, mode := none }

theorem cold_powerUp : cold.PowerUp :=
  ⟨by decide, rfl, fun _ => ⟨fun _ => rfl, rfl, rfl, rfl, rfl, rfl⟩⟩

/-- What the chip with this command puts on the bus: the word of a read. -/
def driven (y : SdramSystem) (s' : Sdram) : BitVec 16 :=
  match s'.command s'.sdCs 0 with
  | .read b k _ =>
    match (y.chips s'.sdCs).opened b with
    | some r => (y.chips s'.sdCs).mem b r k
    | none => 0
  | _ => 0

/-- The system on its board: a word of the chips takes four clocks to the register that the
controller takes it from. -/
structure Board where
  sys : SdramSystem
  first : BitVec 16
  second : BitVec 16
  third : BitVec 16
  bus : BitVec 16

def Board.next (w : SdramIn) (b : Board) : Board :=
  let w : SdramIn := { w with sdData := b.bus }
  { sys := b.sys.step w
    first := driven b.sys (b.sys.ctl.step w)
    second := b.first
    third := b.second
    bus := b.third }

/-- The board after `n` clocks of what the chipset asks for. -/
def board (ask : Nat → SdramIn) : Nat → Board
  | 0 => ⟨cold, 0, 0, 0, 0⟩
  | n + 1 => (board ask n).next (ask n)

/-- The same with the words on the bus. -/
def wired (ask : Nat → SdramIn) (n : Nat) : SdramIn :=
  { ask n with sdData := (board ask n).bus }

theorem board_sys (ask : Nat → SdramIn) (n : Nat) :
    (board ask n).sys = cold.after (wired ask) n := by
  induction n with
  | zero => rfl
  | succ n ih =>
    change (board ask n).sys.step (wired ask n) = (cold.after (wired ask) n).step (wired ask n)
    rw [ih]

/-- A chipset that writes a word, then its low and its high byte, and reads it back, with an
idle slot in every four, and has the initialisation run again at clock 9000. -/
def asked (n : Nat) : SdramIn where
  init := n == 9000
  clk8 := decide (n % 8 < 4)
  din := BitVec.ofNat 16 (n / 8 * 0x101)
  addr := if n % 128 < 64 then 0x2380000 else 0x10
  ds := if n % 64 < 8 then 3 else if n % 64 < 16 then 1 else 2
  we := decide (n % 64 < 24)
  oe := decide (32 ≤ n % 64 ∧ n % 64 < 56)

def traffic : Nat → SdramIn := wired asked

theorem traffic_clock : Chipset traffic 0 := fun _ => rfl

/-- A slot of the chipset begins. -/
structure Begins (s : Sdram) : Prop where
  t : s.t = 0
  normal : s.reset = 0

/-- No initialisation is asked for in these clocks. -/
def Calm (i : Nat → SdramIn) (m k : Nat) : Prop := ∀ j < k, (i (m + j)).init = false

/-- A slot of the initialisation, from its clock `q` on. -/
theorem ladder_slot (up : y.PowerUp) (clock : Chipset i p) (late : 15 ≤ m) {q r : Nat}
    (here : (y.after i m).ctl.t = q) (small : q < 8) (count : (y.after i m).ctl.reset = r + 1)
    (calm : Calm i m (8 - q)) : ∀ j ≤ 8 - q, (y.after i (m + j)).ctl.t = (q + j) % 8 ∧
      (y.after i (m + j)).ctl.reset = if q + j = 8 then r else r + 1 := by
  intro j
  induction j with
  | zero =>
    intro _
    exact ⟨here.trans (Nat.mod_eq_of_lt small).symm, count.trans (if_neg (by omega)).symm⟩
  | succ j ih =>
    intro more
    obtain ⟨t, reset⟩ := ih (by omega)
    have tick := tick up clock (show 15 ≤ m + j by omega)
    rw [Nat.mod_eq_of_lt (by omega)] at t
    rw [if_neg (by omega)] at reset
    refine ⟨tick.t.trans (by rw [t]; rfl), tick.reset.trans ?_⟩
    rw [Sdram.resetNext, calm j (by omega), reset, t]
    by_cases last : q + j = 7
    · rw [if_pos (show q + (j + 1) = 8 by omega)]
      simp [last]
    · rw [if_neg (show ¬ q + (j + 1) = 8 by omega)]
      simp [last]

/-- The slots of the initialisation that are left. -/
theorem ladder_done (up : y.PowerUp) (clock : Chipset i p) {r : Nat} (late : 15 ≤ m)
    (first : (y.after i m).ctl.t = 0) (count : (y.after i m).ctl.reset = r)
    (calm : Calm i m (8 * r)) :
    Begins (y.after i (m + 8 * r)).ctl ∧ ∀ j < 8 * r, (y.after i (m + j)).ctl.reset ≠ 0 := by
  induction r generalizing m with
  | zero =>
    rw [Nat.mul_zero, Nat.add_zero]
    exact ⟨⟨first, count⟩, nofun⟩
  | succ r ih =>
    have slot := ladder_slot up clock late first (by decide) count fun j small => calm j (by omega)
    obtain ⟨t, reset⟩ := slot 8 (Nat.le_refl 8)
    obtain ⟨next, busy⟩ := ih (m := m + 8) (by omega) t reset fun j small => by
      rw [Nat.add_assoc]
      exact calm _ (by omega)
    refine ⟨?_, fun j small => ?_⟩
    · rwa [show m + 8 * (r + 1) = m + 8 + 8 * r by omega]
    · by_cases in_ : j < 8
      · rw [(slot j (by omega)).2, if_neg (by omega)]
        exact Nat.succ_ne_zero r
      · rw [show m + j = m + 8 + (j - 8) by omega]
        exact busy (j - 8) (by omega)

theorem traffic_begins : Begins (cold.after traffic 8168).ctl := by
  have first : (cold.after traffic 16).ctl.t = 0 := locked traffic_clock (by decide) (by decide)
  have count : (cold.after traffic 16).ctl.reset = 1019 := by decide +kernel
  refine (ladder_done (m := 16) cold_powerUp traffic_clock (by decide) first count ?_).1
  intro j small
  exact beq_false_of_ne (by omega)

end SdramSystem

end MacIIvi
