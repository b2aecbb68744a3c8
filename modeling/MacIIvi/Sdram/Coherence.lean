import MacIIvi.Sdram.Store

/-!
# What a read returns

`dout_valid` says that `dout` holds the word at `dout_addr`. It says so truly at every clock,
in and between the slots and across a second initialisation.
-/

namespace MacIIvi

namespace SdramSystem

open Sdram (Chipset Fits)

variable {i : Nat → SdramIn} {p n : Nat} {y : SdramSystem} {T : Dram.Timing}

/-- The chips drive the word of a read by the clock that takes it, four after the command:
the latency of the chips and the two clocks `STATE_READ` adds for the board. -/
def Answers (i : Nat → SdramIn) (y : SdramSystem) : Prop :=
  ∀ n d b r k close, (y.after i (n + 1)).ctl.command d (i n).sdData = .read b k close →
    ((y.after i n).chips d).opened b = some r →
    (i (n + 4)).sdData = ((y.after i n).chips d).mem b r k

/-- The chipset reads or writes, not both. -/
def Exclusive (i : Nat → SdramIn) : Prop := ∀ n, ¬ ((i n).oe = true ∧ (i n).we = true)

/-- What the handshake rests on at clock `n`. -/
structure Coherent (i : Nat → SdramIn) (n : Nat) (y : SdramSystem) : Prop where
  exclusive : y.ctl.reset = 0 → y.ctl.t ≠ 0 → ¬ (y.ctl.oeLatch = true ∧ y.ctl.weLatch = true)
  cached : y.ctl.doutValid = true → y.ctl.dout = y.word y.ctl.doutAddr
  writing : y.ctl.reset = 0 → y.ctl.t = 1 ∨ y.ctl.t = 2 → y.ctl.weLatch = true →
    y.ctl.doutValid = false
  flying : y.ctl.reset = 0 → y.ctl.oeLatch = true → 3 ≤ y.ctl.t → y.ctl.t ≤ 6 →
    (i (n + (6 - y.ctl.t))).sdData = y.word y.ctl.addrLatch

/-- Out of the column of a write slot the words stay. -/
theorem word_kept (fits : Fits T) (up : y.PowerUp) (clock : Chipset i p)
    (other : ¬ (y.after i n).ctl.Writes) (a : BitVec 26) :
    (y.after i (n + 1)).word a = (y.after i n).word a := by
  rw [word_step fits up clock, if_neg fun both => other both.1]

/-- The word that a read slot asks for is on the bus when it is due. -/
theorem flies (fits : Fits T) (up : y.PowerUp) (clock : Chipset i p) (answers : Answers i y)
    (late : 15 ≤ n) (normal : (y.after i n).ctl.reset = 0) (here : (y.after i n).ctl.t = 2)
    (read : (y.after i n).ctl.oeLatch = true) (noWrite : (y.after i n).ctl.weLatch = false) :
    (i (n + 4)).sdData = (y.after i n).word (y.after i n).ctl.addrLatch := by
  have ok := served fits up clock (Sdram.chip (y.after i n).ctl.addrLatch) late
  have on : (y.after i n).ctl.Opening (Sdram.chip (y.after i n).ctl.addrLatch) :=
    ⟨normal, .inr here, by rw [read, Bool.or_true], rfl⟩
  refine answers n _ _ _ _ true ?_ (ok.opened on)
  rw [← ok.pins on]
  have column : (y.after i (n + 1)).ctl = (y.after i n).ctl.column (i n) := by
    change (y.after i n).ctl.step (i n) = _
    rw [Sdram.step, if_neg (not_not.mpr normal), if_neg (by omega), if_pos here]
  rw [column]
  exact Sdram.column_read noWrite read rfl _

/-- What the next clock makes of it. -/
theorem Coherent.step (ok : Coherent i n (y.after i n)) (fits : Fits T) (up : y.PowerUp)
    (clock : Chipset i p) (answers : Answers i y) (one : Exclusive i) (late : 15 ≤ n) :
    Coherent i (n + 1) (y.after i (n + 1)) := by
  have tick := tick up clock late
  have next : (y.after i (n + 1)).ctl.t = ((y.after i n).ctl.t + 1) % 8 := tick.t
  have count : (y.after i (n + 1)).ctl.reset = (y.after i n).ctl.resetNext (i n) := tick.reset
  have small := tick.small
  rcases Sdram.step_cases (s := (y.after i n).ctl) (w := i n) with ⟨busy, same⟩ |
    ⟨normal, first, same⟩ | ⟨normal, here, same⟩ | ⟨normal, here, same⟩ |
    ⟨normal, late', other, other', same⟩
  · -- the initialisation ends where a slot does
    have ends : (y.after i (n + 1)).ctl.reset = 0 → (y.after i (n + 1)).ctl.t = 0 := by
      rw [count, next]
      unfold Sdram.resetNext
      split
      · exact nofun
      · split <;> omega
    have off : (y.after i (n + 1)).ctl.doutValid = false := by
      change ((y.after i n).ctl.step (i n)).doutValid = false
      rw [same]
      exact Sdram.ladder_keeps.2.2.2.1
    refine ⟨fun zero away => absurd (ends zero) away, fun valid => ?_, fun _ _ _ => off, ?_⟩
    · exact absurd (off.symm.trans valid) (by decide)
    · intro zero _ far _
      have := ends zero
      omega
  · have kept := word_kept (i := i) (n := n) fits up clock fun write => by
      have := write.2.1
      omega
    obtain ⟨oe, we, dout, doutAddr, valid, -⟩ := Sdram.start_keeps (s := (y.after i n).ctl) (w := i n)
    rw [← same] at oe we dout doutAddr valid
    refine ⟨fun _ _ both => ?_, fun on => ?_, fun _ _ write => ?_, fun _ _ far _ => ?_⟩
    · exact one n ⟨oe.symm.trans both.1, we.symm.trans both.2⟩
    · rw [show (y.after i (n + 1)).ctl.dout = _ from dout,
        show (y.after i (n + 1)).ctl.doutAddr = _ from doutAddr, kept]
      refine ok.cached ?_
      have := valid.symm.trans on
      split at this
      · exact absurd this (by decide)
      · exact this
    · refine valid.trans ?_
      rw [if_pos (we.symm.trans write)]
    · omega
  · obtain ⟨oe, we, address, dout, doutAddr, valid, -⟩ :=
      Sdram.column_keeps (s := (y.after i n).ctl) (w := i n)
    rw [← same] at oe we address dout doutAddr valid
    refine ⟨fun _ _ both => ?_, fun on => ?_, fun _ early _ => ?_, fun _ read _ _ => ?_⟩
    · exact ok.exclusive normal (by omega) ⟨oe.symm.trans both.1, we.symm.trans both.2⟩
    · have on' : (y.after i n).ctl.doutValid = true := valid.symm.trans on
      have kept := word_kept (i := i) (n := n) fits up clock fun write =>
        absurd ((ok.writing normal (.inr here) write.2.2).symm.trans on') (by decide)
      rw [show (y.after i (n + 1)).ctl.dout = _ from dout,
        show (y.after i (n + 1)).ctl.doutAddr = _ from doutAddr, kept]
      exact ok.cached on'
    · omega
    · have read' : (y.after i n).ctl.oeLatch = true := oe.symm.trans read
      have noWrite : (y.after i n).ctl.weLatch = false :=
        Bool.eq_false_iff.mpr fun write => ok.exclusive normal (by omega) ⟨read', write⟩
      have kept := word_kept (i := i) (n := n) fits up clock fun write =>
        absurd (noWrite.symm.trans write.2.2) (by decide)
      have due : n + 1 + (6 - (y.after i (n + 1)).ctl.t) = n + 4 := by omega
      rw [due, show (y.after i (n + 1)).ctl.addrLatch = _ from address, kept]
      exact flies fits up clock answers late normal here read' noWrite
  · have kept := word_kept (i := i) (n := n) fits up clock fun write => by
      have := write.2.1
      omega
    obtain ⟨oe, we, -⟩ := Sdram.arrive_keeps (s := (y.after i n).ctl) (w := i n)
    have now : (y.after i (n + 1)).ctl = (y.after i n).ctl.arrive (i n) := same
    rw [← same] at oe we
    refine ⟨fun _ _ both => ?_, fun on => ?_, fun _ early _ => by omega, fun _ _ _ far => by omega⟩
    · exact ok.exclusive normal (by omega) ⟨oe.symm.trans both.1, we.symm.trans both.2⟩
    · rw [now] at on ⊢
      unfold Sdram.arrive at on ⊢
      split at on
      · next read =>
        rw [if_pos read, kept]
        have arrives := ok.flying normal read (by omega) (by omega)
        rwa [here, Nat.sub_self, Nat.add_zero] at arrives
      · next none_ =>
        rw [if_neg none_, kept]
        exact ok.cached on
  · have kept := word_kept (i := i) (n := n) fits up clock fun write => other write.2.1
    have now : (y.after i (n + 1)).ctl = (y.after i n).ctl.quiet (i n) := same
    refine ⟨fun _ _ both => ?_, fun on => ?_, fun _ early write => ?_, fun _ read far near => ?_⟩
    · rw [now] at both
      exact ok.exclusive normal late' both
    · rw [now] at on ⊢
      rw [kept]
      exact ok.cached on
    · rw [now] at write ⊢
      exact ok.writing normal (by omega) write
    · have due : n + 1 + (6 - (y.after i (n + 1)).ctl.t) = n + (6 - (y.after i n).ctl.t) := by omega
      rw [due, now, kept]
      rw [now] at read
      exact ok.flying normal read (by omega) (by omega)

theorem doutValid_early (up : y.PowerUp) (early : n < 15) :
    (y.after i (n + 1)).ctl.doutValid = false := by
  have busy : (y.after i n).ctl.reset ≠ 0 := by
    have := (waiting (y := y) (i := i) up true (show n ≤ 15 by omega)).reset
    omega
  change ((y.after i n).ctl.step (i n)).doutValid = false
  rw [Sdram.step, if_pos busy]
  exact Sdram.ladder_keeps.2.2.2.1

theorem coherent (fits : Fits T) (up : y.PowerUp) (clock : Chipset i p) (answers : Answers i y)
    (one : Exclusive i) (late : 15 ≤ n) : Coherent i n (y.after i n) := by
  induction n, late using Nat.le_induction with
  | base =>
    have busy : (y.after i 15).ctl.reset ≠ 0 := by
      have := (waiting (y := y) (i := i) up true (Nat.le_refl 15)).reset
      omega
    have off := doutValid_early (i := i) up (show 14 < 15 by decide)
    exact ⟨fun zero => absurd zero busy, fun on => absurd (off.symm.trans on) (by decide),
      fun zero => absurd zero busy, fun zero => absurd zero busy⟩
  | succ n late ih => exact ih.step fits up clock answers one late

/-! ## The board -/

/-- The chips of the board answer. -/
theorem wired_answers (ask : Nat → SdramIn) : Answers (wired ask) cold := by
  intro n d b r k close cmd opened
  -- the word has been handed on three times since the command
  have word : (wired ask (n + 4)).sdData =
      driven (cold.after (wired ask) n) (cold.after (wired ask) (n + 1)).ctl := by
    rw [← board_sys ask n, ← board_sys ask (n + 1)]
    rfl
  generalize (cold.after (wired ask) (n + 1)).ctl = s' at cmd word
  unfold Sdram.command at cmd
  split at cmd
  · next here =>
    subst here
    unfold driven Sdram.command at word
    rw [if_pos rfl] at word
    split at cmd <;> cases cmd
    next read =>
      rw [word, read]
      dsimp only
      rw [opened]
  · cases cmd

theorem traffic_exclusive : Exclusive traffic := by
  rintro n ⟨read, write⟩
  have read : 32 ≤ n % 64 ∧ n % 64 < 56 := of_decide_eq_true read
  have write : n % 64 < 24 := of_decide_eq_true write
  omega

end SdramSystem

end MacIIvi
