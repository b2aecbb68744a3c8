import MacIIvi.Sdram.Protocol

/-!
# The words of the SDRAM

What is left of rows, banks and columns: an array of words, each changed by the write slots
to its address and by nothing else, neither by a read or a refresh nor by a second
initialisation.
-/

namespace MacIIvi

namespace Sdram

/-! ## Addresses -/

theorem row_bit (a : BitVec 26) {k : Nat} (low : k < 12) :
    (row a).getLsbD k = a.getLsbD (8 + k) := by
  unfold row
  rw [BitVec.getLsbD_append, if_pos low, BitVec.getLsbD_extractLsb', decide_eq_true low,
    Bool.true_and]

theorem row_top (a : BitVec 26) : (row a).getLsbD 12 = a.getLsbD 23 := by
  unfold row
  rw [BitVec.getLsbD_append, if_neg (by decide), BitVec.getLsbD_extractLsb']
  simp

theorem col_bit (a : BitVec 26) {k : Nat} (low : k < 8) : (col a).getLsbD k = a.getLsbD k := by
  unfold col
  rw [BitVec.getLsbD_append, if_pos low, BitVec.getLsbD_extractLsb', decide_eq_true low,
    Nat.zero_add, Bool.true_and]

theorem col_top (a : BitVec 26) {k : Nat} (two : k < 2) :
    (col a).getLsbD (8 + k) = a.getLsbD (22 + 2 * k) := by
  unfold col
  rw [BitVec.getLsbD_append, if_neg (by omega), Nat.add_sub_cancel_left, BitVec.getLsbD_append]
  obtain rfl | rfl : k = 0 ∨ k = 1 := by omega
  · simp
  · simp

theorem bank_bit (a : BitVec 26) {k : Nat} (two : k < 2) :
    (bank a).getLsbD k = a.getLsbD (20 + k) := by
  unfold bank
  rw [BitVec.getLsbD_extractLsb', decide_eq_true two, Bool.true_and]

/-- No two addresses share a cell. -/
theorem place_injective {a a' : BitVec 26} (hchip : chip a = chip a') (hbank : bank a = bank a')
    (hrow : row a = row a') (hcol : col a = col a') : a = a' := by
  refine BitVec.eq_of_getLsbD_eq fun k small => ?_
  by_cases c₀ : k < 8
  · rw [← col_bit a c₀, hcol, col_bit a' c₀]
  by_cases c₁ : k < 20
  · obtain ⟨j, rfl⟩ := Nat.exists_eq_add_of_le (not_lt.mp c₀)
    rw [← row_bit a (by omega), hrow, row_bit a' (by omega)]
  by_cases c₂ : k < 22
  · obtain ⟨j, rfl⟩ := Nat.exists_eq_add_of_le (not_lt.mp c₁)
    rw [← bank_bit a (by omega), hbank, bank_bit a' (by omega)]
  obtain rfl | rfl | rfl | rfl : k = 22 + 2 * 0 ∨ k = 23 ∨ k = 22 + 2 * 1 ∨ k = 25 := by omega
  · rw [← col_top a (by decide), hcol, col_top a' (by decide)]
  · rw [← row_top a, hrow, row_top a']
  · rw [← col_top a (by decide), hcol, col_top a' (by decide)]
  · exact hchip

/-! ## What a clock leaves alone -/

variable {w : SdramIn} {s : Sdram} {d : Bool} {c : Chip} {T : Dram.Timing}

theorem ladder_keeps : (s.ladder w).oeLatch = s.oeLatch ∧ (s.ladder w).weLatch = s.weLatch ∧
    (s.ladder w).addrLatch = s.addrLatch ∧ (s.ladder w).doutValid = false ∧
    (s.ladder w).rfshChip = s.rfshChip ∧ (s.ladder w).sdCmd ≠ .write := by
  unfold ladder
  dsimp only
  repeat' split
  all_goals exact ⟨rfl, rfl, rfl, rfl, rfl, nofun⟩

theorem start_keeps : (s.start w).oeLatch = w.oe ∧ (s.start w).weLatch = w.we ∧
    (s.start w).dout = s.dout ∧ (s.start w).doutAddr = s.doutAddr ∧
    (s.start w).doutValid = (if w.we then false else s.doutValid) ∧
    (s.start w).sdCmd ≠ .write := by
  unfold start
  dsimp only
  split
  all_goals exact ⟨rfl, rfl, rfl, rfl, rfl, nofun⟩

theorem start_address (request : (w.we || w.oe) = true) : (s.start w).addrLatch = w.addr := by
  unfold start
  rw [if_pos request]

theorem column_keeps : (s.column w).oeLatch = s.oeLatch ∧ (s.column w).weLatch = s.weLatch ∧
    (s.column w).addrLatch = s.addrLatch ∧ (s.column w).dout = s.dout ∧
    (s.column w).doutAddr = s.doutAddr ∧ (s.column w).doutValid = s.doutValid ∧
    (s.column w).rfshChip = s.rfshChip := by
  unfold column
  split
  all_goals exact ⟨rfl, rfl, rfl, rfl, rfl, rfl, rfl⟩

theorem arrive_keeps : (s.arrive w).oeLatch = s.oeLatch ∧ (s.arrive w).weLatch = s.weLatch ∧
    (s.arrive w).addrLatch = s.addrLatch ∧ (s.arrive w).rfshChip = s.rfshChip ∧
    (s.arrive w).sdCmd = .inhibit := by
  unfold arrive
  split
  all_goals exact ⟨rfl, rfl, rfl, rfl, rfl⟩

/-! ## What a clock writes -/

/-- A write slot comes to its column. -/
def Writes (s : Sdram) : Prop := s.reset = 0 ∧ s.t = 2 ∧ s.weLatch = true

instance : Decidable s.Writes :=
  inferInstanceAs (Decidable (s.reset = 0 ∧ s.t = 2 ∧ s.weLatch = true))

/-- Only the column of a write slot sends a write. -/
theorem no_write (other : ¬ (s.Writes ∧ chip s.addrLatch = d)) (bus : BitVec 16) (b : BitVec 2)
    (k : BitVec 10) (close : Bool) (put : BitVec 16 → BitVec 16) :
    (s.step w).command d bus ≠ .write b k close put := by
  have of_cmd {s' : Sdram} (not_ : s'.sdCmd ≠ .write) : s'.command d bus ≠ .write b k close put := by
    unfold command
    split
    · split <;> simp_all
    · exact nofun
  rcases step_cases (s := s) (w := w) with ⟨-, same⟩ | ⟨-, -, same⟩ | ⟨normal, here, same⟩ |
    ⟨-, -, same⟩ | ⟨-, -, -, -, same⟩
  · rw [same]
    exact of_cmd ladder_keeps.2.2.2.2.2
  · rw [same]
    exact of_cmd start_keeps.2.2.2.2.2
  · rw [same]
    by_cases write : s.weLatch = true
    · have away : chip s.addrLatch ≠ d := fun mine => other ⟨⟨normal, here, write⟩, mine⟩
      unfold column
      rw [if_pos (by rw [write]; rfl), command_other away]
      exact nofun
    · refine of_cmd ?_
      unfold column
      simp only [write, Bool.false_eq_true, if_false]
      split
      · exact nofun
      · exact nofun
  · rw [same]
    refine of_cmd ?_
    rw [arrive_keeps.2.2.2.2]
    exact nofun
  · rw [same]
    exact of_cmd nofun

/-- The cells of a chip after a clock. -/
theorem Served.mem (ok : s.Served d c) (bus : BitVec 16) (b : BitVec 2) (r : BitVec 13)
    (k : BitVec 10) :
    (c.next ((s.step w).command d bus)).mem b r k =
      if s.Writes ∧ chip s.addrLatch = d ∧
          (b, r, k) = (bank s.addrLatch, row s.addrLatch, col s.addrLatch) then
        masked (~~~w.ds) w.din (c.mem b r k)
      else c.mem b r k := by
  by_cases mine : s.Writes ∧ chip s.addrLatch = d
  · obtain ⟨⟨normal, here, write⟩, same⟩ := mine
    have on : s.Opening d := ⟨normal, .inr here, by rw [write]; rfl, same⟩
    have col : s.step w = s.column w := by
      rw [Sdram.step, if_neg (not_not.mpr normal), if_neg (by omega), if_pos here]
    rw [col, column_write write same, ok.pins on, Dram.Chip.next_write (ok.opened on)]
    simp only [Writes, normal, here, write, same, true_and]
  · rw [Dram.Chip.next_mem (no_write mine bus), if_neg fun all => mine ⟨all.1, all.2.1⟩]

end Sdram

namespace SdramSystem

open Sdram (Chipset Fits Waiting)

variable {i : Nat → SdramIn} {p n : Nat} {y : SdramSystem} {T : Dram.Timing}

/-- In every clock of every run a word changes only if its write slot comes to the column,
and then in the bytes of the strobes. -/
theorem word_step (fits : Fits T) (up : y.PowerUp) (clock : Chipset i p) (n : Nat) (a : BitVec 26) :
    (y.after i (n + 1)).word a =
      if (y.after i n).ctl.Writes ∧ a = (y.after i n).ctl.addrLatch then
        Sdram.masked (~~~(i n).ds) (i n).din ((y.after i n).word a)
      else (y.after i n).word a := by
  by_cases early : n < 15
  · have wait := waiting (y := y) (i := i) up (Sdram.chip a) (show n ≤ 15 by omega)
    have busy : ¬ (y.after i n).ctl.Writes := fun write => by
      have := write.1
      have := wait.reset
      omega
    rw [if_neg fun both => busy both.1]
    change ((_ : Sdram.Chip).next _).mem _ _ _ = _
    rw [(wait.next early).1]
    rfl
  · have ok := served fits up clock (Sdram.chip a) (show 15 ≤ n by omega)
    refine (ok.mem (i n).sdData _ _ _).trans ?_
    refine ite_congr (propext ?_) (fun _ => rfl) fun _ => rfl
    constructor
    · rintro ⟨write, hchip, place⟩
      obtain ⟨hbank, hrow, hcol⟩ : _ ∧ _ ∧ _ := by simpa only [Prod.mk.injEq] using place
      exact ⟨write, Sdram.place_injective hchip.symm hbank hrow hcol⟩
    · rintro ⟨write, rfl⟩
      exact ⟨write, rfl, rfl⟩

end SdramSystem

end MacIIvi
