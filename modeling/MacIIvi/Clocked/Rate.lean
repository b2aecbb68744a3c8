import Mathlib.Algebra.Order.Field.Rat
import Mathlib.Algebra.Order.Field.Basic
import Mathlib.Tactic.FieldSimp
import Mathlib.Tactic.Linarith
import Mathlib.Tactic.Ring

/-!
# Fractional accumulators

An accumulator that gains `R` a clock and pays `M` for an event gives
`(v + R * n) / M` events in `n` clocks. Against a rate of `R / C` events a clock it
loses time when `C < M`.
-/

namespace Clocked

/-- The events of the first `n` clocks. -/
def count (event : Nat → Bool) : Nat → Nat
  | 0 => 0
  | n + 1 => count event n + (event n).toNat

section Accumulator

variable {v : Nat → Nat} {event : Nat → Bool} {R M n : Nat}

theorem count_balance (pays : ∀ u < n, v (u + 1) + M * (event u).toNat = v u + R) :
    v n + M * count event n = v 0 + R * n := by
  induction n with
  | zero => simp [count]
  | succ n ih =>
    have before := ih fun u low => pays u (by omega)
    have last := pays n (by omega)
    rw [count, Nat.mul_add, Nat.mul_succ]
    omega

/-- The events are the whole multiples of `M` gained. -/
theorem count_eq_div (pays : ∀ u < n, v (u + 1) + M * (event u).toNat = v u + R)
    (below : v n < M) : count event n = (v 0 + R * n) / M := by
  have balance := count_balance pays
  rw [← balance, Nat.add_mul_div_left _ _ (by omega), Nat.div_eq_of_lt below, Nat.zero_add]

end Accumulator

/-- `e` events are within one of `n` clocks at `R / C` events a clock. -/
def Near (C R n e : Nat) : Prop := |(e : ℚ) - n * R / C| ≤ 1

section Near

variable {C M R n e v : Nat}

theorem near_iff (positive : 0 < C) :
    Near C R n e ↔ n * R ≤ (e + 1) * C ∧ e * C ≤ n * R + C := by
  have pos : (0 : ℚ) < C := by exact_mod_cast positive
  have ideal : (n : ℚ) * R / C * C = n * R := div_mul_cancel₀ _ pos.ne'
  rw [Near, abs_le]
  have lower : -1 ≤ (e : ℚ) - n * R / C ↔ n * R ≤ (e + 1) * C := by
    rw [show (-1 ≤ (e : ℚ) - n * R / C) ↔ (n : ℚ) * R / C ≤ e + 1 by
      constructor <;> intro h <;> linarith, div_le_iff₀ pos]
    exact_mod_cast Iff.rfl
  have upper : (e : ℚ) - n * R / C ≤ 1 ↔ e * C ≤ n * R + C := by
    rw [show ((e : ℚ) - n * R / C ≤ 1) ↔ (e : ℚ) - 1 ≤ n * R / C by
      constructor <;> intro h <;> linarith, le_div_iff₀ pos]
    rw [show (((e : ℚ) - 1) * C ≤ n * R) ↔ (e : ℚ) * C ≤ n * R + C by
      constructor <;> intro h <;> linarith]
    exact_mod_cast Iff.rfl
  rw [lower, upper]

/-- An accumulator that pays more than `C` for an event is within one exactly if
there is no number of events that is due but cannot be paid for yet. -/
theorem near_slow (positive : 0 < C) (slow : C ≤ M) (start : v < M) :
    Near C R n ((v + R * n) / M) ↔ ¬∃ k, k * C < n * R ∧ v + R * n < k * M := by
  rw [near_iff positive]
  generalize count : (v + R * n) / M = e
  have paid : e * M ≤ v + R * n := by
    rw [← count]
    exact Nat.div_mul_le_self _ _
  have next : v + R * n < (e + 1) * M := by
    rw [← count, Nat.add_mul, Nat.one_mul]
    exact Nat.lt_div_mul_add (by omega)
  constructor
  · rintro ⟨inTime, -⟩ ⟨k, due, unpaid⟩
    have more : e < k := Nat.lt_of_mul_lt_mul_right (Nat.lt_of_le_of_lt paid unpaid)
    have : (e + 1) * C ≤ k * C := Nat.mul_le_mul_right C more
    omega
  · intro never
    refine ⟨?_, ?_⟩
    · by_contra late
      exact never ⟨e + 1, Nat.lt_of_not_le late, next⟩
    · -- all but the first event are paid for from what came in
      cases e with
      | zero => omega
      | succ e =>
        have cheap : e * C ≤ e * M := Nat.mul_le_mul_left e slow
        rw [Nat.add_mul, Nat.one_mul] at paid
        rw [Nat.add_mul, Nat.one_mul, Nat.mul_comm n R]
        omega

/-- It falls behind for good. -/
theorem not_near_slow (positive : 0 < C) (slow : C ≤ M) (start : v < M)
    (long : 2 * M * C ≤ n * R * (M - C)) :
    ¬ Near C R n ((v + R * n) / M) := by
  rw [near_slow positive slow start, not_not]
  refine ⟨(v + R * n) / M + 1, ?_, ?_⟩
  · have most : ((v + R * n) / M + 1) * M ≤ v + R * n + M := by
      rw [Nat.add_mul, Nat.one_mul]
      exact Nat.add_le_add_right (Nat.div_mul_le_self _ _) M
    have some_ : 0 < M := by omega
    apply Nat.lt_of_mul_lt_mul_right (a := M)
    calc
      ((v + R * n) / M + 1) * C * M = ((v + R * n) / M + 1) * M * C := by ring
      _ ≤ (v + R * n + M) * C := Nat.mul_le_mul_right C most
      _ < (M + R * n + M) * C := Nat.mul_lt_mul_of_pos_right (by omega) positive
      _ = n * R * C + 2 * M * C := by ring
      _ ≤ n * R * C + n * R * (M - C) := Nat.add_le_add_left long _
      _ = n * R * M := by rw [← Nat.mul_add, Nat.add_sub_cancel' slow]
  · rw [Nat.add_mul, Nat.one_mul]
    exact Nat.lt_div_mul_add (by omega)

end Near

end Clocked
