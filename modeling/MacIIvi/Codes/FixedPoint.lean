import Mathlib.Algebra.Order.Ring.Int
import Mathlib.Data.BitVec
import Mathlib.Tactic.Linarith

/-!
# Fixed-point numbers

Fractions `g / n` of a whole number, rounded down, and points between two numbers. A
slice of a two's complement product is such a fraction where it loses no bit above it.
-/

namespace Codes.FixedPoint

/-! ## Fractions of a number -/

/-- `g / n` of `v`, rounded down. -/
def scale (v g n : Int) : Int := v * g / n

/-- The point `f / n` of the way from `p` to `t`. -/
def lerp (p t f n : Int) : Int := p + scale (t - p) f n

section

variable {v g h p t n : Int}

theorem scale_zero : scale v 0 n = 0 := by
  rw [scale, Int.mul_zero, Int.zero_ediv]

theorem scale_one (pos : 0 < n) : scale v n n = v :=
  Int.mul_ediv_cancel v (Int.ne_of_gt pos)

theorem scale_mono (pos : 0 < n) (up : 0 ≤ v) (le : g ≤ h) : scale v g n ≤ scale v h n :=
  Int.ediv_le_ediv pos (Int.mul_le_mul_of_nonneg_left le up)

theorem scale_anti (pos : 0 < n) (down : v ≤ 0) (le : g ≤ h) : scale v h n ≤ scale v g n := by
  have products : v * h ≤ v * g := by nlinarith
  exact Int.ediv_le_ediv pos products

/-- A fraction lies between zero and the number. -/
theorem scale_between (pos : 0 < n) (nonneg : 0 ≤ g) (le : g ≤ n) :
    min 0 v ≤ scale v g n ∧ scale v g n ≤ max 0 v := by
  rcases Int.le_total 0 v with up | down
  · have low := scale_mono pos up nonneg
    have high := scale_mono pos up le
    rw [scale_zero] at low
    rw [scale_one pos] at high
    omega
  · have low := scale_anti pos down le
    have high := scale_anti pos down nonneg
    rw [scale_one pos] at low
    rw [scale_zero] at high
    omega

theorem abs_scale_le (pos : 0 < n) (nonneg : 0 ≤ g) (le : g ≤ n) : |scale v g n| ≤ |v| := by
  obtain ⟨low, high⟩ := scale_between (v := v) pos nonneg le
  rw [abs_le]
  rcases Int.le_total 0 v with up | down
  · rw [abs_of_nonneg up]
    omega
  · rw [abs_of_nonpos down]
    omega

theorem lerp_between (pos : 0 < n) (nonneg : 0 ≤ g) (le : g ≤ n) :
    min p t ≤ lerp p t g n ∧ lerp p t g n ≤ max p t := by
  obtain ⟨low, high⟩ := scale_between (v := t - p) pos nonneg le
  rw [lerp]
  omega

theorem lerp_mono (pos : 0 < n) (up : p ≤ t) (le : g ≤ h) : lerp p t g n ≤ lerp p t h n := by
  have mono := scale_mono (v := t - p) pos (by omega) le
  rw [lerp, lerp]
  omega

theorem lerp_anti (pos : 0 < n) (down : t ≤ p) (le : g ≤ h) : lerp p t h n ≤ lerp p t g n := by
  have anti := scale_anti (v := t - p) pos (by omega) le
  rw [lerp, lerp]
  omega

end

/-! ## Words -/

section

variable {n m s : Nat}

/-- A result that fits has lost nothing. -/
theorem toInt_of_bmod {x : BitVec n} {z : Int} (value : x.toInt = z.bmod (2 ^ n))
    (low : -2 ^ n ≤ 2 * z) (high : 2 * z < 2 ^ n) : x.toInt = z := by
  rw [value]
  refine Int.bmod_eq_of_le_mul_two ?_ ?_
  · rw [Nat.cast_pow, Nat.cast_ofNat, Int.mul_comm]
    exact low
  · rw [Nat.cast_pow, Nat.cast_ofNat, Int.mul_comm]
    exact high

/-- Bits `s` and up of a word, as far as they fit. -/
theorem toInt_slice {x : BitVec n} (inside : s + m ≤ n) (low : -2 ^ m ≤ 2 * (x.toInt / 2 ^ s))
    (high : 2 * (x.toInt / 2 ^ s) < 2 ^ m) : (x.extractLsb' s m).toInt = x.toInt / 2 ^ s := by
  have shift : x.toInt / 2 ^ s = (x.sshiftRight s).toInt := by
    rw [BitVec.toInt_sshiftRight, Int.shiftRight_eq_div_pow]
    norm_cast
  have bits : x.extractLsb' s m = (x.sshiftRight s).signExtend m := by
    rw [BitVec.signExtend_eq_setWidth_of_le _ (by omega)]
    ext k bound
    rw [BitVec.getElem_extractLsb', BitVec.getElem_setWidth, BitVec.getLsbD_sshiftRight]
    simp [show s + k < n by omega]
    omega
  refine toInt_of_bmod ?_ low high
  rw [bits, BitVec.toInt_signExtend_eq_toInt_bmod_of_le _ (by omega), shift]

end

end Codes.FixedPoint
