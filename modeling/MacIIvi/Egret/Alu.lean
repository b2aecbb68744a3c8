import Mathlib.Data.BitVec
import Mathlib.Data.Nat.Bitwise
import Mathlib.Tactic.Common
import Mathlib.Tactic.Ring

/-!
# The arithmetic of the Egret's processor

m68hc05_alu.sv: the carry-save multiplier of m68hc05_core.sv.
-/

namespace MacIIvi.Egret

abbrev Byte := BitVec 8
abbrev Word := BitVec 16

/-- `fadd`: the carry and the sum. -/
def fadd (a b cin : Bool) : Bool × Bool :=
  ((a && b) || (a && cin) || (b && cin), a ^^ (b ^^ cin))

/-- `add8`: the carry out and the sum. -/
def add8 (a b : Byte) (cin : Bool) : Bool × Byte :=
  BitVec.iunfoldr (fun i c => fadd (a.getLsbD i) (b.getLsbD i) c) cin

structure CarrySave where
  sum : Byte
  cout : Byte

/-- `add8c`: eight full adders side by side. -/
def add8c (b : Bool) (a sumIn cin : Byte) : CarrySave :=
  let aa := if b then a else 0
  { sum := aa ^^^ sumIn ^^^ cin
    cout := (aa &&& sumIn) ||| (aa &&& cin) ||| (sumIn &&& cin) }

/-- The multiplier behind the stages `0, …, n - 1`: the shifted sums `ss`, the
carries, and the bits `prod[0], …, prod[n - 1]` as a number. -/
structure Stages where
  ss : Byte
  c : Byte
  prod : Nat

def stages (a b : Byte) : Nat → Stages
  | 0 => ⟨0, 0, 0⟩
  | n + 1 =>
    let before := stages a b n
    let st := add8c (b.getLsbD n) a before.ss before.c
    ⟨st.sum >>> 1, st.cout, before.prod + (st.sum.getLsbD 0).toNat * 2 ^ n⟩

/-- `mul8` -/
def mul8 (a b : Byte) : Word :=
  let last := stages a b 8
  (add8 last.ss last.c false).2 ++ BitVec.ofNat 8 last.prod

/-! ## The product -/

theorem add8_eq (a b : Byte) (cin : Bool) :
    (add8 a b cin).2 = a + b + BitVec.setWidth 8 (BitVec.ofBool cin) := by
  have same : add8 a b cin = BitVec.adc a b cin := by
    unfold add8 BitVec.adc
    congr 1
  rw [same, BitVec.adc_spec]

/-- Full adders side by side keep the sum of the three numbers. -/
theorem carry_save (n : Nat) : ∀ x y z : Nat, x < 2 ^ n → y < 2 ^ n → z < 2 ^ n →
    (x ^^^ y ^^^ z) + 2 * ((x &&& y) ||| (x &&& z) ||| (y &&& z)) = x + y + z := by
  induction n with
  | zero =>
    intro x y z hx hy hz
    have hx : x = 0 := by omega
    have hy : y = 0 := by omega
    have hz : z = 0 := by omega
    subst hx hy hz
    rfl
  | succ n ih =>
    intro x y z hx hy hz
    have half := ih (x / 2) (y / 2) (z / 2) (by omega) (by omega) (by omega)
    rw [← Nat.xor_div_two, ← Nat.xor_div_two, ← Nat.and_div_two, ← Nat.and_div_two, ← Nat.and_div_two,
      ← Nat.or_div_two, ← Nat.or_div_two] at half
    have sum : (x ^^^ y ^^^ z) % 2 = 1 ↔ ¬ (¬ (x % 2 = 1 ↔ y % 2 = 1) ↔ z % 2 = 1) := by
      rw [Nat.xor_mod_two_eq_one, Nat.xor_mod_two_eq_one]
    have carry : ((x &&& y) ||| (x &&& z) ||| (y &&& z)) % 2 = 1 ↔
        (x % 2 = 1 ∧ y % 2 = 1 ∨ x % 2 = 1 ∧ z % 2 = 1) ∨ y % 2 = 1 ∧ z % 2 = 1 := by
      simp only [Nat.or_mod_two_eq_one, Nat.and_mod_two_eq_one]
    generalize x ^^^ y ^^^ z = s at *
    generalize (x &&& y) ||| (x &&& z) ||| (y &&& z) = c at *
    -- the full adder of the lowest bits
    have low : s % 2 + 2 * (c % 2) = x % 2 + y % 2 + z % 2 := by
      clear half
      rcases Nat.mod_two_eq_zero_or_one x with hx | hx <;>
        rcases Nat.mod_two_eq_zero_or_one y with hy | hy <;>
        rcases Nat.mod_two_eq_zero_or_one z with hz | hz <;>
        simp [hx, hy, hz] at sum carry ⊢ <;> omega
    omega

theorem add8c_eq (b : Bool) (a sumIn cin : Byte) :
    (add8c b a sumIn cin).sum.toNat + 2 * (add8c b a sumIn cin).cout.toNat =
      b.toNat * a.toNat + sumIn.toNat + cin.toNat := by
  have keep := carry_save 8 (if b then a else 0 : Byte).toNat sumIn.toNat cin.toNat
    (BitVec.isLt _) (BitVec.isLt _) (BitVec.isLt _)
  have gate : (if b then a else 0 : Byte).toNat = b.toNat * a.toNat := by cases b <;> simp
  rw [gate] at keep
  rw [← keep, ← gate]
  rfl

/-- Behind `n` stages stands the product with the `n` low bits of `b`. -/
theorem stages_eq (a b : Byte) (n : Nat) :
    (stages a b n).prod < 2 ^ n ∧
    ((stages a b n).ss.toNat + (stages a b n).c.toNat) * 2 ^ n + (stages a b n).prod =
      a.toNat * (b.toNat % 2 ^ n) := by
  induction n with
  | zero => simp [stages, Nat.mod_one]
  | succ n ih =>
    obtain ⟨small, product⟩ := ih
    have full := add8c_eq (b.getLsbD n) a (stages a b n).ss (stages a b n).c
    have split : b.toNat % 2 ^ (n + 1) = b.toNat % 2 ^ n + 2 ^ n * (b.getLsbD n).toNat := by
      rw [Nat.mod_pow_succ, BitVec.getLsbD, Nat.toNat_testBit]
    have shift : ∀ x : Byte, x.toNat = 2 * (x >>> 1).toNat + (x.getLsbD 0).toNat := by
      intro x
      rw [BitVec.toNat_ushiftRight, BitVec.getLsbD, Nat.toNat_testBit, Nat.shiftRight_eq_div_pow]
      omega
    rw [shift] at full
    have bit := Bool.toNat_le ((add8c (b.getLsbD n) a (stages a b n).ss (stages a b n).c).sum.getLsbD 0)
    simp only [stages]
    generalize add8c (b.getLsbD n) a (stages a b n).ss (stages a b n).c = st at full bit
    constructor
    · rw [Nat.pow_succ]
      have := Nat.mul_le_mul_right (2 ^ n) bit
      omega
    · rw [split]
      calc ((st.sum >>> 1).toNat + st.cout.toNat) * 2 ^ (n + 1) +
            ((stages a b n).prod + (st.sum.getLsbD 0).toNat * 2 ^ n)
          = (2 * (st.sum >>> 1).toNat + (st.sum.getLsbD 0).toNat + 2 * st.cout.toNat) * 2 ^ n +
              (stages a b n).prod := by ring
        _ = ((b.getLsbD n).toNat * a.toNat + (stages a b n).ss.toNat + (stages a b n).c.toNat) * 2 ^ n +
              (stages a b n).prod := by rw [full]
        _ = (b.getLsbD n).toNat * a.toNat * 2 ^ n + a.toNat * (b.toNat % 2 ^ n) := by
              rw [← product]
              ring
        _ = a.toNat * (b.toNat % 2 ^ n + 2 ^ n * (b.getLsbD n).toNat) := by ring

/-- The multiplier multiplies. -/
theorem mul8_eq (a b : Byte) : (mul8 a b).toNat = a.toNat * b.toNat := by
  obtain ⟨small, product⟩ := stages_eq a b 8
  rw [Nat.mod_eq_of_lt b.isLt] at product
  have bound : a.toNat * b.toNat ≤ 255 * 255 := Nat.mul_le_mul (by omega) (by omega)
  have high : (add8 (stages a b 8).ss (stages a b 8).c false).2.toNat =
      (stages a b 8).ss.toNat + (stages a b 8).c.toNat := by
    have none_ : BitVec.setWidth 8 (BitVec.ofBool false) = 0#8 := by decide
    rw [add8_eq, none_, BitVec.add_zero, BitVec.toNat_add]
    omega
  unfold mul8
  rw [BitVec.toNat_append, BitVec.toNat_ofNat, Nat.mod_eq_of_lt small,
    ← Nat.shiftLeft_add_eq_or_of_lt small, high, Nat.shiftLeft_eq, product]

end MacIIvi.Egret
