import Mathlib.Data.BitVec
import Mathlib.Tactic.Common

/-!
# A strobe behind a synchronizer

A toggling strobe passes three flip-flops, and a fourth remembers the level that
was handled last. The level of sample `0` fills all of them at the start.
-/

namespace Clocked

/-- The four flip-flops `t` clocks after the start. -/
structure Strobe (level : Nat → Bool) (t : Nat) (s1 s2 s3 d : Bool) : Prop where
  s1 : s1 = level t
  s2 : s2 = level (t - 1)
  s3 : s3 = level (t - 2)
  d : d = level (t - 3)

namespace Strobe

variable {level : Nat → Bool} {t : Nat} {s1 s2 s3 d d' : Bool}

theorem start (level : Nat → Bool) : Strobe level 0 (level 0) (level 0) (level 0) (level 0) :=
  ⟨rfl, rfl, rfl, rfl⟩

theorem next (strobe : Strobe level t s1 s2 s3 d) {s0 : Bool} (port : s0 = level (t + 1))
    (seen : d' = if s3 != d then s3 else d) : Strobe level (t + 1) s0 s1 s2 d' := by
  have last : d' = s3 := by
    rw [seen]
    cases s3 <;> cases d <;> rfl
  exact ⟨port, strobe.s1, strobe.s2, last.trans strobe.s3⟩

/-- The edge that shows at clock `t` is the one after sample `t - 3`. -/
theorem edge (strobe : Strobe level t s1 s2 s3 d) :
    (s3 != d) = (decide (3 ≤ t) && level (t - 3) != level (t - 3 + 1)) := by
  rw [strobe.s3, strobe.d]
  by_cases late : 3 ≤ t
  · have next : t - 2 = t - 3 + 1 := by omega
    rw [next, bne_comm]
    simp [late]
  · have first : t - 2 = 0 := by omega
    have second : t - 3 = 0 := by omega
    rw [first, second]
    simp [late]

end Strobe

end Clocked
