import Mathlib.Data.Nat.Find
import Mathlib.Tactic.Common

/-!
# Flags that stay until they are cleared

Each source of a run has a flag, which an event sets and which something may clear.
-/

namespace Clocked

variable {S : Type} {flag event clears : Nat → S → Prop}

/-- An event, and a flag that is set, are found later unless they have been cleared. -/
def Kept (flag event clears : Nat → S → Prop) : Prop :=
  ∀ k u t, u < t → (event u k ∨ flag u k) → (∀ v, u ≤ v → v < t → ¬ clears v k) → flag t k

/-- It is enough to look at one clock at a time. -/
theorem kept_iff : Kept flag event clears ↔
    ∀ t k, (event t k ∨ flag t k) → ¬ clears t k → flag (t + 1) k := by
  constructor
  · intro kept t k here open_
    refine kept k t (t + 1) (Nat.lt_succ_self t) here fun v from_ before => ?_
    obtain rfl : v = t := by omega
    exact open_
  · intro step k u t order here open_
    induction t, order using Nat.le_induction with
    | base => exact step u k here (open_ u (Nat.le_refl u) (Nat.lt_succ_self u))
    | succ t order ih =>
      have before := ih fun v from_ upTo => open_ v from_ (Nat.lt_succ_of_lt upTo)
      exact step t k (.inr before) (open_ t (Nat.le_of_lt order) (Nat.lt_succ_self t))

end Clocked
