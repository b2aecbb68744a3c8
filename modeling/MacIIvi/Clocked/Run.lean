import Mathlib.Algebra.Order.Group.Nat
import Mathlib.Tactic.Common

/-!
# Runs of synchronous systems

A clocked design is a relation between the snapshot taken at one clock and the
snapshot taken at the next. A run is an infinite sequence of snapshots, so that
an environment which does nothing is a run as well. Below are the rules for
invariants, for progress, and for runs that are evaluated.
-/

namespace Clocked

universe u

/-- One behaviour of a synchronous system: its snapshot at every clock. -/
structure Run {σ : Type u} (Step : σ → σ → Prop) where
  state : Nat → σ
  step : ∀ t, Step (state t) (state (t + 1))

/-- The values an observer takes at the clocks `start, …, t - 1`. -/
def record {α : Type} (observe : Nat → Option α) (start t : Nat) : List α :=
  (List.range' start (t - start)).filterMap observe

section Record

variable {α : Type} {observe : Nat → Option α} {start t : Nat}

@[simp] theorem record_self (observe : Nat → Option α) (t : Nat) : record observe t t = [] := by
  simp [record]

theorem record_succ (h : start ≤ t) :
    record observe start (t + 1) = record observe start t ++ (observe t).toList := by
  have len : t + 1 - start = t - start + 1 := by omega
  have here : start + 1 * (t - start) = t := by omega
  unfold record
  rw [len, List.range'_concat, List.filterMap_append, here]
  cases seen : observe t <;> simp [seen]

/-- A record only grows. -/
theorem record_prefix {t' : Nat} (h : start ≤ t) (later : t ≤ t') :
    record observe start t <+: record observe start t' := by
  induction t', later using Nat.le_induction with
  | base => exact List.prefix_refl _
  | succ t' later ih =>
    rw [record_succ (by omega)]
    exact ih.trans (List.prefix_append _ _)

end Record

/-- What each clock from `start` on keeps, holds at all clocks after one. -/
theorem kept_from {P : Nat → Prop} {start t u : Nat} (keep : ∀ t ≥ start, P t → P (t + 1))
    (later : start ≤ t) (here : P t) (h : t ≤ u) : P u := by
  induction u, h using Nat.le_induction with
  | base => exact here
  | succ u h ih => exact keep u (by omega) ih

/-! ### Machines that are run on fixed inputs -/

section Machine

variable {σ : Type u} {next : Nat → σ → σ} {ok : Nat → σ → Bool}

/-- One pass over `n` clocks of a machine that is in state `s` at clock `t`. -/
def passes (next : Nat → σ → σ) (ok : Nat → σ → Bool) : Nat → Nat → σ → Bool
  | 0, _, _ => true
  | n + 1, t, s => ok t s && passes next ok n (t + 1) (next t s)

/-- What is checked in one pass holds at each of its clocks. -/
theorem of_passes (state : Nat → σ) (steps : ∀ t, state (t + 1) = next t (state t)) {n t : Nat}
    (pass : passes next ok n t (state t) = true) : ∀ k < n, ok (t + k) (state (t + k)) = true := by
  induction n generalizing t with
  | zero => exact fun k inside => absurd inside (Nat.not_lt_zero k)
  | succ n ih =>
    rw [passes, Bool.and_eq_true, ← steps] at pass
    intro k inside
    cases k with
    | zero => exact pass.1
    | succ k =>
      rw [show t + (k + 1) = t + 1 + k by omega]
      exact ih pass.2 k (Nat.lt_of_succ_lt_succ inside)

end Machine

namespace Run

variable {σ : Type u} {Step : σ → σ → Prop}

/-- What holds at clock `start` and is kept by every later step holds from
`start` on. The step hypothesis sees the clock, so that a condition on the run
can be used at each step. -/
theorem invariant (r : Run Step) {I : σ → Prop} {start : Nat} (initial : I (r.state start))
    (keep : ∀ t, start ≤ t → I (r.state t) → I (r.state (t + 1))) :
    ∀ t, start ≤ t → I (r.state t) := by
  intro t ht
  induction t, ht using Nat.le_induction with
  | base => exact initial
  | succ t ht ih => exact keep t ht ih

/-- Progress by descent: as long as the goal has not been reached, some later
clock has reached it or has a smaller measure. -/
theorem eventually_of_descent (r : Run Step) (m : σ → Nat) (Goal : σ → Prop) (start : Nat)
    (descend : ∀ t, start ≤ t → ¬ Goal (r.state t) →
      ∃ u, t ≤ u ∧ (Goal (r.state u) ∨ m (r.state u) < m (r.state t))) :
    ∃ u, start ≤ u ∧ Goal (r.state u) := by
  have bounded : ∀ n t, start ≤ t → m (r.state t) ≤ n →
      ∃ u, start ≤ u ∧ Goal (r.state u) := by
    intro n
    induction n with
    | zero =>
      intro t ht hm
      by_cases goal : Goal (r.state t)
      · exact ⟨t, ht, goal⟩
      · obtain ⟨u, htu, reached | less⟩ := descend t ht goal
        · exact ⟨u, by omega, reached⟩
        · omega
    | succ n ih =>
      intro t ht hm
      by_cases goal : Goal (r.state t)
      · exact ⟨t, ht, goal⟩
      · obtain ⟨u, htu, reached | less⟩ := descend t ht goal
        · exact ⟨u, by omega, reached⟩
        · exact ih u (by omega) (by omega)
  exact bounded _ start (Nat.le_refl _) (Nat.le_refl _)

/-- The values an observer of the snapshots takes at the clocks `start, …, t - 1`. -/
def log (r : Run Step) {α : Type} (observe : σ → Option α) (start t : Nat) : List α :=
  (List.range' start (t - start)).filterMap fun u => observe (r.state u)

variable {α : Type} {observe : σ → Option α} {start t : Nat}

theorem log_self (r : Run Step) (observe : σ → Option α) (t : Nat) : r.log observe t t = [] :=
  record_self _ t

theorem log_succ (r : Run Step) (h : start ≤ t) :
    r.log observe start (t + 1) =
      r.log observe start t ++ (observe (r.state t)).toList :=
  record_succ h

end Run

end Clocked
