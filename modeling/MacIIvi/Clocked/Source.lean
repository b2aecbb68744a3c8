import Mathlib.Data.List.Basic
import Mathlib.Tactic.Common

/-!
# Sources that are pulled

A source delivers one value each time it is pulled and moves on. What it
delivers over a stretch of pulls is put together from shorter stretches.
-/

namespace Clocked

/-- A machine that delivers a value at every pull. -/
structure Source (σ α : Type) where
  out : σ → α
  next : σ → σ

namespace Source

variable {σ α : Type} (m : Source σ α)

/-- The state after `n` pulls. -/
def after : Nat → σ → σ
  | 0, s => s
  | n + 1, s => after n (m.next s)

/-- The values of `n` pulls. -/
def emitted : Nat → σ → List α
  | 0, _ => []
  | n + 1, s => m.out s :: emitted n (m.next s)

@[simp] theorem length_emitted (n : Nat) (s : σ) : (m.emitted n s).length = n := by
  induction n generalizing s with
  | zero => rfl
  | succ n ih => rw [emitted, List.length_cons, ih]

theorem after_add (a b : Nat) (s : σ) : m.after (a + b) s = m.after b (m.after a s) := by
  induction a generalizing s with
  | zero => rw [Nat.zero_add, after]
  | succ a ih => rw [Nat.succ_add, after, after, ih]

theorem after_succ (n : Nat) (s : σ) : m.after (n + 1) s = m.next (m.after n s) :=
  m.after_add n 1 s

theorem emitted_add (a b : Nat) (s : σ) :
    m.emitted (a + b) s = m.emitted a s ++ m.emitted b (m.after a s) := by
  induction a generalizing s with
  | zero => rw [Nat.zero_add, emitted, after, List.nil_append]
  | succ a ih => rw [Nat.succ_add, emitted, emitted, after, ih, List.cons_append]

/-- Pulled from `s`, the source delivers `word` and is left in `s'`. -/
def Emits (s : σ) (word : List α) (s' : σ) : Prop :=
  m.emitted word.length s = word ∧ m.after word.length s = s'

variable {m} {s s' s'' : σ} {word word' : List α}

theorem Emits.nil : m.Emits s [] s := ⟨rfl, rfl⟩

theorem Emits.cons (rest : m.Emits (m.next s) word s') : m.Emits s (m.out s :: word) s' :=
  ⟨congrArg (m.out s :: ·) rest.1, rest.2⟩

theorem Emits.append (front : m.Emits s word s') (rest : m.Emits s' word' s'') :
    m.Emits s (word ++ word') s'' := by
  obtain ⟨said, reached⟩ := front
  obtain ⟨said', reached'⟩ := rest
  constructor
  · rw [List.length_append, emitted_add, said, reached, said']
  · rw [List.length_append, after_add, reached, reached']

/-- Stretch after stretch. -/
theorem emits_flatMap (pos : Nat → σ) (word : Nat → List α) (n : Nat)
    (each : ∀ k < n, m.Emits (pos k) (word k) (pos (k + 1))) :
    m.Emits (pos 0) ((List.range n).flatMap word) (pos n) := by
  induction n with
  | zero => exact Emits.nil
  | succ n ih =>
    have front := ih fun k hk => each k (by omega)
    rw [List.range_succ, List.flatMap_append, List.flatMap_singleton]
    exact front.append (each n (by omega))

/-- A counted stretch, whose last pull leads elsewhere. -/
theorem emits_counted (pos : Nat → σ) (word : Nat → α) (n : Nat)
    (each : ∀ k < n, m.out (pos k) = word k ∧ m.next (pos k) = pos (k + 1))
    (last : m.out (pos n) = word n) :
    m.Emits (pos 0) ((List.range (n + 1)).map word) (m.next (pos n)) := by
  have front := emits_flatMap (m := m) pos (fun k => [word k]) n fun k hk => by
    obtain ⟨said, reached⟩ := each k hk
    rw [← said, ← reached]
    exact Emits.nil.cons
  rw [List.range_succ, List.map_append, ← List.flatMap_pure_eq_map]
  refine front.append ?_
  rw [List.map_singleton, ← last]
  exact Emits.nil.cons

end Source

end Clocked
