import Mathlib.Logic.Function.Basic
import Mathlib.Tactic.Common

/-!
# Synchronous dynamic memories

A chip has banks of rows, and at most one row of a bank is open. Its command bus has rules:
what must have been issued before a command, and how many clocks must lie between. A
controller that keeps them may forget the banks and the clocks: what is left is a memory of
cells that writes change and nothing else does.
-/

namespace Dram

/-- What a chip asks of its controller, in clocks except for the number of refreshes. -/
structure Timing where
  /-- From power-up to the first command. -/
  powerUp : Nat
  /-- Refreshes before the mode is loaded. -/
  refreshes : Nat
  /-- From the opening of a row to an access in it. -/
  rcd : Nat
  /-- From a command to a row or to the whole chip to the next one. -/
  row : Nat
  /-- From an access to the next command to a row or to the whole chip. -/
  recover : Nat

/-- An access may close its row, and a precharge closes the row of one bank or of all; a
write says what it makes of the word. -/
inductive Command (Bank Row Col Mode W : Type) where
  | nop
  | active (b : Bank) (r : Row)
  | read (b : Bank) (c : Col) (close : Bool)
  | write (b : Bank) (c : Col) (close : Bool) (put : W → W)
  | precharge (b : Option Bank)
  | refresh
  | loadMode (m : Mode)

structure Chip (Bank Row Col Mode W : Type) where
  mem : Bank → Row → Col → W
  opened : Bank → Option Row
  sinceRow : Nat
  sinceColumn : Nat
  precharged : Bool
  refreshed : Nat
  mode : Option Mode

namespace Chip

variable {Bank Row Col Mode W : Type} (T : Timing) (s : Chip Bank Row Col Mode W)

/-- A chip after power-up: its contents are unknown. -/
structure Fresh : Prop where
  opened : ∀ b, s.opened b = none
  sinceRow : s.sinceRow = 0
  sinceColumn : s.sinceColumn = 0
  precharged : s.precharged = false
  refreshed : s.refreshed = 0
  mode : s.mode = none

/-- Enough clocks have passed for a command to a row or to the whole chip. -/
def Rested : Prop := T.row ≤ s.sinceRow ∧ T.recover ≤ s.sinceColumn

def Booted : Prop := s.precharged = true ∧ T.refreshes ≤ s.refreshed ∧ s.mode.isSome = true

/-- The rules of the command bus. -/
def Accepts : Command Bank Row Col Mode W → Prop
  | .nop => True
  | .active b _ => s.Booted T ∧ s.opened b = none ∧ s.Rested T
  | .read b _ _ | .write b _ _ _ => (s.opened b).isSome = true ∧ T.rcd ≤ s.sinceRow
  | .precharge _ => (s.precharged = true ∨ T.powerUp ≤ s.sinceRow) ∧ s.Rested T
  | .refresh => s.precharged = true ∧ (∀ b, s.opened b = none) ∧ s.Rested T
  | .loadMode _ =>
    s.precharged = true ∧ T.refreshes ≤ s.refreshed ∧ (∀ b, s.opened b = none) ∧ s.Rested T

variable [DecidableEq Bank] [DecidableEq Row] [DecidableEq Col]

/-- The row `b` has open after an access. -/
def closing (b : Bank) (close : Bool) : Bank → Option Row :=
  if close then Function.update s.opened b none else s.opened

/-- The cells after a write to the open row of a bank. -/
def store (b : Bank) (c : Col) (put : W → W) : Bank → Row → Col → W :=
  fun b' r c' => if b' = b ∧ s.opened b = some r ∧ c' = c then put (s.mem b' r c') else s.mem b' r c'

def next : Command Bank Row Col Mode W → Chip Bank Row Col Mode W
  | .nop => { s with sinceRow := s.sinceRow + 1, sinceColumn := s.sinceColumn + 1 }
  | .active b r =>
    { s with
      opened := Function.update s.opened b (some r)
      sinceRow := 1, sinceColumn := s.sinceColumn + 1 }
  | .read b _ close =>
    { s with opened := s.closing b close, sinceRow := s.sinceRow + 1, sinceColumn := 1 }
  | .write b c close put =>
    { s with
      mem := s.store b c put, opened := s.closing b close
      sinceRow := s.sinceRow + 1, sinceColumn := 1 }
  | .precharge none =>
    { s with
      opened := fun _ => none, precharged := true
      sinceRow := 1, sinceColumn := s.sinceColumn + 1 }
  | .precharge (some b) =>
    { s with
      opened := Function.update s.opened b none
      sinceRow := 1, sinceColumn := s.sinceColumn + 1 }
  | .refresh =>
    { s with refreshed := s.refreshed + 1, sinceRow := 1, sinceColumn := s.sinceColumn + 1 }
  | .loadMode m => { s with mode := some m, sinceRow := 1, sinceColumn := s.sinceColumn + 1 }

/-! ## What a command leaves alone -/

variable {T} {s}

/-- A booted chip stays booted. -/
theorem Booted.next (booted : s.Booted T) (c : Command Bank Row Col Mode W) :
    (s.next c).Booted T := by
  obtain ⟨precharged, refreshed, mode⟩ := booted
  cases c with
  | refresh => exact ⟨precharged, Nat.le_succ_of_le refreshed, mode⟩
  | precharge b =>
    cases b with
    | none => exact ⟨rfl, refreshed, mode⟩
    | some b => exact ⟨precharged, refreshed, mode⟩
  | loadMode m => exact ⟨precharged, refreshed, rfl⟩
  | nop | active | read | write => exact ⟨precharged, refreshed, mode⟩

/-- Only a write changes cells. -/
theorem next_mem {c : Command Bank Row Col Mode W} (other : ∀ b k close put, c ≠ .write b k close put) :
    (s.next c).mem = s.mem := by
  cases c with
  | write b k close put => exact absurd rfl (other b k close put)
  | precharge b => cases b <;> rfl
  | nop | active | read | refresh | loadMode => rfl

/-- A write changes the word of its column in the open row. -/
theorem next_write {b : Bank} {r : Row} (here : s.opened b = some r) (k : Col) (close : Bool)
    (put : W → W) (b' : Bank) (r' : Row) (k' : Col) :
    (s.next (.write b k close put)).mem b' r' k' =
      if (b', r', k') = (b, r, k) then put (s.mem b' r' k') else s.mem b' r' k' := by
  change s.store b k put b' r' k' = _
  unfold store
  rw [here]
  simp only [Option.some.injEq, Prod.mk.injEq, eq_comm]

omit [DecidableEq Row] [DecidableEq Col] in
/-- Where no row but that of `b` is open, an access that closes it leaves no row open. -/
theorem closing_closed {b : Bank} (alone : ∀ b' ≠ b, s.opened b' = none) (b' : Bank) :
    s.closing b true b' = none := by
  by_cases same : b' = b
  · subst same
    exact Function.update_self ..
  · exact (Function.update_of_ne same ..).trans (alone b' same)

end Chip

end Dram
