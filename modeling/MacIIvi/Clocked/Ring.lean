import Mathlib.Data.Nat.ModEq
import Mathlib.Logic.Function.Basic
import Mathlib.Tactic.Ring

/-!
# Rings of equally sized blocks in a flat memory

A ring keeps a window of consecutive blocks of a stream in a memory of
`slots * size` cells. Block `b` lives in slot `b % slots`. The facts needed of
it are that two blocks of one window never share a cell, and how the set of
filled blocks moves when a cell is written, a block is completed or a block is
retired.
-/

namespace Clocked.Ring

universe u

/-- Cell of offset `w` of block `b`. -/
def cell (slots size b w : Nat) : Nat := (b % slots) * size + w

variable {slots size : Nat}

/-- The linear stream position taken modulo the memory size is the ring cell. -/
theorem linear_mod (b w : Nat) (hw : w < size) (hs : 0 < slots) :
    (b * size + w) % (slots * size) = cell slots size b w := by
  have split : b * size + w = (b / slots) * (slots * size) + cell slots size b w := by
    have hb := Nat.div_add_mod b slots
    unfold cell
    calc
      b * size + w = (slots * (b / slots) + b % slots) * size + w := by rw [hb]
      _ = (b / slots) * (slots * size) + (b % slots * size + w) := by ring
  have small : cell slots size b w < slots * size := by
    have hm := Nat.mod_lt b hs
    unfold cell
    calc
      b % slots * size + w < b % slots * size + size := by omega
      _ = (b % slots + 1) * size := by ring
      _ ≤ slots * size := Nat.mul_le_mul_right _ hm
  rw [split, Nat.mul_add_mod_self_right, Nat.mod_eq_of_lt small]

/-- Two different blocks less than one ring apart have different slots. -/
theorem slot_ne {a b : Nat} (hab : a < b) (near : b < a + slots) : a % slots ≠ b % slots := by
  intro same
  have dvd : slots ∣ b - a := (Nat.modEq_iff_dvd' (Nat.le_of_lt hab)).mp same
  have := Nat.le_of_dvd (by omega) dvd
  omega

/-- Inside one window a cell determines its block and its offset. -/
theorem cell_inj {a b v w : Nat} (hv : v < size) (hw : w < size) (hab : a ≤ b)
    (near : b < a + slots) (same : cell slots size a v = cell slots size b w) :
    a = b ∧ v = w := by
  unfold cell at same
  have slotEq : a % slots = b % slots := by
    have hva : (a % slots * size + v) / size = a % slots := by
      rw [Nat.mul_comm, Nat.mul_add_div (by omega), Nat.div_eq_of_lt hv, Nat.add_zero]
    have hwb : (b % slots * size + w) / size = b % slots := by
      rw [Nat.mul_comm, Nat.mul_add_div (by omega), Nat.div_eq_of_lt hw, Nat.add_zero]
    rw [← hva, ← hwb, same]
  rw [slotEq] at same
  refine ⟨?_, by omega⟩
  by_contra different
  exact slot_ne (by omega) near slotEq

variable {α : Type u}

/-- The blocks `lo, …, hi - 1` are all in the memory. -/
def Filled (slots size : Nat) (mem : Nat → α) (content : Nat → Nat → α) (lo hi : Nat) : Prop :=
  ∀ b w, lo ≤ b → b < hi → w < size → mem (cell slots size b w) = content b w

/-- The first `n` cells of block `b` are in the memory. -/
def Partial (slots size : Nat) (mem : Nat → α) (content : Nat → Nat → α) (b n : Nat) : Prop :=
  ∀ w, w < n → w < size → mem (cell slots size b w) = content b w

variable {mem : Nat → α} {content : Nat → Nat → α} {lo hi : Nat}

theorem filled_empty (mem : Nat → α) (content : Nat → Nat → α) (lo : Nat) :
    Filled slots size mem content lo lo := by
  intro b w hlo hhi
  omega

/-- Retiring blocks from the low end keeps the rest. -/
theorem Filled.retire (filled : Filled slots size mem content lo hi) {lo' : Nat} (h : lo ≤ lo') :
    Filled slots size mem content lo' hi :=
  fun b w hb => filled b w (Nat.le_trans h hb)

/-- Writing into the block at the frontier leaves every filled block alone, as
long as the frontier is less than one ring ahead of the window. -/
theorem Filled.write (filled : Filled slots size mem content lo hi) (near : hi < lo + slots)
    {w : Nat} (hw : w < size) (value : α) :
    Filled slots size (Function.update mem (cell slots size hi w) value) content lo hi := by
  intro b v hlo hhi hv
  rw [Function.update_of_ne]
  · exact filled b v hlo hhi hv
  · intro same
    have := cell_inj hv hw (Nat.le_of_lt hhi) (by omega) same
    omega

/-- Completing the block at the frontier moves the frontier. -/
theorem Filled.complete (filled : Filled slots size mem content lo hi)
    (whole : Partial slots size mem content hi size) :
    Filled slots size mem content lo (hi + 1) := by
  intro b w hlo hhi hw
  by_cases here : b = hi
  · subst here
    exact whole w hw hw
  · exact filled b w hlo (by omega) hw

theorem partial_zero (mem : Nat → α) (content : Nat → Nat → α) (b : Nat) :
    Partial slots size mem content b 0 := by
  intro w hw
  omega

/-- Writing the next cell of a block in progress. -/
theorem Partial.write {b n : Nat} (part : Partial slots size mem content b n) (hn : n < size) :
    Partial slots size (Function.update mem (cell slots size b n) (content b n)) content b (n + 1) := by
  intro w hw hsize
  by_cases here : w = n
  · subst here
    rw [Function.update_self]
  · rw [Function.update_of_ne]
    · exact part w (by omega) hsize
    · unfold cell
      omega

end Clocked.Ring
