import Mathlib.Data.Nat.ModEq
import Mathlib.Logic.Function.Basic
import Mathlib.Tactic.Common

/-!
# A queue in a circular memory

A hardware queue of `size` cells keeps a read pointer and a fill count; the
entries are the cells from the read pointer on, taken modulo the size.
-/

namespace Clocked.Queue

universe u

variable {α : Type u} {size : Nat}

/-- The entries of the queue, oldest first. -/
def entries (mem : Nat → α) (size rd count : Nat) : List α :=
  (List.range count).map fun i => mem ((rd + i) % size)

@[simp] theorem entries_zero (mem : Nat → α) (rd : Nat) : entries mem size rd 0 = [] := rfl

@[simp] theorem length_entries (mem : Nat → α) (rd count : Nat) :
    (entries mem size rd count).length = count := by
  simp [entries]

/-- Two offsets below the size name different cells. -/
theorem cell_ne {rd i j : Nat} (hij : i < j) (hj : j < size) :
    (rd + i) % size ≠ (rd + j) % size := by
  intro same
  have dvd : size ∣ (rd + j) - (rd + i) :=
    (Nat.modEq_iff_dvd' (by omega)).mp same
  have := Nat.le_of_dvd (by omega) dvd
  omega

/-- Writing the cell behind the newest entry appends it, if one is free. -/
theorem entries_push (mem : Nat → α) (rd : Nat) {count : Nat} (free : count < size) (e : α) :
    entries (Function.update mem ((rd + count) % size) e) size rd (count + 1) =
      entries mem size rd count ++ [e] := by
  unfold entries
  rw [List.range_succ, List.map_append]
  congr 1
  · apply List.map_congr_left
    intro i hi
    rw [List.mem_range] at hi
    rw [Function.update_of_ne (cell_ne hi free)]
  · simp

/-- The oldest entry is in the cell of the read pointer. -/
theorem entries_pop (mem : Nat → α) (rd count : Nat) :
    entries mem size rd (count + 1) =
      mem (rd % size) :: entries mem size ((rd + 1) % size) count := by
  unfold entries
  rw [List.range_succ_eq_map, List.map_cons, List.map_map]
  congr 1
  apply List.map_congr_left
  intro i _
  simp only [Function.comp_apply, Nat.mod_add_mod]
  congr 2
  omega

/-- The first `k` entries, and the rest. -/
theorem entries_add (mem : Nat → α) (rd k m : Nat) :
    entries mem size rd (k + m) =
      entries mem size rd k ++ entries mem size ((rd + k) % size) m := by
  unfold entries
  rw [List.range_add, List.map_append, List.map_map]
  congr 1
  apply List.map_congr_left
  intro i _
  simp only [Function.comp_apply, Nat.mod_add_mod, Nat.add_assoc]

/-- A queue with both pointers: of the values put in, `taken` have been taken out, and
the rest is in the memory. -/
structure Holds (mem : Nat → α) (size wr rd count : Nat) (put : List α) (taken : Nat) : Prop where
  rd_lt : rd < size
  wr_eq : wr = (rd + count) % size
  count_le : count ≤ size
  total : count + taken = put.length
  stored : entries mem size rd count = put.drop taken

section Holds

variable {mem : Nat → α} {wr rd count taken : Nat} {put : List α}

theorem holds_empty (mem : Nat → α) (positive : 0 < size) : Holds mem size 0 0 0 [] 0 :=
  ⟨positive, by simp, by omega, rfl, rfl⟩

theorem Holds.push (h : Holds mem size wr rd count put taken) (free : count < size) (e : α) :
    Holds (Function.update mem wr e) size ((wr + 1) % size) rd (count + 1) (put ++ [e]) taken where
  rd_lt := h.rd_lt
  wr_eq := by rw [h.wr_eq, Nat.mod_add_mod, Nat.add_assoc]
  count_le := free
  total := by
    have total := h.total
    rw [List.length_append, List.length_singleton]
    omega
  stored := by
    have short : taken ≤ put.length := by
      have total := h.total
      omega
    rw [h.wr_eq, entries_push mem rd free, h.stored, List.drop_append_of_le_length short]

theorem Holds.pop (h : Holds mem size wr rd (count + 1) put taken) :
    Holds mem size wr ((rd + 1) % size) count put (taken + 1) where
  rd_lt := Nat.mod_lt _ (Nat.zero_lt_of_lt h.rd_lt)
  wr_eq := by
    rw [h.wr_eq, Nat.mod_add_mod]
    congr 1
    omega
  count_le := by
    have le := h.count_le
    omega
  total := by
    have total := h.total
    omega
  stored := by
    have stored := h.stored
    rw [entries_pop] at stored
    rw [← List.tail_drop, ← stored]
    rfl

/-- The oldest value is in the cell of the read pointer. -/
theorem Holds.oldest (h : Holds mem size wr rd (count + 1) put taken) :
    put[taken]? = some (mem rd) := by
  have stored := h.stored
  rw [entries_pop, Nat.mod_eq_of_lt h.rd_lt] at stored
  rw [← List.head?_drop, ← stored]
  rfl

end Holds

end Clocked.Queue
