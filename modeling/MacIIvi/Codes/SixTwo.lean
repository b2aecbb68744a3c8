import Mathlib.Data.BitVec
import Mathlib.Tactic.Common

/-!
# Six-and-two packing

Three bytes go out as four values of six bits: their upper bit pairs together,
then the lower six bits of each. A last group may hold fewer bytes.
-/

namespace Codes.SixTwo

/-- The upper pairs of three bytes. -/
def upper (x y z : BitVec 8) : BitVec 6 :=
  x.extractLsb' 6 2 ++ y.extractLsb' 6 2 ++ z.extractLsb' 6 2

/-- The lower six bits of a byte. -/
def lower (x : BitVec 8) : BitVec 6 := x.extractLsb' 0 6

/-- A full group. -/
def group (x y z : BitVec 8) : List (BitVec 6) := [upper x y z, lower x, lower y, lower z]

def pack : List (BitVec 8) → List (BitVec 6)
  | [] => []
  | [x] => [upper x 0 0, lower x]
  | [x, y] => [upper x y 0, lower x, lower y]
  | x :: y :: z :: rest => group x y z ++ pack rest

/-- The byte with the given lower bits and the pair at bit `i` of the uppers. -/
def join (i : Nat) (h l : BitVec 6) : BitVec 8 := h.extractLsb' i 2 ++ l

def unpack : List (BitVec 6) → List (BitVec 8)
  | h :: a :: b :: c :: rest => join 4 h a :: join 2 h b :: join 0 h c :: unpack rest
  | [h, a, b] => [join 4 h a, join 2 h b]
  | [h, a] => [join 4 h a]
  | _ => []

theorem halves (x : BitVec 8) : x.extractLsb' 6 2 ++ x.extractLsb' 0 6 = x := by
  rw [BitVec.extractLsb'_append_extractLsb'_eq_extractLsb' (by decide)]
  exact BitVec.extractLsb'_eq_self

theorem pairs (p q r : BitVec 2) : (p ++ q ++ r).extractLsb' 4 2 = p ∧
    (p ++ q ++ r).extractLsb' 2 2 = q ∧ (p ++ q ++ r).extractLsb' 0 2 = r := by
  refine ⟨?_, ?_, BitVec.extractLsb'_append_eq_right⟩
  · rw [BitVec.extractLsb'_append_eq_of_le (by decide)]
    exact BitVec.extractLsb'_append_eq_left
  · rw [BitVec.extractLsb'_append_eq_of_le (by decide)]
    exact BitVec.extractLsb'_append_eq_right

theorem join_first (x y z : BitVec 8) : join 4 (upper x y z) (lower x) = x := by
  rw [join, upper, lower, (pairs _ _ _).1, halves]

theorem join_second (x y z : BitVec 8) : join 2 (upper x y z) (lower y) = y := by
  rw [join, upper, lower, (pairs _ _ _).2.1, halves]

theorem join_third (x y z : BitVec 8) : join 0 (upper x y z) (lower z) = z := by
  rw [join, upper, lower, (pairs _ _ _).2.2, halves]

theorem unpack_pack (bytes : List (BitVec 8)) : unpack (pack bytes) = bytes := by
  induction bytes using pack.induct with
  | case1 => rfl
  | case2 x => rw [pack, unpack, join_first]
  | case3 x y => rw [pack, unpack, join_first, join_second]
  | case4 x y z rest ih =>
    rw [pack, group]
    simp only [List.cons_append, List.nil_append]
    rw [unpack, join_first, join_second, join_third, ih]

theorem length_pack (bytes : List (BitVec 8)) :
    (pack bytes).length = bytes.length + (bytes.length + 2) / 3 := by
  induction bytes using pack.induct with
  | case1 => rfl
  | case2 x => simp [pack]
  | case3 x y => simp [pack]
  | case4 x y z rest ih =>
    rw [pack, List.length_append, ih]
    simp only [group, List.length_cons, List.length_nil]
    omega

/-- A message that is given byte by byte is packed group by group. -/
theorem pack_range (bytes : Nat → BitVec 8) (n : Nat) (rest : List (BitVec 8)) :
    pack ((List.range (3 * n)).map bytes ++ rest) =
      (List.range n).flatMap (fun g => group (bytes (3 * g)) (bytes (3 * g + 1)) (bytes (3 * g + 2))) ++
        pack rest := by
  induction n generalizing rest with
  | zero => rfl
  | succ n ih =>
    rw [Nat.mul_succ, List.range_succ, List.range_succ, List.range_succ]
    simp only [List.map_append, List.map_singleton, List.append_assoc]
    rw [ih, List.range_succ (n := n), List.flatMap_append, List.flatMap_singleton, List.append_assoc]
    rfl

end Codes.SixTwo
