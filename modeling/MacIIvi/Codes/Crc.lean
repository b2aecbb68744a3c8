import Mathlib.Data.BitVec
import Mathlib.Tactic.Common

/-!
# Cyclic redundancy checks

The register of a check of width `w`, most significant bit first. Each bit is
added to the top of the register, which then shifts and takes the polynomial
back if a one fell out. Everything rests on the shift being linear.
-/

namespace Codes.Crc

variable {w : Nat}

/-- One shift of the register. -/
def shift (poly c : BitVec w) : BitVec w := if c.msb then c <<< 1 ^^^ poly else c <<< 1

/-- One bit of the message. -/
def feed (poly c : BitVec w) (b : Bool) : BitVec w :=
  shift poly (c ^^^ if b then BitVec.intMin w else 0)

/-- The bits of a byte, most significant first. -/
def bits (d : BitVec 8) : List Bool := (List.range 8).map fun i => d.getLsbD (7 - i)

/-- One byte of the message. -/
def feedByte (poly c : BitVec w) (d : BitVec 8) : BitVec w := (bits d).foldl (feed poly) c

/-- Several shifts. -/
def shifts (poly : BitVec w) : Nat → BitVec w → BitVec w
  | 0, c => c
  | n + 1, c => shifts poly n (shift poly c)

theorem shift_xor (poly a b : BitVec w) : shift poly (a ^^^ b) = shift poly a ^^^ shift poly b := by
  unfold shift
  rw [BitVec.msb_xor, BitVec.shiftLeft_xor_distrib]
  have cancel : a <<< 1 ^^^ poly ^^^ (b <<< 1 ^^^ poly) = a <<< 1 ^^^ b <<< 1 := by
    rw [BitVec.xor_assoc, ← BitVec.xor_assoc poly, BitVec.xor_comm poly, BitVec.xor_assoc,
      BitVec.xor_self, BitVec.xor_zero]
  cases a.msb <;> cases b.msb
  · rfl
  · simp [BitVec.xor_assoc]
  · simp [BitVec.xor_assoc, BitVec.xor_comm poly]
  · simpa using cancel.symm

theorem shifts_xor (poly : BitVec w) (n : Nat) (a b : BitVec w) :
    shifts poly n (a ^^^ b) = shifts poly n a ^^^ shifts poly n b := by
  induction n generalizing a b with
  | zero => rfl
  | succ n ih => rw [shifts, shift_xor, ih, shifts, shifts]

/-- The message adds to what the register alone would become. -/
theorem foldl_feed (poly c : BitVec w) (message : List Bool) :
    message.foldl (feed poly) c =
      shifts poly message.length c ^^^ message.foldl (feed poly) 0 := by
  induction message generalizing c with
  | nil => simp [shifts]
  | cons b rest ih =>
    have here : feed poly c b = shift poly c ^^^ feed poly 0 b := by
      unfold feed
      rw [shift_xor, shift_xor poly 0]
      simp [shift]
    rw [List.foldl_cons, List.foldl_cons, ih, ih (feed poly 0 b), here, shifts_xor,
      BitVec.xor_assoc]
    rfl

/-! ### The 16-bit check of CCITT -/

/-- The polynomial x^16 + x^12 + x^5 + 1. -/
def ccittPoly : BitVec 16 := 0x1021

/-- The check of a message, preset to all ones. -/
def ccitt (message : List (BitVec 8)) : BitVec 16 := message.foldl (feedByte ccittPoly) 0xFFFF

/-- A byte may be added to the top of the register at once. -/
theorem feedByte_ccitt (c : BitVec 16) (d : BitVec 8) :
    feedByte ccittPoly c d = shifts ccittPoly 8 (c ^^^ d ++ 0#8) := by
  have alone : ∀ d : BitVec 8, (bits d).foldl (feed ccittPoly) 0 = shifts ccittPoly 8 (d ++ 0#8) := by
    decide +kernel
  rw [feedByte, foldl_feed, alone, shifts_xor]
  rfl

/-- The upper byte of the register cancels itself and leaves the lower one. -/
theorem xor_upper (c : BitVec 16) : c ^^^ c.extractLsb' 8 8 ++ 0#8 = 0#8 ++ c.extractLsb' 0 8 := by
  ext i hi
  rw [BitVec.getElem_xor, BitVec.getElem_append, BitVec.getElem_append]
  by_cases low : i < 8
  · simp [low, BitVec.getLsbD_eq_getElem hi]
  · have back : 8 + (i - 8) = i := by omega
    simp [low, back, BitVec.getLsbD_eq_getElem hi]

/-- A message followed by its own check has check zero. -/
theorem ccitt_append_self (message : List (BitVec 8)) :
    ccitt (message ++ [(ccitt message).extractLsb' 8 8, (ccitt message).extractLsb' 0 8]) = 0 := by
  have down : ∀ d : BitVec 8, shifts ccittPoly 8 (0#8 ++ d) = d ++ 0#8 := by decide +kernel
  have out : shifts ccittPoly 8 0 = 0 := by decide
  unfold ccitt
  rw [List.foldl_append, List.foldl_cons, List.foldl_cons, List.foldl_nil, feedByte_ccitt,
    feedByte_ccitt, xor_upper, down, BitVec.xor_self]
  exact out

end Codes.Crc
