import Mathlib.Data.BitVec
import Mathlib.Tactic.Common

/-!
# Autokey ciphers

A register gives a key for each word and is then fed the plain word, so that
the receiver, who has recovered the plain word, can follow it. How the register
is fed does not matter for what comes back.
-/

namespace Codes

/-- A key register: the key it gives, and what the plain word makes of it. -/
structure Autokey (σ : Type) (w : Nat) where
  key : σ → BitVec w
  feed : σ → BitVec w → σ

namespace Autokey

variable {σ : Type} {w : Nat} (k : Autokey σ w)

/-- The register after a message. -/
def register (s : σ) (plain : List (BitVec w)) : σ := plain.foldl k.feed s

def encode : σ → List (BitVec w) → List (BitVec w)
  | _, [] => []
  | s, x :: rest => (x ^^^ k.key s) :: encode (k.feed s x) rest

def decode : σ → List (BitVec w) → List (BitVec w)
  | _, [] => []
  | s, y :: rest => (y ^^^ k.key s) :: decode (k.feed s (y ^^^ k.key s)) rest

theorem decode_encode (s : σ) (plain : List (BitVec w)) : k.decode s (k.encode s plain) = plain := by
  induction plain generalizing s with
  | nil => rfl
  | cons x rest ih =>
    have back : x ^^^ k.key s ^^^ k.key s = x := by
      rw [BitVec.xor_assoc, BitVec.xor_self, BitVec.xor_zero]
    rw [encode, decode, back, ih]

@[simp] theorem length_encode (s : σ) (plain : List (BitVec w)) :
    (k.encode s plain).length = plain.length := by
  induction plain generalizing s with
  | nil => rfl
  | cons x rest ih => rw [encode, List.length_cons, ih, List.length_cons]

theorem register_append (s : σ) (front rest : List (BitVec w)) :
    k.register s (front ++ rest) = k.register (k.register s front) rest :=
  List.foldl_append

theorem encode_append (s : σ) (front rest : List (BitVec w)) :
    k.encode s (front ++ rest) = k.encode s front ++ k.encode (k.register s front) rest := by
  induction front generalizing s with
  | nil => rfl
  | cons x front ih =>
    rw [List.cons_append, encode, encode, ih, List.cons_append]
    rfl

/-- A message given word by word: the register before word `n` … -/
def registerAt (s : σ) (plain : Nat → BitVec w) (n : Nat) : σ :=
  k.register s ((List.range n).map plain)

/-- … and what is sent for it. -/
def sent (s : σ) (plain : Nat → BitVec w) (n : Nat) : BitVec w :=
  plain n ^^^ k.key (k.registerAt s plain n)

theorem registerAt_succ (s : σ) (plain : Nat → BitVec w) (n : Nat) :
    k.registerAt s plain (n + 1) = k.feed (k.registerAt s plain n) (plain n) := by
  rw [registerAt, List.range_succ, List.map_append, register_append]
  rfl

theorem encode_range (s : σ) (plain : Nat → BitVec w) (n : Nat) :
    k.encode s ((List.range n).map plain) = (List.range n).map (k.sent s plain) := by
  induction n with
  | zero => rfl
  | succ n ih =>
    rw [List.range_succ, List.map_append, encode_append, ih, List.map_append]
    rfl

end Autokey

end Codes
