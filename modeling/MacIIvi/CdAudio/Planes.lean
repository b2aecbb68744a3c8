import MacIIvi.Rtl.Dpram

/-!
# The response memories of the CD-audio engine

Source: `rtl/cd_audio.sv`, the planes behind `toc_q*`, `toc43_q*` and
`toc2_q*`. Each response memory is a plane of even and a plane of odd bytes,
held twice, so that one nine-bit base address reads four bytes.
-/

namespace MacIIvi

namespace CdAudio

/-- The even and the odd bytes of a response memory of 512 bytes. -/
structure Planes where
  even : Nat → Byte := fun _ => 0
  odd : Nat → Byte := fun _ => 0

namespace Planes

variable (p : Planes)

/-- The write port. -/
def write (wa : Nat) (wd : Byte) : Planes :=
  if wa % 2 = 0 then { p with even := Function.update p.even (wa / 2) wd }
  else { p with odd := Function.update p.odd (wa / 2) wd }

/-- The byte at a linear address. -/
def byte (a : Nat) : Byte := if a % 2 = 0 then p.even (a / 2) else p.odd (a / 2)

/-- `tb0_e`: the plane index of the even byte at or after `a`, in nine bits. -/
def evenIndex (a : Nat) : Nat := (a + a % 2) % 512 / 2

/-- One pair of reads: the byte at `a` and the byte after it. -/
def pair (a : Nat) : Byte × Byte :=
  if a % 2 = 1 then (p.odd (a / 2), p.even (evenIndex a))
  else (p.even (evenIndex a), p.odd (a / 2))

/-- `toc_q0` to `toc_q3` for the base address `a`. -/
def q (a : Nat) : Nat → Byte
  | 0 => (p.pair a).1
  | 1 => (p.pair a).2
  | 2 => (p.pair ((a + 2) % 512)).1
  | _ => (p.pair ((a + 2) % 512)).2

variable {p} {a k : Nat}

theorem byte_write (wa : Nat) (wd : Byte) :
    (p.write wa wd).byte a = if a = wa then wd else p.byte a := by
  unfold write byte
  by_cases same : a = wa
  · subst same
    by_cases parity : a % 2 = 0 <;> simp [parity]
  · rw [if_neg same]
    by_cases parity : wa % 2 = 0 <;> by_cases parity' : a % 2 = 0 <;>
      simp [parity, parity', Function.update_apply] <;> intro index <;> omega

theorem pair_fst (low : a < 512) : (p.pair a).1 = p.byte a := by
  unfold pair byte evenIndex
  by_cases odd : a % 2 = 1
  · simp [odd]
  · have even : a % 2 = 0 := by omega
    simp [even, Nat.mod_eq_of_lt low]

theorem pair_snd (low : a < 512) : (p.pair a).2 = p.byte ((a + 1) % 512) := by
  unfold pair byte evenIndex
  by_cases odd : a % 2 = 1
  · have even : (a + 1) % 512 % 2 = 0 := by omega
    simp [odd, even]
  · have even : a % 2 = 0 := by omega
    have next : (a + 1) % 512 % 2 = 1 := by omega
    have index : (a + 1) % 512 / 2 = a / 2 := by omega
    simp [even, next, index]

/-- The four outputs are four consecutive bytes, around the end of the memory
as well. -/
theorem q_eq (low : a < 512) (lane : k < 4) : p.q a k = p.byte ((a + k) % 512) := by
  have second : (a + 2) % 512 < 512 := Nat.mod_lt _ (by decide)
  match k, lane with
  | 0, _ =>
    rw [Nat.add_zero, Nat.mod_eq_of_lt low]
    exact pair_fst low
  | 1, _ => exact pair_snd low
  | 2, _ => exact pair_fst second
  | 3, _ =>
    have address : (a + 3) % 512 = ((a + 2) % 512 + 1) % 512 := by omega
    rw [address]
    exact pair_snd second

end Planes

end CdAudio

end MacIIvi
