import MacIIvi.Rtl.Dpram

/-!
# The look-ahead outputs after a port-B address change

Source: `rtl/scsi.v`, `module scsi_dpram`, "look-ahead prefetch". The
controller needs three clocks for the two look-ahead bytes, and up to three
more when the address moves in the middle of a fetch or a write was snooped.
From then on all three outputs show the array at their own addresses.
-/

namespace MacIIvi

namespace Dpram

/-- The three read outputs of the Mac side. -/
structure Look where
  q : Byte
  next : Byte
  next2 : Byte

/-- `q_b`, `q_c` and `q_d` as they are. -/
def out (m : Dpram) : Look := ⟨m.qB, m.qC, m.qD⟩

/-- The array at the three addresses. -/
def look (ram : Nat → Byte) (i : DpramIn) : Look :=
  ⟨ram i.addressB, ram i.addressC, ram i.addressD⟩

/-- `j` asks for the addresses of `i` and writes nothing. -/
structure Holds (i j : DpramIn) : Prop where
  addressB : j.addressB = i.addressB
  addressC : j.addressC = i.addressC
  addressD : j.addressD = i.addressD
  wrenA : j.wrenA = false
  wrenB : j.wrenB = false

/-- `n` more clocks are enough for the outputs to show the addresses of `i`. -/
def Within (i : DpramIn) (m : Dpram) : Nat → Prop
  | 0 => m.pfSt = .idle ∧ pfStale i m = false ∧ m.out = look m.ramAb i
  | 1 => m.pfSt = .rdd ∧ m.pfSnooped = false ∧ m.pfCTgt = i.addressC ∧ m.pfDTgt = i.addressD ∧
      m.qC = m.ramAb i.addressC ∧ m.qB = m.ramAb i.addressD
  | 2 => m.pfSt = .rdc ∧ m.pfSnooped = false ∧ m.pfCTgt = i.addressC ∧ m.pfDTgt = i.addressD ∧
      m.qB = m.ramAb i.addressC
  | 3 => m.pfSt = .idle ∧ m.pfSnooped = false ∧ pfStale i m = true
  | 4 => m.pfSt = .rdd ∧ (m.pfSnooped = true ∨ m.pfCTgt ≠ i.addressC)
  | 5 => m.pfSt = .rdc ∧ (m.pfSnooped = true ∨ m.pfCTgt ≠ i.addressC)
  | 6 => m.pfSt = .idle ∧ m.pfSnooped = true
  | _ => False

variable {i j : DpramIn} {m : Dpram}

theorem Holds.pfSnoopHit (h : Holds i j) : pfSnoopHit j m = false := by
  simp [Dpram.pfSnoopHit, h.wrenA, h.wrenB]

theorem Holds.pfStale (h : Holds i j) : pfStale j m = pfStale i m := by
  simp [Dpram.pfStale, h.addressC, h.addressD]

theorem Holds.ramAb (h : Holds i j) : (m.step j).ramAb = m.ramAb := by
  rw [step_ramAb, writePorts_idle j m.ramAb h.wrenA h.wrenB]

/-- Look-ahead data that is in place stays in place. -/
theorem Within.keep (within : Within i m 0) (h : Holds i j) : Within i (m.step j) 0 := by
  obtain ⟨idle, fresh, shown⟩ := within
  have noSteal : pfStealC j m = false := by simp [pfStealC, h.pfStale, fresh]
  have own : m.step j = { m with qA := m.ramAb j.addressA, qB := m.ramAb i.addressB } := by
    have noSteal' : pfStealD j m = false := by simp [pfStealD, idle]
    simp [step, idle, noSteal, noSteal', h.pfSnoopHit, addressBEff, h.addressB, h.wrenA, h.wrenB,
      writePorts]
  rw [own]
  refine ⟨idle, fresh, ?_⟩
  have ahead : m.qC = m.ramAb i.addressC ∧ m.qD = m.ramAb i.addressD := by
    simpa [out, look, Look.mk.injEq] using And.intro (congrArg Look.next shown)
      (congrArg Look.next2 shown)
  simp [out, look, ahead]

/-- One clock of a fetch. -/
theorem Within.step {n : Nat} (within : Within i m (n + 1)) (h : Holds i j) :
    Within i (m.step j) n := by
  have same := h.ramAb (m := m)
  match n, within with
  | 0, ⟨rdd, clean, tgtC, tgtD, c, d⟩ =>
    have noSteal : pfStealC j m = false ∧ pfStealD j m = false := by
      simp [pfStealC, pfStealD, rdd]
    simp [Within, Dpram.step, rdd, clean, h.pfSnoopHit, Dpram.pfStale, tgtC, tgtD, out, look, c, d,
      addressBEff, noSteal, h.addressB, h.wrenA, h.wrenB, writePorts]
  | 1, ⟨rdc, clean, tgtC, tgtD, c⟩ =>
    have steal : pfStealC j m = false ∧ pfStealD j m = true := by
      simp [pfStealC, pfStealD, rdc, h.wrenB]
    simp [Within, Dpram.step, rdc, clean, h.pfSnoopHit, tgtC, tgtD, c, addressBEff, steal,
      h.wrenA, h.wrenB, writePorts]
  | 2, ⟨idle, clean, stale⟩ =>
    have steal : pfStealC j m = true := by simp [pfStealC, idle, h.pfStale, stale, h.wrenB]
    simp [Within, Dpram.step, idle, clean, h.pfSnoopHit, addressBEff, steal, h.addressC,
      h.addressD, h.wrenA, h.wrenB, writePorts]
  | 3, ⟨rdd, late⟩ =>
    by_cases snooped : m.pfSnooped = true
    · simp [Within, Dpram.step, rdd, snooped, Dpram.pfStale]
    · have elsewhere : m.pfCTgt ≠ i.addressC := late.resolve_left snooped
      simp [Within, Dpram.step, rdd, snooped, h.pfSnoopHit, Dpram.pfStale, elsewhere.symm]
  | 4, ⟨rdc, late⟩ =>
    have steal : pfStealD j m = true := by simp [pfStealD, rdc, h.wrenB]
    simpa [Within, Dpram.step, rdc, steal, h.pfSnoopHit] using late
  | 5, ⟨idle, snooped⟩ =>
    have steal : pfStealC j m = true := by
      simp [pfStealC, idle, Dpram.pfStale, snooped, h.wrenB]
    simp [Within, Dpram.step, idle, steal, snooped]

/-- Neither the look-ahead data in place nor the fetch on its way is for the
addresses of `i`: they have just moved, or a write was snooped. -/
def Moved (i : DpramIn) (m : Dpram) : Prop :=
  m.pfSnooped = true ∨ (pfStale i m = true ∧ m.pfCTgt ≠ i.addressC)

theorem Moved.within (moved : Moved i m) : ∃ n ≤ 6, Within i m n := by
  cases st : m.pfSt with
  | idle =>
    cases snooped : m.pfSnooped with
    | true => exact ⟨6, by decide, st, snooped⟩
    | false =>
      have fetch : pfStale i m = true ∧ m.pfCTgt ≠ i.addressC :=
        moved.resolve_left (by simp [snooped])
      exact ⟨3, by decide, st, snooped, fetch.1⟩
  | rdc => exact ⟨5, by decide, st, moved.imp_right And.right⟩
  | rdd => exact ⟨4, by decide, st, moved.imp_right And.right⟩

/-- The memory after `t` clocks of the inputs `ins`. -/
def after (ins : Nat → DpramIn) (m : Dpram) : Nat → Dpram
  | 0 => m
  | t + 1 => (after ins m t).step (ins t)

theorem after_ramAb {ins : Nat → DpramIn} (held : ∀ t, Holds i (ins t)) (t : Nat) :
    (after ins m t).ramAb = m.ramAb := by
  induction t with
  | zero => rfl
  | succ t ih => rw [after, (held t).ramAb, ih]

theorem Within.after {ins : Nat → DpramIn} {n : Nat} (within : Within i m n)
    (held : ∀ t, Holds i (ins t)) (t : Nat) : Within i (after ins m t) (n - t) := by
  induction t with
  | zero => exact within
  | succ t ih =>
    rw [Dpram.after]
    cases left : n - t with
    | zero =>
      rw [left] at ih
      have done : n - (t + 1) = 0 := by omega
      rw [done]
      exact ih.keep (held t)
    | succ k =>
      rw [left] at ih
      have next : n - (t + 1) = k := by omega
      rw [next]
      exact ih.step (held t)

/-- Once a fetch is at most six clocks from its end, six quiet clocks bring the
array to the outputs. -/
theorem Within.settles {ins : Nat → DpramIn} {n : Nat} (within : Within i m n) (near : n ≤ 6)
    (held : ∀ t, Holds i (ins t)) {t : Nat} (late : 6 ≤ t) :
    (Dpram.after ins m t).out = look m.ramAb i := by
  have done := within.after held t
  have none : n - t = 0 := by omega
  rw [none] at done
  rw [done.2.2, after_ramAb held]

/-- Six quiet clocks after an address change the outputs show the array. -/
theorem Moved.settles {ins : Nat → DpramIn} (moved : Moved i m) (held : ∀ t, Holds i (ins t))
    {t : Nat} (late : 6 ≤ t) : (Dpram.after ins m t).out = look m.ramAb i := by
  obtain ⟨n, near, within⟩ := moved.within
  exact within.settles near held late

end Dpram

end MacIIvi
