import MacIIvi.Rtl.DpramSettle
import Mathlib.Algebra.Order.Group.Nat

/-!
# The look-ahead contract over every history

Source: `rtl/scsi.v`, `module scsi_dpram`, "TIMING CONTRACT" and "COHERENCY".
Writes on both ports and moves of the three addresses come in any order. What
carries the contract is that an output register which the controller takes for
fetched shows the array: the published pair, or the fetch on its way.
-/

namespace MacIIvi

namespace Dpram

/-- The controller as it powers up, whatever the array holds. -/
def Fresh (m : Dpram) : Prop := m.pfSt = .idle ∧ m.pfValid = false ∧ m.pfSnooped = false

/-- A port-B write aborts a fetch after its first byte has gone to `q_c`, and
neither it nor an earlier write makes the controller fetch again the pair that is
still published. -/
def Clobbers (i : DpramIn) (m : Dpram) : Prop :=
  m.pfSt = .rdc ∧ i.wrenB = true ∧ m.pfValid = true ∧ m.pfSnooped = false ∧
    pfSnoopHit i m = false ∧ m.pfCTgt ≠ m.pfCAddr

instance (i : DpramIn) (m : Dpram) : Decidable (Clobbers i m) := by
  unfold Clobbers; infer_instance

/-- `j` asks for the addresses of `i` and writes to none of them. -/
structure Spares (i j : DpramIn) : Prop where
  addressB : j.addressB = i.addressB
  addressC : j.addressC = i.addressC
  addressD : j.addressD = i.addressD
  wrenA : j.wrenA = true →
    j.addressA ≠ i.addressB ∧ j.addressA ≠ i.addressC ∧ j.addressA ≠ i.addressD
  wrenB : j.wrenB = true →
    j.addressB ≠ i.addressB ∧ j.addressB ≠ i.addressC ∧ j.addressB ≠ i.addressD

/-- What the controller takes for fetched shows the array. -/
structure Sound (m : Dpram) : Prop where
  published : m.pfSt ≠ .rdd → m.pfValid = true → m.pfSnooped = false →
    m.qC = m.ramAb m.pfCAddr ∧ m.qD = m.ramAb m.pfDAddr
  first : m.pfSt = .rdc → m.pfSnooped = false → m.qB = m.ramAb m.pfCTgt
  second : m.pfSt = .rdd → m.pfSnooped = false →
    m.qC = m.ramAb m.pfCTgt ∧ m.qB = m.ramAb m.pfDTgt

theorem Fresh.sound {m : Dpram} (fresh : Fresh m) : Sound m := by
  obtain ⟨idle, none, _⟩ := fresh
  constructor <;> simp [idle, none]

section Step

variable {i j : DpramIn} {m : Dpram}

/-- A write that is not snooped leaves a watched address alone. -/
theorem writePorts_watched {a : Nat} (ram : Nat → Byte) (quiet : pfSnoopHit i m = false)
    (watched : pfWatched m a = true) : writePorts i ram a = ram a := by
  simp only [pfSnoopHit, Bool.or_eq_false_iff, Bool.and_eq_false_iff] at quiet
  have missA : i.wrenA = true → a ≠ i.addressA := by
    rintro wren rfl
    simp [wren, watched] at quiet
  have missB : i.wrenB = true → a ≠ i.addressB := by
    rintro wren rfl
    simp [wren, watched] at quiet
  unfold writePorts
  cases wrenA : i.wrenA <;> cases wrenB : i.wrenB <;> simp_all [Function.update_of_ne]

/-- A write that is not snooped misses the byte that a fetch starts with. -/
theorem writePorts_steal (ram : Nat → Byte) (quiet : pfSnoopHit i m = false)
    (steal : pfStealC i m = true) : writePorts i ram i.addressC = ram i.addressC := by
  have wrenB : i.wrenB = false := by
    simp only [pfStealC, Bool.and_eq_true, Bool.not_eq_true'] at steal
    exact steal.2
  simp only [pfSnoopHit, Bool.or_eq_false_iff] at quiet
  unfold writePorts
  cases wrenA : i.wrenA with
  | false => simp [wrenB]
  | true =>
    have miss : i.addressC ≠ i.addressA := by
      intro same
      simp [wrenA, steal, same] at quiet
    simp [wrenB, Function.update_of_ne miss]

theorem Sound.step (sound : Sound m) (kept : ¬ Clobbers i m) : Sound (m.step i) := by
  have watchedC : pfWatched m m.pfCAddr = true := by simp [pfWatched]
  have watchedD : pfWatched m m.pfDAddr = true := by simp [pfWatched]
  have flightC : m.pfSt ≠ .idle → pfWatched m m.pfCTgt = true := by
    intro busy
    simp [pfWatched, busy]
  have flightD : m.pfSt ≠ .idle → pfWatched m m.pfDTgt = true := by
    intro busy
    simp [pfWatched, busy]
  cases st : m.pfSt with
  | idle =>
    have shown := sound.published (by simp [st])
    have stays : m.pfValid = true → m.pfSnooped = false → pfSnoopHit i m = false →
        m.qC = writePorts i m.ramAb m.pfCAddr ∧ m.qD = writePorts i m.ramAb m.pfDAddr := by
      intro valid clean quiet
      rw [writePorts_watched _ quiet watchedC, writePorts_watched _ quiet watchedD]
      exact shown valid clean
    by_cases steal : pfStealC i m = true
    · have wrenB : i.wrenB = false := by
        simp only [pfStealC, Bool.and_eq_true, Bool.not_eq_true'] at steal
        exact steal.2
      constructor
      · simpa [Dpram.step, st, steal] using stays
      · intro _ clean
        have quiet : pfSnoopHit i m = false := by
          simp only [Dpram.step, st, steal, if_true, Bool.or_eq_false_iff] at clean
          exact clean.2
        simp only [step_qB, step_ramAb, addressBEff, steal, wrenB]
        simpa [Dpram.step, st, steal] using (writePorts_steal m.ramAb quiet steal).symm
      · simp [Dpram.step, st, steal]
    · constructor
      · simpa [Dpram.step, st, steal] using stays
      · simp [Dpram.step, st, steal]
      · simp [Dpram.step, st, steal]
  | rdc =>
    have byte := sound.first st
    have shown := sound.published (by simp [st])
    cases wrenB : i.wrenB with
    | true =>
      constructor
      · intro _ valid clean
        have parts : m.pfValid = true ∧ m.pfSnooped = false ∧ pfSnoopHit i m = false := by
          simpa [Dpram.step, st, pfStealD, wrenB] using And.intro valid clean
        obtain ⟨valid, clean, quiet⟩ := parts
        have same : m.pfCTgt = m.pfCAddr := by
          by_contra elsewhere
          exact kept ⟨st, wrenB, valid, clean, quiet, elsewhere⟩
        simp only [Dpram.step, st]
        rw [writePorts_watched _ quiet watchedC, writePorts_watched _ quiet watchedD, byte clean,
          same]
        exact ⟨rfl, (shown valid clean).2⟩
      · simp [Dpram.step, st, pfStealD, wrenB]
      · simp [Dpram.step, st, pfStealD, wrenB]
    | false =>
      constructor
      · simp [Dpram.step, st, pfStealD, wrenB]
      · simp [Dpram.step, st, pfStealD, wrenB]
      · intro _ clean
        have parts : m.pfSnooped = false ∧ pfSnoopHit i m = false := by
          simpa [Dpram.step, st] using clean
        have keepC := writePorts_watched m.ramAb parts.2 (flightC (by simp [st]))
        have keepD := writePorts_watched m.ramAb parts.2 (flightD (by simp [st]))
        simp only [Dpram.step, st, addressBEff, pfStealC, pfStealD, wrenB]
        simp [keepC, keepD, byte parts.1]
  | rdd =>
    constructor
    · intro _ valid _
      have parts : m.pfSnooped = false ∧ pfSnoopHit i m = false := by
        by_contra other
        simp only [not_and_or, Bool.not_eq_false] at other
        rcases other with other | other <;> simp [Dpram.step, st, other] at valid
      have bytes := sound.second st parts.1
      have keepC := writePorts_watched m.ramAb parts.2 (flightC (by simp [st]))
      have keepD := writePorts_watched m.ramAb parts.2 (flightD (by simp [st]))
      simp [Dpram.step, st, parts, keepC, keepD, bytes]
    · intro rdc
      simp only [Dpram.step, st] at rdc
      split at rdc <;> cases rdc
    · intro rdd
      simp only [Dpram.step, st] at rdd
      split at rdd <;> cases rdd

end Step

section Settle

variable {i : DpramIn} {m : Dpram} {ins : Nat → DpramIn}

/-- A look-ahead fetch over `k` quiet clocks. -/
theorem Within.during {n s : Nat} (k : Nat) (within : Within i (Dpram.after ins m s) n)
    (held : ∀ t, s ≤ t → t < s + k → Holds i (ins t)) :
    Within i (Dpram.after ins m (s + k)) (n - k) := by
  induction k with
  | zero => exact within
  | succ k ih =>
    have here := ih fun t from_ until_ => held t from_ (by omega)
    have now := held (s + k) (by omega) (by omega)
    change Within i ((Dpram.after ins m (s + k)).step (ins (s + k))) (n - (k + 1))
    cases left : n - k with
    | zero =>
      rw [left] at here
      have done : n - (k + 1) = 0 := by omega
      rw [done]
      exact here.keep now
    | succ l =>
      rw [left] at here
      have next : n - (k + 1) = l := by omega
      rw [next]
      exact here.step now

/-- What is published is at the outputs after one quiet clock. -/
theorem Sound.shown {j : DpramIn} (sound : Sound m) (idle : m.pfSt = .idle)
    (fresh : pfStale i m = false) (h : Holds i j) : Within i (m.step j) 0 := by
  have parts : m.pfValid = true ∧ m.pfSnooped = false ∧ i.addressC = m.pfCAddr ∧
      i.addressD = m.pfDAddr := by
    simpa [pfStale, and_assoc] using fresh
  obtain ⟨valid, clean, sameC, sameD⟩ := parts
  have shown := sound.published (by simp [idle]) valid clean
  have noSteal : pfStealC j m = false := by simp [pfStealC, h.pfStale, fresh]
  have noSteal' : pfStealD j m = false := by simp [pfStealD, idle]
  simp [Within, Dpram.step, idle, noSteal, noSteal', h.pfSnoopHit, pfStale, valid, clean, sameC,
    sameD, out, look, shown, addressBEff, h.addressB, h.wrenA, h.wrenB, writePorts]

/-- A finished fetch of another pair is followed by the fetch of the right one. -/
theorem refetch {j : DpramIn} (rdd : m.pfSt = .rdd) (clean : m.pfSnooped = false)
    (elsewhere : m.pfDTgt ≠ i.addressD) (h : Holds i j) : Within i (m.step j) 3 := by
  simp [Within, Dpram.step, rdd, clean, h.pfSnoopHit, pfStale, elsewhere.symm]

/-- Seven quiet clocks bring the array to the outputs. -/
theorem Sound.settles {s : Nat} (sound : Sound (Dpram.after ins m s))
    (held : ∀ t, s ≤ t → t < s + 7 → Holds i (ins t)) :
    Within i (Dpram.after ins m (s + 7)) 0 := by
  have first := held s (Nat.le_refl _) (by omega)
  have second := held (s + 1) (by omega) (by omega)
  have rest : ∀ k n, k + n ≤ 7 → Within i (Dpram.after ins m (s + k)) n →
      Within i (Dpram.after ins m (s + 7)) 0 := by
    intro k n near within
    have done := within.during (7 - k) fun t from_ until_ => held t (by omega) (by omega)
    have here : s + k + (7 - k) = s + 7 := by omega
    have none : n - (7 - k) = 0 := by omega
    rwa [here, none] at done
  cases st : (Dpram.after ins m s).pfSt with
  | idle =>
    cases snooped : (Dpram.after ins m s).pfSnooped with
    | true => exact rest 0 6 (by decide) ⟨st, snooped⟩
    | false =>
      cases stale : pfStale i (Dpram.after ins m s) with
      | true => exact rest 0 3 (by decide) ⟨st, snooped, stale⟩
      | false => exact rest 1 0 (by decide) (sound.shown st stale first)
  | rdc =>
    by_cases late : (Dpram.after ins m s).pfSnooped = true ∨
        (Dpram.after ins m s).pfCTgt ≠ i.addressC
    · exact rest 0 5 (by decide) ⟨st, late⟩
    · simp only [not_or, Bool.not_eq_true, not_not] at late
      by_cases sameD : (Dpram.after ins m s).pfDTgt = i.addressD
      · refine rest 0 2 (by decide) ⟨st, late.1, late.2, sameD, ?_⟩
        change (Dpram.after ins m s).qB = (Dpram.after ins m s).ramAb i.addressC
        rw [sound.first st late.1, late.2]
      · -- the second address has moved during the fetch
        refine rest 2 3 (by decide) (refetch ?_ ?_ ?_ second) <;>
          simp [Dpram.after, Dpram.step, st, pfStealD, first.wrenB, first.pfSnoopHit, late.1,
            sameD]
  | rdd =>
    by_cases late : (Dpram.after ins m s).pfSnooped = true ∨
        (Dpram.after ins m s).pfCTgt ≠ i.addressC
    · exact rest 0 4 (by decide) ⟨st, late⟩
    · simp only [not_or, Bool.not_eq_true, not_not] at late
      by_cases sameD : (Dpram.after ins m s).pfDTgt = i.addressD
      · refine rest 0 1 (by decide) ⟨st, late.1, late.2, sameD, ?_⟩
        change (Dpram.after ins m s).qC = (Dpram.after ins m s).ramAb i.addressC ∧
          (Dpram.after ins m s).qB = (Dpram.after ins m s).ramAb i.addressD
        rw [(sound.second st late.1).1, (sound.second st late.1).2, late.2, sameD]
        exact ⟨rfl, rfl⟩
      · exact rest 1 3 (by decide) (refetch st late.1 sameD first)

/-- Writes elsewhere leave the outputs in place. -/
theorem Within.spared {j : DpramIn} (within : Within i m 0) (h : Spares i j) :
    Within i (m.step j) 0 := by
  obtain ⟨idle, fresh, shown⟩ := within
  have parts : m.pfValid = true ∧ m.pfSnooped = false ∧ i.addressC = m.pfCAddr ∧
      i.addressD = m.pfDAddr := by
    simpa [pfStale, and_assoc] using fresh
  obtain ⟨valid, clean, sameC, sameD⟩ := parts
  have bytes : m.qB = m.ramAb i.addressB ∧ m.qC = m.ramAb i.addressC ∧
      m.qD = m.ramAb i.addressD := by
    simpa [out, look, Look.mk.injEq] using shown
  have noB : j.wrenB = false := by
    by_contra wren
    exact (h.wrenB (by simpa using wren)).1 h.addressB
  have same : pfStale j m = false := by
    rw [← fresh]
    simp [pfStale, h.addressC, h.addressD]
  have noSteal : pfStealC j m = false ∧ pfStealD j m = false := by
    simp [pfStealC, pfStealD, same, idle]
  have quiet : pfSnoopHit j m = false := by
    cases wren : j.wrenA with
    | false => simp [pfSnoopHit, wren, noB]
    | true =>
      have miss := h.wrenA wren
      simp [pfSnoopHit, wren, noB, noSteal, pfWatched, idle, ← sameC, ← sameD, miss]
  have missed : ∀ a, a = i.addressB ∨ a = i.addressC ∨ a = i.addressD →
      writePorts j m.ramAb a = m.ramAb a := by
    intro a place
    cases wren : j.wrenA with
    | false => rw [writePorts_idle j m.ramAb wren noB]
    | true =>
      have miss := h.wrenA wren
      have other : a ≠ j.addressA := by
        rintro rfl
        rcases place with place | place | place <;> simp_all
      simp [writePorts, wren, noB, Function.update_of_ne other]
  have keepB := missed i.addressB (.inl rfl)
  have keepC := missed i.addressC (.inr (.inl rfl))
  have keepD := missed i.addressD (.inr (.inr rfl))
  have own : m.step j = { m with
      ramAb := writePorts j m.ramAb
      qA := if j.wrenA then j.dataA else m.ramAb j.addressA
      qB := m.ramAb i.addressB } := by
    simp [Dpram.step, idle, noSteal, quiet, addressBEff, h.addressB, noB]
  rw [own]
  refine ⟨idle, fresh, ?_⟩
  simp [out, look, keepB, keepC, keepD, bytes]

end Settle

/-- In such a history the controller is sound at every clock. -/
theorem Fresh.after_sound {m : Dpram} (fresh : Fresh m) {ins : Nat → DpramIn}
    (kept : ∀ t, ¬ Clobbers (ins t) (Dpram.after ins m t)) (t : Nat) :
    Sound (Dpram.after ins m t) := by
  induction t with
  | zero => exact fresh.sound
  | succ t ih => exact ih.step (kept t)

/-- **The look-ahead contract.** In a history in which no port-B write clobbers the
published pair, seven quiet clocks bring the array to all three outputs, where it
stays until an address moves or is written to. -/
theorem lookahead_contract {m : Dpram} (fresh : Fresh m) {ins : Nat → DpramIn}
    (kept : ∀ t, ¬ Clobbers (ins t) (Dpram.after ins m t)) {s : Nat} {i : DpramIn}
    (held : ∀ t, s ≤ t → t < s + 7 → Holds i (ins t)) {t : Nat} (later : s + 7 ≤ t)
    (spared : ∀ u, s + 7 ≤ u → u < t → Spares i (ins u)) :
    (Dpram.after ins m t).out = look (Dpram.after ins m t).ramAb i := by
  have stays : Within i (Dpram.after ins m t) 0 := by
    induction t, later using Nat.le_induction with
    | base => exact (fresh.after_sound kept s).settles held
    | succ t later ih =>
      have here := ih fun u from_ until_ => spared u from_ (by omega)
      exact here.spared (spared t later (by omega))
  exact stays.2.2

/-- The HPS writes a byte; addresses 1 and 2 are fetched and then let go for 5 and
6, and a port-B write to address 4 aborts the fetch of these if `aborts`. From
clock 11 on the first addresses are back. -/
def returnIn (aborts : Bool) (t : Nat) : DpramIn where
  addressA := 1
  dataA := 0xAA
  wrenA := t == 0
  addressB := if 9 ≤ t ∧ t ≤ 10 then 4 else 0
  dataB := 0
  wrenB := aborts && t == 10
  addressC := if 9 ≤ t ∧ t ≤ 10 then 5 else 1
  addressD := if 9 ≤ t ∧ t ≤ 10 then 6 else 2

theorem returnIn_held (aborts : Bool) (t : Nat) (late : 11 ≤ t) :
    Holds (returnIn aborts 11) (returnIn aborts t) := by
  have past : ¬ (9 ≤ t ∧ t ≤ 10) ∧ t ≠ 0 ∧ t ≠ 10 := by omega
  constructor <;> simp [returnIn, past]

theorem lookahead_contract_return :
    (Dpram.after (returnIn false) (powerUp 9) 18).out =
      look (Dpram.after (returnIn false) (powerUp 9) 18).ramAb (returnIn false 11) := by
  refine lookahead_contract (s := 11) ⟨rfl, rfl, rfl⟩ ?_ ?_ (by decide) ?_
  · rintro t ⟨_, wren, _⟩
    simp [returnIn] at wren
  · intro t from_ _
    exact returnIn_held false t from_
  · intro u from_ until_
    omega

/-- After the aborted fetch `q_c` holds the byte at 5 and is served for 1. -/
theorem lookahead_contract_broken :
    Fresh (powerUp 9) ∧
      (∀ t, 11 ≤ t → t < 18 → Holds (returnIn true 11) (returnIn true t)) ∧
      (Dpram.after (returnIn true) (powerUp 9) 18).out ≠
        look (Dpram.after (returnIn true) (powerUp 9) 18).ramAb (returnIn true 11) := by
  refine ⟨⟨rfl, rfl, rfl⟩, fun t from_ _ => returnIn_held true t from_, ?_⟩
  intro same
  exact absurd (congrArg Look.next same) (by decide)

end Dpram

end MacIIvi
