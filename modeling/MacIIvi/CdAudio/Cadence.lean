import MacIIvi.CdAudio.PlayRange
import MacIIvi.Clocked.Rate

/-!
# The pace of the samples

Source: `rtl/cd_audio.sv`, "SAMPLE engine". `acc` gains 44100 a clock and pays
`CLK_HZ` for a sample, but it stands still in the three clocks in which the two
words of the sample are read: a sample costs `CLK_HZ + 3 * 44100`.
-/

namespace MacIIvi

open Clocked

namespace CdAudio

namespace Sampler

/-- What a sample costs. -/
def period : Nat := clkHz + 3 * 44100

/-- What has come in for the next sample: what `acc` holds, and from the tick on
the cost of the tick and of the clocks the read has taken. -/
def phase (s : Sampler) : Nat :=
  if s.sph = 0 then s.acc else s.acc + clkHz + 44100 * (s.sph - 1)

/-- The second word of a sample is put out in this clock. -/
def emits (m : Main) (ff : FrameFetch) (s : Sampler) : Bool :=
  !m.play.flush && m.play.pstate == .play && ff.valid s.frHalfR && s.sph == 3

/-- `acc` is below `CLK_HZ`, and below one clock's gain while a sample is read. -/
structure Paced (s : Sampler) : Prop where
  acc : s.acc < clkHz
  sph : s.sph ≤ 3
  reading : s.sph ≠ 0 → s.acc < 44100

section

variable {rst : Bool} {m : Main} {ff : FrameFetch} {frameQ : BitVec 16} {s : Sampler}

theorem Paced.phase_lt (paced : s.Paced) : s.phase < period := by
  have sph := paced.sph
  have acc := paced.acc
  unfold phase period
  generalize clkHz = clk at *
  split
  · omega
  · rename_i reading
    have low := paced.reading reading
    omega

/-- What the sum leaves after a tick. -/
theorem tick_acc {acc : Nat} (low : acc < clkHz) (tick : clkHz - 44100 ≤ acc) :
    (acc + 44100 + 2 ^ 32 - clkHz) % 2 ^ 32 = acc + 44100 - clkHz := by
  have clk : clkHz = 32500000 := rfl
  generalize clkHz = c at *
  omega

theorem gain_acc {acc : Nat} (low : acc < clkHz) : (acc + 44100) % 2 ^ 32 = acc + 44100 := by
  have clk : clkHz = 32500000 := rfl
  generalize clkHz = c at *
  omega

/-- One clock of the sample phases while the engine plays. -/
theorem next_playing (frameQ : BitVec 16) (flush : m.play.flush = false)
    (play : m.play.pstate = .play) (valid : ff.valid s.frHalfR = true) :
    ((s.next false m ff frameQ).acc, (s.next false m ff frameQ).sph) =
      if s.sph = 0 then
        if clkHz - 44100 ≤ s.acc then ((s.acc + 44100 + 2 ^ 32 - clkHz) % 2 ^ 32, 1)
        else ((s.acc + 44100) % 2 ^ 32, 0)
      else (s.acc, if s.sph = 1 then 2 else if s.sph = 2 then 3 else 0) := by
  unfold next
  simp only [Bool.false_eq_true, if_false, flush, play, valid, beq_self_eq_true, Bool.and_self,
    if_true]
  split
  · rename_i idle
    rw [if_pos idle]
    split <;> simp [idle]
  · rename_i first
    simp [first]
  · rename_i second
    simp [second]
  · rename_i zero one two
    rw [if_neg zero, if_neg one, if_neg two]
    split <;> rfl

theorem Paced.step (paced : s.Paced) : (s.next rst m ff frameQ).Paced := by
  have acc := paced.acc
  have sph := paced.sph
  have reset : Paced {} := ⟨by decide, by decide, by decide⟩
  by_cases on : rst = false ∧ m.play.flush = false ∧ m.play.pstate = .play ∧
      ff.valid s.frHalfR = true
  · obtain ⟨rfl, flush, play, valid⟩ := on
    have next := next_playing frameQ flush play valid
    have low : 0 < clkHz - 44100 := by decide
    split at next
    · split at next
      · rename_i tick
        rw [tick_acc acc tick, Prod.mk.injEq] at next
        obtain ⟨acc', sph'⟩ := next
        constructor
        · rw [acc']
          generalize clkHz = c at *
          omega
        · rw [sph']
          decide
        · intro _
          rw [acc']
          generalize clkHz = c at *
          omega
      · rename_i gain
        rw [gain_acc acc, Prod.mk.injEq] at next
        obtain ⟨acc', sph'⟩ := next
        constructor
        · rw [acc']
          generalize clkHz = c at *
          omega
        · rw [sph']
          decide
        · exact fun reading => absurd sph' reading
    · rename_i reading
      rw [Prod.mk.injEq] at next
      obtain ⟨acc', sph'⟩ := next
      refine ⟨acc' ▸ acc, ?_, fun _ => acc' ▸ paced.reading reading⟩
      rw [sph']
      split
      · decide
      · split <;> decide
  · unfold Sampler.next
    split
    · exact reset
    · rename_i run
      dsimp only
      split
      · exact ⟨reset.acc, reset.sph, fun wrong => absurd rfl wrong⟩
      · rename_i flush
        rw [Bool.not_eq_true] at run flush
        rw [if_neg fun playing => on ⟨run, flush, by simpa using playing⟩]
        split
        · exact ⟨acc, sph, paced.reading⟩
        · exact ⟨reset.acc, sph, fun _ => by simp⟩

/-- One playing clock. -/
theorem Paced.pays (paced : s.Paced) (frameQ : BitVec 16) (flush : m.play.flush = false)
    (play : m.play.pstate = .play) (valid : ff.valid s.frHalfR = true) :
    (s.next false m ff frameQ).phase + period * (emits m ff s).toNat = s.phase + 44100 := by
  have acc := paced.acc
  have sph := paced.sph
  have emits_ : emits m ff s = (s.sph == 3) := by simp [emits, flush, play, valid]
  have next := next_playing frameQ flush play valid
  rw [emits_]
  have low : 0 < clkHz - 44100 := by decide
  split at next
  · rename_i idle
    split at next
    · rename_i tick
      rw [tick_acc acc tick, Prod.mk.injEq] at next
      obtain ⟨acc', sph'⟩ := next
      rw [phase, phase, acc', sph', if_neg (by decide), if_pos idle, idle]
      generalize clkHz = c at *
      simp only [Nat.reduceBEq, Bool.toNat_false]
      omega
    · rw [gain_acc acc, Prod.mk.injEq] at next
      obtain ⟨acc', sph'⟩ := next
      rw [phase, phase, acc', sph', if_pos rfl, if_pos idle, idle]
      simp only [Nat.reduceBEq, Bool.toNat_false]
      omega
  · rename_i reading
    rw [Prod.mk.injEq] at next
    obtain ⟨acc', sph'⟩ := next
    have before : s.phase = s.acc + clkHz + 44100 * (s.sph - 1) := if_neg reading
    have cost : period = clkHz + 132300 := rfl
    rw [before, phase, acc', sph', cost]
    generalize clkHz = c at *
    clear acc low before
    obtain one | two | three : s.sph = 1 ∨ s.sph = 2 ∨ s.sph = 3 := by omega
    · rw [one, if_pos rfl, if_neg (by decide)]
      simp only [Nat.reduceBEq, Bool.toNat_false]
      omega
    · rw [two, if_neg (by decide), if_pos rfl, if_neg (by decide)]
      simp only [Nat.reduceBEq, Bool.toNat_false]
      omega
    · rw [three, if_pos (by decide)]
      simp only [beq_self_eq_true, Bool.toNat_true]
      omega

end

end Sampler

namespace Engine

variable {ins : Nat → EngineIn} {t n : Nat}

/-- The engine plays in this clock, with the half it needs. -/
structure Plays (w : EngineIn) (s : Engine) : Prop where
  rst : w.rst = false
  flush : s.main.play.flush = false
  pstate : s.main.play.pstate = .play
  valid : s.ff.valid s.smp.frHalfR = true

/-- The samples put out in the `n` clocks from `t` on. -/
def emitted (ins : Nat → EngineIn) (t n : Nat) : Nat :=
  count (fun u => (after ins (t + u)).smp.emits (after ins (t + u)).main (after ins (t + u)).ff) n

theorem paced_after (ins : Nat → EngineIn) (t : Nat) : (after ins t).smp.Paced := by
  induction t with
  | zero =>
    have reset : Sampler.Paced {} := ⟨by decide, by decide, by decide⟩
    exact reset
  | succ t ih => exact ih.step

/-- While the engine plays, the samples are counted by the accumulator. -/
theorem emitted_eq (plays : ∀ u < n, Plays (ins (t + u)) (after ins (t + u))) :
    emitted ins t n = ((after ins t).smp.phase + 44100 * n) / Sampler.period := by
  refine count_eq_div (v := fun u => (after ins (t + u)).smp.phase) (fun u low => ?_)
    (paced_after ins (t + n)).phase_lt
  have here := plays u low
  have pays := (paced_after ins (t + u)).pays (after ins (t + u)).frameQ
    here.flush here.pstate here.valid
  rw [← pays]
  have next : (after ins (t + (u + 1))).smp =
      (after ins (t + u)).smp.next false (after ins (t + u)).main (after ins (t + u)).ff
        (after ins (t + u)).frameQ := by
    rw [← here.rst]
    rfl
  rw [next]

/-- **Cadence.** The samples of `n` playing clocks are within one of
`n * 44100 / CLK_HZ` exactly if no sample is due that cannot be paid for yet. -/
theorem cadence_iff (plays : ∀ u < n, Plays (ins (t + u)) (after ins (t + u))) :
    |(emitted ins t n : ℚ) - n * 44100 / Sampler.clkHz| ≤ 1 ↔
      ¬∃ k, k * Sampler.clkHz < n * 44100 ∧
        (after ins t).smp.phase + 44100 * n < k * (Sampler.clkHz + 3 * 44100) := by
  rw [emitted_eq plays]
  exact near_slow (by decide) (by decide) (paced_after ins t).phase_lt

/-- In a play of 363600 clocks or more samples are missing. -/
theorem cadence_drifts (plays : ∀ u < n, Plays (ins (t + u)) (after ins (t + u)))
    (long : 363600 ≤ n) : 1 < |(emitted ins t n : ℚ) - n * 44100 / Sampler.clkHz| := by
  rw [emitted_eq plays, ← not_le]
  refine not_near_slow (C := Sampler.clkHz) (R := 44100) (by decide) (by decide)
    (paced_after ins t).phase_lt ?_
  have gap : Sampler.period - Sampler.clkHz = 132300 := rfl
  have both : 2 * Sampler.period * Sampler.clkHz = 2121099500000000 := rfl
  rw [gap, both]
  omega

end Engine

/-! ### The first samples of a play -/

/-- A disc without a blob and a vendor PLAY from LBA 0 on, which waits for the TOC.
Each acknowledge takes four clocks. -/
def playFromStart (t : Nat) : EngineIn :=
  { mounted := true, imgBlocks := 4096, grant := t % 8 < 4, ioAck := 4 ≤ t % 8
    cmdStb := t == 700, cdb := fun | 0 => 0xc9 | _ => 0x00 }

set_option maxRecDepth 4000 in
/-- It plays from clock 777 on. -/
theorem plays_fromStart :
    ∀ u < 738, Engine.Plays (playFromStart (777 + u)) (Engine.after playFromStart (777 + u)) := by
  have all : ∀ u < 738, (Engine.after playFromStart (777 + u)).main.play.flush = false ∧
      (Engine.after playFromStart (777 + u)).main.play.pstate = .play ∧
      (Engine.after playFromStart (777 + u)).ff.valid
        (Engine.after playFromStart (777 + u)).smp.frHalfR = true := by
    decide +kernel
  intro u low
  obtain ⟨flush, play, valid⟩ := all u low
  exact ⟨rfl, flush, play, valid⟩

set_option maxRecDepth 4000 in
theorem phase_fromStart : (Engine.after playFromStart 777).smp.phase = 0 := by decide +kernel

theorem cadence_iff_fromStart :
    |(Engine.emitted playFromStart 777 738 : ℚ) - 738 * 44100 / Sampler.clkHz| ≤ 1 ↔
      ¬∃ k, k * Sampler.clkHz < 738 * 44100 ∧
        (Engine.after playFromStart 777).smp.phase + 44100 * 738 <
          k * (Sampler.clkHz + 3 * 44100) :=
  Engine.cadence_iff plays_fromStart

/-- The first sample is due, and the engine still reads it. -/
theorem cadence_late :
    (∀ u < 738, Engine.Plays (playFromStart (777 + u)) (Engine.after playFromStart (777 + u))) ∧
      ¬ |(Engine.emitted playFromStart 777 738 : ℚ) - 738 * 44100 / Sampler.clkHz| ≤ 1 := by
  refine ⟨plays_fromStart, fun near => ?_⟩
  have plays := plays_fromStart
  rw [Engine.emitted_eq plays] at near
  refine (near_slow (C := Sampler.clkHz) (R := 44100) (n := 738) (by decide) (by decide)
    (Engine.paced_after playFromStart 777).phase_lt).mp near ⟨1, by decide, ?_⟩
  rw [phase_fromStart]
  decide

end CdAudio

end MacIIvi
