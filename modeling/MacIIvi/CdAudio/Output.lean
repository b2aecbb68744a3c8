import MacIIvi.CdAudio.Engine
import MacIIvi.Codes.FixedPoint
import MacIIvi.Scsi.Serve

/-!
# The audio output

Source: `rtl/cd_audio.sv`, the interpolated output stage and the ports of the audio page,
with the gains of `rtl/cd_vol_lut.vh`.
-/

namespace MacIIvi

namespace CdAudio

open Codes.FixedPoint

abbrev Sample := BitVec 16

/-! ## Interpolation -/

/-- `seg_f` -/
def segF (frac : BitVec 17) : BitVec 16 := if frac.getLsbD 16 then 0xffff else frac.setWidth 16

/-- `seg_dl`, `seg_dr` -/
def segD (p t : Sample) : BitVec 17 := t.signExtend 17 - p.signExtend 17

/-- `seg_ml`, `seg_mr` -/
def segM (p t : Sample) (frac : BitVec 17) : BitVec 34 :=
  (segD p t).signExtend 34 * ((segF frac).setWidth 17).signExtend 34

/-- `sum_l`, `sum_r` -/
def sum (p t : Sample) (frac : BitVec 17) : BitVec 17 :=
  p.signExtend 17 + (segM p t frac).extractLsb' 16 17

/-! ## Routing and volume -/

/-- `cd_vol_gain` -/
def volGains : List Nat :=
  [0, 0, 0, 0, 0, 0, 0, 0, 0, 0, 0, 0, 0, 0, 0, 0, 0, 0, 0, 0, 0, 0, 0, 0, 0, 0, 0, 0, 1, 1, 1, 1,
      1, 1, 1, 2, 2, 2, 2, 3, 3, 4, 4, 4, 5, 6, 6, 7, 8, 9, 9, 10, 12, 13, 14, 15, 17, 18, 20, 22,
      24, 26, 28, 30, 33, 35, 38, 41, 44, 48, 51, 55, 59, 63, 67, 72, 77, 82, 88, 94, 100, 106,
      113, 120, 127, 135, 143, 151, 160, 170, 179, 190, 200, 211, 223, 235, 248, 261, 275, 289,
      304, 319, 336, 352, 370, 388, 407, 426, 447, 468, 489, 512, 536, 560, 585, 611, 638, 666,
      695, 725, 756, 788, 821, 856, 891, 927, 965, 1004, 1044, 1086, 1128, 1172, 1218, 1265, 1313,
      1363, 1414, 1467, 1521, 1577, 1635, 1694, 1755, 1817, 1882, 1948, 2016, 2086, 2158, 2232,
      2308, 2386, 2466, 2548, 2632, 2719, 2808, 2899, 2993, 3088, 3187, 3288, 3391, 3497, 3606,
      3717, 3831, 3948, 4067, 4190, 4315, 4444, 4575, 4710, 4847, 4988, 5132, 5280, 5431, 5585,
      5743, 5904, 6069, 6237, 6410, 6586, 6766, 6950, 7137, 7329, 7525, 7725, 7930, 8138, 8351,
      8569, 8791, 9017, 9249, 9484, 9725, 9971, 10221, 10477, 10737, 11003, 11274, 11550, 11832,
      12119, 12412, 12710, 13015, 13324, 13640, 13962, 14290, 14623, 14963, 15310, 15663, 16022,
      16388, 16760, 17139, 17525, 17918, 18318, 18725, 19139, 19561, 19990, 20426, 20870, 21322,
      21782, 22249, 22724, 23208, 23699, 24199, 24708, 25225, 25750, 26284, 26827, 27379, 27940,
      28511, 29090, 29679, 30277, 30885, 31503, 32131, 32768]

def cdVolGain (v : Byte) : BitVec 16 := BitVec.ofNat 16 (volGains.getD v.toNat 32768)

/-- `ap_scl_l`, `ap_scl_r`, at the bits that are taken. -/
def apScl (v : Sample) (vol : Byte) : Sample :=
  (v.signExtend 32 * ((cdVolGain vol).setWidth 17).signExtend 32).extractLsb' 15 16

namespace Sampler

variable (s : Sampler) (page : AudioPage)

def fracBits : BitVec 17 := BitVec.ofNat 17 s.frac16

def sumL : BitVec 17 := sum s.sndLP s.sndLT s.fracBits

def sumR : BitVec 17 := sum s.sndRP s.sndRT s.fracBits

/-- `ap_src_l` -/
def apSrcL : Sample :=
  if page.ch0 = 0x01 then s.sumL.setWidth 16
  else if page.ch0 = 0x02 then s.sumR.setWidth 16
  else 0

/-- `ap_src_r` -/
def apSrcR : Sample :=
  if page.ch1 = 0x02 then s.sumR.setWidth 16
  else if page.ch1 = 0x01 then s.sumL.setWidth 16
  else 0

end Sampler

/-- `snd_l`, `snd_r` and the divider of their commits. -/
structure Output where
  sndL : Sample := 0
  sndR : Sample := 0
  odiv : BitVec 3 := 0

/-- One clock of the output register. -/
def Output.next (rst play : Bool) (smp : Sampler) (page : AudioPage) (o : Output) : Output :=
  if rst || !play then {}
  else if o.odiv = 0 then
    { sndL := apScl (smp.apSrcL page) page.vol0, sndR := apScl (smp.apSrcR page) page.vol1
      odiv := o.odiv + 1 }
  else { o with odiv := o.odiv + 1 }

/-! ## The wires as numbers -/

section Values

variable {p t v : Sample} {frac frac' : BitVec 17} {vol : Byte}

theorem sample_bounds (v : Sample) : -32768 ≤ v.toInt ∧ v.toInt < 32768 := by
  have low := BitVec.le_two_mul_toInt (x := v)
  have high := BitVec.two_mul_toInt_lt (x := v)
  omega

theorem toInt_unsigned (f : BitVec 16) : (f.setWidth 17).toInt = f.toNat := by
  have small := f.isLt
  rw [BitVec.toInt_eq_toNat_of_lt, BitVec.toNat_setWidth, Nat.mod_eq_of_lt (by omega)]
  rw [BitVec.toNat_setWidth]
  omega

/-- The phase of the segment stays below one. -/
theorem segF_mono (le : frac ≤ frac') : (segF frac).toNat ≤ (segF frac').toNat := by
  have value : ∀ f : BitVec 17, (segF f).toNat = min f.toNat 65535 := by
    intro f
    have bound := f.isLt
    have bit : f.getLsbD 16 = decide (65536 ≤ f.toNat) := by
      rw [← BitVec.testBit_toNat, Nat.testBit_eq_decide_div_mod_eq]
      simp only [decide_eq_decide]
      omega
    rw [segF, bit]
    by_cases one : 65536 ≤ f.toNat
    · rw [decide_eq_true one, if_pos rfl]
      change 65535 = _
      omega
    · rw [decide_eq_false one, if_neg Bool.false_ne_true, BitVec.toNat_setWidth]
      omega
  rw [value, value]
  have order : frac.toNat ≤ frac'.toNat := le
  omega

theorem segD_toInt (p t : Sample) : (segD p t).toInt = t.toInt - p.toInt := by
  have boundsP := sample_bounds p
  have boundsT := sample_bounds t
  refine toInt_of_bmod ?_ (by omega) (by omega)
  rw [segD, BitVec.toInt_sub, BitVec.toInt_signExtend_of_le (by decide),
    BitVec.toInt_signExtend_of_le (by decide)]

theorem segM_toInt (p t : Sample) (frac : BitVec 17) :
    (segM p t frac).toInt = (t.toInt - p.toInt) * (segF frac).toNat := by
  have boundsP := sample_bounds p
  have boundsT := sample_bounds t
  have phase := (segF frac).isLt
  have low : -2 ^ 33 < (t.toInt - p.toInt) * (segF frac).toNat := by nlinarith
  have high : (t.toInt - p.toInt) * (segF frac).toNat < 2 ^ 33 := by nlinarith
  refine toInt_of_bmod ?_ (by omega) (by omega)
  rw [segM, BitVec.toInt_mul, BitVec.toInt_signExtend_of_le (by decide),
    BitVec.toInt_signExtend_of_le (by decide), segD_toInt, toInt_unsigned]

/-- The interpolated value. -/
theorem sum_toInt (p t : Sample) (frac : BitVec 17) :
    (sum p t frac).toInt = lerp p.toInt t.toInt (segF frac).toNat 65536 := by
  have boundsP := sample_bounds p
  have boundsT := sample_bounds t
  have phase := (segF frac).isLt
  obtain ⟨low, high⟩ := scale_between (v := t.toInt - p.toInt) (g := (segF frac).toNat)
    (n := 65536) (by decide) (by omega) (by omega)
  have slice : ((segM p t frac).extractLsb' 16 17).toInt =
      scale (t.toInt - p.toInt) (segF frac).toNat 65536 := by
    rw [scale, ← segM_toInt] at *
    exact toInt_slice (by decide) (by omega) (by omega)
  refine toInt_of_bmod ?_ (by rw [lerp]; omega) (by rw [lerp]; omega)
  rw [sum, BitVec.toInt_add, BitVec.toInt_signExtend_of_le (by decide), slice, lerp]

/-- It fits into a sample. -/
theorem sum_fits (p t : Sample) (frac : BitVec 17) :
    ((sum p t frac).setWidth 16).toInt = (sum p t frac).toInt := by
  have boundsP := sample_bounds p
  have boundsT := sample_bounds t
  have phase := (segF frac).isLt
  obtain ⟨low, high⟩ := lerp_between (p := p.toInt) (t := t.toInt) (g := (segF frac).toNat)
    (n := 65536) (by decide) (by omega) (by omega)
  rw [← sum_toInt] at low high
  refine toInt_of_bmod ?_ (by omega) (by omega)
  rw [← BitVec.signExtend_eq_setWidth_of_le _ (by decide),
    BitVec.toInt_signExtend_eq_toInt_bmod_of_le _ (by decide)]

/-! ## The gains -/

/-- The gain of a volume byte: the fifth power of `vol / 255`, to the nearest. -/
def gainAt (v : Nat) : Nat := (2 * 32768 * v ^ 5 + 255 ^ 5) / (2 * 255 ^ 5)

theorem volGains_eq : ∀ v < 256, volGains.getD v 32768 = gainAt v := by
  decide +kernel

theorem gainAt_mono {v v' : Nat} (le : v ≤ v') : gainAt v ≤ gainAt v' := by
  have power : v ^ 5 ≤ v' ^ 5 := Nat.pow_le_pow_left le 5
  exact Nat.div_le_div_right (by omega)

theorem cdVolGain_toNat (vol : Byte) : (cdVolGain vol).toNat = gainAt vol.toNat := by
  have bound := vol.isLt
  have unity : gainAt vol.toNat ≤ gainAt 255 := gainAt_mono (by omega)
  have last : gainAt 255 = 32768 := by decide
  rw [cdVolGain, BitVec.toNat_ofNat, volGains_eq vol.toNat bound]
  omega

theorem cdVolGain_le (vol : Byte) : (cdVolGain vol).toNat ≤ 32768 := by
  have bound := vol.isLt
  have last : gainAt 255 = 32768 := by decide
  rw [cdVolGain_toNat, ← last]
  exact gainAt_mono (by omega)

/-- The scaled value. -/
theorem apScl_toInt (v : Sample) (vol : Byte) :
    (apScl v vol).toInt = scale v.toInt (cdVolGain vol).toNat 32768 := by
  have bounds := sample_bounds v
  have gain := cdVolGain_le vol
  obtain ⟨low, high⟩ := scale_between (v := v.toInt) (g := (cdVolGain vol).toNat) (n := 32768)
    (by decide) (by omega) (by omega)
  have product : (v.signExtend 32 * ((cdVolGain vol).setWidth 17).signExtend 32).toInt =
      v.toInt * (cdVolGain vol).toNat := by
    refine toInt_of_bmod ?_ (by nlinarith) (by nlinarith)
    rw [BitVec.toInt_mul, BitVec.toInt_signExtend_of_le (by decide),
      BitVec.toInt_signExtend_of_le (by decide), toInt_unsigned]
  rw [scale, ← product] at low high ⊢
  exact toInt_slice (by decide) (by omega) (by omega)

/-! ## What is claimed -/

/-- The values between two samples, by the fraction of the way. -/
structure Interpolates (p t : Sample) (value : BitVec 17 → Sample) : Prop where
  between : ∀ frac, min p.toInt t.toInt ≤ (value frac).toInt ∧
    (value frac).toInt ≤ max p.toInt t.toInt
  up : p.toInt ≤ t.toInt → ∀ a b, a ≤ b → (value a).toInt ≤ (value b).toInt
  down : t.toInt ≤ p.toInt → ∀ a b, a ≤ b → (value b).toInt ≤ (value a).toInt

/-- A value at a volume. -/
structure Scales (v : Sample) (value : Byte → Sample) : Prop where
  floor : ∀ vol, (value vol).toInt = v.toInt * (cdVolGain vol).toNat / 32768
  magnitude : ∀ vol, |(value vol).toInt| ≤ |v.toInt|
  unity : value 255 = v
  silence : value 0 = 0

theorem interpolates (p t : Sample) : Interpolates p t fun frac => (sum p t frac).setWidth 16 where
  between := by
    intro frac
    have phase := (segF frac).isLt
    rw [sum_fits, sum_toInt]
    exact lerp_between (by decide) (by omega) (by omega)
  up := by
    intro up a b le
    have phase := segF_mono le
    rw [sum_fits, sum_fits, sum_toInt, sum_toInt]
    exact lerp_mono (by decide) up (by omega)
  down := by
    intro down a b le
    have phase := segF_mono le
    rw [sum_fits, sum_fits, sum_toInt, sum_toInt]
    exact lerp_anti (by decide) down (by omega)

theorem scales (v : Sample) : Scales v (apScl v) where
  floor := apScl_toInt v
  magnitude := by
    intro vol
    have gain := cdVolGain_le vol
    rw [apScl_toInt]
    exact abs_scale_le (by decide) (by omega) (by omega)
  unity := by
    apply BitVec.eq_of_toInt_eq
    rw [apScl_toInt, cdVolGain_toNat]
    exact scale_one (by decide)
  silence := by
    apply BitVec.eq_of_toInt_eq
    rw [apScl_toInt, cdVolGain_toNat]
    exact scale_zero

/-- **Output arithmetic.** On both channels the interpolation stays between the two samples
and goes from one to the other, and the routed value is scaled by the gain of its volume
byte, rounded down. -/
theorem output_arithmetic (smp : Sampler) (page : AudioPage) :
    (Interpolates smp.sndLP smp.sndLT fun frac => (sum smp.sndLP smp.sndLT frac).setWidth 16) ∧
    (Interpolates smp.sndRP smp.sndRT fun frac => (sum smp.sndRP smp.sndRT frac).setWidth 16) ∧
    Scales (smp.apSrcL page) (apScl (smp.apSrcL page)) ∧
    Scales (smp.apSrcR page) (apScl (smp.apSrcR page)) :=
  ⟨interpolates _ _, interpolates _ _, scales _, scales _⟩

end Values

/-! ## The output register -/

namespace Output

variable (rst play : Nat → Bool) (smp : Nat → Sampler) (page : Nat → AudioPage)

/-- The register after `t` clocks. -/
def after : Nat → Output
  | 0 => {}
  | t + 1 => (after t).next (rst t) (play t) (smp t) (page t)

/-- The register holds what clock `u` has committed, at most eight clocks ago, and the disc
has played since. -/
structure Holds (t u : Nat) : Prop where
  order : u < t ∧ t ≤ u + 8
  plays : ∀ v, u ≤ v → v < t → (rst v || !play v) = false
  left : (after rst play smp page t).sndL = apScl ((smp u).apSrcL (page u)) (page u).vol0
  right : (after rst play smp page t).sndR = apScl ((smp u).apSrcR (page u)) (page u).vol1
  odiv : (after rst play smp page t).odiv = BitVec.ofNat 3 (t - u)

/-- A clock without a disc playing clears the register; while a disc plays, each value is held
for eight clocks. -/
theorem holds_run (t : Nat) :
    if (rst t || !play t) = true then after rst play smp page (t + 1) = {}
    else ∃ u, Holds rst play smp page (t + 1) u := by
  have step (t : Nat) : after rst play smp page (t + 1) =
      (after rst play smp page t).next (rst t) (play t) (smp t) (page t) := rfl
  have commits (t : Nat) (go : ¬ (rst t || !play t) = true)
      (turn : (after rst play smp page t).odiv = 0) : Holds rst play smp page (t + 1) t := by
    refine ⟨⟨Nat.lt_succ_self t, by omega⟩, fun v low high => ?_, ?_, ?_, ?_⟩
    · rw [show v = t by omega]
      exact Bool.eq_false_iff.mpr go
    all_goals rw [step, Output.next, if_neg go, if_pos turn]
    rw [turn, Nat.add_sub_cancel_left]
    rfl
  induction t with
  | zero =>
    split
    · next stop => rw [step, Output.next, if_pos stop]
    · next go => exact ⟨0, commits 0 go rfl⟩
  | succ t ih =>
    split
    · next stop => rw [step, Output.next, if_pos stop]
    · next go =>
      by_cases turn : (after rst play smp page (t + 1)).odiv = 0
      · exact ⟨t + 1, commits (t + 1) go turn⟩
      by_cases before : (rst t || !play t) = true
      · rw [if_pos before] at ih
        exact absurd (congrArg Output.odiv ih) turn
      rw [if_neg before] at ih
      obtain ⟨u, ⟨order, few⟩, plays, left, right, odiv⟩ := ih
      have early : t + 1 < u + 8 := by
        by_contra late
        have eight : t + 1 - u = 8 := by omega
        rw [odiv, eight] at turn
        exact turn rfl
      have next : t + 1 + 1 - u = t + 1 - u + 1 := by omega
      refine ⟨u, ⟨by omega, by omega⟩, fun v low high => ?_, ?_, ?_, ?_⟩
      · by_cases last : v = t + 1
        · rw [last]
          exact Bool.eq_false_iff.mpr go
        · exact plays v low (by omega)
      all_goals rw [step, Output.next, if_neg go, if_neg turn]
      · exact left
      · exact right
      · rw [odiv, next, BitVec.ofNat_add]
        rfl

end Output

end CdAudio

end MacIIvi
