import MacIIvi.CdAudio.PlayRange

/-!
# The position registers

Source: `rtl/cd_audio.sv`, `M_REF_SCAN`, `M_REF_DIVA` and `M_REF_DIVR`. A refresh
samples the playhead, looks for the last track that starts at or before it and
divides twice. Six of the seven registers are set when the second division is
finished, but `abs_f` when the first one is.
-/

namespace MacIIvi

namespace CdAudio

/-- Minutes, seconds and frames. -/
def msf (p : Nat) : Nat × Nat × Nat := (p / 4500, p / 75 % 60, p % 75)

/-- The registers tell the playhead `p` on the disc `d`. -/
structure Position.Tells (pos : Position) (d : Disc) (p : Nat) : Prop where
  track : 1 ≤ pos.curTrk ∧ pos.curTrk ≤ d.nTracks
  starts : d.start (pos.curTrk - 1) ≤ p
  largest : ∀ k < d.nTracks, d.start k ≤ p → k ≤ pos.curTrk - 1
  abs : (pos.absM, pos.absS, pos.absF) = msf p
  rel : (pos.relM, pos.relS, pos.relF) = msf (p - d.start (pos.curTrk - 1))

/-- The last of the first `k` tracks that starts at or before the sampled playhead. -/
structure Refresh.Best (r : Refresh) (d : Disc) (k : Nat) : Prop where
  found : (∃ i < k, d.start i ≤ r.refAbs) →
    r.scanBestTrk < k ∧ r.scanBestStart = d.start r.scanBestTrk ∧ r.scanBestStart ≤ r.refAbs
  largest : ∀ i < k, d.start i ≤ r.refAbs → i ≤ r.scanBestTrk

section

variable {r : Refresh} {d : Disc} {k : Nat}

theorem Refresh.best_zero : r.Best d 0 :=
  ⟨fun ⟨_, low, _⟩ => absurd low (Nat.not_lt_zero _), fun _ low => absurd low (Nat.not_lt_zero _)⟩

/-- Track `k` starts at or before the playhead. -/
theorem Refresh.best_here (here : d.start k ≤ r.refAbs) (ctrl : Byte) :
    Refresh.Best
      { r with scanBestStart := d.start k, scanBestTrk := k, scanBestCtrl := ctrl } d (k + 1) where
  found := fun _ => ⟨Nat.lt_succ_self k, rfl, here⟩
  largest := fun _ low _ => Nat.le_of_lt_succ low

/-- Track `k` starts after the playhead. -/
theorem Refresh.Best.skip (best : r.Best d k) (after : ¬ d.start k ≤ r.refAbs) :
    r.Best d (k + 1) where
  found := by
    rintro ⟨i, low, starts⟩
    have earlier : i < k := by
      rcases Nat.lt_succ_iff_lt_or_eq.mp low with lt | rfl
      · exact lt
      · exact absurd starts after
    obtain ⟨trk, start, le⟩ := best.found ⟨i, earlier, starts⟩
    exact ⟨by omega, start, le⟩
  largest := by
    intro i low starts
    rcases Nat.lt_succ_iff_lt_or_eq.mp low with lt | rfl
    · exact best.largest i lt starts
    · exact absurd starts after

end

open Disc (Towards towards_load)

namespace Main

variable {d : Disc} {w : MainIn} {s : Main} {q : BitVec 16}

/-- A refresh samples the playhead in this clock. -/
def samples (w : MainIn) (s : Main) : Bool :=
  !w.rst && s.mst == .idle && !(w.imgMounted && w.mounted) && !s.cmd.cmdPend &&
    decide (s.ref.refCnt = 2 ^ 16 - 1) && s.tab.tocReady && w.mounted

/-- `M_REF_DIVA` finishes: `abs_f` is set. -/
def setsFrame (s : Main) : Bool :=
  s.mst == .refDiva && !(!s.tab.tocValid && s.step == 0) && s.div.step.isNone

/-- `M_REF_DIVR` finishes: the other registers are set. -/
def setsRest (s : Main) : Bool := s.mst == .refDivr && s.div.step.isNone

/-- The entry of track `scan_idx` on its way. -/
def scanning (d : Disc) (s : Main) (q : BitVec 16) : Prop :=
  match s.step with
  | 0 => True
  | 1 => s.blob.blobRa = 8 + 4 * s.ref.scanIdx
  | 2 => s.blob.blobRa = 9 + 4 * s.ref.scanIdx
  | 3 => s.blob.blobRa = 10 + 4 * s.ref.scanIdx ∧ q = d.word (9 + 4 * s.ref.scanIdx)
  | 4 =>
    q = d.word (10 + 4 * s.ref.scanIdx) ∧
      s.ref.scanStart % 65536 = (d.word (9 + 4 * s.ref.scanIdx)).toNat
  | _ => False

/-- What the registers of a refresh hold in each of its states. -/
def refreshing (d : Disc) (s : Main) (q : BitVec 16) : Prop :=
  match s.mst with
  | .refScan =>
    d.valid = true ∧ s.ref.scanIdx < d.nTracks ∧ scanning d s q ∧ s.ref.Best d s.ref.scanIdx
  | .refDiva =>
    s.ref.refAbs < 2 ^ 32 ∧
      ((s.tab.tocValid = false ∧ s.step = 0) ∨
        (s.tab.tocValid = true ∨ s.step ≠ 0) ∧ s.ref.Best d d.nTracks ∧
          Towards s.ref.refAbs 0 s.div)
  | .refDivr =>
    s.ref.Best d d.nTracks ∧ s.ref.refmHold = (Disc.msf s.ref.refAbs 0).m ∧
      s.ref.refsHold = (Disc.msf s.ref.refAbs 0).s ∧
      s.pos.absF = (Disc.msf s.ref.refAbs 0).v % 256 ∧
      Towards (s.ref.refAbs + 2 ^ 32 - s.ref.scanBestStart) 0 s.div
  | _ => True

/-- A refresh is on. -/
def refreshes (s : Main) : Bool :=
  match s.mst with
  | .refScan | .refDiva | .refDivr => true
  | _ => false

/-! ### The states of a refresh -/

/-- The refresh starts. -/
theorem next_samples (on : s.Describes d) (wide : s.Wide) (go : samples w s = true) :
    refreshing d (next w s) q ∧ (next w s).refreshes = true ∧
      (next w s).ref.refAbs = s.play.curLba ∧ (next w s).pos = s.pos := by
  simp only [samples, Bool.and_eq_true, Bool.not_eq_true', beq_iff_eq, decide_eq_true_eq] at go
  obtain ⟨⟨⟨⟨⟨⟨rst, idle⟩, noMount⟩, noCmd⟩, full⟩, ready⟩, mounted⟩ := go
  have start : next w s =
      { preamble w s with
        blob := { s.blob with blobCap := false }
        ref :=
          { s.ref with
            refCnt := 0, refAbs := s.play.curLba, scanIdx := 0, scanBestTrk := 0
            scanBestStart := 0, scanBestCtrl := 0x14 }
        step := 0, mst := if s.tab.tocValid then .refScan else .refDiva } := by
    simp only [next, rst, idle, stepIdle, Bool.false_eq_true, if_false]
    rw [noMount, if_neg Bool.false_ne_true, ready, Bool.not_true, Bool.and_false,
      if_neg Bool.false_ne_true, noCmd, if_neg Bool.false_ne_true, if_pos ⟨full, rfl, mounted⟩]
  rw [start]
  cases valid : s.tab.tocValid
  · exact ⟨⟨wide.cur, .inl ⟨by simpa using valid, rfl⟩⟩, rfl, rfl, rfl⟩
  · exact ⟨⟨on.valid.symm.trans valid, on.some, trivial, Refresh.best_zero⟩, rfl, rfl, rfl⟩

/-- One clock of the track scan. -/
theorem next_refScan (on : s.Describes d) (rst : w.rst = false) (qw : w.blobQ = q)
    (mst : s.mst = .refScan) (abs : s.ref.refAbs < 2 ^ 32) (here : refreshing d s q) :
    refreshing d (next w s) (d.word s.blob.blobRa) ∧ (next w s).refreshes = true ∧
      (next w s).ref.refAbs = s.ref.refAbs ∧ (next w s).pos = s.pos := by
  simp only [refreshing, mst] at here
  obtain ⟨valid, low, read, best⟩ := here
  have few := on.few
  have word (k : Nat) (h : k < 3) : (8 + 4 * s.ref.scanIdx + k) % 512 = 8 + 4 * s.ref.scanIdx + k := by
    omega
  simp only [next, rst, mst, Bool.false_eq_true, if_false]
  rcases step : s.step with _ | _ | _ | _ | _ | n <;> simp only [scanning, step] at read <;>
    simp only [stepRefScan, step, refreshing, refreshes, preamble_mst, mst, preamble_ref,
      preamble_pos, and_true]
  · refine ⟨valid, low, ?_, best⟩
    simp only [scanning]
    omega
  · refine ⟨valid, low, ?_, best⟩
    simp only [scanning]
    omega
  · refine ⟨valid, low, ?_, ⟨best.found, best.largest⟩⟩
    simp only [scanning]
    exact ⟨by omega, by rw [read]⟩
  · refine ⟨valid, low, ?_, ⟨best.found, best.largest⟩⟩
    obtain ⟨ra, lo⟩ := read
    simp only [scanning]
    refine ⟨by rw [ra], ?_⟩
    have small := w.blobQ.isLt
    rw [← lo, ← qw]
    omega
  · obtain ⟨hi, lo⟩ := read
    have start : w.blobQ.toNat * 65536 + s.ref.scanStart % 65536 = d.start s.ref.scanIdx := by
      have entry : d.entry s.ref.scanIdx = 8 + 4 * s.ref.scanIdx := by
        rw [Disc.entry, if_pos low]
      have high : 8 + 4 * s.ref.scanIdx + 2 = 10 + 4 * s.ref.scanIdx := by omega
      have low : 8 + 4 * s.ref.scanIdx + 1 = 9 + 4 * s.ref.scanIdx := by omega
      rw [Disc.start, if_pos valid, entry, lo, qw, hi, high, low]
    rw [start]
    have best' : Refresh.Best
        (if d.start s.ref.scanIdx ≤ s.ref.refAbs then
          { s.ref with
            scanBestStart := d.start s.ref.scanIdx, scanBestTrk := s.ref.scanIdx
            scanBestCtrl := s.ref.scanCtrlC }
        else s.ref) d (s.ref.scanIdx + 1) := by
      split
      · exact Refresh.best_here ‹_› _
      · exact best.skip ‹_›
    have abs' : (if d.start s.ref.scanIdx ≤ s.ref.refAbs then
          { s.ref with
            scanBestStart := d.start s.ref.scanIdx, scanBestTrk := s.ref.scanIdx
            scanBestCtrl := s.ref.scanCtrlC }
        else s.ref).refAbs = s.ref.refAbs := by
      split <;> rfl
    generalize (if d.start s.ref.scanIdx ≤ s.ref.refAbs then
          { s.ref with
            scanBestStart := d.start s.ref.scanIdx, scanBestTrk := s.ref.scanIdx
            scanBestCtrl := s.ref.scanCtrlC }
        else s.ref) = r at best' abs' ⊢
    have idx : (s.ref.scanIdx + 1) % 128 = s.ref.scanIdx + 1 := by omega
    rw [idx, on.nTracks]
    by_cases more : s.ref.scanIdx + 1 < d.nTracks
    · rw [if_pos more]
      exact ⟨⟨valid, more, trivial, ⟨best'.found, best'.largest⟩⟩, rfl, abs', rfl⟩
    · rw [if_neg more]
      have all : s.ref.scanIdx + 1 = d.nTracks := by omega
      rw [all] at best'
      refine ⟨⟨abs'.symm ▸ abs, .inr ⟨.inl (on.valid.trans valid), best', ?_⟩⟩, rfl, abs', rfl⟩
      rw [abs']
      exact towards_load s.ref.refAbs 0

/-- One clock of the first division. -/
theorem next_refDiva (on : s.Describes d) (one : d.valid = false → d.nTracks = 1)
    (rst : w.rst = false) (mst : s.mst = .refDiva) (here : refreshing d s q) :
    refreshing d (next w s) (d.word s.blob.blobRa) ∧ (next w s).refreshes = true ∧
      (next w s).ref.refAbs = s.ref.refAbs ∧
      (next w s).pos =
        if setsFrame s then { s.pos with absF := (Disc.msf s.ref.refAbs 0).v % 256 }
        else s.pos := by
  simp only [refreshing, mst] at here
  obtain ⟨abs, fallback | ⟨loaded, best, towards⟩⟩ := here
  · obtain ⟨invalid, first⟩ := fallback
    have noValid : d.valid = false := on.valid.symm.trans invalid
    have start (k : Nat) : d.start k = 0 := by simp [Disc.start, noValid]
    have setup : (!s.tab.tocValid && s.step == 0) = true := by simp [invalid, first]
    have noSet : setsFrame s = false := by simp [setsFrame, setup]
    simp only [next, rst, mst, stepRefDiva, setup, noSet, refreshing, refreshes, preamble_mst,
      preamble_pos, Bool.false_eq_true, if_false, if_true, and_true]
    refine ⟨abs, .inr ⟨.inr (by decide), ⟨fun _ => ?_, fun i low _ => ?_⟩, towards_load _ 0⟩⟩
    · exact ⟨on.some, (start 0).symm, Nat.zero_le _⟩
    · rw [one noValid] at low
      omega
  · have setup : (!s.tab.tocValid && s.step == 0) = false := by
      rcases loaded with valid | step
      · simp [valid]
      · simp [step]
    cases stop : s.div.step with
    | some x =>
      have noSet : setsFrame s = false := by simp [setsFrame, stop]
      simp only [next, rst, mst, stepRefDiva, setup, stop, noSet, refreshing, refreshes,
        preamble_mst, preamble_pos, preamble_ref, preamble_tab, preamble_step, Bool.false_eq_true,
        if_false, and_true]
      exact ⟨abs, .inr ⟨loaded, best, towards.step stop⟩⟩
    | none =>
      have sets : setsFrame s = true := by simp [setsFrame, mst, setup, stop]
      simp only [next, rst, mst, stepRefDiva, setup, stop, sets, refreshing, refreshes,
        preamble_pos, Bool.false_eq_true, if_false, if_true]
      have done := towards.stops stop
      rw [done]
      exact ⟨⟨⟨best.found, best.largest⟩, rfl, rfl, rfl, towards_load _ 0⟩, trivial, trivial, rfl⟩

/-- One clock of the second division. -/
theorem next_refDivr (rst : w.rst = false) (mst : s.mst = .refDivr) (here : refreshing d s q)
    (small : s.ref.refAbs < 450000) (some_ : ∃ k < d.nTracks, d.start k ≤ s.ref.refAbs) :
    if setsRest s then
      (next w s).refreshes = false ∧ (next w s).pos.Tells d s.ref.refAbs
    else
      refreshing d (next w s) (d.word s.blob.blobRa) ∧ (next w s).refreshes = true ∧
        (next w s).ref.refAbs = s.ref.refAbs ∧ (next w s).pos = s.pos := by
  simp only [refreshing, mst] at here
  obtain ⟨best, hold, secs, frame, towards⟩ := here
  cases stop : s.div.step with
  | some x =>
    have more : setsRest s = false := by simp [setsRest, stop]
    simp only [more, next, rst, mst, stepRefDivr, stop, refreshing, refreshes, preamble_mst,
      preamble_ref, preamble_pos, Bool.false_eq_true, if_false, and_true]
    exact ⟨best, hold, secs, frame, towards.step stop⟩
  | none =>
    have sets : setsRest s = true := by simp [setsRest, mst, stop]
    obtain ⟨trk, start, le⟩ := best.found some_
    have rest : s.div = Disc.msf (s.ref.refAbs - s.ref.scanBestStart) 0 := by
      rw [towards.stops stop, Disc.msf, Disc.msf]
      congr 1
      omega
    have abs := @Disc.msf_small s.ref.refAbs 0 small
    have rel := @Disc.msf_small (s.ref.refAbs - s.ref.scanBestStart) 0 (by omega)
    rw [abs] at hold secs frame
    rw [rel] at rest
    simp only [sets, next, rst, mst, stepRefDivr, stop, refreshes, Bool.false_eq_true, if_false,
      if_true, true_and]
    rw [start] at le rest
    refine ⟨⟨Nat.le_add_left 1 _, trk⟩, le, best.largest, ?_, ?_⟩
    · simp only [hold, secs, frame, msf, Nat.add_zero, Prod.mk.injEq, true_and]
      omega
    · simp only [rest, msf, Nat.add_zero, Nat.add_sub_cancel, Prod.mk.injEq, true_and]
      omega

/-- Any other clock leaves the registers alone. -/
theorem next_away (rst : w.rst = false) (off : s.refreshes = false) (noGo : samples w s = false) :
    (next w s).refreshes = false ∧ (next w s).pos = s.pos := by
  simp only [next, rst, Bool.false_eq_true, if_false]
  cases mst : s.mst
  case refScan | refDiva | refDivr => simp [refreshes, mst] at off
  case idle =>
    simp only [stepIdle, acquire]
    split
    · exact ⟨rfl, rfl⟩
    split
    · exact ⟨rfl, rfl⟩
    split
    · exact ⟨rfl, rfl⟩
    split
    · rename_i noMount _ noCmd full
      simp_all [samples]
    · exact ⟨by simp [refreshes, mst], rfl⟩
  all_goals
    simp only [stepAcqReq, stepAcqWait, stepHdrRd, stepEmitH, stepLoDiv, stepDiv, stepEmitLo,
      stepTrkRd, stepTrackRead, stepTrkDiv, stepEmitTrk, stepBuilt, stepT43Hdr, stepT43Rd,
      stepT43Div, stepT43Emit, stepT2Hdr, stepT2Rd, stepT2Div, stepT2Trk, stepT2A2, stepT2A01,
      stepT2Sess, stepCmd, stepCtrkRd, stepScanGo, stepApply, putT2]
    repeat' split
    all_goals exact ⟨by simp [refreshes, mst], rfl⟩

end Main

namespace Engine

variable {ins : Nat → EngineIn} {t : Nat}

/-- A refresh samples the playhead in clock `u`. -/
def Samples (ins : Nat → EngineIn) (u : Nat) : Prop :=
  Main.samples (wires ins u) (after ins u).main = true

/-- What a clock needs: a playhead that is sampled is on a track and below a hundred
minutes, and `abs_f` is set to what it is already. -/
structure Steady (ins : Nat → EngineIn) (u : Nat) : Prop where
  onDisc : Samples ins u →
    ∃ k < (after ins u).disc.nTracks, (after ins u).disc.start k ≤ (after ins u).main.play.curLba
  small : Samples ins u → (after ins u).main.play.curLba < 450000
  frame : (ins u).rst = false → (after ins u).main.setsFrame = true →
    (after ins u).main.ref.refAbs % 75 = (after ins u).main.pos.absF

/-- The registers tell one playhead that a refresh has sampled, unless none has been
finished since the reset. -/
def Consistent (ins : Nat → EngineIn) (t : Nat) : Prop :=
  (after ins t).main.pos = {} ∨
    ∃ u < t, Samples ins u ∧
      (after ins t).main.pos.Tells (after ins u).disc (after ins u).main.play.curLba

/-- The refresh that is on at clock `t`. -/
structure Going (ins : Nat → EngineIn) (t u : Nat) : Prop where
  earlier : u < t
  samples : Samples ins u
  disc : (after ins t).disc = (after ins u).disc
  refAbs : (after ins t).main.ref.refAbs = (after ins u).main.play.curLba
  facts : Main.refreshing (after ins t).disc (after ins t).main (after ins t).blobQ

theorem Consistent.later (here : Consistent ins t)
    (same : (after ins (t + 1)).main.pos = (after ins t).main.pos) : Consistent ins (t + 1) := by
  unfold Consistent at *
  rw [same]
  rcases here with zero | ⟨u, low, samples, tells⟩
  · exact .inl zero
  · exact .inr ⟨u, by omega, samples, tells⟩

/-- The disc stays during a refresh, and the blob memory answers. -/
theorem refresh_disc (rst : (ins t).rst = false)
    (quiet : (after ins t).main.mst ≠ .hdrRd ∧ (after ins t).main.mst ≠ .acqWait)
    (on : (after ins (t + 1)).main.mst ≠ .acqReq) :
    (after ins (t + 1)).disc = (after ins t).disc ∧
      (after ins (t + 1)).blobQ = (after ins t).disc.word (after ins t).main.blob.blobRa :=
  ⟨(reached_after ins t).contents.disc_step rst quiet.1 quiet.2 on, rfl⟩

/-- A synthesized TOC has one track. -/
theorem Samples.one {u : Nat} (samples : Samples ins u) (invalid : (after ins u).disc.valid = false) :
    (after ins u).disc.nTracks = 1 := by
  have ready : (after ins u).main.tab.tocReady = true := by
    simp only [Samples, Main.samples, Bool.and_eq_true] at samples
    exact samples.1.2
  obtain ⟨blocks, sampled⟩ := (reached_after ins u).sampled
  have header := (sampled.headerOf ready).2
  have off : (after ins u).main.tab.tocValid = false := invalid
  rw [off] at header
  exact header.1

/-- A refresh that is on or starts goes on until it finishes. -/
theorem going_step (small : ∀ t, (ins t).imgBlocks < 2 ^ 32)
    (going : (after ins t).main.refreshes = true → ∃ u, Going ins t u ∧ Steady ins u)
    (on' : (after ins (t + 1)).main.refreshes = true) : ∃ u, Going ins (t + 1) u := by
  have describes := (reached_after ins t).contents.describes
  have main := @after_main ins t
  have rst : (ins t).rst = false := by
    by_contra up
    have run : (wires ins t).rst = true := by
      rw [Bool.not_eq_false] at up
      exact up
    rw [main, Main.next, if_pos run] at on'
    simp [Main.refreshes, Main.reset] at on'
  have run : (wires ins t).rst = false := rst
  have qw : (wires ins t).blobQ = (after ins t).blobQ := rfl
  have away : (after ins (t + 1)).main.mst ≠ .acqReq := by
    intro mst
    simp [Main.refreshes, mst] at on'
  cases on : (after ins t).main.refreshes with
  | false =>
    have go : Samples ins t := by
      by_contra noGo
      have off := (Main.next_away run on (by simpa [Samples] using noGo)).1
      rw [← main, on'] at off
      exact absurd off (by decide)
    obtain ⟨facts, -, abs, -⟩ := Main.next_samples (q := (after ins (t + 1)).blobQ)
      describes (wide_after small t) go
    rw [← main] at facts abs
    have idle : (after ins t).main.mst = .idle := by
      simp only [Samples, Main.samples, Bool.and_eq_true, beq_iff_eq] at go
      exact go.1.1.1.1.1.2
    obtain ⟨disc, -⟩ := refresh_disc rst ⟨by simp [idle], by simp [idle]⟩ away
    exact ⟨t, Nat.lt_succ_self t, go, disc, abs, by rwa [disc]⟩
  | true =>
    obtain ⟨u, here, steady⟩ := going on
    have small' := steady.small here.samples
    rw [← here.refAbs] at small'
    have track := steady.onDisc here.samples
    rw [← here.refAbs, ← here.disc] at track
    have quiet : (after ins t).main.mst ≠ .hdrRd ∧ (after ins t).main.mst ≠ .acqWait := by
      constructor <;> intro mst <;> simp [Main.refreshes, mst] at on
    obtain ⟨disc, answer⟩ := refresh_disc rst quiet away
    have keep (abs : (after ins (t + 1)).main.ref.refAbs = (after ins t).main.ref.refAbs)
        (facts : Main.refreshing (after ins t).disc (after ins (t + 1)).main
          ((after ins t).disc.word (after ins t).main.blob.blobRa)) :
        ∃ u, Going ins (t + 1) u := by
      refine ⟨u, by have := here.earlier; omega, here.samples, disc.trans here.disc,
        abs.trans here.refAbs, ?_⟩
      rw [disc, answer]
      exact facts
    cases mst : (after ins t).main.mst
    case refScan =>
      obtain ⟨facts, -, abs, -⟩ := Main.next_refScan describes run qw mst (by omega) here.facts
      rw [← main] at facts abs
      exact keep abs facts
    case refDiva =>
      obtain ⟨facts, -, abs, -⟩ := Main.next_refDiva describes
        (fun invalid => by
          rw [here.disc] at invalid ⊢
          exact here.samples.one invalid) run mst here.facts
      rw [← main] at facts abs
      exact keep abs facts
    case refDivr =>
      have next := Main.next_refDivr run mst here.facts small' track
      rw [← main] at next
      split at next
      · rw [on'] at next
        exact absurd next.1 (by decide)
      · exact keep next.2.2.1 next.1
    all_goals simp [Main.refreshes, mst] at on

/-- A steady clock in which no refresh finishes leaves the registers alone. -/
theorem refresh_pos (small : ∀ t, (ins t).imgBlocks < 2 ^ 32) (steady : Steady ins t)
    (going : (after ins t).main.refreshes = true → ∃ u, Going ins t u ∧ Steady ins u)
    (rst : (ins t).rst = false) (noRest : (after ins t).main.setsRest = false) :
    (after ins (t + 1)).main.pos = (after ins t).main.pos := by
  have describes := (reached_after ins t).contents.describes
  have run : (wires ins t).rst = false := rst
  have qw : (wires ins t).blobQ = (after ins t).blobQ := rfl
  rw [after_main]
  cases on : (after ins t).main.refreshes with
  | false =>
    by_cases go : Samples ins t
    · exact (Main.next_samples (q := 0) describes (wide_after small t) go).2.2.2
    · exact (Main.next_away run on (by simpa [Samples] using go)).2
  | true =>
    obtain ⟨u, here, steady'⟩ := going on
    have small' := steady'.small here.samples
    rw [← here.refAbs] at small'
    have track := steady'.onDisc here.samples
    rw [← here.refAbs, ← here.disc] at track
    cases mst : (after ins t).main.mst
    case refScan =>
      exact (Main.next_refScan describes run qw mst (by omega) here.facts).2.2.2
    case refDiva =>
      refine (Main.next_refDiva describes
        (fun invalid => by
          rw [here.disc] at invalid ⊢
          exact here.samples.one invalid) run mst here.facts).2.2.2.trans ?_
      split
      · rename_i sets
        -- `abs_f` is set to what it is
        have frame := steady.frame rst sets
        have digits := @Disc.msf_small (after ins t).main.ref.refAbs 0 small'
        have same : (Disc.msf (after ins t).main.ref.refAbs 0).v % 256 =
            (after ins t).main.pos.absF := by
          rw [digits, ← frame]
          simp only [Nat.add_zero]
          omega
        rw [same]
      · rfl
    case refDivr =>
      have next := Main.next_refDivr run mst here.facts small' track
      rw [if_neg (by simp [noRest])] at next
      exact next.2.2.2
    all_goals simp [Main.refreshes, mst] at on

/-- A refresh that finishes leaves the sampled playhead. -/
theorem refresh_tells (u : Nat) (here : Going ins t u) (steady : Steady ins u)
    (rst : (ins t).rst = false) (sets : (after ins t).main.setsRest = true) :
    (after ins (t + 1)).main.pos.Tells (after ins u).disc (after ins u).main.play.curLba := by
  have mst : (after ins t).main.mst = .refDivr := by
    simp only [Main.setsRest, Bool.and_eq_true, beq_iff_eq] at sets
    exact sets.1
  have small' := steady.small here.samples
  rw [← here.refAbs] at small'
  have track := steady.onDisc here.samples
  rw [← here.refAbs, ← here.disc] at track
  have run : (wires ins t).rst = false := rst
  have next := Main.next_refDivr run mst here.facts small' track
  rw [if_pos sets, here.refAbs, here.disc] at next
  exact next.2

theorem consistent_going (small : ∀ t, (ins t).imgBlocks < 2 ^ 32)
    (steady : ∀ u < t, Steady ins u) :
    Consistent ins t ∧
      ((after ins t).main.refreshes = true → ∃ u, Going ins t u ∧ Steady ins u) := by
  induction t with
  | zero => exact ⟨.inl rfl, fun on => by simp [after, Main.refreshes] at on⟩
  | succ t ih =>
    obtain ⟨shown, going⟩ := ih fun u low => steady u (by omega)
    refine ⟨?_, fun on' => ?_⟩
    · cases rst : (ins t).rst with
      | true =>
        have run : (wires ins t).rst = true := rst
        have reset : (after ins (t + 1)).main = (after ins t).main.reset := by
          rw [after_main, Main.next, if_pos run]
        exact .inl (by rw [reset]; rfl)
      | false =>
        cases sets : (after ins t).main.setsRest with
        | false =>
          exact shown.later (refresh_pos small (steady t (Nat.lt_succ_self t)) going rst sets)
        | true =>
          have on : (after ins t).main.refreshes = true := by
            simp only [Main.setsRest, Bool.and_eq_true, beq_iff_eq] at sets
            simp [Main.refreshes, sets.1]
          obtain ⟨u, here, steady'⟩ := going on
          have low := here.earlier
          exact .inr ⟨u, by omega, here.samples, refresh_tells u here steady' rst sets⟩
    · obtain ⟨u, here⟩ := going_step small going on'
      exact ⟨u, here, steady u here.earlier⟩

/-- **Status consistency.** In every run whose clocks are steady, the registers tell
one sampled playhead in every clock; while no refresh finishes a reader sees them
unchanged. -/
theorem refresh_consistent (small : ∀ t, (ins t).imgBlocks < 2 ^ 32)
    (steady : ∀ u < t, Steady ins u) :
    Consistent ins t ∧
      ∀ v ≤ t, (∀ u, v ≤ u → u < t → (ins u).rst = false ∧ (after ins u).main.setsRest = false) →
        (after ins t).main.pos = (after ins v).main.pos := by
  refine ⟨(consistent_going small steady).1, fun v => ?_⟩
  induction t with
  | zero =>
    rintro low -
    rw [Nat.le_zero.mp low]
  | succ t ih =>
    intro low quiet
    rcases Nat.lt_or_eq_of_le low with low | rfl
    · have before := ih (fun u h => steady u (by omega)) (by omega)
        fun u from_ below => quiet u from_ (by omega)
      obtain ⟨rst, noRest⟩ := quiet t (by omega) (Nat.lt_succ_self t)
      obtain ⟨-, going⟩ := consistent_going small fun u (h : u < t) => steady u (by omega)
      rw [← before]
      exact refresh_pos small (steady t (Nat.lt_succ_self t))
        going rst noRest
    · rfl

end Engine

/-! ### The first refresh of a paused disc -/

namespace Main

variable {w : MainIn} {s : Main} {q : BitVec 16}

/-- The wires when nothing happens. -/
def calm (q : BitVec 16) : MainIn where
  rst := false
  busRst := false
  mounted := true
  imgMounted := false
  imgBlocks := 0
  cmdStb := false
  cdb := fun _ => 0
  readStb := false
  ejectStb := false
  grant := false
  ioAck := false
  ackFall := false
  frAct := false
  frameDone := false
  blobQ := q

/-- Nothing happens on the wires. -/
structure Calm (w : MainIn) : Prop where
  rst : w.rst = false
  busRst : w.busRst = false
  mounted : w.mounted = true
  imgMounted : w.imgMounted = false
  cmdStb : w.cmdStb = false
  readStb : w.readStb = false
  ejectStb : w.ejectStb = false
  frameDone : w.frameDone = false

theorem Calm.preamble (c : Calm w) : Main.preamble w s = Main.preamble (calm w.blobQ) s := by
  simp [Main.preamble, Playback.preamble, Playback.stopped, c.busRst, c.mounted, c.cmdStb,
    c.readStb, c.ejectStb, c.frameDone, calm]

/-- The idle state and the states of a refresh see nothing else. -/
theorem Calm.next (c : Calm w) (state : s.mst = .idle ∨ s.refreshes = true) :
    Main.next w s = Main.next (calm w.blobQ) s := by
  have run : (calm w.blobQ).rst = false := rfl
  have b0 : (calm w.blobQ).b0 = w.b0 := rfl
  simp only [Main.next, c.rst, run, Bool.false_eq_true, if_false]
  cases mst : s.mst
  case idle =>
    have noMount : (calm w.blobQ).imgMounted = false := rfl
    have mounted : (calm w.blobQ).mounted = true := rfl
    simp only [stepIdle, c.preamble, c.imgMounted, c.mounted, noMount, mounted]
  case refScan =>
    simp only [stepRefScan, c.preamble, b0]
    rfl
  case refDiva => simp only [stepRefDiva, c.preamble]
  case refDivr => simp only [stepRefDivr, c.preamble]
  all_goals simp [refreshes, mst] at state

/-- The state and the blob output after `n` calm clocks. -/
def calmly (blob : Nat → BitVec 16) (s : Main) (q : BitVec 16) : Nat → Main × BitVec 16
  | 0 => (s, q)
  | n + 1 =>
    (next (calm (calmly blob s q n).2) (calmly blob s q n).1,
      blob (calmly blob s q n).1.blob.blobRa)

/-- Idle with nothing going on. -/
structure Still (s : Main) : Prop where
  mst : s.mst = .idle
  noCmd : s.cmd.cmdPend = false
  ready : s.tab.tocReady = true
  flush : s.play.flush = false
  noPlay : s.play.pstate ≠ .play
  cap : s.blob.blobCap = false
  resp : s.tab.resp.we = false
  t43 : s.tab.t43.we = false
  t2 : s.tab.t2.we = false

theorem Tables.strobesLow_eq {t : Tables} (resp : t.resp.we = false) (t43 : t.t43.we = false)
    (t2 : t.t2.we = false) : t.strobesLow = t := by
  rcases t with ⟨_, _, _, _, _, ⟨_, _, _⟩, ⟨_, _, _⟩, _, ⟨_, _, _⟩, _⟩
  simp only at resp t43 t2
  subst resp t43 t2
  rfl

/-- An idle clock counts. -/
theorem Still.next (still : s.Still) (few : s.ref.refCnt + 1 < 2 ^ 16) :
    Main.next (calm q) s = { s with ref := { s.ref with refCnt := s.ref.refCnt + 1 } } := by
  have count : (s.ref.refCnt + 1) % 2 ^ 16 = s.ref.refCnt + 1 := Nat.mod_eq_of_lt few
  have full : ¬(s.ref.refCnt = 2 ^ 16 - 1 ∧ s.tab.tocReady = true ∧ (calm q).mounted = true) := by
    omega
  have strobes := Tables.strobesLow_eq still.resp still.t43 still.t2
  have play : s.play.preamble (calm q) = s.play := by
    unfold Playback.preamble
    simp only [calm, Playback.stopped, Bool.false_and, Bool.not_false, Bool.true_and,
      Bool.false_eq_true, if_false, Bool.not_true, Bool.or_self]
    rw [← still.flush]
  have cap : { s.blob with blobCap := false } = s.blob := by rw [← still.cap]
  have same : Main.preamble (calm q) s = s := by
    unfold Main.preamble
    rw [strobes, play]
    simp [calm]
  have noMount : ((calm q).imgMounted && (calm q).mounted) = false := rfl
  have known : ((calm q).mounted && !s.tab.tocReady) = false := by rw [still.ready]; rfl
  rw [Main.next, if_neg (by simp [calm]), still.mst]
  simp only [stepIdle]
  rw [noMount, known, still.noCmd, if_neg (by simp), if_neg (by simp), if_neg (by simp),
    if_neg full, same, count, cap, still.mst]

/-- The refresh counter counts idle clocks. -/
theorem next_refCnt (rst : w.rst = false) : (next w s).ref.refCnt ≤ s.ref.refCnt + 1 := by
  simp only [next, rst, Bool.false_eq_true, if_false]
  cases mst : s.mst
  case idle =>
    simp only [stepIdle, acquire]
    repeat' split
    all_goals simp
    exact Nat.mod_le _ _
  all_goals
    simp only [stepAcqReq, stepAcqWait, stepHdrRd, stepEmitH, stepLoDiv, stepDiv, stepEmitLo,
      stepTrkRd, stepTrackRead, stepTrkDiv, stepEmitTrk, stepBuilt, stepT43Hdr, stepT43Rd,
      stepT43Div, stepT43Emit, stepT2Hdr, stepT2Rd, stepT2Div, stepT2Trk, stepT2A2, stepT2A01,
      stepT2Sess, stepCmd, stepCtrkRd, stepScanGo, stepApply, stepRefScan, stepRefDiva,
      stepRefDivr, putT2]
    repeat' split
    all_goals exact Nat.le_succ _

/-- Counting `n` idle clocks. -/
theorem Still.calmly {blob : Nat → BitVec 16} (still : s.Still) (n : Nat)
    (few : s.ref.refCnt + n < 2 ^ 16) (answer : q = blob s.blob.blobRa) :
    Main.calmly blob s q n = ({ s with ref := { s.ref with refCnt := s.ref.refCnt + n } }, q) := by
  induction n with
  | zero => rfl
  | succ n ih =>
    have before := ih (by omega)
    have still' : Still { s with ref := { s.ref with refCnt := s.ref.refCnt + n } } :=
      ⟨still.mst, still.noCmd, still.ready, still.flush, still.noPlay, still.cap, still.resp,
        still.t43, still.t2⟩
    rw [Main.calmly, before, still'.next few, ← answer]
    rfl

theorem calmly_add (blob : Nat → BitVec 16) (n k : Nat) :
    Main.calmly blob s q (n + k) =
      Main.calmly blob (Main.calmly blob s q n).1 (Main.calmly blob s q n).2 k := by
  induction k with
  | zero => rfl
  | succ k ih => rw [← Nat.add_assoc, Main.calmly, ih, Main.calmly]

/-- Idle clocks up to a count, and the clocks after. -/
theorem Still.fills {blob : Nat → BitVec 16} (still : s.Still) {m : Nat}
    (few : s.ref.refCnt + m < 2 ^ 16) (answer : q = blob s.blob.blobRa) (k : Nat) :
    Main.calmly blob s q k =
      if k < m then ({ s with ref := { s.ref with refCnt := s.ref.refCnt + k } }, q)
      else
        Main.calmly blob { s with ref := { s.ref with refCnt := s.ref.refCnt + m } } q (k - m) := by
  split
  · exact still.calmly k (by omega) answer
  · have count := still.calmly m few answer
    have split : k = m + (k - m) := by omega
    rw [split, Main.calmly_add, count, Nat.add_sub_cancel_left]

end Main

namespace Engine

variable {ins : Nat → EngineIn} {t n : Nat}

/-- Nothing happens on the inputs. -/
structure Quiet (w : EngineIn) : Prop where
  rst : w.rst = false
  busRst : w.busRst = false
  mounted : w.mounted = true
  imgMounted : w.imgMounted = false
  cmdStb : w.cmdStb = false
  readStb : w.readStb = false
  ejectStb : w.ejectStb = false

/-- A refresh does not start in the first 65535 clocks. -/
theorem refCnt_le (ins : Nat → EngineIn) (t : Nat) : (after ins t).main.ref.refCnt ≤ t := by
  induction t with
  | zero => exact Nat.le_refl 0
  | succ t ih =>
    rw [after_main]
    cases rst : (wires ins t).rst with
    | true =>
      rw [Main.next, if_pos rst]
      exact Nat.zero_le _
    | false => exact (Main.next_refCnt rst).trans (Nat.succ_le_succ ih)

theorem Samples.late {u : Nat} (samples : Samples ins u) : 65535 ≤ u := by
  simp only [Samples, Main.samples, Bool.and_eq_true, decide_eq_true_eq] at samples
  have full := samples.1.1.2
  have few := refCnt_le ins u
  rw [full] at few
  exact few

/-- A refresh has sampled the playhead. -/
theorem refreshes_sampled (on : (after ins t).main.refreshes = true) :
    ∃ u < t, Samples ins u := by
  induction t with
  | zero => simp [after, Main.refreshes] at on
  | succ t ih =>
    by_cases go : Samples ins t
    · exact ⟨t, Nat.lt_succ_self t, go⟩
    · rw [after_main] at on
      cases rst : (wires ins t).rst with
      | true =>
        rw [Main.next, if_pos rst] at on
        simp [Main.refreshes, Main.reset] at on
      | false =>
        cases before : (after ins t).main.refreshes with
        | true =>
          obtain ⟨u, low, samples⟩ := ih before
          exact ⟨u, by omega, samples⟩
        | false =>
          have off := (Main.next_away rst before (by simpa [Samples] using go)).1
          rw [off] at on
          exact absurd on (by decide)

/-- A state that only a command or the HPS could disturb. -/
def Resting (m : Main) : Prop :=
  (m.mst = .idle ∨ m.refreshes = true) ∧ m.play.pstate ≠ .play ∧ m.blob.blobCap = false

instance (m : Main) : Decidable (Resting m) := inferInstanceAs (Decidable (_ ∧ _))

/-- Quiet clocks are calm ones for the main FSM. -/
theorem calmly_after (quiet : ∀ u ≥ t, Quiet (ins u)) (noFrame : (after ins t).smp.frameDone = false)
    (resting : ∀ k < n,
      Resting (Main.calmly (after ins t).blob (after ins t).main (after ins t).blobQ k).1) :
    ((after ins (t + n)).main, (after ins (t + n)).blobQ) =
        Main.calmly (after ins t).blob (after ins t).main (after ins t).blobQ n ∧
      (after ins (t + n)).blob = (after ins t).blob ∧
      (after ins (t + n)).smp.frameDone = false := by
  induction n with
  | zero => exact ⟨rfl, rfl, noFrame⟩
  | succ n ih =>
    obtain ⟨both, blob, noFrame'⟩ := ih fun k low => resting k (by omega)
    have here := resting n (Nat.lt_succ_self n)
    rw [← both] at here
    change Resting (after ins (t + n)).main at here
    obtain ⟨state, noPlay, cap⟩ := here
    have w := quiet (t + n) (by omega)
    have calm : Main.Calm (wires ins (t + n)) :=
      ⟨w.rst, w.busRst, w.mounted, w.imgMounted, w.cmdStb, w.readStb, w.ejectStb, noFrame'⟩
    have main : (after ins (t + (n + 1))).main =
        Main.next (Main.calm (after ins (t + n)).blobQ) (after ins (t + n)).main :=
      calm.next state
    have answer : (after ins (t + (n + 1))).blobQ =
        (after ins (t + n)).blob (after ins (t + n)).main.blob.blobRa := rfl
    refine ⟨?_, ?_, ?_⟩
    · rw [Main.calmly, ← both, main, answer, blob]
    · have kept : (after ins (t + (n + 1))).blob = (after ins (t + n)).blob := by
        rw [← Nat.add_assoc, after, step]
        simp [cap]
      rw [kept, blob]
    · rw [← Nat.add_assoc, after, step]
      simp only [Sampler.next, w.rst, Bool.false_eq_true, if_false]
      split
      · rfl
      · have off : ((after ins (t + n)).main.play.pstate == .play) = false := by
          simpa using noPlay
        rw [off, Bool.false_and]
        rfl

/-- The main FSM when `m` clocks have been counted. -/
def counted (e : Engine) (m : Nat) : Main :=
  { e.main with ref := { e.main.ref with refCnt := e.main.ref.refCnt + m } }

/-- The main FSM `j` clocks later. -/
def refreshed (e : Engine) (m j : Nat) : Main :=
  (Main.calmly e.blob (e.counted m) e.blobQ j).1

theorem disc_refreshed {e e' : Engine} {m : Nat} (main : e'.main = e.refreshed m 0)
    (blob : e'.blob = e.blob) : e'.disc = e.disc := by
  unfold disc
  rw [main, blob]
  rfl

/-- The main FSM while it counts, and when the refresh that follows only looks at the blob. -/
theorem after_still {e : Engine} {m : Nat} (start : after ins t = e)
    (quiet : ∀ u ≥ t, Quiet (ins u)) (still : e.main.Still)
    (few : e.main.ref.refCnt + m < 2 ^ 16) (noFrame : e.smp.frameDone = false)
    (answer : e.blobQ = e.blob e.main.blob.blobRa) (resting : ∀ j < n, Resting (e.refreshed m j))
    {k : Nat} (low : k ≤ m + n) :
    (k < m → (after ins (t + k)).main.ref.refCnt = e.main.ref.refCnt + k) ∧
      (m ≤ k → (after ins (t + k)).main = e.refreshed m (k - m)) ∧
      (after ins (t + k)).blob = e.blob := by
  subst start
  have fills := still.fills few answer
  have run := calmly_after (n := k) quiet noFrame fun j before => by
    rw [fills]
    split
    · exact ⟨.inl still.mst, still.noPlay, still.cap⟩
    · exact resting (j - m) (by omega)
  have main := congrArg Prod.fst (run.1.trans (fills k))
  refine ⟨?_, ?_, run.2.1⟩
  · intro early
    rw [if_pos early] at main
    exact congrArg (fun m : Main => m.ref.refCnt) main
  · intro late
    rw [if_neg (by omega)] at main
    exact main

end Engine

/-- Two tracks, at 0 and 50. -/
def twoTracks : Nat → BitVec 16
  | 0 => 0x434d
  | 1 => 0x4144
  | 3 => 2
  | 4 => 2000
  | 8 => 0x0010
  | 12 => 0x0010
  | 13 => 50
  | _ => 0

/-- The disc of this blob is mounted, and a SEARCH to `lba` waits for the TOC. -/
def pausedAt (lba : Nat) (t : Nat) : EngineIn :=
  { mounted := true, imgBlocks := 4096, grant := t % 64 < 32, ioAck := 32 ≤ t % 64
    sdBuffWr := 32 ≤ t % 64, sdBuffAddr := t % 64 - 32, sdBuffDout := twoTracks (t % 64 - 32)
    cmdStb := t == 900, cdb := fun | 0 => 0xc8 | 5 => BitVec.ofNat 8 lba | _ => 0 }

theorem pausedAt_quiet (lba : Nat) : ∀ u ≥ 1356, Engine.Quiet (pausedAt lba u) := by
  intro u late
  have noStb : (pausedAt lba u).cmdStb = false := by
    simp only [pausedAt, beq_eq_false_iff_ne]
    omega
  exact ⟨rfl, rfl, rfl, rfl, noStb, rfl, rfl⟩

/-- The engine once the pickup rests at `lba`. -/
def resting (lba : Nat) : Engine := .after (pausedAt lba) 1356

/-- The engine rests, and then goes through the refresh clock by clock. -/
def Engine.Rests (e : Engine) : Prop :=
  ((e.main.mst = .idle ∧ e.main.cmd.cmdPend = false ∧ e.main.tab.tocReady = true ∧
      e.main.play.flush = false ∧ e.main.play.pstate ≠ .play ∧ e.main.blob.blobCap = false ∧
      e.main.tab.resp.we = false ∧ e.main.tab.t43.we = false ∧ e.main.tab.t2.we = false) ∧
    e.main.ref.refCnt = 2 ∧ e.smp.frameDone = false ∧
      e.blobQ = e.blob e.main.blob.blobRa) ∧
  ∀ j < 14, Engine.Resting (e.refreshed 65533 j) ∧
    (j ≠ 0 → (e.refreshed 65533 j).ref.refCnt ≠ 65535)

instance : DecidablePred Engine.Rests := fun _ => inferInstanceAs (Decidable (_ ∧ _))

set_option maxRecDepth 4000 in
/-- The pickup rests at 85, and the refresh changes `abs_f` only. -/
theorem paused_mixes :
    (resting 85).Rests ∧
    ((resting 85).disc.valid = true ∧ (resting 85).disc.nTracks = 2 ∧
      (resting 85).disc.start 0 < (resting 85).disc.start 1) ∧
    ((resting 85).refreshed 65533 0).play.curLba = 85 ∧
      ((resting 85).refreshed 65533 13).pos.absS = 0 ∧
      ((resting 85).refreshed 65533 13).pos.absF = 10 := by
  decide +kernel

set_option maxRecDepth 4000 in
/-- The pickup rests at 75, and the refresh leaves the second track. -/
theorem paused_steady :
    (resting 75).Rests ∧
    (0 < (resting 75).disc.nTracks ∧ (resting 75).disc.start 0 ≤ 75 ∧
      ((resting 75).refreshed 65533 0).play.curLba = 75) ∧
    (∀ j < 14, ((resting 75).refreshed 65533 j).setsFrame = true →
      ((resting 75).refreshed 65533 j).ref.refAbs % 75 =
        ((resting 75).refreshed 65533 j).pos.absF) ∧
    ((resting 75).refreshed 65533 14).pos.curTrk = 2 := by
  decide +kernel

theorem resting_rests : ∀ lba ∈ [85, 75], (resting lba).Rests := by
  simpa using ⟨paused_mixes.1, paused_steady.1⟩

section

variable {lba : Nat}

theorem resting_still (known : lba ∈ [85, 75]) : (resting lba).main.Still := by
  obtain ⟨⟨⟨mst, noCmd, ready, flush, noPlay, cap, resp, t43, t2⟩, -⟩, -⟩ :=
    resting_rests lba known
  exact ⟨mst, noCmd, ready, flush, noPlay, cap, resp, t43, t2⟩

/-- The engine in the clocks of the refresh. -/
theorem after_paused (known : lba ∈ [85, 75]) {k : Nat} (low : k ≤ 65533 + 14) :
    (k < 65533 → (Engine.after (pausedAt lba) (1356 + k)).main.ref.refCnt = 2 + k) ∧
      (65533 ≤ k →
        (Engine.after (pausedAt lba) (1356 + k)).main = (resting lba).refreshed 65533 (k - 65533)) ∧
      (Engine.after (pausedAt lba) (1356 + k)).blob = (resting lba).blob := by
  obtain ⟨⟨-, two, noFrame, answer⟩, calm⟩ := resting_rests lba known
  have still := resting_still known
  have few : (resting lba).main.ref.refCnt + 65533 < 2 ^ 16 := by omega
  have rest := fun j below => (calm j below).1
  have start : Engine.after (pausedAt lba) 1356 = resting lba := rfl
  rw [← two]
  generalize resting lba = e at *
  exact Engine.after_still start (pausedAt_quiet lba) still few noFrame answer rest low

/-- The one clock that samples. -/
theorem samples_paused (known : lba ∈ [85, 75]) {u : Nat} (low : u < 1356 + 65533 + 14)
    (samples : Engine.Samples (pausedAt lba) u) : u = 1356 + 65533 := by
  have late := samples.late
  obtain ⟨k, rfl⟩ : ∃ k, u = 1356 + k := ⟨u - 1356, by omega⟩
  have full : (Engine.after (pausedAt lba) (1356 + k)).main.ref.refCnt = 65535 := by
    simp only [Engine.Samples, Main.samples, Bool.and_eq_true, decide_eq_true_eq] at samples
    exact samples.1.1.2
  obtain ⟨counts, refreshes, -⟩ := after_paused known (k := k) (by omega)
  by_cases early : k < 65533
  · rw [counts early] at full
    omega
  · rw [refreshes (by omega)] at full
    have here : k - 65533 = 0 := by
      by_contra other
      have below : k - 65533 < 14 := by omega
      exact ((resting_rests lba known).2 (k - 65533) below).2 other full
    omega

/-- The disc when the playhead is sampled. -/
theorem disc_paused (known : lba ∈ [85, 75]) :
    (Engine.after (pausedAt lba) (1356 + 65533)).disc = (resting lba).disc := by
  obtain ⟨-, main, blob⟩ := after_paused known (k := 65533) (by omega)
  have same := main (Nat.le_refl 65533)
  rw [Nat.sub_self] at same
  exact Engine.disc_refreshed same blob

end

/-- The first refresh of a disc paused at frame 85 passes a clock in which `abs_f` is
set, but not `abs_s`. -/
theorem refresh_mixes :
    ((resting 85).disc.valid = true ∧ (resting 85).disc.nTracks = 2 ∧
      (resting 85).disc.start 0 < (resting 85).disc.start 1) ∧
    ¬ Engine.Consistent (pausedAt 85) (1356 + (65533 + 13)) := by
  have known : 85 ∈ [85, 75] := by decide
  obtain ⟨-, tracks, cur, secs, frame⟩ := paused_mixes
  refine ⟨tracks, ?_⟩
  have here := (after_paused known (k := 65533 + 13) (by omega)).2.1 (by omega)
  rw [Nat.add_sub_cancel_left] at here
  have start := (after_paused known (k := 65533) (by omega)).2.1 (by omega)
  rw [Nat.sub_self] at start
  rintro (zero | ⟨u, low, samples, tells⟩)
  · rw [here] at zero
    rw [zero] at frame
    exact absurd frame (by decide)
  · obtain rfl := samples_paused known (by omega) samples
    have abs := tells.abs
    rw [here, start, cur, secs] at abs
    exact absurd (congrArg (fun p => p.2.1) abs) (by decide)

/-- The refresh of a disc paused at frame 75 is steady. -/
theorem steady_paused {u : Nat} (low : u < 1356 + 65533 + 14) : Engine.Steady (pausedAt 75) u := by
  have known : 75 ∈ [85, 75] := by decide
  obtain ⟨-, ⟨some_, first, cur⟩, steady, -⟩ := paused_steady
  have sampled (samples : Engine.Samples (pausedAt 75) u) :
      (Engine.after (pausedAt 75) u).main.play.curLba = 75 ∧
        (Engine.after (pausedAt 75) u).disc = (resting 75).disc := by
    obtain rfl := samples_paused known low samples
    have start := (after_paused known (k := 65533) (by omega)).2.1 (by omega)
    rw [Nat.sub_self] at start
    exact ⟨start ▸ cur, disc_paused known⟩
  refine ⟨fun samples => ⟨0, ?_⟩, fun samples => ?_, fun rst sets => ?_⟩
  · rw [(sampled samples).1, (sampled samples).2]
    exact ⟨some_, first⟩
  · rw [(sampled samples).1]
    decide
  · have on : (Engine.after (pausedAt 75) u).main.refreshes = true := by
      simp only [Main.setsFrame, Bool.and_eq_true, beq_iff_eq] at sets
      simp [Main.refreshes, sets.1.1]
    obtain ⟨v, before, samples⟩ := Engine.refreshes_sampled on
    have late := samples_paused known (by omega) samples
    obtain ⟨k, rfl⟩ : ∃ k, u = 1356 + k := ⟨u - 1356, by omega⟩
    rw [(after_paused known (by omega)).2.1 (by omega)] at sets ⊢
    exact steady (k - 65533) (by omega) sets

/-- The end of that refresh. -/
theorem refreshed_end : (Engine.after (pausedAt 75) (1356 + 65533 + 14)).main.pos.curTrk = 2 := by
  have known : 75 ∈ [85, 75] := by decide
  have here := (after_paused known (k := 65533 + 14) (by omega)).2.1 (by omega)
  rw [Nat.add_sub_cancel_left, ← Nat.add_assoc] at here
  rw [here]
  exact paused_steady.2.2.2

theorem refresh_consistent_paused :
    Engine.Consistent (pausedAt 75) (1356 + 65533 + 14) ∧
      (Engine.after (pausedAt 75) (1356 + 65533 + 14)).main.pos.curTrk = 2 := by
  have blocks : ∀ t, (pausedAt 75 t).imgBlocks < 2 ^ 32 := fun _ => (by decide : 4096 < 2 ^ 32)
  generalize hins : pausedAt 75 = ins at *
  refine ⟨(Engine.refresh_consistent blocks fun u low => ?_).1, ?_⟩
  · rw [← hins]
    exact steady_paused low
  · rw [← hins]
    exact refreshed_end

end CdAudio

end MacIIvi
