import MacIIvi.CdAudio.RoundTrip
import MacIIvi.Clocked.Run
import Mathlib.Tactic.SplitIfs

/-!
# The playhead and the stop position

What keeps the playhead below the stop position while the engine plays. A
consumed frame does, or it ends the play at the stop position. The commands that
can break it are named case by case, each with what it needs.
-/

namespace MacIIvi

namespace CdAudio

namespace Playback

variable {w : MainIn} {p : Playback}

/-- A plain play has something left to play. -/
def Ranged (p : Playback) : Prop := p.pstate = .play → p.scanX = false → p.curLba < p.stopLba

/-- A consumed frame moves the playhead up or ends the play. -/
theorem Ranged.preamble (here : Ranged p) : Ranged (p.preamble w) := by
  intro play plain
  simp only [Playback.preamble] at play plain ⊢
  by_cases ended : (w.frameDone && p.reachesStop) = true
  · simp [ended] at play
  · by_cases halt : p.stopped w = true
    · simp [ended, halt] at play
    · simp only [Bool.not_eq_true] at ended halt
      simp only [ended, halt, Bool.false_eq_true, if_false] at play
      have plain : p.scanX = false := by simpa [ended, halt] using plain
      have below := here play plain
      split
      · rename_i consumed
        have more : p.reachesStop = false := by simpa [consumed] using ended
        have forward : p.rewinding = false := by simp [rewinding, plain]
        have next : ¬ p.stopLba ≤ (p.curLba + p.stride) % 2 ^ 32 := by
          simpa [reachesStop, forward] using more
        simp only [advanced, forward, more, Bool.false_eq_true, if_false]
        omega
      · exact below

@[simp] theorem preamble_stopLba : (p.preamble w).stopLba = p.stopLba := rfl

theorem preamble_play (play : (p.preamble w).pstate = .play) : p.pstate = .play := by
  simp only [Playback.preamble] at play
  split at play
  · contradiction
  · split at play
    · contradiction
    · exact play

/-- The play goes on below the stop position and has ended at it. -/
structure Going (p : Playback) : Prop where
  plain : p.scanX = false
  pstate : p.pstate = if p.curLba < p.stopLba then .play else .ended

/-- A consumed frame moves a play that nothing stops by one. -/
theorem Going.preamble (going : p.Going) (noStop : p.stopped w = false)
    (wide : p.stopLba < 2 ^ 32) (few : p.curLba + w.frameDone.toNat ≤ p.stopLba) :
    (p.preamble w).Going ∧ (p.preamble w).curLba = p.curLba + w.frameDone.toNat := by
  obtain ⟨plain, pstate⟩ := going
  have forward : p.rewinding = false := by simp [rewinding, plain]
  cases frame : w.frameDone with
  | false =>
    refine ⟨⟨?_, ?_⟩, ?_⟩
    · simp [Playback.preamble, plain]
    · simpa [Playback.preamble, frame, noStop] using pstate
    · simp [Playback.preamble, frame]
  | true =>
    rw [frame, Bool.toNat_true] at few
    have next : (p.curLba + p.stride) % 2 ^ 32 = p.curLba + 1 := by
      simp only [stride, plain, Bool.false_eq_true, if_false]
      omega
    rw [if_pos (by omega)] at pstate
    by_cases last : p.curLba + 1 = p.stopLba
    · have reaches : p.reachesStop = true := by
        simp only [reachesStop, forward, next, Bool.not_false, Bool.true_and, decide_eq_true_eq]
        omega
      refine ⟨⟨?_, ?_⟩, ?_⟩
      · simp [Playback.preamble, plain]
      · simp [Playback.preamble, frame, reaches, advanced, forward]
      · simp [Playback.preamble, frame, reaches, advanced, forward, last]
    · have below : p.curLba + 1 < p.stopLba := by omega
      have more : p.reachesStop = false := by
        simp only [reachesStop, forward, next, Bool.not_false, Bool.true_and,
          decide_eq_false_iff_not]
        omega
      have cur : (p.preamble w).curLba = p.curLba + 1 := by
        simp only [Playback.preamble, frame, advanced, forward, more, next, if_true,
          Bool.false_eq_true, if_false]
      refine ⟨⟨?_, ?_⟩, cur⟩
      · simp [Playback.preamble, plain]
      · rw [cur]
        simp [Playback.preamble, more, noStop, pstate, below]

end Playback

namespace Main

variable {w : MainIn} {s : Main}

/-- With a TOC, a plain play has something left to play. -/
def Ranged (s : Main) : Prop := s.tab.tocReady = true → s.play.Ranged

/-! ### What the commands need -/

/-- The command takes a paused play up again. -/
def Resumes (s : Main) : Prop :=
  s.play.pstate = .pause ∧
    (s.cmd.op = 0xca ∧ s.cmd.c 1 ≠ 0x10 ∨ s.cmd.op = 0x4b ∧ (s.cmd.c 8).getLsbD 0 = true)

/-- The command pauses or stops a play in `M_CMD`. -/
def Halts (c : Command) : Prop :=
  c.op = 0xca ∧ c.c 1 = 0x10 ∨
    (c.op = 0xc8 ∨ c.op = 0xc9) ∧ c.form = 2 ∧ bcd2bin (c.c 5) = 0 ∨
    c.op = 0x48 ∧ c.c 4 = 0 ∨ c.op = 0x4b ∧ (c.c 8).getLsbD 0 = false ∨
    c.op = 0x4e ∨ c.op = 0x01 ∨ c.op = 0x0b ∨ c.op = 0x2b

/-- What `M_CMD` needs: a resumed play, and a play that was scanning until now,
are below the stop position. -/
def CmdKeeps (w : MainIn) (s : Main) : Prop :=
  let p := s.play.preamble w
  (s.Resumes → p.curLba < p.stopLba) ∧
    (p.pstate = .play → p.scanX = true → s.cmd.op ≠ 0xcd → ¬ Halts s.cmd → p.curLba < p.stopLba)

/-- What `M_APPLY` needs, command by command. -/
def ApplyKeeps (w : MainIn) (s : Main) : Prop :=
  let p := s.play.preamble w
  let backward := (s.cmd.c 1).getLsbD 4
  if s.cmd.op = 0xcb then
    -- a frame that ends in the same clock may move the playhead to the new stop
    let stop := if s.cmd.form = 2 then s.cmd.cNext else s.cmd.cAddr
    p.pstate = .play → s.play.curLba < stop → p.curLba < stop
  else if s.cmd.op = 0xc9 then
    if backward then
      -- the end given to a play that goes on is not looked at
      s.play.curLba < s.cmd.cAddr ∨ p.pstate = .play → p.curLba < s.cmd.cAddr
    else
      -- nothing is left from the lead-out on
      s.cmd.cAddr < s.tab.leadoutLba ∨ s.cmd.form ≠ 2 ∧ s.cmd.cAddr < s.play.stopLba
  else if s.cmd.op = 0x47 ∨ s.cmd.op = 0x48 ∨ s.cmd.op = 0x45 ∨ s.cmd.op = 0xa5 then
    -- a zero-length play moves the head of a play that goes on
    s.cmd.cAddr = s.cmd.cNext → p.pstate = .play → s.cmd.cAddr < s.play.stopLba
  else
    backward = true →
      if s.cmd.form = 2 then s.cmd.cAddr < s.cmd.cNext
      else s.cmd.cAddr < s.tab.leadoutLba ∨ s.cmd.cAddr < s.play.stopLba

/-- What a clock needs to leave a plain play with something left to play. -/
def Keeps (w : MainIn) (s : Main) : Prop :=
  w.rst = false →
    match s.mst with
    | .cmd => s.tab.tocReady = true → CmdKeeps w s
    | .apply => s.tab.tocReady = true → (s.play.preamble w).scanX = false → ApplyKeeps w s
    -- the TOC of a disc that is played already gets ready
    | .t2Sess => 11 ≤ s.bld.t2Ek → (s.play.preamble w).Ranged
    | _ => True

/-- The play state `M_CMD` leaves. -/
def left (s : Main) (keep : PState) : PState :=
  match cmdOutcome s keep with
  | .done pstate => pstate
  | _ => keep

theorem stepCmd_play :
    (stepCmd w s).play =
      { s.play.preamble w with
        pstate := left s (s.play.preamble w).pstate
        scanX := s.cmd.op == 0xcd && (s.play.preamble w).scanX } := by
  unfold stepCmd left
  simp only [preamble_play]
  cases cmdOutcome s (s.play.preamble w).pstate with
  | done pstate => rfl
  | apply cAddr cNext => rfl
  | scan cAddr => rfl
  | track trk trk2 => cases s.tab.tocValid <;> rfl

/-- Which commands leave the engine playing. -/
theorem left_play {keep : PState} (was : keep = .play → s.play.pstate = .play) :
    left s keep = .play ↔ s.Resumes ∨ keep = .play ∧ ¬ Halts s.cmd := by
  by_cases ca : s.cmd.op = 0xca
  · by_cases c1 : s.cmd.c 1 = 0x10 <;> cases pstate : s.play.pstate <;>
      simp_all [left, cmdOutcome, Resumes, Halts]
  by_cases cd : s.cmd.op = 0xcd
  · simp [left, cmdOutcome, Resumes, Halts, cd]
  by_cases vendor : s.cmd.op = 0xc8 ∨ s.cmd.op = 0xc9 ∨ s.cmd.op = 0xcb
  · by_cases msf : s.cmd.form = 1
    · rcases vendor with op | op | op <;> simp [left, cmdOutcome, Resumes, Halts, op, msf]
    · by_cases track : s.cmd.form = 2
      · by_cases zero : bcd2bin (s.cmd.c 5) = 0
        · rcases vendor with op | op | op <;>
            simp [left, cmdOutcome, Resumes, Halts, op, track, zero]
        · rcases vendor with op | op | op <;>
            simp [left, cmdOutcome, Resumes, Halts, op, track, zero]
      · rcases vendor with op | op | op <;>
          simp [left, cmdOutcome, Resumes, Halts, op, msf, track]
  by_cases range : s.cmd.op = 0x47 ∨ s.cmd.op = 0x45 ∨ s.cmd.op = 0xa5
  · rcases range with op | op | op <;> simp [left, cmdOutcome, Resumes, Halts, op]
  by_cases number : s.cmd.op = 0x48
  · by_cases zero : s.cmd.c 4 = 0 <;> simp_all [left, cmdOutcome, Resumes, Halts]
  by_cases pausing : s.cmd.op = 0x4b
  · cases bit : (s.cmd.c 8).getLsbD 0 <;> cases pstate : s.play.pstate <;>
      simp_all [left, cmdOutcome, Resumes, Halts]
  by_cases stop : s.cmd.op = 0x4e ∨ s.cmd.op = 0x01 ∨ s.cmd.op = 0x0b ∨ s.cmd.op = 0x2b
  · rcases stop with op | op | op | op <;> cases pstate : s.play.pstate <;>
      simp_all [left, cmdOutcome, Resumes, Halts]
  simp only [not_or] at vendor range stop
  simp only [left, cmdOutcome, Resumes, Halts, ca, cd, vendor, range, number, pausing, stop,
    or_self, if_false, false_and, and_false, false_or, not_false_eq_true, and_true]

theorem stepCmd_ranged (here : s.play.Ranged) : (stepCmd w s).play.Ranged ↔ CmdKeeps w s := by
  have going : (s.play.preamble w).Ranged := here.preamble
  have was : (s.play.preamble w).pstate = .play → s.play.pstate = .play :=
    Playback.preamble_play
  have left := left_play was
  rw [stepCmd_play]
  unfold CmdKeeps
  simp only [Playback.Ranged, left]
  constructor
  · intro all
    refine ⟨fun resumes => all (.inl resumes) ?_, fun play scan op halts => all (.inr ⟨play, halts⟩) ?_⟩
    · have op : s.cmd.op ≠ 0xcd := by
        rcases resumes.2 with ⟨op, -⟩ | ⟨op, -⟩ <;> simp [op]
      rw [beq_false_of_ne op, Bool.false_and]
    · rw [beq_false_of_ne op, Bool.false_and]
  · rintro ⟨resumed, ended⟩ (resumes | ⟨play, halts⟩) plain
    · exact resumed resumes
    · cases scan : (s.play.preamble w).scanX with
      | false => exact going play scan
      | true =>
        have op : s.cmd.op ≠ 0xcd := by simpa [scan] using plain
        exact ended play scan op halts

/-- The stop position that is kept or renewed is past the address exactly if one
of the two is. -/
theorem stopPast_iff : s.cmd.cAddr < stopPast s ↔
    s.cmd.cAddr < s.tab.leadoutLba ∨ s.cmd.cAddr < s.play.stopLba := by
  unfold stopPast
  split <;> omega

theorem applied_scanX : (applied w s).scanX = (s.play.preamble w).scanX := by
  unfold applied Playback.seek
  dsimp only
  repeat' split
  all_goals rfl

theorem stepApply_ranged (plain : (s.play.preamble w).scanX = false) :
    (stepApply w s).play.Ranged ↔ ApplyKeeps w s := by
  have scan := applied_scanX (w := w) (s := s)
  rw [plain] at scan
  have play : (stepApply w s).play = applied w s := rfl
  rw [play, Playback.Ranged, scan]
  simp only [true_implies]
  unfold applied ApplyKeeps Playback.seek
  dsimp only
  by_cases cb : s.cmd.op = 0xcb
  · rw [if_pos cb, if_pos cb]
    generalize (if s.cmd.form = 2 then s.cmd.cNext else s.cmd.cAddr) = stop
    split
    · rename_i done
      simp only [reduceCtorEq, false_implies, true_iff]
      intro _ below
      omega
    · rename_i going
      constructor
      · exact fun all play _ => all play
      · intro all play
        have was := Playback.preamble_play play
        refine all play ?_
        by_contra past
        exact going ⟨.inl was, Nat.le_of_not_lt past⟩
  rw [if_neg cb, if_neg cb]
  by_cases c9 : s.cmd.op = 0xc9
  · rw [if_pos c9, if_pos c9]
    split
    · split
      · rename_i below
        constructor
        · exact fun all _ => all rfl
        · exact fun all _ => all (.inl below)
      · rename_i past
        constructor
        · rintro all (below | play)
          · exact absurd below past
          · exact all play
        · exact fun all play => all (.inr play)
    · have past := stopPast_iff (s := s)
      simp only [true_implies]
      split
      · rename_i form
        simp [form]
      · rename_i form
        rw [past]
        simp [form]
  rw [if_neg c9, if_neg c9]
  by_cases std : s.cmd.op = 0x47 ∨ s.cmd.op = 0x48 ∨ s.cmd.op = 0x45 ∨ s.cmd.op = 0xa5
  · rw [if_pos std, if_pos std]
    split
    · rename_i same
      exact ⟨fun all _ => all, fun all => all same⟩
    · rename_i differ
      simp only [differ, false_implies, iff_true]
      split
      · rename_i below
        exact fun _ => below
      · simp
  · rw [if_neg std, if_neg std]
    cases backward : (s.cmd.c 1).getLsbD 4 with
    | false => simp
    | true =>
      simp only [if_true, true_implies]
      split
      · exact Iff.rfl
      · exact stopPast_iff

/-! ### One clock -/

/-- The states that carry out a command. -/
def transports (s : Main) : Bool := s.mst == .cmd || s.mst == .apply || s.mst == .scanGo

/-- No command is carried out, nothing stops the play and no disc is mounted. -/
structure Undisturbed (w : MainIn) (s : Main) : Prop where
  rst : w.rst = false
  state : s.transports = false
  mounted : w.mounted = true
  noMount : w.imgMounted = false
  noStop : w.readStb = false ∧ w.ejectStb = false ∧ w.busRst = false

/-- The other states leave the play to what every clock does. -/
theorem next_play (rst : w.rst = false) (state : s.transports = false)
    (noMount : s.mst = .idle → (w.imgMounted && w.mounted) = false) :
    (next w s).play = s.play.preamble w := by
  simp only [next, rst, Bool.false_eq_true, if_false]
  cases mst : s.mst
  case cmd | apply | scanGo => simp [transports, mst] at state
  case idle =>
    simp only [stepIdle, noMount mst, acquire, Bool.false_eq_true, if_false]
    repeat' split
    all_goals rfl
  all_goals
    simp only [stepAcqReq, stepAcqWait, stepHdrRd, stepEmitH, stepLoDiv, stepDiv, stepEmitLo,
      stepTrkRd, stepTrackRead, stepTrkDiv, stepEmitTrk, stepBuilt, stepT43Hdr, stepT43Rd,
      stepT43Div, stepT43Emit, stepT2Hdr, stepT2Rd, stepT2Div, stepT2Trk, stepT2A2, stepT2A01,
      stepT2Sess, stepCtrkRd, stepRefScan, stepRefDiva, stepRefDivr, putT2]
    repeat' split
    all_goals rfl

/-- The TOC gets ready with the last byte of the session page. -/
theorem next_ready (rst : w.rst = false) (sess : s.mst = .t2Sess → s.bld.t2Ek < 11)
    (ready : (next w s).tab.tocReady = true) : s.tab.tocReady = true := by
  revert ready
  simp only [next, rst, Bool.false_eq_true, if_false]
  cases mst : s.mst
  case t2Sess =>
    have early := sess mst
    simp only [stepT2Sess, putT2]
    split
    case h_12 => grind
    all_goals exact id
  all_goals
    simp only [stepIdle, acquire, stepAcqReq, stepAcqWait, stepHdrRd, stepEmitH, stepLoDiv,
      stepDiv, stepEmitLo, stepTrkRd, stepTrackRead, stepTrkDiv, stepEmitTrk, stepBuilt,
      stepT43Hdr, stepT43Rd, stepT43Div, stepT43Emit, stepT2Hdr, stepT2Rd, stepT2Div, stepT2Trk,
      stepT2A2, stepT2A01, stepCmd, stepCtrkRd, stepScanGo, stepApply, stepRefScan, stepRefDiva,
      stepRefDivr, putT2]
    repeat' split
    all_goals
      intro ready
      first | exact ready | simp at ready

theorem stepCmd_tocReady : (stepCmd w s).tab.tocReady = s.tab.tocReady := by
  unfold stepCmd
  dsimp only
  split
  · rfl
  · rfl
  · rfl
  · split <;> rfl

/-- One clock from a state in range stays in range exactly if it has what it needs. -/
theorem ranged_next (here : s.Ranged) : (next w s).Ranged ↔ Keeps w s := by
  cases rst : w.rst with
  | true =>
    simp [Keeps, rst, Ranged, Playback.Ranged, next, reset]
  | false =>
    by_cases cmd : s.mst = .cmd
    · have step : next w s = stepCmd w s := by simp [next, rst, cmd]
      have ready : (stepCmd w s).tab.tocReady = s.tab.tocReady := stepCmd_tocReady
      simp only [Keeps, rst, cmd, true_implies, step, Ranged, ready]
      exact imp_congr_right fun ready => stepCmd_ranged (here ready)
    by_cases apply_ : s.mst = .apply
    · have step : next w s = stepApply w s := by simp [next, rst, apply_]
      have ready : (stepApply w s).tab.tocReady = s.tab.tocReady := rfl
      simp only [Keeps, rst, apply_, true_implies, step, Ranged, ready]
      refine imp_congr_right fun _ => ?_
      cases scan : (s.play.preamble w).scanX with
      | false => simpa using stepApply_ranged scan
      | true =>
        have scan' : (stepApply w s).play.scanX = true := applied_scanX.trans scan
        simp [Playback.Ranged, scan']
    by_cases scanGo : s.mst = .scanGo
    · have step : next w s = stepScanGo w s := by simp [next, rst, scanGo]
      have scan : (stepScanGo w s).play.scanX = true := rfl
      simp [Keeps, scanGo, step, Ranged, Playback.Ranged, scan]
    have other : s.transports = false := by simp [transports, cmd, apply_, scanGo]
    by_cases mount : s.mst = .idle ∧ (w.imgMounted && w.mounted) = true
    · obtain ⟨idle, mount⟩ := mount
      have step : (next w s).tab.tocReady = false := by
        simp [next, rst, idle, stepIdle, mount, acquire]
      simp [Keeps, idle, Ranged, step]
    · have play := next_play rst other (by simpa using mount)
      by_cases last : s.mst = .t2Sess ∧ 11 ≤ s.bld.t2Ek
      · obtain ⟨sess, last⟩ := last
        have ready : (next w s).tab.tocReady = true := by
          simp only [next, rst, sess, Bool.false_eq_true, if_false, stepT2Sess]
          split
          case h_12 => rfl
          all_goals omega
        simp only [Keeps, rst, sess, true_implies, last, Ranged, ready, play]
      · have kept : (next w s).Ranged := by
          intro ready
          rw [play]
          refine (here (next_ready rst ?_ ready)).preamble
          intro sess
          by_contra late
          exact last ⟨sess, by omega⟩
        have keeps : Keeps w s := by
          intro _
          cases mst : s.mst
          case cmd | apply => contradiction
          case t2Sess => exact fun late => absurd ⟨mst, late⟩ last
          all_goals trivial
        exact ⟨fun _ => keeps, fun _ => kept⟩

/-- What a command finds that is executed with nothing played. -/
theorem keeps_stopped (stopped : s.play.pstate = .idle) (apply_ : s.mst ≠ .apply) : Keeps w s := by
  have quiet : (s.play.preamble w).pstate ≠ .play := by
    intro play
    have was := Playback.preamble_play play
    rw [stopped] at was
    contradiction
  intro _
  split
  · refine fun _ => ⟨fun resumes => ?_, fun play => absurd play quiet⟩
    have paused := resumes.1
    rw [stopped] at paused
    contradiction
  · contradiction
  · exact fun _ play => absurd play quiet
  · trivial

/-- A forward PLAY from below the lead-out. -/
theorem keeps_forward (apply_ : s.mst = .apply) (op : s.cmd.op = 0xc9)
    (forward : (s.cmd.c 1).getLsbD 4 = false) (below : s.cmd.cAddr < s.tab.leadoutLba) :
    Keeps w s := by
  intro _
  rw [apply_]
  intro _ _
  unfold ApplyKeeps
  rw [op, forward, if_neg (by decide), if_pos rfl]
  exact .inl below

/-- The TOC is ready, and no command waits or is carried out. -/
structure AtRest (s : Main) : Prop where
  ready : s.tab.tocReady = true
  noCmd : s.cmd.cmdPend = false
  state : s.mst = .idle ∨ s.mst = .refScan ∨ s.mst = .refDiva ∨ s.mst = .refDivr

/-- Such a state needs nothing. -/
theorem AtRest.keeps (rest : AtRest s) : Keeps w s := by
  intro _
  rcases rest.state with mst | mst | mst | mst <;> rw [mst] <;> trivial

/-- Without a mount or a command, the refresh of the status is all that goes on. -/
theorem AtRest.next (rest : AtRest s) (rst : w.rst = false) (mounted : w.mounted = true)
    (noMount : w.imgMounted = false) (noStb : w.cmdStb = false) : AtRest (next w s) := by
  obtain ⟨ready, noCmd, state⟩ := rest
  simp only [Main.next, rst, Bool.false_eq_true, if_false]
  rcases state with mst | mst | mst | mst
  · simp only [mst, stepIdle, noMount, mounted, ready, noCmd, Bool.false_and, Bool.not_true,
      Bool.and_false, Bool.false_eq_true, if_false]
    split
    · refine ⟨ready, by simp [noStb, noCmd], ?_⟩
      dsimp only
      split
      · exact .inr (.inl rfl)
      · exact .inr (.inr (.inl rfl))
    · exact ⟨ready, by simp [noStb, noCmd], .inl mst⟩
  all_goals
    simp only [mst, stepRefScan, stepRefDiva, stepRefDivr]
    repeat' split
    all_goals exact ⟨ready, by simp [noStb, noCmd], by simp [mst]⟩

/-! ### Widths -/

/-- The addresses fit their registers. -/
structure Wide (s : Main) : Prop where
  cur : s.play.curLba < 2 ^ 32
  stop : s.play.stopLba < 2 ^ 32
  leadout : s.tab.leadoutLba < 2 ^ 32
  addr : s.cmd.cAddr < 2 ^ 32
  next : s.cmd.cNext < 2 ^ 32

theorem be32_lt (a b c d : Byte) : be32 a b c d < 2 ^ 32 := by
  have := a.isLt
  have := b.isLt
  have := c.isLt
  have := d.isLt
  unfold be32
  omega

theorem msf2lba_lt (m s f : Byte) : msf2lba m s f < 2 ^ 32 := by
  have := m.isLt
  have := s.isLt
  have := f.isLt
  unfold msf2lba bcd2bin
  omega

theorem msf2lbaStd_lt (m s f : Byte) : msf2lbaStd m s f < 2 ^ 32 := by
  have := m.isLt
  have := s.isLt
  have := f.isLt
  unfold msf2lbaStd
  dsimp only
  split <;> omega

/-- The addresses a command resolves to. -/
def CmdOutcome.Fits : CmdOutcome → Prop
  | .apply cAddr cNext => cAddr < 2 ^ 32 ∧ cNext < 2 ^ 32
  | .scan cAddr => cAddr < 2 ^ 32
  | _ => True

theorem fits_ite {c : Prop} [Decidable c] {x y : CmdOutcome} (yes : x.Fits) (no : y.Fits) :
    (if c then x else y).Fits := by
  split <;> assumption

theorem cmdOutcome_fits (wide : Wide s) (keep : PState) : (cmdOutcome s keep).Fits := by
  have cur := wide.cur
  have next := wide.next
  have addr (c : Prop) [Decidable c] {a b : Nat} (yes : a < 2 ^ 32) (no : b < 2 ^ 32) :
      (if c then a else b) < 2 ^ 32 := by
    split <;> assumption
  have form (a b c d e f g : Byte) : (if s.cmd.form = 0 then be32 a b c d
      else if s.cmd.form = 1 then msf2lbaStd e f g else s.play.curLba) < 2 ^ 32 :=
    addr _ (be32_lt _ _ _ _) (addr _ (msf2lbaStd_lt _ _ _) cur)
  unfold cmdOutcome
  dsimp only
  repeat' apply fits_ite
  all_goals first | exact True.intro | skip
  · exact form _ _ _ _ _ _ _
  · exact ⟨addr _ (msf2lba_lt _ _ _) (msf2lba_lt _ _ _), next⟩
  · exact ⟨be32_lt _ _ _ _, next⟩
  · exact ⟨addr _ cur (msf2lbaStd_lt _ _ _), msf2lbaStd_lt _ _ _⟩
  · exact ⟨addr _ cur (be32_lt _ _ _ _), Nat.mod_lt _ (by decide)⟩

theorem preamble_fits (cur : s.play.curLba < 2 ^ 32) (stop : s.play.stopLba < 2 ^ 32) :
    (s.play.preamble w).curLba < 2 ^ 32 := by
  simp only [Playback.preamble, Playback.advanced]
  split
  · split
    · split <;> omega
    · split
      · exact stop
      · exact Nat.mod_lt _ (by decide)
  · exact cur

/-- The command registers change in the states that resolve a command. -/
theorem next_addr (rst : w.rst = false) (cmd : s.mst ≠ .cmd) (read : s.mst ≠ .ctrkRd) :
    (next w s).cmd.cAddr = s.cmd.cAddr ∧ (next w s).cmd.cNext = s.cmd.cNext := by
  simp only [next, rst, Bool.false_eq_true, if_false]
  cases mst : s.mst
  case cmd => exact absurd mst cmd
  case ctrkRd => exact absurd mst read
  all_goals
    simp only [stepIdle, acquire, stepAcqReq, stepAcqWait, stepHdrRd, stepEmitH, stepLoDiv,
      stepDiv, stepEmitLo, stepTrkRd, stepTrackRead, stepTrkDiv, stepEmitTrk, stepBuilt,
      stepT43Hdr, stepT43Rd, stepT43Div, stepT43Emit, stepT2Hdr, stepT2Rd, stepT2Div, stepT2Trk,
      stepT2A2, stepT2A01, stepT2Sess, stepScanGo, stepApply, stepRefScan, stepRefDiva,
      stepRefDivr, putT2]
    repeat' split
    all_goals exact ⟨rfl, rfl⟩

theorem Wide.addrs (wide : Wide s) (w : MainIn) :
    (Main.next w s).cmd.cAddr < 2 ^ 32 ∧ (Main.next w s).cmd.cNext < 2 ^ 32 := by
  have addr := wide.addr
  have nxt := wide.next
  have leadout := wide.leadout
  have word := w.blobQ.isLt
  cases rst : w.rst with
  | true => simpa [Main.next, rst, reset] using ⟨addr, nxt⟩
  | false =>
    by_cases cmd : s.mst = .cmd
    · have fits := cmdOutcome_fits wide (s.play.preamble w).pstate
      simp only [Main.next, rst, cmd, Bool.false_eq_true, if_false, stepCmd, preamble_play]
      cases out : cmdOutcome s (s.play.preamble w).pstate with
      | done pstate => exact ⟨addr, nxt⟩
      | apply cAddr cNext =>
        rw [out] at fits
        exact fits
      | scan cAddr =>
        rw [out] at fits
        exact ⟨fits, nxt⟩
      | track trk trk2 =>
        dsimp only
        split
        · exact ⟨addr, nxt⟩
        · exact ⟨Nat.two_pow_pos 32, leadout⟩
    · by_cases read : s.mst = .ctrkRd
      · simp only [Main.next, rst, read, Bool.false_eq_true, if_false, stepCtrkRd]
        split
        · exact ⟨addr, nxt⟩
        · exact ⟨addr, nxt⟩
        · exact ⟨by dsimp only; omega, nxt⟩
        · exact ⟨by dsimp only; omega, nxt⟩
        · exact ⟨addr, by dsimp only; omega⟩
        · refine ⟨addr, ?_⟩
          dsimp only
          split <;> omega
      · obtain ⟨a, b⟩ := next_addr (w := w) rst cmd read
        rw [a, b]
        exact ⟨addr, nxt⟩

theorem Wide.plays (wide : Wide s) (w : MainIn) :
    (Main.next w s).play.curLba < 2 ^ 32 ∧ (Main.next w s).play.stopLba < 2 ^ 32 := by
  have pre := preamble_fits (w := w) wide.cur wide.stop
  have addr := wide.addr
  have nxt := wide.next
  have leadout := wide.leadout
  have stop := wide.stop
  have past : stopPast s < 2 ^ 32 := by
    unfold stopPast
    split <;> assumption
  cases rst : w.rst with
  | true => simp [Main.next, rst, reset]
  | false =>
    cases other : s.transports with
    | false =>
      by_cases mount : s.mst = .idle ∧ (w.imgMounted && w.mounted) = true
      · simp only [Main.next, rst, mount.1, Bool.false_eq_true, if_false, stepIdle, mount.2, if_true]
        exact ⟨pre, stop⟩
      · rw [next_play rst other (by simpa using mount)]
        exact ⟨pre, stop⟩
    | true =>
      by_cases cmd : s.mst = .cmd
      · have step : Main.next w s = stepCmd w s := by simp [Main.next, rst, cmd]
        rw [step, stepCmd_play]
        exact ⟨pre, stop⟩
      · by_cases apply_ : s.mst = .apply
        · have play : (Main.next w s).play = applied w s := by simp [Main.next, rst, apply_, stepApply]
          rw [play]
          unfold applied Playback.seek
          dsimp only
          repeat' split
          all_goals exact ⟨by assumption, by assumption⟩
        · have scanGo : s.mst = .scanGo := by simpa [transports, cmd, apply_] using other
          have play : (Main.next w s).play = (stepScanGo w s).play := by
            simp [Main.next, rst, scanGo]
          rw [play]
          simp only [stepScanGo, Playback.seek]
          refine ⟨addr, ?_⟩
          split <;> assumption

theorem Wide.step (wide : Wide s) (small : w.imgBlocks < 2 ^ 32) : Wide (Main.next w s) := by
  obtain ⟨cur, stop⟩ := wide.plays w
  obtain ⟨addr, nxt⟩ := wide.addrs w
  refine ⟨cur, stop, ?_, addr, nxt⟩
  have leadout := wide.leadout
  have word := w.blobQ.isLt
  cases rst : w.rst with
  | true => simp [Main.next, rst, reset]
  | false =>
    by_cases hdr : s.mst = .hdrRd
    · simp only [Main.next, rst, hdr, Bool.false_eq_true, if_false, stepHdrRd]
      split
      all_goals
        repeat' split
        all_goals first | exact leadout | (dsimp only; omega)
    · rw [(next_header rst hdr).2]
      exact leadout

end Main

namespace Engine

variable {ins : Nat → EngineIn} {t n : Nat}

/-- The wires of the main FSM in clock `t`. -/
def wires (ins : Nat → EngineIn) (t : Nat) : MainIn := mainIn (ins t) (after ins t)

/-- The frames consumed in the `n` clocks from `t` on. -/
def consumed (ins : Nat → EngineIn) (t : Nat) : Nat → Nat
  | 0 => 0
  | n + 1 => consumed ins t n + (wires ins (t + n)).frameDone.toNat

theorem after_main (t : Nat) :
    (after ins (t + 1)).main = (after ins t).main.next (wires ins t) := rfl

theorem wide_after (small : ∀ t, (ins t).imgBlocks < 2 ^ 32) (t : Nat) :
    (after ins t).main.Wide := by
  induction t with
  | zero =>
    have zero : 0 < 2 ^ 32 := Nat.two_pow_pos 32
    exact ⟨zero, zero, zero, zero, zero⟩
  | succ t ih => exact ih.step (small t)

/-- In every run, each state is in range exactly if each clock has what it needs. -/
theorem ranged_after :
    (∀ t, (after ins t).main.Ranged) ↔ ∀ t, Main.Keeps (wires ins t) (after ins t).main := by
  constructor
  · intro ranged t
    exact (Main.ranged_next (ranged t)).mp (ranged (t + 1))
  · intro keeps t
    induction t with
    | zero => simp [Main.Ranged, after]
    | succ t ih => exact (Main.ranged_next ih).mpr (keeps t)

/-- A play that goes on undisturbed: the playhead counts the consumed frames, and
the play ends at the stop position. -/
theorem going_after (small : ∀ t, (ins t).imgBlocks < 2 ^ 32)
    (going : (after ins t).main.play.Going)
    (calm : ∀ u < n, Main.Undisturbed (wires ins (t + u)) (after ins (t + u)).main)
    (few : (after ins t).main.play.curLba + consumed ins t n ≤ (after ins t).main.play.stopLba) :
    (after ins (t + n)).main.play.Going ∧
      (after ins (t + n)).main.play.stopLba = (after ins t).main.play.stopLba ∧
      (after ins (t + n)).main.play.curLba =
        (after ins t).main.play.curLba + consumed ins t n := by
  induction n with
  | zero => exact ⟨going, rfl, rfl⟩
  | succ n ih =>
    have calm' := calm n (by omega)
    simp only [consumed] at few ⊢
    obtain ⟨going, stop, cur⟩ := ih (fun u low => calm u (by omega)) (by omega)
    have next : (after ins (t + (n + 1))).main.play =
        (after ins (t + n)).main.play.preamble (wires ins (t + n)) :=
      Main.next_play (w := wires ins (t + n)) calm'.rst calm'.state
        fun _ => by rw [calm'.noMount, Bool.false_and]
    obtain ⟨read, eject, bus⟩ := calm'.noStop
    have noStop : (after ins (t + n)).main.play.stopped (wires ins (t + n)) = false := by
      simp [Playback.stopped, read, eject, bus, calm'.mounted]
    obtain ⟨going', moved⟩ :=
      going.preamble noStop (wide_after small (t + n)).stop (by rw [stop, cur]; omega)
    rw [next]
    refine ⟨going', stop, ?_⟩
    rw [moved, cur, Nat.add_assoc]

/-- A plain play at clock `t` has something left to play and, left alone, ends at
the stop position with the last frame before it. -/
def PlaysOut (ins : Nat → EngineIn) (t : Nat) : Prop :=
  let p := (after ins t).main.play
  (after ins t).main.tab.tocReady = true → p.pstate = .play → p.scanX = false →
    p.curLba < p.stopLba ∧
      ∀ n, (∀ u < n, Main.Undisturbed (wires ins (t + u)) (after ins (t + u)).main) →
        (p.curLba + consumed ins t n < p.stopLba →
          (after ins (t + n)).main.play.pstate = .play ∧
            (after ins (t + n)).main.play.curLba = p.curLba + consumed ins t n) ∧
        (p.curLba + consumed ins t n = p.stopLba →
          (after ins (t + n)).main.play.pstate = .ended ∧
            (after ins (t + n)).main.play.curLba = p.stopLba)

/-- In every run, every plain play has something left to play and plays out
exactly if each clock has what it needs. -/
theorem playsOut_iff (small : ∀ t, (ins t).imgBlocks < 2 ^ 32) :
    (∀ t, PlaysOut ins t) ↔ ∀ t, Main.Keeps (wires ins t) (after ins t).main := by
  rw [← ranged_after]
  constructor
  · intro all t ready play plain
    exact (all t ready play plain).1
  · intro ranged t ready play plain
    have left := ranged t ready play plain
    have going : (after ins t).main.play.Going := ⟨plain, by rw [play, if_pos left]⟩
    refine ⟨left, fun n calm => ⟨fun more => ?_, fun last => ?_⟩⟩
    · obtain ⟨going', stop, cur⟩ := going_after small going calm (Nat.le_of_lt more)
      refine ⟨?_, cur⟩
      rw [going'.pstate, stop, cur, if_pos more]
    · obtain ⟨going', stop, cur⟩ := going_after small going calm (Nat.le_of_eq last)
      refine ⟨?_, cur.trans last⟩
      rw [going'.pstate, stop, cur, if_neg (Nat.not_lt.mpr (Nat.le_of_eq last.symm))]

/-- The engine stays at rest until a mount or a command. -/
theorem atRest_after {u : Nat} (rest : (after ins t).main.AtRest)
    (quiet : ∀ u ≥ t, (ins u).rst = false ∧ (ins u).mounted = true ∧
      (ins u).imgMounted = false ∧ (ins u).cmdStb = false) (later : t ≤ u) :
    (after ins u).main.AtRest := by
  induction u, later using Nat.le_induction with
  | base => exact rest
  | succ u later ih =>
    obtain ⟨rst, mounted, noMount, noStb⟩ := quiet u later
    exact ih.next rst mounted noMount noStb

/-- A command but a scan ends a scan before it is applied. -/
theorem plain_applied {u v : Nat} (rst : ∀ t, (ins t).rst = false) (next : u = t + 1)
    (last : v = u + 1) (cmd : (after ins t).main.mst = .cmd)
    (op : (after ins t).main.cmd.op ≠ 0xcd) (apply_ : (after ins u).main.mst = .apply) :
    (after ins v).main.play.scanX = false := by
  subst next last
  have rst (u : Nat) : (wires ins u).rst = false := rst u
  have ended : (after ins (t + 1)).main.play.scanX = false := by
    rw [after_main]
    simp only [Main.next, rst, cmd, Bool.false_eq_true, if_false]
    rw [Main.stepCmd_play, beq_false_of_ne op, Bool.false_and]
  rw [after_main]
  simp only [Main.next, rst, apply_, Bool.false_eq_true, if_false]
  exact Main.applied_scanX.trans (by simp [Playback.preamble, ended])

end Engine

/-! ### PLAY from the lead-out on, and before it -/

/-- The disc of `plainDisc` with a vendor PLAY from LBA `256 * high` on, which waits
for the TOC. -/
def playFrom (high : Byte) (t : Nat) : EngineIn :=
  { plainDisc t with cmdStb := t == 700, cdb := fun | 0 => 0xc9 | 4 => high | _ => 0x00 }

theorem playFrom_small (high : Byte) (t : Nat) : (playFrom high t).imgBlocks < 2 ^ 32 := by
  have size : (playFrom high t).imgBlocks = 4096 := rfl
  omega

theorem playFrom_rst (high : Byte) (t : Nat) : (playFrom high t).rst = false := rfl

/-- Nothing plays until the command is executed. -/
theorem halfway_waits : ∀ t < 751,
    (Engine.after (playFrom 0x02) t).main.play.pstate = .idle ∧
      (Engine.after (playFrom 0x02) t).main.mst ≠ .apply := by
  have pass : Clocked.passes (fun t (e : Engine) => e.step (playFrom 0x02 t))
      (fun _ e => decide (e.main.play.pstate = .idle ∧ e.main.mst ≠ .apply)) 751 0 {} = true := by
    decide +kernel
  intro t early
  have here := Clocked.of_passes (Engine.after (playFrom 0x02)) (fun _ => rfl) pass t early
  rw [Nat.zero_add] at here
  exact of_decide_eq_true here

set_option maxRecDepth 4000 in
theorem halfway_plays :
    ((Engine.after (playFrom 0x02) 751).main.mst = .apply ∧
      (Engine.after (playFrom 0x02) 751).main.cmd.op = 0xc9 ∧
      ((Engine.after (playFrom 0x02) 751).main.cmd.c 1).getLsbD 4 = false ∧
      (Engine.after (playFrom 0x02) 751).main.cmd.cAddr <
        (Engine.after (playFrom 0x02) 751).main.tab.leadoutLba) ∧
    ((Engine.after (playFrom 0x02) 752).main.tab.tocReady = true ∧
      (Engine.after (playFrom 0x02) 752).main.cmd.cmdPend = false ∧
      (Engine.after (playFrom 0x02) 752).main.mst = .idle) ∧
    (Engine.after (playFrom 0x02) 752).main.play.pstate = .play ∧
      (Engine.after (playFrom 0x02) 752).main.play.curLba = 512 ∧
      (Engine.after (playFrom 0x02) 752).main.play.stopLba = 1024 := by
  decide +kernel

/-- Each clock of the play from the middle on has what it needs. -/
theorem halfway_keeps (t : Nat) :
    Main.Keeps (Engine.wires (playFrom 0x02) t) (Engine.after (playFrom 0x02) t).main := by
  obtain ⟨⟨apply_, op, forward, below⟩, ⟨ready, noCmd, mst⟩, -⟩ := halfway_plays
  rcases Nat.lt_trichotomy t 751 with early | rfl | late
  · exact Main.keeps_stopped (halfway_waits t early).1 (halfway_waits t early).2
  · generalize (Engine.after (playFrom 0x02) 751).main = s at *
    exact Main.keeps_forward apply_ op forward below
  · have quiet (u : Nat) (after : u ≥ 752) : (playFrom 0x02 u).rst = false ∧
        (playFrom 0x02 u).mounted = true ∧ (playFrom 0x02 u).imgMounted = false ∧
        (playFrom 0x02 u).cmdStb = false :=
      ⟨rfl, rfl, rfl, beq_false_of_ne (by omega)⟩
    have rest : (Engine.after (playFrom 0x02) 752).main.AtRest := ⟨ready, noCmd, .inl mst⟩
    generalize playFrom 0x02 = ins at *
    have still := Engine.atRest_after rest quiet late
    exact still.keeps

/-- Half of the disc plays out. -/
theorem playsOut_halfway :
    (∀ t, Engine.PlaysOut (playFrom 0x02) t) ∧
      (Engine.after (playFrom 0x02) 752).main.play.pstate = .play ∧
      (Engine.after (playFrom 0x02) 752).main.play.curLba = 512 ∧
      (Engine.after (playFrom 0x02) 752).main.play.stopLba = 1024 :=
  ⟨(Engine.playsOut_iff (playFrom_small 0x02)).mpr halfway_keeps, halfway_plays.2.2⟩

/-- The engine plays with the playhead at the stop position. -/
theorem plays_nothing :
    (Engine.after (playFrom 0x04) 752).main.tab.tocReady = true ∧
      (Engine.after (playFrom 0x04) 752).main.play.pstate = .play ∧
      (Engine.after (playFrom 0x04) 752).main.play.curLba = 1024 ∧
      (Engine.after (playFrom 0x04) 752).main.play.stopLba = 1024 ∧
      ¬ Engine.PlaysOut (playFrom 0x04) 752 := by
  have states : (Engine.after (playFrom 0x04) 750).main.mst = .cmd ∧
      (Engine.after (playFrom 0x04) 750).main.cmd.op ≠ 0xcd ∧
      (Engine.after (playFrom 0x04) 751).main.mst = .apply := by
    decide +kernel
  obtain ⟨cmd, op, apply_⟩ := states
  have plain : (Engine.after (playFrom 0x04) 752).main.play.scanX = false :=
    Engine.plain_applied (playFrom_rst 0x04) rfl rfl cmd op apply_
  have reached : (Engine.after (playFrom 0x04) 752).main.tab.tocReady = true ∧
      (Engine.after (playFrom 0x04) 752).main.play.pstate = .play ∧
      (Engine.after (playFrom 0x04) 752).main.play.curLba = 1024 ∧
      (Engine.after (playFrom 0x04) 752).main.play.stopLba = 1024 := by
    decide +kernel
  obtain ⟨ready, play, cur, stop⟩ := reached
  refine ⟨ready, play, cur, stop, fun out => ?_⟩
  have left := (out ready play plain).1
  rw [cur, stop] at left
  exact absurd left (by decide)

end CdAudio

end MacIIvi
