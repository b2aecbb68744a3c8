import MacIIvi.CdAudio.PlayRange
import MacIIvi.Scsi.BeatRoles

/-!
# The order of the audio commands

Source: `rtl/cd_audio.sv`, "command capture: never lost, executed from M_IDLE".
A strobe overwrites the one captured command, also the one being carried out:
`M_CTRK_RD`, `M_SCAN_GO` and `M_APPLY` read `c_op`, `c_1` and `c_9` again.
-/

namespace MacIIvi

open Clocked

namespace CdAudio

namespace Main

variable {w : MainIn} {s : Main}

/-- The command leaves nothing to another state. -/
def CmdOutcome.isDone : CmdOutcome → Bool
  | .done _ => true
  | _ => false

/-- From the dispatch on. -/
def executing (s : Main) : Bool :=
  match s.mst with
  | .cmd | .ctrkRd | .scanGo | .apply => true
  | _ => false

/-- The command ends with this clock. -/
def ends (s : Main) : Bool :=
  match s.mst with
  | .cmd => (cmdOutcome s s.play.pstate).isDone
  | .scanGo | .apply => true
  | _ => false

/-- The captured command is taken up in this clock. -/
def dispatches (w : MainIn) (s : Main) : Bool :=
  match s.mst with
  | .idle => !(w.imgMounted && w.mounted) && !(w.mounted && !s.tab.tocReady) && s.cmd.cmdPend
  | _ => false

/-- The commands being carried out or waiting, as the registers have them. -/
def outstanding (s : Main) : List Cdb :=
  (if s.executing then [s.cmd.c] else []) ++ if s.cmd.cmdPend then [s.cmd.c] else []

/-- The play state a command keeps does not decide what it does. -/
theorem isDone_cmdOutcome (k k' : PState) :
    (cmdOutcome s k).isDone = (cmdOutcome s k').isDone := by
  simp only [cmdOutcome, apply_ite CmdOutcome.isDone]
  rfl

theorem next_c (rst : w.rst = false) :
    (next w s).cmd.c = (preamble w s).cmd.c := by
  simp only [next, rst, Bool.false_eq_true, if_false]
  cases mst : s.mst
  all_goals
    simp only [stepIdle, acquire, stepAcqReq, stepAcqWait, stepHdrRd, stepEmitH, stepLoDiv,
      stepDiv, stepEmitLo, stepTrkRd, stepTrackRead, stepTrkDiv, stepEmitTrk, stepBuilt,
      stepT43Hdr, stepT43Rd, stepT43Div, stepT43Emit, stepT2Hdr, stepT2Rd, stepT2Div, stepT2Trk,
      stepT2A2, stepT2A01, stepT2Sess, stepCmd, stepCtrkRd, stepScanGo, stepApply, stepRefScan,
      stepRefDiva, stepRefDivr, putT2]
    repeat' split
    all_goals rfl

theorem next_cmdPend (rst : w.rst = false) :
    (next w s).cmd.cmdPend = (!dispatches w s && (w.cmdStb || s.cmd.cmdPend)) := by
  simp only [next, rst, Bool.false_eq_true, if_false, dispatches]
  cases mst : s.mst
  case idle =>
    simp only [stepIdle, acquire]
    cases w.imgMounted && w.mounted
    · cases w.mounted && !s.tab.tocReady
      · cases pend : s.cmd.cmdPend
        · simp only [Bool.false_eq_true, if_false]
          split <;> simp [pend]
        · rfl
      · rfl
    · rfl
  all_goals
    simp only [stepAcqReq, stepAcqWait, stepHdrRd, stepEmitH, stepLoDiv, stepDiv, stepEmitLo,
      stepTrkRd, stepTrackRead, stepTrkDiv, stepEmitTrk, stepBuilt, stepT43Hdr, stepT43Rd,
      stepT43Div, stepT43Emit, stepT2Hdr, stepT2Rd, stepT2Div, stepT2Trk, stepT2A2, stepT2A01,
      stepT2Sess, stepCmd, stepCtrkRd, stepScanGo, stepApply, stepRefScan, stepRefDiva,
      stepRefDivr, putT2]
    repeat' split
    all_goals rfl

theorem next_executing (rst : w.rst = false) :
    (next w s).executing = (dispatches w s || s.executing && !s.ends) := by
  simp only [next, rst, Bool.false_eq_true, if_false, dispatches, ends]
  cases mst : s.mst
  case idle =>
    have out : s.executing = false := by simp [executing, mst]
    simp only [stepIdle, acquire, out]
    cases w.imgMounted && w.mounted
    · cases w.mounted && !s.tab.tocReady
      · cases s.cmd.cmdPend
        · simp only [Bool.false_eq_true, if_false]
          split
          · cases s.tab.tocValid <;> rfl
          · simp [executing, mst]
        · rfl
      · rfl
    · rfl
  case cmd =>
    have on : s.executing = true := by simp [executing, mst]
    rw [isDone_cmdOutcome s.play.pstate (preamble w s).play.pstate, on]
    simp only [stepCmd]
    split
    case h_4 outcome =>
      rw [outcome]
      split <;> rfl
    all_goals
      rename_i outcome
      rw [outcome]
      rfl
  all_goals
    simp only [stepAcqReq, stepAcqWait, stepHdrRd, stepEmitH, stepLoDiv, stepDiv, stepEmitLo,
      stepTrkRd, stepTrackRead, stepTrkDiv, stepEmitTrk, stepBuilt, stepT43Hdr, stepT43Rd,
      stepT43Div, stepT43Emit, stepT2Hdr, stepT2Rd, stepT2Div, stepT2Trk, stepT2A2, stepT2A01,
      stepT2Sess, stepCtrkRd, stepScanGo, stepApply, stepRefScan, stepRefDiva, stepRefDivr, putT2]
    repeat' split
    all_goals simp [executing, mst]

/-! ### One clock -/

/-- What a clock needs to keep every command: a strobe finds no command waiting,
and none being carried out unless it ends with this clock or has the same bytes; a
reset finds nothing to lose. -/
def Accepts (w : MainIn) (s : Main) : Prop :=
  if w.rst then w.cmdStb = false ∧ s.outstanding = []
  else w.cmdStb = true →
    s.cmd.cmdPend = false ∧ (s.executing = true → s.ends = true ∨ w.cdb = s.cmd.c)

/-- The command that is strobed in this clock. -/
def strobed (w : MainIn) : Option Cdb := if w.cmdStb then some w.cdb else none

/-- The command whose last clock this is, with the bytes it has then. -/
def executed (w : MainIn) (s : Main) : Option Cdb :=
  if w.rst = false ∧ s.executing = true ∧ s.ends = true then some s.cmd.c else none

/-- A dispatch is not one of a command being carried out. -/
theorem not_executing (go : dispatches w s = true) :
    s.executing = false ∧ s.cmd.cmdPend = true := by
  unfold dispatches at go
  split at go
  · rename_i idle
    simp only [Bool.and_eq_true] at go
    exact ⟨by simp [executing, idle], go.2⟩
  · exact absurd go (by decide)

/-- A clock without a reset keeps what is outstanding and adds the strobed command,
exactly if it accepts it. -/
theorem outstanding_next (rst : w.rst = false) :
    (executed w s).toList ++ (next w s).outstanding = s.outstanding ++ (strobed w).toList ↔
      Accepts w s := by
  have c : (next w s).cmd.c = if w.cmdStb then w.cdb else s.cmd.c := next_c rst
  simp only [outstanding, executed, strobed, Accepts, rst, next_cmdPend rst, next_executing rst, c,
    true_and, Bool.false_eq_true, if_false]
  cases go : dispatches w s
  · cases on : s.executing <;> cases last : s.ends <;> cases stb : w.cmdStb <;>
      cases pend : s.cmd.cmdPend <;> simp [eq_comm]
  · obtain ⟨off, pend⟩ := not_executing go
    cases stb : w.cmdStb <;> simp [off, pend]

/-- A reset drops what is outstanding. -/
theorem outstanding_reset (rst : w.rst = true) :
    (executed w s).toList ++ (next w s).outstanding = s.outstanding ++ (strobed w).toList ↔
      Accepts w s := by
  have dropped : (next w s).outstanding = [] := by
    simp [next, rst, reset, outstanding, executing]
  have none_ : executed w s = none := by simp [executed, rst]
  rw [dropped, none_]
  cases stb : w.cmdStb
  · simp only [strobed, Accepts, rst, stb, Option.toList_none, List.append_nil,
      Bool.false_eq_true, if_false, if_true, true_and]
    exact eq_comm
  · simp [strobed, Accepts, rst, stb]

end Main

namespace Engine

variable {ins : Nat → EngineIn} {t : Nat}

/-- The commands strobed in the first `t` clocks. -/
def strobed (ins : Nat → EngineIn) (t : Nat) : List Cdb :=
  record (fun u => Main.strobed (wires ins u)) 0 t

/-- The commands executed in the first `t` clocks. -/
def executed (ins : Nat → EngineIn) (t : Nat) : List Cdb :=
  record (fun u => Main.executed (wires ins u) (after ins u).main) 0 t

/-- The strobed commands have been executed in their order, each with its own bytes,
or are still outstanding with them. -/
def InOrder (ins : Nat → EngineIn) (t : Nat) : Prop :=
  executed ins t ++ (after ins t).main.outstanding = strobed ins t

theorem inOrder_step (here : InOrder ins t) :
    InOrder ins (t + 1) ↔ Main.Accepts (wires ins t) (after ins t).main := by
  unfold InOrder executed strobed at *
  rw [record_succ (Nat.zero_le t), record_succ (Nat.zero_le t), ← here, List.append_assoc,
    List.append_assoc, List.append_cancel_left_eq, after_main]
  cases rst : (wires ins t).rst
  · exact Main.outstanding_next rst
  · exact Main.outstanding_reset rst

/-- **No command is lost or mixed.** In every run the strobed commands are executed
in order, each with its own bytes, exactly if each clock accepts what is strobed. -/
theorem inOrder_iff :
    (∀ t, InOrder ins t) ↔ ∀ t, Main.Accepts (wires ins t) (after ins t).main := by
  constructor
  · intro all t
    exact (inOrder_step (all t)).mp (all (t + 1))
  · intro accepts t
    induction t with
    | zero => rfl
    | succ t ih => exact (inOrder_step ih).mpr (accepts t)

end Engine

/-! ### Two commands before the TOC -/

/-- A PAUSE with its status and message, then a RESUME. -/
def pauseResume : Nat → HostIn :=
  Driver.host (
    Driver.command 3 [0x4b, 0, 0, 0, 0, 0, 0, 0, 0, 0] ++ Driver.regWrite 2 0 ++
    Driver.regWrite 3 3 ++ Driver.icr 0x10 ++ Driver.icr 0 ++ Driver.regWrite 3 7 ++
    Driver.icr 0x10 ++ Driver.icr 0 ++ Driver.command 3 [0x4b, 0, 0, 0, 0, 0, 0, 0, 1, 0])

/-- A disc is mounted in clock 0; the HPS does not answer. -/
def insertedSlot (t : Nat) : TargetIn :=
  { cdEnable := true, imgMounted := t == 0, imgBlocks := 4096 }

/-- The controller and the CD-ROM target with these commands. -/
def twoCommands (t : Nat) : Chip :=
  Chip.after .cdromTarget pauseResume (fun u => { slot := insertedSlot u })
    { tgt := Target.powerUp .cdromTarget } t

/-- What the target gives the engine, which waits for the TOC blob. -/
def beforeToc (t : Nat) : EngineIn :=
  { mounted := (twoCommands t).tgt.mounted, imgMounted := (insertedSlot t).imgMounted
    imgBlocks := 4096, cmdStb := (twoCommands t).tgt.caCmdStb, cdb := (twoCommands t).tgt.cmd
    grant := (twoCommands t).tgt.caGrant (insertedSlot t) }

/-- The PAUSE is lost: two commands are strobed, and one is left. -/
theorem pause_lost :
    (Engine.strobed beforeToc 294).length = 2 ∧ (Engine.executed beforeToc 294).length = 0 ∧
      (Engine.after beforeToc 294).main.outstanding.length = 1 ∧
      ¬ ∀ t, Engine.InOrder beforeToc t := by
  have counts : (Engine.strobed beforeToc 294).length = 2 ∧
      (Engine.executed beforeToc 294).length = 0 ∧
      (Engine.after beforeToc 294).main.outstanding.length = 1 := by
    decide +kernel
  obtain ⟨stb, done, left⟩ := counts
  refine ⟨stb, done, left, fun all => ?_⟩
  have same := congrArg List.length (all 294)
  rw [List.length_append, stb, done, left] at same
  exact absurd same (by decide)

end CdAudio

end MacIIvi
