import MacIIvi.CdAudio.System
import MacIIvi.Scsi.Scenario

/-!
# Scripted runs of the CD-ROM target

The counterpart of the disk scripts for the target with its audio engine.
-/

namespace MacIIvi

open Clocked CdAudio

/-- The same engine, with what it is waiting in and what it has built evaluated. -/
def CdAudio.Engine.evaluated (e : Engine) : Engine :=
  { e with
    main :=
      { e.main with
        mst := if e.main.mst = .idle then .idle else e.main.mst
        blob :=
          { e.main.blob with
            tocRd := e.main.blob.tocRd && true, tocAct := e.main.blob.tocAct && true }
        tab :=
          { e.main.tab with
            tocValid := e.main.tab.tocValid && true, tocReady := e.main.tab.tocReady && true
            nTracks := e.main.tab.nTracks + 0 }
        bld := { e.main.bld with tIdx := e.main.bld.tIdx + 0 }
        play :=
          { e.main.play with
            pstate := if e.main.play.pstate = .idle then .idle else e.main.play.pstate } }
    ff :=
      { e.ff with
        fst := if e.ff.fst = .idle then .idle else e.ff.fst
        frRd := e.ff.frRd && true, frAct := e.ff.frAct && true } }

theorem CdAudio.Engine.evaluated_eq (e : Engine) : e.evaluated = e := by
  have same {α : Type} [DecidableEq α] (x y : α) : (if x = y then y else x) = x := by
    split
    · exact Eq.symm ‹_›
    · rfl
  simp [evaluated, same]

namespace CdRom

variable (P : Params) (words : Nat → Nat)

/-- The snapshot of a system state under a stimulus. -/
def drive (x : Stimulus) (s : CdRom) : CdRom :=
  { s with
    inp :=
      { rst := x.rst, sel := x.sel, cdEnable := true, ack := x.ack, din := x.din
        imgMounted := x.imgMounted, imgBlocks := x.imgBlocks
        ioAck := s.hps.ack
        sdBuffAddr := s.hps.addr x.move
        sdBuffDout := s.hps.dout x.move
        sdBuffWr := s.hps.strobe x.move && s.hps.ack
        dmaWord := x.dmaWord, dmaLowByte := x.dmaLowByte
        ca := caWires s }
    move := x.move }

/-- The state after a snapshot; the inputs are still those of the snapshot. -/
def advance (s : CdRom) : CdRom :=
  { s with
    tgt := s.tgt.step P s.inp
    eng := s.eng.step (engineIn s)
    hps := s.hps.next (s.tgt.hpsReq s.inp) s.move
    acked := s.ackedNext P
    granted := s.grantedNext P
    served := servedNext s }

def boot : CdRom :=
  { tgt := Target.powerUp P, inp := {}, acked := 0, granted := 0, eng := {}, hps := .idle
    move := .wait, sysRst := false, served := 0 }

/-- The run a script produces. -/
def scripted (script : Nat → Stimulus) : Nat → CdRom
  | 0 => drive (script 0) (boot P)
  | t + 1 => drive (script (t + 1)) (advance P (scripted script t))

/-- The stimulus respects the initiator's and the HPS's rules. -/
def legal (s : CdRom) : Bool :=
  (s.tgt.phase == .idle || !s.rises ||
      (decide (s.acked < s.granted) && decide (s.acked < s.tgt.offered P))) &&
    (s.tgt.phase != .idle || !s.inp.sel || (!s.inp.ack && !s.tgt.oldAck)) &&
    s.hps.allows words (s.tgt.hpsReq s.inp) s.move

variable {P} {words}

theorem legal_step {s s' : CdRom} (x x' : Stimulus) (state : CdRom) (here : s = drive x state)
    (next : s' = drive x' (advance P s)) (ok : legal P words s = true) : Step P words s s' := by
  subst next
  simp only [legal, Bool.and_eq_true] at ok
  obtain ⟨⟨offer, release⟩, allowed⟩ := ok
  refine
    { initiator := ⟨?_, ?_⟩
      wired := by subst here; exact ⟨rfl, by simp [drive], rfl, rfl, rfl⟩
      allowed := allowed
      tgt := rfl, eng := rfl, hps := rfl, acked := rfl, granted := rfl, served := rfl }
  · intro active rise
    simpa [active, rise] using offer
  · intro idle sel
    simpa [idle, sel] using release

/-- A script that stays silent after its end only has to be checked up to there. -/
theorem silent_legal {state : CdRom} : legal P words (drive silent state) = true := by
  cases hps : state.hps <;> simp [legal, drive, silent, Bus.rises, hps, HpsChan.allows]

/-- The run of a legal script. -/
def ofScript (script : Nat → Stimulus) (ok : ∀ t, legal P words (scripted P script t) = true) :
    Run (Step P words) where
  state := scripted P script
  step t := by
    cases t with
    | zero => exact legal_step (script 0) (script 1) (boot P) rfl rfl (ok 0)
    | succ t =>
      exact legal_step (script (t + 1)) (script (t + 2)) (advance P (scripted P script t)) rfl rfl
        (ok (t + 1))

theorem boot_powerUp (script : Nat → Stimulus) : PowerUp P (scripted P script 0) :=
  ⟨rfl, rfl, rfl, rfl, rfl⟩

/-- Scripts leave the system powered. -/
theorem scripted_sysRst (script : Nat → Stimulus) (t : Nat) :
    (scripted P script t).sysRst = false := by
  induction t with
  | zero => rfl
  | succ t ih => exact ih

theorem segments_legal (xs : Segments)
    (ok : (List.range xs.clocks).all fun t => legal P words (scripted P xs.script t))
    (t : Nat) : legal P words (scripted P xs.script t) = true := by
  by_cases inside : t < xs.clocks
  · exact List.all_eq_true.mp ok t (List.mem_range.mpr inside)
  · have quiet : xs.script t = silent := Segments.script_end (by omega)
    cases t with
    | zero => rw [scripted, quiet]; exact silent_legal
    | succ t => rw [scripted, quiet]; exact silent_legal

/-! ### A READ of one block, served -/

/-- The state of a long run, evaluated. -/
def evaluated (s : CdRom) : CdRom :=
  { s with tgt := s.tgt.evaluated, eng := s.eng.evaluated, hps := s.hps.evaluated }

theorem evaluated_eq (s : CdRom) : s.evaluated = s := by
  simp [evaluated, Target.evaluated_eq, Engine.evaluated_eq, HpsChan.evaluated_eq]

/-- What one pass over a script checks holds at each clock. -/
theorem scripted_passes {script : Nat → Stimulus} {ok : Nat → CdRom → Bool} {n : Nat}
    (pass : passes (fun t s => (drive (script (t + 1)) (advance P s)).evaluated) ok n 0
      (drive (script 0) (boot P)) = true) : ∀ t < n, ok t (scripted P script t) = true := by
  intro t inside
  have here := of_passes (scripted P script) (fun _ => (evaluated_eq _).symm) pass t inside
  rwa [Nat.zero_add] at here

/-- The TOC of a disc of 16384 blocks is acquired; a READ(6) of block 5 is sent, and
the HPS serves its four sectors. -/
def blockFetch : Segments :=
  Segments.mount 65536 ++ [(2, silent)] ++ Segments.session false 256 0 ++ [(3, silent)] ++
    Segments.session false 256 0 ++ [(3, silent)] ++
    Segments.command Params.cdromTarget [0x08, 0, 0, 5, 1, 0] ++
    (List.replicate 4 ([(2, silent)] ++ Segments.session false 256 0)).flatten

/-- The initiator then takes the 2048 bytes, one in two clocks. -/
def blockScript (t : Nat) : Stimulus :=
  if t < 1601 then blockFetch.script t else { ack := decide (t < 5697) && t % 2 == 1 }

theorem blockScript_end {t : Nat} (late : 5697 ≤ t) : blockScript t = silent := by
  have past : ¬ t < 1601 := by omega
  have ended : ¬ t < 5697 := by omega
  simp [blockScript, past, ended, silent]

/-- The states of that script. -/
def blockRead : Nat → CdRom := scripted Params.cdromTarget blockScript

theorem blockRead_succ (t : Nat) : (blockRead (t + 1)).tgt =
    (blockRead t).tgt.step Params.cdromTarget (blockRead t).inp := rfl

/-- The CDB completes at clock 553 with the slot at rest; the data phase follows. -/
def blockOk (t : Nat) (s : CdRom) : Bool :=
  legal Params.cdromTarget HpsChan.sectorWords s &&
    if t < 553 then true
    else if t = 553 then
      Target.accepted Params.cdromTarget s.inp s.tgt && s.tgt.cmd.cmdRead &&
        s.tgt.cmd.lbaField s.tgt.cmdCnt == 5 && s.tgt.cmd.cmd6Cpl s.tgt.cmdCnt &&
        s.tgt.cmd.tlen6 == 1 && s.tgt.capacity == 16383 && s.hps == .idle
    else
      s.tgt.phase == .dataOut && s.tgt.mounted &&
        !(Target.ioAckFall s.inp s.tgt && s.eng.ioActive)

/-- At clock 1600 all sectors are in the ring and no byte has been acknowledged. -/
def resident (s : CdRom) : Bool :=
  s.tgt.cmd.cmdRead && s.tgt.tlen == 4 && s.tgt.rdHpsBlk == 4 && s.hps == .idle &&
    !s.tgt.oldIoAck && !s.tgt.oldAck && !s.tgt.stbAdv && s.tgt.dataCnt == 0 &&
    !s.tgt.dataComplete && s.acked == 0

set_option maxRecDepth 100000 in
/-- By evaluation, in one pass. -/
theorem blockRead_checked :
    ∀ t < 1601, (blockOk t (blockRead t) && (t != 1600 || resident (blockRead t))) = true := by
  have pass : passes
      (fun t s => (drive (blockScript (t + 1)) (advance Params.cdromTarget s)).evaluated)
      (fun t s => blockOk t s && (t != 1600 || resident s)) 1601 0
      (drive (blockScript 0) (boot Params.cdromTarget)) = true := by
    decide +kernel
  exact scripted_passes pass

theorem blockRead_ok {t : Nat} (early : t ≤ 1600) : blockOk t (blockRead t) = true :=
  (Bool.and_eq_true_iff.mp (blockRead_checked t (by omega))).1

/-- From clock 1600 on nothing moves but the bytes, one in two clocks. -/
structure Taking (t : Nat) (s : CdRom) : Prop where
  phase : s.tgt.phase = .dataOut
  read : s.tgt.cmd.cmdRead = true
  tlen : s.tgt.tlen = 4
  front : s.tgt.rdHpsBlk = 4
  mounted : s.tgt.mounted = true
  idle : s.hps = .idle
  oldIoAck : s.tgt.oldIoAck = false
  oldAck : s.tgt.oldAck = (decide (1602 ≤ t) && t % 2 == 0)
  stbAdv : s.tgt.stbAdv = (decide (1603 ≤ t) && t % 2 == 1)
  count : s.tgt.dataCnt = (t - 1602) / 2
  running : s.tgt.dataComplete = false
  acked : s.acked = (t - 1600) / 2
  granted : 1601 ≤ t → 4 + (t - 1603) / 2 ≤ s.granted
  driven : ∃ s₀, s = drive (blockScript t) s₀

section

variable {t : Nat} {s : CdRom}

theorem Taking.driven_ack (here : Taking t s) (late : 1600 ≤ t) :
    s.inp.ack = (decide (1601 ≤ t ∧ t < 5697) && t % 2 == 1) ∧ s.inp.rst = false ∧
      s.inp.imgMounted = false ∧ s.inp.ioAck = false ∧ s.move = .wait := by
  have idle := here.idle
  obtain ⟨s₀, rfl⟩ := here.driven
  have chan : s₀.hps = .idle := idle
  rcases Nat.eq_or_lt_of_le late with rfl | after
  · have first : blockScript 1600 = silent := Segments.script_end (by decide)
    simp [drive, first, silent, chan, HpsChan.ack]
  · have inside : ¬ t < 1601 := by omega
    have started : 1601 ≤ t := after
    simp [drive, blockScript, inside, chan, HpsChan.ack, started]

theorem Taking.block (here : Taking t s) : s.tgt.cmd.blockCmd = true := by
  simp [Cdb.blockCmd, here.read]

theorem Taking.length (here : Taking t s) :
    Target.dataLen Params.cdromTarget s.tgt = 2048 := by
  rw [Target.dataLen_block here.block, here.tlen]

theorem Taking.stays (here : Taking t s) (late : 1600 ≤ t) :
    Target.phaseNext Params.cdromTarget s.inp s.tgt = .dataOut := by
  rw [Target.phaseNext_dataOut (here.driven_ack late).2.1 here.phase,
    Target.dataDone_block here.block, here.length, here.running]
  rfl

/-- In every other clock REQ is up. -/
theorem Taking.req (here : Taking t s) (late : 1600 ≤ t) (before : t ≤ 5697) :
    Target.req Params.cdromTarget s.inp s.tgt = !s.inp.ack := by
  obtain ⟨fs, send, -, sendData, -, -, tbIn⟩ :=
    Cdb.blockCmd_noToolbox Params.cdromTarget s.tgt.tbReady here.block
  have current : ¬ 4 ≤ (t - 1602) / 2 / 512 := by omega
  have ahead : ((t - 1602) / 2 + 3) % 2 ^ 32 / 512 % 2 ^ 23 < 4 →
      ¬ 4 ≤ ((t - 1602) / 2 + 3) % 2 ^ 32 / 512 % 2 ^ 23 := by omega
  have ready : Target.ioBusy s.inp s.tgt = false := by
    simp [Target.ioBusy, here.phase, here.read, here.mounted, Target.rdCurUnfilled,
      Target.rdAheadNeeded, Target.rdAheadUnfilled, Target.rdCurBlk, Target.rdAheadBlk, here.count,
      here.front, here.tlen] at ahead ⊢
    omega
  have goes : Target.dataPhaseComplete Params.cdromTarget s.tgt = false := by
    rw [Target.dataPhaseComplete, Target.dataDone_block here.block, here.length, here.running]
    simp
  have away : (Phase.dataOut == Phase.dataIn) = false := rfl
  have busy : (Phase.dataOut != Phase.idle && Phase.dataOut != Phase.tb) = true := rfl
  simp [Target.req, here.phase, ready, goes, Target.tbSrvHold, Target.tbSrvActive, tbIn,
    Target.tbStreamStall, Target.tbGetStall, Target.tbColStall, Tb.colStall, Target.tbIn,
    TbIn.collect, away, busy]

theorem Taking.legal (here : Taking t s) (late : 1600 ≤ t) (before : t ≤ 5697) :
    legal Params.cdromTarget HpsChan.sectorWords s = true := by
  obtain ⟨ack, -, -, -, move⟩ := here.driven_ack late
  have offer : s.rises = true → s.acked < s.granted ∧
      s.acked < s.tgt.offered Params.cdromTarget := by
    intro rise
    simp only [Bus.rises, ack, here.oldAck, Bool.and_eq_true, decide_eq_true_eq, beq_iff_eq] at rise
    have offered : s.tgt.offered Params.cdromTarget = 2048 := by
      simp [Target.offered, here.phase, here.length]
    have granted := here.granted (by omega)
    rw [offered, here.acked]
    omega
  have waits : s.hps.allows HpsChan.sectorWords (s.tgt.hpsReq s.inp) s.move = true := by
    rw [here.idle, move]
    rfl
  cases rise : s.rises with
  | false => simp [CdRom.legal, here.phase, rise, waits]
  | true => simp [CdRom.legal, here.phase, waits, offer rise]

/-- The next clock. -/
theorem Taking.next (here : Taking t s) (late : 1600 ≤ t) (before : t < 5697) :
    Taking (t + 1) (drive (blockScript (t + 1)) (advance Params.cdromTarget s)) := by
  obtain ⟨ack, rst, mount, ioAck, move⟩ := here.driven_ack late
  have stays := here.stays late
  have req := here.req late (by omega)
  have notCmd : s.tgt.phase ≠ .cmdIn := by simp [here.phase]
  have noCpl : Target.cmdCpl Params.cdromTarget s.tgt = false := by
    simp [Target.cmdCpl, here.phase]
  have noFall : Target.dataAckFall s.inp s.tgt = false := by
    simp [Target.dataAckFall, Target.ioAckFall, here.oldIoAck]
  have transfer : Target.transferPhase s.tgt = true := by simp [Target.transferPhase, here.phase]
  refine
    { phase := stays
      read := ?_, tlen := ?_, front := ?_, mounted := ?_, idle := ?_, oldIoAck := ioAck
      oldAck := ?_, stbAdv := ?_, count := ?_, running := ?_, acked := ?_, granted := ?_
      driven := ⟨_, rfl⟩ }
  · exact (congrArg Cdb.cmdRead (Target.cmdNext_eq notCmd)).trans here.read
  · exact (Target.tlenNext_eq notCmd).trans here.tlen
  · simp [drive, advance, Target.rdHpsBlkNext, transfer, noFall, here.front]
  · simp [drive, advance, Target.mountedNext, mount, Target.cdEjectPulse, Target.cdNewCmd, noCpl,
      here.mounted]
  · simp [drive, advance, here.idle, move, HpsChan.next]
  · simp only [drive, advance, Target.step_oldAck, ack]
    grind
  · simp only [drive, advance, Target.step_stbAdv, ack, here.oldAck]
    grind
  · simp only [drive, advance, Target.step_dataCnt, Target.dataCntNext, transfer, here.stbAdv,
      here.running, here.count]
    grind
  · simp only [drive, advance, Target.step_dataComplete, Target.dataCompleteNext, transfer,
      here.stbAdv, here.running, here.length, here.count]
    grind
  · have step : (advance Params.cdromTarget s).acked = s.acked + s.rises.toNat := by
      simp [advance, Bus.ackedNext, stays, here.phase]
    have rises : s.rises = (t % 2 == 1) := by
      rw [Bus.rises, ack, here.oldAck]
      grind
    simp only [drive, step, here.acked, rises]
    rcases Nat.mod_two_eq_zero_or_one t with even | odd
    · simp [even]
      omega
    · simp [odd]
      omega
  · intro _
    have step : (advance Params.cdromTarget s).granted =
        if Target.req Params.cdromTarget s.inp s.tgt then max s.granted (s.tgt.dataCnt + 4)
        else s.granted := by
      simp [advance, Bus.grantedNext, stays, here.phase, Target.consumed]
    have granted := here.granted
    simp only [drive, step, req, ack, here.count]
    grind

end

theorem blockRead_taking {t : Nat} (late : 1600 ≤ t) (before : t ≤ 5697) :
    Taking t (blockRead t) := by
  induction t, late using Nat.le_induction with
  | base =>
    have ok := blockRead_ok (t := 1600) (by omega)
    rw [blockOk, if_neg (by decide), if_neg (by decide)] at ok
    have all := (Bool.and_eq_true_iff.mp (blockRead_checked 1600 (by omega))).2
    simp only [bne_self_eq_false, Bool.false_or, resident, Bool.and_eq_true, beq_iff_eq,
      Bool.not_eq_true'] at ok all
    obtain ⟨-, ⟨phase, mounted⟩, -⟩ := ok
    obtain ⟨⟨⟨⟨⟨⟨⟨⟨⟨read, tlen⟩, front⟩, idle⟩, old⟩, oldAck⟩, adv⟩, count⟩, running⟩, acked⟩ := all
    exact ⟨phase, read, tlen, front, mounted, idle, old, oldAck, adv, count, running, acked,
      fun late => by omega, _, rfl⟩
  | succ t late ih => exact (ih (by omega)).next late (by omega)

theorem blockRead_legal (t : Nat) :
    legal Params.cdromTarget HpsChan.sectorWords (blockRead t) = true := by
  rcases Nat.lt_or_ge t 1600 with early | late
  · have ok := blockRead_ok (Nat.le_of_lt early)
    rw [blockOk, Bool.and_eq_true] at ok
    exact ok.1
  · rcases Nat.lt_or_ge t 5697 with inside | over_
    · exact (blockRead_taking late (Nat.le_of_lt inside)).legal late (Nat.le_of_lt inside)
    · obtain ⟨u, rfl⟩ : ∃ u, t = u + 1 := ⟨t - 1, by omega⟩
      rw [blockRead, scripted, blockScript_end (by omega)]
      exact silent_legal

def blockRun : Run (Step Params.cdromTarget HpsChan.sectorWords) :=
  ofScript blockScript blockRead_legal

/-- The READ is accepted. -/
theorem blockRead_accepted :
    Target.accepted Params.cdromTarget (blockRead 553).inp (blockRead 553).tgt = true ∧
      (blockRead 553).tgt.cmd.cmdRead = true ∧
      (blockRead 553).tgt.cmd.lbaField (blockRead 553).tgt.cmdCnt = 5 ∧
      (blockRead 553).tgt.cmd.cmd6Cpl (blockRead 553).tgt.cmdCnt = true ∧
      (blockRead 553).tgt.cmd.tlen6 = 1 ∧ (blockRead 553).tgt.capacity = 16383 ∧
      (blockRead 553).hps = .idle := by
  have ok := blockRead_ok (t := 553) (by omega)
  rw [blockOk, if_neg (by decide), if_pos rfl] at ok
  simp only [Bool.and_eq_true, beq_iff_eq] at ok
  obtain ⟨-, ⟨⟨⟨⟨⟨accepted, read⟩, lba⟩, six⟩, tlen⟩, size⟩, idle⟩ := ok
  exact ⟨accepted, read, lba, six, tlen, size, idle⟩

/-- The last byte is counted. -/
theorem Taking.last {s : CdRom} (here : Taking 5697 s) :
    (s.tgt.step Params.cdromTarget s.inp).phase = .dataOut ∧
      (s.tgt.step Params.cdromTarget s.inp).mounted = true ∧
      (s.tgt.step Params.cdromTarget s.inp).oldIoAck = false ∧
      (s.tgt.step Params.cdromTarget s.inp).dataComplete = true ∧
      (s.tgt.step Params.cdromTarget s.inp).cmd.cmdRead = true := by
  obtain ⟨-, rst, mount, ioAck, -⟩ := here.driven_ack (by omega)
  have notCmd : s.tgt.phase ≠ .cmdIn := by simp [here.phase]
  have noCpl : Target.cmdCpl Params.cdromTarget s.tgt = false := by
    simp [Target.cmdCpl, here.phase]
  refine ⟨here.stays (by omega), ?_, ioAck, ?_, ?_⟩
  · simp [Target.mountedNext, mount, Target.cdEjectPulse, Target.cdNewCmd, noCpl, here.mounted]
  · simp [Target.dataCompleteNext, Target.transferPhase, here.phase, here.stbAdv, here.length,
      here.count]
  · exact (congrArg Cdb.cmdRead (Target.cmdNext_eq notCmd)).trans here.read

theorem blockRead_last :
    (blockRead 5698).tgt.phase = .dataOut ∧ (blockRead 5698).tgt.mounted = true ∧
      (blockRead 5698).tgt.oldIoAck = false ∧ (blockRead 5698).tgt.dataComplete = true ∧
      (blockRead 5698).tgt.cmd.cmdRead = true := by
  have next := blockRead_succ 5697
  have last := (blockRead_taking (t := 5697) (by omega) (by omega)).last
  rwa [← next] at last

/-- Its data phase. -/
theorem blockRead_data {t : Nat} (after : 553 < t) (before : t ≤ 5698) :
    (blockRead t).tgt.phase = .dataOut ∧ (blockRead t).tgt.mounted = true ∧
      (Target.ioAckFall (blockRead t).inp (blockRead t).tgt && (blockRead t).eng.ioActive) = false ∧
      (t = 1600 → (blockRead t).tgt.rdHpsBlk = 4) := by
  rcases Nat.lt_or_ge t 1600 with early | late
  · have ok := blockRead_ok (Nat.le_of_lt early)
    rw [blockOk, if_neg (by omega), if_neg (by omega)] at ok
    simp only [Bool.and_eq_true, Bool.not_eq_true', beq_iff_eq] at ok
    obtain ⟨-, ⟨phase, mounted⟩, quiet⟩ := ok
    exact ⟨phase, mounted, quiet, fun here => by omega⟩
  · rcases Nat.lt_or_ge t 5698 with inside | last
    · have here := blockRead_taking late (by omega)
      refine ⟨here.phase, here.mounted, ?_, fun _ => here.front⟩
      simp [Target.ioAckFall, here.oldIoAck]
    · obtain rfl : t = 5698 := by omega
      obtain ⟨phase, mounted, old, -⟩ := blockRead_last
      exact ⟨phase, mounted, by simp [Target.ioAckFall, old], fun here => by omega⟩

/-- It ends with STATUS. -/
theorem blockRead_status : (blockRead 5699).tgt.phase = .statusOut := by
  obtain ⟨phase, -, -, complete, read⟩ := blockRead_last
  have rst : (blockRead (5697 + 1)).inp.rst = false := by
    rw [blockRead, scripted, blockScript_end (by omega)]
    rfl
  rw [blockRead_succ 5698, Target.step_phase, Target.phaseNext_dataOut rst phase,
    Target.dataDone_block (by simp [Cdb.blockCmd, read]), complete]
  rfl

end CdRom

end MacIIvi
