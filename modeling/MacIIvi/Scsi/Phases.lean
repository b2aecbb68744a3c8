import MacIIvi.Scsi.Target

/-!
# Phases of the SCSI target

What the phase FSM and the command registers can do in one clock, for disks and
the CD-ROM alike. Later modules use these lemmas instead of the case table of
`phase`.
-/

namespace MacIIvi

namespace Target

variable {P : Params} {i : TargetIn} {s : Target}

theorem dataLen_block (h : s.cmd.blockCmd = true) : dataLen P s = s.tlen * 512 :=
  Cdb.dataLen_block h s.tlen s.tb.srvLen

theorem dataDone_block (h : s.cmd.blockCmd = true) :
    dataDone P s = (s.dataComplete || dataLen P s == 0) := by
  obtain ⟨-, -, -, data, -, -, inp⟩ := Cdb.blockCmd_noToolbox P s.tbReady h
  simp [dataDone, tbOutStalled, tbOutActive, tbGetAbort, tbSrvActive, data, inp]

theorem cmdCpl_phase (h : cmdCpl P s = true) : s.phase = .cmdIn := by
  simp [cmdCpl] at h
  exact h.1

theorem cmdNext_eq (h : s.phase ≠ .cmdIn) : cmdNext i s = s.cmd := by
  simp [cmdNext, h]

theorem tlenNext_eq (h : s.phase ≠ .cmdIn) : tlenNext P s = s.tlen := by
  have none : cmdCpl P s = false := by simp [cmdCpl, h]
  simp [tlenNext, none]

/-- Outside the command phase the length of a block command stays. -/
theorem dataLen_step (h : s.phase ≠ .cmdIn) (block : s.cmd.blockCmd = true) :
    dataLen P (step P i s) = dataLen P s := by
  rw [dataLen_block (s := step P i s) (by rw [step_cmd, cmdNext_eq h]; exact block),
    dataLen_block block, step_tlen, tlenNext_eq h]

theorem phaseNext_cmdIn (rst : i.rst = false) (h : s.phase = .cmdIn) :
    phaseNext P i s =
      if cmdCpl P s then if accepted P i s then startPhase P s else .statusOut else .cmdIn := by
  simp [phaseNext, rst, h]

theorem phaseNext_dataOut (rst : i.rst = false) (h : s.phase = .dataOut) :
    phaseNext P i s = if dataDone P s then .statusOut else .dataOut := by
  simp [phaseNext, rst, h]

theorem phaseNext_dataIn (rst : i.rst = false) (h : s.phase = .dataIn) :
    phaseNext P i s =
      if dataDone P s then if s.cmd.cmdTbSend P then .tb else .statusOut else .dataIn := by
  simp [phaseNext, rst, h]

theorem phaseNext_statusOut (rst : i.rst = false) (h : s.phase = .statusOut) :
    phaseNext P i s = if s.statusSent then .messageOut else .statusOut := by
  simp [phaseNext, rst, h]

theorem startPhase_block (block : s.cmd.blockCmd = true) :
    startPhase P s = if s.cmd.cmdRead then .dataOut else .dataIn := by
  obtain ⟨fs, -, pay, -, ends, cdc, -⟩ :=
    Cdb.blockCmd_noToolbox P s.tbReady block
  have kinds : s.cmd.cmdRead = true ∨ s.cmd.cmdWrite = true := by
    simpa [Cdb.blockCmd] using block
  rcases kinds with read | write
  · simp [startPhase, fs, pay, ends, cdc, read, Cdb.startsDataOut]
  · have notRead := Cdb.cmdRead_of_write write
    have notOut : s.cmd.startsDataOut P s.tbReady = false := by
      rcases Cdb.cmdWrite_opCode write with op | op <;>
        simp [Cdb.startsDataOut, notRead, Cdb.cmdInquiry, Cdb.cmdReadCapacity, Cdb.cmdModeSense,
          Cdb.cmdReadBuffer, Cdb.cmdRequestSense, Cdb.cmdTbDevinfo, Cdb.cmdTbDebugGet,
          Cdb.cmdTbDebug, Cdb.cmdCdToc, Cdb.cmdCdSubq, Cdb.cmdCdAstat, Cdb.cmdCdToc43,
          Cdb.cmdCdSubq43, Cdb.cmdCdHdr, op]
    simp [startPhase, fs, pay, ends, cdc, notRead, notOut, Cdb.startsDataIn, write]

/-- A disk starts the data phase of every block command it receives. -/
theorem phaseNext_block (disk : P.cdrom = false) (rst : i.rst = false) (cpl : cmdCpl P s = true)
    (block : s.cmd.blockCmd = true) :
    phaseNext P i s = if s.cmd.cmdRead then .dataOut else .dataIn := by
  have ok : accepted P i s = true := by
    simp [accepted, cpl, Cdb.accepted_block disk block]
  rw [phaseNext_cmdIn rst (cmdCpl_phase cpl), if_pos cpl, if_pos ok, startPhase_block block]

theorem startPhase_mem : startPhase P s = .tb ∨ startPhase P s = .dataIn ∨
    startPhase P s = .dataOut ∨ startPhase P s = .statusOut := by
  unfold startPhase
  split
  · simp
  · split
    · simp
    · split
      · simp
      · split <;> simp

/-- The phase edges of a target. -/
theorem phaseNext_edge (new : phaseNext P i s ≠ s.phase) :
    phaseNext P i s = .idle ∨
    (s.phase = .idle ∧ phaseNext P i s = .cmdIn) ∨
    (s.phase = .cmdIn ∧ cmdCpl P s = true ∧
      (phaseNext P i s = .statusOut ∨ phaseNext P i s = startPhase P s)) ∨
    (s.phase = .tb ∧ (phaseNext P i s = .dataOut ∨ phaseNext P i s = .statusOut)) ∨
    ((s.phase = .dataOut ∨ s.phase = .dataIn) ∧ dataDone P s = true ∧
      (phaseNext P i s = .statusOut ∨ phaseNext P i s = .tb)) ∨
    (s.phase = .statusOut ∧ s.statusSent = true ∧ phaseNext P i s = .messageOut) := by
  cases rst : i.rst with
  | true => exact .inl (by simp [phaseNext, rst])
  | false =>
    cases phase : s.phase with
    | idle => cases sel : selected P i s <;> simp [phaseNext, rst, phase, sel] at new ⊢
    | cmdIn =>
      cases cpl : cmdCpl P s <;> cases ok : accepted P i s <;>
        simp [phaseNext, rst, phase, cpl, ok] at new ⊢
    | tb =>
      cases ready : tbAnswered s <;> by_cases len : s.tb.len = 0 <;>
        simp [phaseNext, rst, phase, ready, len] at new ⊢
    | dataOut => cases done : dataDone P s <;> simp [phaseNext, rst, phase, done] at new ⊢
    | dataIn =>
      cases done : dataDone P s <;> cases send : s.cmd.cmdTbSend P <;>
        simp [phaseNext, rst, phase, done, send] at new ⊢
    | statusOut => cases sent : s.statusSent <;> simp [phaseNext, rst, phase, sent] at new ⊢
    | messageOut => cases sent : s.messageSent <;> simp [phaseNext, rst, phase, sent] at new ⊢

/-- A data phase is entered from outside the transfer phases. -/
theorem from_outside (next : phaseNext P i s = .dataOut ∨ phaseNext P i s = .dataIn)
    (new : phaseNext P i s ≠ s.phase) : transferPhase s = false := by
  have outside : s.phase = .cmdIn ∨ s.phase = .tb := by
    rcases phaseNext_edge new with h | ⟨-, h⟩ | ⟨h, -, -⟩ | ⟨h, -⟩ | ⟨-, -, h | h⟩ | ⟨-, -, h⟩
    · simp [h] at next
    · simp [h] at next
    · exact .inl h
    · exact .inr h
    · simp [h] at next
    · simp [h] at next
    · simp [h] at next
  rcases outside with h | h <;> simp [transferPhase, h]

theorem from_idle (next : phaseNext P i s = .cmdIn) (new : phaseNext P i s ≠ s.phase) :
    s.phase = .idle := by
  have start : Phase.cmdIn ≠ startPhase P s := by
    rcases startPhase_mem (P := P) (s := s) with h | h | h | h <;> rw [h] <;> decide
  rcases phaseNext_edge new with h | h | h | h | h | h <;> simp_all

theorem fetchStart_needs (h : fetchStart P i s = true) :
    s.phase = .dataOut ∧ s.cmd.cmdRead = true ∧ dataLen P s ≠ 0 ∧ i.ioAck = false := by
  simp [fetchStart, reqRd] at h
  tauto

theorem reqWr_needs (h : reqWr P s = true) :
    (s.phase = .dataIn ∨ s.phase = .statusOut) ∧ s.cmd.cmdWrite = true ∧ dataLen P s ≠ 0 := by
  simp [reqWr] at h
  tauto

end Target

end MacIIvi
