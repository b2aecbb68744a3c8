import MacIIvi.Scsi.ServeLanes

/-!
# MODE SENSE of the audio page

Source: `rtl/scsi.v`, the `data_len` table and `cd_ms0e_byte`. A MODE SENSE(6) for
page 0x0E, the CD Audio Control page, is accepted with and without a disc. Its
phase has 28 bytes, or as many as the allocation length admits, and bytes 20 to 27
are the port registers.
-/

namespace MacIIvi

namespace AudioPage

/-- Port byte `j`: channel and volume of the four ports in turn. -/
def port (p : AudioPage) (j : Nat) : Byte :=
  match j with
  | 0 => p.ch0
  | 1 => p.vol0
  | 2 => p.ch1
  | 3 => p.vol1
  | 4 => p.ch2
  | 5 => p.vol2
  | 6 => p.ch3
  | _ => p.vol3

end AudioPage

namespace Target

variable {P : Params} {i : TargetIn} {s : Target} {alloc : Byte}

/-- The command of a MODE SENSE for page 0x0E has been received. -/
structure AudioSense (P : Params) (s : Target) : Prop where
  cpl : cmdCpl P s = true
  sense : s.cmd.cmdModeSense = true
  page : s.cmd.modePage = 0x0e

/-- The phase that answers it, with its count of bytes. -/
structure ShowsPage (P : Params) (alloc : Byte) (s : Target) : Prop where
  phase : s.phase = .dataOut
  sense : s.cmd.cmdModeSense = true
  page : s.cmd.modePage = 0x0e
  len : dataLen P s = min alloc.toNat 28
  upto : s.dataCnt ≤ dataLen P s
  room : s.dataComplete = false → dataLen P s = 0 ∨ s.dataCnt < dataLen P s
  full : s.dataComplete = true → s.dataCnt = dataLen P s

theorem opCode_of_modeSense (sense : s.cmd.cmdModeSense = true) : s.cmd.opCode = 0x1a := by
  simpa [Cdb.cmdModeSense] using sense

/-- The command is accepted whatever is mounted, and its phase begins. -/
theorem AudioSense.phaseNext (here : AudioSense P s) (cd : P.cdrom = true) (rst : i.rst = false) :
    Target.phaseNext P i s = .dataOut := by
  have op := opCode_of_modeSense here.sense
  have ok : accepted P i s = true := by
    simp [accepted, here.cpl, Cdb.accepted, Cdb.cmdOk, cd, Cdb.cmdOkCd, here.sense, Cdb.cdNoMedia,
      Cdb.cdNeedsMedia, Cdb.cdAudioReadRej, Cdb.cdHdrMsfRej, Cdb.cmdTestUnitReady, Cdb.cmdRead,
      Cdb.cmdRead6, Cdb.cmdRead10, Cdb.cmdReadCapacity, Cdb.cmdCdToc, Cdb.cmdCdSubq,
      Cdb.cmdCdAstat, Cdb.cmdCdActl, Cdb.cmdCdToc43, Cdb.cmdCdSubq43, Cdb.cmdCdHdr,
      Cdb.cmdCdAudioNop, op]
  have start : startPhase P s = .dataOut := by
    simp [startPhase, Cdb.startsDataOut, here.sense, Cdb.cmdTbFsIn, Cdb.cmdCdcTb, Cdb.cmdCdcIn,
      Cdb.cmdCdcList, Cdb.cmdCdcCount, Cdb.cmdCdcSet, Cdb.cmdTbSendEnd, Cdb.cmdTbSendPay,
      Cdb.cmdTbSendPrep, Cdb.cmdTbSendData, op]
  rw [phaseNext_cmdIn rst (cmdCpl_phase here.cpl), if_pos here.cpl, if_pos ok, start]

/-- The length of the page, from the allocation length latched. -/
theorem dataLen_audioSense (cd : P.cdrom = true) (sense : s.cmd.cmdModeSense = true)
    (page : s.cmd.modePage = 0x0e) : dataLen P s = min (Cdb.allocLen s.tlen) 28 := by
  have op := opCode_of_modeSense sense
  simp [dataLen, Cdb.dataLen, Cdb.cmdReadCapacity, Cdb.cmdRead, Cdb.cmdRead6, Cdb.cmdRead10,
    Cdb.cmdWrite, Cdb.cmdWrite6, Cdb.cmdWrite10, Cdb.cmdCdToc, Cdb.cmdCdToc43, Cdb.cmdCdSubq43,
    Cdb.cmdCdSubq, Cdb.cmdCdAstat, Cdb.cmdCdHdr, Cdb.cmdCdActl, Cdb.cmdInquiry, Cdb.modeSenseLen,
    op, cd, sense, page]

/-- Nothing but the count ends the phase. -/
theorem ShowsPage.dataDone (here : ShowsPage P alloc s) :
    Target.dataDone P s = (s.dataComplete || dataLen P s == 0) := by
  have op := opCode_of_modeSense here.sense
  simp [Target.dataDone, tbOutStalled, tbOutActive, tbGetAbort, tbSrvActive, here.phase,
    Cdb.cmdTbIn, Cdb.cmdTbFsIn, Cdb.cmdCdcIn, Cdb.cmdCdcList, Cdb.cmdCdcCount, op]

/-- It ends when all its bytes are counted. -/
theorem ShowsPage.ends (here : ShowsPage P alloc s) (rst : i.rst = false)
    (over_ : Target.phaseNext P i s ≠ .dataOut) : s.dataCnt = dataLen P s := by
  have upto := here.upto
  rw [phaseNext_dataOut rst here.phase, here.dataDone] at over_
  cases complete : s.dataComplete with
  | true => exact here.full complete
  | false =>
    have none_ : dataLen P s = 0 := by
      by_contra some_
      simp [complete, some_] at over_
    omega

theorem ShowsPage.step (here : ShowsPage P alloc s) (cd : P.cdrom = true)
    (stays : Target.phaseNext P i s = .dataOut) : ShowsPage P alloc (step P i s) := by
  have rst : i.rst = false := by
    cases reset : i.rst with
    | false => rfl
    | true => simp [Target.phaseNext, reset] at stays
  rw [phaseNext_dataOut rst here.phase, here.dataDone] at stays
  have cmd : (Target.step P i s).cmd = s.cmd := cmdNext_eq (by simp [here.phase])
  have tlen : (Target.step P i s).tlen = s.tlen := tlenNext_eq (by simp [here.phase])
  have goes : s.dataComplete = false ∧ dataLen P s ≠ 0 := by
    by_contra done
    rw [if_pos (by simpa [or_iff_not_imp_left] using done)] at stays
    cases stays
  have below := (here.room goes.1).resolve_left goes.2
  have len : dataLen P (Target.step P i s) = dataLen P s := by
    rw [dataLen_audioSense cd (by rw [cmd]; exact here.sense) (by rw [cmd]; exact here.page),
      dataLen_audioSense cd here.sense here.page, tlen]
  have short : dataLen P s ≤ 28 := by
    rw [here.len]
    exact Nat.min_le_right _ _
  have count : (Target.step P i s).dataCnt = s.dataCnt + s.stbAdv.toNat := by
    rw [step_dataCnt, dataCntNext, if_neg (by simp [transferPhase, here.phase])]
    cases adv : s.stbAdv with
    | false => simp
    | true => rw [if_pos (by simp [goes.1]), Nat.mod_eq_of_lt (by omega), Bool.toNat_true]
  have last : (Target.step P i s).dataComplete =
      if s.stbAdv then dataLen P s - 1 == s.dataCnt else false := by
    have wrap : (dataLen P s + 2 ^ 32 - 1) % 2 ^ 32 = dataLen P s - 1 := by omega
    simp only [step_dataComplete, dataCompleteNext, transferPhase, here.phase, wrap, goes.1]
    rfl
  refine
    { phase := by rw [step_phase, phaseNext_dataOut rst here.phase, here.dataDone]; exact stays
      sense := by rw [cmd]; exact here.sense
      page := by rw [cmd]; exact here.page
      len := by rw [len, here.len]
      upto := ?_, room := ?_, full := ?_ }
  · rw [len, count]
    cases s.stbAdv <;> simp <;> omega
  · rw [last, len, count]
    cases s.stbAdv with
    | false => exact fun _ => .inr below
    | true =>
      simp only [if_true, beq_eq_false_iff_ne, Bool.toNat_true]
      omega
  · rw [last, len, count]
    cases s.stbAdv with
    | false => simp
    | true =>
      simp only [if_true, beq_iff_eq, Bool.toNat_true]
      omega

end Target

namespace Serve

variable {P : Params} {s : Serve} {n j k : Nat}

end Serve

end MacIIvi
