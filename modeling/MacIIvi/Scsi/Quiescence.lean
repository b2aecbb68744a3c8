import MacIIvi.Scsi.Session

/-!
# Between commands the sector channel is at rest

The target offers its status byte only after the last fetch or flush has been
acknowledged. Without a bus reset, every command of a disk target therefore
finds the request engine clear and its HPS slot idle, whatever ran before.
-/

namespace MacIIvi

open Clocked

namespace Target

variable {P : Params} {i : TargetIn} {s : Target}

/-- A block transfer with data is under way: only now may the request engine
work. -/
def transfers (P : Params) (s : Target) : Bool :=
  (s.phase == .dataOut || s.phase == .dataIn || s.phase == .statusOut) && s.cmd.blockCmd &&
    dataLen P s != 0

theorem transfers_iff : transfers P s = true ↔
    (s.phase = .dataOut ∨ s.phase = .dataIn ∨ s.phase = .statusOut) ∧ s.cmd.blockCmd = true ∧
      dataLen P s ≠ 0 := by
  simp [transfers, and_assoc, or_assoc]

theorem transfers_of_fetchStart (h : fetchStart P i s = true) : transfers P s = true := by
  obtain ⟨phase, read, len, -⟩ := fetchStart_needs h
  exact transfers_iff.mpr ⟨.inl phase, by simp [Cdb.blockCmd, read], len⟩

theorem transfers_of_reqWr (h : reqWr P s = true) : transfers P s = true := by
  obtain ⟨phase, write, len⟩ := reqWr_needs h
  exact transfers_iff.mpr ⟨.inr phase, by simp [Cdb.blockCmd, write], len⟩

end Target

namespace Disk

open Target Bus

variable {P : Params} {medium : Nat → Nat → BitVec 16} {s s' : Disk}

/-- Nothing is requested, queued or in flight on the target's slot. -/
structure Quiet (s : Disk) : Prop where
  ioRdD : s.tgt.ioRdD = false
  ioWr : s.tgt.ioWr = false
  wrPending : s.tgt.wrPending = false
  rdBusy : s.tgt.rdBusy = false
  oldIoAck : s.tgt.oldIoAck = false
  hps : s.hps = .idle

theorem Step.ca (st : Step P medium s s') : s.inp.ca = {} := st.wired.ca

/-- The slot is idle and stays idle as long as nothing is requested. -/
theorem Step.hps_idle (st : Step P medium s s') (idle : s.hps = .idle)
    (rd : s.tgt.ioRdD = false) (wr : s.tgt.ioWr = false) : s'.hps = .idle := by
  have allowed := st.allowed
  have ca := st.ca
  rw [st.hps, idle]
  rw [idle] at allowed
  cases move : s.move with
  | latch write => cases write <;> simp [HpsChan.allows, hpsReq, ioRd, ca, rd, wr, move] at allowed
  | _ => rfl

theorem Step.ioAck_idle (st : Step P medium s s') (idle : s.hps = .idle) : s.inp.ioAck = false := by
  simp [st.wired.ioAck, idle, HpsChan.ack]

/-- Rest is kept by every clock that starts neither a fetch nor a flush. -/
theorem Quiet.step (quiet : Quiet s) (st : Step P medium s s')
    (noFetch : fetchStart P s.inp s.tgt = false)
    (noFlush : s.tgt.oldWr = true ∨ reqWr P s.tgt = false) : Quiet s' := by
  have ack := st.ioAck_idle quiet.hps
  have edge : (!s.tgt.oldWr && reqWr P s.tgt) = false := by
    rcases noFlush with h | h <;> simp [h]
  refine ⟨?_, ?_, ?_, ?_, ?_, st.hps_idle quiet.hps quiet.ioRdD quiet.ioWr⟩ <;> rw [st.tgt]
  · simp [ioRdDNext, quiet.ioRdD, noFetch]
  · simp [ioWrNext, quiet.ioWr, quiet.wrPending]
  · simp [wrPendingNext, quiet.wrPending, edge]
  · simp [rdBusyNext, quiet.rdBusy, noFetch]
  · simp [ack]

/-- Phases in which the bytes acknowledged are accounted for one by one. -/
def counted (P : Params) (s : Target) : Bool :=
  s.phase == .messageOut || s.phase == .statusOut || transfers P s

/-- What holds at every clock of a disk target that sees no bus reset. -/
structure Sound (P : Params) (s : Disk) : Prop where
  paced : s.toBus.Paced
  pipe : counted P s.tgt = true → s.acked = s.tgt.consumed + inPipe s.tgt
  within : counted P s.tgt = true → s.acked ≤ s.tgt.offered P
  tlen : s.tgt.tlen < 65536
  notWrite : s.tgt.phase = .dataOut → s.tgt.cmd.cmdWrite = false
  notRead : s.tgt.phase = .dataIn → s.tgt.cmd.cmdRead = false
  notBlock : s.tgt.phase = .tb → s.tgt.cmd.blockCmd = false
  complete : s.tgt.phase = .dataOut ∨ s.tgt.phase = .dataIn → s.tgt.cmd.blockCmd = true →
    dataLen P s.tgt ≠ 0 → if s.tgt.dataComplete then s.tgt.dataCnt = dataLen P s.tgt
      else s.tgt.dataCnt < dataLen P s.tgt
  quiet : transfers P s.tgt = false → Quiet s
  statusQuiet : s.tgt.phase = .statusOut → 0 < s.granted → Quiet s
  statusGranted : s.tgt.phase = .statusOut → transfers P s.tgt = true → 0 < s.acked →
    0 < s.granted
  statusEdge : s.tgt.phase = .statusOut → reqWr P s.tgt = true → s.tgt.oldWr = true
  requested : ∀ write lba, s.hps = .latched write lba →
    if write then s.tgt.ioWr = true else s.tgt.ioRdD = true
  busy : s.tgt.rdBusy = true → s.tgt.ioRdD = true ∨ s.hps.ack = true ∨ s.tgt.oldIoAck = true

theorem PowerUp.sound (boot : PowerUp P s) : Sound P s := by
  obtain ⟨tgt, hps, acked, granted⟩ := boot
  have idle : s.tgt.phase = .idle := by rw [tgt]; rfl
  have notCounted : counted P s.tgt = false := by simp [counted, transfers, idle]
  have quiet : Quiet s := by
    refine ⟨?_, ?_, ?_, ?_, ?_, hps⟩ <;> rw [tgt] <;> rfl
  refine
    { paced := paced_powerUp tgt
      pipe := by simp [notCounted]
      within := by simp [notCounted]
      tlen := by simp [tgt, powerUp]
      notWrite := by simp [idle]
      notRead := by simp [idle]
      notBlock := by simp [idle]
      complete := by simp [idle]
      quiet := fun _ => quiet
      statusQuiet := by simp [idle]
      statusGranted := by simp [idle]
      statusEdge := by simp [idle]
      requested := by simp [hps]
      busy := by simp [quiet.rdBusy] }

section

variable (sound : Sound P s) (st : Step P medium s s')

include sound in
/-- When the offered bytes are all counted, no acknowledge is left in the pipe
and none rises. -/
theorem Sound.drained (cnt : counted P s.tgt = true) (all : s.tgt.consumed = s.tgt.offered P)
    (st : Step P medium s s') : inPipe s.tgt = 0 ∧ s.inp.ack = false := by
  have pipe := sound.pipe cnt
  have within := sound.within cnt
  have empty : inPipe s.tgt = 0 := by omega
  refine ⟨empty, ?_⟩
  by_contra high
  have oldAck : s.tgt.oldAck = false := by
    cases h : s.tgt.oldAck with
    | false => rfl
    | true => simp [inPipe, h] at empty
  have active : s.tgt.phase ≠ .idle := by
    intro idle
    simp [counted, transfers, idle] at cnt
  have rise : s.rises = true := by simp [rises, oldAck] ; simpa using high
  have room := (st.initiator.offered active rise).2
  omega

include sound st in
/-- A block transfer is either the one of the previous clock, or its command
completes now. -/
theorem Sound.transfers_origin (rst : s.inp.rst = false)
    (after : transfers P s'.tgt = true) :
    (cmdCpl P s.tgt = true ∧ s.tgt.cmd.blockCmd = true) ∨ transfers P s.tgt = true := by
  rw [st.tgt] at after
  obtain ⟨phase', block', len'⟩ := transfers_iff.mp after
  rw [step_phase] at phase'
  cases phase : s.tgt.phase with
  | idle => simp [phaseNext, rst, phase] at phase'; split at phase' <;> simp at phase'
  | cmdIn =>
    rw [phaseNext_cmdIn rst phase] at phase'
    cases cpl : cmdCpl P s.tgt with
    | false => simp [cpl] at phase'
    | true =>
      rw [step_cmd, sound.paced.cmdNext_cpl st.toStep cpl] at block'
      exact .inl ⟨rfl, block'⟩
  | tb =>
    rw [step_cmd, cmdNext_eq (by simp [phase]), sound.notBlock phase] at block'
    simp at block'
  | messageOut => simp [phaseNext, rst, phase] at phase'; split at phase' <;> simp at phase'
  | dataOut | dataIn | statusOut =>
    rw [step_cmd, cmdNext_eq (by simp [phase])] at block'
    rw [dataLen_step (by simp [phase]) block'] at len'
    exact .inr (transfers_iff.mpr ⟨by simp [phase], block', len'⟩)

include sound st in
theorem Sound.counted_same (rst : s.inp.rst = false)
    (same : phaseNext P s.inp s.tgt = s.tgt.phase) (after : counted P s'.tgt = true) :
    counted P s.tgt = true := by
  have phase' : s'.tgt.phase = s.tgt.phase := by rw [st.tgt, step_phase, same]
  simp only [counted, Bool.or_eq_true, beq_iff_eq, phase'] at after ⊢
  rcases after with h | moving
  · exact .inl h
  · rcases sound.transfers_origin st rst moving with ⟨cpl, -⟩ | before
    · obtain ⟨transferring, -⟩ := transfers_iff.mp moving
      simp [phase', cmdCpl_phase cpl] at transferring
    · exact .inr before

/-- A new phase starts its count at zero. -/
theorem Step.consumed_new (st : Step P medium s s')
    (new : phaseNext P s.inp s.tgt ≠ s.tgt.phase) : s'.tgt.consumed = 0 := by
  have phase' : s'.tgt.phase = phaseNext P s.inp s.tgt := by rw [st.tgt, step_phase]
  unfold consumed
  rw [phase']
  cases next : phaseNext P s.inp s.tgt with
  | idle | tb => rfl
  | cmdIn =>
    have idle := from_idle next new
    simp [st.tgt, cmdCntNext, idle]
  | dataOut | dataIn =>
    have outside := from_outside (by simp [next]) new
    simp [st.tgt, dataCntNext, outside]
  | statusOut =>
    have other : s.tgt.phase ≠ .statusOut := by rw [next] at new; exact new.symm
    simp [st.tgt, statusSentNext, other]
  | messageOut =>
    have other : s.tgt.phase ≠ .messageOut := by rw [next] at new; exact new.symm
    simp [st.tgt, messageSentNext, other]

include sound st in
/-- Inside a phase the count follows the acknowledge falls. -/
theorem Sound.consumed_same (rst : s.inp.rst = false)
    (same : phaseNext P s.inp s.tgt = s.tgt.phase) (cnt : counted P s.tgt = true) :
    s'.tgt.consumed = s.tgt.consumed + s.tgt.stbAdv.toNat := by
  have phase' : s'.tgt.phase = s.tgt.phase := by rw [st.tgt, step_phase, same]
  have pipe := sound.pipe cnt
  have within := sound.within cnt
  unfold consumed at pipe within ⊢
  rw [phase']
  cases phase : s.tgt.phase with
  | idle | tb | cmdIn => simp [counted, transfers, phase] at cnt
  | dataOut | dataIn =>
    have moving : transfers P s.tgt = true := by simpa [counted, phase] using cnt
    obtain ⟨-, block, len⟩ := transfers_iff.mp moving
    have done : dataDone P s.tgt = false := by
      by_contra done
      simp only [phase] at same
      first
      | rw [phaseNext_dataOut rst phase, if_pos (by simpa using done)] at same
      | rw [phaseNext_dataIn rst phase, if_pos (by simpa using done),
          if_neg (by simp [(Cdb.blockCmd_noToolbox P s.tgt.tbReady block).2.1])]
          at same
      simp at same
    have running : s.tgt.dataComplete = false := by
      rw [dataDone_block block] at done
      simpa [len] using done
    have below := sound.complete (by simp [phase]) block len
    simp only [running, dataLen_block block] at below
    have tlen := sound.tlen
    cases adv : s.tgt.stbAdv with
    | false => simp [st.tgt, dataCntNext, transferPhase, phase, adv]
    | true =>
      simp only [st.tgt, step_dataCnt, dataCntNext, transferPhase, phase, adv, running]
      simp
      simp at below
      omega
  | statusOut =>
    have unsent : s.tgt.statusSent = false := by
      by_contra sent
      rw [phaseNext_statusOut rst phase, if_pos (by simpa using sent), phase] at same
      simp at same
    simp [st.tgt, statusSentNext, phase, unsent]
  | messageOut =>
    have unsent : s.tgt.messageSent = false := by
      by_contra sent
      simp [phaseNext, rst, phase, sent] at same
    simp [st.tgt, messageSentNext, phase, unsent]

include sound st in
theorem Sound.pipe_step (rst : s.inp.rst = false)
    (after : counted P s'.tgt = true) : s'.acked = s'.tgt.consumed + inPipe s'.tgt := by
  by_cases same : phaseNext P s.inp s.tgt = s.tgt.phase
  · have cnt := sound.counted_same st rst same after
    have pipe := sound.pipe cnt
    rw [st.acked_same same, sound.consumed_same st rst same cnt, st.inPipe_next]
    simp only [inPipe] at pipe
    cases old : s.tgt.oldAck <;> cases ack : s.inp.ack <;> simp [rises, old, ack] at pipe ⊢ <;>
      omega
  · rw [st.acked_new same, st.consumed_new same, Nat.zero_add]

include sound st in
/-- Inside a phase the number of bytes on offer does not fall below the
acknowledges given. -/
theorem Sound.within_same
    (same : phaseNext P s.inp s.tgt = s.tgt.phase) (cnt : counted P s.tgt = true) :
    s.acked + s.rises.toNat ≤ s'.tgt.offered P := by
  have phase' : s'.tgt.phase = s.tgt.phase := by rw [st.tgt, step_phase, same]
  have active : s.tgt.phase ≠ .idle := by
    intro idle
    simp [counted, transfers, idle] at cnt
  have room : s.acked + s.rises.toNat ≤ s.tgt.offered P := by
    cases rise : s.rises with
    | false => simpa using sound.within cnt
    | true =>
      have := (st.initiator.offered active rise).2
      simp
      omega
  cases phase : s.tgt.phase with
  | idle => exact absurd phase active
  | tb | cmdIn => simp [counted, transfers, phase] at cnt
  | statusOut | messageOut => simpa [offered, phase', phase] using room
  | dataOut | dataIn =>
    have moving : transfers P s.tgt = true := by simpa [counted, phase] using cnt
    have len := dataLen_step (P := P) (i := s.inp) (s := s.tgt) (by simp [phase])
      (transfers_iff.mp moving).2.1
    rw [← st.tgt] at len
    simpa [offered, phase', phase, len] using room

include sound st in
theorem Sound.within_step (rst : s.inp.rst = false)
    (after : counted P s'.tgt = true) : s'.acked ≤ s'.tgt.offered P := by
  by_cases same : phaseNext P s.inp s.tgt = s.tgt.phase
  · rw [st.acked_same same]
    exact sound.within_same st same (sound.counted_same st rst same after)
  · rw [st.acked_new same]
    refine st.inPipe_le.trans ?_
    simp only [counted, Bool.or_eq_true, beq_iff_eq] at after
    rcases after with (h | h) | moving
    · simp [offered, h]
    · simp [offered, h]
    · obtain ⟨phase, -, len⟩ := transfers_iff.mp moving
      rcases phase with h | h | h <;> simp [offered, h] <;> omega

include sound st in
/-- The bytes of a block transfer are counted up to its length. -/
theorem Sound.complete_step (rst : s.inp.rst = false)
    (phase' : s'.tgt.phase = .dataOut ∨ s'.tgt.phase = .dataIn)
    (block' : s'.tgt.cmd.blockCmd = true) (len' : dataLen P s'.tgt ≠ 0) :
    if s'.tgt.dataComplete then s'.tgt.dataCnt = dataLen P s'.tgt
    else s'.tgt.dataCnt < dataLen P s'.tgt := by
  have moving' : transfers P s'.tgt = true := transfers_iff.mpr ⟨by tauto, block', len'⟩
  rcases sound.transfers_origin st rst moving' with ⟨cpl, -⟩ | moving
  · have outside : transferPhase s.tgt = false := by simp [transferPhase, cmdCpl_phase cpl]
    have count : s'.tgt.dataCnt = 0 ∧ s'.tgt.dataComplete = false := by
      simp [st.tgt, dataCntNext, dataCompleteNext, outside]
    simp only [count.1, count.2]
    simpa using Nat.pos_of_ne_zero len'
  · obtain ⟨phase, block, len⟩ := transfers_iff.mp moving
    have data : s.tgt.phase = .dataOut ∨ s.tgt.phase = .dataIn := by
      rcases phase with h | h | h
      · exact .inl h
      · exact .inr h
      · rw [st.tgt, step_phase, phaseNext_statusOut rst h] at phase'
        split at phase' <;> simp at phase'
    have same : phaseNext P s.inp s.tgt = s.tgt.phase := by
      by_contra new
      have outside := from_outside (by simpa [st.tgt] using phase') new
      rcases data with h | h <;> simp [transferPhase, h] at outside
    have running : s.tgt.dataComplete = false := by
      have done : dataDone P s.tgt = false := by
        by_contra done
        rcases data with h | h
        · rw [phaseNext_dataOut rst h, if_pos (by simpa using done), h] at same
          simp at same
        · rw [phaseNext_dataIn rst h, if_pos (by simpa using done), h] at same
          split at same <;> simp at same
      rw [dataDone_block block] at done
      simpa [len] using done
    have below := sound.complete data block len
    have notCmd : s.tgt.phase ≠ .cmdIn := by rcases data with h | h <;> simp [h]
    have len'' := dataLen_step (P := P) (i := s.inp) notCmd block
    rw [← st.tgt] at len''
    have small : dataLen P s.tgt < 2 ^ 32 := by
      have := sound.tlen
      rw [dataLen_block block]
      omega
    have transfer : transferPhase s.tgt = true := by rcases data with h | h <;> simp [transferPhase, h]
    rw [len'']
    simp only [running, Bool.false_eq_true, if_false] at below
    have wrap : (dataLen P s.tgt + 2 ^ 32 - 1) % 2 ^ 32 = dataLen P s.tgt - 1 := by omega
    cases adv : s.tgt.stbAdv with
    | false => simpa [st.tgt, dataCntNext, dataCompleteNext, transfer, adv, running] using below
    | true =>
      have count : s'.tgt.dataCnt = s.tgt.dataCnt + 1 := by
        simp only [st.tgt, step_dataCnt, dataCntNext, transfer, adv, running]
        simp
        omega
      have last : s'.tgt.dataComplete = (dataLen P s.tgt - 1 == s.tgt.dataCnt) := by
        simp only [st.tgt, step_dataComplete, dataCompleteNext, transfer, adv, wrap]
        simp
      rw [count, last]
      split <;> rename_i h <;> simp at h <;> omega

include sound st in
/-- A block transfer enters STATUS with all its bytes acknowledged and, for a
WRITE, with its last flush requested. -/
theorem Sound.enter_status (rst : s.inp.rst = false) (moving : transfers P s.tgt = true)
    (data : s.tgt.phase = .dataOut ∨ s.tgt.phase = .dataIn) (next : s'.tgt.phase = .statusOut) :
    s'.acked = 0 ∧ s.tgt.dataCnt = dataLen P s.tgt := by
  obtain ⟨-, block, len⟩ := transfers_iff.mp moving
  have next' : phaseNext P s.inp s.tgt = .statusOut := by rw [← next, st.tgt, step_phase]
  have done : dataDone P s.tgt = true := by
    by_contra running
    rcases data with h | h
    · rw [phaseNext_dataOut rst h, if_neg (by simpa using running)] at next'
      simp at next'
    · rw [phaseNext_dataIn rst h, if_neg (by simpa using running)] at next'
      simp at next'
  rw [dataDone_block block] at done
  have finished : s.tgt.dataComplete = true := by simpa [len] using done
  have all := sound.complete data block len
  simp only [finished, if_true] at all
  refine ⟨?_, all⟩
  have full : s.tgt.consumed = s.tgt.offered P := by
    rcases data with h | h <;> simpa [consumed, offered, h] using all
  obtain ⟨empty, ack⟩ := sound.drained (by simp [counted, moving]) full st
  have new : phaseNext P s.inp s.tgt ≠ s.tgt.phase := by
    rw [next']
    rcases data with h | h <;> simp [h]
  have old : s.tgt.oldAck = false := by
    cases h : s.tgt.oldAck with
    | false => rfl
    | true => simp [inPipe, h] at empty
  rw [st.acked_new new, st.inPipe_next, ack, old]
  rfl

include sound in
/-- While the status byte is on offer, nothing more is requested. -/
theorem Sound.status_noFlush (phase : s.tgt.phase = .statusOut) :
    s.tgt.oldWr = true ∨ reqWr P s.tgt = false := by
  cases h : reqWr P s.tgt with
  | false => exact .inr rfl
  | true => exact .inl (sound.statusEdge phase h)

theorem noFetch_of_phase (h : s.tgt.phase ≠ .dataOut) : fetchStart P s.inp s.tgt = false := by
  by_contra start
  exact h (fetchStart_needs (by simpa using start)).1

include sound st in
theorem Sound.quiet_step (rst : s.inp.rst = false)
    (after : transfers P s'.tgt = false) : Quiet s' := by
  cases moving : transfers P s.tgt with
  | false =>
    refine (sound.quiet moving).step st ?_ (.inr ?_)
    · by_contra start
      rw [transfers_of_fetchStart (by simpa using start)] at moving
      simp at moving
    · by_contra flush
      rw [transfers_of_reqWr (by simpa using flush)] at moving
      simp at moving
  | true =>
    obtain ⟨phase, block, len⟩ := transfers_iff.mp moving
    have notCmd : s.tgt.phase ≠ .cmdIn := by rcases phase with h | h | h <;> simp [h]
    have leaves : ¬ (s'.tgt.phase = .dataOut ∨ s'.tgt.phase = .dataIn ∨
        s'.tgt.phase = .statusOut) := by
      intro stays
      have : transfers P s'.tgt = true := by
        refine transfers_iff.mpr ⟨stays, ?_, ?_⟩ <;> rw [st.tgt]
        · rw [step_cmd, cmdNext_eq notCmd]; exact block
        · rw [dataLen_step notCmd block]; exact len
      simp [this] at after
    have next : s'.tgt.phase = phaseNext P s.inp s.tgt := by rw [st.tgt, step_phase]
    have noSend := (Cdb.blockCmd_noToolbox P s.tgt.tbReady block).2.1
    rcases phase with h | h | h
    · rw [next, phaseNext_dataOut rst h] at leaves
      split at leaves <;> simp at leaves
    · rw [next, phaseNext_dataIn rst h] at leaves
      cases done : dataDone P s.tgt <;> simp [done, noSend] at leaves
    · have sent : s.tgt.statusSent = true := by
        by_contra unsent
        rw [next, phaseNext_statusOut rst h, if_neg unsent] at leaves
        simp at leaves
      have pipe := sound.pipe (by simp [counted, h])
      have acked : 0 < s.acked := by
        simp [consumed, h, sent] at pipe
        omega
      have quiet := sound.statusQuiet h (sound.statusGranted h moving acked)
      exact quiet.step st (noFetch_of_phase (by simp [h])) (sound.status_noFlush h)

include sound st in
/-- An offered status byte means that the channel is at rest. -/
theorem Sound.statusQuiet_step (phase' : s'.tgt.phase = .statusOut)
    (granted : 0 < s'.granted) : Quiet s' := by
  have next : phaseNext P s.inp s.tgt = .statusOut := by rw [← phase', st.tgt, step_phase]
  have same : phaseNext P s.inp s.tgt = s.tgt.phase := by
    by_contra new
    rw [st.granted, grantedNext, if_neg new] at granted
    simp at granted
  have phase : s.tgt.phase = .statusOut := by rw [← same, next]
  have noFetch : fetchStart P s.inp s.tgt = false := noFetch_of_phase (by simp [phase])
  by_cases before : 0 < s.granted
  · exact (sound.statusQuiet phase before).step st noFetch (sound.status_noFlush phase)
  -- the status byte is offered in this very clock
  rw [st.granted, grantedNext, if_pos same] at granted
  have req : req P s.inp s.tgt = true := by
    by_contra none
    rw [if_neg none] at granted
    exact before granted
  have ready : ioBusy s.inp s.tgt = false := by
    simp [Target.req] at req
    tauto
  simp [ioBusy, phase, TargetIn.dataAck, st.ca] at ready
  obtain ⟨⟨⟨rd, wr⟩, pending⟩, ack⟩ := ready
  have noAck : s.hps.ack = false := by
    have wired := st.wired.ioAck
    simp [ack, bsy, phase] at wired
    exact wired
  have idle : s.hps = .idle := by
    cases chan : s.hps with
    | idle => rfl
    | latched write lba =>
      have := sound.requested write lba chan
      cases write <;> simp [rd, wr] at this
    | reading | writing => simp [chan, HpsChan.ack] at noAck
  have edge : (!s.tgt.oldWr && reqWr P s.tgt) = false := by
    rcases sound.status_noFlush phase with h | h <;> simp [h]
  refine ⟨?_, ?_, ?_, ?_, ?_, st.hps_idle idle rd wr⟩ <;> rw [st.tgt]
  · simp [ioRdDNext, rd, noFetch]
  · simp [ioWrNext, wr, pending]
  · simp [wrPendingNext, pending, edge]
  · -- a fetch still counted as busy has just been acknowledged
    cases old : s.tgt.oldIoAck with
    | true => simp [rdBusyNext, ioAckFall, old, ack]
    | false =>
      have free : s.tgt.rdBusy = false := by
        by_contra busy
        have := sound.busy (by simpa using busy)
        simp [rd, noAck, old] at this
      simp [rdBusyNext, free, noFetch]
  · simpa using ack

include sound st in
theorem Sound.statusGranted_step (rst : s.inp.rst = false) (disk : P.cdrom = false)
    (phase' : s'.tgt.phase = .statusOut) (moving' : transfers P s'.tgt = true)
    (acked : 0 < s'.acked) : 0 < s'.granted := by
  have next : phaseNext P s.inp s.tgt = .statusOut := by rw [← phase', st.tgt, step_phase]
  by_cases same : phaseNext P s.inp s.tgt = s.tgt.phase
  · have phase : s.tgt.phase = .statusOut := by rw [← same, next]
    have moving : transfers P s.tgt = true := by
      rcases sound.transfers_origin st rst moving' with ⟨cpl, -⟩ | h
      · simp [cmdCpl_phase cpl] at phase
      · exact h
    have before : 0 < s.granted := by
      rw [st.acked_same same] at acked
      cases rise : s.rises with
      | false => exact sound.statusGranted phase moving (by simpa [rise] using acked)
      | true =>
        have := (st.initiator.offered (by simp [phase]) rise).1
        omega
    rw [st.granted, grantedNext, if_pos same]
    split <;> omega
  · rcases sound.transfers_origin st rst moving' with ⟨cpl, block⟩ | moving
    · rw [phaseNext_block disk rst cpl block] at next
      split at next <;> simp at next
    · have data : s.tgt.phase = .dataOut ∨ s.tgt.phase = .dataIn := by
        obtain ⟨h | h | h, -⟩ := transfers_iff.mp moving
        · exact .inl h
        · exact .inr h
        · rw [h] at same
          exact absurd next same
      have := (sound.enter_status st rst moving data phase').1
      omega

include sound st in
theorem Sound.statusEdge_step (rst : s.inp.rst = false) (disk : P.cdrom = false)
    (phase' : s'.tgt.phase = .statusOut) (flush : reqWr P s'.tgt = true) :
    s'.tgt.oldWr = true := by
  have next : phaseNext P s.inp s.tgt = .statusOut := by rw [← phase', st.tgt, step_phase]
  obtain ⟨-, write', -⟩ := reqWr_needs flush
  have moving' := transfers_of_reqWr flush
  have old : s'.tgt.oldWr = reqWr P s.tgt := by simp [st.tgt, rst]
  rw [old]
  rcases sound.transfers_origin st rst moving' with ⟨cpl, block⟩ | moving
  · rw [phaseNext_block disk rst cpl block] at next
    split at next <;> simp at next
  · obtain ⟨phase, block, len⟩ := transfers_iff.mp moving
    have notCmd : s.tgt.phase ≠ .cmdIn := by rcases phase with h | h | h <;> simp [h]
    rw [st.tgt, step_cmd, cmdNext_eq notCmd] at write'
    rcases phase with h | h | h
    · rw [sound.notWrite h] at write'
      simp at write'
    · have all := (sound.enter_status st rst moving (.inr h) phase').2
      rw [dataLen_block block] at all len
      simp [reqWr, h, write', dataLen_block block, all]
      omega
    · simp [reqWr, h, write', len]

include sound st in
theorem Sound.kind_step (rst : s.inp.rst = false) (disk : P.cdrom = false) :
    (s'.tgt.phase = .dataOut → s'.tgt.cmd.cmdWrite = false) ∧
      (s'.tgt.phase = .dataIn → s'.tgt.cmd.cmdRead = false) ∧
      (s'.tgt.phase = .tb → s'.tgt.cmd.blockCmd = false) := by
  have next : s'.tgt.phase = phaseNext P s.inp s.tgt := by rw [st.tgt, step_phase]
  have cmd' : s'.tgt.cmd = cmdNext s.inp s.tgt := by rw [st.tgt, step_cmd]
  cases block : s'.tgt.cmd.blockCmd with
  | false =>
    have none : s'.tgt.cmd.cmdRead = false ∧ s'.tgt.cmd.cmdWrite = false := by
      simpa [Cdb.blockCmd] using block
    exact ⟨fun _ => none.2, fun _ => none.1, fun _ => rfl⟩
  | true =>
    by_cases same : phaseNext P s.inp s.tgt = s.tgt.phase
    · by_cases cmdIn : s.tgt.phase = .cmdIn
      · simp [next, same, cmdIn]
      · rw [cmdNext_eq cmdIn] at cmd'
        rw [cmd'] at block
        rw [next, same, cmd']
        refine ⟨sound.notWrite, sound.notRead, fun tb => ?_⟩
        have := sound.notBlock tb
        simp [block] at this
    · rcases phaseNext_edge same with h | ⟨-, h⟩ | ⟨phase, cpl, -⟩ | ⟨phase, -⟩ | ⟨phase, -, h⟩ |
        ⟨-, -, h⟩
      · simp [next, h]
      · simp [next, h]
      · rw [sound.paced.cmdNext_cpl st.toStep cpl] at cmd'
        rw [cmd'] at block
        rw [next, phaseNext_block disk rst cpl block, cmd']
        cases read : s.tgt.cmd.cmdRead with
        | true => simp [Cdb.cmdWrite_of_read read]
        | false => simp
      · rw [cmd', cmdNext_eq (by simp [phase]), sound.notBlock phase] at block
        simp at block
      · have notCmd : s.tgt.phase ≠ .cmdIn := by rcases phase with p | p <;> simp [p]
        rw [cmd', cmdNext_eq notCmd] at block
        have noSend := (Cdb.blockCmd_noToolbox P s.tgt.tbReady block).2.1
        have status : phaseNext P s.inp s.tgt = .statusOut := by
          rcases phase with p | p
          · rw [phaseNext_dataOut rst p] at h ⊢
            split at h <;> simp_all
          · rw [phaseNext_dataIn rst p] at h ⊢
            split at h <;> simp_all
        simp [next, status]
      · simp [next, h]

include sound st in
/-- A latched request is still raised. -/
theorem Sound.requested_step (rst : s.inp.rst = false) (write : Bool) (lba : Nat)
    (chan' : s'.hps = .latched write lba) :
    if write then s'.tgt.ioWr = true else s'.tgt.ioRdD = true := by
  have raised : s.hps.ack = false ∧ if write then s.tgt.ioWr = true else s.tgt.ioRdD = true := by
    have allowed := st.allowed
    rw [st.hps] at chan'
    cases chan : s.hps with
    | idle =>
      cases move : s.move with
      | latch w =>
        simp only [chan, move, HpsChan.next, HpsChan.latched.injEq] at chan'
        simp only [chan, move, HpsChan.allows, hpsReq, ioRd, st.ca, chan'.1] at allowed
        refine ⟨rfl, ?_⟩
        cases write <;> simpa using allowed
      | _ => simp [chan, move, HpsChan.next] at chan'
    | latched w l =>
      have held := sound.requested w l chan
      have kept : w = write := by
        cases move : s.move <;> simp [chan, move, HpsChan.next] at chan'
        all_goals first
          | exact chan'.1
          | (split at chan' <;> simp at chan')
      rw [← kept]
      exact ⟨rfl, held⟩
    | reading | writing =>
      cases move : s.move <;> simp [chan, move, HpsChan.next] at chan'
  have ack : s.inp.ioAck = false := by simp [st.wired.ioAck, raised.1]
  cases write with
  | false =>
    have up : s.tgt.ioRdD = true := by simpa using raised.2
    simp [st.tgt, ioRdDNext, rst, ack, up]
  | true =>
    have up : s.tgt.ioWr = true := by simpa using raised.2
    simp [st.tgt, ioWrNext, rst, ack, up]

include sound st in
/-- A fetch in progress is requested, being streamed, or just acknowledged. -/
theorem Sound.busy_step (rst : s.inp.rst = false) (busy' : s'.tgt.rdBusy = true) :
    s'.tgt.ioRdD = true ∨ s'.hps.ack = true ∨ s'.tgt.oldIoAck = true := by
  have next : rdBusyNext P s.inp s.tgt = true := by rw [← busy', st.tgt, step_rdBusy]
  simp only [rdBusyNext, rst, Bool.false_eq_true, if_false] at next
  split at next
  · simp at next
  rename_i noFall
  cases ack : s.inp.ioAck with
  | true => exact .inr (.inr (by simp [st.tgt, ack]))
  | false =>
    left
    have still : s.tgt.ioRdD = true ∨ fetchStart P s.inp s.tgt = true := by
      simp only [Bool.or_eq_true] at next
      rcases next with busy | start
      · rcases sound.busy busy with h | h | h
        · exact .inl h
        · -- the session's acknowledge is hidden only while the target is idle
          have wired := st.wired.ioAck
          rw [ack, h] at wired
          have idle : s.tgt.phase = .idle := by simpa [bsy] using wired
          have quiet := sound.quiet (by simp [transfers, idle])
          simp [quiet.rdBusy] at busy
        · simp [ioAckFall, h, ack] at noFall
      · exact .inr start
    rcases still with h | h <;> simp [st.tgt, ioRdDNext, rst, ack, h]

/-- One clock without a bus reset. -/
theorem Sound.step (sound : Sound P s) (st : Step P medium s s') (rst : s.inp.rst = false)
    (disk : P.cdrom = false) : Sound P s' where
  paced := sound.paced.step st.toStep
  pipe := sound.pipe_step st rst
  within := sound.within_step st rst
  tlen := by
    rw [st.tgt, step_tlen, tlenNext]
    split
    · exact Cdb.tlenLatch_lt _
    · exact sound.tlen
  notWrite := (sound.kind_step st rst disk).1
  notRead := (sound.kind_step st rst disk).2.1
  notBlock := (sound.kind_step st rst disk).2.2
  complete := sound.complete_step st rst
  quiet := sound.quiet_step st rst
  statusQuiet := sound.statusQuiet_step st
  statusGranted := sound.statusGranted_step st rst disk
  statusEdge := sound.statusEdge_step st rst disk
  requested := sound.requested_step st rst
  busy := sound.busy_step st rst

end

/-- Every clock of a run that starts at power-up and has seen no bus reset is
sound. -/
theorem sound_of_run (disk : P.cdrom = false) (r : Run (Step P medium)) (boot : PowerUp P (r.state 0))
    {t : Nat} (noReset : ∀ u, u < t → (r.state u).inp.rst = false) : Sound P (r.state t) := by
  induction t with
  | zero => exact boot.sound
  | succ t ih =>
    have before := ih (fun u hu => noReset u (by omega))
    exact before.step (r.step t) (noReset t (by omega)) disk

/-- Whatever commands ran before, the channel is at rest when a command
completes. -/
theorem Sound.quiet_at_command (sound : Sound P s) (cpl : cmdCpl P s.tgt = true) : Quiet s :=
  sound.quiet (by simp [transfers, cmdCpl_phase cpl])

/-! ### After a bus reset

A reset takes the target to the bus-free phase at once, but a session that the HPS has
begun goes on, and its words and its acknowledge reach the command after it. -/

/-- No fetch is outstanding and no session of the slot is open. -/
structure Settled (s : Disk) : Prop where
  hps : s.hps = .idle
  oldIoAck : s.tgt.oldIoAck = false
  rdBusy : s.tgt.rdBusy = false

/-- The command phase keeps its rules across resets. -/
theorem paced_of_run (r : Run (Step P medium)) (boot : PowerUp P (r.state 0)) (t : Nat) :
    (r.state t).toBus.Paced ∧ (r.state t).tgt.tlen < 65536 := by
  induction t with
  | zero =>
    have tlen : (r.state 0).tgt.tlen = 0 := by rw [boot.tgt]; rfl
    exact ⟨paced_powerUp boot.tgt, by omega⟩
  | succ t ih =>
    obtain ⟨paced, tlen⟩ := ih
    refine ⟨paced.step (r.step t).toStep, ?_⟩
    rw [(r.step t).tgt, step_tlen, tlenNext]
    split
    · exact Cdb.tlenLatch_lt _
    · exact tlen

/-- A command that completes with the channel settled finds it at rest. -/
theorem Settled.sound (settled : Settled s) (paced : s.toBus.Paced) (tlen : s.tgt.tlen < 65536)
    (st : Step P medium s s') (cpl : cmdCpl P s.tgt = true) : Sound P s := by
  have phase := cmdCpl_phase cpl
  obtain ⟨-, -, rd, wr, pending⟩ := paced.drained st.toStep cpl
  have notCounted : counted P s.tgt = false := by simp [counted, transfers, phase]
  exact
    { paced := paced
      pipe := by simp [notCounted]
      within := by simp [notCounted]
      tlen := tlen
      notWrite := by simp [phase]
      notRead := by simp [phase]
      notBlock := by simp [phase]
      complete := by simp [phase]
      quiet := fun _ => ⟨rd, wr, pending, settled.rdBusy, settled.oldIoAck, settled.hps⟩
      statusQuiet := by simp [phase]
      statusGranted := by simp [phase]
      statusEdge := by simp [phase]
      requested := by simp [settled.hps]
      busy := by simp [settled.rdBusy] }

/-- From such a command on, every clock is sound until the next reset. -/
theorem sound_from (disk : P.cdrom = false) (r : Run (Step P medium)) (boot : PowerUp P (r.state 0))
    {start t : Nat} (cpl : cmdCpl P (r.state start).tgt = true) (settled : Settled (r.state start))
    (later : start ≤ t) (noReset : ∀ u, start ≤ u → u < t → (r.state u).inp.rst = false) :
    Sound P (r.state t) := by
  induction t, later using Nat.le_induction with
  | base =>
    obtain ⟨paced, tlen⟩ := paced_of_run r boot start
    exact settled.sound paced tlen (r.step start) cpl
  | succ t later ih =>
    have before := ih fun u from_ below => noReset u from_ (by omega)
    exact before.step (r.step t) (noReset t later (by omega)) disk

/-- Only a bus reset can leave the channel unsettled. -/
theorem settled_of_noReset (disk : P.cdrom = false) (r : Run (Step P medium))
    (boot : PowerUp P (r.state 0)) {start : Nat} (cpl : cmdCpl P (r.state start).tgt = true)
    (noReset : ∀ u, u < start → (r.state u).inp.rst = false) : Settled (r.state start) := by
  have quiet := (sound_of_run disk r boot noReset).quiet_at_command cpl
  exact ⟨quiet.hps, quiet.oldIoAck, quiet.rdBusy⟩

end Disk

end MacIIvi
