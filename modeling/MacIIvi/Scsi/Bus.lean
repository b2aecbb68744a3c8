import MacIIvi.Scsi.Phases

/-!
# A target and its initiator

The initiator is any device that acknowledges no byte it was not offered; its
pace is free. Two counters record what it has done in the current phase. The
command phase is then the same for every target: the bytes acknowledged are the
bytes counted, and a byte is taken only after the request engine came to rest.
-/

namespace MacIIvi

/-- A target, its inputs in this clock and the ledger of its initiator: `acked`
counts the acknowledges given in the current phase, `granted` the bytes REQ has
vouched for in it: at count `n` the initiator may take bytes `n .. n + 3` in one
access. -/
structure Bus where
  tgt : Target
  inp : TargetIn
  acked : Nat
  granted : Nat

namespace Target

/-- Bytes of the current phase the target has counted. -/
def consumed (s : Target) : Nat :=
  match s.phase with
  | .cmdIn => s.cmdCnt
  | .dataOut | .dataIn => s.dataCnt
  | .statusOut => s.statusSent.toNat
  | .messageOut => s.messageSent.toNat
  | .idle | .tb => 0

/-- Length of the command the opcode announces. -/
def cdbLen (s : Target) : Nat :=
  if s.cmd.cmdGroup = 0 then 6 else if s.cmd.cmdGroup = 5 then 12 else 10

/-- Bytes the current phase has to offer. -/
def offered (P : Params) (s : Target) : Nat :=
  match s.phase with
  | .cmdIn => cdbLen s
  | .dataOut | .dataIn => dataLen P s
  | .statusOut | .messageOut => 1
  | .idle | .tb => 0

/-- Acknowledges still in the target's edge pipeline. -/
def inPipe (s : Target) : Nat := s.oldAck.toNat + s.stbAdv.toNat

end Target

namespace Bus

open Target

variable (P : Params)

/-- ACK rises in this clock. -/
def rises (s : Bus) : Bool := s.inp.ack && !s.tgt.oldAck

def ackedNext (s : Bus) : Nat :=
  if s.tgt.phaseNext P s.inp = s.tgt.phase then s.acked + s.rises.toNat
  else s.inp.ack.toNat + (s.tgt.oldAck && !s.inp.ack).toNat

def grantedNext (s : Bus) : Nat :=
  if s.tgt.phaseNext P s.inp = s.tgt.phase then
    if s.tgt.req P s.inp then max s.granted (s.tgt.consumed + 4) else s.granted
  else 0

/-- An initiator acknowledges only bytes that REQ has offered and selects with
ACK released. Acknowledges seen while idle belong to another target. -/
structure Initiator (s : Bus) : Prop where
  offered : s.tgt.phase ≠ .idle → s.rises = true →
    s.acked < s.granted ∧ s.acked < s.tgt.offered P
  released : s.tgt.phase = .idle → s.inp.sel = true → s.inp.ack = false ∧ s.tgt.oldAck = false

/-- One clock of the target under a well-behaved initiator. -/
structure Step (s s' : Bus) : Prop where
  initiator : Initiator P s
  tgt : s'.tgt = s.tgt.step P s.inp
  acked : s'.acked = s.ackedNext P
  granted : s'.granted = s.grantedNext P

variable {P} {s s' : Bus}

theorem Step.phase (st : Step P s s') : s'.tgt.phase = phaseNext P s.inp s.tgt := by
  rw [st.tgt, step_phase]

/-- A bus reset leads to the bus-free phase. -/
theorem Step.noReset (st : Step P s s') (busy : s'.tgt.phase ≠ .idle) : s.inp.rst = false := by
  cases rst : s.inp.rst with
  | false => rfl
  | true => simp [st.phase, phaseNext, rst] at busy

theorem Step.inPipe_next (st : Step P s s') :
    inPipe s'.tgt = s.inp.ack.toNat + (s.tgt.oldAck && !s.inp.ack).toNat := by
  simp [inPipe, st.tgt]

theorem Step.inPipe_le (st : Step P s s') : inPipe s'.tgt ≤ 1 := by
  rw [st.inPipe_next]
  cases s.inp.ack <;> cases s.tgt.oldAck <;> simp

theorem Step.acked_new (st : Step P s s') (new : phaseNext P s.inp s.tgt ≠ s.tgt.phase) :
    s'.acked = inPipe s'.tgt := by
  rw [st.acked, st.inPipe_next, ackedNext, if_neg new]

theorem Step.acked_same (st : Step P s s') (same : phaseNext P s.inp s.tgt = s.tgt.phase) :
    s'.acked = s.acked + s.rises.toNat := by
  rw [st.acked, ackedNext, if_pos same]

/-! ### The command phase -/

/-- The command phase of any target under a well-behaved initiator, across bus
resets. -/
structure Paced (s : Bus) : Prop where
  advance : s.tgt.stbAdv = true → s.tgt.oldAck = false
  strobe : s.tgt.stbAck = true → s.tgt.oldAck = true
  pipe : s.tgt.phase = .cmdIn → s.acked = s.tgt.cmdCnt + inPipe s.tgt
  within : s.tgt.phase = .cmdIn → s.acked ≤ cdbLen s.tgt
  vouched : s.tgt.phase = .cmdIn → 0 < s.acked → 0 < s.granted
  calm : s.tgt.phase = .cmdIn → 0 < s.granted →
    s.tgt.ioRdD = false ∧ s.tgt.ioWr = false ∧ s.tgt.wrPending = false

theorem Step.cmdIn_origin (st : Step P s s') (phase' : s'.tgt.phase = .cmdIn) :
    s.tgt.phase = .cmdIn ∨ (s.tgt.phase = .idle ∧ phaseNext P s.inp s.tgt ≠ s.tgt.phase) := by
  rw [st.phase] at phase'
  by_cases same : phaseNext P s.inp s.tgt = s.tgt.phase
  · exact .inl (by rw [← same, phase'])
  · exact .inr ⟨from_idle phase' same, same⟩

/-- The command phase starts with ACK released and nothing counted. -/
theorem Step.cmdIn_enter (st : Step P s s') (phase' : s'.tgt.phase = .cmdIn)
    (idle : s.tgt.phase = .idle) : s'.acked = 0 ∧ inPipe s'.tgt = 0 ∧ s'.tgt.cmdCnt = 0 := by
  have new : phaseNext P s.inp s.tgt ≠ s.tgt.phase := by rw [← st.phase, phase', idle]; simp
  have sel : s.inp.sel = true := by
    rw [st.phase] at phase'
    by_contra none
    simp [phaseNext, idle, selected, none] at phase'
  obtain ⟨ack, old⟩ := st.initiator.released idle sel
  have empty : inPipe s'.tgt = 0 := by rw [st.inPipe_next, ack, old]; rfl
  exact ⟨by rw [st.acked_new new, empty], empty, by simp [st.tgt, cmdCntNext, idle]⟩

/-- The CDB length cannot change once its first byte has been strobed in. -/
theorem Paced.within_same (paced : Paced s) (st : Step P s s') (phase : s.tgt.phase = .cmdIn) :
    s.acked + s.rises.toNat ≤ cdbLen s'.tgt := by
  have pipe := paced.pipe phase
  have room : s.acked + s.rises.toNat ≤ cdbLen s.tgt := by
    cases rise : s.rises with
    | false => simpa using paced.within phase
    | true =>
      have := (st.initiator.offered (by simp [phase]) rise).2
      simp only [offered, phase] at this
      simp only [Bool.toNat_true]
      omega
  by_cases first : s.tgt.cmdCnt = 0 ∧ s.tgt.stbAck = true
  · have old := paced.strobe first.2
    have noAdv : s.tgt.stbAdv = false := by
      by_contra adv
      have := paced.advance (by simpa using adv)
      simp [old] at this
    have one : s.acked + s.rises.toNat = 1 := by
      simp [pipe, first.1, inPipe, old, noAdv, rises]
    rw [one]
    unfold cdbLen
    split
    · omega
    · split <;> omega
  · have byte0 : cmdNext s.inp s.tgt 0 = s.tgt.cmd 0 := by
      unfold cmdNext
      split
      · rename_i h
        simp at h
        rw [Function.update_of_ne]
        intro zero
        exact first ⟨zero.symm, h.1.1⟩
      · rfl
    have same : cdbLen s'.tgt = cdbLen s.tgt := by
      unfold cdbLen
      rw [st.tgt, step_cmd]
      unfold Cdb.cmdGroup
      rw [byte0]
    rwa [same]

theorem Paced.pipe_same (paced : Paced s) (st : Step P s s') (phase : s.tgt.phase = .cmdIn)
    (same : phaseNext P s.inp s.tgt = s.tgt.phase) :
    s'.acked = s'.tgt.cmdCnt + inPipe s'.tgt := by
  have pipe := paced.pipe phase
  have within := paced.within phase
  have short : cdbLen s.tgt ≤ 12 := by unfold cdbLen; split <;> [omega; split <;> omega]
  have count : s'.tgt.cmdCnt = s.tgt.cmdCnt + s.tgt.stbAdv.toNat := by
    have notFull : s.tgt.cmdCnt ≠ 15 := by omega
    cases adv : s.tgt.stbAdv <;> simp [st.tgt, cmdCntNext, phase, adv, notFull]
  rw [st.acked_same same, count, st.inPipe_next]
  simp only [inPipe] at pipe
  cases old : s.tgt.oldAck <;> cases ack : s.inp.ack <;> simp [rises, old, ack] at pipe ⊢ <;>
    omega

/-- Bytes are vouched for now or have been before. -/
theorem Step.vouched (st : Step P s s') (same : phaseNext P s.inp s.tgt = s.tgt.phase)
    (granted : 0 < s'.granted) : 0 < s.granted ∨ Target.req P s.inp s.tgt = true := by
  rw [st.granted, grantedNext, if_pos same] at granted
  by_cases req : Target.req P s.inp s.tgt = true
  · exact .inr req
  · rw [if_neg req] at granted
    exact .inl granted

/-- In the command phase REQ is raised by a resting request engine only. -/
theorem req_calm (phase : s.tgt.phase = .cmdIn) (req : Target.req P s.inp s.tgt = true) :
    (s.tgt.ioRdD = false ∧ s.tgt.ioWr = false ∧ s.tgt.wrPending = false) ∧
      s.inp.dataAck = false := by
  simp [Target.req, ioBusy, phase] at req
  tauto

/-- In the command phase the engine stays at rest. -/
theorem Paced.calm_same (paced : Paced s) (st : Step P s s') (phase : s.tgt.phase = .cmdIn)
    (same : phaseNext P s.inp s.tgt = s.tgt.phase) (granted : 0 < s'.granted) :
    s'.tgt.ioRdD = false ∧ s'.tgt.ioWr = false ∧ s'.tgt.wrPending = false := by
  have before : s.tgt.ioRdD = false ∧ s.tgt.ioWr = false ∧ s.tgt.wrPending = false := by
    rcases st.vouched same granted with given | req
    · exact paced.calm phase given
    · exact (req_calm phase req).1
  obtain ⟨rd, wr, pending⟩ := before
  have noFetch : fetchStart P s.inp s.tgt = false := by
    by_contra start
    have := (fetchStart_needs (by simpa using start)).1
    simp [phase] at this
  have noFlush : reqWr P s.tgt = false := by
    by_contra flush
    have := (reqWr_needs (by simpa using flush)).1
    simp [phase] at this
  refine ⟨?_, ?_, ?_⟩ <;> rw [st.tgt]
  · simp [ioRdDNext, rd, noFetch]
  · simp [ioWrNext, wr, pending]
  · simp [wrPendingNext, pending, noFlush]

/-- One clock, whatever the inputs are. -/
theorem Paced.step (paced : Paced s) (st : Step P s s') : Paced s' := by
  refine
    { advance := ?_, strobe := ?_, pipe := ?_, within := ?_, vouched := ?_, calm := ?_ }
  · intro adv
    simp only [st.tgt, step_stbAdv, step_oldAck, Bool.and_eq_true, Bool.not_eq_true'] at adv ⊢
    exact adv.2
  · intro strobe
    simp only [st.tgt, step_stbAck, step_oldAck, Bool.and_eq_true] at strobe ⊢
    exact strobe.2
  · intro phase'
    rcases st.cmdIn_origin phase' with phase | ⟨idle, -⟩
    · exact paced.pipe_same st phase (by rw [← st.phase, phase', phase])
    · obtain ⟨acked, pipe, cnt⟩ := st.cmdIn_enter phase' idle
      omega
  · intro phase'
    rcases st.cmdIn_origin phase' with phase | ⟨idle, -⟩
    · rw [st.acked_same (by rw [← st.phase, phase', phase])]
      exact paced.within_same st phase
    · have := (st.cmdIn_enter phase' idle).1
      omega
  · intro phase' acked
    rcases st.cmdIn_origin phase' with phase | ⟨idle, -⟩
    · have same : phaseNext P s.inp s.tgt = s.tgt.phase := by rw [← st.phase, phase', phase]
      rw [st.acked_same same] at acked
      have before : 0 < s.granted := by
        cases rise : s.rises with
        | false => exact paced.vouched phase (by simpa [rise] using acked)
        | true =>
          have := (st.initiator.offered (by simp [phase]) rise).1
          omega
      rw [st.granted, grantedNext, if_pos same]
      split <;> omega
    · have := (st.cmdIn_enter phase' idle).1
      omega
  · intro phase' granted
    rcases st.cmdIn_origin phase' with phase | ⟨idle, new⟩
    · exact paced.calm_same st phase (by rw [← st.phase, phase', phase]) granted
    · rw [st.granted, grantedNext, if_neg new] at granted
      simp at granted

theorem paced_powerUp (tgt : s.tgt = Target.powerUp P) : Paced s := by
  have idle : s.tgt.phase = .idle := by rw [tgt]; rfl
  exact
    { advance := by simp [tgt, Target.powerUp]
      strobe := by simp [tgt, Target.powerUp]
      pipe := by simp [idle]
      within := by simp [idle]
      vouched := by simp [idle]
      calm := by simp [idle] }

/-- When the CDB is complete nothing is left in the ACK pipe and the request
engine is at rest. -/
theorem Paced.drained (paced : Paced s) (st : Step P s s') (cpl : Target.cmdCpl P s.tgt = true) :
    inPipe s.tgt = 0 ∧ s.inp.ack = false ∧ s.tgt.ioRdD = false ∧ s.tgt.ioWr = false ∧
      s.tgt.wrPending = false := by
  have phase := cmdCpl_phase cpl
  have pipe := paced.pipe phase
  have within := paced.within phase
  have length : s.tgt.cmdCnt = cdbLen s.tgt := by
    refine Cdb.cmdCpl_length (P := P) ?_
    simpa [Target.cmdCpl, phase] using cpl
  have some : 0 < cdbLen s.tgt := by unfold cdbLen; split <;> [omega; split <;> omega]
  have empty : inPipe s.tgt = 0 := by omega
  refine ⟨empty, ?_, paced.calm phase (paced.vouched phase (by omega))⟩
  by_contra high
  have old : s.tgt.oldAck = false := by
    cases h : s.tgt.oldAck with
    | false => rfl
    | true => simp [inPipe, h] at empty
  have room := (st.initiator.offered (by simp [phase]) (by simpa [rises, old] using high)).2
  simp only [offered, phase] at room
  omega

/-- The command is not modified in the clock in which it completes. -/
theorem Paced.cmdNext_cpl (paced : Paced s) (st : Step P s s')
    (cpl : Target.cmdCpl P s.tgt = true) : cmdNext s.inp s.tgt = s.tgt.cmd := by
  have empty := (paced.drained st cpl).1
  have noStrobe : s.tgt.stbAck = false := by
    by_contra strobe
    have := paced.strobe (by simpa using strobe)
    simp [inPipe, this] at empty
  simp [cmdNext, noStrobe]

end Bus

end MacIIvi
