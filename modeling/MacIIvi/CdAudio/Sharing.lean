import MacIIvi.CdAudio.Ownership
import MacIIvi.CdAudio.Scenario

/-!
# A CD READ on the channel it shares with the audio engine

As long as no transfer of the engine ends inside the data phase, the sector the
ring accounts for next is the one it asked for. A transfer of the engine that
ends there moves `lba` with it: the advance of `lba` is not scoped by
`ca_io_active`, while the one of `rd_hps_blk` is.
-/

namespace MacIIvi

open Clocked CdAudio

/-- The transfer length of a block command. -/
def Cdb.tlenField (cmd : Cdb) (cmdCnt : Nat) : Nat :=
  if cmd.cmd6Cpl cmdCnt then cmd.tlen6 else cmd.tlen10

/-- The two scaled registers of a CD READ. -/
theorem Cdb.scaled_latch {P : Params} (cd : P.cdrom = true) {cmd : Cdb} (read : cmd.cmdRead = true)
    (cmdCnt : Nat) :
    cmd.lbaLatch P cmdCnt = 4 * cmd.lbaField cmdCnt % 2 ^ 32 ∧
      cmd.tlenLatch P cmdCnt = 4 * cmd.tlenField cmdCnt % 2 ^ 16 := by
  simp [Cdb.lbaLatch, Cdb.tlenLatch, Cdb.tlenField, cd, read, Nat.mul_comm]

namespace CdRom

open Target Bus

variable {P : Params} {words : Nat → Nat} {s s' : CdRom}

/-! ### What holds at every clock -/

/-- The channel as seen from both sides. -/
structure Base (s : CdRom) : Prop where
  paced : s.toBus.Paced
  owning : s.eng.Owning
  sameAck : s.eng.oldAck = s.tgt.oldIoAck
  dropped : s.tgt.oldIoAck = true → s.hps.ack = true ∨ s.hps = .idle

theorem PowerUp.base (boot : PowerUp P s) : Base s := by
  obtain ⟨tgt, eng, hps, -, -⟩ := boot
  refine ⟨paced_powerUp tgt, ?_, by simp [tgt, eng, powerUp], by simp [tgt, powerUp]⟩
  constructor <;> simp [eng]

/-- The fall of the acknowledge, seen by the engine. -/
theorem Base.ackFall (base : Base s) :
    Engine.ackFall (engineIn s) s.eng = ioAckFall s.inp s.tgt := by
  simp [Engine.ackFall, ioAckFall, engineIn, base.sameAck]

section

variable (base : Base s) (st : Step P words s s')

include st in
theorem Step.ioActive : s.inp.ca.ioActive = s.eng.ioActive := by rw [st.wired.ca]; rfl

include st in
theorem Step.ioRd : s.inp.ca.ioRd = s.eng.ioRd := by rw [st.wired.ca]; rfl

include base st in
theorem Base.step : Base s' where
  paced := base.paced.step st.toStep
  owning := by
    rw [st.eng]
    refine base.owning.step fun go => ?_
    have grant : s.tgt.caGrant s.inp = true := go
    simp only [caGrant, Bool.and_eq_true, Bool.not_eq_true'] at grant
    exact grant.1.2
  sameAck := by rw [st.eng, st.tgt]; rfl
  dropped := by
    intro old
    have ack : s.hps.ack = true := by
      rw [← st.wired.ioAck]
      simpa [st.tgt] using old
    have allowed := st.allowed
    rw [st.hps]
    cases hps : s.hps <;> simp [hps, HpsChan.ack] at ack <;> cases move : s.move <;>
      simp [hps, move, HpsChan.next, HpsChan.ack, HpsChan.allows] at allowed ⊢

include base in
/-- The request line of the engine is up only while it owns the channel. -/
theorem Base.noRequest (free : s.eng.ioActive = false) : s.eng.ioRd = false := by
  by_contra rd
  have := base.owning.active_of_rd (by simpa using rd)
  simp [free] at this

include st in
/-- A session starts at a request only. -/
theorem Step.stays_idle (idle : s.hps = .idle) (rd : s.tgt.ioRdD = false)
    (wr : s.tgt.ioWr = false) (engine : s.eng.ioRd = false) : s'.hps = .idle := by
  have allowed := st.allowed
  rw [st.hps, idle]
  rw [idle] at allowed
  cases move : s.move with
  | latch write =>
    cases write <;> simp [HpsChan.allows, hpsReq, Target.ioRd, st.ioRd, rd, wr, engine, move]
      at allowed
  | _ => rfl

end

theorem base_of_run (r : Run (Step P words)) (boot : PowerUp P (r.state 0)) (t : Nat) :
    Base (r.state t) :=
  r.invariant boot.base (fun t _ base => base.step (r.step t)) t (Nat.zero_le t)

/-! ### The data phase of a READ -/

/-- The acknowledge of a transfer of the engine falls in this clock. -/
def audioAckFall (s : CdRom) : Bool := ioAckFall s.inp s.tgt && s.eng.ioActive

/-- Who uses the channel: the engine, nobody, or the fetch of the sector at the
frontier, which is asked for, being streamed, or acknowledged in this clock. -/
inductive Channel (T : Nat) (s : CdRom) : Prop where
  | engine (act : s.eng.ioActive = true)
  | free (act : s.eng.ioActive = false) (rd : s.tgt.ioRdD = false) (hps : s.hps = .idle)
      (old : s.tgt.oldIoAck = false)
  | asked (act : s.eng.ioActive = false) (busy : s.tgt.rdBusy = true) (rd : s.tgt.ioRdD = true)
      (hps : s.hps = .idle ∨ s.hps = .latched false s.tgt.lba) (old : s.tgt.oldIoAck = false)
      (room : s.tgt.rdHpsBlk < T)
  | streaming (w : Nat) (act : s.eng.ioActive = false) (busy : s.tgt.rdBusy = true)
      (hps : s.hps = .reading s.tgt.lba w) (room : s.tgt.rdHpsBlk < T)
  | done (act : s.eng.ioActive = false) (busy : s.tgt.rdBusy = true) (rd : s.tgt.ioRdD = false)
      (hps : s.hps = .idle) (old : s.tgt.oldIoAck = true) (served : s.served = s.tgt.lba)
      (room : s.tgt.rdHpsBlk < T)

/-- The data phase of a READ of `T` sectors that starts at sector `A`. -/
structure Fetching (A T : Nat) (s : CdRom) : Prop where
  phase : s.tgt.phase = .dataOut
  read : s.tgt.cmd.cmdRead = true
  tlen : s.tgt.tlen = T
  small : T < 65536
  lba : s.tgt.lba = (A + s.tgt.rdHpsBlk) % 2 ^ 32
  frontier : s.tgt.rdHpsBlk ≤ T
  noWrite : s.tgt.ioWr = false ∧ s.tgt.wrPending = false ∧ s.tgt.buffer0Wr = false ∧
    s.tgt.buffer1Wr = false
  channel : Channel T s

variable {A T : Nat}

/-- No session is open on the slot but the engine's. -/
def Settled (s : CdRom) : Prop := s.hps = .idle ∨ s.eng.ioActive = true

/-- The engine lets go of the channel when its acknowledge falls. -/
theorem Base.letsGo (base : Base s) (st : Step P words s s') (on : s.sysRst = false)
    (act : s.eng.ioActive = true) (act' : s'.eng.ioActive = false) :
    ioAckFall s.inp s.tgt = true := by
  rw [← base.ackFall]
  by_contra none
  have := base.owning.held (w := engineIn s) on act (by simpa using none)
  rw [← st.eng, act'] at this
  simp at this

/-- When the engine lets go, or never held the channel, the slot is idle and its
request has been taken back. -/
theorem Base.released (base : Base s) (st : Step P words s s') (on : s.sysRst = false)
    (settled : Settled s) (act' : s'.eng.ioActive = false) :
    s.hps = .idle ∧ s.eng.ioRd = false := by
  cases act : s.eng.ioActive with
  | false => exact ⟨by simpa [Settled, act] using settled, base.noRequest act⟩
  | true =>
    have fall := base.letsGo st on act act'
    simp only [ioAckFall, Bool.and_eq_true, Bool.not_eq_true', st.wired.ioAck] at fall
    obtain ⟨seen, noAck⟩ := fall
    have idle : s.hps = .idle := by
      rcases base.dropped seen with up | idle
      · simp [noAck] at up
      · exact idle
    obtain ⟨toc, fr⟩ := base.owning.seen (by rw [base.sameAck, seen])
    exact ⟨idle, by simp [Engine.ioRd, toc, fr]⟩

/-- Every latched session still has its request up, and none but the engine's
is open once a command byte may be taken. -/
structure Attributed (s : CdRom) : Prop where
  read : ∀ lba, s.hps = .latched false lba → s.tgt.ioRdD = true ∨ s.eng.ioRd = true
  write : ∀ lba, s.hps = .latched true lba → s.tgt.ioWr = true
  settled : s.tgt.phase = .cmdIn → 0 < s.granted → Settled s

/-- A session that is latched after this clock has its request up in it. -/
theorem Attributed.latched (att : Attributed s) (st : Step P words s s') {write : Bool} {lba : Nat}
    (chan' : s'.hps = .latched write lba) : s.hps.ack = false ∧
      if write then s.tgt.ioWr = true else s.tgt.ioRdD = true ∨ s.eng.ioRd = true := by
  have allowed := st.allowed
  rw [st.hps] at chan'
  cases chan : s.hps with
  | idle =>
    cases move : s.move with
    | latch w =>
      simp only [chan, move, HpsChan.next, HpsChan.latched.injEq] at chan'
      obtain ⟨rfl, -⟩ := chan'
      refine ⟨rfl, ?_⟩
      cases w <;> simpa [chan, move, HpsChan.allows, hpsReq, Target.ioRd, st.ioRd] using allowed
    | _ => simp [chan, move, HpsChan.next] at chan'
  | latched w l =>
    have kept : w = write := by
      cases move : s.move <;> simp [chan, move, HpsChan.next] at chan'
      all_goals first
        | exact chan'.1
        | (split at chan' <;> simp at chan')
    subst kept
    refine ⟨rfl, ?_⟩
    cases w with
    | false => exact att.read l chan
    | true => exact att.write l chan
  | reading | writing => cases move : s.move <;> simp [chan, move, HpsChan.next] at chan'

/-- When REQ comes up in the command phase, the slot is settled. -/
theorem Attributed.settled_of_req (att : Attributed s) (base : Base s) (st : Step P words s s')
    (phase : s.tgt.phase = .cmdIn) (req : req P s.inp s.tgt = true) : Settled s := by
  obtain ⟨⟨rd, wr, -⟩, noData⟩ := req_calm phase req
  have active : s.hps.ack = true → s.eng.ioActive = true := by
    intro ack
    simpa [TargetIn.dataAck, st.wired.ioAck, ack, st.ioActive] using noData
  cases chan : s.hps with
  | idle => exact .inl chan
  | latched write lba =>
    cases write with
    | false =>
      rcases att.read lba chan with up | up
      · simp [rd] at up
      · exact .inr (base.owning.active_of_rd up)
    | true =>
      have := att.write lba chan
      simp [wr] at this
  | reading | writing => exact .inr (active (by simp [chan, HpsChan.ack]))

/-- One clock without a reset. -/
theorem Attributed.step (att : Attributed s) (base : Base s) (st : Step P words s s')
    (on : s.sysRst = false) (rst : s.inp.rst = false) : Attributed s' where
  read := by
    intro lba chan'
    obtain ⟨ack, raised⟩ := att.latched st chan'
    have low : s.inp.ioAck = false := by rw [st.wired.ioAck, ack]
    rcases raised with up | up
    · exact .inl (by simp [st.tgt, ioRdDNext, rst, low, up])
    · right
      rw [st.eng]
      exact base.owning.request_held on low up
  write := by
    intro lba chan'
    obtain ⟨ack, raised⟩ := att.latched st chan'
    have low : s.inp.ioAck = false := by rw [st.wired.ioAck, ack]
    have up : s.tgt.ioWr = true := raised
    simp [st.tgt, ioWrNext, rst, low, up]
  settled := by
    intro phase' granted
    rcases st.cmdIn_origin phase' with phase | ⟨-, new⟩
    · have same : phaseNext P s.inp s.tgt = s.tgt.phase := by rw [← st.phase, phase', phase]
      have calm := base.paced.calm_same st.toStep phase same granted
      have here : Settled s ∧ s.tgt.ioRdD = false ∧ s.tgt.ioWr = false := by
        rcases st.vouched same granted with given | req
        · obtain ⟨rd, wr, -⟩ := base.paced.calm phase given
          exact ⟨att.settled phase given, rd, wr⟩
        · obtain ⟨⟨rd, wr, -⟩, -⟩ := req_calm phase req
          exact ⟨att.settled_of_req base st phase req, rd, wr⟩
      obtain ⟨settled, rd, wr⟩ := here
      cases act' : s'.eng.ioActive with
      | true => exact .inr act'
      | false =>
        obtain ⟨idle, engine⟩ := base.released st on settled act'
        exact .inl (st.stays_idle idle rd wr engine)
    · rw [st.granted, grantedNext, if_neg new] at granted
      simp at granted

/-- Without a reset since power-up, no session but the engine's is open when a
command completes. -/
theorem settled_of_noReset (r : Run (Step P words)) (boot : PowerUp P (r.state 0)) (start : Nat)
    (noReset : ∀ u, u < start → (r.state u).inp.rst = false ∧ (r.state u).sysRst = false)
    (cpl : cmdCpl P (r.state start).tgt = true) : Settled (r.state start) := by
  have att : ∀ t, t ≤ start → Attributed (r.state t) := by
    intro t ht
    induction t with
    | zero =>
      have idle : (r.state 0).tgt.phase = .idle := by rw [boot.tgt]; rfl
      constructor <;> simp [boot.hps, idle]
    | succ t ih =>
      obtain ⟨rst, on⟩ := noReset t (by omega)
      exact (ih (by omega)).step (base_of_run r boot t) (r.step t) on rst
  have paced := (base_of_run r boot start).paced
  have phase := cmdCpl_phase cpl
  refine (att start (Nat.le_refl _)).settled phase (paced.vouched phase ?_)
  have whole : (r.state start).tgt.cmd.cmdCpl P (r.state start).tgt.cmdCnt = true := by
    simpa [Target.cmdCpl, phase] using cpl
  rw [paced.pipe phase, Cdb.cmdCpl_length whole]
  split
  · omega
  · split <;> omega

/-- The clock after the CDB completed, when nothing but the engine can have a
session open. -/
theorem Base.enters (base : Base s) (st : Step P words s s') (on : s.sysRst = false)
    (cpl : cmdCpl P s.tgt = true) (read : s.tgt.cmd.cmdRead = true)
    (phase' : s'.tgt.phase = .dataOut) (settled : Settled s) :
    Fetching (s.tgt.cmd.lbaLatch P s.tgt.cmdCnt) (s.tgt.cmd.tlenLatch P s.tgt.cmdCnt) s' := by
  have phase := cmdCpl_phase cpl
  obtain ⟨-, -, rd, wr, pending⟩ := base.paced.drained st.toStep cpl
  have noFetch : fetchStart P s.inp s.tgt = false := by
    by_contra start
    have := (fetchStart_needs (by simpa using start)).1
    simp [phase] at this
  have noFlush : reqWr P s.tgt = false := by
    by_contra flush
    have := (reqWr_needs (by simpa using flush)).1
    simp [phase] at this
  have front : s'.tgt.rdHpsBlk = 0 := by simp [st.tgt, rdHpsBlkNext, transferPhase, phase]
  refine
    { phase := phase'
      read := by rw [st.tgt, step_cmd, base.paced.cmdNext_cpl st.toStep cpl]; exact read
      tlen := by simp [st.tgt, tlenNext, cpl]
      small := Cdb.tlenLatch_lt _
      lba := ?_, frontier := by omega, noWrite := ?_, channel := ?_ }
  · rw [front, Nat.add_zero, Nat.mod_eq_of_lt (Cdb.lbaLatch_lt _)]
    simp [st.tgt, lbaNext, cpl]
  · simp [st.tgt, ioWrNext, wrPendingNext, wr, pending, noFlush, phase]
  · cases act' : s'.eng.ioActive with
    | true => exact .engine act'
    | false =>
      obtain ⟨idle, engine⟩ := base.released st on settled act'
      refine .free act' ?_ (st.stays_idle idle rd wr engine) ?_
      · simp [st.tgt, ioRdDNext, rd, noFetch]
      · simp [st.tgt, st.wired.ioAck, idle, HpsChan.ack]

section

variable (inv : Fetching A T s) (st : Step P words s s')

include inv st in
/-- The frontier moves at the fall of an acknowledge of the data path. -/
theorem Fetching.frontier_next (room : dataAckFall s.inp s.tgt = true → s.tgt.rdHpsBlk < T) :
    s'.tgt.rdHpsBlk = s.tgt.rdHpsBlk + (dataAckFall s.inp s.tgt).toNat := by
  have small := inv.small
  rw [st.tgt, step_rdHpsBlk]
  cases fall : dataAckFall s.inp s.tgt with
  | false => simp [rdHpsBlkNext, transferPhase, inv.phase, fall]
  | true =>
    have := room fall
    simp [rdHpsBlkNext, transferPhase, inv.phase, fall, inv.read]
    omega

include inv st in
theorem Fetching.lba_next :
    s'.tgt.lba = if ioAckFall s.inp s.tgt then (s.tgt.lba + 1) % 2 ^ 32 else s.tgt.lba := by
  have none : cmdCpl P s.tgt = false := by simp [cmdCpl, inv.phase]
  simp [st.tgt, lbaNext, none]

include st in
/-- A fall that is not the engine's is the data path's. -/
theorem Step.fall_data (isolated : audioAckFall s = false) :
    dataAckFall s.inp s.tgt = ioAckFall s.inp s.tgt := by
  unfold dataAckFall audioAckFall at *
  rw [st.ioActive]
  cases fall : ioAckFall s.inp s.tgt <;> simp [fall] at isolated ⊢
  exact isolated

include inv st in
/-- Without the end of an engine transfer, the channel is handed on in order. -/
theorem Fetching.channel_step (base : Base s) (on : s.sysRst = false) (rst : s.inp.rst = false)
    (isolated : audioAckFall s = false)
    (front : s'.tgt.rdHpsBlk = s.tgt.rdHpsBlk + (dataAckFall s.inp s.tgt).toNat) :
    Channel T s' := by
  have lba' := inv.lba_next st
  have data := st.fall_data isolated
  have wr := inv.noWrite.1
  have ioAck := st.wired.ioAck
  have old' : s'.tgt.oldIoAck = s.hps.ack := by rw [st.tgt, step_oldIoAck, ioAck]
  have busy' : s'.tgt.rdBusy =
      (!ioAckFall s.inp s.tgt && (s.tgt.rdBusy || fetchStart P s.inp s.tgt)) := by
    rw [st.tgt, step_rdBusy, rdBusyNext]
    cases ioAckFall s.inp s.tgt <;> simp [rst]
  have rd' : s'.tgt.ioRdD = (!s.hps.ack && (s.tgt.ioRdD || fetchStart P s.inp s.tgt)) := by
    rw [st.tgt, step_ioRdD, ioRdDNext, ioAck]
    cases s.hps.ack <;> simp [rst]
  cases act' : s'.eng.ioActive with
  | true => exact .engine act'
  | false =>
    cases inv.channel with
    | engine act =>
      -- the engine keeps the channel until its acknowledge falls
      have fall := base.letsGo st on act act'
      simp [audioAckFall, act, fall] at isolated
    | free act rd hps old =>
      have engine := base.noRequest act
      have fall : ioAckFall s.inp s.tgt = false := by simp [ioAckFall, old]
      have idle' := st.stays_idle hps rd wr engine
      rw [data, fall] at front
      have noAck : s.hps.ack = false := by simp [hps, HpsChan.ack]
      cases start : fetchStart P s.inp s.tgt with
      | false => exact .free act' (by simp [rd', rd, start]) idle' (by rw [old', noAck])
      | true =>
        have remain : s.tgt.rdHpsBlk < s.tgt.tlen := by
          simp only [fetchStart, reqRd, Bool.and_eq_true] at start
          exact of_decide_eq_true start.1.1.2.1.2
        refine .asked act' (by simp [busy', fall, start]) (by simp [rd', noAck, start])
          (.inl idle') (by rw [old', noAck]) ?_
        rw [front, ← inv.tlen]
        simpa using remain
    | asked act busy rd hps old room =>
      have engine := base.noRequest act
      have fall : ioAckFall s.inp s.tgt = false := by simp [ioAckFall, old]
      rw [data, fall] at front
      rw [fall, if_neg (by simp)] at lba'
      have noAck : s.hps.ack = false := by rcases hps with h | h <;> simp [h, HpsChan.ack]
      have room' : s'.tgt.rdHpsBlk < T := by simpa [front] using room
      have next : (s'.hps = .idle ∨ s'.hps = .latched false s.tgt.lba) ∨
          s'.hps = .reading s.tgt.lba 0 := by
        have allowed := st.allowed
        have addr : Target.ioLba s.inp s.tgt = s.tgt.lba := by simp [Target.ioLba, st.ioActive, act]
        rw [st.hps]
        rcases hps with h | h <;> rw [h] at allowed ⊢ <;> cases move : s.move <;>
          simp [move, HpsChan.allows, HpsChan.next, hpsReq, wr, addr] at allowed ⊢
        simp [allowed]
      rcases next with waiting | stream
      · exact .asked act' (by simp [busy', fall, busy]) (by simp [rd', noAck, rd])
          (by rwa [lba']) (by rw [old', noAck]) room'
      · exact .streaming 0 act' (by simp [busy', fall, busy]) (by rwa [lba']) room'
    | streaming w act busy hps room =>
      have ack : s.hps.ack = true := by simp [hps, HpsChan.ack]
      have fall : ioAckFall s.inp s.tgt = false := by simp [ioAckFall, ioAck, ack]
      rw [data, fall] at front
      rw [fall, if_neg (by simp)] at lba'
      have room' : s'.tgt.rdHpsBlk < T := by simpa [front] using room
      have stillBusy : s'.tgt.rdBusy = true := by simp [busy', fall, busy]
      have allowed := st.allowed
      have hps' := st.hps
      rw [hps] at allowed hps'
      cases move : s.move with
      | wait => exact .streaming w act' stillBusy (by simp [hps', move, HpsChan.next, lba']) room'
      | word d =>
        exact .streaming (w + 1) act' stillBusy (by simp [hps', move, HpsChan.next, lba']) room'
      | drop =>
        refine .done act' stillBusy (by simp [rd', ack]) (by simp [hps', move, HpsChan.next])
          (by rw [old', ack]) ?_ room'
        simp [st.served, servedNext, hps, move, lba']
      | latch | raise | other => simp [move, HpsChan.allows] at allowed
    | done act busy rd hps old served room =>
      have engine := base.noRequest act
      have noAck : s.hps.ack = false := by simp [hps, HpsChan.ack]
      have idle' := st.stays_idle hps rd wr engine
      have noFetch : fetchStart P s.inp s.tgt = false := by simp [fetchStart, busy]
      exact .free act' (by simp [rd', rd, noFetch]) idle' (by rw [old', noAck])

include inv st in
/-- A data transfer that ends was asked for at the frontier. -/
theorem Fetching.fall_served (fall : dataAckFall s.inp s.tgt = true) :
    s.served = s.tgt.lba ∧ s.tgt.rdHpsBlk < T := by
  simp only [dataAckFall, Bool.and_eq_true, Bool.not_eq_true', st.ioActive] at fall
  obtain ⟨fall, own⟩ := fall
  cases inv.channel with
  | engine act => simp [own] at act
  | free _ _ _ old => simp [ioAckFall, old] at fall
  | asked _ _ _ _ old => simp [ioAckFall, old] at fall
  | streaming _ _ _ hps => simp [ioAckFall, st.wired.ioAck, hps, HpsChan.ack] at fall
  | done _ _ _ _ _ served room => exact ⟨served, room⟩

include inv st in
/-- One clock of the data phase in which no engine transfer ends. -/
theorem Fetching.step (base : Base s) (on : s.sysRst = false)
    (phase' : s'.tgt.phase = .dataOut) (isolated : audioAckFall s = false) :
    Fetching A T s' := by
  have notCmd : s.tgt.phase ≠ .cmdIn := by simp [inv.phase]
  have rst := st.noReset (by simp [phase'])
  have data := st.fall_data isolated
  have room : dataAckFall s.inp s.tgt = true → s.tgt.rdHpsBlk < T :=
    fun fall => (inv.fall_served st fall).2
  have front := inv.frontier_next st room
  have lba' := inv.lba_next st
  obtain ⟨wr, pending, -, -⟩ := inv.noWrite
  have noFlush : reqWr P s.tgt = false := by
    by_contra flush
    have := (reqWr_needs (by simpa using flush)).1
    simp [inv.phase] at this
  refine
    { phase := phase'
      read := by rw [st.tgt, step_cmd, cmdNext_eq notCmd]; exact inv.read
      tlen := by rw [st.tgt, step_tlen, tlenNext_eq notCmd]; exact inv.tlen
      small := inv.small, lba := ?_, frontier := ?_, noWrite := ?_
      channel := inv.channel_step st base on rst isolated front }
  · rw [lba', front, data, inv.lba]
    cases ioAckFall s.inp s.tgt with
    | false => simp
    | true => simp only [if_true, Bool.toNat_true]; omega
  · rw [front]
    have le := inv.frontier
    cases fall : dataAckFall s.inp s.tgt with
    | false => simpa using le
    | true =>
      have := room fall
      simp only [Bool.toNat_true]
      omega
  · simp [st.tgt, ioWrNext, wrPendingNext, wr, pending, noFlush, inv.phase]

end

/-! ### Runs -/

section

variable {r : Run (Step P words)} {start t : Nat}

/-- The sector the HPS served for the block the ring accounts for in this
clock. -/
def accountsNow (s : CdRom) : Option Nat :=
  if s.tgt.rdHpsBlkNext s.inp = s.tgt.rdHpsBlk + 1 then some s.served else none

/-- The sectors of the blocks accounted for in the clocks `start + 1, …, t - 1`. -/
def accounted (r : Run (Step P words)) (start t : Nat) : List Nat :=
  r.log accountsNow (start + 1) t

/-- Clocks `start + 1, …, t` lie in the data phase of the command that completes
at `start`, with the system powered. -/
structure DataPhase (r : Run (Step P words)) (start t : Nat) : Prop where
  after : start < t
  phase : ∀ u, start < u → u ≤ t → (r.state u).tgt.phase = .dataOut
  powered : ∀ u, start ≤ u → u < t → (r.state u).sysRst = false

/-- The data path's registers and memories are the same in both states. -/
structure Untouched (s s' : Target) : Prop where
  lba : s'.lba = s.lba
  rdHpsBlk : s'.rdHpsBlk = s.rdHpsBlk
  sdBuffSel : s'.sdBuffSel = s.sdBuffSel
  even : s'.buffer0.ramAb = s.buffer0.ramAb
  odd : s'.buffer1.ramAb = s.buffer1.ramAb

/-- What the two requestors owe each other up to clock `t`: the `k`-th block
accounted for was asked for at `4 * L + k`, and the data path stands still while
the engine owns the channel. -/
structure Isolated (r : Run (Step P words)) (start t L : Nat) : Prop where
  addresses : ∃ n, accounted r start t = (List.range n).map fun k => (4 * L + k) % 2 ^ 32
  untouched : ∀ u, start < u → u < t → (r.state u).eng.ioActive = true →
    Untouched (r.state u).tgt (r.state (u + 1)).tgt

theorem Fetching.accountsNow_eq {s s' : CdRom} {A T : Nat} (inv : Fetching A T s)
    (st : Step P words s s') :
    accountsNow s =
      if dataAckFall s.inp s.tgt then some ((A + s.tgt.rdHpsBlk) % 2 ^ 32) else none := by
  have front := inv.frontier_next st fun fall => (inv.fall_served st fall).2
  rw [st.tgt, step_rdHpsBlk] at front
  unfold accountsNow
  cases fall : dataAckFall s.inp s.tgt with
  | false => simp [front, fall]
  | true => simp [front, fall, (inv.fall_served st fall).1, inv.lba]

theorem DataPhase.initial (w : DataPhase r start (t + 1)) (h : start < t) : DataPhase r start t where
  after := h
  phase u h₁ h₂ := w.phase u h₁ (by omega)
  powered u h₁ h₂ := w.powered u h₁ (by omega)

/-- The invariant and the log along the data phase. -/
theorem DataPhase.fetching (w : DataPhase r start t) (boot : PowerUp P (r.state 0))
    (cpl : cmdCpl P (r.state start).tgt = true) (read : (r.state start).tgt.cmd.cmdRead = true)
    (settled : Settled (r.state start))
    (isolated : ∀ u, start < u → u < t → audioAckFall (r.state u) = false) (A T : Nat)
    (hA : A = (r.state start).tgt.cmd.lbaLatch P (r.state start).tgt.cmdCnt)
    (hT : T = (r.state start).tgt.cmd.tlenLatch P (r.state start).tgt.cmdCnt) :
    Fetching A T (r.state t) ∧
      accounted r start t =
        (List.range (r.state t).tgt.rdHpsBlk).map fun k => (A + k) % 2 ^ 32 := by
  have base := base_of_run r boot
  subst hA hT
  obtain ⟨n, rfl⟩ : ∃ n, t = start + 1 + n := ⟨t - start - 1, by have := w.after; omega⟩
  induction n with
  | zero =>
    have phase' := w.phase (start + 1) (by omega) (by omega)
    refine ⟨(base start).enters (r.step start) (w.powered start (by omega) (by omega)) cpl read
      phase' settled, ?_⟩
    have front : (r.state (start + 1)).tgt.rdHpsBlk = 0 := by
      simp [(r.step start).tgt, rdHpsBlkNext, transferPhase, cmdCpl_phase cpl]
    simp [accounted, Run.log_self, front]
  | succ n ih =>
    have later : start < start + 1 + n := by omega
    obtain ⟨inv, log⟩ := ih (w.initial later) fun u h₁ h₂ => isolated u h₁ (by omega)
    have here := isolated (start + 1 + n) (by omega) (by omega)
    have st := r.step (start + 1 + n)
    refine ⟨inv.step st (base _) (w.powered (start + 1 + n) (by omega) (by omega))
      (w.phase (start + 1 + (n + 1)) (by omega) (Nat.le_refl _)) here, ?_⟩
    have after : start + 1 ≤ start + 1 + n := by omega
    unfold accounted at log ⊢
    rw [← Nat.add_assoc, r.log_succ after, log, inv.accountsNow_eq st]
    have front := inv.frontier_next st fun fall => (inv.fall_served st fall).2
    cases fall : dataAckFall (r.state (start + 1 + n)).inp (r.state (start + 1 + n)).tgt with
    | false => simp [front, fall]
    | true => simp [front, fall, List.range_succ]

theorem lba_moves (x : Nat) : (x + 1) % 2 ^ 32 ≠ x := by omega

/-- While the engine owns the channel and its acknowledge does not fall, the
data path stands still. -/
theorem Fetching.untouched {s s' : CdRom} {A T : Nat} (inv : Fetching A T s)
    (st : Step P words s s') (act : s.eng.ioActive = true) (isolated : audioAckFall s = false) :
    Untouched s.tgt s'.tgt := by
  have fall : ioAckFall s.inp s.tgt = false := by simpa [audioAckFall, act] using isolated
  have data : dataAckFall s.inp s.tgt = false := by simp [dataAckFall, fall]
  obtain ⟨-, -, wr0, wr1⟩ := inv.noWrite
  have active : s.inp.ca.ioActive = true := by rw [st.ioActive, act]
  constructor
  · rw [inv.lba_next st, fall]
    rfl
  · simp [st.tgt, rdHpsBlkNext, transferPhase, inv.phase, data]
  · simp [st.tgt, sdBuffSelNext, inv.phase, data]
  · rw [st.tgt, step_buffer0, Dpram.step_ramAb]
    apply Dpram.writePorts_idle <;> simp [buffer0In, bufferIn, active, wr0]
  · rw [st.tgt, step_buffer1, Dpram.step_ramAb]
    apply Dpram.writePorts_idle <;> simp [buffer1In, bufferIn, active, wr1]

end

/-- A CD READ is isolated from the audio engine exactly as long as no transfer
of the engine ends in its data phase. -/
theorem read_isolated_iff (cd : P.cdrom = true) (r : Run (Step P words))
    (boot : PowerUp P (r.state 0)) (start t : Nat)
    (accepted : accepted P (r.state start).inp (r.state start).tgt = true)
    (read : (r.state start).tgt.cmd.cmdRead = true)
    (settled : Settled (r.state start))
    (window : DataPhase r start t) :
    Isolated r start t ((r.state start).tgt.cmd.lbaField (r.state start).tgt.cmdCnt) ↔
      ∀ u, start < u → u < t → audioAckFall (r.state u) = false := by
  have cpl : cmdCpl P (r.state start).tgt = true := by
    simp only [Target.accepted, Bool.and_eq_true] at accepted
    exact accepted.1
  constructor
  · intro isolated u after before
    by_contra falls
    simp only [audioAckFall, Bool.not_eq_false, Bool.and_eq_true] at falls
    have still := (isolated.untouched u after before falls.2).lba
    have none : cmdCpl P (r.state u).tgt = false := by
      simp [cmdCpl, window.phase u after (by omega)]
    rw [(r.step u).tgt, step_lba, lbaNext, if_neg (by simp [none]), if_pos falls.1] at still
    exact lba_moves _ still
  · intro isolated
    have holds := fun v (h₁ : start < v) (h₂ : v ≤ t) =>
      DataPhase.fetching (r := r) (t := v)
        ⟨h₁, fun u a b => window.phase u a (by omega), fun u a b => window.powered u a (by omega)⟩
        boot cpl read settled (fun u a b => isolated u a (by omega)) _ _ rfl rfl
    refine ⟨⟨(r.state t).tgt.rdHpsBlk, ?_⟩, ?_⟩
    · rw [(holds t window.after (Nat.le_refl _)).2]
      refine List.map_congr_left fun k _ => ?_
      simp only [Cdb.lbaLatch, cd, read, Bool.and_self, if_true]
      omega
    · intro u after before act
      exact (holds u after (by omega)).1.untouched (r.step u) act (isolated u after before)

/-! ### A READ served alone -/

theorem blockRun_dataPhase {t : Nat} (after : 553 < t) (before : t ≤ 5698) :
    DataPhase blockRun 553 t where
  after := after
  phase u h₁ h₂ := (blockRead_data h₁ (by omega)).1
  powered u _ _ := scripted_sysRst _ u

theorem blockRun_isolated {u : Nat} (after : 553 < u) (before : u ≤ 5698) :
    audioAckFall (blockRun.state u) = false := (blockRead_data after before).2.2.1

/-- The four sectors of block 5 are accounted for, and the READ is isolated. -/
theorem read_isolated_block :
    accounted blockRun 553 1600 = [20, 21, 22, 23] ∧ Isolated blockRun 553 1600 5 := by
  obtain ⟨ok, read, field, -, -, -, idle⟩ := blockRead_accepted
  have window := blockRun_dataPhase (t := 1600) (by omega) (by omega)
  have quiet (u : Nat) (after : 553 < u) (before : u < 1600) :
      audioAckFall (blockRun.state u) = false := blockRun_isolated after (by omega)
  have cpl : cmdCpl Params.cdromTarget (blockRun.state 553).tgt = true := by
    rw [Target.accepted, Bool.and_eq_true] at ok
    exact ok.1
  have start : (blockRun.state 553).tgt.cmd.lbaLatch Params.cdromTarget
      (blockRun.state 553).tgt.cmdCnt = 20 := by
    have cd : (blockRun.state 553).tgt.cmd.cmdRead = true := read
    have five : (blockRun.state 553).tgt.cmd.lbaField (blockRun.state 553).tgt.cmdCnt = 5 := field
    rw [(Cdb.scaled_latch rfl cd _).1, five]
    decide
  obtain ⟨-, log⟩ := window.fetching (boot_powerUp _) cpl read (.inl idle) quiet _ _ rfl rfl
  have front : (blockRun.state 1600).tgt.rdHpsBlk = 4 :=
    (blockRead_data (by omega) (by omega)).2.2.2 rfl
  rw [front, start] at log
  refine ⟨log, ?_⟩
  have main := read_isolated_iff rfl blockRun (boot_powerUp _) 553 1600 ok read (.inl idle) window
  rw [← field]
  exact main.mpr quiet

/-! ### A TOC fetch across the start of a READ -/

/-- A TOC fetch is in flight when a READ(6) of one block at 5 is latched, and
ends in its data phase. -/
def tocStraddle : Segments :=
  Segments.mount 4096 ++
    [(2, silent), (1, { move := .latch false }), (1, { move := .raise })] ++
    Segments.command Params.cdromTarget [0x08, 0, 0, 5, 1, 0] ++
    [(256, { move := .word 0 }), (1, { move := .drop }), (1, silent)] ++
    Segments.session false 256 0

/-- The states of that script. -/
def straddled : Nat → CdRom := scripted Params.cdromTarget tocStraddle.script

/-- What the script does, by evaluation: it is legal, the READ completes at clock
31 with the TOC fetch in flight, the fetch ends at 288, and the one block the
ring accounts for was served from sector 21. -/
theorem straddled_facts :
    ((List.range tocStraddle.clocks).all fun t =>
        legal Params.cdromTarget HpsChan.sectorWords (straddled t)) = true ∧
      ((List.range' 32 518).all fun t =>
        (straddled t).tgt.phase == .dataOut && (accountsNow (straddled t)).getD 21 == 21 &&
          (!audioAckFall (straddled t) || t == 288)) = true ∧
      (Target.accepted Params.cdromTarget (straddled 31).inp (straddled 31).tgt = true ∧
        (straddled 31).tgt.cmd.cmdRead = true ∧
        (straddled 31).tgt.cmd.lbaField (straddled 31).tgt.cmdCnt = 5 ∧
        (straddled 31).eng.ioActive = true) ∧
      accountsNow (straddled 548) = some 21 := by
  decide +kernel

def straddledRun : Run (Step Params.cdromTarget HpsChan.sectorWords) :=
  ofScript tocStraddle.script (segments_legal tocStraddle straddled_facts.1)

theorem straddled_at {t : Nat} (after : 31 < t) (before : t ≤ 549) :
    (straddled t).tgt.phase = .dataOut ∧ (accountsNow (straddled t)).getD 21 = 21 ∧
      (audioAckFall (straddled t) = false ∨ t = 288) := by
  have here := List.all_eq_true.mp straddled_facts.2.1 t
    (List.mem_range'_1.mpr ⟨by omega, by omega⟩)
  simp only [Bool.and_eq_true, Bool.or_eq_true, Bool.not_eq_true', beq_iff_eq] at here
  exact ⟨here.1.1, here.1.2, here.2⟩

theorem straddled_dataPhase {t : Nat} (after : 31 < t) (before : t ≤ 549) :
    DataPhase straddledRun 31 t where
  after := after
  phase u h₁ h₂ := (straddled_at h₁ (by omega)).1
  powered u _ _ := scripted_sysRst _ u

/-- The first block accounted for was asked for at 21, one past `4 * 5`. -/
theorem read_not_isolated :
    PowerUp Params.cdromTarget (straddledRun.state 0) ∧
      Target.accepted Params.cdromTarget (straddledRun.state 31).inp (straddledRun.state 31).tgt =
        true ∧
      (straddledRun.state 31).tgt.cmd.cmdRead = true ∧
      (straddledRun.state 31).tgt.cmd.lbaField (straddledRun.state 31).tgt.cmdCnt = 5 ∧
      DataPhase straddledRun 31 549 ∧ 21 ∈ accounted straddledRun 31 549 ∧
      ¬ Isolated straddledRun 31 549 5 := by
  obtain ⟨-, -, ⟨ok, read, field, -⟩, served⟩ := straddled_facts
  have last : 21 ∈ accounted straddledRun 31 549 := by
    refine List.mem_filterMap.mpr ⟨548, List.mem_range'_1.mpr ⟨by omega, by omega⟩, served⟩
  refine ⟨boot_powerUp _, ok, read, field, straddled_dataPhase (by omega) (by omega), last, ?_⟩
  intro isolated
  obtain ⟨n, log⟩ := isolated.addresses
  have some : n ≠ 0 := by
    rintro rfl
    rw [log] at last
    simp at last
  have first : 20 ∈ accounted straddledRun 31 549 := by
    rw [log]
    exact List.mem_map.mpr ⟨0, List.mem_range.mpr (by omega), rfl⟩
  obtain ⟨u, inside, seen⟩ := List.mem_filterMap.mp first
  have bounds := List.mem_range'_1.mp inside
  have only := (straddled_at (t := u) (by omega) (by omega)).2.1
  have here : accountsNow (straddled u) = Option.some 20 := seen
  simp [here] at only

end CdRom

end MacIIvi
