import MacIIvi.CdAudio.Sharing

/-!
# A CD READ in 512-byte units

`lba` and `tlen` of a READ are scaled by four when the CDB is latched. `lba` has
the 32 bits the scaled address needs; `tlen` has 16, so a READ(10) of 16384 or
more blocks is served modulo 16384.
-/

namespace MacIIvi

open Clocked CdAudio

namespace CdRom

open Target Bus

variable {P : Params} {words : Nat → Nat} {s s' : CdRom} {A T : Nat}

/-! ### The capacity register -/

/-- Blocks of 2048 bytes on the medium; `capacity` holds the last of them. -/
def mountedBlocks (s : Target) : Nat := (s.capacity + 1) % 2 ^ 32

theorem mountedBlocks_step (cd : P.cdrom = true) {i : TargetIn} {tgt : Target}
    (wire : i.imgBlocks < 2 ^ 32) (le : mountedBlocks tgt ≤ 2 ^ 30) :
    mountedBlocks (tgt.step P i) ≤ 2 ^ 30 := by
  unfold mountedBlocks at le ⊢
  rw [step_capacity, capacityNext, if_pos cd]
  split
  · omega
  · exact le

theorem mountedBlocks_le (cd : P.cdrom = true) (r : Run (Step P words))
    (boot : PowerUp P (r.state 0)) (wires : ∀ t, (r.state t).inp.imgBlocks < 2 ^ 32) (t : Nat) :
    mountedBlocks (r.state t).tgt ≤ 2 ^ 30 := by
  induction t with
  | zero => simp [mountedBlocks, boot.tgt, Target.powerUp]
  | succ t ih =>
    rw [(r.step t).tgt]
    exact mountedBlocks_step cd (wires t) ih

/-! ### The byte count -/

/-- The data phase of a READ of `T` sectors, as `data_cnt` counts it. -/
structure Counting (T : Nat) (s : Target) : Prop where
  phase : s.phase = .dataOut
  read : s.cmd.cmdRead = true
  tlen : s.tlen = T
  small : T < 65536
  running : s.dataComplete = false → s.dataCnt < T * 512 ∨ T = 0 ∧ s.dataCnt = 0
  complete : s.dataComplete = true → s.dataCnt = T * 512

section

variable {i : TargetIn} {tgt : Target} (inv : Counting T tgt)

include inv in
theorem Counting.block : tgt.cmd.blockCmd = true := by simp [Cdb.blockCmd, inv.read]

include inv in
theorem Counting.length : dataLen P tgt = T * 512 := by rw [dataLen_block inv.block, inv.tlen]

include inv in
/-- The phase goes on as long as bytes are left. -/
theorem Counting.stays (rst : i.rst = false) (next : phaseNext P i tgt = .dataOut) :
    tgt.dataComplete = false ∧ tgt.dataCnt < T * 512 := by
  rw [phaseNext_dataOut rst inv.phase, dataDone_block inv.block, inv.length] at next
  cases complete : tgt.dataComplete with
  | true => simp [complete] at next
  | false =>
    rcases inv.running complete with less | ⟨none, -⟩
    · exact ⟨rfl, less⟩
    · simp [none] at next

include inv in
/-- It is left with all of them counted. -/
theorem Counting.leaves (rst : i.rst = false) (next : phaseNext P i tgt ≠ .dataOut) :
    tgt.dataCnt = T * 512 := by
  rw [phaseNext_dataOut rst inv.phase, dataDone_block inv.block, inv.length] at next
  cases complete : tgt.dataComplete with
  | true => exact inv.complete complete
  | false =>
    have none : T * 512 = 0 := by simpa [complete] using next
    rcases inv.running complete with less | ⟨-, zero⟩ <;> omega

include inv in
/-- One clock counts the acknowledge that has come to its end. -/
theorem Counting.count_next (rst : i.rst = false) (next : phaseNext P i tgt = .dataOut) :
    (tgt.step P i).dataCnt = tgt.dataCnt + tgt.stbAdv.toNat := by
  obtain ⟨open_, less⟩ := inv.stays rst next
  have small := inv.small
  have fits : (tgt.dataCnt + 1) % 2 ^ 32 = tgt.dataCnt + 1 := Nat.mod_eq_of_lt (by omega)
  rw [step_dataCnt]
  cases adv : tgt.stbAdv with
  | false => simp [dataCntNext, transferPhase, inv.phase, adv]
  | true =>
    simp only [dataCntNext, transferPhase, inv.phase, adv, open_, fits]
    simp

include inv in
theorem Counting.step (rst : i.rst = false) (next : phaseNext P i tgt = .dataOut) :
    Counting T (tgt.step P i) := by
  have notCmd : tgt.phase ≠ .cmdIn := by simp [inv.phase]
  obtain ⟨open_, less⟩ := inv.stays rst next
  have count := inv.count_next rst next
  have small := inv.small
  have wrap : (T * 512 + 2 ^ 32 - 1) % 2 ^ 32 = T * 512 - 1 := by omega
  have done : (tgt.step P i).dataComplete = (tgt.stbAdv && T * 512 - 1 == tgt.dataCnt) := by
    have transfer : transferPhase tgt = true := by simp [transferPhase, inv.phase]
    rw [step_dataComplete, dataCompleteNext, inv.length, wrap]
    cases adv : tgt.stbAdv <;> simp [transfer, open_]
  refine
    { phase := by rw [step_phase, next]
      read := by rw [step_cmd, cmdNext_eq notCmd]; exact inv.read
      tlen := by rw [step_tlen, tlenNext_eq notCmd]; exact inv.tlen
      small := small, running := ?_, complete := ?_ }
  · intro more
    rw [done] at more
    left
    cases adv : tgt.stbAdv with
    | false => simpa only [count, adv, Bool.toNat_false, Nat.add_zero] using less
    | true =>
      have last : T * 512 - 1 ≠ tgt.dataCnt := by simpa [adv] using more
      simp only [count, adv, Bool.toNat_true]
      omega
  · intro last
    rw [done, Bool.and_eq_true, beq_iff_eq] at last
    simp only [count, last.1, Bool.toNat_true]
    omega

end

/-! ### The bytes REQ vouches for -/

/-- What the initiator has taken so far lies in sectors the ring has been given. -/
structure Offering (T : Nat) (s : CdRom) : Prop where
  pipe : s.acked = s.tgt.dataCnt + inPipe s.tgt
  taken : s.acked ≤ s.granted
  covered : min s.granted (T * 512) ≤ s.tgt.rdHpsBlk * 512

/-- REQ is up only when the sectors one access can touch have arrived. -/
theorem Counting.req_covers (inv : Counting T s.tgt) (mounted : s.tgt.mounted = true)
    (req : req P s.inp s.tgt = true) :
    min (s.tgt.dataCnt + 4) (T * 512) ≤ s.tgt.rdHpsBlk * 512 := by
  have small := inv.small
  have idle : ioBusy s.inp s.tgt = false := by
    simp only [Target.req, Bool.and_eq_true, Bool.not_eq_true'] at req
    exact req.1.1.1.2
  simp only [ioBusy, inv.phase, inv.read, mounted, Bool.or_eq_false_iff] at idle
  have here : s.tgt.dataCnt / 512 < s.tgt.rdHpsBlk ∧
      (rdAheadBlk s.tgt < T → rdAheadBlk s.tgt < s.tgt.rdHpsBlk) := by
    have := idle.1.1
    simp only [rdCurUnfilled, rdAheadNeeded, rdAheadUnfilled, rdCurBlk, inv.tlen, beq_self_eq_true,
      Bool.true_and, Bool.or_eq_false_iff, Bool.and_eq_false_imp, decide_eq_true_eq,
      decide_eq_false_iff_not, Nat.not_le] at this
    exact ⟨Nat.not_le.mp (of_decide_eq_false this.1), this.2⟩
  have counted : s.tgt.dataCnt ≤ T * 512 := by
    cases complete : s.tgt.dataComplete with
    | true => exact Nat.le_of_eq (inv.complete complete)
    | false => rcases inv.running complete with h | h <;> omega
  have ahead : rdAheadBlk s.tgt = (s.tgt.dataCnt + 3) / 512 := by
    unfold rdAheadBlk
    omega
  rw [ahead] at here
  omega

theorem Offering.step (inv : Offering T s) (count : Counting T s.tgt) (st : Step P words s s')
    (mounted : s.tgt.mounted = true) (rst : s.inp.rst = false) (phase' : s'.tgt.phase = .dataOut)
    (grows : s.tgt.rdHpsBlk ≤ s'.tgt.rdHpsBlk) : Offering T s' := by
  have next : phaseNext P s.inp s.tgt = .dataOut := by rw [← st.phase, phase']
  have same : phaseNext P s.inp s.tgt = s.tgt.phase := by rw [next, count.phase]
  have cnt := count.count_next rst next
  rw [← st.tgt] at cnt
  have acked := st.acked_same same
  have granted : s'.granted =
      if req P s.inp s.tgt then max s.granted (s.tgt.dataCnt + 4) else s.granted := by
    rw [st.granted, grantedNext, if_pos same]
    simp only [consumed, count.phase]
  have pipe := inv.pipe
  have taken := inv.taken
  have covered := inv.covered
  refine ⟨?_, ?_, ?_⟩
  · rw [acked, cnt, st.inPipe_next]
    simp only [inPipe] at pipe
    cases old : s.tgt.oldAck <;> cases ack : s.inp.ack <;>
      simp [rises, old, ack] at pipe ⊢ <;> omega
  · have more : s.granted ≤ s'.granted := by rw [granted]; split <;> omega
    rw [acked]
    cases rise : s.rises with
    | false => simpa using taken.trans more
    | true =>
      have := (st.initiator.offered (by simp [count.phase]) rise).1
      simp only [Bool.toNat_true]
      omega
  · rw [granted]
    have grown := Nat.mul_le_mul_right 512 grows
    split
    · rename_i up
      rw [min_max_distrib_right]
      exact (max_le covered (count.req_covers mounted up)).trans grown
    · exact covered.trans grown

/-! ### The sectors of the ring -/

/-- Every sector has been given to the ring; the data path asks for no more, and
what goes on on the channel is the engine's. -/
structure Filled (T : Nat) (s : CdRom) : Prop where
  phase : s.tgt.phase = .dataOut
  tlen : s.tgt.tlen = T
  front : s.tgt.rdHpsBlk = T
  noWrite : s.tgt.ioWr = false ∧ s.tgt.wrPending = false
  asked : s.tgt.oldIoAck = true → s.tgt.ioRdD = false
  channel : s.eng.ioActive = true ∨
    s.tgt.ioRdD = false ∧ s.hps = .idle ∧ s.tgt.oldIoAck = false

theorem Fetching.filled (inv : Fetching A T s) (full : rdBlkRemain s.tgt = false)
    (asked : s.tgt.oldIoAck = true → s.tgt.ioRdD = false) : Filled T s := by
  have front : s.tgt.rdHpsBlk = T := by
    have le := inv.frontier
    simp only [rdBlkRemain, inv.tlen, decide_eq_false_iff_not] at full
    omega
  refine ⟨inv.phase, inv.tlen, front, ⟨inv.noWrite.1, inv.noWrite.2.1⟩, asked, ?_⟩
  cases inv.channel with
  | engine act => exact .inl act
  | free act rd hps old => exact .inr ⟨rd, hps, old⟩
  | asked | streaming | done => omega

theorem Filled.dataAckFall (inv : Filled T s) (st : Step P words s s') :
    dataAckFall s.inp s.tgt = false := by
  rcases inv.channel with act | ⟨-, -, old⟩
  · simp [Target.dataAckFall, st.ioActive, act]
  · simp [Target.dataAckFall, ioAckFall, old]

theorem Filled.front_next (inv : Filled T s) (st : Step P words s s') : s'.tgt.rdHpsBlk = T := by
  simp [st.tgt, rdHpsBlkNext, transferPhase, inv.phase, inv.dataAckFall st, inv.front]

theorem Step.asked_next (st : Step P words s s') (old : s'.tgt.oldIoAck = true) :
    s'.tgt.ioRdD = false := by
  have ack : s.inp.ioAck = true := by simpa [st.tgt] using old
  simp [st.tgt, ioRdDNext, ack]

theorem Filled.step (inv : Filled T s) (base : Base s) (st : Step P words s s')
    (on : s.sysRst = false) (phase' : s'.tgt.phase = .dataOut) : Filled T s' := by
  have notCmd : s.tgt.phase ≠ .cmdIn := by simp [inv.phase]
  have noFetch : fetchStart P s.inp s.tgt = false := by
    simp [fetchStart, reqRd, rdBlkRemain, inv.tlen, inv.front]
  have noFlush : reqWr P s.tgt = false := by
    by_contra flush
    have := (reqWr_needs (by simpa using flush)).1
    simp [inv.phase] at this
  have settled : Settled s := by
    rcases inv.channel with act | ⟨-, hps, -⟩
    · exact .inr act
    · exact .inl hps
  obtain ⟨wr, pending⟩ := inv.noWrite
  refine
    { phase := phase'
      tlen := by rw [st.tgt, step_tlen, tlenNext_eq notCmd]; exact inv.tlen
      front := inv.front_next st
      noWrite := by simp [st.tgt, ioWrNext, wrPendingNext, wr, pending, noFlush]
      asked := st.asked_next
      channel := ?_ }
  cases act' : s'.eng.ioActive with
  | true => exact .inl rfl
  | false =>
    obtain ⟨idle, engine⟩ := base.released st on settled act'
    have rd : s.tgt.ioRdD = false := by
      rcases inv.channel with act | ⟨rd, -, -⟩
      · have fall := base.letsGo st on act act'
        simp only [ioAckFall, Bool.and_eq_true] at fall
        exact inv.asked fall.1
      · exact rd
    refine .inr ⟨?_, st.stays_idle idle rd wr engine, ?_⟩
    · simp [st.tgt, ioRdDNext, rd, noFetch]
    · simp [st.tgt, st.wired.ioAck, idle, HpsChan.ack]

/-- The ring between its start and the clock in which it is full, and after. -/
inductive Serving (A T : Nat) (s : CdRom) : Prop where
  | fetching (inv : Fetching A T s) (more : rdBlkRemain s.tgt = true)
  | filled (inv : Filled T s)

theorem Fetching.serving (inv : Fetching A T s)
    (asked : s.tgt.oldIoAck = true → s.tgt.ioRdD = false) : Serving A T s := by
  cases more : rdBlkRemain s.tgt with
  | true => exact .fetching inv more
  | false => exact .filled (inv.filled more asked)

/-- One clock of the phase: the frontier and what is accounted for. -/
theorem Serving.step (inv : Serving A T s) (base : Base s) (st : Step P words s s')
    (on : s.sysRst = false) (phase' : s'.tgt.phase = .dataOut)
    (isolated : rdBlkRemain s.tgt = true → audioAckFall s = false) :
    Serving A T s' ∧
      (s'.tgt.rdHpsBlk = s.tgt.rdHpsBlk ∧ accountsNow s = none ∨
        s'.tgt.rdHpsBlk = s.tgt.rdHpsBlk + 1 ∧
          accountsNow s = some ((A + s.tgt.rdHpsBlk) % 2 ^ 32)) := by
  cases inv with
  | fetching inv more =>
    refine ⟨(inv.step st base on phase' (isolated more)).serving st.asked_next, ?_⟩
    have front := inv.frontier_next st fun fall => (inv.fall_served st fall).2
    rw [inv.accountsNow_eq st, front]
    cases dataAckFall s.inp s.tgt <;> simp
  | filled inv =>
    have front := inv.front_next st
    refine ⟨.filled (inv.step base st on phase'), .inl ⟨by rw [front, inv.front], ?_⟩⟩
    rw [st.tgt, step_rdHpsBlk] at front
    simp [accountsNow, front, inv.front]

/-! ### Runs -/

section

variable {r : Run (Step P words)} {start stop t : Nat}

/-- The position of the byte whose acknowledge the target counts in this clock. -/
def handsOver (s : CdRom) : Option Nat := if s.tgt.stbAdv then some s.tgt.dataCnt else none

/-- The positions handed over in the clocks `start + 1, …, t - 1`. -/
def handedOver (r : Run (Step P words)) (start t : Nat) : List Nat :=
  r.log handsOver (start + 1) t

/-- The data phase of the command that completes at `start` ends after clock
`stop` with STATUS, and the image stays mounted until then. -/
structure WholePhase (r : Run (Step P words)) (start stop : Nat) : Prop
    extends DataPhase r start stop where
  mounted : ∀ u, start < u → u ≤ stop → (r.state u).tgt.mounted = true
  leaves : (r.state (stop + 1)).tgt.phase = .statusOut

theorem DataPhase.rst (w : DataPhase r start stop) (h : start < t) (before : t < stop) :
    (r.state t).inp.rst = false ∧ phaseNext P (r.state t).inp (r.state t).tgt = .dataOut := by
  have next := w.phase (t + 1) (by omega) before
  exact ⟨(r.step t).noReset (by simp [next]), by rw [← (r.step t).phase, next]⟩

/-- The count and the bytes handed over along the data phase. -/
theorem DataPhase.counting (w : DataPhase r start stop) (boot : PowerUp P (r.state 0))
    (cpl : cmdCpl P (r.state start).tgt = true) (read : (r.state start).tgt.cmd.cmdRead = true)
    (T : Nat) (hT : T = (r.state start).tgt.cmd.tlenLatch P (r.state start).tgt.cmdCnt)
    (h : start < t) (le : t ≤ stop) :
    Counting T (r.state t).tgt ∧ handedOver r start t = List.range (r.state t).tgt.dataCnt := by
  obtain ⟨n, rfl⟩ : ∃ n, t = start + 1 + n := ⟨t - start - 1, by omega⟩
  induction n with
  | zero =>
    rw [Nat.add_zero]
    have outside : transferPhase (r.state start).tgt = false := by
      simp [transferPhase, cmdCpl_phase cpl]
    have zero : (r.state (start + 1)).tgt.dataCnt = 0 ∧
        (r.state (start + 1)).tgt.dataComplete = false := by
      simp [(r.step start).tgt, dataCntNext, dataCompleteNext, outside]
    refine ⟨?_, by simp [handedOver, Run.log_self, zero.1]⟩
    exact
      { phase := w.phase (start + 1) (by omega) (by omega)
        read := by
          rw [(r.step start).tgt, step_cmd,
            (base_of_run r boot start).paced.cmdNext_cpl (r.step start).toStep cpl]
          exact read
        tlen := by simp [(r.step start).tgt, tlenNext, cpl, hT]
        small := by rw [hT]; exact Cdb.tlenLatch_lt _
        running := by intro; omega
        complete := by simp [zero.2] }
  | succ n ih =>
    obtain ⟨inv, log⟩ := ih (by omega) (by omega)
    obtain ⟨rst, next⟩ := w.rst (t := start + 1 + n) (by omega) (by omega)
    have count := inv.count_next rst next
    have inv' := inv.step rst next
    rw [← (r.step (start + 1 + n)).tgt] at count inv'
    refine ⟨inv', ?_⟩
    unfold handedOver at log ⊢
    rw [← Nat.add_assoc, r.log_succ (by omega), log, count]
    cases adv : (r.state (start + 1 + n)).tgt.stbAdv <;> simp [handsOver, adv, List.range_succ]

/-- The phase ends with `tlen` sectors handed over. -/
theorem WholePhase.count (w : WholePhase r start stop) (boot : PowerUp P (r.state 0))
    (cpl : cmdCpl P (r.state start).tgt = true) (read : (r.state start).tgt.cmd.cmdRead = true)
    (T : Nat) (hT : T = (r.state start).tgt.cmd.tlenLatch P (r.state start).tgt.cmdCnt) :
    (r.state stop).tgt.dataCnt = T * 512 := by
  obtain ⟨inv, -⟩ := w.counting boot cpl read T hT w.after (Nat.le_refl _)
  refine inv.leaves (P := P) ((r.step stop).noReset (by simp [w.leaves])) ?_
  rw [← (r.step stop).phase, w.leaves]
  simp

/-- The ring along the data phase, as long as no transfer of the engine ends
while sectors are missing. -/
theorem DataPhase.serving (w : DataPhase r start stop) (boot : PowerUp P (r.state 0))
    (cpl : cmdCpl P (r.state start).tgt = true) (read : (r.state start).tgt.cmd.cmdRead = true)
    (settled : Settled (r.state start))
    (isolated : ∀ u, start < u → u < stop → rdBlkRemain (r.state u).tgt = true →
      audioAckFall (r.state u) = false)
    (A T : Nat) (hA : A = (r.state start).tgt.cmd.lbaLatch P (r.state start).tgt.cmdCnt)
    (hT : T = (r.state start).tgt.cmd.tlenLatch P (r.state start).tgt.cmdCnt)
    (h : start < t) (le : t ≤ stop) :
    Serving A T (r.state t) ∧
      accounted r start t =
        (List.range (r.state t).tgt.rdHpsBlk).map fun k => (A + k) % 2 ^ 32 := by
  have base := base_of_run r boot
  subst hA hT
  obtain ⟨n, rfl⟩ : ∃ n, t = start + 1 + n := ⟨t - start - 1, by omega⟩
  induction n with
  | zero =>
    have st := r.step start
    have inv := (base start).enters st (w.powered start (by omega) w.after) cpl read
      (w.phase (start + 1) (by omega) (by omega)) settled
    have front : (r.state (start + 1)).tgt.rdHpsBlk = 0 := by
      simp [st.tgt, rdHpsBlkNext, transferPhase, cmdCpl_phase cpl]
    exact ⟨inv.serving st.asked_next, by simp [accounted, Run.log_self, front]⟩
  | succ n ih =>
    obtain ⟨inv, log⟩ := ih (by omega) (by omega)
    have st := r.step (start + 1 + n)
    obtain ⟨inv', moved⟩ := inv.step (base _) st
      (w.powered (start + 1 + n) (by omega) (by omega))
      (w.phase (start + 1 + (n + 1)) (by omega) le)
      (isolated (start + 1 + n) (by omega) (by omega))
    refine ⟨inv', ?_⟩
    unfold accounted at log ⊢
    rw [← Nat.add_assoc, r.log_succ (by omega), log]
    rcases moved with ⟨front, none⟩ | ⟨front, some⟩
    · simp [front, none]
    · simp [front, some, List.range_succ]

/-- What REQ has vouched for along the data phase. -/
theorem WholePhase.offering (w : WholePhase r start stop) (boot : PowerUp P (r.state 0))
    (cpl : cmdCpl P (r.state start).tgt = true) (read : (r.state start).tgt.cmd.cmdRead = true)
    (settled : Settled (r.state start))
    (isolated : ∀ u, start < u → u < stop → rdBlkRemain (r.state u).tgt = true →
      audioAckFall (r.state u) = false)
    (T : Nat) (hT : T = (r.state start).tgt.cmd.tlenLatch P (r.state start).tgt.cmdCnt)
    (h : start < t) (le : t ≤ stop) : Offering T (r.state t) := by
  obtain ⟨n, rfl⟩ : ∃ n, t = start + 1 + n := ⟨t - start - 1, by omega⟩
  have base := base_of_run r boot
  induction n with
  | zero =>
    rw [Nat.add_zero]
    have st := r.step start
    obtain ⟨empty, ack, -⟩ := (base start).paced.drained st.toStep cpl
    have phase' := w.phase (start + 1) (by omega) (by omega)
    have new : phaseNext P (r.state start).inp (r.state start).tgt ≠ (r.state start).tgt.phase := by
      rw [← st.phase, phase', cmdCpl_phase cpl]
      simp
    have count : (r.state (start + 1)).tgt.dataCnt = 0 := by
      simp [st.tgt, dataCntNext, transferPhase, cmdCpl_phase cpl]
    have old : (r.state start).tgt.oldAck = false := by
      cases high : (r.state start).tgt.oldAck with
      | false => rfl
      | true => simp [inPipe, high] at empty
    have pipe : inPipe (r.state (start + 1)).tgt = 0 := by rw [st.inPipe_next, ack, old]; rfl
    have granted : (r.state (start + 1)).granted = 0 := by
      rw [st.granted, grantedNext, if_neg new]
    have acked := st.acked_new new
    exact ⟨by omega, by omega, by simp [granted]⟩
  | succ n ih =>
    have st := r.step (start + 1 + n)
    obtain ⟨rst, -⟩ := w.rst (t := start + 1 + n) (by omega) (by omega)
    obtain ⟨count, -⟩ := w.counting boot cpl read T hT (t := start + 1 + n) (by omega) (by omega)
    obtain ⟨serving, -⟩ := w.serving boot cpl read settled isolated _ T rfl hT
      (t := start + 1 + n) (by omega) (by omega)
    obtain ⟨-, moved⟩ := serving.step (base _) st
      (w.powered (start + 1 + n) (by omega) (by omega))
      (w.phase (start + 1 + (n + 1)) (by omega) le)
      (isolated (start + 1 + n) (by omega) (by omega))
    refine (ih (by omega) (by omega)).step count st (w.mounted _ (by omega) (by omega)) rst
      (w.phase (start + 1 + (n + 1)) (by omega) le) ?_
    rcases moved with ⟨front, -⟩ | ⟨front, -⟩
    · exact Nat.le_of_eq front.symm
    · exact (Nat.le_succ _).trans (Nat.le_of_eq front.symm)

/-- A READ of `N` blocks at block `L` is carried out in 512-byte units: `2048 * N`
bytes are handed over in order, the ring accounts for the sectors
`4 * L, …, 4 * L + 4 * N - 1`, and while sectors are missing `lba` is the one
at the frontier. -/
structure Scaled (r : Run (Step P words)) (start stop L N : Nat) : Prop where
  bytes : handedOver r start stop = List.range (2048 * N)
  sectors : accounted r start stop = (List.range (4 * N)).map (4 * L + ·)
  asked : ∀ u, start < u → u ≤ stop → rdBlkRemain (r.state u).tgt = true →
    (r.state u).tgt.lba = 4 * L + (r.state u).tgt.rdHpsBlk

end

/-- A transfer of the engine that ends while sectors are missing puts `lba` past
the frontier. -/
theorem audioAckFall_skips {s s' : CdRom} (st : Step P words s s') (phase : s.tgt.phase = .dataOut)
    (falls : audioAckFall s = true) :
    s'.tgt.lba = (s.tgt.lba + 1) % 2 ^ 32 ∧ s'.tgt.rdHpsBlk = s.tgt.rdHpsBlk ∧
      s'.tgt.tlen = s.tgt.tlen := by
  simp only [audioAckFall, Bool.and_eq_true] at falls
  obtain ⟨fall, act⟩ := falls
  have none : cmdCpl P s.tgt = false := by simp [cmdCpl, phase]
  have data : dataAckFall s.inp s.tgt = false := by simp [dataAckFall, st.ioActive, act]
  refine ⟨?_, ?_, ?_⟩ <;> rw [st.tgt]
  · simp [lbaNext, none, fall]
  · simp [rdHpsBlkNext, transferPhase, phase, data]
  · simp [tlenNext, none]

/-- A CD READ of `N` blocks on the medium is served exactly if `N` is below 16384
and no transfer of the engine ends in its data phase while sectors are missing. -/
theorem read_scaled_iff (cd : P.cdrom = true) (r : Run (Step P words))
    (boot : PowerUp P (r.state 0)) (wires : ∀ t, (r.state t).inp.imgBlocks < 2 ^ 32)
    (start stop L N : Nat)
    (accepted : accepted P (r.state start).inp (r.state start).tgt = true)
    (read : (r.state start).tgt.cmd.cmdRead = true)
    (hL : L = (r.state start).tgt.cmd.lbaField (r.state start).tgt.cmdCnt)
    (hN : N = (r.state start).tgt.cmd.tlenField (r.state start).tgt.cmdCnt)
    (fits : L + N ≤ mountedBlocks (r.state start).tgt)
    (settled : Settled (r.state start)) (window : WholePhase r start stop) :
    Scaled r start stop L N ↔
      N < 16384 ∧ ∀ u, start < u → u < stop → rdBlkRemain (r.state u).tgt = true →
        audioAckFall (r.state u) = false := by
  have cpl : cmdCpl P (r.state start).tgt = true := by
    simp only [Target.accepted, Bool.and_eq_true] at accepted
    exact accepted.1
  obtain ⟨lba, tlen⟩ := Cdb.scaled_latch cd read (r.state start).tgt.cmdCnt
  rw [← hL] at lba
  rw [← hN] at tlen
  have size := mountedBlocks_le cd r boot wires start
  have count := window.count boot cpl read _ tlen.symm
  have bytes := (window.counting boot cpl read _ tlen.symm window.after (Nat.le_refl _)).2
  rw [count] at bytes
  constructor
  · intro scaled
    constructor
    · have lengths := congrArg List.length (bytes.symm.trans scaled.bytes)
      simp only [List.length_range] at lengths
      omega
    · intro u after before more
      by_contra falls
      have inside := window.phase u after (by omega)
      obtain ⟨moved, front, same⟩ := audioAckFall_skips (r.step u) inside (by simpa using falls)
      have here := scaled.asked u after (by omega) more
      have more' : rdBlkRemain (r.state (u + 1)).tgt = true := by
        rw [← more, rdBlkRemain, rdBlkRemain, front, same]
      have next := scaled.asked (u + 1) (by omega) before more'
      rw [front, ← here, moved] at next
      exact lba_moves _ next
  · rintro ⟨short, isolated⟩
    have exact_ : 4 * N % 2 ^ 16 = 4 * N := Nat.mod_eq_of_lt (by omega)
    have fit : ∀ k, k < 4 * N → (4 * L % 2 ^ 32 + k) % 2 ^ 32 = 4 * L + k := by omega
    have serving := fun u (after : start < u) (le : u ≤ stop) =>
      window.serving boot cpl read settled isolated _ _ lba.symm tlen.symm after le
    rw [exact_] at count bytes serving
    have offering := window.offering boot cpl read settled isolated _
      (exact_.symm.trans tlen.symm) window.after (Nat.le_refl _)
    have full : (r.state stop).tgt.rdHpsBlk = 4 * N := by
      have pipe := offering.pipe
      have taken := offering.taken
      have covered := offering.covered
      have le : (r.state stop).tgt.rdHpsBlk ≤ 4 * N := by
        cases (serving stop window.after (Nat.le_refl _)).1 with
        | fetching inv => exact inv.frontier
        | filled inv => exact Nat.le_of_eq inv.front
      omega
    refine ⟨by rw [bytes]; congr 1; omega, ?_, ?_⟩
    · rw [(serving stop window.after (Nat.le_refl _)).2, full]
      exact List.map_congr_left fun k inside => fit k (List.mem_range.mp inside)
    · intro u after le more
      cases (serving u after le).1 with
      | fetching inv =>
        rw [inv.lba]
        refine fit _ ?_
        simpa [rdBlkRemain, inv.tlen] using more
      | filled inv => simp [rdBlkRemain, inv.tlen, inv.front] at more

/-! ### READ(6) of one block -/

theorem blockScript_blocks (t : Nat) : (blockScript t).imgBlocks < 2 ^ 32 := by
  unfold blockScript
  split
  · refine Segments.script_all (Q := fun x => x.imgBlocks < 2 ^ 32) (by decide) ?_ t
    simp [blockFetch, Segments.mount, Segments.session, Segments.command, Segments.handshake,
      silent]
  · exact Nat.two_pow_pos 32

theorem blockRun_wires (t : Nat) : (blockRun.state t).inp.imgBlocks < 2 ^ 32 := by
  have input : (blockRun.state t).inp.imgBlocks = (blockScript t).imgBlocks := by
    cases t <;> rfl
  rw [input]
  exact blockScript_blocks t

theorem blockRun_wholePhase : WholePhase blockRun 553 5698 where
  toDataPhase := blockRun_dataPhase (by omega) (Nat.le_refl _)
  mounted u after le := (blockRead_data after le).2.1
  leaves := blockRead_status

/-- All 2048 bytes of block 5 are handed over, from its four sectors. -/
theorem read_scaled_block : Scaled blockRun 553 5698 5 1 := by
  obtain ⟨ok, read, field, six, tlen, size, idle⟩ := blockRead_accepted
  have length : 1 = (blockRun.state 553).tgt.cmd.tlenField (blockRun.state 553).tgt.cmdCnt := by
    have short : (blockRun.state 553).tgt.cmd.cmd6Cpl (blockRun.state 553).tgt.cmdCnt = true := six
    rw [Cdb.tlenField, if_pos short]
    exact tlen.symm
  have blocks : mountedBlocks (blockRun.state 553).tgt = 16384 := by
    have last : (blockRun.state 553).tgt.capacity = 16383 := size
    rw [mountedBlocks, last]
    decide
  refine (read_scaled_iff rfl blockRun (boot_powerUp _) blockRun_wires 553 5698 5 1 ok read
    field.symm length ?_ (.inl idle) blockRun_wholePhase).mpr ⟨by decide, ?_⟩
  · rw [blocks]
    decide
  · exact fun u after before _ => blockRun_isolated after (by omega)

/-! ### READ(10) of 16384 blocks -/

def readScript : Segments :=
  Segments.mount 65536 ++ [(1, silent)] ++
    Segments.command Params.cdromTarget [0x28, 0, 0, 0, 0, 0, 0, 0x40, 0, 0]

/-- The states of that script. -/
def reading : Nat → CdRom := scripted Params.cdromTarget readScript.script

/-- What the script does, by evaluation: the READ completes at clock 44 with the
channel at rest, and its data phase is over at once. -/
theorem reading_facts :
    ((List.range readScript.clocks).all fun t =>
        legal Params.cdromTarget HpsChan.sectorWords (reading t)) = true ∧
      (Target.accepted Params.cdromTarget (reading 44).inp (reading 44).tgt = true ∧
        (reading 44).tgt.cmd.cmdRead = true ∧
        (reading 44).tgt.cmd.lbaField (reading 44).tgt.cmdCnt = 0 ∧
        (reading 44).tgt.cmd.tlenField (reading 44).tgt.cmdCnt = 16384 ∧
        mountedBlocks (reading 44).tgt = 16384) ∧
      (reading 45).tgt.phase = .dataOut ∧ (reading 45).tgt.mounted = true ∧
      (reading 46).tgt.phase = .statusOut := by
  decide +kernel

def readingRun : Run (Step Params.cdromTarget HpsChan.sectorWords) :=
  ofScript readScript.script (segments_legal readScript reading_facts.1)

theorem reading_wholePhase : WholePhase readingRun 44 45 := by
  obtain ⟨-, -, phase, mounted, leaves⟩ := reading_facts
  refine
    { after := by omega, phase := ?_, powered := fun u _ _ => scripted_sysRst _ u
      mounted := ?_, leaves := leaves }
  · intro u after le
    obtain rfl : u = 45 := by omega
    exact phase
  · intro u after le
    obtain rfl : u = 45 := by omega
    exact mounted

/-- 16384 blocks are on the disc, and a READ of them ends without a byte. -/
theorem read_not_scaled :
    PowerUp Params.cdromTarget (readingRun.state 0) ∧
      Target.accepted Params.cdromTarget (reading 44).inp (reading 44).tgt = true ∧
      (reading 44).tgt.cmd.cmdRead = true ∧
      (reading 44).tgt.cmd.lbaField (reading 44).tgt.cmdCnt = 0 ∧
      (reading 44).tgt.cmd.tlenField (reading 44).tgt.cmdCnt = 16384 ∧
      mountedBlocks (reading 44).tgt = 16384 ∧ WholePhase readingRun 44 45 ∧
      handedOver readingRun 44 45 = [] ∧ ¬ Scaled readingRun 44 45 0 16384 := by
  obtain ⟨-, ⟨ok, read, lba, tlen, size⟩, -⟩ := reading_facts
  have none : handedOver readingRun 44 45 = [] := Run.log_self _ _ _
  refine ⟨boot_powerUp _, ok, read, lba, tlen, size, reading_wholePhase, none, ?_⟩
  intro scaled
  have lengths := congrArg List.length (none.symm.trans scaled.bytes)
  simp at lengths

end CdRom

end MacIIvi
