import MacIIvi.Clocked.Ring
import MacIIvi.Scsi.Quiescence
import MacIIvi.Scsi.Scenario

/-!
# The read-prefetch ring

A READ keeps the sectors between the one the Mac is reading and the fetch
frontier `rd_hps_blk` in a ring of `RING_BLOCKS` sectors. The ring invariant
ties the frontier, the consume counter, the LBA register, the single fetch in
flight and the memory together; what REQ promises is read off it.
-/

namespace MacIIvi

open Clocked Clocked.Ring

/-- Byte `off` of a sector of the medium; the even byte of a word is low. -/
def mediumByte (medium : Nat → Nat → BitVec 16) (lba off : Nat) : Byte :=
  (medium lba (off / 2)).extractLsb' (off % 2 * 8) 8

namespace Target

/-- Byte `n` of the read stream as the ring holds it now. -/
def ringByte (P : Params) (s : Target) (n : Nat) : Byte :=
  if n % 2 = 0 then s.buffer0.ramAb (n / 2 % 2 ^ P.bufAw)
  else s.buffer1.ramAb (n / 2 % 2 ^ P.bufAw)

end Target

namespace Disk

open Target Bus

variable {P : Params} {medium : Nat → Nat → BitVec 16} {L T : Nat} {s s' : Disk}

/-- The even bytes of the transfer that starts at sector `L`. -/
def evenLane (medium : Nat → Nat → BitVec 16) (L b w : Nat) : Byte :=
  (medium ((L + b) % 2 ^ 32) w).extractLsb' 0 8

/-- The odd bytes. -/
def oddLane (medium : Nat → Nat → BitVec 16) (L b w : Nat) : Byte :=
  (medium ((L + b) % 2 ^ 32) w).extractLsb' 8 8

/-- The first `w` words of the sector at the frontier are in the ring. -/
structure Arrived (P : Params) (medium : Nat → Nat → BitVec 16) (L : Nat) (s : Disk) (w : Nat) :
    Prop where
  even : Partial P.ringBlocks 256 s.tgt.buffer0.ramAb (evenLane medium L) s.tgt.rdHpsBlk w
  odd : Partial P.ringBlocks 256 s.tgt.buffer1.ramAb (oddLane medium L) s.tgt.rdHpsBlk w

/-- The frontier sector is wanted and its slot is free. -/
def Room (P : Params) (T : Nat) (s : Disk) : Prop :=
  s.tgt.rdHpsBlk < T ∧ s.tgt.rdHpsBlk < rdCurBlk s.tgt + P.ringBlocks

/-- The fetch of the frontier sector: not asked for, asked for, being streamed,
or acknowledged in this clock. -/
inductive Fetch (P : Params) (medium : Nat → Nat → BitVec 16) (L T : Nat) (s : Disk) : Prop where
  | none (busy : s.tgt.rdBusy = false) (rd : s.tgt.ioRdD = false) (hps : s.hps = .idle)
      (old : s.tgt.oldIoAck = false)
  | asked (busy : s.tgt.rdBusy = true) (rd : s.tgt.ioRdD = true)
      (hps : s.hps = .idle ∨ s.hps = .latched false s.tgt.lba) (old : s.tgt.oldIoAck = false)
      (room : Room P T s)
  | streaming (w : Nat) (busy : s.tgt.rdBusy = true) (hps : s.hps = .reading s.tgt.lba w)
      (le : w ≤ 256) (arrived : Arrived P medium L s w) (room : Room P T s)
  | done (busy : s.tgt.rdBusy = true) (rd : s.tgt.ioRdD = false) (hps : s.hps = .idle)
      (old : s.tgt.oldIoAck = true) (arrived : Arrived P medium L s 256) (room : Room P T s)

/-- The ring during the data phase of a READ of `T` sectors at `L`. -/
structure ReadInv (P : Params) (medium : Nat → Nat → BitVec 16) (L T : Nat) (s : Disk) :
    Prop where
  phase : s.tgt.phase = .dataOut
  read : s.tgt.cmd.cmdRead = true
  tlen : s.tgt.tlen = T
  lba : s.tgt.lba = (L + s.tgt.rdHpsBlk) % 2 ^ 32
  frontier : s.tgt.rdHpsBlk ≤ T
  window : s.tgt.rdHpsBlk ≤ rdCurBlk s.tgt + P.ringBlocks
  acked : s.acked ≤ s.granted
  granted : min s.granted (T * 512) ≤ s.tgt.rdHpsBlk * 512
  count : s.tgt.dataCnt ≤ s.tgt.rdHpsBlk * 512
  noWrite : s.tgt.ioWr = false ∧ s.tgt.wrPending = false ∧ s.tgt.buffer0Wr = false ∧
    s.tgt.buffer1Wr = false
  even : Filled P.ringBlocks 256 s.tgt.buffer0.ramAb (evenLane medium L) (rdCurBlk s.tgt)
    s.tgt.rdHpsBlk
  odd : Filled P.ringBlocks 256 s.tgt.buffer1.ramAb (oddLane medium L) (rdCurBlk s.tgt)
    s.tgt.rdHpsBlk
  fetch : Fetch P medium L T s

/-- A word of another slot's session, if one arrives in this clock, spares the sectors
the ring holds. It lands in the slot of the frontier, since the strobe is gated by the
target's BSY alone; so the ring has to have a free slot, and the frontier must not be a
whole sector whose acknowledge falls in this clock. -/
def Spared (P : Params) (s : Disk) : Prop :=
  ∀ a d, s.move = .other a d →
    s.tgt.rdHpsBlk < rdCurBlk s.tgt + P.ringBlocks ∧ s.tgt.oldIoAck = false

namespace ReadInv

variable (inv : ReadInv P medium L T s)

include inv in
theorem block : s.tgt.cmd.blockCmd = true := by simp [Cdb.blockCmd, inv.read]

include inv in
theorem length : dataLen P s.tgt = T * 512 := by rw [dataLen_block inv.block, inv.tlen]

include inv in
theorem running (rst : s.inp.rst = false) (stays : phaseNext P s.inp s.tgt = .dataOut) :
    T ≠ 0 ∧ s.tgt.dataComplete = false := by
  have done : dataDone P s.tgt = false := by
    by_contra done
    rw [phaseNext_dataOut rst inv.phase, if_pos (by simpa using done)] at stays
    simp at stays
  rw [dataDone_block inv.block, inv.length] at done
  simp at done
  exact ⟨by omega, done.1⟩

include inv in
theorem transferring (nonempty : T ≠ 0) : transfers P s.tgt = true :=
  transfers_iff.mpr ⟨.inl inv.phase, inv.block, by rw [inv.length]; omega⟩

/-- The frontier after one clock: it moves when the fetch is acknowledged. -/
theorem frontier_next (inv : ReadInv P medium L T s) (st : Step P medium s s')
    (sound : Sound P s) :
    s'.tgt.rdHpsBlk = s.tgt.rdHpsBlk + (ioAckFall s.inp s.tgt).toNat := by
  have small := sound.tlen
  rw [inv.tlen] at small
  have frontier := inv.frontier
  rw [st.tgt, step_rdHpsBlk]
  cases fall : ioAckFall s.inp s.tgt with
  | false => simp [rdHpsBlkNext, transferPhase, inv.phase, dataAckFall, fall]
  | true =>
    simp only [rdHpsBlkNext, transferPhase, inv.phase, dataAckFall, fall, st.ca, inv.read]
    simp
    omega

theorem lba_next (inv : ReadInv P medium L T s) (st : Step P medium s s') :
    s'.tgt.lba = (L + (s.tgt.rdHpsBlk + (ioAckFall s.inp s.tgt).toNat)) % 2 ^ 32 := by
  have none : cmdCpl P s.tgt = false := by simp [cmdCpl, inv.phase]
  have lba := inv.lba
  rw [st.tgt, step_lba, lbaNext, if_neg (by simp [none])]
  cases fall : ioAckFall s.inp s.tgt with
  | false => simpa using lba
  | true => simp only [if_true, lba, Bool.toNat_true]; omega

/-- The count after one clock. -/
theorem count_next (inv : ReadInv P medium L T s) (st : Step P medium s s') (sound : Sound P s)
    (sound' : Sound P s') (rst : s.inp.rst = false)
    (stays : phaseNext P s.inp s.tgt = .dataOut) :
    s.tgt.dataCnt ≤ s'.tgt.dataCnt ∧ s'.tgt.dataCnt ≤ s'.acked ∧ s'.acked ≤ T * 512 := by
  obtain ⟨nonempty, running⟩ := inv.running rst stays
  have same : phaseNext P s.inp s.tgt = s.tgt.phase := by rw [stays, inv.phase]
  have phase' : s'.tgt.phase = .dataOut := by rw [st.tgt, step_phase, stays]
  have cnt : counted P s.tgt = true := by simp [counted, inv.transferring nonempty]
  have step := sound.consumed_same st rst same cnt
  have len' : dataLen P s'.tgt = T * 512 := by
    rw [st.tgt, dataLen_step (by simp [inv.phase]) inv.block, inv.length]
  have cmd' : s'.tgt.cmd = s.tgt.cmd := by rw [st.tgt, step_cmd, cmdNext_eq (by simp [inv.phase])]
  have cnt' : counted P s'.tgt = true := by
    have : transfers P s'.tgt = true :=
      transfers_iff.mpr ⟨.inl phase', by rw [cmd']; exact inv.block, by rw [len']; omega⟩
    simp [counted, this]
  have pipe' := sound'.pipe cnt'
  have within' := sound'.within cnt'
  simp only [consumed, offered, inv.phase, phase', len'] at step pipe' within'
  omega

end ReadInv

/-- What REQ vouches for: up to three bytes past the count are resident, unless
they lie past the end of the transfer. -/
theorem ReadInv.req_covers (inv : ReadInv P medium L T s) (sound : Sound P s)
    (mounted : s.tgt.mounted = true) (req : req P s.inp s.tgt = true) :
    s.tgt.dataCnt < T * 512 ∧
      min (s.tgt.dataCnt + 4) (T * 512) ≤ s.tgt.rdHpsBlk * 512 := by
  simp [Target.req, dataPhaseComplete, inv.phase] at req
  obtain ⟨⟨⟨⟨-, ready⟩, more⟩, -⟩, -⟩ := req
  rw [dataDone_block inv.block, inv.length] at more
  simp at more
  have nonempty : T ≠ 0 := by omega
  have below := sound.complete (.inl inv.phase) inv.block (by rw [inv.length]; omega)
  simp only [more.1, inv.length, Bool.false_eq_true, if_false] at below
  have small := sound.tlen
  rw [inv.tlen] at small
  simp [ioBusy, inv.phase, inv.read, mounted] at ready
  have current : ¬ s.tgt.rdHpsBlk ≤ s.tgt.dataCnt / 512 := of_decide_eq_false ready.1
  have ahead : (s.tgt.dataCnt + 3) % 2 ^ 32 / 512 % 2 ^ 23 < T →
      ¬ s.tgt.rdHpsBlk ≤ (s.tgt.dataCnt + 3) % 2 ^ 32 / 512 % 2 ^ 23 := by
    intro needed
    exact of_decide_eq_false (ready.2 (by simpa [rdAheadNeeded, rdAheadBlk, inv.tlen] using needed))
  refine ⟨below, ?_⟩
  omega

/-! ### Memory and fetch after one clock -/

/-- Without a strobe the buffers keep their contents. -/
theorem ReadInv.mem_hold (inv : ReadInv P medium L T s) (st : Step P medium s s')
    (strobe : s.inp.sdBuffWr = false) :
    s'.tgt.buffer0.ramAb = s.tgt.buffer0.ramAb ∧ s'.tgt.buffer1.ramAb = s.tgt.buffer1.ramAb := by
  obtain ⟨-, -, wr0, wr1⟩ := inv.noWrite
  rw [st.tgt, step_buffer0, step_buffer1, Dpram.step_ramAb, Dpram.step_ramAb]
  constructor <;> apply Dpram.writePorts_idle <;>
    simp [buffer0In, buffer1In, bufferIn, strobe, wr0, wr1]

/-- A word of the session lands in the frontier's slot. -/
theorem ReadInv.mem_word (inv : ReadInv P medium L T s) (st : Step P medium s s') {w : Nat}
    {d : BitVec 16} (hps : s.hps = .reading s.tgt.lba w) (move : s.move = .word d) :
    w < 256 ∧
      s'.tgt.buffer0.ramAb = Function.update s.tgt.buffer0.ramAb
        (cell P.ringBlocks 256 s.tgt.rdHpsBlk w) (evenLane medium L s.tgt.rdHpsBlk w) ∧
      s'.tgt.buffer1.ramAb = Function.update s.tgt.buffer1.ramAb
        (cell P.ringBlocks 256 s.tgt.rdHpsBlk w) (oddLane medium L s.tgt.rdHpsBlk w) := by
  obtain ⟨-, -, wr0, wr1⟩ := inv.noWrite
  have more : w < 256 := by
    have := st.allowed
    simpa [hps, move, HpsChan.allows] using this
  have data : d = medium ((L + s.tgt.rdHpsBlk) % 2 ^ 32) w := by
    have := st.served
    rw [← inv.lba]
    simpa [hps, move, HpsChan.Serves] using this
  have strobe : s.inp.sdBuffWr = true := by
    simp [st.wired.sdBuffWr, hps, move, HpsChan.strobe, bsy, inv.phase]
  have addr : s.inp.sdBuffAddr = w := by
    rw [st.wired.sdBuffAddr, hps, move]
    exact Nat.mod_eq_of_lt more
  have dout : s.inp.sdBuffDout = d := by rw [st.wired.sdBuffDout, hps, move]; rfl
  have slot : hpsAddr P s.inp s.tgt = cell P.ringBlocks 256 s.tgt.rdHpsBlk w := by
    simp [hpsAddr, Cdb.cmdWrite_of_read inv.read, addr, cell]
  refine ⟨more, ?_, ?_⟩ <;>
    simp [st.tgt, Dpram.writePorts, buffer0In, buffer1In, bufferIn, strobe, st.ca, wr0, wr1,
      slot, TargetIn.evenByte, TargetIn.oddByte, dout, data, evenLane, oddLane]

/-- A word of another slot's session lands in the frontier's slot as well. -/
theorem ReadInv.mem_other (inv : ReadInv P medium L T s) (st : Step P medium s s') {a : Nat}
    {d : BitVec 16} (move : s.move = .other a d) :
    hpsAddr P s.inp s.tgt = cell P.ringBlocks 256 s.tgt.rdHpsBlk (a % 256) ∧
      s'.tgt.buffer0.ramAb = Function.update s.tgt.buffer0.ramAb
        (cell P.ringBlocks 256 s.tgt.rdHpsBlk (a % 256)) (d.extractLsb' 0 8) ∧
      s'.tgt.buffer1.ramAb = Function.update s.tgt.buffer1.ramAb
        (cell P.ringBlocks 256 s.tgt.rdHpsBlk (a % 256)) (d.extractLsb' 8 8) := by
  obtain ⟨-, -, wr0, wr1⟩ := inv.noWrite
  have strobe : s.inp.sdBuffWr = true := by
    cases hps : s.hps <;> simp [st.wired.sdBuffWr, hps, move, HpsChan.strobe, bsy, inv.phase]
  have addr : s.inp.sdBuffAddr = a % 256 := by
    cases hps : s.hps <;> simp [st.wired.sdBuffAddr, hps, move, HpsChan.addr]
  have slot : hpsAddr P s.inp s.tgt = cell P.ringBlocks 256 s.tgt.rdHpsBlk (a % 256) := by
    simp [hpsAddr, Cdb.cmdWrite_of_read inv.read, addr, cell]
  have dout : s.inp.sdBuffDout = d := by
    have allowed := st.allowed
    cases hps : s.hps <;>
      simp [hps, move, HpsChan.allows, st.wired.sdBuffDout, HpsChan.dout] at allowed ⊢
  refine ⟨slot, ?_, ?_⟩ <;>
    simp [st.tgt, Dpram.writePorts, buffer0In, buffer1In, bufferIn, strobe, st.ca, wr0, wr1,
      slot, TargetIn.evenByte, TargetIn.oddByte, dout]

/-- A strobe is a word of the slot's own session or of another slot's. -/
theorem Step.strobe_cases (st : Step P medium s s') :
    s.inp.sdBuffWr = false ∨ (∃ lba w d, s.hps = .reading lba w ∧ s.move = .word d) ∨
      (s.hps.ack = false ∧ ∃ a d, s.move = .other a d) := by
  have wired := st.wired.sdBuffWr
  have allowed := st.allowed
  cases hps : s.hps <;> cases move : s.move <;>
    simp [hps, move, HpsChan.strobe, HpsChan.allows, HpsChan.ack] at wired allowed ⊢ <;>
    exact wired

theorem Arrived.keep {w : Nat} (arrived : Arrived P medium L s w)
    (even : s'.tgt.buffer0.ramAb = s.tgt.buffer0.ramAb)
    (odd : s'.tgt.buffer1.ramAb = s.tgt.buffer1.ramAb)
    (front : s'.tgt.rdHpsBlk = s.tgt.rdHpsBlk) : Arrived P medium L s' w :=
  ⟨by rw [even, front]; exact arrived.even, by rw [odd, front]; exact arrived.odd⟩

theorem Room.keep (room : Room P T s) (front : s'.tgt.rdHpsBlk = s.tgt.rdHpsBlk)
    (count : s.tgt.dataCnt ≤ s'.tgt.dataCnt) : Room P T s' := by
  unfold Room rdCurBlk at room ⊢
  omega

/-- A fetch starts only into a free slot. -/
theorem ReadInv.room_of_start (inv : ReadInv P medium L T s) (sound : Sound P s)
    (start : fetchStart P s.inp s.tgt = true) : Room P T s := by
  simp [fetchStart, reqRd] at start
  have remain : s.tgt.rdHpsBlk < s.tgt.tlen := of_decide_eq_true start.1.1.2.1.2
  have space : (s.tgt.rdHpsBlk + 2 ^ 32 - rdCurBlk s.tgt) % 2 ^ 32 < P.ringBlocks :=
    of_decide_eq_true start.1.1.2.2
  have small := sound.tlen
  have count := inv.count
  rw [inv.tlen] at remain small
  unfold Room rdCurBlk at *
  omega

/-- What one clock does to the fetch. -/
theorem ReadInv.fetch_step (inv : ReadInv P medium L T s) (st : Step P medium s s')
    (sound : Sound P s) (rst : s.inp.rst = false)
    (count : s.tgt.dataCnt ≤ s'.tgt.dataCnt) : Fetch P medium L T s' := by
  have front := inv.frontier_next st sound
  have lba' := inv.lba_next st
  have noWr := inv.noWrite.1
  have req : s.tgt.hpsReq s.inp = ⟨s.tgt.ioRdD, false, s.tgt.lba⟩ := by
    simp [hpsReq, ioRd, Target.ioLba, st.ca, noWr]
  have ioAck : s.inp.ioAck = s.hps.ack := by simp [st.wired.ioAck, bsy, inv.phase]
  have old' : s'.tgt.oldIoAck = s.hps.ack := by rw [st.tgt, step_oldIoAck, ioAck]
  have rd' : s'.tgt.ioRdD = (!s.hps.ack && (s.tgt.ioRdD || fetchStart P s.inp s.tgt)) := by
    rw [st.tgt, step_ioRdD, ioRdDNext, ioAck]
    cases s.hps.ack <;> simp [rst]
  have busy' : s'.tgt.rdBusy =
      (!ioAckFall s.inp s.tgt && (s.tgt.rdBusy || fetchStart P s.inp s.tgt)) := by
    rw [st.tgt, step_rdBusy, rdBusyNext]
    cases ioAckFall s.inp s.tgt <;> simp [rst]
  have hps' := st.hps
  rw [req] at hps'
  cases inv.fetch with
  | none busy rd hps old =>
    have idle' := st.hps_idle hps rd noWr
    have fall : ioAckFall s.inp s.tgt = false := by simp [ioAckFall, old]
    simp only [fall, Bool.toNat_false, Nat.add_zero] at front
    cases start : fetchStart P s.inp s.tgt with
    | false =>
      exact .none (by simp [busy', busy, start]) (by simp [rd', rd, start]) idle'
        (by simp [old', hps, HpsChan.ack])
    | true =>
      exact .asked (by simp [busy', fall, start]) (by simp [rd', hps, HpsChan.ack, start])
        (.inl idle') (by simp [old', hps, HpsChan.ack])
        ((inv.room_of_start sound start).keep front count)
  | asked busy rd hps old room =>
    have fall : ioAckFall s.inp s.tgt = false := by simp [ioAckFall, old]
    simp only [fall, Bool.toNat_false, Nat.add_zero] at front
    have keepLba : s'.tgt.lba = s.tgt.lba := by rw [lba', inv.lba]; simp [fall]
    have noAck : s.hps.ack = false := by rcases hps with h | h <;> simp [h, HpsChan.ack]
    have stillBusy : s'.tgt.rdBusy = true := by simp [busy', fall, busy]
    have stillUp : s'.tgt.ioRdD = true := by simp [rd', noAck, rd]
    have next : (s'.hps = .idle ∨ s'.hps = .latched false s.tgt.lba) ∨
        s'.hps = .reading s.tgt.lba 0 := by
      have allowed := st.allowed
      rw [req] at allowed
      rw [hps']
      rcases hps with h | h <;> rw [h] at allowed ⊢ <;> cases move : s.move <;>
        simp [move, HpsChan.allows, HpsChan.next] at allowed ⊢
      simp [allowed]
    rcases next with waiting | stream
    · exact .asked stillBusy stillUp (by rwa [keepLba]) (by rw [old', noAck])
        (room.keep front count)
    · exact .streaming 0 stillBusy (by rwa [keepLba]) (by omega)
        ⟨partial_zero _ _ _, partial_zero _ _ _⟩ (room.keep front count)
  | streaming w busy hps le arrived room =>
    have ack : s.hps.ack = true := by simp [hps, HpsChan.ack]
    have fall : ioAckFall s.inp s.tgt = false := by simp [ioAckFall, ioAck, ack]
    simp only [fall, Bool.toNat_false, Nat.add_zero] at front
    have keepLba : s'.tgt.lba = s.tgt.lba := by rw [lba', inv.lba]; simp [fall]
    have stillBusy : s'.tgt.rdBusy = true := by simp [busy', fall, busy]
    have allowed := st.allowed
    rw [hps] at allowed hps'
    cases move : s.move with
    | word d =>
      obtain ⟨more, even, odd⟩ := inv.mem_word st hps move
      refine .streaming (w + 1) stillBusy ?_ (by omega) ⟨?_, ?_⟩ (room.keep front count)
      · simpa [move, HpsChan.next, keepLba] using hps'
      · rw [even, front]
        exact arrived.even.write more
      · rw [odd, front]
        exact arrived.odd.write more
    | wait =>
      have still := inv.mem_hold st (by simp [st.wired.sdBuffWr, hps, move, HpsChan.strobe])
      refine .streaming w stillBusy ?_ le (arrived.keep still.1 still.2 front)
        (room.keep front count)
      simpa [move, HpsChan.next, keepLba] using hps'
    | drop =>
      have still := inv.mem_hold st (by simp [st.wired.sdBuffWr, hps, move, HpsChan.strobe])
      have whole : w = 256 := by simpa [move, HpsChan.allows] using allowed
      subst whole
      exact .done stillBusy (by simp [rd', ack]) (by simpa [move, HpsChan.next] using hps')
        (by rw [old', ack]) (arrived.keep still.1 still.2 front) (room.keep front count)
    | latch | raise | other => simp [move, HpsChan.allows] at allowed
  | done busy rd hps old arrived room =>
    have idle' := st.hps_idle hps rd noWr
    have fall : ioAckFall s.inp s.tgt = true := by simp [ioAckFall, old, ioAck, hps, HpsChan.ack]
    have noStart : fetchStart P s.inp s.tgt = false := by simp [fetchStart, busy]
    exact .none (by simp [busy', fall]) (by simp [rd', rd, noStart]) idle'
      (by simp [old', hps, HpsChan.ack])

/-- The filled window after one clock. -/
theorem ReadInv.filled_step (inv : ReadInv P medium L T s) (st : Step P medium s s')
    (sound : Sound P s) (spared : Spared P s) (count : s.tgt.dataCnt ≤ s'.tgt.dataCnt) :
    Filled P.ringBlocks 256 s'.tgt.buffer0.ramAb (evenLane medium L) (rdCurBlk s'.tgt)
        s'.tgt.rdHpsBlk ∧
      Filled P.ringBlocks 256 s'.tgt.buffer1.ramAb (oddLane medium L) (rdCurBlk s'.tgt)
        s'.tgt.rdHpsBlk := by
  have front := inv.frontier_next st sound
  have retire : rdCurBlk s.tgt ≤ rdCurBlk s'.tgt := Nat.div_le_div_right count
  have ioAck : s.inp.ioAck = s.hps.ack := by simp [st.wired.ioAck, bsy, inv.phase]
  rcases st.strobe_cases with quiet | ⟨lba, w, d, hps, move⟩ | ⟨noAck, a, d, move⟩
  · obtain ⟨even, odd⟩ := inv.mem_hold st quiet
    rw [even, odd]
    cases fall : ioAckFall s.inp s.tgt with
    | false =>
      simp only [fall, Bool.toNat_false, Nat.add_zero] at front
      rw [front]
      exact ⟨inv.even.retire retire, inv.odd.retire retire⟩
    | true =>
      simp only [fall, Bool.toNat_true] at front
      rw [front]
      simp only [ioAckFall, Bool.and_eq_true, Bool.not_eq_true'] at fall
      cases inv.fetch with
      | none _ _ _ old => simp [old] at fall
      | asked _ _ _ old => simp [old] at fall
      | streaming _ _ hps => simp [ioAck, hps, HpsChan.ack] at fall
      | done _ _ _ _ arrived =>
        exact ⟨(inv.even.complete arrived.even).retire retire,
          (inv.odd.complete arrived.odd).retire retire⟩
  · have fall : ioAckFall s.inp s.tgt = false := by simp [ioAckFall, ioAck, hps, HpsChan.ack]
    simp only [fall, Bool.toNat_false, Nat.add_zero] at front
    rw [front]
    cases inv.fetch with
    | none _ _ idle => simp [hps] at idle
    | asked _ _ idle => simp [hps] at idle
    | done _ _ idle => simp [hps] at idle
    | streaming v _ hps' _ _ room =>
      obtain ⟨more, even, odd⟩ := inv.mem_word st hps' move
      rw [even, odd]
      exact ⟨(inv.even.write room.2 more _).retire retire,
        (inv.odd.write room.2 more _).retire retire⟩
  · obtain ⟨room, old⟩ := spared a d move
    obtain ⟨-, even, odd⟩ := inv.mem_other st move
    have fall : ioAckFall s.inp s.tgt = false := by simp [ioAckFall, old]
    have inside : a % 256 < 256 := Nat.mod_lt _ (by decide)
    simp only [fall, Bool.toNat_false, Nat.add_zero] at front
    rw [front, even, odd]
    exact ⟨(inv.even.write room inside _).retire retire,
      (inv.odd.write room inside _).retire retire⟩

/-- One clock of the data phase. -/
theorem ReadInv.step (inv : ReadInv P medium L T s) (st : Step P medium s s') (sound : Sound P s)
    (sound' : Sound P s') (rst : s.inp.rst = false) (mounted : s.tgt.mounted = true)
    (spared : Spared P s) (stays : phaseNext P s.inp s.tgt = .dataOut) :
    ReadInv P medium L T s' := by
  obtain ⟨grows, counted, bounded⟩ := inv.count_next st sound sound' rst stays
  have same : phaseNext P s.inp s.tgt = s.tgt.phase := by rw [stays, inv.phase]
  have notCmd : s.tgt.phase ≠ .cmdIn := by simp [inv.phase]
  have front := inv.frontier_next st sound
  have frontLe : s.tgt.rdHpsBlk ≤ s'.tgt.rdHpsBlk := by omega
  have room : ioAckFall s.inp s.tgt = true → Room P T s := by
    intro fall
    have ioAck : s.inp.ioAck = s.hps.ack := by simp [st.wired.ioAck, bsy, inv.phase]
    simp only [ioAckFall, Bool.and_eq_true, Bool.not_eq_true'] at fall
    cases inv.fetch with
    | none _ _ _ old => simp [old] at fall
    | asked _ _ _ old => simp [old] at fall
    | streaming _ _ hps => simp [ioAck, hps, HpsChan.ack] at fall
    | done _ _ _ _ _ room => exact room
  have granted' : min s'.granted (T * 512) ≤ s'.tgt.rdHpsBlk * 512 := by
    have old := inv.granted
    rw [st.granted, grantedNext, if_pos same]
    split
    · rename_i req
      have covers := (inv.req_covers sound mounted req).2
      have count : s.tgt.consumed = s.tgt.dataCnt := by simp [consumed, inv.phase]
      rw [count, min_max_distrib_right]
      exact max_le (old.trans (by omega)) (covers.trans (by omega))
    · exact old.trans (by omega)
  have acked' : s'.acked ≤ s'.granted := by
    have old := inv.acked
    have grantedGrows : s.granted ≤ s'.granted := by
      rw [st.granted, grantedNext, if_pos same]
      split <;> omega
    rw [st.acked_same same]
    cases rise : s.rises with
    | false => simp; omega
    | true =>
      have := (st.initiator.offered (by simp [inv.phase]) rise).1
      simp
      omega
  obtain ⟨even, odd⟩ := inv.filled_step st sound spared grows
  have bump : (ioAckFall s.inp s.tgt).toNat ≤ 1 := by cases ioAckFall s.inp s.tgt <;> simp
  refine
    { phase := by rw [st.tgt, step_phase, stays]
      read := by rw [st.tgt, step_cmd, cmdNext_eq notCmd]; exact inv.read
      tlen := by rw [st.tgt, step_tlen, tlenNext_eq notCmd]; exact inv.tlen
      lba := by rw [inv.lba_next st, front]
      frontier := ?_
      window := ?_
      acked := acked'
      granted := granted'
      count := by omega
      noWrite := ?_
      even := even
      odd := odd
      fetch := inv.fetch_step st sound rst grows }
  · have := inv.frontier
    cases fall : ioAckFall s.inp s.tgt with
    | false => simp [fall] at front; omega
    | true => have := (room fall).1; simp [fall] at front; omega
  · have := inv.window
    have retire : rdCurBlk s.tgt ≤ rdCurBlk s'.tgt := Nat.div_le_div_right grows
    cases fall : ioAckFall s.inp s.tgt with
    | false => simp [fall] at front; omega
    | true => have := (room fall).2; simp [fall] at front; omega
  · obtain ⟨wr, pending, -, -⟩ := inv.noWrite
    have noFlush : reqWr P s.tgt = false := by
      simp [reqWr, Cdb.cmdWrite_of_read inv.read]
    simp [st.tgt, ioWrNext, wrPendingNext, wr, pending, noFlush, inv.phase]

/-- The clock after a READ has been latched at rest. -/
theorem Sound.read_enters (sound : Sound P s) (st : Step P medium s s') (rst : s.inp.rst = false)
    (disk : P.cdrom = false) (cpl : cmdCpl P s.tgt = true) (read : s.tgt.cmd.cmdRead = true) :
    ReadInv P medium (s.tgt.cmd.lbaLatch P s.tgt.cmdCnt) (s.tgt.cmd.tlenLatch P s.tgt.cmdCnt)
      s' := by
  have phase := cmdCpl_phase cpl
  have quiet := sound.quiet_at_command cpl
  have block : s.tgt.cmd.blockCmd = true := by simp [Cdb.blockCmd, read]
  have next : phaseNext P s.inp s.tgt = .dataOut := by
    rw [phaseNext_block disk rst cpl block, if_pos read]
  have new : phaseNext P s.inp s.tgt ≠ s.tgt.phase := by simp [next, phase]
  have outside : transferPhase s.tgt = false := by simp [transferPhase, phase]
  have noFetch : fetchStart P s.inp s.tgt = false := noFetch_of_phase (by simp [phase])
  have noFlush : reqWr P s.tgt = false := by simp [reqWr, phase]
  have quiet' := quiet.step st noFetch (.inr noFlush)
  have front : s'.tgt.rdHpsBlk = 0 := by simp [st.tgt, rdHpsBlkNext, outside]
  have count : s'.tgt.dataCnt = 0 := by simp [st.tgt, dataCntNext, outside]
  have granted : s'.granted = 0 := by rw [st.granted, grantedNext, if_neg new]
  have acked : s'.acked = 0 := by
    obtain ⟨empty, ack, -⟩ := sound.paced.drained st.toStep cpl
    have old : s.tgt.oldAck = false := by
      cases h : s.tgt.oldAck with
      | false => rfl
      | true => simp [inPipe, h] at empty
    rw [st.acked_new new, st.inPipe_next, ack, old]
    rfl
  have lba : s'.tgt.lba = s.tgt.cmd.lbaLatch P s.tgt.cmdCnt := by simp [st.tgt, lbaNext, cpl]
  refine
    { phase := by rw [st.tgt, step_phase, next]
      read := by rw [st.tgt, step_cmd, sound.paced.cmdNext_cpl st.toStep cpl]; exact read
      tlen := by simp [st.tgt, tlenNext, cpl]
      lba := by rw [lba, front]; exact (Nat.mod_eq_of_lt (Cdb.lbaLatch_lt _)).symm
      frontier := by rw [front]; exact Nat.zero_le _
      window := by rw [front]; exact Nat.zero_le _
      acked := by rw [acked]; exact Nat.zero_le _
      granted := by simp [granted]
      count := by simp [count]
      noWrite := ⟨quiet'.ioWr, quiet'.wrPending, by simp [st.tgt, phase], by simp [st.tgt, phase]⟩
      even := ?_
      odd := ?_
      fetch := .none quiet'.rdBusy quiet'.ioRdD quiet'.hps quiet'.oldIoAck }
  all_goals
    rw [front, rdCurBlk, count]
    exact filled_empty _ _ _

/-- The sectors fetched so far: those behind the frontier, and the one in
flight. -/
def fetchedTo (s : Disk) : Nat := s.tgt.rdHpsBlk + s.tgt.rdBusy.toNat

theorem ReadInv.fetchedTo_step (inv : ReadInv P medium L T s) (st : Step P medium s s')
    (sound : Sound P s) (rst : s.inp.rst = false) :
    fetchedTo s' = fetchedTo s + (fetchStart P s.inp s.tgt).toNat := by
  have front := inv.frontier_next st sound
  have ioAck : s.inp.ioAck = s.hps.ack := by simp [st.wired.ioAck, bsy, inv.phase]
  have busy' : s'.tgt.rdBusy =
      (!ioAckFall s.inp s.tgt && (s.tgt.rdBusy || fetchStart P s.inp s.tgt)) := by
    rw [st.tgt, step_rdBusy, rdBusyNext]
    cases ioAckFall s.inp s.tgt <;> simp [rst]
  have once : s.tgt.rdBusy = true → fetchStart P s.inp s.tgt = false := by
    intro busy
    simp [fetchStart, busy]
  have outstanding : ioAckFall s.inp s.tgt = true → s.tgt.rdBusy = true := by
    intro fall
    simp only [ioAckFall, Bool.and_eq_true, Bool.not_eq_true'] at fall
    cases inv.fetch with
    | none _ _ _ old => simp [old] at fall
    | asked busy => exact busy
    | streaming _ busy => exact busy
    | done busy => exact busy
  unfold fetchedTo
  rw [front, busy']
  cases busy : s.tgt.rdBusy with
  | true => cases fall : ioAckFall s.inp s.tgt <;> simp [once busy]
  | false =>
    have noFall : ioAckFall s.inp s.tgt = false := by
      by_contra fall
      simp [outstanding (by simpa using fall)] at busy
    simp [noFall]

/-- No sector past the end of the transfer is fetched. -/
theorem ReadInv.fetchedTo_le (inv : ReadInv P medium L T s) : fetchedTo s ≤ T := by
  have frontier := inv.frontier
  unfold fetchedTo
  cases inv.fetch with
  | none busy => simpa [busy] using frontier
  | asked busy _ _ _ room | streaming _ busy _ _ _ room | done busy _ _ _ _ room =>
    rw [busy, Bool.toNat_true]
    exact room.1

/-- Only the frontier sector is ever asked for. -/
theorem ReadInv.fetch_lba (inv : ReadInv P medium L T s)
    (start : fetchStart P s.inp s.tgt = true) :
    s.tgt.lba = (L + fetchedTo s) % 2 ^ 32 := by
  have free : s.tgt.rdBusy = false := by
    simp [fetchStart] at start
    exact start.2
  simp [fetchedTo, free, inv.lba]

/-- The LBA of a fetch that starts in this clock. -/
def fetchNow (P : Params) (s : Disk) : Option Nat :=
  if fetchStart P s.inp s.tgt then some s.tgt.lba else none

/-- The LBAs of the fetches started in the clocks `start, …, t - 1`. -/
def fetches (P : Params) (r : Run (Step P medium)) (start t : Nat) : List Nat :=
  r.log (fetchNow P) start t

/-- Clock `t` lies in the data phase of the READ whose CDB completes at `start`, and
since then the bus has not been reset, the disk has stayed mounted and the words of
other slots have spared the ring. -/
structure Reading (r : Run (Step P medium)) (start t : Nat) : Prop where
  after : start < t
  noReset : ∀ u, start ≤ u → u < t → (r.state u).inp.rst = false
  phase : ∀ u, start < u → u ≤ t → (r.state u).tgt.phase = .dataOut
  mounted : ∀ u, start < u → u ≤ t → (r.state u).tgt.mounted = true
  spared : ∀ u, start < u → u ≤ t → Spared P (r.state u)

/-- Every fetch that is outstanding is acknowledged at some later clock. -/
def Acknowledged (r : Run (Step P medium)) : Prop :=
  ∀ t, (r.state t).tgt.rdBusy = true →
    ∃ u, t ≤ u ∧ ioAckFall (r.state u).inp (r.state u).tgt = true

section

variable {r : Run (Step P medium)} {start t : Nat}

theorem fetches_succ (h : start ≤ t) : fetches P r start (t + 1) = fetches P r start t ++
    if fetchStart P (r.state t).inp (r.state t).tgt then [(r.state t).tgt.lba] else [] := by
  unfold fetches
  rw [r.log_succ h]
  by_cases fetch : fetchStart P (r.state t).inp (r.state t).tgt = true <;> simp [fetchNow, fetch]

theorem Reading.initial (reading : Reading r start (t + 1)) (h : start < t) : Reading r start t where
  after := h
  noReset u h₁ h₂ := reading.noReset u h₁ (by omega)
  phase u h₁ h₂ := reading.phase u h₁ (by omega)
  mounted u h₁ h₂ := reading.mounted u h₁ (by omega)
  spared u h₁ h₂ := reading.spared u h₁ (by omega)

/-- The ring invariant along the data phase, together with the fetch log. -/
theorem Reading.invariant (disk : P.cdrom = false) (boot : PowerUp P (r.state 0))
    (cpl : cmdCpl P (r.state start).tgt = true)
    (read : (r.state start).tgt.cmd.cmdRead = true) (settled : Settled (r.state start))
    (reading : Reading r start t) (L T : Nat) (hL : L = (r.state start).tgt.cmd.lbaLatch P (r.state start).tgt.cmdCnt)
    (hT : T = (r.state start).tgt.cmd.tlenLatch P (r.state start).tgt.cmdCnt) :
    ReadInv P medium L T (r.state t) ∧ Sound P (r.state t) ∧
      fetches P r start t =
        (List.range (fetchedTo (r.state t))).map fun k => (L + k) % 2 ^ 32 := by
  have sound : ∀ u, start ≤ u → u ≤ t → Sound P (r.state u) := fun u from_ upto =>
    sound_from disk r boot cpl settled from_ fun v h₁ h₂ => reading.noReset v h₁ (by omega)
  subst hL hT
  obtain ⟨n, rfl⟩ : ∃ n, t = start + 1 + n := ⟨t - start - 1, by have := reading.after; omega⟩
  induction n with
  | zero =>
    have enters := (sound start (by omega) (by omega)).read_enters (r.step start)
      (reading.noReset start (by omega) (by omega)) disk cpl read
    refine ⟨enters, sound _ (by omega) (by omega), ?_⟩
    have noFetch : fetchStart P (r.state start).inp (r.state start).tgt = false :=
      noFetch_of_phase (by simp [cmdCpl_phase cpl])
    have quiet' := (sound start (by omega) (by omega)).quiet_at_command cpl |>.step
      (r.step start) noFetch (.inr (by simp [reqWr, cmdCpl_phase cpl]))
    have front : (r.state (start + 1)).tgt.rdHpsBlk = 0 := by
      simp [(r.step start).tgt, rdHpsBlkNext, transferPhase, cmdCpl_phase cpl]
    rw [Nat.add_zero, fetches_succ (Nat.le_refl _), noFetch]
    simp [fetches, Run.log_self, fetchedTo, front, quiet'.rdBusy]
  | succ n ih =>
    have here : start < start + 1 + n := by omega
    obtain ⟨inv, snd, log⟩ := ih (reading.initial here) fun u h₁ h₂ => sound u h₁ (by omega)
    have stays : phaseNext P (r.state (start + 1 + n)).inp (r.state (start + 1 + n)).tgt =
        .dataOut := by
      have next := reading.phase (start + 1 + (n + 1)) (by omega) (by omega)
      rwa [← Nat.add_assoc, (r.step (start + 1 + n)).tgt, step_phase] at next
    have rst := reading.noReset (start + 1 + n) (by omega) (by omega)
    have inv' := inv.step (r.step _) snd (sound _ (by omega) (by omega)) rst
      (reading.mounted _ here (by omega)) (reading.spared _ here (by omega)) stays
    refine ⟨inv', sound _ (by omega) (by omega), ?_⟩
    rw [← Nat.add_assoc, fetches_succ (by omega), log, inv.fetchedTo_step (r.step _) snd rst]
    cases fetch : fetchStart P (r.state (start + 1 + n)).inp (r.state (start + 1 + n)).tgt with
    | false => simp
    | true => simp [List.range_succ, inv.fetch_lba fetch]

/-- A byte inside the filled window is the byte of the medium. -/
theorem ReadInv.resident (inv : ReadInv P medium L T s) {n : Nat} (low : s.tgt.dataCnt ≤ n)
    (high : n < s.tgt.rdHpsBlk * 512) :
    s.tgt.ringByte P n = mediumByte medium ((L + n / 512) % 2 ^ 32) (n % 512) := by
  have width : 2 ^ P.bufAw = P.ringBlocks * 256 := by
    rw [Params.bufAw, Params.ringBlocks, Nat.pow_add, Nat.mul_comm]
  have slots : 0 < P.ringBlocks := Nat.pow_pos (by omega)
  have word : n / 2 % 2 ^ P.bufAw = cell P.ringBlocks 256 (n / 512) (n % 512 / 2) := by
    have split : n / 2 = n / 512 * 256 + n % 512 / 2 := by omega
    rw [width, split, linear_mod _ _ (by omega) slots]
  have block : rdCurBlk s.tgt ≤ n / 512 := Nat.div_le_div_right low
  have filled : n / 512 < s.tgt.rdHpsBlk := by omega
  have half : n % 512 / 2 < 256 := by omega
  have parity : n % 512 % 2 = n % 2 := by omega
  unfold ringByte mediumByte
  rw [word, parity]
  rcases Nat.mod_two_eq_zero_or_one n with even | odd
  · rw [if_pos even, even]
    exact inv.even _ _ block filled half
  · rw [if_neg (by omega), odd]
    exact inv.odd _ _ block filled half

/-- The slot a strobe writes has no unread occupant. -/
theorem ReadInv.slot_free (inv : ReadInv P medium L T s) (spared : Spared P s)
    (st : Step P medium s s') (strobe : s.inp.sdBuffWr = true) {b : Nat}
    (fetched : b < s.tgt.rdHpsBlk) (same : b % P.ringBlocks = hpsAddr P s.inp s.tgt / 256) :
    (b + 1) * 512 ≤ s.tgt.dataCnt := by
  have front : s.tgt.rdHpsBlk < rdCurBlk s.tgt + P.ringBlocks ∧
      ∃ w < 256, hpsAddr P s.inp s.tgt = cell P.ringBlocks 256 s.tgt.rdHpsBlk w := by
    rcases st.strobe_cases with quiet | ⟨lba, w, d, hps, move⟩ | ⟨-, a, d, move⟩
    · simp [strobe] at quiet
    · cases inv.fetch with
      | none _ _ idle => simp [hps] at idle
      | asked _ _ idle => simp [hps] at idle
      | done _ _ idle => simp [hps] at idle
      | streaming _ _ _ _ _ room =>
        have addr : s.inp.sdBuffAddr = w % 256 := by rw [st.wired.sdBuffAddr, hps, move]; rfl
        refine ⟨room.2, w % 256, Nat.mod_lt _ (by decide), ?_⟩
        simp [hpsAddr, Cdb.cmdWrite_of_read inv.read, addr, cell]
    · exact ⟨(spared a d move).1, a % 256, Nat.mod_lt _ (by decide), (inv.mem_other st move).1⟩
  obtain ⟨behind, w, inside, addr⟩ := front
  have slot : b % P.ringBlocks = s.tgt.rdHpsBlk % P.ringBlocks := by
    rw [same, addr, cell]
    omega
  have far : b + P.ringBlocks ≤ s.tgt.rdHpsBlk := by
    by_contra near
    exact slot_ne fetched (by omega) slot
  unfold rdCurBlk at behind
  omega

/-- A READ leaves its data phase with every sector fetched. -/
theorem ReadInv.leaves (inv : ReadInv P medium L T s) (sound : Sound P s)
    (rst : s.inp.rst = false) (leaves : phaseNext P s.inp s.tgt ≠ .dataOut) :
    fetchedTo s = T ∧ fetchStart P s.inp s.tgt = false := by
  have done : dataDone P s.tgt = true := by
    by_contra running
    rw [phaseNext_dataOut rst inv.phase, if_neg running] at leaves
    exact leaves rfl
  rw [dataDone_block inv.block, inv.length] at done
  have all : s.tgt.rdHpsBlk = T := by
    have frontier := inv.frontier
    by_cases empty : T = 0
    · omega
    · have complete := sound.complete (.inl inv.phase) inv.block (by rw [inv.length]; omega)
      have finished : s.tgt.dataComplete = true := by simpa [empty] using done
      simp only [finished, if_true, inv.length] at complete
      have count := inv.count
      omega
  have free : s.tgt.rdBusy = false := by
    cases inv.fetch with
    | none busy => exact busy
    | asked _ _ _ _ room | streaming _ _ _ _ _ room | done _ _ _ _ _ room =>
      have := room.1
      omega
  refine ⟨by simp [fetchedTo, all, free], ?_⟩
  by_contra start
  have := (inv.room_of_start sound (by simpa using start)).1
  omega

/-- While the Mac waits for data, the frontier sector is being fetched or its
fetch starts now. -/
theorem ReadInv.fetching (inv : ReadInv P medium L T s) (st : Step P medium s s')
    (sound : Sound P s) (ring : 1 ≤ P.ringLog) (rst : s.inp.rst = false)
    (stays : phaseNext P s.inp s.tgt = .dataOut) (mounted : s.tgt.mounted = true)
    (noAck : s.inp.ack = false) (noReq : req P s.inp s.tgt = false) :
    s.tgt.rdBusy = true ∨ fetchStart P s.inp s.tgt = true := by
  obtain ⟨nonempty, running⟩ := inv.running rst stays
  have len := inv.length
  have block := inv.block
  obtain ⟨fs, send, -, -, -, -, tbIn⟩ :=
    Cdb.blockCmd_noToolbox P s.tgt.tbReady block
  have notDone : dataPhaseComplete P s.tgt = false := by
    simp [dataPhaseComplete, dataDone_block block, running, len, nonempty]
  have busy : ioBusy s.inp s.tgt = true := by
    by_contra ready
    simp [Target.req, inv.phase, noAck, notDone, ready, tbSrvHold, tbSrvActive, tbIn,
      tbStreamStall, tbGetStall, tbColStall, Tb.colStall, Target.tbIn, TbIn.collect] at noReq
  have below := sound.complete (.inl inv.phase) block (by omega)
  simp only [running, len, Bool.false_eq_true, if_false] at below
  have small := sound.tlen
  rw [inv.tlen] at small
  have two : 2 ≤ P.ringBlocks := by
    calc 2 = 2 ^ 1 := rfl
      _ ≤ 2 ^ P.ringLog := Nat.pow_le_pow_right (by omega) ring
  have count := inv.count
  have frontier := inv.frontier
  have wanted : s.tgt.rdHpsBlk < T ∧ s.tgt.rdHpsBlk ≤ s.tgt.dataCnt / 512 + 1 := by
    simp [ioBusy, inv.phase, inv.read, mounted] at busy
    rcases busy with current | ⟨needed, ahead⟩
    · have : s.tgt.rdHpsBlk ≤ s.tgt.dataCnt / 512 := of_decide_eq_true current
      omega
    · have near : (s.tgt.dataCnt + 3) % 2 ^ 32 / 512 % 2 ^ 23 < s.tgt.tlen :=
        of_decide_eq_true needed
      have beyond : s.tgt.rdHpsBlk ≤ (s.tgt.dataCnt + 3) % 2 ^ 32 / 512 % 2 ^ 23 :=
        of_decide_eq_true ahead
      rw [inv.tlen] at near
      omega
  have remain : rdBlkRemain s.tgt = true :=
    decide_eq_true (by rw [inv.tlen]; exact wanted.1)
  have space : rdRingSpace P s.tgt = true := by
    refine decide_eq_true ?_
    unfold rdCurBlk
    omega
  cases inv.fetch with
  | asked busy => exact .inl busy
  | streaming _ busy => exact .inl busy
  | done busy => exact .inl busy
  | none idle rd hps =>
    right
    have ack := st.ioAck_idle hps
    simp [fetchStart, reqRd, ack, inv.phase, inv.read, len, nonempty, running, remain, space,
      ioRd, st.ca, rd, idle]

/-- The frontier never moves back. -/
theorem ReadInv.frontier_mono (disk : P.cdrom = false) (boot : PowerUp P (r.state 0))
    (cpl : cmdCpl P (r.state start).tgt = true)
    (read : (r.state start).tgt.cmd.cmdRead = true) (settled : Settled (r.state start)) {u v : Nat}
    (huv : u ≤ v) (always : ∀ w, u ≤ w → Reading r start w) :
    (r.state u).tgt.rdHpsBlk ≤ (r.state v).tgt.rdHpsBlk := by
  induction v, huv using Nat.le_induction with
  | base => exact Nat.le_refl _
  | succ v huv ih =>
    obtain ⟨inv, sound, -⟩ :=
      Reading.invariant disk boot cpl read settled (always v huv) _ _ rfl rfl
    have := inv.frontier_next (r.step v) sound
    omega

/-- As long as every fetch is acknowledged, REQ or the initiator's own ACK comes
up again. -/
theorem Reading.progress (disk : P.cdrom = false) (ring : 1 ≤ P.ringLog)
    (boot : PowerUp P (r.state 0)) (cpl : cmdCpl P (r.state start).tgt = true)
    (read : (r.state start).tgt.cmd.cmdRead = true) (settled : Settled (r.state start))
    (served : Acknowledged r) :
    ¬ ∀ u, t ≤ u → Reading r start u ∧ req P (r.state u).inp (r.state u).tgt = false ∧
      (r.state u).inp.ack = false := by
  intro stuck
  have always : ∀ u, t ≤ u → Reading r start u := fun u hu => (stuck u hu).1
  have holds := fun u hu =>
    Reading.invariant disk boot cpl read settled (always u hu) _ _ rfl rfl
  -- each acknowledged fetch moves the frontier towards the end of the transfer
  have descend : ∀ u, t ≤ u → ∃ v, u ≤ v ∧
      (r.state u).tgt.rdHpsBlk < (r.state v).tgt.rdHpsBlk := by
    intro u hu
    obtain ⟨inv, sound, -⟩ := holds u hu
    have next := (always (u + 1) (by omega))
    have rst := next.noReset u (Nat.le_of_lt (always u hu).after) (by omega)
    have stays : phaseNext P (r.state u).inp (r.state u).tgt = .dataOut := by
      have := next.phase (u + 1) next.after (Nat.le_refl _)
      rwa [(r.step u).tgt, step_phase] at this
    have mounted := (always u hu).mounted u (always u hu).after (Nat.le_refl _)
    have pending := inv.fetching (r.step u) sound ring rst stays mounted (stuck u hu).2.2
      (stuck u hu).2.1
    have outstanding : ∃ v, u ≤ v ∧ (r.state v).tgt.rdBusy = true := by
      rcases pending with busy | begins
      · exact ⟨u, Nat.le_refl _, busy⟩
      · refine ⟨u + 1, by omega, ?_⟩
        have free : ioAckFall (r.state u).inp (r.state u).tgt = false := by
          simp [fetchStart] at begins
          cases inv.fetch with
          | none _ _ _ old => simp [ioAckFall, old]
          | asked busy => simp [busy] at begins
          | streaming _ busy => simp [busy] at begins
          | done busy => simp [busy] at begins
        simp [(r.step u).tgt, rdBusyNext, rst, free, begins]
    obtain ⟨v, huv, busy⟩ := outstanding
    obtain ⟨w, hvw, fall⟩ := served v busy
    obtain ⟨inv', sound', -⟩ := holds w (by omega)
    have mono := ReadInv.frontier_mono disk boot cpl read settled
      (by omega : u ≤ w) fun x hx => always x (by omega)
    have front := inv'.frontier_next (r.step w) sound'
    rw [fall] at front
    exact ⟨w + 1, by omega, by simp at front; omega⟩
  have finished := r.eventually_of_descent
    (fun s => (r.state start).tgt.cmd.tlenLatch P (r.state start).tgt.cmdCnt - s.tgt.rdHpsBlk)
    (fun _ => False) t ?_
  · obtain ⟨-, -, no⟩ := finished
    exact no
  · intro u hu _
    obtain ⟨v, huv, more⟩ := descend u hu
    have bound := (holds v (by omega)).1.frontier
    exact ⟨v, huv, .inr (by omega)⟩

end

/-- A READ on a disk whose ring is spared: what REQ vouches for, where fetches land,
which sectors are fetched, and that REQ keeps coming. -/
theorem read_ring_correct (disk : P.cdrom = false) (ring : 1 ≤ P.ringLog)
    (r : Run (Step P medium)) (boot : PowerUp P (r.state 0)) (start : Nat)
    (cpl : cmdCpl P (r.state start).tgt = true)
    (read : (r.state start).tgt.cmd.cmdRead = true) (settled : Settled (r.state start)) :
    let lba0 := (r.state start).tgt.cmd.lbaLatch P (r.state start).tgt.cmdCnt
    let tlen := (r.state start).tgt.cmd.tlenLatch P (r.state start).tgt.cmdCnt
    (∀ t, Reading r start t →
      (req P (r.state t).inp (r.state t).tgt = true → ∀ n, (r.state t).tgt.dataCnt ≤ n →
        n ≤ (r.state t).tgt.dataCnt + 3 → n < tlen * 512 →
        (r.state t).tgt.ringByte P n =
          mediumByte medium ((lba0 + n / 512) % 2 ^ 32) (n % 512)) ∧
      ((r.state t).inp.sdBuffWr = true → ∀ b, b < (r.state t).tgt.rdHpsBlk →
        b % P.ringBlocks = hpsAddr P (r.state t).inp (r.state t).tgt / 256 →
        (b + 1) * 512 ≤ (r.state t).tgt.dataCnt) ∧
      ∃ n, n ≤ tlen ∧
        fetches P r start t = (List.range n).map fun k => (lba0 + k) % 2 ^ 32) ∧
    (∀ t, Reading r start t → (r.state t).inp.rst = false →
      (r.state (t + 1)).tgt.phase ≠ .dataOut → ∀ t', t + 1 ≤ t' →
      (∀ u, t + 1 ≤ u → u < t' → (r.state u).tgt.phase ≠ .dataOut) →
      fetches P r start t' = (List.range tlen).map fun k => (lba0 + k) % 2 ^ 32) ∧
    (Acknowledged r → ∀ t, ¬ ∀ u, t ≤ u → Reading r start u ∧
      req P (r.state u).inp (r.state u).tgt = false ∧ (r.state u).inp.ack = false) := by
  intro lba0 tlen
  have hlba : lba0 = (r.state start).tgt.cmd.lbaLatch P (r.state start).tgt.cmdCnt := rfl
  have htlen : tlen = (r.state start).tgt.cmd.tlenLatch P (r.state start).tgt.cmdCnt := rfl
  clear_value lba0 tlen
  refine ⟨?_, ?_, fun served t => Reading.progress disk ring boot cpl read settled served⟩
  · intro t reading
    obtain ⟨inv, sound, log⟩ :=
      Reading.invariant disk boot cpl read settled reading lba0 tlen hlba htlen
    have spared := reading.spared t reading.after (Nat.le_refl _)
    have mounted := reading.mounted t reading.after (Nat.le_refl _)
    refine ⟨?_, ?_, fetchedTo (r.state t), ?_, log⟩
    · intro req n low high inside
      have covers := (inv.req_covers sound mounted req).2
      have below : n < min ((r.state t).tgt.dataCnt + 4) (tlen * 512) :=
        lt_min (Nat.lt_succ_of_le high) inside
      exact inv.resident low (below.trans_le covers)
    · intro strobe b fetched same
      exact inv.slot_free spared (r.step t) strobe fetched same
    · exact inv.fetchedTo_le
  · intro t reading rst leaves t' after outside
    obtain ⟨inv, sound, log⟩ :=
      Reading.invariant disk boot cpl read settled reading lba0 tlen hlba htlen
    have leaves' : phaseNext P (r.state t).inp (r.state t).tgt ≠ .dataOut := by
      rwa [(r.step t).tgt, step_phase] at leaves
    obtain ⟨all, noStart⟩ := inv.leaves sound rst leaves'
    have begun := reading.after
    induction t', after using Nat.le_induction with
    | base =>
      rw [fetches_succ (by omega), log, all, noStart]
      simp
    | succ t' after ih =>
      have noFetch : fetchStart P (r.state t').inp (r.state t').tgt = false :=
        noFetch_of_phase (outside t' after (by omega))
      rw [fetches_succ (by omega), ih fun u h₁ h₂ => outside u h₁ (by omega), noFetch]
      simp

/-! ### A READ beside other slots -/

/-- A medium whose words tell their place. -/
def ramp (lba w : Nat) : BitVec 16 := BitVec.ofNat 16 (256 * lba + w)

/-- The session for a sector: the request is up at clock 1, the acknowledge falls at 261. -/
def sectorSession (lba j : Nat) : HpsMove :=
  if j = 2 then .latch false else if j = 3 then .raise
  else if 4 ≤ j ∧ j < 260 then .word (ramp lba (j - 4)) else if j = 260 then .drop else .wait

/-- The sessions of a READ at LBA 5 whose data phase begins at clock 28. -/
def sessions (n t : Nat) : HpsMove :=
  if (t - 28) / 262 < n then sectorSession (5 + (t - 28) / 262) ((t - 28) % 262) else .wait

/-- READ(6) of `n` sectors at LBA 5. -/
def readSix (n : Byte) : Segments :=
  Segments.mount 4096 ++ Segments.command Params.disk1 [0x08, 0, 0, 5, n, 0]

/-- One sector is read byte by byte. Another slot is served before its fetch and after. -/
def sharedScript (t : Nat) : Stimulus :=
  if t < 28 then (readSix 1).script t
  else
    { move := if t = 28 ∨ t = 300 then .other t 0xffff else sessions 1 t
      ack := decide (320 ≤ t ∧ t < 1344) && t % 2 == 1 }

/-- The second disk with a ring of two sectors. -/
def twoSlots : Params := { Params.disk1 with ringLog := 1 }

/-- Two sectors fill that ring before a byte is read; then another slot is served. -/
def fullScript (t : Nat) : Stimulus :=
  if t < 28 then (readSix 2).script t
  else { move := if t = 554 then .other 0 0xffff else sessions 2 t }

/-- What is checked of these runs: the READ at LBA 5 whose CDB completes at clock 27 goes on
up to clock `last`. -/
def readOk (P : Params) (n last t : Nat) (s : Disk) : Bool :=
  legal P ramp s && !s.inp.rst &&
    if t < 27 then true
    else if t = 27 then
      cmdCpl P s.tgt && s.tgt.cmd.cmdRead && s.tgt.cmd.lbaLatch P s.tgt.cmdCnt == 5 &&
        s.tgt.cmd.tlenLatch P s.tgt.cmdCnt == n
    else if t ≤ last then s.tgt.phase == .dataOut && s.tgt.mounted
    else s.tgt.phase == .statusOut

/-- A word of another slot finds room in the ring. -/
def roomFor (s : Disk) : Bool :=
  match s.move with
  | .other _ _ => decide (s.tgt.rdHpsBlk < rdCurBlk s.tgt + Params.disk1.ringBlocks) &&
      !s.tgt.oldIoAck
  | _ => true

theorem roomFor_spared (room : roomFor s = true) : Spared Params.disk1 s := by
  intro a d move
  simpa [roomFor, move] using room

section

variable {state : Nat → Disk} {n last bound t : Nat}

theorem readOk_cpl (ok : ∀ t < bound, readOk P n last t (state t) = true) (inside : 27 < bound) :
    cmdCpl P (state 27).tgt = true ∧ (state 27).tgt.cmd.cmdRead = true ∧
      (state 27).tgt.cmd.lbaLatch P (state 27).tgt.cmdCnt = 5 ∧
      (state 27).tgt.cmd.tlenLatch P (state 27).tgt.cmdCnt = n := by
  have here := ok 27 inside
  rw [readOk, if_neg (by decide), if_pos rfl] at here
  simp only [Bool.and_eq_true, beq_iff_eq] at here
  obtain ⟨-, ⟨⟨cpl, read⟩, lba⟩, tlen⟩ := here
  exact ⟨cpl, read, lba, tlen⟩

theorem readOk_data (ok : ∀ t < bound, readOk P n last t (state t) = true) (inside : t < bound)
    (after : 27 < t) (upto : t ≤ last) :
    (state t).tgt.phase = .dataOut ∧ (state t).tgt.mounted = true := by
  have here := ok t inside
  rw [readOk, if_neg (by omega), if_neg (by omega), if_pos upto] at here
  simp only [Bool.and_eq_true, beq_iff_eq] at here
  exact here.2

theorem readOk_calm (ok : ∀ t < bound, readOk P n last t (state t) = true) (inside : t < bound) :
    legal P ramp (state t) = true ∧ (state t).inp.rst = false := by
  have here := ok t inside
  simp only [readOk, Bool.and_eq_true, Bool.not_eq_true'] at here
  exact here.1

end

/-- A script that is silent from some clock on is legal if it is so far. -/
theorem legal_of_silent {script : Nat → Stimulus} {bound : Nat}
    (quiet : ∀ t ≥ bound, script t = silent) (start : 0 < bound)
    (ok : ∀ t < bound, legal P medium (scripted P script t) = true) (t : Nat) :
    legal P medium (scripted P script t) = true := by
  rcases Nat.lt_or_ge t bound with inside | late
  · exact ok t inside
  · obtain ⟨u, rfl⟩ : ∃ u, t = u + 1 := ⟨t - 1, by omega⟩
    rw [scripted, quiet _ late]
    exact silent_legal

set_option maxRecDepth 100000 in
/-- By evaluation, in one pass. -/
theorem shared_ok : ∀ t < 1348, (readOk Params.disk1 1 1346 t (scripted Params.disk1 sharedScript t) &&
    roomFor (scripted Params.disk1 sharedScript t)) = true := by
  have pass : passes
      (fun t s => (drive (sharedScript (t + 1)) (advance Params.disk1 s)).evaluated)
      (fun t s => readOk Params.disk1 1 1346 t s && roomFor s) 1348 0
      (drive (sharedScript 0) (boot Params.disk1)) = true := by
    decide +kernel
  exact scripted_passes pass

theorem shared_end {t : Nat} (late : 1348 ≤ t) : sharedScript t = silent := by
  have sector : ¬ (t - 28) / 262 < 1 := by omega
  simp [sharedScript, sessions, show ¬ t < 28 by omega, show t ≠ 28 by omega,
    show t ≠ 300 by omega, show ¬ t < 1344 by omega, sector, silent]

/-- The run of that script. -/
def sharedRun : Run (Step Params.disk1 ramp) :=
  ofScript sharedScript (legal_of_silent (fun _ => shared_end) (by decide) fun t inside =>
    (readOk_calm (fun t below => (Bool.and_eq_true_iff.mp (shared_ok t below)).1) inside).1)

theorem sharedRun_ok : ∀ t < 1348, readOk Params.disk1 1 1346 t (sharedRun.state t) = true :=
  fun t inside => (Bool.and_eq_true_iff.mp (shared_ok t inside)).1

theorem sharedRun_reading {t : Nat} (after : 27 < t) (upto : t ≤ 1346) :
    Reading sharedRun 27 t where
  after := after
  noReset _ _ below := (readOk_calm sharedRun_ok (by omega)).2
  phase _ h₁ h₂ := (readOk_data sharedRun_ok (by omega) h₁ (by omega)).1
  mounted _ h₁ h₂ := (readOk_data sharedRun_ok (by omega) h₁ (by omega)).2
  spared u _ h₂ := roomFor_spared (Bool.and_eq_true_iff.mp (shared_ok u (by omega))).2

/-- Every byte REQ vouches for is the medium's, and the sector is fetched once. -/
theorem read_ring_correct_shared :
    (∀ t, 27 < t → t ≤ 1346 → req Params.disk1 (sharedRun.state t).inp (sharedRun.state t).tgt →
      ∀ n, (sharedRun.state t).tgt.dataCnt ≤ n → n ≤ (sharedRun.state t).tgt.dataCnt + 3 →
        n < 512 → (sharedRun.state t).tgt.ringByte Params.disk1 n =
          mediumByte ramp ((5 + n / 512) % 2 ^ 32) (n % 512)) ∧
      fetches Params.disk1 sharedRun 27 1347 = [5] := by
  obtain ⟨cpl, read, lba, tlen⟩ := readOk_cpl sharedRun_ok (by decide)
  have settled : Settled (sharedRun.state 27) :=
    settled_of_noReset rfl sharedRun (boot_powerUp sharedScript) cpl fun u below =>
      (readOk_calm sharedRun_ok (by omega)).2
  have main := read_ring_correct rfl (by decide) sharedRun (boot_powerUp sharedScript) 27 cpl read
    settled
  rw [lba, tlen] at main
  refine ⟨fun t after upto asks n low high inside =>
    (main.1 t (sharedRun_reading after upto)).1 asks n low high inside, ?_⟩
  have over_ : (sharedRun.state 1347).tgt.phase ≠ .dataOut := by
    have here := sharedRun_ok 1347 (by decide)
    rw [readOk, if_neg (by decide), if_neg (by decide), if_neg (by decide)] at here
    simp only [Bool.and_eq_true, beq_iff_eq] at here
    simp [here.2]
  exact main.2.1 1346 (sharedRun_reading (by decide) (by decide))
    (readOk_calm sharedRun_ok (by decide)).2 over_ 1347 (by decide) fun u from_ below => by omega

/-- REQ offers a byte that another slot has written. -/
def overwritten (s : Disk) : Bool :=
  req twoSlots s.inp s.tgt && s.tgt.dataCnt == 0 && s.tgt.ringByte twoSlots 0 == 0xff

set_option maxRecDepth 100000 in
/-- By evaluation, in one pass. -/
theorem full_ok : ∀ t < 556, (readOk twoSlots 2 555 t (scripted twoSlots fullScript t) &&
    (t != 555 || overwritten (scripted twoSlots fullScript t))) = true := by
  have pass : passes (fun t s => (drive (fullScript (t + 1)) (advance twoSlots s)).evaluated)
      (fun t s => readOk twoSlots 2 555 t s && (t != 555 || overwritten s)) 556 0
      (drive (fullScript 0) (boot twoSlots)) = true := by
    decide +kernel
  exact scripted_passes pass

theorem full_end {t : Nat} (late : 556 ≤ t) : fullScript t = silent := by
  have sector : ¬ (t - 28) / 262 < 2 := by omega
  simp [fullScript, sessions, show ¬ t < 28 by omega, show t ≠ 554 by omega, sector, silent]

theorem full_readOk : ∀ t < 556, readOk twoSlots 2 555 t (scripted twoSlots fullScript t) = true :=
  fun t inside => (Bool.and_eq_true_iff.mp (full_ok t inside)).1

/-- The run of that script. -/
def fullRun : Run (Step twoSlots ramp) :=
  ofScript fullScript (legal_of_silent (fun _ => full_end) (by decide) fun _ inside =>
    (readOk_calm full_readOk inside).1)

/-- A READ of two sectors without a bus reset: when both are in the ring, a word of another
slot's session replaces their first one, and REQ offers 0xFF where the medium has 0x00. -/
theorem read_ring_overwritten :
    PowerUp twoSlots (fullRun.state 0) ∧ (∀ t < 556, (fullRun.state t).inp.rst = false) ∧
      cmdCpl twoSlots (fullRun.state 27).tgt = true ∧
      (fullRun.state 27).tgt.cmd.cmdRead = true ∧
      (fullRun.state 27).tgt.cmd.lbaLatch twoSlots (fullRun.state 27).tgt.cmdCnt = 5 ∧
      (fullRun.state 27).tgt.cmd.tlenLatch twoSlots (fullRun.state 27).tgt.cmdCnt = 2 ∧
      (∀ t, 27 < t → t ≤ 555 → (fullRun.state t).tgt.phase = .dataOut ∧
        (fullRun.state t).tgt.mounted = true) ∧
      req twoSlots (fullRun.state 555).inp (fullRun.state 555).tgt = true ∧
      (fullRun.state 555).tgt.dataCnt = 0 ∧
      (fullRun.state 555).tgt.ringByte twoSlots 0 = 0xff ∧ mediumByte ramp 5 0 = 0x00 := by
  obtain ⟨cpl, read, lba, tlen⟩ := readOk_cpl full_readOk (by decide)
  have last := (Bool.and_eq_true_iff.mp (full_ok 555 (by decide))).2
  simp only [bne_self_eq_false, Bool.false_or, overwritten, Bool.and_eq_true, beq_iff_eq] at last
  obtain ⟨⟨asks, count⟩, byte⟩ := last
  exact ⟨boot_powerUp fullScript, fun t inside => (readOk_calm full_readOk inside).2, cpl, read,
    lba, tlen, fun t after upto => readOk_data full_readOk (by omega) after upto, asks, count, byte,
    by decide⟩

end Disk

end MacIIvi
