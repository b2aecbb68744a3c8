import MacIIvi.Scsi.Phases
import MacIIvi.Scsi.Serve
import Mathlib.Tactic.IntervalCases

/-!
# Byte, word and longword reads of one response

A byte read sees lane 0 at its own count; a longword read sees all four lanes
at the count of its first byte. They agree where a lane's address is the address
a byte read would use. Two sources take the lanes from consecutive addresses
although the address is a transformed count: the filtered 0x43 table at its
header, and the 0xC1 table where its last descriptor repeats.
-/

namespace MacIIvi

/-! ### The Toolbox FSM while bytes are served -/

/-- States in which a round trip is under way and the phase waits for it. -/
def TbState.waiting : TbState → Bool
  | .load | .req | .req2 | .stat | .latch | .latch2 | .data => true
  | _ => false

/-- States in which a SEND payload is collected or shipped. -/
def TbState.collecting : TbState → Bool
  | .coll | .collw => true
  | _ => false

namespace Target

variable {P : Params} {i : TargetIn} {s : Target}

/-- States of the target after power-up, whatever is on its pins. -/
inductive Reached (P : Params) : Target → Prop where
  | powerUp : Reached P (Target.powerUp P)
  | step {s : Target} (i : TargetIn) : Reached P s → Reached P (Target.step P i s)

/-- Where the phase is while the Toolbox FSM works. -/
structure Placed (P : Params) (s : Target) : Prop where
  tlen : s.tlen < 65536
  waits : s.tb.state.waiting = true → s.phase = .tb
  collects : s.tb.state.collecting = true →
    (s.phase = .dataIn ∧ s.cmd.cmdTbSend P = true) ∨ s.phase = .tb

theorem placed_powerUp : Placed P (powerUp P) where
  tlen := by simp [powerUp]
  waits := by simp [powerUp, TbState.waiting]
  collects := by simp [powerUp, TbState.collecting]

@[simp] theorem collected_state (w : TbIn) (t : Tb) : (t.collected w).state = t.state := by
  unfold Tb.collected
  split <;> rfl

/-- A round trip starts in the phase that waits for it, a collection in the
phase of the payload. -/
theorem tb_next {w : TbIn} {t : Tb} (rst : w.rst = false) :
    ((t.step w).state.waiting = true →
      (t.state.waiting = true ∨ w.phase = .tb) ∧ t.state ≠ .rdy ∧ t.state ≠ .stream) ∧
    ((t.step w).state.collecting = true →
      t.state.collecting = true ∨ (t.state = .idle ∧ w.phase = .dataIn ∧ w.sendPay = true)) := by
  unfold Tb.step
  rw [rst]
  cases enable : w.enable
  · cases st : t.state <;> simp [TbState.waiting, TbState.collecting]
  · cases st : t.state <;>
      simp only [Tb.stepIdle, Tb.stepColl, Tb.stepCollw, Tb.stepLoad, Tb.stepReq2, Tb.stepReq,
        Tb.stepStat, Tb.stepLatch, Tb.stepLatch2, Tb.stepData, Tb.stepStream, Tb.stepRdy]
    all_goals
      repeat' split
      all_goals simp_all [TbState.waiting, TbState.collecting]

theorem phaseNext_tb (rst : i.rst = false) (phase : s.phase = .tb) (ready : s.tb.state ≠ .rdy)
    (stream : s.tb.state ≠ .stream) : phaseNext P i s = .tb := by
  simp [phaseNext, rst, phase, tbAnswered, ready, stream]

/-- A collected payload ends in the phase that waits for the round trip. -/
theorem phaseNext_send (rst : i.rst = false) (phase : s.phase = .dataIn)
    (send : s.cmd.cmdTbSend P = true) : phaseNext P i s = .dataIn ∨ phaseNext P i s = .tb := by
  rw [phaseNext_dataIn rst phase, send]
  cases dataDone P s <;> simp

theorem Placed.step (placed : Placed P s) (i : TargetIn) : Placed P (step P i s) := by
  have tlen' : (Target.step P i s).tlen < 65536 := by
    change tlenNext P s < 65536
    unfold tlenNext
    split
    · exact Cdb.tlenLatch_lt s.cmdCnt
    · exact placed.tlen
  cases rst : i.rst with
  | true =>
    have idle : (s.tb.step (tbIn P i s)).state = .idle := by
      have reset : (tbIn P i s).rst = true := rst
      simp [Tb.step, reset, Tb.busReset]
    exact ⟨tlen', by simp [idle, TbState.waiting], by simp [idle, TbState.collecting]⟩
  | false =>
    obtain ⟨waiting, collecting⟩ := tb_next (t := s.tb) (w := tbIn P i s) rst
    refine ⟨tlen', ?_, ?_⟩
    · intro next
      obtain ⟨origin, ready, stream⟩ := waiting next
      have phase : s.phase = .tb := origin.elim placed.waits id
      exact phaseNext_tb rst phase ready stream
    · intro next
      have origin : (s.phase = .dataIn ∧ s.cmd.cmdTbSend P = true) ∨
          (s.phase = .tb ∧ s.tb.state.collecting = true) := by
        rcases collecting next with old | ⟨-, phase, pay⟩
        · exact (placed.collects old).imp_right fun phase => ⟨phase, old⟩
        · have send : s.cmd.cmdTbSendPrep P = true ∨ s.cmd.cmdTbSendData P = true := by
            simpa [TbIn.sendPay, tbIn] using pay
          exact .inl ⟨phase, by rcases send with h | h <;> simp [Cdb.cmdTbSend, h]⟩
      rcases origin with ⟨phase, send⟩ | ⟨phase, old⟩
      · have cmd' : (Target.step P i s).cmd = s.cmd := cmdNext_eq (by simp [phase])
        rw [cmd']
        exact (phaseNext_send rst phase send).imp_left fun phase' => ⟨phase', send⟩
      · refine .inr (phaseNext_tb rst phase ?_ ?_) <;> intro state <;>
          simp [state, TbState.collecting] at old

/-- The places hold in every state after power-up. -/
theorem Reached.placed (reached : Reached P s) : Placed P s := by
  induction reached with
  | powerUp => exact placed_powerUp
  | step i _ ih => exact ih.step i

/-- While bytes are served the Toolbox buffers are addressed by the count. -/
theorem Placed.tbBAddr (placed : Placed P s) (phase : s.phase = .dataOut) (i : TargetIn) :
    tbBAddr P i s = s.dataCnt / 2 % 8192 % 2 ^ P.tbAddrw := by
  have free : s.tb.state.waiting ≠ true := by
    intro waiting
    have tb := placed.waits waiting
    simp [phase] at tb
  have collect : (tbIn P i s).collect = false := by simp [TbIn.collect, tbIn, phase]
  unfold Target.tbBAddr tbBAddr13
  cases state : s.tb.state <;> simp [state, TbState.waiting] at free <;> simp [collect]

private theorem ite_lt {c : Prop} [Decidable c] {a b m : Nat} (yes : a < m) (no : b < m) :
    (if c then a else b) < m := by
  split <;> assumption

theorem Placed.dataLen_lt (placed : Placed P s) : dataLen P s < 2 ^ 32 - 4 := by
  have tlen := placed.tlen
  have srv : s.tb.srvLen ≤ 65536 := by
    unfold Tb.srvLen Tb.secMax
    omega
  have b6 := (s.cmd 6).isLt
  have b7 := (s.cmd 7).isLt
  have b8 := (s.cmd 8).isLt
  have send : s.cmd.tbSendLen P ≤ 65536 := by
    unfold Cdb.tbSendLen Params.tbSendCap
    split <;> omega
  have sense : Cdb.senseLen s.tlen ≤ s.tlen + 4 := by
    unfold Cdb.senseLen
    split <;> omega
  have alloc : Cdb.allocLen s.tlen ≤ s.tlen := by
    unfold Cdb.allocLen
    split <;> omega
  have toc : s.cmd.cdTocLen s.tlen ≤ s.tlen := by
    unfold Cdb.cdTocLen
    split <;> omega
  unfold dataLen Cdb.dataLen Cdb.allocCap Cdb.tbDevinfoLen
  repeat' with_reducible apply ite_lt
  all_goals omega

end Target

namespace Serve

open Target (Placed Reached)
open CdAudio (Planes)
open Dpram (Look)

variable {P : Params} {s : Serve} {n k : Nat}

/-! ### The lanes as functions of count and lane -/

/-- The bytes of a longword put together from four. -/
theorem quadByte_append (a b c d : Byte) : quadByte ((a ++ b) ++ (c ++ d)) 0 = a ∧
    quadByte ((a ++ b) ++ (c ++ d)) 1 = b ∧ quadByte ((a ++ b) ++ (c ++ d)) 2 = c ∧
    quadByte ((a ++ b) ++ (c ++ d)) 3 = d := by
  have word {m : Nat} (x : BitVec m) (y : Byte) : (x ++ y).toNat = x.toNat * 2 ^ 8 + y.toNat := by
    rw [BitVec.toNat_append, ← Nat.shiftLeft_add_eq_or_of_lt y.isLt, Nat.shiftLeft_eq]
  have value : ((a ++ b) ++ (c ++ d)).toNat =
      ((a.toNat * 2 ^ 8 + b.toNat) * 2 ^ 8 + c.toNat) * 2 ^ 8 + d.toNat := by
    rw [BitVec.toNat_append, ← Nat.shiftLeft_add_eq_or_of_lt (c ++ d).isLt, Nat.shiftLeft_eq, word,
      word]
    omega
  have b0 := a.isLt
  have b1 := b.isLt
  have b2 := c.isLt
  have b3 := d.isLt
  refine ⟨?_, ?_, ?_, ?_⟩ <;>
  · apply BitVec.eq_of_toNat_eq
    rw [quadByte, BitVec.extractLsb'_toNat, value, Nat.shiftRight_eq_div_pow]
    omega

/-- Byte `k` of a longword read is lane `k`. -/
theorem quadByte_quad (phase : s.tgt.phase = .dataOut) (lane : k < 4) :
    quadByte (s.quad P n) k = (s.at_ n).lane P ((s.at_ n).looks P) k := by
  have words : s.quad P n = (s.at_ n).cmdDoutPair P ((s.at_ n).looks P) ++
      (s.at_ n).cmdDoutPairNext P ((s.at_ n).looks P) := by
    simp [quad, doutPair, doutPairNext, at_, phase]
  obtain ⟨b0, b1, b2, b3⟩ := quadByte_append ((s.at_ n).lane P ((s.at_ n).looks P) 0)
    ((s.at_ n).lane P ((s.at_ n).looks P) 1) ((s.at_ n).lane P ((s.at_ n).looks P) 2)
    ((s.at_ n).lane P ((s.at_ n).looks P) 3)
  rw [words]
  unfold cmdDoutPair cmdDoutPairNext
  interval_cases k <;> assumption

/-- A byte read gets lane 0. -/
theorem single_eq (phase : s.tgt.phase = .dataOut) :
    s.single P n = (s.at_ n).lane P ((s.at_ n).looks P) 0 := by
  simp [single, dout, at_, phase, cmdDout]

@[simp] theorem source_at : (s.at_ n).source P = s.source P := rfl

theorem cnt_at (fits : n + k < 2 ^ 32) : (s.at_ n).cnt k = n + k := by
  cases k with
  | zero => rfl
  | succ k => exact Nat.mod_eq_of_lt fits

/-- Two buffers of even and odd bytes serve consecutive bytes, around the end of
the buffer as well. -/
theorem bufferLane_linear (even odd : Nat → Byte) (m : Nat) (lane : k < 4) :
    bufferLane (n % 2 == 1)
        ⟨even (n / 2 % m), even ((n / 2 % m + 1) % m), even ((n / 2 % m + 2) % m)⟩
        ⟨odd (n / 2 % m), odd ((n / 2 % m + 1) % m), odd ((n / 2 % m + 2) % m)⟩ k =
      if (n + k) % 2 = 1 then odd ((n + k) / 2 % m) else even ((n + k) / 2 % m) := by
  have next : (n / 2 % m + 1) % m = (n / 2 + 1) % m := Nat.mod_add_mod _ _ _
  have next2 : (n / 2 % m + 2) % m = (n / 2 + 2) % m := Nat.mod_add_mod _ _ _
  rw [next, next2]
  obtain ⟨w, parity⟩ : ∃ w, n = 2 * w ∨ n = 2 * w + 1 := ⟨n / 2, by omega⟩
  rcases parity with rfl | rfl
  · have half : 2 * w / 2 = w ∧ (2 * w + 1) / 2 = w ∧ (2 * w + 2) / 2 = w + 1 ∧
        (2 * w + 3) / 2 = w + 1 := by omega
    have bit : 2 * w % 2 = 0 ∧ (2 * w + 1) % 2 = 1 ∧ (2 * w + 2) % 2 = 0 ∧
        (2 * w + 3) % 2 = 1 := by omega
    interval_cases k <;> simp [bufferLane, half, bit]
  · have half : (2 * w + 1) / 2 = w ∧ (2 * w + 1 + 1) / 2 = w + 1 ∧
        (2 * w + 1 + 2) / 2 = w + 1 ∧ (2 * w + 1 + 3) / 2 = w + 2 := by omega
    have bit : (2 * w + 1) % 2 = 1 ∧ (2 * w + 1 + 1) % 2 = 0 ∧ (2 * w + 1 + 2) % 2 = 1 ∧
        (2 * w + 1 + 3) % 2 = 0 := by omega
    interval_cases k <;> simp [bufferLane, half, bit]

/-- The byte of two buffers at linear address `a`. -/
def storedByte (even odd : Nat → Byte) (m a : Nat) : Byte :=
  if a % 2 = 1 then odd (a / 2 % m) else even (a / 2 % m)

/-! ### Sources that agree at every count -/

theorem read_lane (phase : s.tgt.phase = .dataOut) (src : s.source P = .read) (lane : k < 4) :
    (s.at_ n).lane P ((s.at_ n).looks P) k =
      storedByte s.tgt.buffer0.ramAb s.tgt.buffer1.ramAb (2 ^ P.bufAw) (n + k) := by
  have address : Target.macAddr P (s.at_ n).tgt = n / 2 % 2 ^ P.bufAw := by
    simp [Target.macAddr, at_, phase]
  rw [Serve.lane, source_at, src]
  simp only [looks, Target.buffer0In, Target.buffer1In, Target.bufferIn, Dpram.look, address]
  exact bufferLane_linear s.tgt.buffer0.ramAb s.tgt.buffer1.ramAb (2 ^ P.bufAw) lane

theorem tbServe_lane (slice : P.tbAddrw ≤ 13) (placed : Placed P s.tgt)
    (phase : s.tgt.phase = .dataOut) (src : s.source P = .tbServe) (lane : k < 4) :
    (s.at_ n).lane P ((s.at_ n).looks P) k =
      storedByte s.tgt.tbBuf0.ramAb s.tgt.tbBuf1.ramAb (2 ^ P.tbAddrw) (n + k) := by
  have placed' : Placed P (s.at_ n).tgt := ⟨placed.tlen, placed.waits, placed.collects⟩
  have divides : 2 ^ P.tbAddrw ∣ 8192 := pow_dvd_pow 2 slice
  have address : Target.tbBAddr P (s.at_ n).inp (s.at_ n).tgt = n / 2 % 2 ^ P.tbAddrw := by
    rw [placed'.tbBAddr phase, Nat.mod_mod_of_dvd _ divides]
    rfl
  rw [Serve.lane, source_at, src]
  simp only [looks, Target.tbBuf0In, Target.tbBuf1In, Target.tbBufIn, Dpram.look, address]
  exact bufferLane_linear s.tgt.tbBuf0.ramAb s.tgt.tbBuf1.ramAb (2 ^ P.tbAddrw) lane

/-- The byte of the full TOC or the session page at count `a`. -/
def cdToc2Byte (P : Params) (s : Serve) (a : Nat) : Byte :=
  let raw := s.ca.t2.byte (((if s.cmdCdT43f1 P then 496 else 0) + a) % 512)
  if !s.ca.tocReady then 0x00
  else if s.cmdCdT43f1 P then sessFix a raw
  else s.t2Fix a raw

/-- The response function of a source that evaluates it once for each lane. -/
def response (P : Params) (s : Serve) : Source → Option (Nat → Byte)
  | .inquiry => some (inquiryByte P)
  | .readCapacity => some (s.readCapacityByte P)
  | .modeSense => some (s.modeSenseByte P)
  | .requestSense => some (s.senseByte P)
  | .cdSubq => some s.cdSubqByte
  | .cdSubq43 => some s.cdSubq43Byte
  | .cdAstat => some s.cdAstatByte
  | .cdHdr => some s.cdHdrByte
  | .tbDevinfo => some (s.tbDevinfoByte P)
  | .tbDebug => some s.tbDebugByte
  | .none => some fun _ => 0x00
  | _ => none

theorem response_lane {f : Nat → Byte} (own : s.response P (s.source P) = some f)
    (fits : n + k < 2 ^ 32) : (s.at_ n).lane P ((s.at_ n).looks P) k = f (n + k) := by
  rw [Serve.lane, source_at, ← cnt_at (s := s) fits]
  generalize s.source P = src at own
  cases src <;> simp only [response, Option.some.injEq, reduceCtorEq] at own <;> subst own <;> rfl

/-- The full TOC and the session page are addressed by the plain count. -/
theorem cdToc2_lane (lane : k < 4) (fits : n + k < 2 ^ 32) :
    (s.at_ n).cdToc2Lane P k = s.cdToc2Byte P (n + k) := by
  have low : (s.at_ n).caT2Addr P < 512 := Nat.mod_lt _ (by decide)
  have address : ((s.at_ n).caT2Addr P + k) % 512 =
      ((if s.cmdCdT43f1 P then 496 else 0) + (n + k)) % 512 := by
    rw [← Nat.add_assoc]
    exact Nat.mod_add_mod _ _ _
  rw [cdToc2Lane, cnt_at fits, Planes.q_eq low lane, address]
  rfl

/-! ### Transformed addresses -/

theorem caTocBase_le : s.caTocBase ≤ 400 ∧ s.caTocBase % 4 = 0 := by
  have track : s.caTocTrkK ≤ 98 := by
    unfold caTocTrkK
    split
    · omega
    · split <;> omega
  unfold caTocBase
  split
  · omega
  · split <;> omega

theorem caTocAddr_lt : s.caTocAddr < 512 := by
  unfold caTocAddr
  split <;> omega

theorem caT43Soff_le : s.caT43Soff ≤ s.caT43Nreal ∧ s.caT43Nreal ≤ 127 := by
  have len := s.ca.t43Len.isLt
  have rows : 1 ≤ s.caT43Nreal ∧ s.caT43Nreal ≤ 127 := by
    unfold caT43Nreal
    split <;> omega
  refine ⟨?_, rows.2⟩
  unfold caT43Soff
  repeat' split
  all_goals omega

theorem caT43Addr_at : (s.at_ n).caT43Addr =
    if n < 4 then n else (n + s.caT43Soff * 8) % 512 := by
  have address : (s.at_ n).caT43Addr =
      if n < 4 then n else (4 + s.caT43Soff * 8 + (n % 512 + 1024 - 4)) % 512 := rfl
  rw [address]
  split
  · rfl
  · omega

theorem caT43Addr_lt : (s.at_ n).caT43Addr < 512 := by
  rw [caT43Addr_at]
  split <;> omega

theorem caTocAddr_at : (s.at_ n).caTocAddr =
    if (s.caTocBase + n) % 512 < 404 then (s.caTocBase + n) % 512
    else 400 + (s.caTocBase + n) % 512 % 4 := rfl

/-- A lane takes its byte from another table address than a byte read. -/
def Straddles (P : Params) (s : Serve) (n k : Nat) : Prop :=
  s.ca.tocReady = true ∧
    ((s.source P = .cdToc ∧ 4 ≤ n % 4 + k ∧ 404 ≤ (s.caTocBase + n) % 512 + k) ∨
      (s.source P = .cdToc43 ∧ n < 4 ∧ 4 ≤ n + k ∧ s.caT43Soff % 64 ≠ 0))

/-- The tables hold the same byte at the address of lane `k` and at the address
of a byte read. -/
def Coincides (P : Params) (s : Serve) (n k : Nat) : Prop :=
  (s.source P = .cdToc → s.ca.toc.byte (((s.at_ n).caTocAddr + k) % 512) =
      s.ca.toc.byte (s.at_ (n + k)).caTocAddr) ∧
    (s.source P = .cdToc43 → s.ca.t43.byte (((s.at_ n).caT43Addr + k) % 512) =
      s.ca.t43.byte (s.at_ (n + k)).caT43Addr)

/-- The 0xC1 address of lane `k` is the address of a byte read unless a
descriptor boundary past the last descriptor lies between them. -/
theorem tocAddr_eq_iff (lane : k < 4) : ((s.at_ n).caTocAddr + k) % 512 = (s.at_ (n + k)).caTocAddr ↔
    ¬(4 ≤ n % 4 + k ∧ 404 ≤ (s.caTocBase + n) % 512 + k) := by
  obtain ⟨base, aligned⟩ := caTocBase_le (s := s)
  rw [caTocAddr_at, caTocAddr_at]
  split <;> split <;> omega

/-- The 0x43 address of lane `k` is the address of a byte read unless the header
ends between them and rows are left out. -/
theorem t43Addr_eq_iff (lane : k < 4) : ((s.at_ n).caT43Addr + k) % 512 = (s.at_ (n + k)).caT43Addr ↔
    ¬(n < 4 ∧ 4 ≤ n + k ∧ s.caT43Soff % 64 ≠ 0) := by
  have rows := caT43Soff_le (s := s)
  rw [caT43Addr_at, caT43Addr_at]
  split <;> split <;> omega

theorem cdToc_lane (lane : k < 4) : (s.at_ n).cdTocLane k =
    if s.ca.tocReady then s.ca.toc.byte (((s.at_ n).caTocAddr + k) % 512) else 0x00 := by
  rw [cdTocLane, Planes.q_eq caTocAddr_lt lane]
  rfl

theorem cdToc43_lane (lane : k < 4) (fits : n + k < 2 ^ 32) : (s.at_ n).cdToc43Lane k =
    if s.ca.tocReady then
      s.t43HdrFix (n + k) (s.ca.t43.byte (((s.at_ n).caT43Addr + k) % 512))
    else 0x00 := by
  rw [cdToc43Lane, cnt_at fits, Planes.q_eq caT43Addr_lt lane]
  rfl

/-- A descriptor byte just after the header is served as it is stored. -/
theorem t43HdrFix_descriptor {cnt : Nat} (filtered : s.caT43Soff % 64 ≠ 0) (low : 4 ≤ cnt)
    (high : cnt < 8) (raw : Byte) : s.t43HdrFix cnt raw = raw := by
  have rows := caT43Soff_le (s := s)
  have total : ¬s.caT43Tot ≤ cnt := by
    unfold caT43Tot caT43Flen
    omega
  have notFirst : cnt ≠ 0 ∧ cnt ≠ 1 := by omega
  simp [t43HdrFix, total, notFirst]

theorem cdToc_iff (src : s.source P = .cdToc) (lane : k < 4) :
    (s.at_ n).cdTocLane k = (s.at_ (n + k)).cdTocLane 0 ↔
      (s.Straddles P n k → s.Coincides P n k) := by
  have own : ((s.at_ (n + k)).caTocAddr + 0) % 512 = (s.at_ (n + k)).caTocAddr :=
    Nat.mod_eq_of_lt caTocAddr_lt
  rw [cdToc_lane lane, cdToc_lane (by decide), own]
  cases ready : s.ca.tocReady with
  | false => simp [Straddles, ready]
  | true =>
    by_cases same : ((s.at_ n).caTocAddr + k) % 512 = (s.at_ (n + k)).caTocAddr
    · simp [same, Coincides, src]
    · have crosses := not_not.mp (mt (tocAddr_eq_iff lane).mpr same)
      simp [Straddles, Coincides, ready, src, crosses]

theorem cdToc43_iff (src : s.source P = .cdToc43) (lane : k < 4) (fits : n + k < 2 ^ 32) :
    (s.at_ n).cdToc43Lane k = (s.at_ (n + k)).cdToc43Lane 0 ↔
      (s.Straddles P n k → s.Coincides P n k) := by
  have own : ((s.at_ (n + k)).caT43Addr + 0) % 512 = (s.at_ (n + k)).caT43Addr :=
    Nat.mod_eq_of_lt caT43Addr_lt
  rw [cdToc43_lane lane fits, cdToc43_lane (by decide) (by omega), own, Nat.add_zero]
  cases ready : s.ca.tocReady with
  | false => simp [Straddles, ready]
  | true =>
    by_cases same : ((s.at_ n).caT43Addr + k) % 512 = (s.at_ (n + k)).caT43Addr
    · simp [same, Coincides, src]
    · obtain ⟨header, descriptor, filtered⟩ := not_not.mp (mt (t43Addr_eq_iff lane).mpr same)
      rw [t43HdrFix_descriptor filtered descriptor (by omega),
        t43HdrFix_descriptor filtered descriptor (by omega)]
      simp [Straddles, Coincides, ready, src, header, descriptor, filtered]

/-- One lane of a longword read against the byte read at its count. -/
theorem lane_eq_iff (slice : P.tbAddrw ≤ 13) (placed : Placed P s.tgt)
    (phase : s.tgt.phase = .dataOut) (lane : k < 4) (fits : n + k < 2 ^ 32) :
    (s.at_ n).lane P ((s.at_ n).looks P) k =
        (s.at_ (n + k)).lane P ((s.at_ (n + k)).looks P) 0 ↔
      (s.Straddles P n k → s.Coincides P n k) := by
  have plain (other : s.source P ≠ .cdToc ∧ s.source P ≠ .cdToc43)
      (same : (s.at_ n).lane P ((s.at_ n).looks P) k =
        (s.at_ (n + k)).lane P ((s.at_ (n + k)).looks P) 0) :
      (s.at_ n).lane P ((s.at_ n).looks P) k =
        (s.at_ (n + k)).lane P ((s.at_ (n + k)).looks P) 0 ↔
      (s.Straddles P n k → s.Coincides P n k) :=
    iff_of_true same fun straddles => by simp [Straddles, other] at straddles
  cases src : s.source P with
  | read =>
    refine plain (by simp [src]) ?_
    rw [read_lane phase src lane, read_lane phase src (by decide), Nat.add_zero]
  | tbServe =>
    refine plain (by simp [src]) ?_
    rw [tbServe_lane slice placed phase src lane, tbServe_lane slice placed phase src (by decide),
      Nat.add_zero]
  | cdToc2 =>
    refine plain (by simp [src]) ?_
    have served := cdToc2_lane (P := P) (s := s) lane fits
    have first := cdToc2_lane (P := P) (s := s) (n := n + k) (k := 0) (by decide) (by omega)
    rw [Serve.lane, Serve.lane, source_at, source_at, src]
    exact served.trans first.symm
  | cdToc =>
    rw [Serve.lane, Serve.lane, source_at, source_at, src]
    exact cdToc_iff src lane
  | cdToc43 =>
    rw [Serve.lane, Serve.lane, source_at, source_at, src]
    exact cdToc43_iff src lane fits
  | inquiry | readCapacity | modeSense | requestSense | cdSubq | cdSubq43 | cdAstat | cdHdr
  | tbDevinfo | tbDebug | none =>
    refine plain (by simp [src]) ?_
    rw [response_lane (f := (s.response P (s.source P)).getD default) (by rw [src]; rfl) fits,
      response_lane (f := (s.response P (s.source P)).getD default) (by rw [src]; rfl) (by omega),
      Nat.add_zero]

/-! ### The main result -/

/-- The state with other contents of the two transformed tables. -/
def withTables (s : Serve) (toc t43 : Planes) : Serve :=
  { s with ca := { s.ca with toc := toc, t43 := t43 } }

/-- A memory whose only byte other than 0 is at `a`. -/
def marked (a : Nat) : Planes := (Planes.mk (fun _ => 0) (fun _ => 0)).write a 1

theorem marked_byte (a b : Nat) : (marked a).byte b = if b = a then 1 else 0 := by
  rw [marked, Planes.byte_write]
  simp [Planes.byte]

/-- Tables that show the difference at a straddling lane. -/
theorem straddles_visible (lane : k < 4) (straddles : s.Straddles P n k) :
    ∃ a b, ¬(s.withTables (marked a) (marked b)).Coincides P n k := by
  refine ⟨((s.at_ n).caTocAddr + k) % 512, ((s.at_ n).caT43Addr + k) % 512, ?_⟩
  intro coincides
  rcases straddles with ⟨-, ⟨src, crosses⟩ | ⟨src, crosses⟩⟩
  · have differ := mt (tocAddr_eq_iff (s := s) lane).mp (not_not.mpr crosses)
    have same := coincides.1 src
    change (marked _).byte (((s.at_ n).caTocAddr + k) % 512) =
      (marked _).byte (s.at_ (n + k)).caTocAddr at same
    simp [marked_byte, Ne.symm differ] at same
  · have differ := mt (t43Addr_eq_iff (s := s) lane).mp (not_not.mpr crosses)
    have same := coincides.2 src
    change (marked _).byte (((s.at_ n).caT43Addr + k) % 512) =
      (marked _).byte (s.at_ (n + k)).caT43Addr at same
    simp [marked_byte, Ne.symm differ] at same

theorem agrees_iff (slice : P.tbAddrw ≤ 13) (placed : Placed P s.tgt)
    (phase : s.tgt.phase = .dataOut) : s.Agrees P n ↔
      ∀ k < 4, n + k < s.tgt.dataLen P → s.Straddles P n k → s.Coincides P n k := by
  have long := placed.dataLen_lt
  unfold Agrees
  refine forall_congr' fun k => forall_congr' fun lane => forall_congr' fun inside => ?_
  rw [quadByte_quad phase lane, single_eq phase]
  exact lane_eq_iff slice placed phase lane (by omega)

/-- In a DataIn phase the longword at count `n` is the four bytes byte reads get
exactly where the tables coincide at each straddling lane; it is so whatever the
tables hold exactly where no lane inside the transfer straddles. -/
theorem lanes_agree_iff (slice : P.tbAddrw ≤ 13) (reached : Reached P s.tgt)
    (phase : s.tgt.phase = .dataOut) (n : Nat) :
    (s.Agrees P n ↔
      ∀ k < 4, n + k < s.tgt.dataLen P → s.Straddles P n k → s.Coincides P n k) ∧
    ((∀ toc t43, (s.withTables toc t43).Agrees P n) ↔
      ∀ k < 4, n + k < s.tgt.dataLen P → ¬s.Straddles P n k) := by
  have placed := reached.placed
  refine ⟨agrees_iff slice placed phase, ?_, ?_⟩
  · intro always k lane inside straddles
    obtain ⟨a, b, differ⟩ := straddles_visible lane straddles
    have agrees := always (marked a) (marked b)
    rw [agrees_iff (s := s.withTables (marked a) (marked b)) slice placed phase] at agrees
    exact differ (agrees k lane inside straddles)
  · intro none toc t43
    rw [agrees_iff (s := s.withTables toc t43) slice placed phase]
    intro k lane inside straddles
    exact absurd straddles (none k lane inside)

/-! ### The buffers catch up -/

/-- The target runs on at one count of a DataIn phase, no port writes the
buffers, and each buffer's fetch is at most six clocks from its end. -/
structure Resting (P : Params) (ins : Nat → TargetIn) (r : Nat → Target) : Prop where
  step : ∀ t, r (t + 1) = Target.step P (ins t) (r t)
  placed : Placed P (r 0)
  phase : ∀ t, (r t).phase = .dataOut
  count : ∀ t, (r t).dataCnt = (r 0).dataCnt
  noFill : ∀ t, (ins t).sdBuffWr = false
  noStore : (r 0).buffer0Wr = false ∧ (r 0).buffer1Wr = false
  buffer0 : ∃ m ≤ 6, Dpram.Within (Target.buffer0In P (ins 0) (r 0)) (r 0).buffer0 m
  buffer1 : ∃ m ≤ 6, Dpram.Within (Target.buffer1In P (ins 0) (r 0)) (r 0).buffer1 m
  tbBuf0 : ∃ m ≤ 6, Dpram.Within (Target.tbBuf0In P (ins 0) (r 0)) (r 0).tbBuf0 m
  tbBuf1 : ∃ m ≤ 6, Dpram.Within (Target.tbBuf1In P (ins 0) (r 0)) (r 0).tbBuf1 m

namespace Resting

variable {ins : Nat → TargetIn} {r : Nat → Target}

theorem placed_at (rest : Resting P ins r) (t : Nat) : Placed P (r t) := by
  induction t with
  | zero => exact rest.placed
  | succ t ih => rw [rest.step]; exact ih.step (ins t)

theorem noStore_at (rest : Resting P ins r) (t : Nat) :
    (r t).buffer0Wr = false ∧ (r t).buffer1Wr = false := by
  cases t with
  | zero => exact rest.noStore
  | succ t => simp [rest.step, Target.step, rest.phase]

/-- The sector buffers see one set of addresses. -/
theorem holds_buffer (rest : Resting P ins r) (t : Nat) :
    Dpram.Holds (Target.buffer0In P (ins 0) (r 0)) (Target.buffer0In P (ins t) (r t)) ∧
      Dpram.Holds (Target.buffer1In P (ins 0) (r 0)) (Target.buffer1In P (ins t) (r t)) := by
  have address : Target.macAddr P (r t) = Target.macAddr P (r 0) := by
    simp [Target.macAddr, rest.phase, rest.count t]
  obtain ⟨store0, store1⟩ := rest.noStore_at t
  constructor <;> constructor <;>
    simp [Target.buffer0In, Target.buffer1In, Target.bufferIn, address, rest.noFill, store0, store1]

/-- The Toolbox buffers see one set of addresses. -/
theorem holds_tbBuf (rest : Resting P ins r) (t : Nat) :
    Dpram.Holds (Target.tbBuf0In P (ins 0) (r 0)) (Target.tbBuf0In P (ins t) (r t)) ∧
      Dpram.Holds (Target.tbBuf1In P (ins 0) (r 0)) (Target.tbBuf1In P (ins t) (r t)) := by
  have address : Target.tbBAddr P (ins t) (r t) = Target.tbBAddr P (ins 0) (r 0) := by
    rw [(rest.placed_at t).tbBAddr (rest.phase t), rest.placed.tbBAddr (rest.phase 0), rest.count t]
  have load : (r t).tb.state ≠ .load := by
    intro state
    have tb := (rest.placed_at t).waits (by simp [state, TbState.waiting])
    simp [rest.phase t] at tb
  have collect : (Target.tbIn P (ins t) (r t)).collect = false := by
    simp [TbIn.collect, Target.tbIn, rest.phase t]
  constructor <;> constructor <;>
    simp [Target.tbBuf0In, Target.tbBuf1In, Target.tbBufIn, address, load, collect, rest.noFill,
      Target.tbHpsWr]

/-- A buffer of the target, clock by clock. -/
theorem buffer_settles {p : TargetIn → Target → DpramIn} {m : Target → Dpram}
    (rest : Resting P ins r) (own : ∀ i s, m (Target.step P i s) = (m s).step (p i s))
    (held : ∀ t, Dpram.Holds (p (ins 0) (r 0)) (p (ins t) (r t)))
    (near : ∃ k ≤ 6, Dpram.Within (p (ins 0) (r 0)) (m (r 0)) k) {t : Nat} (late : 6 ≤ t) :
    (m (r t)).out = Dpram.look (m (r t)).ramAb (p (ins t) (r t)) := by
  have run (t : Nat) :
      m (r t) = Dpram.after (fun u => p (ins u) (r u)) (m (r 0)) t := by
    induction t with
    | zero => rfl
    | succ t ih => rw [rest.step, own, ih, Dpram.after]
  obtain ⟨k, bound, within⟩ := near
  have same := held t
  rw [run t, within.settles bound held late, Dpram.after_ramAb held]
  simp [Dpram.look, same.addressB, same.addressC, same.addressD]

end Resting

/-- Six clocks after a count change the output registers show what the lanes
of the count are made of. -/
theorem looksNow_eq {ins : Nat → TargetIn} {r : Nat → Target} (rest : Resting P ins r) {t : Nat}
    (late : 6 ≤ t) (page : AudioPage) (ca : CaServe) :
    (Serve.mk (r t) (ins t) page ca).looksNow = (Serve.mk (r t) (ins t) page ca).looks P := by
  have b0 := rest.buffer_settles (p := Target.buffer0In P) (m := Target.buffer0)
    (fun _ _ => rfl) (fun u => (rest.holds_buffer u).1) rest.buffer0 late
  have b1 := rest.buffer_settles (p := Target.buffer1In P) (m := Target.buffer1)
    (fun _ _ => rfl) (fun u => (rest.holds_buffer u).2) rest.buffer1 late
  have t0 := rest.buffer_settles (p := Target.tbBuf0In P) (m := Target.tbBuf0)
    (fun _ _ => rfl) (fun u => (rest.holds_tbBuf u).1) rest.tbBuf0 late
  have t1 := rest.buffer_settles (p := Target.tbBuf1In P) (m := Target.tbBuf1)
    (fun _ _ => rfl) (fun u => (rest.holds_tbBuf u).2) rest.tbBuf1 late
  simp [looksNow, looks, b0, b1, t0, t1]

/-! ### A filtered 0x43 table -/

/-- Two clocks of acknowledge with a byte, two without. -/
def handshake (b : Byte) : List TargetIn :=
  [{ ack := true, din := b }, { ack := true, din := b }, { ack := false }, { ack := false }]

/-- Mount a disc, select the CD-ROM target and send it a command. -/
def session (cdb : List Byte) : List TargetIn :=
  [{ imgMounted := true, imgBlocks := 4000 }, { sel := true, din := 0x08, cdEnable := true }] ++
    cdb.flatMap handshake ++ [{ ack := false }]

/-- The target after the inputs `xs`. -/
def fed (P : Params) (xs : List TargetIn) : Target :=
  xs.foldl (fun s i => Target.step P i s) (Target.powerUp P)

theorem reached_fed (xs : List TargetIn) : Reached P (fed P xs) := by
  have run (xs : List TargetIn) (s : Target) (reached : Reached P s) :
      Reached P (xs.foldl (fun s i => Target.step P i s) s) := by
    induction xs generalizing s with
    | nil => exact reached
    | cons i xs ih => exact ih _ (reached.step i)
  exact run xs _ .powerUp

/-- The response memory with the bytes `xs` from address 0 on. -/
def table (xs : List Byte) : Planes :=
  { even := fun k => xs.getD (2 * k) 0, odd := fun k => xs.getD (2 * k + 1) 0 }

/-- A disc with a data track at 0:02.00 and an audio track at 10:00.00, lead-out
at 40:00.00: its 0x43 table of 28 bytes. -/
def twoTracks : CaServe :=
  { tocReady := true, t43Len := 28
    t43 := table [0x00, 0x1a, 0x01, 0x02, 0x00, 0x14, 0x01, 0x00, 0x00, 0, 2, 0,
      0x00, 0x10, 0x02, 0x00, 0x00, 10, 0, 0, 0x00, 0x10, 0xaa, 0x00, 0x00, 40, 0, 0] }

/-- READ TOC from track 2 on, 16 bytes. -/
def readToc2 : Serve :=
  { tgt := fed .cdromTarget (session [0x43, 0x02, 0, 0, 0, 0, 2, 0, 16, 0]), ca := twoTracks }

/-- READ TOC from track 2 on: the longword at count 3 shows bytes of track 1. -/
theorem lanes_disagree : ¬∀ (P : Params) (s : Serve), P.tbAddrw ≤ 13 → Reached P s.tgt →
    s.tgt.phase = .dataOut → ∀ n < s.tgt.dataLen P, s.Agrees P n := by
  intro agree
  have phase : readToc2.tgt.phase = .dataOut := by decide +kernel
  have length : readToc2.tgt.dataLen .cdromTarget = 16 := by decide +kernel
  have agrees := agree .cdromTarget readToc2 (by decide) (reached_fed _) phase 3 (by omega)
  have lane := agrees 3 (by decide) (by omega)
  have served : quadByte (readToc2.quad .cdromTarget 3) 3 = 0x01 ∧
      readToc2.single .cdromTarget 6 = 0x02 := by decide +kernel
  rw [served.1, served.2] at lane
  exact absurd lane (by decide)

/-- The characterization at that command, count 4: no lane straddles. -/
theorem lanes_agree_track2 : readToc2.Agrees .cdromTarget 4 := by
  have phase : readToc2.tgt.phase = .dataOut := by decide +kernel
  have main := lanes_agree_iff (P := .cdromTarget) (by decide) (reached_fed _) phase 4
  refine main.1.mpr fun k _ _ straddles => ?_
  rcases straddles with ⟨-, ⟨src, -⟩ | ⟨-, header, -⟩⟩
  · exact absurd src (by decide +kernel)
  · omega

end Serve

end MacIIvi
