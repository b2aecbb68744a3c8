import MacIIvi.Clocked.Run
import MacIIvi.Scsi.Driver
import MacIIvi.Scsi.Phases

/-!
# The beats of pseudo-DMA writes

A write access that ends is acknowledged once for a byte and twice for a word.
The target takes its byte four clocks after the end of the access, the low byte
of a word two clocks later, from a register of its own: by then the next access
may already have latched its mode and its low byte.
-/

namespace MacIIvi

open Clocked

namespace HostIn

/-- The bytes of a write access in the order they are sent. -/
def bytes (h : HostIn) : List Byte :=
  if h.dmaWord then [h.highByte, h.lowByte] else [h.highByte]

end HostIn

/-- The bytes of a write access that ends at clock `f`. -/
def ending (host : Nat → HostIn) (f : Nat) : Option (List Byte) :=
  if (host (f - 1)).dmaWr && !(host f).dmaWr then some (host (f - 1)).bytes else none

/-- The bytes of the write accesses that are over before clock `t`. -/
def sent (host : Nat → HostIn) (t : Nat) : List Byte := (record (ending host) 0 t).flatten

/-- The host makes write accesses only, up to the clock before `t`. An access lasts
two clocks at least, with its lines steady (a bus cycle of the CPU holds its strobe
until it has sampled the acknowledge), and two clocks at least lie between two
accesses. -/
structure Writes (host : Nat → HostIn) (t : Nat) : Prop where
  noRead : ∀ u < t, (host u).dmaRd = false
  noReg : ∀ u < t, (host u).regWr = false
  steady : ∀ u, u + 1 < t → (host u).dmaWr = true → (host (u + 1)).dmaWr = true →
    (host (u + 1)).wdata = (host u).wdata ∧ (host (u + 1)).dmaWord = (host u).dmaWord
  first : 1 < t → (host 0).dmaWr = true → (host 1).dmaWr = true
  held : ∀ u, u + 2 < t → (host u).dmaWr = false → (host (u + 1)).dmaWr = true →
    (host (u + 2)).dmaWr = true
  apart : ∀ u, u + 2 < t → (host u).dmaWr = true → (host (u + 1)).dmaWr = false →
    (host (u + 2)).dmaWr = false

section Writes

variable {host : Nat → HostIn} {t : Nat}

theorem Writes.earlier {t' : Nat} (writes : Writes host t') (h : t ≤ t') : Writes host t where
  noRead u below := writes.noRead u (by omega)
  noReg u below := writes.noReg u (by omega)
  steady u below := writes.steady u (by omega)
  first below := writes.first (by omega)
  held u below := writes.held u (by omega)
  apart u below := writes.apart u (by omega)

@[simp] theorem sent_zero (host : Nat → HostIn) : sent host 0 = [] := by simp [sent]

theorem sent_succ : sent host (t + 1) = sent host t ++ (ending host t).getD [] := by
  rw [sent, sent, record_succ (Nat.zero_le t), List.flatten_append]
  cases ending host t <;> simp

end Writes

namespace Ncr

/-- The driver has armed the controller for a DataOut phase. -/
structure Armed (n : Ncr) : Prop where
  dmaEn : n.dmaEn = true
  dmaMode : n.mrDmaMode = true
  outEn : n.outEn = true
  noAck : n.icrAck = false
  noRst : n.icrRst = false
  tcr : n.tcr.extractLsb' 0 3 = 0
  noReg : n.regWr = false

/-- What the controller has of the access on the bus at clock `t`. -/
structure Latched (host : Nat → HostIn) (t : Nat) (n : Ncr) : Prop where
  oldRd : n.oldDmaRd = false
  old : n.oldDmaWr = (decide (0 < t) && (host (t - 1)).dmaWr)
  pulse : n.dmaWr = true → 0 < t ∧ (host (t - 1)).dmaWr = true ∧
    (1 < t → (host (t - 2)).dmaWr = false)
  word : n.oldDmaWr = true → n.dmaWordLatched = (host (t - 1)).dmaWord
  low : n.oldDmaWr = true → n.dmaWriteLowByte = (host (t - 1)).lowByte
  high : n.oldDmaWr = true → n.dmaWr = false → n.dout = (host (t - 1)).highByte

variable {host : Nat → HostIn} {t : Nat} {l : BusLines} {n : Ncr}

/-- Unless it is written only the arbitration changes the initiator command
register, and only its BSY bit. -/
theorem icrNext_bit {h : HostIn} (reg : (n.regWr && h.rs == 1) = false) {k : Nat}
    (notBusy : k ≠ 3) : (n.icrNext h).getLsbD k = n.icr.getLsbD k := by
  have busy : (0x08 : Byte) = BitVec.twoPow 8 3 := rfl
  unfold icrNext
  rw [reg, if_neg (by simp)]
  split
  · rw [BitVec.getLsbD_or, busy, BitVec.getLsbD_twoPow]
    simp [Ne.symm notBusy]
  · rfl

theorem Armed.step (armed : n.Armed) (noReg : (host t).regWr = false) :
    (n.step (host t) l).Armed := by
  have reg := armed.noReg
  have noWrite : (n.regWr && (host t).rs == 1) = false := by rw [reg, Bool.false_and]
  have noRst : n.icrRst = false := armed.noRst
  have mr : n.mrNext (host t) = n.mr := by simp [mrNext, noRst, reg]
  exact
    { dmaEn := by simp [dmaEnNext, armed.dmaMode, armed.dmaEn]
      dmaMode := by simpa [mrDmaMode, mr] using armed.dmaMode
      outEn := by
        rw [Ncr.outEn, icrData, mrArb, step_icr, step_mr, icrNext_bit noWrite (by decide), mr]
        exact armed.outEn
      noAck := by
        rw [icrAck, step_icr, icrNext_bit noWrite (by decide)]
        exact armed.noAck
      noRst := by
        rw [icrRst, step_icr, icrNext_bit noWrite (by decide)]
        exact noRst
      tcr := by simpa [tcrNext, reg] using armed.tcr
      noReg := by simp [noReg] }

/-- The access that ends is the one the controller has latched. -/
theorem Latched.ending (have_ : n.Latched host t) (writes : Writes host (t + 1))
    (fall : n.dmaWrFall (host t) = true) :
    0 < t ∧ (host (t - 1)).dmaWr = true ∧ (host t).dmaWr = false ∧
      n.dmaWordLatched = (host (t - 1)).dmaWord ∧
      n.dmaWriteLowByte = (host (t - 1)).lowByte ∧ n.dout = (host (t - 1)).highByte ∧
      n.dmaWr = false := by
  simp only [dmaWrFall, Bool.and_eq_true, Bool.not_eq_true'] at fall
  obtain ⟨old, low⟩ := fall
  have strobe := have_.old
  rw [old] at strobe
  simp only [Bool.true_eq, Bool.and_eq_true, decide_eq_true_eq] at strobe
  obtain ⟨later, strobe⟩ := strobe
  have noPulse : n.dmaWr = false := by
    by_contra pulse
    obtain ⟨-, -, before⟩ := have_.pulse (by simpa using pulse)
    by_cases more : 1 < t
    · have held := writes.held (t - 2) (by omega) (before more)
        (by rw [show t - 2 + 1 = t - 1 by omega]; exact strobe)
      rw [show t - 2 + 2 = t by omega, low] at held
      cases held
    · have here : t = 1 := by omega
      subst here
      rw [Nat.sub_self] at strobe
      have held := writes.first (by omega) strobe
      rw [low] at held
      cases held
  exact ⟨later, strobe, low, have_.word old, have_.low old, have_.high old noPulse, noPulse⟩

theorem Latched.step (have_ : n.Latched host t) (armed : n.Armed)
    (writes : Writes host (t + 1)) :
    (n.step (host t) l).Latched host (t + 1) := by
  have old := have_.old
  have noRead := writes.noRead t (by omega)
  have steady : n.oldDmaWr = true → (host t).dmaWr = true →
      (host t).wdata = (host (t - 1)).wdata ∧ (host t).dmaWord = (host (t - 1)).dmaWord := by
    intro was is
    rw [was] at old
    simp only [Bool.true_eq, Bool.and_eq_true, decide_eq_true_eq] at old
    have same := writes.steady (t - 1) (by omega) old.2
      (by rw [show t - 1 + 1 = t by omega]; exact is)
    rwa [show t - 1 + 1 = t by omega] at same
  refine
    { oldRd := noRead, old := ?_, pulse := ?_, word := ?_, low := ?_, high := ?_ }
  · simp
  · intro rise
    simp only [step_dmaWr, dmaWrRise, Bool.and_eq_true, Bool.not_eq_true'] at rise
    refine ⟨by omega, rise.2, fun more => ?_⟩
    rw [rise.1] at old
    simpa [show 0 < t by omega] using old.symm
  · intro is
    simp only [step_oldDmaWr] at is
    cases was : n.oldDmaWr with
    | false => simp [dmaRise, dmaWrRise, was, is]
    | true =>
      simp [dmaRise, dmaWrRise, dmaRdRise, was, noRead, (steady was is).2, have_.word was]
  · intro is
    simp only [step_oldDmaWr] at is
    cases was : n.oldDmaWr with
    | false => simp [dmaWrRise, was, is]
    | true => simp [dmaWrRise, was, have_.low was, HostIn.lowByte, (steady was is).1]
  · intro is quiet
    simp only [step_oldDmaWr] at is
    have was : n.oldDmaWr = true := by
      simpa [dmaWrRise, is] using quiet
    have same := (steady was is).1
    cases pulse : n.dmaWr with
    | false =>
      simp [doutNext, armed.noReg, pulse, have_.high was pulse, HostIn.highByte, same]
    | true => simp [doutNext, pulse]

end Ncr

namespace Cdb

variable {P : Params} {cmd : Cdb}

/-- Commands with a DataOut phase. -/
def dataInCmd (P : Params) (cmd : Cdb) : Bool := cmd.cmdTbSendPay P || cmd.startsDataIn P

theorem dataInCmd_opCode (h : dataInCmd P cmd = true) :
    opCode cmd = 0x0a ∨ opCode cmd = 0x2a ∨ opCode cmd = 0x15 ∨ opCode cmd = 0x3c ∨
      opCode cmd = 0xce ∨ opCode cmd = 0xd3 ∨ opCode cmd = 0xd4 := by
  simp [dataInCmd, cmdTbSendPay, cmdTbSendPrep, cmdTbSendData, startsDataIn, cmdWrite, cmdWrite6,
    cmdWrite10, cmdModeSelect, cmdWriteBuffer, cmdCdActl] at h ⊢
  tauto

/-- The length of a DataOut phase, from the CDB alone. -/
def dataInLen (P : Params) (cmd : Cdb) (tlen : Nat) : Nat :=
  if cmdWrite cmd then tlen * 512
  else if cmdCdActl P cmd then (cmd 8).toNat
  else if P.cdrom && cmdModeSelect cmd then allocLen tlen
  else if cmdTbSendPrep P cmd then 33
  else if cmdTbSendData P cmd then tbSendLen P cmd
  else tlen

/-- What the HPS does has no influence on the length of a DataOut phase. -/
theorem dataLen_dataIn (h : dataInCmd P cmd = true) (ready : Bool) (tlen srv : Nat) :
    dataLen P ready cmd tlen srv = dataInLen P cmd tlen := by
  rcases dataInCmd_opCode h with op | op | op | op | op | op | op <;>
    simp [dataLen, dataInLen, cmdReadCapacity, cmdRead, cmdRead6, cmdRead10, cmdWrite, cmdWrite6,
      cmdWrite10, cmdCdToc, cmdCdToc43, cmdCdSubq43, cmdCdSubq, cmdCdAstat, cmdCdHdr, cmdCdActl,
      cmdInquiry, cmdModeSense, cmdModeSelect, cmdRequestSense, cmdTbDevinfo, cmdTbDebugGet,
      cmdTbDebug, cmdTbIn, cmdTbFsIn, cmdCdcIn, cmdCdcList, cmdCdcCount, cmdTbSendPrep,
      cmdTbSendData, op]

theorem dataInLen_lt {tlen : Nat} (short : tlen < 65536) : dataInLen P cmd tlen < 2 ^ 26 := by
  have byte := (cmd 8).isLt
  have alloc : allocLen tlen ≤ tlen := by unfold allocLen; split <;> omega
  have send : tbSendLen P cmd ≤ 65536 := by
    unfold tbSendLen Params.tbSendCap
    split <;> omega
  unfold dataInLen
  repeat' split
  all_goals omega

end Cdb

namespace Target

variable {P : Params} {i : TargetIn} {s : Target}

/-- A DataOut phase: the count of bytes and the length to reach. -/
structure Receiving (P : Params) (s : Target) : Prop where
  phase : s.phase = .dataIn
  cmd : s.cmd.dataInCmd P = true
  tlen : s.tlen < 65536
  room : s.dataComplete = false → dataLen P s = 0 ∨ s.dataCnt < dataLen P s
  full : s.dataComplete = true → s.dataCnt = dataLen P s

/-- The phase goes on. -/
theorem Receiving.goes_on (here : Receiving P s) (rst : i.rst = false)
    (stays : phaseNext P i s = .dataIn) :
    s.dataComplete = false ∧ s.dataCnt < dataLen P s ∧ dataLen P s < 2 ^ 26 := by
  rw [phaseNext_dataIn rst here.phase] at stays
  have goes : dataDone P s = false := by
    by_contra done
    rw [if_pos (by simpa using done)] at stays
    split at stays <;> cases stays
  simp only [dataDone, Bool.or_eq_false_iff, beq_eq_false_iff_ne] at goes
  obtain ⟨⟨⟨complete, some_⟩, -⟩, -⟩ := goes
  refine ⟨complete, (here.room complete).resolve_left some_, ?_⟩
  rw [dataLen, Cdb.dataLen_dataIn here.cmd]
  exact Cdb.dataInLen_lt here.tlen

theorem Receiving.dataCnt_next (here : Receiving P s) (rst : i.rst = false)
    (stays : phaseNext P i s = .dataIn) :
    (step P i s).dataCnt = s.dataCnt + s.stbAdv.toNat := by
  obtain ⟨complete, below, short⟩ := here.goes_on rst stays
  have small : (s.dataCnt + 1) % 2 ^ 32 = s.dataCnt + 1 := Nat.mod_eq_of_lt (by omega)
  rw [step_dataCnt, dataCntNext, if_neg (by simp [transferPhase, here.phase])]
  cases adv : s.stbAdv with
  | false => simp
  | true => rw [if_pos (by simp [complete]), small, Bool.toNat_true]

theorem Receiving.step (here : Receiving P s) (rst : i.rst = false)
    (stays : phaseNext P i s = .dataIn) : Receiving P (step P i s) := by
  obtain ⟨complete, below, short⟩ := here.goes_on rst stays
  have cmd : (Target.step P i s).cmd = s.cmd := cmdNext_eq (by simp [here.phase])
  have tlen : (Target.step P i s).tlen = s.tlen := tlenNext_eq (by simp [here.phase])
  have len : dataLen P (Target.step P i s) = dataLen P s := by
    rw [dataLen, dataLen, cmd, tlen, Cdb.dataLen_dataIn here.cmd, Cdb.dataLen_dataIn here.cmd]
  have count := here.dataCnt_next rst stays
  have last : (Target.step P i s).dataComplete =
      if s.stbAdv then dataLen P s - 1 == s.dataCnt else false := by
    have wrap : (dataLen P s + 2 ^ 32 - 1) % 2 ^ 32 = dataLen P s - 1 := by
      rw [show dataLen P s + 2 ^ 32 - 1 = dataLen P s - 1 + 2 ^ 32 by omega, Nat.add_mod_right,
        Nat.mod_eq_of_lt (by omega)]
    simp only [step_dataComplete, dataCompleteNext, transferPhase, here.phase, wrap, complete]
    rfl
  refine
    { phase := by rw [step_phase, stays]
      cmd := by rw [cmd]; exact here.cmd
      tlen := by rw [tlen]; exact here.tlen
      room := ?_, full := ?_ }
  · rw [last, len, count]
    cases s.stbAdv with
    | false => exact fun _ => .inr below
    | true =>
      simp only [if_true, beq_eq_false_iff_ne, Bool.toNat_true]
      omega
  · rw [last, len, count]
    cases s.stbAdv with
    | false => simp
    | true =>
      simp only [if_true, beq_iff_eq, Bool.toNat_true]
      omega

end Target

/-! ### The beats -/

/-- Where the last access of a sequence is. `word` says whether it is a word,
`tail` whether the low byte of the access before is stored in the same clock. -/
inductive Beat where
  | rest
  | ack (word tail : Bool)
  | strobe (word : Bool)
  | store (word : Bool)
  | strobeLow
  | storeLow

namespace Beat

/-- Clocks since the end of the access. -/
def age : Beat → Nat
  | rest => 0
  | ack _ _ => 1
  | strobe _ => 2
  | store _ => 3
  | strobeLow => 4
  | storeLow => 5

/-- A byte is stored in this clock. -/
def stores : Beat → Bool
  | ack _ tail => tail
  | store _ | storeLow => true
  | _ => false

/-- The byte stored is the captured low byte. -/
def storesLow : Beat → Bool
  | ack _ tail => tail
  | storeLow => true
  | _ => false

/-- The bytes not counted yet: `h` has the lines of the last access, `odd` is the
captured low byte. -/
def pending (h : HostIn) (odd : Byte) : Beat → List Byte
  | rest => []
  | ack _ tail => (if tail then [odd] else []) ++ h.bytes
  | strobe _ | store _ => h.bytes
  | strobeLow | storeLow => [odd]

end Beat

/-- The registers of the acknowledge pipeline. -/
structure Pipe where
  dmaAck : Bool
  holdoff : Nat
  oldAck : Bool
  stbAck : Bool
  stbAdv : Bool
  wmBeat2 : Bool
  deriving DecidableEq

/-- The pipeline one clock later, if no acknowledge is given by hand. -/
def Pipe.next (fall word : Bool) (p : Pipe) : Pipe where
  dmaAck := if p.holdoff != 0 then p.holdoff.testBit 0 else fall
  holdoff := if p.holdoff != 0 then p.holdoff - 1 else if fall && word then 2 else 0
  oldAck := p.dmaAck
  stbAck := !p.oldAck && p.dmaAck
  stbAdv := p.oldAck && !p.dmaAck
  wmBeat2 := (p.stbAck && !p.wmBeat2 && word) || (!p.stbAck && p.wmBeat2)

namespace Beat

/-- The beat one clock later. `fall` says whether an access ends in this clock, `word`
whether that is a word. -/
def next (fall word : Bool) : Beat → Beat
  | rest | storeLow => if fall then ack word false else rest
  | ack w _ => strobe w
  | strobe w => store w
  | store w => if w then strobeLow else rest
  | strobeLow => if fall then ack word true else storeLow

/-- The pipeline at a beat. -/
def pipe : Beat → Pipe
  | rest => ⟨false, 0, false, false, false, false⟩
  | ack word tail => ⟨true, if word then 2 else 0, false, false, tail, false⟩
  | strobe word => ⟨false, if word then 1 else 0, true, true, false, false⟩
  | store word => ⟨word, 0, false, false, true, word⟩
  | strobeLow => ⟨false, 0, true, true, false, true⟩
  | storeLow => ⟨false, 0, false, false, true, false⟩

section

variable {b : Beat} {fall word : Bool}

theorem next_stores : (b.next fall word).stores = b.pipe.stbAck := by
  cases b with
  | store w => cases w <;> rfl
  | rest | storeLow | strobeLow => cases fall <;> rfl
  | ack | strobe => rfl

theorem next_storesLow (stores : (b.next fall word).stores = true) :
    (b.next fall word).storesLow = (b.pipe.stbAck && b.pipe.wmBeat2) := by
  cases b with
  | store w => cases w <;> simp [next, Beat.stores] at stores
  | rest | storeLow => cases fall <;> simp [next, Beat.stores] at stores
  | strobeLow => cases fall <;> rfl
  | ack => simp [next, Beat.stores] at stores
  | strobe => rfl

theorem stbAdv_pipe : b.pipe.stbAdv = b.stores := by cases b <;> rfl

/-- A byte is not strobed in the clock in which another one is stored. -/
theorem not_stores (strobe : b.pipe.stbAck = true) : b.stores = false := by
  cases b <;> simp [pipe] at strobe <;> rfl

/-- An acknowledge is strobed one clock after it is given. -/
theorem next_strobe : (b.pipe.next fall word).stbAck = b.pipe.dmaAck ∧
    (b.pipe.next fall word).stbAdv = b.pipe.stbAck := by
  cases b with
  | store w => cases w <;> exact ⟨rfl, rfl⟩
  | _ => exact ⟨rfl, rfl⟩

/-- The second acknowledge of a word comes two clocks after the first one. -/
theorem next_second :
    b.pipe.holdoff = 0 ∨
      (b.pipe.holdoff = 1 ∧ (b.pipe.next fall word).dmaAck = true) ∨
      (b.pipe.holdoff = 2 ∧ (b.pipe.next fall word).holdoff = 1) := by
  cases b with
  | ack w | strobe w => cases w <;> simp [pipe, Pipe.next, Nat.testBit]
  | _ => exact .inl rfl

/-- The next beat is of the same access, of one that ends now, or there is none. -/
theorem next_age (busy : b.next fall word ≠ rest) :
    (b ≠ rest ∧ (b.next fall word).age = b.age + 1) ∨
      (fall = true ∧ (b.next fall word).age = 1) := by
  cases b with
  | store w => cases w <;> simp [next, age] at busy ⊢
  | rest | storeLow | strobeLow => cases fall <;> simp [next, age] at busy ⊢
  | ack | strobe => simp [next, age]

end

end Beat

namespace Chip

/-- The run from `c`. -/
def after (P : Params) (host : Nat → HostIn) (env : Nat → ChipEnv) (c : Chip) : Nat → Chip
  | 0 => c
  | t + 1 => (after P host env c t).step P (host t) (env t)

def pipe (c : Chip) : Pipe :=
  { dmaAck := c.ncr.dmaAck, holdoff := c.ncr.dmaAckHoldoff, oldAck := c.tgt.oldAck
    stbAck := c.tgt.stbAck, stbAdv := c.tgt.stbAdv, wmBeat2 := c.tgt.wmBeat2 }

/-- The byte stored in the sector buffers in this clock, with its position: the word
`data_cnt / 2`, in the even or the odd buffer. -/
def stored (P : Params) (e : ChipEnv) (c : Chip) : Option (Nat × Byte) :=
  if c.tgt.buffer0Wr then some (c.tgt.dataCnt / 2 * 2, c.tgt.macData (c.tgtIn P e))
  else if c.tgt.buffer1Wr then some (c.tgt.dataCnt / 2 * 2 + 1, c.tgt.macData (c.tgtIn P e))
  else none

/-- What the beat `b` of an access with the lines `h` relies on. -/
def Holds (h : HostIn) (c : Chip) : Beat → Prop
  | .rest | .strobeLow | .storeLow => True
  | .ack word _ | .strobe word =>
    h.dmaWord = word ∧ c.ncr.dout = h.highByte ∧ c.ncr.dmaWordLatched = word ∧
      c.ncr.dmaWriteLowByte = h.lowByte
  | .store word =>
    h.dmaWord = word ∧ c.ncr.dout = h.highByte ∧ (word = true → c.tgt.oddByteR = h.lowByte)

/-- The chip at clock `t` is at the beat `b` of an access that ended at clock
`t - b.age`. -/
structure At (host : Nat → HostIn) (t : Nat) (b : Beat) (c : Chip) : Prop where
  pipe : c.pipe = b.pipe
  ended : b ≠ .rest →
    b.age < t ∧ (host (t - b.age - 1)).dmaWr = true ∧ (host (t - b.age)).dmaWr = false
  even : c.tgt.buffer0Wr = (b.stores && c.tgt.dataCnt % 2 == 0)
  odd : c.tgt.buffer1Wr = (b.stores && c.tgt.dataCnt % 2 == 1)
  storeLow : b.stores = true → c.tgt.storeLow = b.storesLow
  holds : Holds (host (t - b.age - 1)) c b

/-- The controller is armed and the target is in its DataOut phase at clock `t`. -/
structure Sending (P : Params) (host : Nat → HostIn) (t : Nat) (c : Chip) : Prop where
  armed : c.ncr.Armed
  latched : c.ncr.Latched host t
  receiving : c.tgt.Receiving P

section

variable {P : Params} {host : Nat → HostIn} {e : ChipEnv} {t : Nat} {c : Chip}

theorem Sending.lines (here : Sending P host t c) :
    (c.lines P e).dout = 0 ∧ (c.lines P e).msg = false ∧ (c.lines P e).cd = false ∧
      (c.lines P e).io = false := by
  have phase := here.receiving.phase
  simp [Chip.lines, Target.bsy, Target.lines, phase]

theorem Sending.step (here : Sending P host t c) (writes : Writes host (t + 1))
    (stays : (c.step P (host t) e).tgt.phase = .dataIn) :
    Sending P host (t + 1) (c.step P (host t) e) where
  armed := here.armed.step (writes.noReg t (by omega))
  latched := here.latched.step here.armed writes
  receiving := here.receiving.step here.armed.noRst stays

/-- Every access that ends starts its train. -/
theorem Sending.startsTrain (here : Sending P host t c) :
    c.ncr.startsTrain (host t) (c.lines P e) =
      (c.ncr.dmaAckHoldoff == 0 && c.ncr.dmaWrFall (host t)) := by
  obtain ⟨-, msg, cd, io⟩ := here.lines (e := e)
  have tcr := here.armed.tcr
  have bits : c.ncr.tcr.getLsbD 2 = false ∧ c.ncr.tcr.getLsbD 1 = false ∧
      c.ncr.tcr.getLsbD 0 = false := by
    have bit : ∀ k < 3, c.ncr.tcr.getLsbD k = false := by
      intro k small
      have same := congrArg (fun v => v.getLsbD k) tcr
      simpa [BitVec.getLsbD_extractLsb', small] using same
    exact ⟨bit 2 (by omega), bit 1 (by omega), bit 0 (by omega)⟩
  have pmatch : c.ncr.bsrPmatch (c.lines P e) = true := by
    rw [Ncr.bsrPmatch, msg, cd, io, bits.1, bits.2.1, bits.2.2]
    rfl
  have noRead : c.ncr.dmaRdFall (host t) = false := by simp [Ncr.dmaRdFall, here.latched.oldRd]
  simp [Ncr.startsTrain, Ncr.ackFall, noRead, here.armed.dmaEn, pmatch]

theorem Sending.ending (here : Sending P host t c) :
    ending host t =
      if c.ncr.dmaWrFall (host t) then some (host (t - 1)).bytes else none := by
  have old := here.latched.old
  cases t with
  | zero => simp [MacIIvi.ending, Ncr.dmaWrFall, old]
  | succ t => simp [MacIIvi.ending, Ncr.dmaWrFall, old]

/-- The pipeline after one clock. -/
theorem Sending.pipe_next (here : Sending P host t c) :
    (c.step P (host t) e).pipe =
      c.pipe.next (c.ncr.dmaWrFall (host t)) c.ncr.dmaWordLatched := by
  have starts := here.startsTrain (e := e)
  have noRead : c.ncr.dmaRdFall (host t) = false := by simp [Ncr.dmaRdFall, here.latched.oldRd]
  have ack : c.ncr.scsiAck = c.ncr.dmaAck := by simp [Ncr.scsiAck, here.armed.noAck]
  simp only [Chip.pipe, Pipe.next, Pipe.mk.injEq, step_ncr, step_tgt, Ncr.step_dmaAck, Ncr.step_dmaAckHoldoff,
    Target.step_oldAck, Target.step_stbAck, Target.step_stbAdv, Target.step_wmBeat2, tgtIn_ack, ack,
    true_and]
  refine ⟨?_, ?_, ?_⟩
  · by_cases held : c.ncr.dmaAckHoldoff = 0 <;> simp [Ncr.dmaAckNext, starts, held]
  · by_cases held : c.ncr.dmaAckHoldoff = 0
    · cases fall : c.ncr.dmaWrFall (host t) <;>
        simp [Ncr.dmaAckHoldoffNext, Ncr.holdoffFirst, starts, held, fall, noRead]
    · simp [Ncr.dmaAckHoldoffNext, held]
  · cases strobe : c.tgt.stbAck <;>
      simp [Target.wmBeat2Next, strobe, here.armed.noRst, here.receiving.phase]

/-- In the first two clocks after an access the strobe is known to be low. -/
theorem At.low_before {b : Beat} (at_ : At host t b c) (writes : Writes host (t + 1))
    (busy : b ≠ .rest) (young : b.age ≤ 2) : (host (t - 1)).dmaWr = false := by
  obtain ⟨older, strobe, ended⟩ := at_.ended busy
  have ages : b.age = 1 ∨ b.age = 2 := by cases b <;> simp [Beat.age] at busy young ⊢
  rcases ages with one | two
  · rwa [one] at ended
  · rw [two] at strobe ended
    have low := writes.apart (t - 2 - 1) (by omega) strobe
      (by rw [show t - 2 - 1 + 1 = t - 2 by omega]; exact ended)
    rwa [show t - 2 - 1 + 2 = t - 1 by omega] at low

/-- No access ends while the acknowledges of the last one are on their way. -/
theorem At.no_fall {b : Beat} (at_ : At host t b c) (here : Sending P host t c)
    (writes : Writes host (t + 1)) (busy : b ≠ .rest) (young : b.age ≤ 3) :
    c.ncr.dmaWrFall (host t) = false := by
  obtain ⟨older, strobe, ended⟩ := at_.ended busy
  have old : c.ncr.oldDmaWr = (host (t - 1)).dmaWr := by
    simpa [show 0 < t by omega] using here.latched.old
  unfold Ncr.dmaWrFall
  rw [old]
  by_cases three : b.age = 3
  · rw [three] at strobe ended older
    have low := writes.apart (t - 3 - 1) (by omega) strobe
      (by rw [show t - 3 - 1 + 1 = t - 3 by omega]; exact ended)
    rw [show t - 3 - 1 + 2 = t - 2 by omega] at low
    cases up : (host (t - 1)).dmaWr with
    | false => rfl
    | true =>
      have held := writes.held (t - 2) (by omega) low
        (by rw [show t - 2 + 1 = t - 1 by omega]; exact up)
      rw [show t - 2 + 2 = t by omega] at held
      rw [held]
      rfl
  · rw [at_.low_before writes busy (by omega), Bool.false_and]

/-- The next beat. -/
theorem At.pipe_next {b : Beat} (at_ : At host t b c) (here : Sending P host t c)
    (writes : Writes host (t + 1)) :
    (c.step P (host t) e).pipe =
      (b.next (c.ncr.dmaWrFall (host t)) c.ncr.dmaWordLatched).pipe := by
  have holds := at_.holds
  rw [here.pipe_next, at_.pipe]
  cases b with
  | rest | strobeLow | storeLow =>
    cases c.ncr.dmaWrFall (host t) <;> cases c.ncr.dmaWordLatched <;> rfl
  | ack word tail =>
    rw [at_.no_fall here writes (by simp) (by simp [Beat.age])]
    cases word <;> simp [Pipe.next, Beat.pipe, Beat.next, Nat.testBit]
  | strobe word =>
    rw [at_.no_fall here writes (by simp) (by simp [Beat.age])]
    obtain ⟨-, -, latch, -⟩ := holds
    rw [latch]
    cases word <;> rfl
  | store word =>
    rw [at_.no_fall here writes (by simp) (by simp [Beat.age])]
    cases word <;> rfl

/-- No new data reaches the bus in the first two clocks after an access. -/
theorem At.dout_next {b : Beat} (at_ : At host t b c) (here : Sending P host t c)
    (writes : Writes host (t + 1)) (busy : b ≠ .rest) (young : b.age ≤ 2) :
    (c.step P (host t) e).ncr.dout = c.ncr.dout := by
  have low := at_.low_before writes busy young
  have pulse : c.ncr.dmaWr = false := by
    by_contra pulse
    obtain ⟨-, high, -⟩ := here.latched.pulse (by simpa using pulse)
    rw [low] at high
    cases high
  simp [Ncr.doutNext, here.armed.noReg, pulse]

/-- Nothing is latched while the strobe is low. -/
theorem latches_next (noRead : (host t).dmaRd = false) (low : (host t).dmaWr = false) :
    (c.step P (host t) e).ncr.dmaWordLatched = c.ncr.dmaWordLatched ∧
      (c.step P (host t) e).ncr.dmaWriteLowByte = c.ncr.dmaWriteLowByte := by
  simp [Ncr.dmaRise, Ncr.dmaRdRise, Ncr.dmaWrRise, noRead, low]

/-- The first beat of an access that ends now. -/
theorem Sending.holds_ack (here : Sending P host t c) (writes : Writes host (t + 1))
    (fall : c.ncr.dmaWrFall (host t) = true) (tail : Bool) :
    Holds (host (t - 1)) (c.step P (host t) e) (.ack c.ncr.dmaWordLatched tail) := by
  obtain ⟨-, -, low, word, odd, high, pulse⟩ := here.latched.ending writes fall
  obtain ⟨sameWord, sameLow⟩ :=
    latches_next (P := P) (e := e) (c := c) (writes.noRead t (by omega)) low
  refine ⟨word.symm, ?_, sameWord, sameLow.trans odd⟩
  simp [Ncr.doutNext, here.armed.noReg, pulse, high]

theorem At.holds_next {b : Beat} (at_ : At host t b c) (here : Sending P host t c)
    (writes : Writes host (t + 1)) :
    Holds (host (t + 1 - (b.next (c.ncr.dmaWrFall (host t)) c.ncr.dmaWordLatched).age - 1))
      (c.step P (host t) e) (b.next (c.ncr.dmaWrFall (host t)) c.ncr.dmaWordLatched) := by
  have holds := at_.holds
  cases b with
  | rest | strobeLow | storeLow =>
    cases fall : c.ncr.dmaWrFall (host t) with
    | false => trivial
    | true =>
      simp only [Beat.next, if_true, Beat.age, Nat.add_sub_cancel]
      exact here.holds_ack writes fall _
  | ack word tail =>
    obtain ⟨older, strobe, ended⟩ := at_.ended (by simp)
    simp only [Beat.age] at older strobe ended
    have low := writes.apart (t - 1 - 1) (by omega) strobe
      (by rw [show t - 1 - 1 + 1 = t - 1 by omega]; exact ended)
    rw [show t - 1 - 1 + 2 = t by omega] at low
    obtain ⟨sameWord, sameLow⟩ :=
      latches_next (P := P) (e := e) (c := c) (writes.noRead t (by omega)) low
    obtain ⟨isWord, high, latch, odd⟩ := holds
    simp only [Beat.next, Beat.age] at *
    exact ⟨isWord, (at_.dout_next here writes (by simp) (by simp [Beat.age])).trans high,
      sameWord.trans latch, sameLow.trans odd⟩
  | strobe word =>
    obtain ⟨isWord, high, latch, odd⟩ := holds
    have pipe := at_.pipe
    simp only [Beat.next, Beat.age] at *
    refine ⟨isWord, (at_.dout_next here writes (by simp) (by simp [Beat.age])).trans high, ?_⟩
    rintro rfl
    have strobe : c.tgt.stbAck = true := congrArg Pipe.stbAck pipe
    have beat : c.tgt.wmBeat2 = false := congrArg Pipe.wmBeat2 pipe
    simp [Target.oddByteRNext, here.armed.noRst, here.receiving.phase, strobe, beat, latch, odd]
  | store word =>
    cases word <;> trivial

theorem At.step {b : Beat} (at_ : At host t b c) (here : Sending P host t c)
    (writes : Writes host (t + 1)) (stays : (c.step P (host t) e).tgt.phase = .dataIn) :
    At host (t + 1) (b.next (c.ncr.dmaWrFall (host t)) c.ncr.dmaWordLatched)
      (c.step P (host t) e) := by
  have phase := here.receiving.phase
  have strobe : c.tgt.stbAck = b.pipe.stbAck := congrArg Pipe.stbAck at_.pipe
  have adv : c.tgt.stbAdv = b.stores :=
    (congrArg Pipe.stbAdv at_.pipe).trans Beat.stbAdv_pipe
  have beat : c.tgt.wmBeat2 = b.pipe.wmBeat2 := congrArg Pipe.wmBeat2 at_.pipe
  have count : c.tgt.stbAck = true → (c.step P (host t) e).tgt.dataCnt = c.tgt.dataCnt := by
    intro strobed
    have still := here.receiving.dataCnt_next here.armed.noRst stays
    rw [adv, Beat.not_stores (strobe.symm.trans strobed)] at still
    exact still
  refine
    { pipe := at_.pipe_next here writes
      ended := ?_, even := ?_, odd := ?_, storeLow := ?_
      holds := at_.holds_next here writes }
  · intro busy
    rcases Beat.next_age busy with ⟨was, older⟩ | ⟨fall, one⟩
    · obtain ⟨below, high, low⟩ := at_.ended was
      rw [older, Nat.add_sub_add_right]
      exact ⟨by omega, high, low⟩
    · obtain ⟨later, high, low, -⟩ := here.latched.ending writes fall
      rw [one, Nat.add_sub_cancel]
      exact ⟨by omega, high, low⟩
  · rw [Beat.next_stores, ← strobe, step_tgt, Target.step_buffer0Wr, phase]
    cases strobed : c.tgt.stbAck with
    | false => rfl
    | true =>
      have still := count strobed
      rw [step_tgt] at still
      rw [still]
      rfl
  · rw [Beat.next_stores, ← strobe, step_tgt, Target.step_buffer1Wr, phase]
    cases strobed : c.tgt.stbAck with
    | false => rfl
    | true =>
      have still := count strobed
      rw [step_tgt] at still
      rw [still]
      rfl
  · intro stores
    rw [Beat.next_storesLow stores, ← strobe, ← beat]
    simp [Target.storeLowNext, here.armed.noRst, phase]

/-- The byte a beat stores. -/
theorem At.stored {b : Beat} (at_ : At host t b c) (here : Sending P host t c) :
    c.stored P e =
      if b.stores then
        some (c.tgt.dataCnt, if b.storesLow then c.tgt.oddByteR else (host (t - b.age - 1)).highByte)
      else none := by
  have value : b.stores = true → c.tgt.macData (c.tgtIn P e) =
      if b.storesLow then c.tgt.oddByteR else (host (t - b.age - 1)).highByte := by
    intro stores
    rw [Target.macData, at_.storeLow stores]
    cases low : b.storesLow with
    | true => rfl
    | false =>
      cases b with
      | store word =>
        obtain ⟨-, high, -⟩ := at_.holds
        have free : c.ncr.dmaAckHoldoff = 0 := congrArg Pipe.holdoff at_.pipe
        simp [Ncr.scsiBusData, (here.lines (e := e)).1, here.armed.outEn, Ncr.dmaWriteData, free,
          high]
      | ack word tail =>
        simp only [Beat.stores, Beat.storesLow] at stores low
        rw [stores] at low
        cases low
      | storeLow => cases low
      | rest | strobe | strobeLow => cases stores
  unfold Chip.stored
  rw [at_.even, at_.odd]
  cases stores : b.stores with
  | false => simp
  | true =>
    rw [← value stores]
    rcases Nat.mod_two_eq_zero_or_one c.tgt.dataCnt with even | odd
    · have position : c.tgt.dataCnt / 2 * 2 = c.tgt.dataCnt := by omega
      simp [even, position]
    · have position : c.tgt.dataCnt / 2 * 2 + 1 = c.tgt.dataCnt := by omega
      simp [odd, position]

/-- What is pending changes by the byte stored and by the access that ends. -/
theorem At.pending_next {b : Beat} (at_ : At host t b c) (here : Sending P host t c)
    (writes : Writes host (t + 1)) :
    b.pending (host (t - b.age - 1)) c.tgt.oddByteR ++ (ending host t).getD [] =
      ((c.stored P e).map Prod.snd).toList ++
        (b.next (c.ncr.dmaWrFall (host t)) c.ncr.dmaWordLatched).pending
          (host (t + 1 - (b.next (c.ncr.dmaWrFall (host t)) c.ncr.dmaWordLatched).age - 1))
          (c.step P (host t) e).tgt.oddByteR := by
  have holds := at_.holds
  have kept : b.pipe.stbAck = false ∨ b.pipe.wmBeat2 = true →
      (c.step P (host t) e).tgt.oddByteR = c.tgt.oddByteR := by
    intro kept
    have strobe : c.tgt.stbAck = b.pipe.stbAck := congrArg Pipe.stbAck at_.pipe
    have beat : c.tgt.wmBeat2 = b.pipe.wmBeat2 := congrArg Pipe.wmBeat2 at_.pipe
    rcases kept with none | second
    · simp [Target.oddByteRNext, here.armed.noRst, strobe, none]
    · simp [Target.oddByteRNext, here.armed.noRst, beat, second]
  rw [at_.stored here, here.ending]
  cases b with
  | rest =>
    cases fall : c.ncr.dmaWrFall (host t) <;>
      simp [Beat.pending, Beat.next, Beat.age, Beat.stores]
  | storeLow =>
    cases fall : c.ncr.dmaWrFall (host t) <;>
      simp [Beat.pending, Beat.next, Beat.age, Beat.stores, Beat.storesLow]
  | strobeLow =>
    rw [kept (.inr rfl)]
    cases fall : c.ncr.dmaWrFall (host t) <;>
      simp [Beat.pending, Beat.next, Beat.age, Beat.stores]
  | ack word tail =>
    rw [at_.no_fall here writes (by simp) (by simp [Beat.age])]
    cases tail <;>
      simp [Beat.pending, Beat.next, Beat.age, Beat.stores, Beat.storesLow]
  | strobe word =>
    rw [at_.no_fall here writes (by simp) (by simp [Beat.age])]
    simp [Beat.pending, Beat.next, Beat.age, Beat.stores]
  | store word =>
    rw [at_.no_fall here writes (by simp) (by simp [Beat.age]), kept (.inl rfl)]
    obtain ⟨isWord, -, odd⟩ := holds
    simp only [Beat.age] at isWord odd
    cases word with
    | false =>
      simp [Beat.pending, Beat.next, Beat.age, Beat.stores, Beat.storesLow, HostIn.bytes, isWord]
    | true =>
      simp [Beat.pending, Beat.next, Beat.age, Beat.stores, Beat.storesLow, HostIn.bytes, isWord,
        odd rfl]

/-- A DataOut phase in which nothing has been sent, and the controller armed for it. -/
structure Begins (P : Params) (c : Chip) : Prop where
  armed : c.ncr.Armed
  noRead : c.ncr.oldDmaRd = false
  noWrite : c.ncr.oldDmaWr = false ∧ c.ncr.dmaWr = false
  receiving : c.tgt.Receiving P
  pipe : c.pipe = Beat.rest.pipe
  noStore : c.tgt.buffer0Wr = false ∧ c.tgt.buffer1Wr = false
  empty : c.tgt.dataCnt = 0

/-- The chip at clock `t`, with what has been sent and stored so far. -/
structure Progress (P : Params) (host : Nat → HostIn) (env : Nat → ChipEnv) (c : Chip) (t : Nat)
    (b : Beat) : Prop where
  sending : Sending P host t (after P host env c t)
  at_ : At host t b (after P host env c t)
  split : sent host t =
    (sent host t).take (after P host env c t).tgt.dataCnt ++
      b.pending (host (t - b.age - 1)) (after P host env c t).tgt.oddByteR
  counted : (after P host env c t).tgt.dataCnt ≤ (sent host t).length
  stored : record (fun u => (after P host env c u).stored P (env u)) 0 t =
    ((sent host t).take (after P host env c t).tgt.dataCnt).mapIdx Prod.mk

variable {env : Nat → ChipEnv}

theorem Begins.progress (begins : Begins P c) : Progress P host env c 0 .rest where
  sending :=
    { armed := begins.armed
      latched :=
        { oldRd := begins.noRead
          old := by simpa [after] using begins.noWrite.1
          pulse := fun pulse => by
            rw [after, begins.noWrite.2] at pulse
            cases pulse
          word := fun old => by
            rw [after, begins.noWrite.1] at old
            cases old
          low := fun old => by
            rw [after, begins.noWrite.1] at old
            cases old
          high := fun old => by
            rw [after, begins.noWrite.1] at old
            cases old }
      receiving := begins.receiving }
  at_ :=
    { pipe := begins.pipe
      ended := fun busy => absurd rfl busy
      even := by simpa [after, Beat.stores] using begins.noStore.1
      odd := by simpa [after, Beat.stores] using begins.noStore.2
      storeLow := fun stores => by cases stores
      holds := trivial }
  split := by simp [Beat.pending]
  counted := by simp [after, begins.empty]
  stored := by simp

/-- The byte stored in a clock is the next one of the stream. -/
theorem Progress.taken {b : Beat} (here : Progress P host env c t b)
    (writes : Writes host (t + 1)) :
    sent host (t + 1) =
      (sent host t).take (after P host env c t).tgt.dataCnt ++
        (((after P host env c t).stored P (env t)).map Prod.snd).toList ++
          (b.next ((after P host env c t).ncr.dmaWrFall (host t))
            (after P host env c t).ncr.dmaWordLatched).pending
              (host (t + 1 - (b.next ((after P host env c t).ncr.dmaWrFall (host t))
                (after P host env c t).ncr.dmaWordLatched).age - 1))
              (after P host env c (t + 1)).tgt.oddByteR := by
  rw [sent_succ]
  conv_lhs => rw [here.split]
  rw [List.append_assoc, here.at_.pending_next here.sending writes (e := env t),
    List.append_assoc, after]

/-- What has been counted after a clock. -/
theorem Progress.front {b : Beat} (here : Progress P host env c t b)
    (writes : Writes host (t + 1)) (stays : (after P host env c (t + 1)).tgt.phase = .dataIn) :
    (sent host (t + 1)).take (after P host env c (t + 1)).tgt.dataCnt =
      (sent host t).take (after P host env c t).tgt.dataCnt ++
        (((after P host env c t).stored P (env t)).map Prod.snd).toList := by
  have count : (after P host env c (t + 1)).tgt.dataCnt =
      (after P host env c t).tgt.dataCnt + (after P host env c t).tgt.stbAdv.toNat :=
    here.sending.receiving.dataCnt_next here.sending.armed.noRst stays
  have adv : (after P host env c t).tgt.stbAdv = b.stores :=
    (congrArg Pipe.stbAdv here.at_.pipe).trans Beat.stbAdv_pipe
  rw [here.taken writes, count, adv]
  refine List.take_left' ?_
  rw [List.length_append, List.length_take, Nat.min_eq_left here.counted,
    here.at_.stored here.sending]
  cases b.stores <;> simp

/-- One clock. -/
theorem Progress.step {b : Beat} (here : Progress P host env c t b) (writes : Writes host (t + 1))
    (stays : (after P host env c (t + 1)).tgt.phase = .dataIn) :
    Progress P host env c (t + 1)
      (b.next ((after P host env c t).ncr.dmaWrFall (host t))
        (after P host env c t).ncr.dmaWordLatched) := by
  have front := here.front writes stays
  have value := here.at_.stored here.sending (e := env t)
  have counted := here.counted
  refine
    { sending := here.sending.step writes stays
      at_ := here.at_.step here.sending writes stays
      split := by rw [front, ← here.taken writes]
      counted := ?_, stored := ?_ }
  · have count : (after P host env c (t + 1)).tgt.dataCnt =
        (after P host env c t).tgt.dataCnt + (after P host env c t).tgt.stbAdv.toNat :=
      here.sending.receiving.dataCnt_next here.sending.armed.noRst stays
    have adv : (after P host env c t).tgt.stbAdv = b.stores :=
      (congrArg Pipe.stbAdv here.at_.pipe).trans Beat.stbAdv_pipe
    have len := congrArg List.length front
    have one : (((after P host env c t).stored P (env t)).map Prod.snd).toList.length =
        b.stores.toNat := by
      rw [value]
      cases b.stores <;> simp
    rw [List.length_take, List.length_append, List.length_take, Nat.min_eq_left counted] at len
    rw [adv] at count
    omega
  · rw [record_succ (Nat.zero_le t), here.stored, front, value]
    cases b.stores with
    | false => simp
    | true => simp [List.mapIdx_append, Nat.min_eq_left counted]

theorem Begins.progress_at (begins : Begins P c)
    (phase : ∀ u ≤ t, (after P host env c u).tgt.phase = .dataIn) (writes : Writes host t) :
    ∃ b, Progress P host env c t b := by
  induction t with
  | zero => exact ⟨_, begins.progress⟩
  | succ t ih =>
    obtain ⟨b, here⟩ := ih (fun u h => phase u (by omega)) (writes.earlier (by omega))
    exact ⟨_, here.step writes (phase (t + 1) (Nat.le_refl _))⟩

/-- All bytes sent are counted, strobed, acknowledged or held for a second beat. -/
theorem Progress.length {b : Beat} (here : Progress P host env c t b) :
    (sent host t).length =
      (after P host env c t).tgt.dataCnt + b.pipe.stbAdv.toNat + b.pipe.stbAck.toNat +
        b.pipe.dmaAck.toNat + (b.pipe.holdoff != 0).toNat := by
  have holds := here.at_.holds
  have counted := here.counted
  have len := congrArg List.length here.split
  rw [List.length_append, List.length_take, Nat.min_eq_left counted] at len
  rw [len]
  cases b with
  | rest | strobeLow | storeLow => simp [Beat.pending, Beat.pipe]
  | ack word tail =>
    obtain ⟨isWord, -⟩ := holds
    cases word <;> cases tail <;> simp [Beat.pending, Beat.pipe, HostIn.bytes, isWord]
  | strobe word =>
    obtain ⟨isWord, -⟩ := holds
    cases word <;> simp [Beat.pending, Beat.pipe, HostIn.bytes, isWord]
  | store word =>
    obtain ⟨isWord, -⟩ := holds
    cases word <;> simp [Beat.pending, Beat.pipe, HostIn.bytes, isWord]

/-- How the pipeline moves in one clock. -/
theorem Progress.flow {b : Beat} (here : Progress P host env c t b) (writes : Writes host (t + 1))
    (stays : (after P host env c (t + 1)).tgt.phase = .dataIn) :
    ∃ b', Progress P host env c (t + 1) b' ∧
      (after P host env c (t + 1)).tgt.dataCnt =
        (after P host env c t).tgt.dataCnt + b.pipe.stbAdv.toNat ∧
      b'.pipe.stbAdv = b.pipe.stbAck ∧ b'.pipe.stbAck = b.pipe.dmaAck ∧
      (b.pipe.holdoff = 0 ∨ (b.pipe.holdoff = 1 ∧ b'.pipe.dmaAck = true) ∨
        (b.pipe.holdoff = 2 ∧ b'.pipe.holdoff = 1)) := by
  have next := here.step writes stays
  have moved := (next.at_.pipe.symm.trans here.sending.pipe_next).trans
    (congrArg (Pipe.next _ _) here.at_.pipe)
  have adv : (after P host env c t).tgt.stbAdv = b.pipe.stbAdv :=
    congrArg Pipe.stbAdv here.at_.pipe
  have count : (after P host env c (t + 1)).tgt.dataCnt =
      (after P host env c t).tgt.dataCnt + (after P host env c t).tgt.stbAdv.toNat :=
    here.sending.receiving.dataCnt_next here.sending.armed.noRst stays
  refine ⟨_, next, by rw [count, adv], ?_⟩
  rw [moved]
  exact ⟨Beat.next_strobe.2, Beat.next_strobe.1, Beat.next_second⟩

/-- A byte is stored and counted within five clocks after the end of its access. -/
theorem Begins.counted (begins : Begins P c)
    (phase : ∀ u ≤ t + 5, (after P host env c u).tgt.phase = .dataIn)
    (writes : Writes host (t + 5)) :
    (sent host t).length ≤ (after P host env c (t + 5)).tgt.dataCnt := by
  obtain ⟨b₀, h₀⟩ :=
    begins.progress_at (fun u h => phase u (by omega)) (writes.earlier (t := t) (by omega))
  obtain ⟨b₁, h₁, n₁, a₁, s₁, k₁⟩ := h₀.flow (writes.earlier (by omega)) (phase _ (by omega))
  obtain ⟨b₂, h₂, n₂, a₂, s₂, k₂⟩ := h₁.flow (writes.earlier (by omega)) (phase _ (by omega))
  obtain ⟨b₃, h₃, n₃, a₃, s₃, -⟩ := h₂.flow (writes.earlier (by omega)) (phase _ (by omega))
  obtain ⟨b₄, h₄, n₄, a₄, s₄, -⟩ := h₃.flow (writes.earlier (by omega)) (phase _ (by omega))
  obtain ⟨b₅, h₅, n₅, -⟩ := h₄.flow (writes.earlier (by omega)) (phase _ (by omega))
  have len := h₀.length
  -- the acknowledges given up to two clocks later
  have second : b₀.pipe.dmaAck.toNat + (b₀.pipe.holdoff != 0).toNat ≤
      b₀.pipe.dmaAck.toNat + b₁.pipe.dmaAck.toNat + b₂.pipe.dmaAck.toNat := by
    rcases k₁ with none | ⟨one, ack⟩ | ⟨two, one⟩
    · simp only [none, bne_self_eq_false, Bool.toNat_false]
      omega
    · simp [one, ack]
    · rcases k₂ with none | ⟨-, ack⟩ | ⟨two', -⟩
      · omega
      · simp [two, ack]
      · omega
  rw [a₄, s₃] at n₅
  rw [a₃, s₂] at n₄
  rw [a₂, s₁] at n₃
  rw [a₁] at n₂
  have last : after P host env c (t + 5) = after P host env c (t + 1 + 1 + 1 + 1 + 1) := rfl
  rw [last]
  omega

/-- **Beat roles.** In a DataOut phase the bytes of the write accesses are stored one by
one, each at its own position of the stream; none takes more than five clocks, and all
are stored when the phase is complete. -/
theorem stores_stream (begins : Begins P c)
    (phase : ∀ u ≤ t, (after P host env c u).tgt.phase = .dataIn) (writes : Writes host t) :
    record (fun u => (after P host env c u).stored P (env u)) 0 t =
        ((sent host t).take (after P host env c t).tgt.dataCnt).mapIdx Prod.mk ∧
      (∀ u, u + 5 ≤ t → (sent host u).length ≤ (after P host env c t).tgt.dataCnt) ∧
      ((after P host env c t).tgt.dataComplete = true →
        (after P host env c t).tgt.dataCnt = Target.dataLen P (after P host env c t).tgt) := by
  obtain ⟨b, here⟩ := begins.progress_at phase writes
  refine ⟨here.stored, fun u before => ?_, here.sending.receiving.full⟩
  have soon := begins.counted (t := u) (fun v h => phase v (by omega)) (writes.earlier before)
  have grows : ∀ v, u + 5 ≤ v → v ≤ t →
      (after P host env c (u + 5)).tgt.dataCnt ≤ (after P host env c v).tgt.dataCnt := by
    intro v from_ upto
    induction v, from_ using Nat.le_induction with
    | base => exact Nat.le_refl _
    | succ v from_ ih =>
      obtain ⟨b', then_⟩ :=
        begins.progress_at (fun w h => phase w (by omega)) (writes.earlier (t := v) (by omega))
      obtain ⟨-, -, more, -⟩ := then_.flow (writes.earlier (by omega)) (phase _ upto)
      have before := ih (by omega)
      omega
  exact soon.trans (grows t before (Nat.le_refl _))

end

/-! ### A byte, then words -/

/-- The second disk with a command sent to it and pseudo-DMA started. -/
def writing (cdb : List Byte) : Chip :=
  after .disk1 (Driver.host (Driver.command 1 cdb ++ Driver.start 0x00 5))
    (fun t => { slot := { imgMounted := t == 0, imgBlocks := 100 } })
    { tgt := Target.powerUp .disk1 } 96

/-- One byte, two words and one byte. -/
def mixed : Nat → HostIn :=
  Driver.host (Driver.dmaWriteByte 0xa1 ++ Driver.dmaWriteWord 0xb2 0xc3 ++
    Driver.dmaWriteWord 0xd4 0xe5 ++ Driver.dmaWriteByte 0xf6)

theorem begins_writing : Begins .disk1 (writing [0x0a, 0, 0, 0, 1, 0]) where
  armed := by constructor <;> decide +kernel
  noRead := by decide +kernel
  noWrite := by decide +kernel
  receiving := by constructor <;> decide +kernel
  pipe := by decide +kernel
  noStore := by decide +kernel
  empty := by decide +kernel

theorem writes_mixed : Writes mixed 20 := by
  have all : ∀ u < 20, (mixed u).dmaRd = false ∧ (mixed u).regWr = false ∧
      ((mixed u).dmaWr = true → (mixed (u + 1)).dmaWr = true →
        (mixed (u + 1)).wdata = (mixed u).wdata ∧ (mixed (u + 1)).dmaWord = (mixed u).dmaWord) ∧
      ((mixed u).dmaWr = false → (mixed (u + 1)).dmaWr = true → (mixed (u + 2)).dmaWr = true) ∧
      ((mixed u).dmaWr = true → (mixed (u + 1)).dmaWr = false → (mixed (u + 2)).dmaWr = false) := by
    decide +kernel
  exact
    { noRead := fun u below => (all u below).1
      noReg := fun u below => (all u below).2.1
      steady := fun u below => (all u (by omega)).2.2.1
      first := by decide +kernel
      held := fun u below => (all u (by omega)).2.2.2.1
      apart := fun u below => (all u (by omega)).2.2.2.2 }

theorem stores_stream_mixed :
    record (fun u => (after .disk1 mixed (fun _ => {}) (writing [0x0a, 0, 0, 0, 1, 0]) u).stored
        .disk1 {}) 0 20 =
      [(0, 0xa1), (1, 0xb2), (2, 0xc3), (3, 0xd4), (4, 0xe5), (5, 0xf6)] := by
  have phase : ∀ u ≤ 20,
      (after .disk1 mixed (fun _ => {}) (writing [0x0a, 0, 0, 0, 1, 0]) u).tgt.phase = .dataIn := by
    decide +kernel
  have run := (stores_stream begins_writing phase writes_mixed).1
  rw [run]
  decide +kernel

end Chip

end MacIIvi
