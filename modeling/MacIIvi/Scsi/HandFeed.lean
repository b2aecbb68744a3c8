import Mathlib.Data.List.Basic
import MacIIvi.Scsi.BeatRoles

/-!
# Bytes handed over one by one

Without pseudo-DMA the driver puts a byte into the output data register and raises
ACK in the initiator command register. The target strobes the byte one clock after
the rise and stores it in the next one. For the role of a beat it asks
`dma_word_latched`, the width of the last DACK access, however long ago that was:
after a word access it takes the bytes handed over for words, and stores the
low byte of that old access at every odd offset.
-/

namespace MacIIvi

open Clocked

/-- The host writes registers only, up to the clock before `t`. A write lasts two
clocks at least, and those of the initiator command register keep the data bus driven
and RST low. -/
structure Hands (host : Nat → HostIn) (t : Nat) : Prop where
  noRead : ∀ u < t, (host u).dmaRd = false
  noWrite : ∀ u < t, (host u).dmaWr = false
  first : 1 < t → (host 0).regWr = true → (host 1).regWr = true
  held : ∀ u, u + 2 < t → (host u).regWr = false → (host (u + 1)).regWr = true →
    (host (u + 2)).regWr = true
  driven : ∀ u < t, (host u).regWr = true → (host u).rs = 1 →
    (host u).lowByte.getLsbD 0 = true ∧ (host u).lowByte.getLsbD 7 = false

theorem Hands.earlier {host : Nat → HostIn} {t t' : Nat} (hands : Hands host t') (h : t ≤ t') :
    Hands host t where
  noRead u below := hands.noRead u (by omega)
  noWrite u below := hands.noWrite u (by omega)
  first below := hands.first (by omega)
  held u below := hands.held u (by omega)
  driven u below := hands.driven u (by omega)

/-- What is stored of bytes handed over while the last DACK access was a word with the
low byte `low`, if `word` says so. -/
def asStored (word : Bool) (low : Byte) (xs : List Byte) : List Byte :=
  xs.mapIdx fun n b => if word && n % 2 == 1 then low else b

section

variable {word : Bool} {low b : Byte} {xs : List Byte} {n : Nat}

@[simp] theorem asStored_nil : asStored word low [] = [] := rfl

@[simp] theorem length_asStored : (asStored word low xs).length = xs.length := by simp [asStored]

@[simp] theorem asStored_false : asStored false low xs = xs := by
  simp [asStored, List.mapIdx_eq_iff]

theorem asStored_append : asStored word low (xs ++ [b]) =
    asStored word low xs ++ [if word && xs.length % 2 == 1 then low else b] := by
  simp [asStored, List.mapIdx_append]

/-- The byte after the first `n`. -/
theorem take_asStored (here : xs[n]? = some b) : (asStored word low xs).take (n + 1) =
    (asStored word low xs).take n ++ [if word && n % 2 == 1 then low else b] := by
  rw [List.take_add_one, asStored, List.getElem?_mapIdx, here]
  rfl

end

namespace Ncr

/-- The controller at clock `t` of such a phase: no DACK access since the one that left
`word` and `low` in the latches. -/
structure Manual (host : Nat → HostIn) (word : Bool) (low : Byte) (t : Nat) (n : Ncr) : Prop where
  oldRd : n.oldDmaRd = false
  oldWr : n.oldDmaWr = false
  noWrite : n.dmaWr = false
  noAck : n.dmaAck = false
  noTrain : n.dmaAckHoldoff = 0
  driven : n.icrData = true
  noRst : n.icrRst = false
  old : n.oldRegWr = (decide (0 < t) && (host (t - 1)).regWr)
  pulse : n.regWr = true → 0 < t ∧ (host (t - 1)).regWr = true ∧
    (1 < t → (host (t - 2)).regWr = false)
  word : n.dmaWordLatched = word
  low : n.dmaWriteLowByte = low

variable {host : Nat → HostIn} {word : Bool} {low : Byte} {t : Nat} {l : BusLines} {n : Ncr}

/-- The access behind a register write pulse lasts one clock more at least. -/
theorem Manual.access (manual : n.Manual host word low t) (hands : Hands host (t + 1))
    (pulse : n.regWr = true) : n.oldRegWr = true ∧ (host t).regWr = true := by
  obtain ⟨later, strobe, before⟩ := manual.pulse pulse
  refine ⟨by rw [manual.old, strobe]; simpa using later, ?_⟩
  by_cases more : 1 < t
  · have held := hands.held (t - 2) (by omega) (before more)
      (by rw [show t - 2 + 1 = t - 1 by omega]; exact strobe)
    rwa [show t - 2 + 2 = t by omega] at held
  · have here : t = 1 := by omega
    subst here
    exact hands.first (by omega) strobe

theorem Manual.noStart (manual : n.Manual host word low t) :
    n.startsTrain (host t) l = false := by
  simp [startsTrain, ackFall, dmaWrFall, dmaRdFall, manual.oldRd, manual.oldWr]

theorem Manual.step (manual : n.Manual host word low t) (hands : Hands host (t + 1)) :
    (n.step (host t) l).Manual host word low (t + 1) := by
  have noRead := hands.noRead t (by omega)
  have noWrite := hands.noWrite t (by omega)
  have noStart := manual.noStart (l := l)
  have old := manual.old
  have bits : (n.icrNext (host t)).getLsbD 0 = true ∧ (n.icrNext (host t)).getLsbD 7 = false := by
    cases writes : n.regWr && (host t).rs == 1 with
    | false =>
      rw [icrNext_bit writes (by decide), icrNext_bit writes (by decide)]
      exact ⟨manual.driven, manual.noRst⟩
    | true =>
      simp only [Bool.and_eq_true, beq_iff_eq] at writes
      have bus := hands.driven t (by omega) (manual.access hands writes.1).2 writes.2
      simpa [icrNext, writes] using bus
  refine
    { oldRd := noRead
      oldWr := noWrite
      noWrite := by simp [dmaWrRise, noWrite]
      noAck := by simp [dmaAckNext, manual.noTrain, noStart]
      noTrain := by simp [dmaAckHoldoffNext, manual.noTrain, noStart]
      driven := bits.1
      noRst := bits.2
      old := by simp [Ncr.step]
      pulse := fun rise => ?_
      word := by simp [dmaRise, dmaWrRise, dmaRdRise, noRead, noWrite, manual.word]
      low := by simp [dmaWrRise, noWrite, manual.low] }
  simp only [step_regWr, Bool.and_eq_true, Bool.not_eq_true'] at rise
  refine ⟨by omega, rise.2, fun more => ?_⟩
  rw [rise.1] at old
  simpa [show 0 < t by omega] using old.symm

/-- ACK moves by a register write only. -/
theorem icrAck_still (quiet : n.regWr = false) : (n.step (host t) l).icrAck = n.icrAck := by
  rw [icrAck, step_icr, icrNext_bit (by simp [quiet]) (by decide)]
  rfl

/-- So does the output data register. -/
theorem Manual.dout_still (manual : n.Manual host word low t) (quiet : n.regWr = false) :
    (n.step (host t) l).dout = n.dout := by
  simp [doutNext, quiet, manual.noWrite]

end Ncr

/-! ### The byte under way -/

/-- Where the byte under way is: ACK has risen (`rise`), the byte is strobed and stored
while ACK is up, and counted two clocks after its fall. -/
inductive Hand where
  | rest | rise | strobe | store | hold | fall | done

namespace Hand

def ack : Hand → Bool
  | rise | strobe | store | hold => true
  | _ => false

def oldAck : Hand → Bool
  | strobe | store | hold | fall => true
  | _ => false

def stbAck : Hand → Bool
  | strobe => true
  | _ => false

def stbAdv : Hand → Bool
  | done => true
  | _ => false

/-- The byte is stored in this clock. -/
def stores : Hand → Bool
  | store => true
  | _ => false

/-- A byte has been handed over and is not counted yet. -/
def pending : Hand → Bool
  | rest | rise => false
  | _ => true

/-- A byte has been strobed and is not counted yet. -/
def strobed : Hand → Bool
  | rest | rise | strobe => false
  | _ => true

/-- A byte has been stored and is not counted yet. -/
def taken : Hand → Bool
  | hold | fall | done => true
  | _ => false

/-- The next place; `up` is ACK in the next clock. -/
def next (up : Bool) : Hand → Hand
  | rest => if up then rise else rest
  | rise => strobe
  | strobe => store
  | store | hold => if up then hold else fall
  | fall => done
  | done => rest

/-- ACK has just been moved by the pulse of a register write, or the write after it is
not yet possible. -/
def Quiet (n : Ncr) : Hand → Prop
  | rise | fall => n.regWr = false ∧ n.oldRegWr = true
  | strobe | done => n.regWr = false
  | _ => True

section

variable (up : Bool) (h : Hand)

/-- The target sees ACK one clock later, and its edges after two. -/
theorem next_pipe : (h.next up).oldAck = h.ack ∧ (h.next up).stbAck = (!h.oldAck && h.ack) ∧
    (h.next up).stbAdv = (h.oldAck && !h.ack) ∧ (h.next up).stores = h.stbAck := by
  cases h <;> cases up <;> decide

/-- A byte counted is no longer handed over, strobed or stored beyond the count. -/
theorem next_counts :
    (h.next up).pending.toNat + h.stbAdv.toNat = h.pending.toNat + (h.ack && !h.oldAck).toNat ∧
    (h.next up).strobed.toNat + h.stbAdv.toNat = h.strobed.toNat + h.stbAck.toNat ∧
    (h.next up).taken.toNat + h.stbAdv.toNat = h.taken.toNat + h.stores.toNat := by
  cases h <;> cases up <;> decide

variable {up h}

theorem next_eq_strobe (next : h.next up = strobe) : h = rise := by
  cases h <;> cases up <;> first | rfl | cases next

theorem next_eq_store (next : h.next up = store) : h = strobe := by
  cases h <;> cases up <;> first | rfl | cases next

end

/-- Two clocks at least lie between two changes of ACK, so that no place is left out. -/
theorem next_ack {host : Nat → HostIn} {word : Bool} {low : Byte} {t : Nat} {l : BusLines}
    {n : Ncr} {h : Hand} (manual : n.Manual host word low t) (hands : Hands host (t + 1))
    (ack : n.icrAck = h.ack) (quiet : h.Quiet n) :
    (n.step (host t) l).icrAck = (h.next (n.step (host t) l).icrAck).ack ∧
      (h.next (n.step (host t) l).icrAck).Quiet (n.step (host t) l) := by
  have moved : (n.step (host t) l).icrAck ≠ n.icrAck →
      (n.step (host t) l).regWr = false ∧ (n.step (host t) l).oldRegWr = true := by
    intro moved
    have pulse : n.regWr = true := by
      by_contra none
      exact moved (Ncr.icrAck_still (by simpa using none))
    obtain ⟨old, strobe⟩ := manual.access hands pulse
    exact ⟨by simp [old], strobe⟩
  cases h with
  | rest =>
    cases up : (n.step (host t) l).icrAck with
    | false => exact ⟨rfl, trivial⟩
    | true => exact ⟨rfl, moved (by rw [up, ack]; decide)⟩
  | store | hold =>
    cases up : (n.step (host t) l).icrAck with
    | false => exact ⟨rfl, moved (by rw [up, ack]; decide)⟩
    | true => exact ⟨rfl, trivial⟩
  | rise | fall =>
    obtain ⟨noPulse, old⟩ := quiet
    rw [Ncr.icrAck_still noPulse, ack]
    exact ⟨rfl, by simp [Quiet, next, old]⟩
  | strobe | done =>
    rw [Ncr.icrAck_still quiet, ack]
    exact ⟨rfl, trivial⟩

end Hand

namespace Chip

/-- The byte handed over in this clock: the output data register when ACK rises. -/
def handing (c : Chip) : Option Byte :=
  if c.ncr.scsiAck && !c.tgt.oldAck then some c.ncr.dout else none

/-- The bytes handed over before clock `t`. -/
def handed (P : Params) (host : Nat → HostIn) (env : Nat → ChipEnv) (c : Chip) (t : Nat) :
    List Byte :=
  record (fun u => (after P host env c u).handing) 0 t

/-- The chip at clock `t`, with a byte at place `h`. -/
structure HandAt (P : Params) (host : Nat → HostIn) (word : Bool) (low : Byte) (t : Nat) (h : Hand)
    (c : Chip) : Prop where
  manual : c.ncr.Manual host word low t
  receiving : c.tgt.Receiving P
  ack : c.ncr.icrAck = h.ack
  quiet : h.Quiet c.ncr
  oldAck : c.tgt.oldAck = h.oldAck
  stbAck : c.tgt.stbAck = h.stbAck
  stbAdv : c.tgt.stbAdv = h.stbAdv
  even : c.tgt.buffer0Wr = (h.stores && c.tgt.dataCnt % 2 == 0)
  odd : c.tgt.buffer1Wr = (h.stores && c.tgt.dataCnt % 2 == 1)
  beat : c.tgt.wmBeat2 = (word && (c.tgt.dataCnt + h.strobed.toNat) % 2 == 1)
  storeLow : h.stores = true → c.tgt.storeLow = (word && c.tgt.dataCnt % 2 == 1)
  oddByte : word = true → 0 < c.tgt.dataCnt + h.strobed.toNat → c.tgt.oddByteR = low

/-- A DataOut phase in which nothing has been sent, ACK low and the data bus driven. -/
structure Offers (P : Params) (c : Chip) : Prop where
  noRead : c.ncr.oldDmaRd = false
  noWrite : c.ncr.oldDmaWr = false ∧ c.ncr.dmaWr = false
  noDmaAck : c.ncr.dmaAck = false ∧ c.ncr.dmaAckHoldoff = 0
  noReg : c.ncr.oldRegWr = false ∧ c.ncr.regWr = false
  driven : c.ncr.icrData = true
  noRst : c.ncr.icrRst = false
  noAck : c.ncr.icrAck = false
  receiving : c.tgt.Receiving P
  pipe : c.tgt.oldAck = false ∧ c.tgt.stbAck = false ∧ c.tgt.stbAdv = false ∧
    c.tgt.wmBeat2 = false
  noStore : c.tgt.buffer0Wr = false ∧ c.tgt.buffer1Wr = false
  empty : c.tgt.dataCnt = 0

section

variable {P : Params} {host : Nat → HostIn} {env : Nat → ChipEnv} {e : ChipEnv} {word : Bool}
  {low : Byte} {t : Nat} {c : Chip} {h : Hand}

theorem HandAt.scsiAck (at_ : HandAt P host word low t h c) : c.ncr.scsiAck = h.ack := by
  simp [Ncr.scsiAck, at_.ack, at_.manual.noAck]

theorem HandAt.dataCnt_next (at_ : HandAt P host word low t h c)
    (stays : (c.step P (host t) e).tgt.phase = .dataIn) :
    (c.step P (host t) e).tgt.dataCnt = c.tgt.dataCnt + h.stbAdv.toNat := by
  rw [← at_.stbAdv]
  exact at_.receiving.dataCnt_next at_.manual.noRst stays

theorem HandAt.step (at_ : HandAt P host word low t h c) (hands : Hands host (t + 1))
    (stays : (c.step P (host t) e).tgt.phase = .dataIn) :
    HandAt P host word low (t + 1) (h.next (c.step P (host t) e).ncr.icrAck)
      (c.step P (host t) e) := by
  have phase := at_.receiving.phase
  have rst : c.ncr.icrRst = false := at_.manual.noRst
  have count := at_.dataCnt_next stays
  obtain ⟨ack, quiet⟩ := Hand.next_ack at_.manual hands at_.ack at_.quiet (l := c.lines P e)
  obtain ⟨oldAck, stbAck, stbAdv, stores⟩ :=
    Hand.next_pipe (c.step P (host t) e).ncr.icrAck h
  obtain ⟨-, strobed, -⟩ :=
    Hand.next_counts (c.step P (host t) e).ncr.icrAck h
  -- a byte is not strobed in the clock in which another one is counted
  have fixed : h.stbAck = true → (c.step P (host t) e).tgt.dataCnt = c.tgt.dataCnt := by
    intro strobe
    rw [count]
    cases h <;> first | rfl | cases strobe
  have first : h.stbAck = true → h.strobed = false := by
    intro strobe
    cases h <;> first | rfl | cases strobe
  have position : (c.step P (host t) e).tgt.dataCnt +
      (h.next (c.step P (host t) e).ncr.icrAck).strobed.toNat =
        c.tgt.dataCnt + h.strobed.toNat + h.stbAck.toNat := by omega
  refine
    { manual := at_.manual.step hands
      receiving := at_.receiving.step rst stays
      ack := ack, quiet := quiet
      oldAck := by rw [oldAck, ← at_.scsiAck]; rfl
      stbAck := by rw [stbAck, ← at_.scsiAck, ← at_.oldAck]; rfl
      stbAdv := by rw [stbAdv, ← at_.scsiAck, ← at_.oldAck]; rfl
      even := ?_, odd := ?_, beat := ?_, storeLow := fun stored => ?_, oddByte := fun w some_ => ?_ }
  · rw [stores, step_tgt, Target.step_buffer0Wr, phase, at_.stbAck]
    cases strobe : h.stbAck with
    | false => rfl
    | true =>
      have still := fixed strobe
      rw [step_tgt] at still
      rw [still]
      rfl
  · rw [stores, step_tgt, Target.step_buffer1Wr, phase, at_.stbAck]
    cases strobe : h.stbAck with
    | false => rfl
    | true =>
      have still := fixed strobe
      rw [step_tgt] at still
      rw [still]
      rfl
  · rw [position, step_tgt, Target.step_wmBeat2, Target.wmBeat2Next, at_.stbAck, at_.beat,
      tgtIn_dmaWord, at_.manual.word]
    cases strobe : h.stbAck with
    | false => simp [rst, phase]
    | true =>
      rcases Nat.mod_two_eq_zero_or_one (c.tgt.dataCnt + h.strobed.toNat) with even | odd
      · simp [rst, phase, even, Nat.add_mod]
      · simp [rst, phase, odd, Nat.add_mod]
  · rw [stores] at stored
    rw [fixed stored, step_tgt, Target.step_storeLow, Target.storeLowNext, at_.stbAck, stored,
      at_.beat, first stored]
    simp [rst, phase]
  · rw [position] at some_
    rw [step_tgt, Target.step_oddByteR, Target.oddByteRNext, at_.stbAck, at_.beat, tgtIn_dmaWord,
      at_.manual.word, tgtIn_dmaLowByte, at_.manual.low]
    subst w
    cases strobe : h.stbAck with
    | false =>
      rw [strobe] at some_
      simpa [rst] using at_.oddByte rfl (by simpa using some_)
    | true =>
      rcases Nat.mod_two_eq_zero_or_one (c.tgt.dataCnt + h.strobed.toNat) with even | odd
      · simp [rst, phase, even]
      · simpa [rst, odd] using at_.oddByte rfl (by omega)

/-- The byte stored. -/
theorem HandAt.stored (at_ : HandAt P host word low t h c) :
    c.stored P e =
      if h.stores then
        some (c.tgt.dataCnt, if word && c.tgt.dataCnt % 2 == 1 then low else c.ncr.dout)
      else none := by
  have bus : (c.lines P e).dout = 0 := by
    simp [Chip.lines, Target.bsy, Target.lines, at_.receiving.phase]
  have value : h.stores = true → c.tgt.macData (c.tgtIn P e) =
      if word && c.tgt.dataCnt % 2 == 1 then low else c.ncr.dout := by
    intro stores
    rw [Target.macData, at_.storeLow stores]
    cases second : word && c.tgt.dataCnt % 2 == 1 with
    | true =>
      simp only [Bool.and_eq_true, beq_iff_eq] at second
      rw [if_pos rfl, if_pos rfl]
      exact at_.oddByte second.1 (by omega)
    | false =>
      simp [Ncr.scsiBusData, Ncr.outEn, Ncr.dmaWriteData, bus, at_.manual.driven,
        at_.manual.noTrain]
  unfold Chip.stored
  rw [at_.even, at_.odd]
  cases stores : h.stores with
  | false => simp
  | true =>
    rw [← value stores]
    rcases Nat.mod_two_eq_zero_or_one c.tgt.dataCnt with even | odd
    · have position : c.tgt.dataCnt / 2 * 2 = c.tgt.dataCnt := by omega
      simp [even, position]
    · have position : c.tgt.dataCnt / 2 * 2 + 1 = c.tgt.dataCnt := by omega
      simp [odd, position]

/-- The chip at clock `t`, with what has been handed over and stored so far. -/
structure Handing (P : Params) (host : Nat → HostIn) (env : Nat → ChipEnv) (c : Chip) (t : Nat)
    (h : Hand) : Prop where
  at_ : HandAt P host c.ncr.dmaWordLatched c.ncr.dmaWriteLowByte t h (after P host env c t)
  counted : (handed P host env c t).length =
    (after P host env c t).tgt.dataCnt + h.pending.toNat
  last : h = .strobe ∨ h = .store →
    (handed P host env c t)[(after P host env c t).tgt.dataCnt]? =
      some (after P host env c t).ncr.dout
  stored : record (fun u => (after P host env c u).stored P (env u)) 0 t =
    ((asStored c.ncr.dmaWordLatched c.ncr.dmaWriteLowByte (handed P host env c t)).take
      ((after P host env c t).tgt.dataCnt + h.taken.toNat)).mapIdx Prod.mk

theorem Offers.handing (offers : Offers P c) : Handing P host env c 0 .rest where
  at_ :=
    { manual :=
        { oldRd := offers.noRead
          oldWr := offers.noWrite.1
          noWrite := offers.noWrite.2
          noAck := offers.noDmaAck.1
          noTrain := offers.noDmaAck.2
          driven := offers.driven
          noRst := offers.noRst
          old := by simpa [after] using offers.noReg.1
          pulse := fun pulse => by
            rw [after, offers.noReg.2] at pulse
            cases pulse
          word := rfl
          low := rfl }
      receiving := offers.receiving
      ack := offers.noAck
      quiet := trivial
      oldAck := offers.pipe.1
      stbAck := offers.pipe.2.1
      stbAdv := offers.pipe.2.2.1
      even := by simpa [after, Hand.stores] using offers.noStore.1
      odd := by simpa [after, Hand.stores] using offers.noStore.2
      beat := by simp [after, Hand.strobed, offers.pipe.2.2.2, offers.empty]
      storeLow := fun stores => by cases stores
      oddByte := fun _ some_ => by simp [after, Hand.strobed, offers.empty] at some_ }
  counted := by simp [handed, after, Hand.pending, offers.empty]
  last := fun busy => by rcases busy with busy | busy <;> cases busy
  stored := by simp [handed]

theorem handed_succ : handed P host env c (t + 1) =
    handed P host env c t ++ (after P host env c t).handing.toList :=
  record_succ (Nat.zero_le t)

/-- One clock. -/
theorem Handing.step (here : Handing P host env c t h) (hands : Hands host (t + 1))
    (stays : (after P host env c (t + 1)).tgt.phase = .dataIn) :
    Handing P host env c (t + 1) (h.next (after P host env c (t + 1)).ncr.icrAck) := by
  have at_ := here.at_
  have count : (after P host env c (t + 1)).tgt.dataCnt =
      (after P host env c t).tgt.dataCnt + h.stbAdv.toNat := at_.dataCnt_next stays
  obtain ⟨pending, -, taken⟩ :=
    Hand.next_counts (after P host env c (t + 1)).ncr.icrAck h
  have offered : (after P host env c t).handing =
      if h.ack && !h.oldAck then some (after P host env c t).ncr.dout else none := by
    rw [handing, at_.scsiAck, at_.oldAck]
  have list : handed P host env c (t + 1) = handed P host env c t ++
      (if h.ack && !h.oldAck then [(after P host env c t).ncr.dout] else []) := by
    rw [handed_succ, offered]
    cases h.ack && !h.oldAck <;> rfl
  refine { at_ := at_.step hands stays, counted := ?_, last := fun busy => ?_, stored := ?_ }
  · rw [list, List.length_append, here.counted, count]
    cases offers : h.ack && !h.oldAck <;> rw [offers] at pending <;> simp at pending ⊢ <;> omega
  · rw [list, count]
    rcases busy with strobe | store
    · have place := Hand.next_eq_strobe strobe
      subst place
      have dout : (after P host env c (t + 1)).ncr.dout = (after P host env c t).ncr.dout :=
        at_.manual.dout_still at_.quiet.1
      have len := here.counted
      simp only [Hand.pending, Bool.toNat_false, Nat.add_zero] at len
      simp [Hand.ack, Hand.oldAck, Hand.stbAdv, dout, ← len]
    · have place := Hand.next_eq_store store
      subst place
      have dout : (after P host env c (t + 1)).ncr.dout = (after P host env c t).ncr.dout :=
        at_.manual.dout_still at_.quiet
      simpa [Hand.ack, Hand.oldAck, Hand.stbAdv, dout] using here.last (.inl rfl)
  · have value := at_.stored (e := env t)
    have here_ := here.stored
    have reach : (after P host env c (t + 1)).tgt.dataCnt +
        (h.next (after P host env c (t + 1)).ncr.icrAck).taken.toNat =
          (after P host env c t).tgt.dataCnt + h.taken.toNat + h.stores.toNat := by omega
    rw [record_succ (Nat.zero_le t), here_, value, reach, list]
    cases offers : h.ack && !h.oldAck with
    | true =>
      -- nothing is stored in the clock in which ACK rises
      have rise : h.stores = false ∧ h.taken = false ∧ h.pending = false := by
        cases h <;> first | exact ⟨rfl, rfl, rfl⟩ | cases offers
      have len := here.counted
      rw [rise.2.2, Bool.toNat_false, Nat.add_zero] at len
      have whole : (asStored c.ncr.dmaWordLatched c.ncr.dmaWriteLowByte
          (handed P host env c t)).take (after P host env c t).tgt.dataCnt =
            asStored c.ncr.dmaWordLatched c.ncr.dmaWriteLowByte (handed P host env c t) :=
        List.take_of_length_le (by rw [length_asStored, len])
      simp [rise, asStored_append, whole, len]
    | false =>
      cases stores : h.stores with
      | false => simp
      | true =>
        have place : h = .store := by cases h <;> first | rfl | cases stores
        subst place
        have byte := here.last (.inr rfl)
        have inside : (after P host env c t).tgt.dataCnt ≤ (handed P host env c t).length := by
          rw [here.counted]
          omega
        simp [Hand.taken, take_asStored byte, List.mapIdx_append, Nat.min_eq_left inside]

theorem Offers.handing_at (offers : Offers P c)
    (phase : ∀ u ≤ t, (after P host env c u).tgt.phase = .dataIn) (hands : Hands host t) :
    ∃ h, Handing P host env c t h := by
  induction t with
  | zero => exact ⟨_, offers.handing⟩
  | succ t ih =>
    obtain ⟨h, here⟩ := ih (fun u h => phase u (by omega)) (hands.earlier (by omega))
    exact ⟨_, here.step hands (phase (t + 1) (Nat.le_refl _))⟩

end

end Chip

end MacIIvi
