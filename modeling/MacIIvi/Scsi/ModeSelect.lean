import Mathlib.Data.List.GetD
import Mathlib.Data.List.Induction
import MacIIvi.Scsi.HandFeed
import MacIIvi.Scsi.ModeSense

/-!
# The audio ports of the CD-ROM target

Source: `rtl/scsi.v`, "MODE SELECT parameter parser". The parser watches the
stores of a MODE SELECT data phase, takes the byte after the block descriptor for
the page code and keeps the eight port bytes of page 0x0E, the CD Audio Control
page, which MODE SENSE shows again.
-/

namespace MacIIvi

open Clocked

namespace AudioPage

/-- The `case (msel_pgoff)`: the port bytes are at 8 to 15 of the page. -/
def write (p : AudioPage) (pgoff : Nat) (b : Byte) : AudioPage :=
  match pgoff with
  | 8 => { p with ch0 := b }
  | 9 => { p with vol0 := b }
  | 10 => { p with ch1 := b }
  | 11 => { p with vol1 := b }
  | 12 => { p with ch2 := b }
  | 13 => { p with vol2 := b }
  | 14 => { p with ch3 := b }
  | 15 => { p with vol3 := b }
  | _ => p

theorem port_write (p : AudioPage) (b : Byte) {pgoff j : Nat} (h : j < 8) :
    (p.write pgoff b).port j = if pgoff = 8 + j then b else p.port j := by
  by_cases inside : 8 ≤ pgoff ∧ pgoff < 16
  · obtain ⟨low, high⟩ := inside
    interval_cases pgoff <;> interval_cases j <;> rfl
  · have same : p.write pgoff b = p := by
      unfold write
      split <;> first | rfl | omega
    rw [same, if_neg (by omega)]

end AudioPage

/-- The registers of the parser. -/
structure ModeSelect where
  page : AudioPage := {}
  mselBdlen : Byte := 0
  mselPage : Byte := 0

namespace ModeSelect

variable (m : ModeSelect)

/-- `msel_pgoff`, a subtraction modulo 2^32. -/
def mselPgoff (dataCnt : Nat) : Nat := (dataCnt + 2 ^ 33 - m.mselBdlen.toNat - 4) % 2 ^ 32

/-- What the parser does with byte `b` at `data_cnt`. -/
def take (dataCnt : Nat) (b : Byte) : ModeSelect :=
  { mselBdlen := if dataCnt = 3 then b else m.mselBdlen
    mselPage := if 4 ≤ dataCnt ∧ m.mselPgoff dataCnt = 0 then b else m.mselPage
    page :=
      if 4 ≤ dataCnt ∧ m.mselPgoff dataCnt ≠ 0 ∧ m.mselPage = 0x0e then
        m.page.write (m.mselPgoff dataCnt) b
      else m.page }

/-- One clock edge; `macData` is the byte the sector buffers take as well. -/
def step (P : Params) (sysRst : Bool) (i : TargetIn) (s : Target) : ModeSelect :=
  if sysRst then {}
  else if P.cdrom && s.phase != .dataIn then { m with mselBdlen := 0, mselPage := 0 }
  else if P.cdrom && s.cmd.cmdModeSelect && (s.buffer0Wr || s.buffer1Wr) then
    m.take s.dataCnt (s.macData i)
  else m

/-! ### A whole list -/

/-- The block descriptor length a list announces. -/
def descriptor (xs : List Byte) : Nat := (xs.getD 3 0).toNat

/-- The page code of a list, if it gets that far. -/
def pageCode (xs : List Byte) : Option Byte := xs[4 + descriptor xs]?

/-- Port byte `j` after a list: the list's, if it is for page 0x0E and long enough. -/
def portAfter (p : AudioPage) (xs : List Byte) (j : Nat) : Byte :=
  if pageCode xs = some 0x0e then (xs[4 + descriptor xs + 8 + j]?).getD (p.port j) else p.port j

section

variable {m} {xs : List Byte} {b : Byte}

/-- The descriptor length stays once four bytes have come. -/
theorem descriptor_append (long : 4 ≤ xs.length) : descriptor (xs ++ [b]) = descriptor xs := by
  unfold descriptor
  rw [List.getD_append _ _ _ _ (by omega)]

theorem descriptor_lt (xs : List Byte) : descriptor xs < 256 := (xs.getD 3 0).isLt

/-- A list is as long as its descriptor says before it has a page code. -/
theorem pageCode_short (short : xs.length ≤ 4 + descriptor xs) : pageCode xs = none :=
  List.getElem?_eq_none short

theorem pageCode_append (long : 4 + descriptor xs < xs.length) :
    pageCode (xs ++ [b]) = pageCode xs := by
  unfold pageCode
  rw [descriptor_append (by omega), List.getElem?_append_left long]

/-- What the parser holds after a list. -/
structure Parsed (p : AudioPage) (xs : List Byte) (m : ModeSelect) : Prop where
  bdlen : m.mselBdlen.toNat = descriptor xs
  page : m.mselPage = (pageCode xs).getD 0
  port : ∀ j < 8, m.page.port j = portAfter p xs j

/-- Before the page starts the subtraction wraps around. -/
theorem mselPgoff_eq (short : xs.length < 2 ^ 31) (bdlen : m.mselBdlen.toNat = descriptor xs)
    (long : 4 ≤ xs.length) :
    (4 + descriptor xs ≤ xs.length → m.mselPgoff xs.length = xs.length - descriptor xs - 4) ∧
      (xs.length < 4 + descriptor xs → 16 ≤ m.mselPgoff xs.length) := by
  have small := descriptor_lt xs
  unfold mselPgoff
  rw [bdlen]
  constructor
  · intro started
    omega
  · intro before
    omega

theorem portAfter_none {p : AudioPage} {j : Nat} (noCode : pageCode xs = none) :
    portAfter p xs j = p.port j := by
  rw [portAfter, noCode, if_neg (by simp)]

theorem length_snoc (xs : List Byte) (b : Byte) : (xs ++ [b]).length = xs.length + 1 := by simp

variable {p : AudioPage}

/-- The header: only its last byte is looked at. -/
theorem Parsed.header (here : Parsed p xs m) (header : xs.length < 4) :
    Parsed p (xs ++ [b]) (m.take xs.length b) := by
  have noCode : pageCode xs = none := pageCode_short (by omega)
  have noCode' : pageCode (xs ++ [b]) = none :=
    pageCode_short (by rw [length_snoc]; omega)
  have still : ¬ 4 ≤ xs.length := by omega
  refine ⟨?_, ?_, fun j h => ?_⟩
  · by_cases last : xs.length = 3
    · simp [ModeSelect.take, last, descriptor]
    · have d : descriptor (xs ++ [b]) = descriptor xs := by
        unfold descriptor
        rw [List.getD_eq_default xs _ (by omega),
          List.getD_eq_default (xs ++ [b]) _ (by rw [length_snoc]; omega)]
      simp only [ModeSelect.take, last, if_false]
      rw [here.bdlen, d]
  · simp only [ModeSelect.take, still, false_and, if_false]
    rw [here.page, noCode, noCode']
  · simp only [ModeSelect.take, still, false_and, if_false]
    rw [here.port j h, portAfter_none noCode, portAfter_none noCode']

/-- From byte 4 on the descriptor length is settled. -/
theorem Parsed.bdlen_next (here : Parsed p xs m) (long : 4 ≤ xs.length) :
    (m.take xs.length b).mselBdlen.toNat = descriptor (xs ++ [b]) := by
  simp only [ModeSelect.take, show xs.length ≠ 3 by omega, if_false]
  rw [here.bdlen, descriptor_append long]

/-- The block descriptor: the offset has wrapped around and matches nothing. -/
theorem Parsed.skip (here : Parsed p xs m) (short : xs.length < 2 ^ 31) (long : 4 ≤ xs.length)
    (before : xs.length < 4 + descriptor xs) : Parsed p (xs ++ [b]) (m.take xs.length b) := by
  have noCode : pageCode xs = none := pageCode_short (by omega)
  have noCode' : pageCode (xs ++ [b]) = none :=
    pageCode_short (by rw [length_snoc, descriptor_append long]; omega)
  have far := (mselPgoff_eq short here.bdlen long).2 before
  have code : m.mselPage = 0 := by
    rw [here.page, noCode]
    rfl
  refine ⟨here.bdlen_next long, ?_, fun j h => ?_⟩
  · simp [ModeSelect.take, noCode', code, show m.mselPgoff xs.length ≠ 0 by omega]
  · rw [portAfter_none noCode']
    have old := (here.port j h).trans (portAfter_none noCode)
    rw [← old]
    simp [ModeSelect.take, code]

/-- The page code. -/
theorem Parsed.code (here : Parsed p xs m) (short : xs.length < 2 ^ 31)
    (first : xs.length = 4 + descriptor xs) : Parsed p (xs ++ [b]) (m.take xs.length b) := by
  have d : descriptor (xs ++ [b]) = descriptor xs := descriptor_append (by omega)
  have noCode : pageCode xs = none := pageCode_short (by omega)
  have code : pageCode (xs ++ [b]) = some b := by
    unfold pageCode
    rw [d, ← first]
    simp
  have zero : m.mselPgoff xs.length = 0 := by
    rw [(mselPgoff_eq short here.bdlen (by omega)).1 (by omega)]
    omega
  refine ⟨here.bdlen_next (by omega), ?_, fun j h => ?_⟩
  · simp [ModeSelect.take, zero, show 4 ≤ xs.length by omega, code]
  · have beyond : (xs ++ [b])[4 + descriptor (xs ++ [b]) + 8 + j]? = none :=
      List.getElem?_eq_none (by rw [length_snoc, d]; omega)
    have old := (here.port j h).trans (portAfter_none noCode)
    rw [portAfter, beyond, Option.getD_none, ite_self, ← old]
    simp [ModeSelect.take, zero]

/-- The rest of the page. -/
theorem Parsed.body (here : Parsed p xs m) (short : xs.length < 2 ^ 31)
    (inside : 4 + descriptor xs < xs.length) : Parsed p (xs ++ [b]) (m.take xs.length b) := by
  have long : 4 ≤ xs.length := by omega
  have same : pageCode (xs ++ [b]) = pageCode xs := pageCode_append inside
  have off : m.mselPgoff xs.length = xs.length - descriptor xs - 4 :=
    (mselPgoff_eq short here.bdlen long).1 (by omega)
  have notZero : m.mselPgoff xs.length ≠ 0 := by omega
  have code : m.mselPage = 0x0e ↔ pageCode xs = some 0x0e := by
    rw [here.page, pageCode, List.getElem?_eq_getElem inside, Option.getD_some, Option.some.injEq]
  refine ⟨here.bdlen_next long, ?_, fun j h => ?_⟩
  · simp [ModeSelect.take, notZero, same, here.page]
  · have old := here.port j h
    rw [portAfter] at old
    rw [portAfter, same, descriptor_append long]
    by_cases audio : pageCode xs = some 0x0e
    · rw [if_pos audio] at old ⊢
      simp only [ModeSelect.take, long, notZero, code.mpr audio, ne_eq, not_false_eq_true,
        and_self, if_true]
      rw [AudioPage.port_write _ _ h, off]
      rcases Nat.lt_trichotomy xs.length (4 + descriptor xs + 8 + j) with short_ | here_ | beyond
      · rw [if_neg (by omega), old, List.getElem?_eq_none (by omega),
          List.getElem?_eq_none (by rw [length_snoc]; omega)]
      · rw [if_pos (by omega), ← here_]
        simp
      · rw [if_neg (by omega), old, List.getElem?_append_left (by omega)]
    · have other : m.mselPage ≠ 0x0e := fun is => audio (code.mp is)
      rw [if_neg audio] at old ⊢
      simp only [ModeSelect.take, other, and_false, if_false]
      exact old

theorem Parsed.take (here : Parsed p xs m) (short : xs.length < 2 ^ 31) :
    Parsed p (xs ++ [b]) (m.take xs.length b) := by
  by_cases header : xs.length < 4
  · exact here.header header
  · rcases Nat.lt_trichotomy xs.length (4 + descriptor xs) with before | first | inside
    · exact here.skip short (by omega) before
    · exact here.code short first
    · exact here.body short inside

end

end ModeSelect

namespace Chip

variable {P : Params} {host : Nat → HostIn} {env : Nat → ChipEnv} {t : Nat} {c : Chip}
  {m : ModeSelect}

/-- The phase up to clock `t`, begun with nothing strobed, stored or counted. -/
structure Receives (P : Params) (host : Nat → HostIn) (env : Nat → ChipEnv) (c : Chip) (t : Nat) :
    Prop where
  receiving : ∀ u ≤ t, (after P host env c u).tgt.Receiving P
  noRst : ∀ u ≤ t, (after P host env c u).ncr.icrRst = false
  empty : c.tgt.dataCnt = 0
  noStrobe : c.tgt.stbAck = false
  noStore : c.tgt.buffer0Wr = false ∧ c.tgt.buffer1Wr = false

namespace Receives

/-- The command and its length stay during the phase. -/
theorem command (receives : Receives P host env c t) {u : Nat} (inside : u ≤ t) : (after P host env c u).tgt.cmd = c.tgt.cmd ∧
    (after P host env c u).tgt.tlen = c.tgt.tlen := by
  induction u with
  | zero => exact ⟨rfl, rfl⟩
  | succ u ih =>
    obtain ⟨cmd, tlen⟩ := ih (by omega)
    have here := (receives.receiving u (by omega)).phase
    exact ⟨(Target.cmdNext_eq (by simp [here])).trans cmd,
      (Target.tlenNext_eq (by simp [here])).trans tlen⟩

theorem dataLen (receives : Receives P host env c t) {u : Nat} (inside : u ≤ t) :
    (after P host env c u).tgt.dataLen P = c.tgt.dataLen P := by
  obtain ⟨cmd, tlen⟩ := receives.command inside
  have first : c.tgt.cmd.dataInCmd P = true := (receives.receiving 0 (by omega)).cmd
  unfold Target.dataLen
  rw [cmd, tlen, Cdb.dataLen_dataIn first, Cdb.dataLen_dataIn first]

theorem count_next (receives : Receives P host env c t) {u : Nat} (inside : u < t) : (after P host env c (u + 1)).tgt.dataCnt =
    (after P host env c u).tgt.dataCnt + (after P host env c u).tgt.stbAdv.toNat :=
  (receives.receiving u (by omega)).dataCnt_next (receives.noRst u (by omega))
    (receives.receiving (u + 1) inside).phase

/-- A byte is not strobed in the clock in which another one is counted. -/
theorem apart (receives : Receives P host env c t) {u : Nat} (adv : (after P host env c u).tgt.stbAdv = true) :
    (after P host env c u).tgt.stbAck = false := by
  cases u with
  | zero => exact receives.noStrobe
  | succ u =>
    have fall : ((after P host env c u).tgt.oldAck && !(after P host env c u).ncr.scsiAck) = true :=
      adv
    rw [Bool.and_eq_true, Bool.not_eq_true'] at fall
    simp [after, fall]

/-- A byte is stored where the count stands. -/
theorem position (receives : Receives P host env c t) {u : Nat} (inside : u ≤ t) {x : Nat × Byte}
    (stores : (after P host env c u).stored P (env u) = some x) :
    x = ((after P host env c u).tgt.dataCnt,
      (after P host env c u).tgt.macData ((after P host env c u).tgtIn P (env u))) := by
  cases u with
  | zero => simp [stored, after, receives.noStore] at stores
  | succ u =>
    have count := receives.count_next inside
    have phase := (receives.receiving u (by omega)).phase
    have even : (after P host env c (u + 1)).tgt.buffer0Wr =
        ((after P host env c u).tgt.stbAck && (after P host env c u).tgt.dataCnt % 2 == 0) := by
      simp [after, phase]
    have odd : (after P host env c (u + 1)).tgt.buffer1Wr =
        ((after P host env c u).tgt.stbAck && (after P host env c u).tgt.dataCnt % 2 == 1) := by
      simp [after, phase]
    cases strobe : (after P host env c u).tgt.stbAck with
    | false => simp [stored, even, odd, strobe] at stores
    | true =>
      have still : (after P host env c u).tgt.stbAdv = false := by
        by_contra adv
        rw [receives.apart (by simpa using adv)] at strobe
        cases strobe
      replace count := count.trans (by rw [still, Bool.toNat_false, Nat.add_zero])
      rw [stored, even, odd, strobe, ← count] at stores
      rcases Nat.mod_two_eq_zero_or_one (after P host env c (u + 1)).tgt.dataCnt with low | high
      · have place : (after P host env c (u + 1)).tgt.dataCnt / 2 * 2 =
            (after P host env c (u + 1)).tgt.dataCnt := by omega
        simpa [low, place, eq_comm] using stores
      · have place : (after P host env c (u + 1)).tgt.dataCnt / 2 * 2 + 1 =
            (after P host env c (u + 1)).tgt.dataCnt := by omega
        simpa [high, place, eq_comm] using stores

/-- The last clock of a MODE SELECT data phase: the whole list is counted, the last byte
in the clock before, and nothing is stored. -/
theorem last_clock (receives : Receives P host env c t) (select : c.tgt.cmd.cmdModeSelect = true)
    (over_ : (after P host env c (t + 1)).tgt.phase ≠ .dataIn) :
    (after P host env c t).tgt.dataCnt = c.tgt.dataLen P ∧
      (after P host env c t).stored P (env t) = none ∧
      (t = 0 ∨ ∃ u, t = u + 1 ∧ (after P host env c u).tgt.stbAdv = true) := by
  have here := receives.receiving t (Nat.le_refl _)
  have rst : ((after P host env c t).tgtIn P (env t)).rst = false :=
    receives.noRst t (Nat.le_refl _)
  have op : (after P host env c t).tgt.cmd.opCode = 0x15 := by
    rw [(receives.command (Nat.le_refl _)).1]
    simpa [Cdb.cmdModeSelect] using select
  have done : (after P host env c t).tgt.dataComplete = true ∨
      (after P host env c t).tgt.dataLen P = 0 := by
    by_contra goes
    rw [not_or] at goes
    apply over_
    rw [after, step_tgt, Target.step_phase, Target.phaseNext_dataIn rst here.phase]
    have on : (after P host env c t).tgt.dataDone P = false := by
      simp [Target.dataDone, goes, Target.tbOutStalled, Target.tbOutActive, Cdb.cmdTbSendData, op,
        Target.tbGetAbort, Target.tbSrvActive, here.phase]
    rw [on]
    rfl
  rw [receives.dataLen (Nat.le_refl _)] at done
  cases t with
  | zero =>
    have count : (after P host env c 0).tgt.dataCnt = c.tgt.dataLen P := by
      rcases done with complete | zero
      · exact here.full complete
      · exact receives.empty.trans zero.symm
    exact ⟨count, by simp [stored, after, receives.noStore], .inl rfl⟩
  | succ t =>
    have before := receives.receiving t (by omega)
    have goes := before.goes_on (receives.noRst t (by omega)) here.phase
    rw [receives.dataLen (by omega)] at goes
    -- a phase without data does not last two clocks
    have count : (after P host env c (t + 1)).tgt.dataCnt = c.tgt.dataLen P := by
      rcases done with complete | zero
      · rw [here.full complete, receives.dataLen (Nat.le_refl _)]
      · omega
    have next := receives.count_next (Nat.lt_succ_self t)
    have adv : (after P host env c t).tgt.stbAdv = true := by
      by_contra still
      rw [Bool.not_eq_true] at still
      rw [still, Bool.toNat_false] at next
      omega
    refine ⟨count, ?_, .inr ⟨t, rfl, adv⟩⟩
    simp [stored, after, receives.apart adv]

end Receives

theorem Begins.receives (begins : Begins P c)
    (phase : ∀ u ≤ t, (after P host env c u).tgt.phase = .dataIn) (writes : Writes host t) :
    Receives P host env c t := by
  have at_ : ∀ u ≤ t, ∃ b, Progress P host env c u b := fun u inside =>
    begins.progress_at (fun v h => phase v (by omega)) (writes.earlier inside)
  exact
    { receiving := fun u inside => (at_ u inside).choose_spec.sending.receiving
      noRst := fun u inside => (at_ u inside).choose_spec.sending.armed.noRst
      empty := begins.empty
      noStrobe := congrArg Pipe.stbAck begins.pipe
      noStore := begins.noStore }

theorem Offers.receives (offers : Offers P c)
    (phase : ∀ u ≤ t, (after P host env c u).tgt.phase = .dataIn) (hands : Hands host t) :
    Receives P host env c t := by
  have at_ : ∀ u ≤ t, ∃ h, Handing P host env c u h := fun u inside =>
    offers.handing_at (fun v h => phase v (by omega)) (hands.earlier inside)
  exact
    { receiving := fun u inside => (at_ u inside).choose_spec.at_.receiving
      noRst := fun u inside => (at_ u inside).choose_spec.at_.manual.noRst
      empty := offers.empty
      noStrobe := offers.pipe.2.1
      noStore := offers.noStore }

/-! ### The two ways to send a list -/

/-- How the driver sends a parameter list: by pseudo-DMA, in any mix of byte and word
accesses, or by hand. -/
inductive Way where
  | dma | hand

/-- The driver sends the list this way. -/
def Sends (P : Params) (host : Nat → HostIn) (c : Chip) (t : Nat) : Way → Prop
  | .dma => Begins P c ∧ Writes host t
  | .hand => Offers P c ∧ Hands host t

/-- The parameter list. -/
def parameters (P : Params) (host : Nat → HostIn) (env : Nat → ChipEnv) (c : Chip) (t : Nat) :
    Way → List Byte
  | .dma => (sent host t).take (c.tgt.dataLen P)
  | .hand => handed P host env c t

/-- The list as the target stores it. -/
def asTaken (c : Chip) (xs : List Byte) : Way → List Byte
  | .dma => xs
  | .hand => asStored c.ncr.dmaWordLatched c.ncr.dmaWriteLowByte xs

/-- A phase that is over has stored the whole list. -/
theorem Sends.stored {way : Way} (sends : Sends P host c t way)
    (select : c.tgt.cmd.cmdModeSelect = true)
    (phase : ∀ u ≤ t, (after P host env c u).tgt.phase = .dataIn)
    (over_ : (after P host env c (t + 1)).tgt.phase ≠ .dataIn) :
    Receives P host env c t ∧ (parameters P host env c t way).length = c.tgt.dataLen P ∧
      record (fun u => (after P host env c u).stored P (env u)) 0 (t + 1) =
        (asTaken c (parameters P host env c t way) way).mapIdx Prod.mk := by
  cases way with
  | dma =>
    obtain ⟨begins, writes⟩ := sends
    have receives := begins.receives phase writes
    obtain ⟨count, none_, -⟩ := receives.last_clock select over_
    obtain ⟨b, here⟩ := begins.progress_at phase writes
    have counted := here.counted
    have stored := here.stored
    rw [count] at counted stored
    refine ⟨receives, ?_, ?_⟩
    · rw [parameters, List.length_take, Nat.min_eq_left counted]
    · rw [record_succ (Nat.zero_le t), none_, stored]
      simp [parameters, asTaken]
  | hand =>
    obtain ⟨offers, hands⟩ := sends
    have receives := offers.receives phase hands
    obtain ⟨count, none_, last⟩ := receives.last_clock select over_
    -- the last byte has been counted, so that none is under way
    have rest : Handing P host env c t .rest := by
      rcases last with rfl | ⟨u, rfl, adv⟩
      · exact offers.handing
      · obtain ⟨h, before⟩ :=
          offers.handing_at (fun v h => phase v (by omega)) (hands.earlier (t := u) (by omega))
        have done : h = .done := by
          have place := before.at_.stbAdv
          rw [adv] at place
          cases h <;> first | rfl | cases place
        subst done
        exact before.step hands (phase (u + 1) (Nat.le_refl _))
    have len := rest.counted
    rw [count] at len
    refine ⟨receives, len, ?_⟩
    rw [record_succ (Nat.zero_le t), none_, rest.stored, count]
    simp only [Hand.pending, Hand.taken, Bool.toNat_false, Nat.add_zero] at len ⊢
    rw [List.take_of_length_le (by rw [length_asStored]; exact len.le)]
    simp [parameters, asTaken]

/-! ### The ports -/

/-- The list is sent by pseudo-DMA, or the last DACK access was a byte access, or the list
describes the same ports with the low byte of that access at its odd offsets. -/
def Faithful (P : Params) (host : Nat → HostIn) (env : Nat → ChipEnv) (c : Chip)
    (p : AudioPage) (t : Nat) : Way → Prop
  | .dma => True
  | .hand => c.ncr.dmaWordLatched = true → ∀ j < 8,
      ModeSelect.portAfter p (asStored true c.ncr.dmaWriteLowByte (handed P host env c t)) j =
        ModeSelect.portAfter p (handed P host env c t) j

/-- The CD-ROM is switched on. -/
def enabled (_ : Nat) : ChipEnv := { slot := { cdEnable := true } }

/-- The CD-ROM target with a MODE SELECT of 14 bytes, after one word read by pseudo-DMA. -/
def typing : Chip :=
  after .cdromTarget (Driver.host (Driver.dmaReadWord ++ Driver.command 3 [0x15, 0x10, 0, 0, 14, 0]))
    enabled { tgt := Target.powerUp .cdromTarget } 89

end Chip

end MacIIvi
