import MacIIvi.CdAudio.Freshness

/-!
# What the built tables hold

The three response tables as functions of the blob in the engine's memory. A row
is built in three states: its entry streams out of the blob memory, which answers
one clock late, the divider turns its address into minutes, seconds and frames,
and the bytes are emitted. What each clock assigns (`Main.next_advances`) is
assigned its byte of the table; the rest keeps its value.
-/

namespace MacIIvi

namespace CdAudio

namespace Divider

/-- What the divider ends with for the address `v`. -/
def result (v : Nat) : Divider :=
  { m := min (v / 4500) 99
    s := (v - 4500 * min (v / 4500) 99) / 75 % 128
    v := (v - 4500 * min (v / 4500) 99) % 75 }

/-- The divider is on its way from `v`, with `k` subtractions of a second done.
Seconds are counted once the minutes are exhausted. -/
def Dividing (v : Nat) (d : Divider) : Prop :=
  ∃ k, v = d.v + 4500 * d.m + 75 * k ∧ d.s = k % 128 ∧ d.m ≤ 99 ∧
    (k = 0 ∨ d.v + 75 * k < 4500 ∨ d.m = 99)

theorem dividing_load (v : Nat) : Dividing (v % 2 ^ 32) (load v) :=
  ⟨0, by simp [load], rfl, Nat.zero_le _, .inl rfl⟩

theorem Dividing.step {v : Nat} {d d' : Divider} (on : Dividing v d) (next : d.step = some d') :
    Dividing v d' := by
  obtain ⟨k, total, seconds, minutes, order⟩ := on
  unfold Divider.step at next
  split at next
  · rename_i more
    obtain ⟨whole, notFull⟩ := more
    obtain rfl := Option.some.inj next
    have none : k = 0 := by omega
    refine ⟨0, ?_, by simpa [none] using seconds, ?_, .inl rfl⟩
    · simp only
      omega
    · simp only
      omega
  · split at next
    · rename_i done more
      obtain rfl := Option.some.inj next
      refine ⟨k + 1, ?_, ?_, minutes, .inr ?_⟩
      · simp only
        omega
      · simp only
        omega
      · simp only
        omega
    · simp at next

/-- The divider stops at the result. -/
theorem Dividing.stops {v : Nat} {d : Divider} (on : Dividing v d) (stop : d.step = none) :
    d = result v := by
  obtain ⟨k, total, seconds, minutes, order⟩ := on
  unfold Divider.step at stop
  split at stop
  · simp at stop
  · split at stop
    · simp at stop
    · rename_i full small
      have m : d.m = min (v / 4500) 99 := by omega
      have s : d.s = (v - 4500 * min (v / 4500) 99) / 75 % 128 := by rw [← m]; omega
      have f : d.v = (v - 4500 * min (v / 4500) 99) % 75 := by rw [← m]; omega
      cases d
      simp only [result, mk.injEq]
      exact ⟨f, m, s⟩

end Divider

/-! ### The disc the blob describes -/

/-- The header registers and the blob memory. -/
structure Disc where
  valid : Bool
  nTracks : Nat
  leadout : Nat
  word : Nat → BitVec 16

namespace Disc

variable (d : Disc)

/-- The word address of the entry of row `k`; rows past the last track repeat it. -/
def entry (k : Nat) : Nat := 8 + 4 * if k < d.nTracks then k else d.nTracks - 1

/-- The control byte of row `k`. Without a valid blob there is one data track. -/
def ctrl (k : Nat) : Byte := if d.valid then (d.word (d.entry k)).extractLsb' 0 8 else 0x14

/-- The first block of row `k`. -/
def start (k : Nat) : Nat :=
  if d.valid then (d.word (d.entry k + 2)).toNat * 65536 + (d.word (d.entry k + 1)).toNat else 0

/-- Minutes, seconds and frames of a block `offset` past `lba`. -/
def msf (lba offset : Nat) : Divider := .result ((lba + offset) % 2 ^ 32)

/-- The divider is on its way there. -/
def Towards (lba offset : Nat) (x : Divider) : Prop := Divider.Dividing ((lba + offset) % 2 ^ 32) x

theorem towards_load (lba offset : Nat) : Towards lba offset (.load (lba + offset)) :=
  Divider.dividing_load (lba + offset)

theorem Towards.step {lba offset : Nat} {x x' : Divider} (on : Towards lba offset x)
    (next : x.step = some x') : Towards lba offset x' :=
  Divider.Dividing.step on next

theorem Towards.stops {lba offset : Nat} {x : Divider} (on : Towards lba offset x)
    (stop : x.step = none) : x = msf lba offset :=
  Divider.Dividing.stops on stop

/-- Minute, second or frame in the number format `code`, then zeros. -/
def msfByte (code : Nat → Byte) (t : Divider) : Nat → Byte
  | 0 => code t.m
  | 1 => code t.s
  | 2 => code (t.v % 256)
  | _ => 0x00

/-- Byte `j` of a track descriptor of the 0xC1 table. -/
def respRow (ctrl : Byte) (t : Divider) : Nat → Byte
  | 0 => ctrl
  | j + 1 => msfByte bin2bcd t j

/-- Byte `a` of the 0xC1 table. -/
def respByte (a : Nat) : Byte :=
  if a < 4 then
    match a with
    | 0 => 0x01
    | 1 => bin2bcd d.nTracks
    | _ => 0x00
  else if a < 8 then msfByte bin2bcd (msf d.leadout 0) (a - 4)
  else respRow (d.ctrl (a / 4 - 2)) (msf (d.start (a / 4 - 2)) 0) (a % 4)

/-- The rows of the format-0 table without its lead-out row. -/
def nReal : Nat := min d.nTracks 60

/-- The data length of the format-0 table. -/
def t43Dlen : Nat := 8 * (d.nReal + 1) + 2

/-- Byte `j` of a descriptor of the format-0 table. -/
def t43Row (ctrl point : Byte) (t : Divider) (j : Nat) : Byte :=
  match j with
  | 1 => ctrl
  | 2 => point
  | 5 | 6 | 7 => msfByte (BitVec.ofNat 8) t (j - 5)
  | _ => 0x00

/-- Byte `j` of row `r` of the format-0 table: after the tracks comes the
lead-out, with the control byte of the last track. -/
def t43Cell (r j : Nat) : Byte :=
  if r < d.nReal then t43Row (d.ctrl r) (BitVec.ofNat 8 (r + 1)) (msf (d.start r) 150) j
  else t43Row (d.ctrl (d.nReal - 1)) 0xaa (msf d.leadout 150) j

/-- Byte `a` of the format-0 table. -/
def t43Byte (a : Nat) : Byte :=
  if a < 4 then
    match a with
    | 0 => BitVec.ofNat 8 (d.t43Dlen / 256)
    | 1 => BitVec.ofNat 8 d.t43Dlen
    | 2 => 0x01
    | _ => BitVec.ofNat 8 d.nTracks
  else d.t43Cell ((a - 4) / 8) ((a - 4) % 8)

/-- The track rows of the full TOC. -/
def nFull : Nat := min d.nTracks 41

/-- Byte `j` of a row of the full TOC. -/
def t2Row (ctrl point : Byte) (t : Divider) (j : Nat) : Byte :=
  match j with
  | 0 => 0x01
  | 1 => ctrl
  | 3 => point
  | 8 | 9 | 10 => msfByte bin2bcd t (j - 8)
  | _ => 0x00

/-- Byte `a` of the full TOC: the address of the lead-out row ends before 37,
where the track rows start. -/
def t2Byte (a : Nat) : Byte :=
  if a < 37 then msfByte bin2bcd (msf d.leadout 150) (a - 34)
  else
    t2Row (d.ctrl ((a - 37) / 11)) (BitVec.ofNat 8 ((a - 37) / 11 + 1))
      (msf (d.start ((a - 37) / 11)) 150) ((a - 37) % 11)

/-- The table cells this module describes, and what they hold. -/
def holds : Item → Option Byte
  | .resp a => some (d.respByte a)
  | .t43 a => some (d.t43Byte a)
  | .t2 a => if 34 ≤ a ∧ a < 37 + 11 * d.nFull then some (d.t2Byte a) else none
  | _ => none

end Disc

/-! ### The registers of a row -/

open Disc (Towards towards_load)

namespace Main

variable {d : Disc} {w : MainIn} {s : Main} {q : BitVec 16}

/-- The entry of row `t_idx` on its way: what the blob memory shows in each step
was addressed one clock before. -/
def reading (d : Disc) (s : Main) (q : BitVec 16) : Prop :=
  match s.step with
  | 0 => True
  | 1 => s.blob.blobRa = d.entry s.bld.tIdx
  | 2 => s.blob.blobRa = d.entry s.bld.tIdx + 1 ∧ q = d.word (d.entry s.bld.tIdx)
  | 3 =>
    s.blob.blobRa = d.entry s.bld.tIdx + 2 ∧ q = d.word (d.entry s.bld.tIdx + 1) ∧
      s.bld.tCtrl = (d.word (d.entry s.bld.tIdx)).extractLsb' 0 8
  | 4 =>
    q = d.word (d.entry s.bld.tIdx + 2) ∧
      s.bld.tCtrl = (d.word (d.entry s.bld.tIdx)).extractLsb' 0 8 ∧
      s.bld.tStart % 65536 = (d.word (d.entry s.bld.tIdx + 1)).toNat
  | _ => False

/-- The row is read and its address, `offset` on, is being divided. -/
def rowDiv (d : Disc) (s : Main) (offset : Nat) : Prop :=
  s.bld.tCtrl = d.ctrl s.bld.tIdx ∧
    Towards (d.start s.bld.tIdx) offset s.div

/-- The row is ready to be emitted. -/
def rowSplit (d : Disc) (s : Main) (offset : Nat) : Prop :=
  s.bld.tCtrl = d.ctrl s.bld.tIdx ∧ s.div = Disc.msf (d.start s.bld.tIdx) offset

/-- What the registers of a build hold in each of its states. -/
def loaded (d : Disc) (s : Main) (q : BitVec 16) : Prop :=
  match s.mst with
  | .loDiv => Towards d.leadout 0 s.div
  | .emitLo => s.div = Disc.msf d.leadout 0
  | .trkRd | .t43Rd | .t2Rd => d.valid = true → reading d s q
  | .trkDiv => rowDiv d s 0
  | .emitTrk => rowSplit d s 0
  | .t43Div =>
    if s.bld.t43Lo then
      s.bld.tCtrl = d.ctrl (d.nReal - 1) ∧ Towards d.leadout 150 s.div
    else rowDiv d s 150
  | .t43Emit =>
    if s.bld.t43Lo then s.bld.tCtrl = d.ctrl (d.nReal - 1) ∧ s.div = Disc.msf d.leadout 150
    else rowSplit d s 150
  | .t2Div => if s.bld.t2Lo then Towards d.leadout 150 s.div else rowDiv d s 150
  | .t2Trk => rowSplit d s 150
  | .t2A2 => s.div = Disc.msf d.leadout 150
  | _ => True

/-- The header registers are those of the disc. -/
structure Describes (s : Main) (d : Disc) : Prop where
  valid : s.tab.tocValid = d.valid
  nTracks : s.tab.nTracks = d.nTracks
  leadout : s.tab.leadoutLba = d.leadout
  few : d.nTracks ≤ 99
  some : 1 ≤ d.nTracks

theorem Describes.entryWord (on : s.Describes d) (k : Nat) :
    s.tab.entryWord 8 k = d.entry k := by
  have few := on.few
  have some := on.some
  unfold Tables.entryWord Disc.entry
  rw [on.nTracks]
  split <;> omega

/-- One clock of a state that reads a row: the next step, or the row is there. -/
theorem stepTrackRead_row (on : s.Describes d) (offset : Nat) (next : MState) (qw : w.blobQ = q)
    (here : d.valid = true → reading d s q) :
    ((stepTrackRead w s offset next).mst = s.mst ∧
        (stepTrackRead w s offset next).bld.tIdx = s.bld.tIdx ∧
        (d.valid = true → reading d (stepTrackRead w s offset next) (d.word s.blob.blobRa))) ∨
      ((stepTrackRead w s offset next).mst = next ∧
        rowDiv d (stepTrackRead w s offset next) offset) := by
  have few := on.few
  cases valid : d.valid with
  | false =>
    right
    unfold stepTrackRead
    rw [on.valid, valid, if_pos (by simp)]
    refine ⟨rfl, ?_, ?_⟩
    · simp [Disc.ctrl, valid]
    · simpa [Disc.start, valid] using towards_load 0 offset
  | true =>
    have here := here valid
    have low : d.entry s.bld.tIdx + 2 < 512 := by
      have := on.some
      unfold Disc.entry
      split <;> omega
    have next0 := on.entryWord s.bld.tIdx
    unfold stepTrackRead
    rw [on.valid, valid, if_neg (by simp)]
    rcases step : s.step with _ | _ | _ | _ | _ | n <;> simp only [reading, step] at here
    · left
      simp [reading, next0]
    · left
      simp only [reading, preamble_mst, preamble_bld, here]
      refine ⟨trivial, trivial, fun _ => ⟨?_, trivial⟩⟩
      omega
    · obtain ⟨ra, word⟩ := here
      left
      simp only [reading, preamble_mst, ra]
      refine ⟨trivial, trivial, fun _ => ⟨?_, trivial, ?_⟩⟩
      · omega
      · rw [MainIn.b0, qw, word]
    · obtain ⟨ra, word, ctrl⟩ := here
      left
      simp only [reading, preamble_mst, ra, ctrl]
      refine ⟨trivial, trivial, fun _ => ⟨trivial, trivial, ?_⟩⟩
      have := (d.word (d.entry s.bld.tIdx + 1)).isLt
      rw [qw, word]
      omega
    · obtain ⟨word, ctrl, low⟩ := here
      right
      have start : w.blobQ.toNat * 65536 + s.bld.tStart % 65536 = d.start s.bld.tIdx := by
        rw [qw, word, low]
        simp [Disc.start, valid]
      simp only [rowDiv, start]
      refine ⟨trivial, ?_, towards_load _ _⟩
      simp [Disc.ctrl, valid, ctrl]

section

variable (b : InTable s) (on : s.Describes d) (qw : w.blobQ = q) (here : loaded d s q)

include here

theorem loDiv_loaded (mst : s.mst = .loDiv) (q' : BitVec 16) : loaded d (stepLoDiv w s) q' := by
  simp only [loaded, mst] at here
  unfold stepLoDiv stepDiv
  cases div : s.div.step with
  | some next => simpa [loaded, mst] using here.step div
  | none => simpa [loaded] using here.stops div

theorem trkDiv_loaded (mst : s.mst = .trkDiv) (q' : BitVec 16) :
    loaded d (stepTrkDiv w s) q' := by
  simp only [loaded, mst] at here
  obtain ⟨ctrl, dividing⟩ := here
  unfold stepTrkDiv stepDiv
  cases div : s.div.step with
  | some next => exact (by simpa [loaded, mst, rowDiv, ctrl] using dividing.step div)
  | none => simpa [loaded, rowSplit, ctrl] using dividing.stops div

theorem t43Div_loaded (mst : s.mst = .t43Div) (q' : BitVec 16) :
    loaded d (stepT43Div w s) q' := by
  simp only [loaded, mst] at here
  unfold stepT43Div stepDiv
  cases lo : s.bld.t43Lo with
  | true =>
    simp only [lo, if_true] at here
    obtain ⟨ctrl, dividing⟩ := here
    cases div : s.div.step with
    | some next => simpa [loaded, mst, lo, ctrl] using dividing.step div
    | none => simpa [loaded, lo, ctrl] using dividing.stops div
  | false =>
    simp only [lo, Bool.false_eq_true, if_false] at here
    obtain ⟨ctrl, dividing⟩ := here
    cases div : s.div.step with
    | some next => simpa [loaded, mst, lo, rowDiv, ctrl] using dividing.step div
    | none => simpa [loaded, lo, rowSplit, ctrl] using dividing.stops div

theorem t2Div_loaded (mst : s.mst = .t2Div) (q' : BitVec 16) : loaded d (stepT2Div w s) q' := by
  simp only [loaded, mst] at here
  unfold stepT2Div
  cases lo : s.bld.t2Lo with
  | true =>
    simp only [lo, if_true] at here
    cases div : s.div.step with
    | some next => simpa [loaded, mst, lo] using here.step div
    | none => simpa [loaded, lo] using here.stops div
  | false =>
    simp only [lo, Bool.false_eq_true, if_false] at here
    obtain ⟨ctrl, dividing⟩ := here
    cases div : s.div.step with
    | some next => simpa [loaded, mst, lo, rowDiv, ctrl] using dividing.step div
    | none => simpa [loaded, lo, rowSplit, ctrl] using dividing.stops div

include on qw in
theorem trkRd_loaded (mst : s.mst = .trkRd) :
    loaded d (stepTrkRd w s) (d.word s.blob.blobRa) := by
  simp only [loaded, mst] at here
  rcases stepTrackRead_row on 0 .trkDiv qw here with ⟨same, -, go⟩ | ⟨mst', row⟩
  · simpa only [loaded, stepTrkRd, same, mst] using go
  · simpa only [loaded, stepTrkRd, mst'] using row

include b on qw in
theorem t43Rd_loaded (mst : s.mst = .t43Rd) :
    loaded d (stepT43Rd w s) (d.word s.blob.blobRa) := by
  simp only [loaded, mst] at here
  have loop := b.loop
  simp only [loopOk, mst] at loop
  have lo : (stepT43Rd w s).bld.t43Lo = false := by
    unfold stepT43Rd stepTrackRead
    dsimp only
    repeat' split
    all_goals exact loop.2.1
  rcases stepTrackRead_row on 150 .t43Div qw here with ⟨same, -, go⟩ | ⟨mst', row⟩
  · simpa only [loaded, stepT43Rd, same, mst] using go
  · unfold stepT43Rd at lo ⊢
    simpa only [loaded, mst', lo, Bool.false_eq_true, if_false] using row

include b on qw in
theorem t2Rd_loaded (mst : s.mst = .t2Rd) : loaded d (stepT2Rd w s) (d.word s.blob.blobRa) := by
  simp only [loaded, mst] at here
  have loop := b.loop
  simp only [loopOk, mst] at loop
  have lo : (stepT2Rd w s).bld.t2Lo = false := by
    unfold stepT2Rd stepTrackRead
    dsimp only
    repeat' split
    all_goals exact loop.1
  rcases stepTrackRead_row on 150 .t2Div qw here with ⟨same, -, go⟩ | ⟨mst', row⟩
  · simpa only [loaded, stepT2Rd, same, mst] using go
  · unfold stepT2Rd at lo ⊢
    simpa only [loaded, mst', lo, Bool.false_eq_true, if_false] using row

theorem emitLo_loaded (mst : s.mst = .emitLo) (q' : BitVec 16) :
    loaded d (stepEmitLo w s) q' := by
  simp only [loaded, mst] at here
  unfold stepEmitLo
  dsimp only
  split <;> simp [loaded, mst, here, reading]

theorem emitTrk_loaded (mst : s.mst = .emitTrk) (q' : BitVec 16) :
    loaded d (stepEmitTrk w s) q' := by
  simp only [loaded, mst] at here
  unfold stepEmitTrk
  dsimp only
  split
  case h_4 => split <;> simp [loaded, reading]
  all_goals simpa [loaded, mst, emitNext, rowSplit] using here

include b on in
theorem t43Emit_loaded (mst : s.mst = .t43Emit) (q' : BitVec 16) :
    loaded d (stepT43Emit w s) q' := by
  simp only [loaded, mst] at here
  have loop := b.loop
  simp only [loopOk, mst, Tables.t43Nreal, on.nTracks] at loop
  unfold stepT43Emit
  dsimp only
  split
  case h_8 =>
    split
    · simp [loaded]
    · rename_i lo
      split
      · simp [loaded, reading]
      · rename_i last
        simp only [lo, Bool.false_eq_true, if_false] at here
        have inside := loop.2.1 (by simpa using lo)
        have row : s.bld.tIdx = d.nReal - 1 := by
          have few := on.few
          simp only [Tables.t43Nreal, on.nTracks] at last
          unfold Disc.nReal
          omega
        simp only [loaded, emitNext, if_true, on.leadout]
        exact ⟨by rw [← row]; exact here.1, towards_load _ _⟩
  all_goals simpa [loaded, mst, emitNext, rowSplit] using here

include on in
theorem t2Trk_loaded (mst : s.mst = .t2Trk) (q' : BitVec 16) : loaded d (stepT2Trk w s) q' := by
  simp only [loaded, mst] at here
  unfold stepT2Trk putT2
  dsimp only
  split
  case h_11 =>
    split
    · simp [loaded, reading]
    · simp only [loaded, if_true, on.leadout]
      exact towards_load _ _
  all_goals simpa [loaded, mst, ekNext, rowSplit] using here

theorem t2A2_loaded (mst : s.mst = .t2A2) (q' : BitVec 16) : loaded d (stepT2A2 w s) q' := by
  simp only [loaded, mst] at here
  unfold stepT2A2 putT2
  dsimp only
  split <;> simp [loaded, mst, here]

end

/-- The states that build from the header registers. -/
def building (s : Main) : Bool :=
  s.mst.acquiring && s.mst != .acqReq && s.mst != .acqWait && s.mst != .hdrRd

/-- One clock keeps the registers loaded. -/
theorem next_loaded (b : InTable s) (on : building s = true → s.Describes d) (qw : w.blobQ = q)
    (here : loaded d s q) : loaded d (next w s) (d.word s.blob.blobRa) := by
  cases rst : w.rst with
  | true => simp [next, rst, reset, loaded]
  | false =>
    simp only [next, rst, Bool.false_eq_true, if_false]
    cases mst : s.mst
    all_goals
      have on := on
      simp [building, mst, MState.acquiring] at on
    case loDiv => exact loDiv_loaded here mst _
    case emitLo => exact emitLo_loaded here mst _
    case trkRd => exact trkRd_loaded on qw here mst
    case trkDiv => exact trkDiv_loaded here mst _
    case emitTrk => exact emitTrk_loaded here mst _
    case t43Rd => exact t43Rd_loaded b on qw here mst
    case t43Div => exact t43Div_loaded here mst _
    case t43Emit => exact t43Emit_loaded b on here mst _
    case t2Rd => exact t2Rd_loaded b on qw here mst
    case t2Div => exact t2Div_loaded here mst _
    case t2Trk => exact t2Trk_loaded on here mst _
    case t2A2 => exact t2A2_loaded here mst _
    case emitH =>
      unfold stepEmitH
      dsimp only
      split <;> simp [loaded, mst, on.leadout]
      exact towards_load _ 0
    all_goals
      simp only [stepIdle, acquire, stepAcqReq, stepAcqWait, stepHdrRd, stepBuilt, stepT43Hdr,
        stepT2Hdr, stepT2A01, stepT2Sess, stepCmd, stepCtrkRd, stepScanGo, stepApply,
        stepRefScan, stepRefDiva, stepRefDivr, putT2]
      repeat' split
      all_goals simp [loaded, mst, reading]

/-! ### The bytes a clock writes -/

theorem emitH_byte (on : s.Describes d) {a : Nat} (wr : (stepEmitH w s).tab.resp.writes a) :
    (stepEmitH w s).tab.resp.wd = d.respByte a := by
  revert wr
  unfold stepEmitH
  dsimp only
  split
  all_goals
    rintro ⟨-, wa⟩
    simp at wa
    subst wa
    simp [Disc.respByte, on.nTracks]

theorem emitLo_byte (here : loaded d s q) (mst : s.mst = .emitLo) {a : Nat}
    (wr : (stepEmitLo w s).tab.resp.writes a) :
    (stepEmitLo w s).tab.resp.wd = d.respByte a := by
  simp only [loaded, mst] at here
  revert wr
  unfold stepEmitLo
  dsimp only
  split
  all_goals
    rintro ⟨-, wa⟩
    simp at wa
    subst wa
    simp [Disc.respByte, Disc.msfByte, here]

theorem emitTrk_byte (b : InTable s) (here : loaded d s q) (mst : s.mst = .emitTrk) {a : Nat}
    (wr : (stepEmitTrk w s).tab.resp.writes a) :
    (stepEmitTrk w s).tab.resp.wd = d.respByte a := by
  have loop := b.loop
  simp only [loopOk, mst] at loop
  simp only [loaded, mst, rowSplit] at here
  obtain ⟨ctrl, div⟩ := here
  have shown (j : Nat) (small : j < 4) (wa : (8 + s.bld.tIdx * 4 + j) % 512 = a) :
      d.respByte a = Disc.respRow s.bld.tCtrl s.div j := by
    have index : a / 4 - 2 = s.bld.tIdx := by omega
    have byte : a % 4 = j := by omega
    unfold Disc.respByte
    rw [if_neg (by omega), if_neg (by omega), index, byte, ctrl, div]
  revert wr
  unfold stepEmitTrk
  dsimp only
  split
  case h_4 =>
    split
    all_goals
      rintro ⟨-, wa⟩
      rw [shown 3 (by omega) (by simpa [Nat.add_right_comm] using wa)]
      rfl
  case h_1 =>
    rintro ⟨-, wa⟩
    exact (shown 0 (by omega) wa).symm
  case h_2 =>
    rintro ⟨-, wa⟩
    rw [shown 1 (by omega) (by simpa [Nat.add_right_comm] using wa)]
    rfl
  case h_3 =>
    rintro ⟨-, wa⟩
    rw [shown 2 (by omega) (by simpa [Nat.add_right_comm] using wa)]
    rfl

theorem t43Dlen_disc (on : s.Describes d) : s.tab.t43Dlen = d.t43Dlen := by
  rw [t43Dlen_eq, on.nTracks]
  rfl

theorem t43Hdr_byte (on : s.Describes d) {a : Nat} (wr : (stepT43Hdr w s).tab.t43.writes a) :
    (stepT43Hdr w s).tab.t43.wd = d.t43Byte a := by
  revert wr
  unfold stepT43Hdr
  dsimp only
  split
  all_goals
    rintro ⟨-, wa⟩
    simp at wa
    subst wa
    simp [Disc.t43Byte, on.nTracks, t43Dlen_disc on]

theorem t43Emit_byte (b : InTable s) (on : s.Describes d) (here : loaded d s q)
    (mst : s.mst = .t43Emit) {a : Nat} (wr : (stepT43Emit w s).tab.t43.writes a) :
    (stepT43Emit w s).tab.t43.wd = d.t43Byte a := by
  have loop := b.loop
  have few := on.few
  simp only [loopOk, mst, Tables.t43Nreal, on.nTracks] at loop
  simp only [loaded, mst, rowSplit] at here
  have fits : t43Row s ≤ d.nReal := by
    unfold t43Row Disc.nReal Tables.t43Nreal
    rw [on.nTracks]
    split
    · exact Nat.le_refl _
    · rename_i lo
      exact Nat.le_of_lt (loop.2.1 (by simpa using lo))
  have cell (j : Nat) (small : j < 8) (wa : (4 + t43Row s * 8 + j) % 512 = a) :
      d.t43Byte a = Disc.t43Row s.bld.tCtrl
        (if s.bld.t43Lo then 0xaa else BitVec.ofNat 8 (s.bld.tIdx + 1)) s.div j := by
    have low : d.nReal ≤ 60 := Nat.min_le_right _ _
    have index : (a - 4) / 8 = t43Row s := by omega
    have byte : (a - 4) % 8 = j := by omega
    unfold Disc.t43Byte
    rw [if_neg (by omega), index, byte]
    unfold Disc.t43Cell
    cases lo : s.bld.t43Lo with
    | true =>
      have row : t43Row s = d.nReal := by simp [t43Row, lo, Tables.t43Nreal, on.nTracks, Disc.nReal]
      simp only [lo, if_true] at here
      rw [row, if_neg (Nat.lt_irrefl _), here.1, here.2]
      rfl
    | false =>
      have row : t43Row s = s.bld.tIdx := by simp [t43Row, lo]
      simp only [lo, Bool.false_eq_true, if_false] at here
      have inside : s.bld.tIdx < d.nReal := loop.2.1 lo
      rw [row, if_pos inside, here.1, here.2]
      rfl
  have frames : BitVec.ofNat 8 (s.div.v % 256) = BitVec.ofNat 8 s.div.v :=
    BitVec.eq_of_toNat_eq (by simp)
  revert wr
  unfold stepT43Emit
  dsimp only
  split
  case h_8 =>
    have last : s.bld.emitK = 7 := by grind
    have done (wa : (4 + t43Row s * 8 + s.bld.emitK) % 512 = a) :
        BitVec.ofNat 8 s.div.v = d.t43Byte a := by
      rw [cell 7 (by omega) (by rw [← last]; exact wa), ← frames]
      rfl
    repeat' split
    all_goals exact fun wr => done wr.2
  all_goals
    rename_i k
    intro wr
    rw [cell s.bld.emitK (by omega) wr.2, k]
    rfl

theorem t2Trk_byte (b : InTable s) (on : s.Describes d) (here : loaded d s q)
    (mst : s.mst = .t2Trk) {a : Nat} (wr : (stepT2Trk w s).tab.t2.writes a) :
    (stepT2Trk w s).tab.t2.wd = d.t2Byte a := by
  have loop := b.loop
  have few := on.few
  simp only [loopOk, mst, Tables.t2N, on.nTracks] at loop
  simp only [loaded, mst, rowSplit] at here
  obtain ⟨-, inside, base, small⟩ := loop
  have cell (wa : (s.bld.t2Wbase + s.bld.t2Ek) % 512 = a) :
      d.t2Byte a =
        Disc.t2Row s.bld.tCtrl (BitVec.ofNat 8 (s.bld.tIdx + 1)) s.div s.bld.t2Ek := by
    rw [Nat.mod_eq_of_lt (by omega)] at wa
    have index : (a - 37) / 11 = s.bld.tIdx := by omega
    have byte : (a - 37) % 11 = s.bld.t2Ek := by omega
    rw [Disc.t2Byte, if_neg (by omega), index, byte, here.1, here.2]
  revert wr
  unfold stepT2Trk putT2
  dsimp only
  split
  case h_11 =>
    have last : s.bld.t2Ek = 10 := by grind
    split
    all_goals
      intro wr
      rw [cell wr.2, last]
      rfl
  all_goals
    rename_i k
    intro wr
    rw [cell wr.2, k]
    rfl

/-- Which states write the 0xC1 and the format-0 table. -/
theorem next_strobes :
    ((next w s).tab.resp.we = true → s.mst = .emitH ∨ s.mst = .emitLo ∨ s.mst = .emitTrk) ∧
      ((next w s).tab.t43.we = true → s.mst = .t43Hdr ∨ s.mst = .t43Emit) := by
  cases rst : w.rst with
  | true => simp [next, rst, reset]
  | false =>
    simp only [next, rst, Bool.false_eq_true, if_false]
    cases mst : s.mst
    case emitH | emitLo | emitTrk | t43Hdr | t43Emit =>
      simp only [stepEmitH, stepEmitLo, stepEmitTrk, stepT43Hdr, stepT43Emit]
      repeat' split
      all_goals simp
    all_goals
      simp only [stepIdle, acquire, stepAcqReq, stepAcqWait, stepHdrRd, stepLoDiv, stepDiv,
        stepTrkRd, stepTrackRead, stepTrkDiv, stepBuilt, stepT43Rd, stepT43Div, stepT2Hdr, stepT2Rd,
        stepT2Div, stepT2Trk, stepT2A2, stepT2A01, stepT2Sess, stepCmd, stepCtrkRd, stepScanGo,
        stepApply, stepRefScan, stepRefDiva, stepRefDivr, putT2]
      repeat' split
      all_goals simp

/-- The lead-out row: its other bytes are below 34. -/
theorem t2A2_byte (b : InTable s) (here : loaded d s q) (mst : s.mst = .t2A2) {a : Nat}
    (wr : (stepT2A2 w s).tab.t2.writes a) :
    a < 34 ∨ (stepT2A2 w s).tab.t2.wd = d.t2Byte a := by
  have loop := b.loop
  simp only [loopOk, mst] at loop
  simp only [loaded, mst] at here
  have time (wa : (26 + s.bld.t2Ek) % 512 = a) (k : 8 ≤ s.bld.t2Ek) :
      d.t2Byte a = Disc.msfByte bin2bcd s.div (s.bld.t2Ek - 8) := by
    have index : a - 34 = s.bld.t2Ek - 8 := by omega
    rw [Disc.t2Byte, if_pos (by omega), index, here]
  revert wr
  unfold stepT2A2 putT2
  dsimp only
  split
  case h_9 | h_10 =>
    rename_i k
    intro wr
    right
    rw [time wr.2 (by omega), k]
    rfl
  case h_11 =>
    have last : s.bld.t2Ek = 10 := by grind
    intro wr
    right
    rw [time wr.2 (by omega), last]
    rfl
  all_goals
    rename_i k
    rintro ⟨-, wa⟩
    simp [k] at wa
    omega

/-- The address of the lead-out row and the track rows of the full TOC are
written by the two states of their names only. -/
theorem t2_other (mst : s.mst ≠ .t2Trk) (mst' : s.mst ≠ .t2A2) (b : InTable s) {a : Nat}
    (wr : (next w s).tab.t2.writes a) : a < 34 ∨ 496 ≤ a := by
  have loop := b.loop
  revert wr
  cases rst : w.rst with
  | true => simp [next, rst, reset, PlanePort.writes]
  | false =>
    simp only [next, rst, Bool.false_eq_true, if_false]
    cases state : s.mst
    case t2Trk => exact absurd state mst
    case t2A2 => exact absurd state mst'
    case t2Hdr | t2A01 | t2Sess =>
      simp only [loopOk, state] at loop
      simp only [stepT2Hdr, stepT2A01, stepT2Sess, putT2]
      split
      all_goals
        rintro ⟨-, wa⟩
        simp at wa
        omega
    all_goals
      simp only [stepIdle, acquire, stepAcqReq, stepAcqWait, stepHdrRd, stepEmitH, stepLoDiv,
        stepDiv, stepEmitLo, stepTrkRd, stepTrackRead, stepTrkDiv, stepEmitTrk, stepBuilt,
        stepT43Hdr, stepT43Rd, stepT43Div, stepT43Emit, stepT2Rd, stepT2Div, stepCmd, stepCtrkRd,
        stepScanGo, stepApply, stepRefScan, stepRefDiva, stepRefDivr]
      repeat' split
      all_goals simp [PlanePort.writes]

/-- The write port of a table cell. -/
def port (s : Main) : Item → PlanePort
  | .resp _ => s.tab.resp
  | .t43 _ => s.tab.t43
  | .t2 _ => s.tab.t2
  | _ => {}

/-- A cell is assigned its byte of the table. -/
theorem next_byte (rst : w.rst = false) (b : InTable s) (on : s.Describes d) (here : loaded d s q)
    {x : Item} {v : Byte} (now : assigns s (next w s) x) (holds : d.holds x = some v) :
    (port (next w s) x).wd = v := by
  obtain ⟨resp, t43⟩ := next_strobes (w := w) (s := s)
  cases x with
  | resp a =>
    obtain rfl := Option.some.inj holds
    have at_ := resp now.1
    simp only [assigns, next, rst, port, Bool.false_eq_true, if_false] at now ⊢
    rcases at_ with mst | mst | mst <;> simp only [mst] at now ⊢
    · exact emitH_byte on now
    · exact emitLo_byte here mst now
    · exact emitTrk_byte b here mst now
  | t43 a =>
    obtain rfl := Option.some.inj holds
    have at_ := t43 now.1
    simp only [assigns, next, rst, port, Bool.false_eq_true, if_false] at now ⊢
    rcases at_ with mst | mst <;> simp only [mst] at now ⊢
    · exact t43Hdr_byte on now
    · exact t43Emit_byte b on here mst now
  | t2 a =>
    have few : d.nFull ≤ 41 := Nat.min_le_right _ _
    simp only [Disc.holds] at holds
    split at holds
    · rename_i inside
      obtain rfl := Option.some.inj holds
      by_cases mst : s.mst = .t2Trk
      · simp only [assigns, next, rst, port, mst, Bool.false_eq_true, if_false] at now ⊢
        exact t2Trk_byte b on here mst now
      · by_cases mst' : s.mst = .t2A2
        · simp only [assigns, next, rst, port, mst', Bool.false_eq_true, if_false] at now ⊢
          rcases t2A2_byte b here mst' now with below | same
          · omega
          · exact same
        · have := t2_other mst mst' b now
          omega
    · simp at holds
  | nTracks | leadoutLow | leadoutHigh | discAudio => simp [Disc.holds] at holds

/-! ### The header registers and the capture strobe -/

theorem next_few (few : s.tab.nTracks ≤ 99) : (next w s).tab.nTracks ≤ 99 := by
  cases rst : w.rst with
  | true => simp [next, rst, reset]
  | false =>
    by_cases hdr : s.mst = .hdrRd
    · simp only [next, rst, hdr, stepHdrRd, Bool.false_eq_true, if_false]
      split
      case h_3 =>
        split
        · dsimp only
          split
          · omega
          · split <;> omega
        · exact few
      case h_5 => split <;> simp [few]
      all_goals first | exact few | (split <;> exact few)
    · rw [(next_header rst hdr).1]
      exact few

theorem next_valid (rst : w.rst = false) (away : s.mst ≠ .hdrRd)
    (away' : (next w s).mst ≠ .acqReq) : (next w s).tab.tocValid = s.tab.tocValid := by
  revert away'
  simp only [next, rst, Bool.false_eq_true, if_false]
  cases mst : s.mst
  case hdrRd => exact absurd mst away
  all_goals
    simp only [stepIdle, acquire, stepAcqReq, stepAcqWait, stepEmitH, stepLoDiv, stepDiv,
      stepEmitLo, stepTrkRd, stepTrackRead, stepTrkDiv, stepEmitTrk, stepBuilt, stepT43Hdr,
      stepT43Rd, stepT43Div, stepT43Emit, stepT2Hdr, stepT2Rd, stepT2Div, stepT2Trk, stepT2A2,
      stepT2A01, stepT2Sess, stepCmd, stepCtrkRd, stepScanGo, stepApply, stepRefScan, stepRefDiva,
      stepRefDivr, putT2]
    repeat' split
    all_goals simp

/-- The blob memory is written in `M_ACQ_WAIT` only. -/
theorem next_cap (cap : s.blob.blobCap = true → s.mst = .acqWait)
    (cap' : (next w s).blob.blobCap = true) : (next w s).mst = .acqWait := by
  revert cap'
  cases rst : w.rst with
  | true => simp [next, rst, reset]
  | false =>
    simp only [next, rst, Bool.false_eq_true, if_false]
    cases mst : s.mst
    case acqWait =>
      simp only [stepAcqWait]
      repeat' split
      all_goals simp [mst]
    all_goals
      have low : s.blob.blobCap = false := by simpa [mst] using cap
      simp only [stepIdle, acquire, stepAcqReq, stepHdrRd, stepEmitH, stepLoDiv, stepDiv,
        stepEmitLo, stepTrkRd, stepTrackRead, stepTrkDiv, stepEmitTrk, stepBuilt, stepT43Hdr,
        stepT43Rd, stepT43Div, stepT43Emit, stepT2Hdr, stepT2Rd, stepT2Div, stepT2Trk, stepT2A2,
        stepT2A01, stepT2Sess, stepCmd, stepCtrkRd, stepScanGo, stepApply, stepRefScan,
        stepRefDiva, stepRefDivr, putT2]
      repeat' split
      all_goals simp [low]

/-! ### The header of the blob -/

/-- The number of the last track in word 3, at least 1 and at most 99. -/
def trackCount (x : BitVec 16) : Nat := max 1 (min (x.toNat % 256) 99)

/-- Words 0 and 1 are `MC` and `DA`. -/
def isMc (x : BitVec 16) : Bool := x == 0x434d
def isDa (x : BitVec 16) : Bool := x == 0x4144

def hasMagic (blob : Nat → BitVec 16) : Bool := isMc (blob 0) && isDa (blob 1)

/-- The header registers of a blob that has been read; without the magic, one
track on a disc of the size the image had when the header was read. -/
def HeaderOf (blob : Nat → BitVec 16) (imgBlocks : Nat) (t : Tables) : Prop :=
  t.tocValid = hasMagic blob ∧
    if t.tocValid then
      t.nTracks = trackCount (blob 3) ∧
        t.leadoutLba = (blob 5).toNat * 65536 + (blob 4).toNat
    else t.nTracks = 1 ∧ t.leadoutLba = imgBlocks / 4

/-- The header on its way: word `k` shows at step `k + 1`. -/
def headerReading (blob : Nat → BitVec 16) (s : Main) (q : BitVec 16) : Prop :=
  s.blob.blobRa = s.step ∧ s.step ≤ 6 ∧ (s.step ≠ 0 → q = blob (s.step - 1)) ∧
    (s.step = 2 → s.tab.tocValid = isMc (blob 0)) ∧
    (2 < s.step → s.tab.tocValid = hasMagic blob) ∧
    (4 < s.step → s.tab.tocValid = true → s.tab.nTracks = trackCount (blob 3)) ∧
    (s.step = 6 → s.tab.tocValid = true → s.tab.leadoutLba % 65536 = (blob 4).toNat)

/-- The clock in which `M_HDR_RD` ends, and reads `img_blocks`. -/
def readsSize (w : MainIn) (s : Main) : Bool := !w.rst && s.mst == .hdrRd && s.step == 6

/-- The header registers in each state of a build, and after it. -/
def header (blob : Nat → BitVec 16) (imgBlocks : Nat) (s : Main) (q : BitVec 16) : Prop :=
  match s.mst with
  | .acqReq | .acqWait => True
  | .hdrRd => headerReading blob s q
  | _ => live s → HeaderOf blob imgBlocks s.tab

theorem MainIn.b0_toNat (w : MainIn) : w.b0.toNat = w.blobQ.toNat % 256 := by
  simp [MainIn.b0, BitVec.extractLsb'_toNat]

theorem MainIn.b1_toNat (w : MainIn) : w.b1.toNat = w.blobQ.toNat / 256 := by
  have := w.blobQ.isLt
  simp [MainIn.b1, BitVec.extractLsb'_toNat, Nat.shiftRight_eq_div_pow]
  omega

/-- A word is known by its two bytes. -/
theorem word_eq_iff (w : MainIn) (x : BitVec 16) :
    w.blobQ = x ↔ w.b0.toNat = x.toNat % 256 ∧ w.b1.toNat = x.toNat / 256 := by
  rw [MainIn.b0_toNat, MainIn.b1_toNat, ← BitVec.toNat_inj]
  omega

theorem trackCount_b0 (w : MainIn) :
    (if w.b0 = 0 then 1 else if 99 < w.b0.toNat then 99 else w.b0.toNat % 128) =
      trackCount w.blobQ := by
  have zero : w.b0 = 0 ↔ w.b0.toNat = 0 := by simp [← BitVec.toNat_inj]
  simp only [zero, MainIn.b0_toNat, trackCount]
  split
  · omega
  · split <;> omega

theorem magic_bytes (w : MainIn) (v : Bool) :
    (w.b0 == 0x4d && w.b1 == 0x43) = isMc w.blobQ ∧
      (v && w.b0 == 0x44 && w.b1 == 0x41) = (v && isDa w.blobQ) := by
  constructor
  · rw [Bool.eq_iff_iff, isMc, beq_iff_eq, word_eq_iff, Bool.and_eq_true, beq_iff_eq, beq_iff_eq,
      ← BitVec.toNat_inj, ← BitVec.toNat_inj]
    rfl
  · rw [Bool.and_assoc]
    congr 1
    rw [Bool.eq_iff_iff, isDa, beq_iff_eq, word_eq_iff, Bool.and_eq_true, beq_iff_eq, beq_iff_eq,
      ← BitVec.toNat_inj, ← BitVec.toNat_inj]
    rfl

theorem stepHdrRd_header {blob : Nat → BitVec 16} {blocks : Nat} (qw : w.blobQ = q)
    (here : headerReading blob s q) (mst : s.mst = .hdrRd)
    (size : s.step = 6 → blocks = w.imgBlocks) :
    header blob blocks (stepHdrRd w s) (blob s.blob.blobRa) := by
  obtain ⟨ra, small, word, first, magic, tracks, low⟩ := here
  have all : s.step = 0 ∨ s.step = 1 ∨ s.step = 2 ∨ s.step = 3 ∨ s.step = 4 ∨ s.step = 5 ∨
      s.step = 6 := by omega
  obtain ⟨mc, da⟩ := magic_bytes w s.tab.tocValid
  subst qw
  have bits := w.blobQ.isLt
  unfold stepHdrRd
  rcases all with h | h | h | h | h | h | h <;>
    simp only [h, header, headerReading, preamble_mst, mst, ra, mc, da, trackCount_b0]
      at word first magic tracks low ⊢
  · simp
  · simp [word (by decide)]
  · simp [word (by decide), first, hasMagic]
  · simp [magic]
  · have word := word (by decide)
    have magic := (magic (by decide)).symm
    cases valid : s.tab.tocValid <;> rw [valid] at magic <;> simp [valid, magic, word]
  · have word := word (by decide)
    have magic := (magic (by decide)).symm
    have tracks := tracks (by decide)
    cases valid : s.tab.tocValid with
    | true =>
      rw [valid] at magic
      simp [valid, magic, tracks valid, ← word]
      omega
    | false =>
      rw [valid] at magic
      simp [valid, magic]
  · have word := word (by decide)
    have magic := (magic (by decide)).symm
    have tracks := tracks (by decide)
    have low := low trivial
    intro _
    cases valid : s.tab.tocValid with
    | true =>
      rw [valid] at magic
      simp [HeaderOf, valid, magic, tracks valid, low valid, word]
    | false =>
      rw [valid] at magic
      simp [HeaderOf, valid, magic, size h]

/-- A header is read after a fetch. -/
theorem next_reads (rst : w.rst = false) (hdr : s.mst ≠ .hdrRd) (wait : s.mst ≠ .acqWait) :
    (next w s).mst ≠ .hdrRd := by
  simp only [next, rst, Bool.false_eq_true, if_false]
  cases mst : s.mst
  case hdrRd => exact absurd mst hdr
  case acqWait => exact absurd mst wait
  all_goals
    simp only [stepIdle, acquire, stepAcqReq, stepEmitH, stepLoDiv, stepDiv, stepEmitLo, stepTrkRd,
      stepTrackRead, stepTrkDiv, stepEmitTrk, stepBuilt, stepT43Hdr, stepT43Rd, stepT43Div,
      stepT43Emit, stepT2Hdr, stepT2Rd, stepT2Div, stepT2Trk, stepT2A2, stepT2A01, stepT2Sess,
      stepCmd, stepCtrkRd, stepScanGo, stepApply, stepRefScan, stepRefDiva, stepRefDivr, putT2]
    repeat' split
    all_goals simp [mst]

/-- A build or a ready table comes from a build or a ready table. -/
theorem next_live (rst : w.rst = false) (away : (next w s).mst ≠ .acqReq)
    (alive : live (next w s)) : live s := by
  by_cases acq : s.mst.acquiring = true
  · exact .inl acq
  · have rest : s.mst.acquiring = false := by simpa using acq
    by_cases idle : s.mst = .idle
    · revert alive away
      simp only [next, rst, idle, stepIdle, acquire, Bool.false_eq_true, if_false]
      repeat' split
      all_goals simp [live, MState.acquiring, idle]
    · obtain ⟨tab, rest'⟩ := next_rest rst rest idle
      rcases alive with acq' | ready
      · simp [rest'] at acq'
      · rw [tab] at ready
        exact .inr ready

/-! ### A ready TOC -/

/-- The two tables are at rest when the TOC is ready. -/
theorem next_quiet (b : InTable s) (ready : (next w s).tab.tocReady = true) :
    (next w s).tab.resp.we = false ∧ (next w s).tab.t43.we = false := by
  obtain ⟨resp, t43⟩ := next_strobes (w := w) (s := s)
  cases rst : w.rst with
  | true => simp [next, rst, reset]
  | false =>
    have emits (mst : s.mst = .emitH ∨ s.mst = .emitLo ∨ s.mst = .emitTrk ∨ s.mst = .t43Hdr ∨
        s.mst = .t43Emit) : False := by
      have unready : s.tab.tocReady = false := by
        refine b.unready ?_
        rcases mst with m | m | m | m | m <;> rw [m] <;> rfl
      revert ready
      simp only [next, rst, Bool.false_eq_true, if_false]
      rcases mst with m | m | m | m | m <;>
        simp only [m, stepEmitH, stepEmitLo, stepEmitTrk, stepT43Hdr, stepT43Emit]
      all_goals
        repeat' split
        all_goals simp [unready]
    constructor
    · by_contra up
      have := resp (by simpa using up)
      exact emits (by tauto)
    · by_contra up
      have := t43 (by simpa using up)
      exact emits (by tauto)

/-- A ready TOC has its last write in the session page. -/
theorem next_session (b : InTable s) (ready : (next w s).tab.tocReady = true)
    (up : (next w s).tab.t2.we = true) : 496 ≤ (next w s).tab.t2.wa := by
  have loop := b.loop
  have unready (acq : s.mst.acquiring = true) : s.tab.tocReady = false := b.unready acq
  revert ready up
  cases rst : w.rst with
  | true => simp [next, rst, reset]
  | false =>
    simp only [next, rst, Bool.false_eq_true, if_false]
    cases mst : s.mst
    case t2Hdr | t2Trk | t2A2 | t2A01 =>
      have unready := unready (by rw [mst]; rfl)
      simp only [stepT2Hdr, stepT2Trk, stepT2A2, stepT2A01, putT2]
      repeat' split
      all_goals simp [unready]
    case t2Sess =>
      simp only [loopOk, mst] at loop
      simp only [stepT2Sess, putT2]
      repeat' split
      all_goals
        simp
        try omega
    all_goals
      simp only [stepIdle, acquire, stepAcqReq, stepAcqWait, stepHdrRd, stepEmitH, stepLoDiv,
        stepDiv, stepEmitLo, stepTrkRd, stepTrackRead, stepTrkDiv, stepEmitTrk, stepBuilt,
        stepT43Hdr, stepT43Rd, stepT43Div, stepT43Emit, stepT2Rd, stepT2Div, stepCmd, stepCtrkRd,
        stepScanGo, stepApply, stepRefScan, stepRefDiva, stepRefDivr]
      repeat' split
      all_goals simp

theorem next_toc43Len (rst : w.rst = false) (away : s.mst ≠ .t43Hdr) :
    (next w s).tab.toc43Len = s.tab.toc43Len := by
  simp only [next, rst, Bool.false_eq_true, if_false]
  cases mst : s.mst
  case t43Hdr => exact absurd mst away
  all_goals
    simp only [stepIdle, acquire, stepAcqReq, stepAcqWait, stepHdrRd, stepEmitH, stepLoDiv,
      stepDiv, stepEmitLo, stepTrkRd, stepTrackRead, stepTrkDiv, stepEmitTrk, stepBuilt, stepT43Rd,
      stepT43Div, stepT43Emit, stepT2Hdr, stepT2Rd, stepT2Div, stepT2Trk, stepT2A2, stepT2A01,
      stepT2Sess, stepCmd, stepCtrkRd, stepScanGo, stepApply, stepRefScan, stepRefDiva,
      stepRefDivr, putT2]
    repeat' split
    all_goals rfl

/-- The length of the full TOC is set when the TOC becomes ready. -/
theorem next_toc2Len (b : InTable s)
    (here : s.tab.tocReady = true → s.tab.toc2Len = (s.tab.t2Dlen + 2) % 1024)
    (ready' : (next w s).tab.tocReady = true) :
    (next w s).tab.toc2Len = ((next w s).tab.t2Dlen + 2) % 1024 := by
  have unready := b.unready
  revert ready'
  cases rst : w.rst with
  | true => simp [next, rst, reset]
  | false =>
    simp only [next, rst, Bool.false_eq_true, if_false]
    cases mst : s.mst
    case t2Sess =>
      have low : s.tab.tocReady = false := unready (by rw [mst]; rfl)
      simp only [stepT2Sess, putT2]
      split
      case h_12 => exact fun _ => rfl
      all_goals simp [low]
    case hdrRd =>
      have low : s.tab.tocReady = false := unready (by rw [mst]; rfl)
      simp only [stepHdrRd]
      repeat' split
      all_goals simp [low]
    case idle =>
      simp only [stepIdle, acquire]
      repeat' split
      all_goals first | exact here | simp
    all_goals
      simp only [stepAcqReq, stepAcqWait, stepEmitH, stepLoDiv, stepDiv, stepEmitLo, stepTrkRd,
        stepTrackRead, stepTrkDiv, stepEmitTrk, stepBuilt, stepT43Hdr, stepT43Rd, stepT43Div,
        stepT43Emit, stepT2Hdr, stepT2Rd, stepT2Div, stepT2Trk, stepT2A2, stepT2A01, stepCmd,
        stepCtrkRd, stepScanGo, stepApply, stepRefScan, stepRefDiva, stepRefDivr, putT2]
      repeat' split
      all_goals exact here

/-- The length of the format-0 table, from its header on. -/
def sized (s : Main) : Prop :=
  match s.mst with
  | .acqReq | .acqWait | .hdrRd | .emitH | .loDiv | .emitLo | .trkRd | .trkDiv | .emitTrk
  | .built | .t43Hdr => True
  | _ => live s → s.tab.toc43Len = len43 s

theorem next_sized (b : InTable s) (here : sized s) : sized (next w s) := by
  cases rst : w.rst with
  | true => simp [next, rst, reset, sized, live, MState.acquiring]
  | false =>
    have ready := b.unready
    have loop := (next_advances (w := w) b).inTable.loop
    by_cases late : s.mst = .hdrRd ∨ s.mst = .t43Hdr
    · -- the length is set on the way to the first row
      rcases late with mst | mst
      · simp only [next, rst, mst, stepHdrRd, Bool.false_eq_true, if_false]
        repeat' split
        all_goals simp [sized, mst]
      · revert loop
        simp only [next, rst, mst, stepT43Hdr, Bool.false_eq_true, if_false]
        split
        case h_4 => exact fun loop _ => loop.1
        all_goals simp [sized, mst]
    · simp only [not_or] at late
      obtain ⟨n, -⟩ := next_header rst late.1
      have same := next_toc43Len rst late.2
      have kept (had : live s → s.tab.toc43Len = len43 s) (away : (next w s).mst ≠ .acqReq)
          (alive : live (next w s)) : (next w s).tab.toc43Len = len43 (next w s) := by
        rw [same, had (next_live rst away alive)]
        simp [len43, Tables.t43Nreal, n]
      cases mst : s.mst
      case hdrRd => exact absurd mst late.1
      case t43Hdr => exact absurd mst late.2
      case acqReq | acqWait | emitH | loDiv | emitLo | trkRd | trkDiv | emitTrk | built =>
        have unready : s.tab.tocReady = false := ready (by rw [mst]; rfl)
        simp only [next, rst, mst, stepAcqReq, stepAcqWait, stepEmitH, stepLoDiv, stepDiv,
          stepEmitLo, stepTrkRd, stepTrackRead, stepTrkDiv, stepEmitTrk, stepBuilt,
          Bool.false_eq_true, if_false]
        repeat' split
        all_goals simp [sized, live, MState.acquiring, mst, unready]
      all_goals
        simp only [sized, mst] at here
        unfold sized
        split
        all_goals first
          | trivial
          | exact kept here (by simp_all)

end Main

namespace Engine

/-- The disc of the header registers and the blob memory. -/
def disc (e : Engine) : Disc where
  valid := e.main.tab.tocValid
  nTracks := e.main.tab.nTracks
  leadout := e.main.tab.leadoutLba
  word := e.blob

/-- The tables hold what the blob says, as far as they have been built. -/
structure Contents (e : Engine) : Prop where
  inTable : e.main.InTable
  few : e.main.tab.nTracks ≤ 99
  cap : e.main.blob.blobCap = true → e.main.mst = .acqWait
  loaded : Main.loaded e.disc e.main e.blobQ
  sized : e.main.sized
  quiet : e.main.tab.tocReady = true →
    e.main.tab.resp.we = false ∧ e.main.tab.t43.we = false
  session : e.main.tab.tocReady = true → e.main.tab.t2.we = true → 496 ≤ e.main.tab.t2.wa
  toc2Len : e.main.tab.tocReady = true → e.main.tab.toc2Len = (e.main.tab.t2Dlen + 2) % 1024
  held : e.main.live → ∀ x v, e.main.assigned x → e.disc.holds x = some v → e.value x = v.toNat

variable {w : EngineIn} {e : Engine}

theorem Contents.describes (c : Contents e) : e.main.Describes e.disc :=
  ⟨rfl, rfl, rfl, c.few, c.inTable.tracks⟩

/-- The disc stays outside the states that acquire a new one. -/
theorem Contents.disc_step (c : Contents e) (rst : w.rst = false) (hdr : e.main.mst ≠ .hdrRd)
    (wait : e.main.mst ≠ .acqWait) (away' : (e.step w).main.mst ≠ .acqReq) :
    (e.step w).disc = e.disc := by
  have low : e.main.blob.blobCap = false := by
    by_contra up
    exact wait (c.cap (by simpa using up))
  obtain ⟨n, l⟩ := Main.next_header (w := mainIn w e) rst hdr
  have v := Main.next_valid (w := mainIn w e) rst hdr away'
  simp [disc, n, l, v, Engine.step, low]

theorem value_written {x : Item} {v : Byte} (now : e.main.assigns (e.step w).main x)
    (wd : ((e.step w).main.port x).wd = v) (cell : ∃ d : Disc, d.holds x = some v) :
    (e.step w).value x = v.toNat := by
  obtain ⟨d, cell⟩ := cell
  cases x with
  | resp a | t43 a | t2 a =>
    obtain ⟨we, wa⟩ := now
    subst wd wa
    simp [value, PlanePort.land, we, Main.port]
  | nTracks | leadoutLow | leadoutHigh | discAudio => simp [Disc.holds] at cell

/-- Nothing is assigned while the blob is being fetched or its header read. -/
theorem assigned_cell {m : Main} {d : Disc} {x : Item} {v : Byte} (has : m.assigned x)
    (cell : d.holds x = some v) : m.mst ≠ .hdrRd ∧ m.mst ≠ .acqWait ∧ m.mst ≠ .acqReq := by
  cases x with
  | resp a | t43 a | t2 a =>
    refine ⟨?_, ?_, ?_⟩ <;> intro mst <;>
      simp [Main.assigned, Main.respTo, Main.t43To, Main.t2Done, mst] at has
  | nTracks | leadoutLow | leadoutHigh | discAudio => simp [Disc.holds] at cell

/-- No table is written while a blob is fetched or its header read, and the
registers of the build are free. -/
theorem fetching_step (rst : w.rst = false) (fetch : e.main.mst = .hdrRd ∨ e.main.mst = .acqWait) :
    (∀ d q, Main.loaded d (e.step w).main q) ∧
      ∀ (d : Disc) x v, d.holds x = some v → ¬ e.main.assigns (e.step w).main x := by
  have main : (e.step w).main = e.main.next (mainIn w e) := rfl
  have rst : (mainIn w e).rst = false := rst
  have quiet : (e.step w).main.tab.resp.we = false ∧ (e.step w).main.tab.t43.we = false ∧
      (e.step w).main.tab.t2.we = false := by
    rw [main]
    simp only [Main.next, rst, Bool.false_eq_true, if_false]
    rcases fetch with mst | mst <;> simp only [mst, Main.stepHdrRd, Main.stepAcqWait]
    all_goals
      repeat' split
      all_goals exact ⟨rfl, rfl, rfl⟩
  constructor
  · intro d q
    rw [main]
    simp only [Main.next, rst, Bool.false_eq_true, if_false]
    rcases fetch with mst | mst <;> simp only [mst, Main.stepHdrRd, Main.stepAcqWait]
    all_goals
      repeat' split
      all_goals simp [Main.loaded, mst]
  · intro d x v cell now
    cases x with
    | resp a => simpa [quiet.1] using now.1
    | t43 a => simpa [quiet.2.1] using now.1
    | t2 a => simpa [quiet.2.2] using now.1
    | nTracks | leadoutLow | leadoutHigh | discAudio => simp [Disc.holds] at cell

theorem Contents.step (c : Contents e) (w : EngineIn) : Contents (e.step w) := by
  have main : (e.step w).main = e.main.next (mainIn w e) := rfl
  have move := Main.next_advances (w := mainIn w e) c.inTable
  have next := Main.next_loaded (w := mainIn w e) c.inTable (fun _ => c.describes) rfl c.loaded
  cases rst : w.rst with
  | true =>
    have reset : (e.step w).main = e.main.reset := by
      have : (mainIn w e).rst = true := rst
      rw [main, Main.next, if_pos this]
    refine ⟨move.inTable, Main.next_few c.few, Main.next_cap c.cap, ?_,
      Main.next_sized c.inTable c.sized, Main.next_quiet c.inTable, Main.next_session c.inTable,
      Main.next_toc2Len c.inTable c.toc2Len, ?_⟩
    · simp [reset, Main.reset, Main.loaded]
    · intro alive
      simp [reset, Main.live, Main.reset, MState.acquiring] at alive
  | false =>
    refine ⟨move.inTable, Main.next_few c.few, Main.next_cap c.cap, ?_,
      Main.next_sized c.inTable c.sized, Main.next_quiet c.inTable, Main.next_session c.inTable,
      Main.next_toc2Len c.inTable c.toc2Len, ?_⟩
    · by_cases fetch : e.main.mst = .hdrRd ∨ e.main.mst = .acqWait
      · exact (fetching_step rst fetch).1 _ _
      · by_cases away : (e.step w).main.mst = .acqReq
        · simp [Main.loaded, away]
        · simp only [not_or] at fetch
          rw [c.disc_step rst fetch.1 fetch.2 away]
          exact next
    · intro alive x v has cell
      have away := (assigned_cell has cell).2.2
      by_cases now : e.main.assigns (e.step w).main x
      · have fetch : ¬ (e.main.mst = .hdrRd ∨ e.main.mst = .acqWait) :=
          fun fetch => (fetching_step rst fetch).2 _ _ _ cell now
        simp only [not_or] at fetch
        rw [c.disc_step rst fetch.1 fetch.2 away] at cell
        exact value_written now (Main.next_byte rst c.inTable c.describes c.loaded now cell)
          ⟨_, cell⟩
      · rcases move.items x alive has with ⟨before, had⟩ | assigned
        · obtain ⟨hdr, wait, -⟩ := assigned_cell had cell
          rw [c.disc_step rst hdr wait away] at cell
          rw [value_kept rst now]
          exact c.held before x v had cell
        · exact absurd assigned now

/-- The header registers are those of the blob in memory. -/
theorem header_step {blocks : Nat} (c : Contents e)
    (here : Main.header e.blob blocks e.main e.blobQ) (w : EngineIn) :
    Main.header (e.step w).blob (if e.main.readsSize (mainIn w e) then w.imgBlocks else blocks)
      (e.step w).main (e.step w).blobQ := by
  have main : (e.step w).main = e.main.next (mainIn w e) := rfl
  cases rst : w.rst with
  | true =>
    have reset : (e.step w).main = e.main.reset := by
      have : (mainIn w e).rst = true := rst
      rw [main, Main.next, if_pos this]
    simp [reset, Main.header, Main.reset, Main.live, MState.acquiring]
  | false =>
    have rst : (mainIn w e).rst = false := rst
    by_cases hdr : e.main.mst = .hdrRd
    · have low : e.main.blob.blobCap = false := by
        by_contra up
        have := c.cap (by simpa using up)
        simp [hdr] at this
      have blob : (e.step w).blob = e.blob := by simp [Engine.step, low]
      simp only [Main.header, hdr] at here
      rw [blob, main]
      simp only [Main.next, rst, hdr, Bool.false_eq_true, if_false]
      refine Main.stepHdrRd_header rfl here hdr fun last => ?_
      exact if_pos (by simp [Main.readsSize, rst, hdr, last])
    · have unread : e.main.readsSize (mainIn w e) = false := by simp [Main.readsSize, hdr]
      rw [unread, if_neg (by decide)]
      by_cases wait : e.main.mst = .acqWait
      · have unready := c.inTable.unready (by rw [wait]; rfl)
        rw [main]
        simp only [Main.next, rst, wait, Main.stepAcqWait, Bool.false_eq_true, if_false]
        repeat' split
        all_goals
          simp [Main.header, Main.headerReading, Main.live, MState.acquiring, wait, unready]
      · by_cases away : (e.step w).main.mst = .acqReq
        · simp [Main.header, away]
        · have disc := c.disc_step rst hdr wait away
          obtain ⟨v, n, l, blob⟩ := Disc.mk.inj disc
          have back := Main.next_live (w := mainIn w e) rst away
          have reads := Main.next_reads (w := mainIn w e) rst hdr wait
          rw [← main] at back reads
          have built (had : e.main.live → Main.HeaderOf e.blob blocks e.main.tab)
              (alive : (e.step w).main.live) :
              Main.HeaderOf (e.step w).blob blocks (e.step w).main.tab := by
            have had := had (back alive)
            simp only [Main.HeaderOf] at had ⊢
            rwa [v, n, l, blob]
          by_cases req : e.main.mst = .acqReq
          · have unready := c.inTable.unready (by rw [req]; rfl)
            rw [main]
            simp only [Main.next, rst, req, Main.stepAcqReq, Bool.false_eq_true, if_false]
            repeat' split
            all_goals simp [Main.header, Main.live, MState.acquiring, req, unready]
          · have had : e.main.live → Main.HeaderOf e.blob blocks e.main.tab := by
              cases mst : e.main.mst <;> simp only [Main.header, mst] at here <;>
                first | exact here | simp_all
            unfold Main.header
            split
            · trivial
            · trivial
            · contradiction
            · exact built had

/-- The engine after any inputs since its configuration. -/
inductive Reached : Engine → Prop where
  | powerUp : Reached {}
  | step {e : Engine} (before : Reached e) (w : EngineIn) : Reached (e.step w)

theorem reached_after (ins : Nat → EngineIn) (t : Nat) : Reached (after ins t) := by
  induction t with
  | zero => exact .powerUp
  | succ t ih => exact ih.step (ins t)

theorem Reached.contents (reached : Reached e) : Contents e := by
  induction reached with
  | powerUp =>
    have dead : ¬ Main.live ({} : Main) := by simp [Main.live, MState.acquiring]
    exact ⟨⟨Nat.le_refl 1, fun _ => rfl, trivial⟩, by decide, by simp, trivial,
      fun alive => absurd alive dead, by simp, by simp, by simp, fun alive => absurd alive dead⟩
  | step _ w ih => exact ih.step w

/-- The engine after any inputs since its configuration, with the size of the
image that `M_HDR_RD` read last. -/
inductive Sampled : Engine → Nat → Prop where
  | powerUp : Sampled {} 0
  | step {e : Engine} {blocks : Nat} (before : Sampled e blocks) (w : EngineIn) :
    Sampled (e.step w) (if e.main.readsSize (mainIn w e) then w.imgBlocks else blocks)

theorem Sampled.reached {blocks : Nat} (sampled : Sampled e blocks) : Reached e := by
  induction sampled with
  | powerUp => exact .powerUp
  | step _ w ih => exact ih.step w

theorem Reached.sampled (reached : Reached e) : ∃ blocks, Sampled e blocks := by
  induction reached with
  | powerUp => exact ⟨0, .powerUp⟩
  | step _ w ih =>
    obtain ⟨blocks, sampled⟩ := ih
    exact ⟨_, sampled.step w⟩

theorem Sampled.header {blocks : Nat} (sampled : Sampled e blocks) :
    Main.header e.blob blocks e.main e.blobQ := by
  induction sampled with
  | powerUp =>
    have dead : ¬ Main.live ({} : Main) := by simp [Main.live, MState.acquiring]
    exact fun alive => absurd alive dead
  | step before w ih => exact header_step before.reached.contents ih w

/-- The header registers of a ready TOC. -/
theorem Sampled.headerOf {blocks : Nat} (sampled : Sampled e blocks)
    (ready : e.main.tab.tocReady = true) : Main.HeaderOf e.blob blocks e.main.tab := by
  have header := sampled.header
  have unready := sampled.reached.contents.inTable.unready
  have alive : e.main.live := .inr ready
  cases mst : e.main.mst
  case acqReq | acqWait | hdrRd => simp [ready, mst, MState.acquiring] at unready
  all_goals
    simp only [Main.header, mst] at header
    exact header alive

/-- What a ready TOC consists of. -/
structure Toc (e : Engine) : Prop where
  few : e.disc.nTracks ≤ 99
  some : 1 ≤ e.disc.nTracks
  resp : ∀ a < 404, e.resp a = e.disc.respByte a
  t43Len : e.main.tab.toc43Len = 8 * (e.disc.nReal + 1) + 4
  t43 : ∀ a < 8 * (e.disc.nReal + 1) + 4, e.t43 a = e.disc.t43Byte a
  t2 : ∀ a, 34 ≤ a → a < 37 + 11 * e.disc.nFull →
    e.t2 a = e.disc.t2Byte a

/-- In every run, a TOC that is ready is that of the blob in memory. -/
theorem Reached.toc (reached : Reached e) (ready : e.main.tab.tocReady = true) : Toc e := by
  have c := reached.contents
  have rest : e.main.mst.acquiring = false := by
    by_contra acq
    have := c.inTable.unready (by simpa using acq)
    simp [ready] at this
  have alive : e.main.live := .inr ready
  obtain ⟨resp, t43⟩ := c.quiet ready
  have held (x : Item) (v : Byte) (has : e.main.tab.has x) (cell : e.disc.holds x = some v) :
      e.value x = v.toNat :=
    c.held alive x v ((Main.assigned_rest rest x).mpr has) cell
  have len : e.main.tab.toc43Len = 8 * (e.disc.nReal + 1) + 4 := by
    have sized := c.sized
    cases mst : e.main.mst <;> simp [mst, MState.acquiring] at rest
    all_goals
      simp only [Main.sized, mst] at sized
      rw [sized alive, Main.len43]
      exact Nat.add_comm _ _
  refine ⟨c.few, c.inTable.tracks, fun a low => ?_, len, fun a low => ?_, fun a low high => ?_⟩
  · refine BitVec.eq_of_toNat_eq ?_
    simpa [value, PlanePort.land, resp] using held (.resp a) _ low rfl
  · refine BitVec.eq_of_toNat_eq ?_
    have has : e.main.tab.has (.t43 a) := by simpa [Tables.has, len] using low
    simpa [value, PlanePort.land, t43] using held (.t43 a) _ has rfl
  · refine BitVec.eq_of_toNat_eq ?_
    have few : e.disc.nFull ≤ 41 := Nat.min_le_right _ _
    have has : e.main.tab.has (.t2 a) := by
      have length : e.main.tab.t2Dlen = 11 * (e.disc.nFull + 3) + 2 := Main.t2Dlen_eq _
      have whole := c.toc2Len ready
      simp only [Tables.has]
      omega
    have there : e.value (.t2 a) = (e.t2 a).toNat := by
      simp only [value, PlanePort.land]
      split
      · rename_i up
        have := c.session ready up
        rw [Function.update_of_ne (by omega)]
      · rfl
    rw [← there]
    exact held (.t2 a) _ has (by simp [Disc.holds, low, high])

end Engine

end CdAudio

end MacIIvi
