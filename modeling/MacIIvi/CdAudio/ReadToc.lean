import MacIIvi.CdAudio.RoundTrip
import MacIIvi.Scsi.ServeLanes
import Mathlib.Data.List.GetD

/-!
# READ TOC as the target serves it

The tables of the engine behind the address transforms of the target: format 0
of 0x43 with its start track, and the track mode of the vendor command 0xC1.
-/

namespace MacIIvi

namespace CdAudio

/-! ### The engine on the lanes of the target -/

namespace Planes

variable {mem : Nat → Byte}

/-- The planes that hold the bytes of a flat memory. -/
def ofMem (mem : Nat → Byte) : Planes where
  even k := mem (2 * k)
  odd k := mem (2 * k + 1)

@[simp] theorem byte_ofMem (a : Nat) : (ofMem mem).byte a = mem a := by
  unfold byte ofMem
  split
  · exact congrArg mem (by omega)
  · exact congrArg mem (by omega)

end Planes

/-- `ast_code` -/
def PState.astCode : PState → Byte
  | .play => 0x00
  | .pause => 0x01
  | .ended => 0x03
  | .idle => 0x05

/-- The ports of the engine the lanes read. -/
def Engine.caServe (e : Engine) : CaServe where
  astCode := e.main.play.pstate.astCode
  curCtrl := e.main.pos.curCtrl
  curTrk := BitVec.ofNat 8 e.main.pos.curTrk
  absM := BitVec.ofNat 8 e.main.pos.absM
  absS := BitVec.ofNat 8 e.main.pos.absS
  absF := BitVec.ofNat 8 e.main.pos.absF
  relM := BitVec.ofNat 8 e.main.pos.relM
  relS := BitVec.ofNat 8 e.main.pos.relS
  relF := BitVec.ofNat 8 e.main.pos.relF
  tocReady := e.main.tab.tocReady
  toc := .ofMem e.resp
  t43 := .ofMem e.t43
  t43Len := BitVec.ofNat 10 e.main.tab.toc43Len
  t2 := .ofMem e.t2
  t2Len := BitVec.ofNat 10 e.main.tab.toc2Len
  discAudio := e.main.tab.discAudio

/-! ### Format 0 of 0x43 -/

namespace Disc

variable (d : Disc)

/-- Minutes, seconds and frames of a block with the lead-in, in binary. -/
def msfBytes (lba : Nat) : List Byte :=
  [BitVec.ofNat 8 (msf lba 150).m, BitVec.ofNat 8 (msf lba 150).s,
    BitVec.ofNat 8 ((msf lba 150).v % 256)]

def descriptor (ctrl track : Byte) (lba : Nat) : List Byte :=
  [0x00, ctrl, track, 0x00, 0x00] ++ msfBytes lba

/-- The descriptor of track `k`. -/
def trackRow (k : Nat) : List Byte :=
  descriptor (d.ctrl (k - 1)) (BitVec.ofNat 8 k) (d.start (k - 1))

def leadoutRow : List Byte := descriptor (d.ctrl (d.nTracks - 1)) 0xaa d.leadout

/-- The descriptors from track `start` on, then the lead-out. -/
def rowsFrom (start : Nat) : List (List Byte) :=
  (if start = 0xaa then []
    else (List.range' (max start 1) (d.nTracks + 1 - max start 1)).map d.trackRow) ++
      [d.leadoutRow]

/-- The answer to READ TOC format 0: length, first and last track, descriptors. -/
def answer (start : Nat) : List Byte :=
  [BitVec.ofNat 8 ((8 * (d.rowsFrom start).length + 2) / 256),
    BitVec.ofNat 8 (8 * (d.rowsFrom start).length + 2), 0x01, BitVec.ofNat 8 d.nTracks] ++
      (d.rowsFrom start).flatten

variable {d}

theorem msfBytes_small {lba : Nat} (small : lba + 150 < 450000) :
    msfBytes lba =
      [BitVec.ofNat 8 ((lba + 150) / 4500), BitVec.ofNat 8 ((lba + 150) / 75 % 60),
        BitVec.ofNat 8 ((lba + 150) % 75)] := by
  have byte : (lba + 150) % 75 % 256 = (lba + 150) % 75 := Nat.mod_eq_of_lt (by omega)
  simp only [msfBytes, msf_small small, byte]

/-- The rows of the table left out before `start`. -/
def skipped (d : Disc) (start : Nat) : Nat := if start = 0xaa then d.nTracks else max start 1 - 1

theorem rowsFrom_length {start : Nat} (few : d.nTracks ≤ 60) (some : 1 ≤ d.nTracks)
    (asked : start ≤ d.nTracks ∨ start = 0xaa) :
    (d.rowsFrom start).length = d.nTracks + 1 - d.skipped start := by
  unfold rowsFrom skipped
  split
  · simp
  · simp
    omega

/-- The rows are those of the table, without the skipped ones. -/
theorem rowsFrom_get {start r : Nat} (few : d.nTracks ≤ 60) (some : 1 ≤ d.nTracks)
    (asked : start ≤ d.nTracks ∨ start = 0xaa) (inside : r < (d.rowsFrom start).length) :
    (d.rowsFrom start)[r] =
      if d.skipped start + r < d.nTracks then d.trackRow (d.skipped start + r + 1)
      else d.leadoutRow := by
  have length := rowsFrom_length few some asked
  rw [length] at inside
  unfold rowsFrom skipped at *
  split at inside
  · rename_i whole
    have first : r = 0 := by omega
    subst first
    simp [whole]
  · rename_i part
    simp only [part, if_false]
    by_cases track : max start 1 - 1 + r < d.nTracks
    · rw [List.getElem_append_left (by simp; omega), if_pos track]
      simp only [List.getElem_map, List.getElem_range', one_mul]
      congr 1
      omega
    · have last : r = d.nTracks + 1 - max start 1 := by omega
      rw [List.getElem_append_right (by simp; omega), if_neg track]
      simp

/-- Byte `j` of a descriptor is that of the table. -/
theorem descriptor_getD (ctrl track : Byte) (lba : Nat) {j : Nat} (low : j < 8) :
    (descriptor ctrl track lba).getD j 0 = t43Row ctrl track (msf lba 150) j := by
  interval_cases j <;> rfl

theorem rowsFrom_each {start : Nat} : ∀ row ∈ d.rowsFrom start, row.length = 8 := by
  intro row mem
  simp only [rowsFrom, List.mem_append, List.mem_singleton] at mem
  rcases mem with track | rfl
  · split at track
    · simp at track
    · obtain ⟨k, -, rfl⟩ := List.mem_map.mp track
      rfl
  · rfl

/-- A byte of rows of one length. -/
theorem flatten_getD {rows : List (List Byte)} {w r j : Nat} (each : ∀ row ∈ rows, row.length = w)
    (low : j < w) : rows.flatten.getD (w * r + j) 0 = (rows.getD r []).getD j 0 := by
  induction rows generalizing r with
  | nil => simp
  | cons row rows ih =>
    have here : row.length = w := each row (by simp)
    have rest : ∀ x ∈ rows, x.length = w := fun x mem => each x (by simp [mem])
    simp only [List.flatten_cons, List.getD_eq_getElem?_getD] at ih ⊢
    cases r with
    | zero => simp [List.getElem?_append_left (by omega : j < row.length)]
    | succ r =>
      have later : w * (r + 1) + j - row.length = w * r + j := by
        rw [here, Nat.mul_succ]
        omega
      have past : row.length ≤ w * (r + 1) + j := by
        rw [here, Nat.mul_succ]
        omega
      rw [List.getElem?_append_right past, later, ih rest]
      simp

/-- A list cut or padded to length `n`, entry by entry. -/
theorem takeD_eq_map (l : List Byte) (n : Nat) : l.takeD n 0 = (List.range n).map (l.getD · 0) := by
  induction n generalizing l with
  | zero => rfl
  | succ n ih =>
    rw [List.takeD_succ, ih, List.range_succ_eq_map, List.map_cons, List.map_map]
    cases l with
    | nil => rfl
    | cons b l => rfl

/-- The bytes of the answer are those of the table, without the skipped rows. -/
theorem answer_getD {start n : Nat} (few : d.nTracks ≤ 60) (some : 1 ≤ d.nTracks)
    (asked : start ≤ d.nTracks ∨ start = 0xaa) (head : 4 ≤ n) :
    (d.answer start).getD n 0 =
      if n < 8 * (d.nTracks + 1 - d.skipped start) + 4 then d.t43Byte (8 * d.skipped start + n)
      else 0x00 := by
  have length := rowsFrom_length few some asked
  have body : (d.answer start).getD n 0 =
      ((d.rowsFrom start).getD ((n - 4) / 8) []).getD ((n - 4) % 8) 0 := by
    rw [← flatten_getD rowsFrom_each (Nat.mod_lt _ (by omega)), Nat.div_add_mod]
    simp only [answer, List.getD_eq_getElem?_getD]
    rw [List.getElem?_append_right (by simpa using head)]
    rfl
  rw [body]
  split
  · rename_i inside
    have row : (n - 4) / 8 < (d.rowsFrom start).length := by omega
    have index : (8 * d.skipped start + n - 4) / 8 = d.skipped start + (n - 4) / 8 := by
      rw [Nat.add_sub_assoc head, Nat.mul_add_div (by omega)]
    have byte : (8 * d.skipped start + n - 4) % 8 = (n - 4) % 8 := by omega
    have real : d.nReal = d.nTracks := Nat.min_eq_left few
    have cell : d.t43Byte (8 * d.skipped start + n) =
        d.t43Cell (d.skipped start + (n - 4) / 8) ((n - 4) % 8) := by
      unfold t43Byte
      rw [if_neg (by omega), index, byte]
    have low : (n - 4) % 8 < 8 := Nat.mod_lt _ (by omega)
    rw [List.getD_eq_getElem _ _ row, rowsFrom_get few some asked row, cell, t43Cell, real]
    by_cases track : d.skipped start + (n - 4) / 8 < d.nTracks
    · rw [if_pos track, if_pos track]
      exact descriptor_getD _ _ _ low
    · rw [if_neg track, if_neg track]
      exact descriptor_getD _ _ _ low
  · rename_i outside
    have past : (d.rowsFrom start).getD ((n - 4) / 8) [] = [] :=
      List.getD_eq_default _ _ (by omega)
    rw [past]
    rfl

end Disc

/-- A target with the engine `e` on its lanes serves READ TOC format 0. -/
structure ReadToc43 (P : Params) (e : Engine) (s : Serve) : Prop where
  wired : s.ca = e.caServe
  phase : s.tgt.phase = .dataOut
  command : s.cmdCdT43f0 P = true

namespace ReadToc43

variable {P : Params} {e : Engine} {s : Serve} (on : ReadToc43 P e s)

include on

theorem opcode : P.cdrom = true ∧ s.tgt.cmd 0 = 0x43 := by
  have command := on.command
  simp only [Serve.cmdCdT43f0, Cdb.cmdCdToc43, Cdb.opCode, Bool.and_eq_true, beq_iff_eq] at command
  exact command.1.1

theorem source : s.source P = .cdToc43 := by
  obtain ⟨cdrom, op⟩ := on.opcode
  have command := on.command
  have others : s.cmdCdT43f2 P = false ∧ s.cmdCdT43f1 P = false := by
    simp only [Serve.cmdCdT43f0, Bool.and_eq_true, Bool.not_eq_true'] at command
    exact ⟨command.1.2, command.2⟩
  simp [Serve.source, Cdb.cmdRead, Cdb.cmdRead6, Cdb.cmdRead10, Cdb.cmdInquiry,
    Cdb.cmdReadCapacity, Cdb.cmdModeSense, Cdb.cmdRequestSense, Cdb.cmdCdToc, Cdb.opCode, op,
    others, command]

theorem dataLen : s.tgt.dataLen P = min s.tgt.cmd.tlen10 512 := by
  obtain ⟨cdrom, op⟩ := on.opcode
  simp [Target.dataLen, Cdb.dataLen, Cdb.cmdReadCapacity, Cdb.cmdRead, Cdb.cmdRead6,
    Cdb.cmdRead10, Cdb.cmdWrite, Cdb.cmdWrite6, Cdb.cmdWrite10, Cdb.cmdCdToc, Cdb.cmdCdToc43,
    Cdb.opCode, op, cdrom, Cdb.allocCap]

/-- The byte at count `n`, before the table is looked at. -/
theorem single_eq (ready : e.main.tab.tocReady = true) (n : Nat) :
    s.single P n = s.t43HdrFix n (e.t43 (s.at_ n).caT43Addr) := by
  have low : (s.at_ n).caT43Addr < 512 := by
    unfold Serve.caT43Addr
    split <;> omega
  have wired : (s.at_ n).ca = e.caServe := on.wired
  rw [Serve.single_eq on.phase, Serve.lane, Serve.source_at, on.source]
  simp only [Serve.cdToc43Lane]
  rw [Planes.q_eq low (by omega), wired, Nat.add_zero, Nat.mod_eq_of_lt low]
  simp only [Engine.caServe, ready, if_true, Planes.byte_ofMem]
  rfl

/-- The table is as long as the disc says. -/
theorem nreal (toc : Engine.Toc e) (few : e.disc.nTracks ≤ 60) :
    s.caT43Nreal = e.disc.nTracks := by
  have real : e.disc.nReal = e.disc.nTracks := Nat.min_eq_left few
  have some := toc.some
  have len : s.ca.t43Len.toNat = 8 * (e.disc.nTracks + 1) + 4 := by
    rw [on.wired]
    simp only [Engine.caServe, BitVec.toNat_ofNat, toc.t43Len, real]
    omega
  unfold Serve.caT43Nreal
  rw [len]
  split <;> omega

theorem soff (toc : Engine.Toc e) (few : e.disc.nTracks ≤ 60)
    (asked : s.caT43Start ≤ e.disc.nTracks ∨ s.caT43Start = 0xaa) :
    s.caT43Soff = e.disc.skipped s.caT43Start := by
  have rows := on.nreal toc few
  unfold Serve.caT43Soff Disc.skipped
  rw [rows]
  split
  · split <;> omega
  · split
    · rfl
    · split <;> omega

/-- Every byte of the answer, and zeros after it. -/
theorem single_answer (toc : Engine.Toc e) (ready : e.main.tab.tocReady = true)
    (few : e.disc.nTracks ≤ 60) (asked : s.caT43Start ≤ e.disc.nTracks ∨ s.caT43Start = 0xaa)
    {n : Nat} (low : n < 512) : s.single P n = (e.disc.answer s.caT43Start).getD n 0 := by
  have some := toc.some
  have real : e.disc.nReal = e.disc.nTracks := Nat.min_eq_left few
  have rows := on.nreal toc few
  have off := on.soff toc few asked
  have fits : e.disc.skipped s.caT43Start ≤ e.disc.nTracks := by
    unfold Disc.skipped
    split <;> omega
  have length := Disc.rowsFrom_length few some asked
  have flen : s.caT43Flen = 8 * (e.disc.rowsFrom s.caT43Start).length + 2 := by
    unfold Serve.caT43Flen
    rw [rows, off, length]
    omega
  rw [on.single_eq ready]
  unfold Serve.t43HdrFix Serve.caT43Tot
  rw [flen]
  by_cases head : n < 4
  · have plain : (s.at_ n).caT43Addr = n := if_pos head
    have table := toc.t43 n (by omega)
    rw [if_neg (by omega), plain, table]
    interval_cases n
    all_goals simp [Disc.answer, Disc.t43Byte]
  · rw [Disc.answer_getD few some asked (by omega), length]
    have address : (s.at_ n).caT43Addr = (8 * e.disc.skipped s.caT43Start + n) % 512 := by
      have same : (s.at_ n).caT43Soff = s.caT43Soff := rfl
      have count : (s.at_ n).tgt.dataCnt = n := rfl
      unfold Serve.caT43Addr
      rw [same, count, off, if_neg head]
      omega
    by_cases inside : n < 8 * (e.disc.nTracks + 1 - e.disc.skipped s.caT43Start) + 4
    · have wrap : (8 * e.disc.skipped s.caT43Start + n) % 512 =
          8 * e.disc.skipped s.caT43Start + n := Nat.mod_eq_of_lt (by omega)
      rw [if_neg (by omega), if_neg (by omega), if_neg (by omega), if_pos inside, address, wrap]
      exact toc.t43 _ (by rw [real]; omega)
    · rw [if_pos (by omega), if_neg inside]

/-- In every run, the header registers of a ready TOC are those of the blob, or of
the size of the image when the header was read; and with at most 60 tracks the bytes
served for READ TOC format 0 are the answer of the disc, cut or padded with zeros to
the allocation. -/
theorem serves_answer {blocks : Nat} (sampled : Engine.Sampled e blocks)
    (ready : e.main.tab.tocReady = true) (few : e.disc.nTracks ≤ 60)
    (asked : s.caT43Start ≤ e.disc.nTracks ∨ s.caT43Start = 0xaa)
    (alloc : s.tgt.cmd.tlen10 ≤ 512) :
    Main.HeaderOf e.blob blocks e.main.tab ∧ s.tgt.dataLen P = s.tgt.cmd.tlen10 ∧
      (List.range (s.tgt.dataLen P)).map (s.single P) =
        (e.disc.answer s.caT43Start).takeD s.tgt.cmd.tlen10 0 ∧
      ∀ lba, lba + 150 < 450000 →
        Disc.msfBytes lba =
          [BitVec.ofNat 8 ((lba + 150) / 4500), BitVec.ofNat 8 ((lba + 150) / 75 % 60),
            BitVec.ofNat 8 ((lba + 150) % 75)] := by
  have toc := sampled.reached.toc ready
  have length : s.tgt.dataLen P = s.tgt.cmd.tlen10 := by
    rw [on.dataLen]
    exact Nat.min_eq_left alloc
  refine ⟨sampled.headerOf ready, length, ?_, fun lba small => Disc.msfBytes_small small⟩
  rw [length, Disc.takeD_eq_map]
  refine List.map_congr_left fun n inside => ?_
  have low : n < s.tgt.cmd.tlen10 := List.mem_range.mp inside
  exact on.single_answer toc ready few asked (by omega)

end ReadToc43

/-! ### The track mode of 0xC1 -/

end CdAudio

/-- The allocation of an 0xC1 command is latched before a byte of it is served. -/
theorem Target.Reached.tocAlloc {P : Params} {s : Target} (reached : Target.Reached P s)
    (idle : s.phase ≠ .idle) (cmdIn : s.phase ≠ .cmdIn) (toc : s.cmd.cmdCdToc P = true) :
    s.tlen = s.cmd.tlen10 := by
  induction reached with
  | powerUp => exact absurd rfl idle
  | @step s i _ ih =>
    simp only [Target.step_phase, Target.step_cmd, Target.step_tlen] at idle cmdIn toc ⊢
    have rst : i.rst = false := by
      by_contra up
      simp [Target.phaseNext, up] at idle
    by_cases was : s.phase = .cmdIn
    · have cpl : Target.cmdCpl P s = true := by
        by_contra none
        simp [Target.phaseNext, rst, was, none] at cmdIn
      have whole : s.cmd.cmdCpl P s.cmdCnt = true := by
        simp only [Target.cmdCpl, Bool.and_eq_true] at cpl
        exact cpl.2
      have length := Cdb.cmdCpl_length whole
      have late : s.cmdCnt ≠ 0 := by
        rw [length]
        split
        · omega
        · split <;> omega
      simp only [Cdb.cmdCdToc, Cdb.opCode, Bool.and_eq_true, beq_iff_eq] at toc
      have op : s.cmd 0 = 0xc1 := by
        rw [← toc.2, Target.cmdNext]
        split
        · rw [Function.update_of_ne (Ne.symm late)]
        · rfl
      have ten : s.cmdCnt = 10 := by simpa [Cdb.cmdGroup, op] using length
      have kept : Target.cmdNext i s = s.cmd := by simp [Target.cmdNext, ten]
      simp [kept, Target.tlenNext, cpl, Cdb.tlenLatch, Cdb.cmd6Cpl, Cdb.cmdGroup, op, Cdb.cmdRead,
        Cdb.cmdRead6, Cdb.cmdRead10, Cdb.opCode]
    · have same := Target.cmdNext_eq (i := i) was
      rw [same] at toc ⊢
      rw [Target.tlenNext_eq was]
      refine ih ?_ was toc
      intro asleep
      simp only [Target.phaseNext, rst, asleep, Bool.false_eq_true, if_false] at idle cmdIn
      split at cmdIn <;> simp_all

namespace CdAudio

/-- A byte that writes `v` in two decimal digits. -/
def IsBcd (b : Byte) (v : Nat) : Prop := b.toNat / 16 < 10 ∧ b.toNat % 16 < 10 ∧ bcd2bin b = v

theorem isBcd_units {b : Byte} (units : b.toNat < 10) (v : Nat) : IsBcd b v ↔ b.toNat = v := by
  unfold IsBcd bcd2bin
  omega

namespace Disc

variable (d : Disc)

/-- Four bytes that describe the track of row `r`. -/
structure Describing (r : Nat) (b : Nat → Byte) : Prop where
  ctrl : b 0 = d.ctrl r
  min : IsBcd (b 1) (d.start r / 4500)
  sec : IsBcd (b 2) (d.start r / 75 % 60)
  frm : IsBcd (b 3) (d.start r % 75)

variable {d} in
theorem Describing.congr {r : Nat} {b b' : Nat → Byte} (same : ∀ i < 4, b i = b' i) :
    d.Describing r b ↔ d.Describing r b' := by
  constructor
  · rintro ⟨ctrl, min, sec, frm⟩
    rw [same _ (by omega)] at ctrl min sec frm
    exact ⟨ctrl, min, sec, frm⟩
  · rintro ⟨ctrl, min, sec, frm⟩
    rw [← same _ (by omega)] at ctrl min sec frm
    exact ⟨ctrl, min, sec, frm⟩

/-- Byte `i` of slot `q` of the 0xC1 table: the header, the lead-out and 99
descriptors, the last of which stands for the slots after it. -/
def slotByte (q i : Nat) : Byte := d.respByte (min q 100 * 4 + i)

variable {d}

theorem start_lt (r : Nat) : d.start r < 2 ^ 32 := by
  have high := (d.word (d.entry r + 2)).isLt
  have low := (d.word (d.entry r + 1)).isLt
  unfold start
  split <;> omega

/-- A row of the table describes its track exactly if no number of its address
has a tens digit. -/
theorem describing_row (r : Nat) :
    d.Describing r (fun i => respRow (d.ctrl r) (msf (d.start r) 0) i) ↔
      Form.vendor.Units (d.start r) := by
  have fits := d.start_lt r
  by_cases small : d.start r + 0 < 450000
  · have units {v : Nat} (low : v < 100) : IsBcd (bin2bcd v) v ↔ v < 10 := by
      have byte := bin2bcd_toNat low
      rw [isBcd_units (by omega), byte]
      omega
    have byte : (d.start r + 0) % 75 % 256 = (d.start r + 0) % 75 := Nat.mod_eq_of_lt (by omega)
    have m := units (v := d.start r / 4500) (by omega)
    have s := units (v := d.start r / 75 % 60) (by omega)
    have f := units (v := d.start r % 75) (by omega)
    rw [msf_small small]
    simp only [Nat.add_zero] at byte ⊢
    constructor
    · rintro ⟨-, min, sec, frm⟩
      simp only [respRow, msfByte, byte] at min sec frm
      exact .inr ⟨m.mp min, s.mp sec, f.mp frm⟩
    · rintro (binary | ⟨min, sec, frm⟩)
      · contradiction
      · refine ⟨rfl, m.mpr min, s.mpr sec, ?_⟩
        simp only [respRow, msfByte, byte]
        exact f.mpr frm
  · -- from a hundred minutes on there is no second digit to lose
    have wrap : (d.start r + 0) % 2 ^ 32 = d.start r := Nat.mod_eq_of_lt (by omega)
    have full : (msf (d.start r) 0).m = 99 := by
      rw [msf, wrap]
      exact Nat.min_eq_right (by omega)
    constructor
    · rintro ⟨-, min, -, -⟩
      simp only [respRow, msfByte, full] at min
      rw [isBcd_units (by decide)] at min
      have nine : (bin2bcd 99).toNat = 9 := by decide
      omega
    · rintro (binary | ⟨min, -, -⟩)
      · contradiction
      · omega

/-- Rows past the last track repeat it. -/
theorem entry_min (r : Nat) (some : 1 ≤ d.nTracks) : d.entry r = d.entry (min r (d.nTracks - 1)) := by
  unfold entry
  split <;> split <;> omega

theorem row_min (r : Nat) (some : 1 ≤ d.nTracks) :
    d.ctrl r = d.ctrl (min r (d.nTracks - 1)) ∧ d.start r = d.start (min r (d.nTracks - 1)) := by
  unfold ctrl start
  rw [entry_min r some]
  exact ⟨rfl, rfl⟩

/-- A slot from the third on shows its row. -/
theorem slotByte_row {r i : Nat} (some : 1 ≤ d.nTracks) (few : d.nTracks ≤ 99) (low : i < 4) :
    d.slotByte (r + 2) i =
      respRow (d.ctrl (min r (d.nTracks - 1))) (msf (d.start (min r (d.nTracks - 1))) 0) i := by
  obtain ⟨ctrl, start⟩ := d.row_min (min r 98) some
  have last : min (min r 98) (d.nTracks - 1) = min r (d.nTracks - 1) := by omega
  have index : (min (r + 2) 100 * 4 + i) / 4 - 2 = min r 98 := by omega
  have byte : (min (r + 2) 100 * 4 + i) % 4 = i := by omega
  unfold slotByte respByte
  rw [if_neg (by omega), if_neg (by omega), index, byte, ctrl, start, last]

/-- What a slot holds happens to describe the last track: the header with a
control byte of 1 and the number of tracks for minutes, the lead-out, or the row
of another track. -/
def Coincides (d : Disc) : Nat → Prop
  | 0 => d.ctrl (d.nTracks - 1) = 0x01 ∧ d.start (d.nTracks - 1) = 4500 * (d.nTracks % 10)
  | 1 =>
    d.ctrl (d.nTracks - 1) = bin2bcd (msf d.leadout 0).m ∧
      IsBcd (bin2bcd (msf d.leadout 0).s) (d.start (d.nTracks - 1) / 4500) ∧
      IsBcd (bin2bcd ((msf d.leadout 0).v % 256)) (d.start (d.nTracks - 1) / 75 % 60) ∧
      d.start (d.nTracks - 1) % 75 = 0
  | r + 2 =>
    let row := min r (d.nTracks - 1)
    d.ctrl (d.nTracks - 1) = d.ctrl row ∧
      IsBcd (bin2bcd (msf (d.start row) 0).m) (d.start (d.nTracks - 1) / 4500) ∧
      IsBcd (bin2bcd (msf (d.start row) 0).s) (d.start (d.nTracks - 1) / 75 % 60) ∧
      IsBcd (bin2bcd ((msf (d.start row) 0).v % 256)) (d.start (d.nTracks - 1) % 75)

theorem coincides_iff (some : 1 ≤ d.nTracks) (few : d.nTracks ≤ 99) (q : Nat) :
    d.Describing (d.nTracks - 1) (d.slotByte q) ↔ d.Coincides q := by
  have zero (v : Nat) : IsBcd 0x00 v ↔ v = 0 := by
    rw [isBcd_units (by decide)]
    exact eq_comm
  rcases q with _ | _ | r
  · have tracks : (bin2bcd d.nTracks).toNat = d.nTracks % 10 := bin2bcd_toNat (by omega)
    have whole := msf_whole (d.start (d.nTracks - 1))
    have m : IsBcd (d.slotByte 0 1) (d.start (d.nTracks - 1) / 4500) ↔
        d.nTracks % 10 = d.start (d.nTracks - 1) / 4500 := by
      have byte : d.slotByte 0 1 = bin2bcd d.nTracks := rfl
      rw [byte, isBcd_units (by omega), tracks]
    constructor
    · rintro ⟨ctrl, min, sec, frm⟩
      have sec := (zero _).mp sec
      have frm := (zero _).mp frm
      have min := m.mp min
      exact ⟨ctrl.symm, by omega⟩
    · rintro ⟨ctrl, start⟩
      exact ⟨ctrl.symm, m.mpr (by omega), (zero _).mpr (by omega), (zero _).mpr (by omega)⟩
  · constructor
    · rintro ⟨ctrl, min, sec, frm⟩
      exact ⟨ctrl.symm, min, sec, (zero _).mp frm⟩
    · rintro ⟨ctrl, min, sec, frm⟩
      exact ⟨ctrl.symm, min, sec, (zero _).mpr frm⟩
  · rw [Describing.congr fun i low => slotByte_row (r := r) some few low]
    constructor
    · rintro ⟨ctrl, min, sec, frm⟩
      exact ⟨ctrl.symm, min, sec, frm⟩
    · rintro ⟨ctrl, min, sec, frm⟩
      exact ⟨ctrl.symm, min, sec, frm⟩

end Disc

/-- A target with the engine `e` on its lanes serves the track mode of 0xC1. -/
structure ReadTocC1 (P : Params) (e : Engine) (s : Serve) : Prop where
  wired : s.ca = e.caServe
  phase : s.tgt.phase = .dataOut
  reached : Target.Reached P s.tgt
  command : s.tgt.cmd.cmdCdToc P = true
  mode : (s.tgt.cmd 9).toNat / 64 = 2

namespace ReadTocC1

variable {P : Params} {e : Engine} {s : Serve} (on : ReadTocC1 P e s)

include on

theorem opcode : P.cdrom = true ∧ s.tgt.cmd 0 = 0xc1 := by
  have command := on.command
  simpa only [Cdb.cmdCdToc, Cdb.opCode, Bool.and_eq_true, beq_iff_eq] using command

theorem source : s.source P = .cdToc := by
  obtain ⟨cdrom, op⟩ := on.opcode
  simp [Serve.source, Cdb.cmdRead, Cdb.cmdRead6, Cdb.cmdRead10, Cdb.cmdInquiry,
    Cdb.cmdReadCapacity, Cdb.cmdModeSense, Cdb.cmdRequestSense, Cdb.cmdCdToc, Cdb.opCode, op,
    cdrom]

theorem dataLen : s.tgt.dataLen P = s.tgt.cmd.tlen10 / 4 * 4 := by
  obtain ⟨cdrom, op⟩ := on.opcode
  have alloc := on.reached.tocAlloc (by simp [on.phase]) (by simp [on.phase]) on.command
  simp [Target.dataLen, Cdb.dataLen, Cdb.cmdReadCapacity, Cdb.cmdRead, Cdb.cmdRead6,
    Cdb.cmdRead10, Cdb.cmdWrite, Cdb.cmdWrite6, Cdb.cmdWrite10, Cdb.cmdCdToc, Cdb.opCode, op,
    cdrom, Cdb.cdTocLen, on.mode, alloc]

/-- The nine-bit address goes round after 128 slots. -/
theorem single_eq (toc : Engine.Toc e) (ready : e.main.tab.tocReady = true) (j : Nat) {i : Nat}
    (low : i < 4) :
    s.single P (4 * j + i) = e.disc.slotByte ((s.caTocTrkK + j + 2) % 128) i := by
  have base : s.caTocBase = 8 + s.caTocTrkK * 4 := by simp [Serve.caTocBase, on.mode]
  have raw : (s.at_ (4 * j + i)).caTocRaw = (s.caTocTrkK + j + 2) % 128 * 4 + i := by
    have same : (s.at_ (4 * j + i)).caTocBase = s.caTocBase := rfl
    have count : (s.at_ (4 * j + i)).tgt.dataCnt = 4 * j + i := rfl
    unfold Serve.caTocRaw
    rw [same, count, base]
    omega
  have address : (s.at_ (4 * j + i)).caTocAddr =
      min ((s.caTocTrkK + j + 2) % 128) 100 * 4 + i := by
    unfold Serve.caTocAddr
    rw [raw]
    split <;> omega
  have inside : min ((s.caTocTrkK + j + 2) % 128) 100 * 4 + i < 512 := by omega
  have wired : (s.at_ (4 * j + i)).ca = e.caServe := on.wired
  rw [Serve.single_eq on.phase, Serve.lane, Serve.source_at, on.source]
  simp only [Serve.cdTocLane]
  rw [address, Planes.q_eq inside (by omega), wired, Nat.add_zero, Nat.mod_eq_of_lt inside]
  simp only [Engine.caServe, ready, if_true, Planes.byte_ofMem]
  exact toc.resp _ (by omega)

omit on in
/-- The first track of the command, from 1 on. -/
theorem trkK (bcd : Serve.cdBcd2bin (s.tgt.cmd 5) ≤ 99) :
    s.caTocTrkK + 1 = max (Serve.cdBcd2bin (s.tgt.cmd 5)) 1 := by
  unfold Serve.caTocTrkK
  split
  · omega
  · split <;> omega

/-- In every run, the track mode of 0xC1 serves whole descriptors only. The one
at place `j` is that of track `min (t + j) N` exactly if the address of the track
has no tens digit or, once the nine-bit address has gone round, if the slot that
is then read happens to hold the same. -/
theorem describes_iff (engine : Engine.Reached e) (ready : e.main.tab.tocReady = true)
    (bcd : Serve.cdBcd2bin (s.tgt.cmd 5) ≤ 99) :
    let track := max (Serve.cdBcd2bin (s.tgt.cmd 5)) 1
    s.tgt.dataLen P = s.tgt.cmd.tlen10 / 4 * 4 ∧
      ((∀ j < s.tgt.cmd.tlen10 / 4,
          e.disc.Describing (min (track + j) e.disc.nTracks - 1)
            (fun i => s.single P (4 * j + i))) ↔
        ∀ j < s.tgt.cmd.tlen10 / 4,
          if track + j < 127 then
            Form.vendor.Units (e.disc.start (min (track + j) e.disc.nTracks - 1))
          else e.disc.Coincides ((track + j + 1) % 128)) := by
  intro track
  have toc := engine.toc ready
  have first : s.caTocTrkK + 1 = track := trkK bcd
  refine ⟨on.dataLen, forall_congr' fun j => imp_congr_right fun _ => ?_⟩
  have some := toc.some
  have few := toc.few
  have slot : (s.caTocTrkK + j + 2) % 128 = (track + j + 1) % 128 := by omega
  rw [Disc.Describing.congr fun i low => on.single_eq toc ready j low, slot]
  split
  · have here : (track + j + 1) % 128 = track + j - 1 + 2 := by omega
    have row : min (track + j - 1) (e.disc.nTracks - 1) =
        min (track + j) e.disc.nTracks - 1 := by omega
    rw [here, ← Disc.describing_row, ← row]
    exact Disc.Describing.congr fun i low => Disc.slotByte_row some few low
  · have last : min (track + j) e.disc.nTracks = e.disc.nTracks := by omega
    rw [last, Disc.coincides_iff some few]

end ReadTocC1

/-! ### The disc of three tracks -/

/-- The CD-ROM target with the command `cdb`, on the disc of `e`. -/
def asked (e : Engine) (cdb : List Byte) : Serve :=
  { tgt := Serve.fed .cdromTarget (Serve.session cdb), ca := e.caServe }

/-- READ TOC format 0 from track 2 on, 30 bytes. -/
def readToc43 : Serve := asked threeRun [0x43, 0x02, 0, 0, 0, 0, 2, 0, 30, 0]

theorem readToc43_on : ReadToc43 .cdromTarget threeRun readToc43 where
  wired := rfl
  phase := by decide +kernel
  command := by decide +kernel

set_option maxRecDepth 4000 in
/-- Tracks from 0:03.01 and 0:04.02 past the minute on, and the lead-out. -/
theorem serves_answer_three :
    (List.range 30).map (readToc43.single .cdromTarget) =
      [0, 26, 1, 3, 0, 0x10, 2, 0, 0, 1, 3, 1, 0, 0x10, 3, 0, 0, 2, 4, 2,
        0, 0x10, 0xaa, 0, 0, 3, 5, 3, 0, 0] := by
  have shown : readToc43.caT43Start = 2 ∧ readToc43.tgt.cmd.tlen10 = 30 ∧
      (threeRun.disc.answer 2).takeD 30 0 =
        [0, 26, 1, 3, 0, 0x10, 2, 0, 0, 1, 3, 1, 0, 0x10, 3, 0, 0, 2, 4, 2,
          0, 0x10, 0xaa, 0, 0, 3, 5, 3, 0, 0] := by
    decide +kernel
  obtain ⟨start, alloc, bytes⟩ := shown
  obtain ⟨ready, three, -⟩ := threeRun_toc
  obtain ⟨blocks, sampled⟩ := threeRun_reached.sampled
  obtain ⟨-, length, served, -⟩ := readToc43_on.serves_answer sampled ready
    (by rw [three]; decide) (.inl (by rw [start, three]; decide)) (by rw [alloc]; decide)
  rw [length, alloc] at served
  rw [served, start, bytes]

/-- READ TOC 0xC1 from track `first` on, for `high * 256 + low` bytes. -/
def readTocC1 (e : Engine) (first high low : Byte) : Serve :=
  asked e [0xc1, 0, 0, 0, 0, first, 0, high, low, 0x80]

theorem readTocC1_on {e : Engine} {first high low : Byte}
    (sent : (readTocC1 e first high low).tgt.phase = .dataOut ∧
      (readTocC1 e first high low).tgt.cmd.cmdCdToc .cdromTarget = true ∧
      ((readTocC1 e first high low).tgt.cmd 9).toNat / 64 = 2) :
    ReadTocC1 .cdromTarget e (readTocC1 e first high low) where
  wired := rfl
  phase := sent.1
  reached := Serve.reached_fed _
  command := sent.2.1
  mode := sent.2.2

/-- The descriptors of the second and the third track. -/
theorem describes_three :
    threeRun.disc.Describing 1
        (fun i => (readTocC1 threeRun 2 0 8).single .cdromTarget (4 * 0 + i)) ∧
      threeRun.disc.Describing 2
        (fun i => (readTocC1 threeRun 2 0 8).single .cdromTarget (4 * 1 + i)) := by
  have on : ReadTocC1 .cdromTarget threeRun (readTocC1 threeRun 2 0 8) :=
    readTocC1_on (by decide +kernel)
  have shown : Serve.cdBcd2bin ((readTocC1 threeRun 2 0 8).tgt.cmd 5) = 2 ∧
      (readTocC1 threeRun 2 0 8).tgt.cmd.tlen10 = 8 := by
    decide +kernel
  obtain ⟨track, alloc⟩ := shown
  obtain ⟨ready, three, second, third, -⟩ := threeRun_toc
  have main := (on.describes_iff threeRun_reached ready (by rw [track]; decide)).2
  simp only [track, alloc, three] at main
  have all := main.mpr fun j low => by
    rw [if_pos (by omega)]
    obtain rfl | rfl : j = 0 ∨ j = 1 := by omega
    · exact .inr (by rw [show min (max 2 1 + 0) 3 - 1 = 1 from rfl, second]; decide)
    · exact .inr (by rw [show min (max 2 1 + 1) 3 - 1 = 2 from rfl, third]; decide)
  exact ⟨all 0 (by decide), all 1 (by decide)⟩

/-- Descriptor 126 is the header of the table. -/
theorem describes_wraps :
    Engine.Reached (plainRun 750) ∧ ReadTocC1 .cdromTarget (plainRun 750) (readTocC1 (plainRun 750) 1 2 0) ∧
      (readTocC1 (plainRun 750) 1 2 0).tgt.dataLen .cdromTarget = 512 ∧
      (readTocC1 (plainRun 750) 1 2 0).single .cdromTarget (4 * 126) = 0x01 ∧
      ¬ (plainRun 750).disc.Describing 0
        (fun i => (readTocC1 (plainRun 750) 1 2 0).single .cdromTarget (4 * 126 + i)) := by
  have shown : ((readTocC1 (plainRun 750) 1 2 0).tgt.phase = .dataOut ∧
      (readTocC1 (plainRun 750) 1 2 0).tgt.cmd.cmdCdToc .cdromTarget = true ∧
      ((readTocC1 (plainRun 750) 1 2 0).tgt.cmd 9).toNat / 64 = 2) ∧
      (readTocC1 (plainRun 750) 1 2 0).tgt.dataLen .cdromTarget = 512 ∧
      (readTocC1 (plainRun 750) 1 2 0).single .cdromTarget (4 * 126) = 0x01 ∧
      (plainRun 750).disc.ctrl 0 = 0x14 := by
    decide +kernel
  obtain ⟨sent, length, byte, ctrl⟩ := shown
  refine ⟨plainRun_reached 750, readTocC1_on sent, length, byte, fun describes => ?_⟩
  have same := describes.ctrl
  rw [Nat.add_zero, byte, ctrl] at same
  exact absurd same (by decide)

end CdAudio

end MacIIvi
