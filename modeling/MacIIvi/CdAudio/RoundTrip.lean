import MacIIvi.CdAudio.Contents

/-!
# Minutes, seconds and frames there and back

The engine reports addresses in the three tables of a ready TOC and takes them
in the commands. The binary form comes back as it went out. `bin2bcd` drops the
tens digit, so an address in decimal digits comes back only when it has none.
-/

namespace MacIIvi

namespace CdAudio

theorem bin2bcd_toNat {v : Nat} (small : v < 100) : (bin2bcd v).toNat = v % 10 := by
  unfold bin2bcd
  simp only
  repeat' split
  all_goals
    simp only [BitVec.toNat_ofNat]
    omega

/-- Only the units come back. -/
theorem bcd2bin_bin2bcd {v : Nat} (small : v < 100) : bcd2bin (bin2bcd v) = v % 10 := by
  rw [bcd2bin, bin2bcd_toNat small]
  omega

/-- The divider splits an address below a hundred minutes exactly. -/
theorem Disc.msf_small {lba offset : Nat} (small : lba + offset < 450000) :
    Disc.msf lba offset =
      { m := (lba + offset) / 4500, s := (lba + offset) / 75 % 60, v := (lba + offset) % 75 } := by
  have wrap : (lba + offset) % 2 ^ 32 = lba + offset := Nat.mod_eq_of_lt (by omega)
  have full : min ((lba + offset) / 4500) 99 = (lba + offset) / 4500 := by omega
  simp only [Disc.msf, Divider.result, wrap, full, Divider.mk.injEq]
  have minutes := Nat.div_add_mod (lba + offset) 4500
  refine ⟨?_, trivial, ?_⟩ <;> omega

/-- The tables that report addresses: 0xC1, format 0 and the full TOC. -/
inductive Form where
  | vendor | binary | full
  deriving DecidableEq, Repr

namespace Form

/-- The lead-in offset of a form. -/
def offset : Form → Nat
  | vendor => 0
  | binary | full => 150

/-- The number a reported byte stands for. -/
def value : Form → Byte → Nat
  | vendor, b | full, b => bcd2bin b
  | binary, b => b.toNat

/-- The byte that is sent back for a reported one: the vendor commands take the
digits, the standard ones a binary number. -/
def sent (form : Form) (b : Byte) : Byte :=
  match form with
  | vendor => b
  | binary | full => BitVec.ofNat 8 (form.value b)

/-- How a form writes a number. -/
def code : Form → Nat → Byte
  | vendor | full => bin2bcd
  | binary => BitVec.ofNat 8

end Form

namespace Engine

variable {e : Engine}

/-- The tables report minutes, seconds and frames of a track start or of the
lead-out. -/
inductive Reports (e : Engine) : Form → Nat → Byte → Byte → Byte → Prop where
  | vendorTrack {k : Nat} (row : k < 99) :
    Reports e .vendor (e.disc.start k)
      (e.resp (8 + 4 * k + 1)) (e.resp (8 + 4 * k + 2)) (e.resp (8 + 4 * k + 3))
  | vendorLeadout : Reports e .vendor e.disc.leadout (e.resp 4) (e.resp 5) (e.resp 6)
  | binaryTrack {k : Nat} (row : k < e.disc.nReal) :
    Reports e .binary (e.disc.start k)
      (e.t43 (4 + 8 * k + 5)) (e.t43 (4 + 8 * k + 6)) (e.t43 (4 + 8 * k + 7))
  | binaryLeadout :
    Reports e .binary e.disc.leadout
      (e.t43 (4 + 8 * e.disc.nReal + 5)) (e.t43 (4 + 8 * e.disc.nReal + 6))
      (e.t43 (4 + 8 * e.disc.nReal + 7))
  | fullTrack {k : Nat} (row : k < e.disc.nFull) :
    Reports e .full (e.disc.start k)
      (e.t2 (37 + 11 * k + 8)) (e.t2 (37 + 11 * k + 9)) (e.t2 (37 + 11 * k + 10))
  | fullLeadout : Reports e .full e.disc.leadout (e.t2 34) (e.t2 35) (e.t2 36)

theorem resp_track (toc : Toc e) {k j : Nat} (row : k < 99) (low : j < 3) :
    e.resp (8 + 4 * k + (j + 1)) = Disc.msfByte bin2bcd (Disc.msf (e.disc.start k) 0) j := by
  have index : (8 + 4 * k + (j + 1)) / 4 - 2 = k := by omega
  have byte : (8 + 4 * k + (j + 1)) % 4 = j + 1 := by omega
  rw [toc.resp _ (by omega)]
  unfold Disc.respByte
  rw [if_neg (by omega), if_neg (by omega), index, byte]
  rfl

theorem resp_leadout (toc : Toc e) {j : Nat} (low : j < 3) :
    e.resp (4 + j) = Disc.msfByte bin2bcd (Disc.msf e.disc.leadout 0) j := by
  rw [toc.resp _ (by omega)]
  unfold Disc.respByte
  rw [if_neg (by omega), if_pos (by omega), Nat.add_sub_cancel_left]

theorem t43_cell (toc : Toc e) {r j : Nat} (row : r ≤ e.disc.nReal) (low : j < 3) :
    e.t43 (4 + 8 * r + (j + 5)) =
      Disc.msfByte (BitVec.ofNat 8)
        (Disc.msf (if r < e.disc.nReal then e.disc.start r else e.disc.leadout) 150) j := by
  have index : (4 + 8 * r + (j + 5) - 4) / 8 = r := by omega
  have byte : (4 + 8 * r + (j + 5) - 4) % 8 = j + 5 := by omega
  rw [toc.t43 _ (by omega)]
  unfold Disc.t43Byte
  rw [if_neg (by omega), index, byte, Disc.t43Cell]
  rcases j with _ | _ | _ | j
  · split <;> rfl
  · split <;> rfl
  · split <;> rfl
  · omega

theorem t2_track (toc : Toc e) {k j : Nat} (row : k < e.disc.nFull) (low : j < 3) :
    e.t2 (37 + 11 * k + (j + 8)) = Disc.msfByte bin2bcd (Disc.msf (e.disc.start k) 150) j := by
  have index : (37 + 11 * k + (j + 8) - 37) / 11 = k := by omega
  have byte : (37 + 11 * k + (j + 8) - 37) % 11 = j + 8 := by omega
  rw [toc.t2 _ (by omega) (by omega), Disc.t2Byte, if_neg (by omega), index, byte]
  rcases j with _ | _ | _ | j
  · rfl
  · rfl
  · rfl
  · omega

theorem t2_leadout (toc : Toc e) {j : Nat} (low : j < 3) :
    e.t2 (34 + j) = Disc.msfByte bin2bcd (Disc.msf e.disc.leadout 150) j := by
  rw [toc.t2 _ (by omega) (by omega), Disc.t2Byte, if_pos (by omega), Nat.add_sub_cancel_left]

/-- What is reported for an address, digit by digit. -/
theorem Reports.bytes {form : Form} {lba : Nat} {m s f : Byte} (toc : Toc e)
    (reported : Reports e form lba m s f) :
    m = form.code (Disc.msf lba form.offset).m ∧ s = form.code (Disc.msf lba form.offset).s ∧
      f = form.code ((Disc.msf lba form.offset).v % 256) := by
  cases reported with
  | vendorTrack row =>
    exact ⟨resp_track toc row (j := 0) (by omega), resp_track toc row (j := 1) (by omega),
      resp_track toc row (j := 2) (by omega)⟩
  | vendorLeadout =>
    exact ⟨resp_leadout toc (j := 0) (by omega), resp_leadout toc (j := 1) (by omega),
      resp_leadout toc (j := 2) (by omega)⟩
  | binaryTrack row =>
    have cell {j : Nat} (low : j < 3) := t43_cell toc (Nat.le_of_lt row) low
    simp only [row, if_true] at cell
    exact ⟨cell (j := 0) (by omega), cell (j := 1) (by omega), cell (j := 2) (by omega)⟩
  | binaryLeadout =>
    have cell {j : Nat} (low : j < 3) := t43_cell toc (Nat.le_refl e.disc.nReal) low
    simp only [Nat.lt_irrefl, if_false] at cell
    exact ⟨cell (j := 0) (by omega), cell (j := 1) (by omega), cell (j := 2) (by omega)⟩
  | fullTrack row =>
    exact ⟨t2_track toc row (j := 0) (by omega), t2_track toc row (j := 1) (by omega),
      t2_track toc row (j := 2) (by omega)⟩
  | fullLeadout =>
    exact ⟨t2_leadout toc (j := 0) (by omega), t2_leadout toc (j := 1) (by omega),
      t2_leadout toc (j := 2) (by omega)⟩

end Engine

/-! ### The commands that take the address back -/

/-- The captured command has the three bytes in a field of `form`; `read` is the
register the field is decoded to. -/
inductive Carries (c : Command) (m s f : Byte) : Form → (Command → Nat) → Prop where
  | play (op : c.op = 0xc9) (msf : c.form = 1) (min : c.c 3 = m) (sec : c.c 4 = s)
    (frm : c.c 5 = f) : Carries c m s f .vendor Command.cAddr
  | searchStop (op : c.op = 0xc8 ∨ c.op = 0xcb) (msf : c.form = 1) (min : c.c 5 = m)
    (sec : c.c 6 = s) (frm : c.c 7 = f) : Carries c m s f .vendor Command.cAddr
  | playMsf {form : Form} (std : form ≠ .vendor) (op : c.op = 0x47) (min : c.c 3 = m)
    (sec : c.c 4 = s) (frm : c.c 5 = f) : Carries c m s f form Command.cAddr
  | playMsfEnd {form : Form} (std : form ≠ .vendor) (op : c.op = 0x47) (min : c.c 6 = m)
    (sec : c.c 7 = s) (frm : c.c 8 = f) : Carries c m s f form Command.cNext
  | scan {form : Form} (std : form ≠ .vendor) (op : c.op = 0xcd) (msf : c.form = 1)
    (min : c.c 3 = m) (sec : c.c 4 = s) (frm : c.c 5 = f) : Carries c m s f form Command.cAddr

namespace Form

/-- What the three bytes of a form are decoded to. -/
def decode (form : Form) (m s f : Byte) : Nat :=
  match form with
  | vendor => msf2lba m s f
  | binary | full => msf2lbaStd m s f

theorem decode_std {form : Form} (std : form ≠ .vendor) (m s f : Byte) :
    form.decode m s f = msf2lbaStd m s f := by
  cases form with
  | vendor => contradiction
  | binary | full => rfl

end Form

/-- `M_CMD` decodes the field. FF:FF:FF is no address. -/
theorem Carries.decodes {x : Main} {w : MainIn} {m s f : Byte} {form : Form}
    {read : Command → Nat} (on : Carries x.cmd m s f form read) (rst : w.rst = false)
    (mst : x.mst = .cmd) (below : m ≠ 0xff) : read (x.next w).cmd = form.decode m s f := by
  simp only [Main.next, rst, mst, Bool.false_eq_true, if_false, Main.stepCmd]
  cases on with
  | play op msf min sec frm =>
    simp [Main.cmdOutcome, op, msf, min, sec, frm, Form.decode]
  | searchStop op msf min sec frm =>
    rcases op with op | op <;>
      simp [Main.cmdOutcome, op, msf, min, sec, frm, Form.decode]
  | playMsf std op min sec frm =>
    have here : ¬ (x.cmd.c 3 = 0xff ∧ x.cmd.c 4 = 0xff ∧ x.cmd.c 5 = 0xff) := by
      rw [min]
      exact fun all => below all.1
    simp only [Main.cmdOutcome, op, here]
    simp [min, sec, frm, Form.decode_std std]
  | playMsfEnd std op min sec frm =>
    simp [Main.cmdOutcome, op, min, sec, frm, Form.decode_std std]
  | scan std op msf min sec frm =>
    simp [Main.cmdOutcome, op, msf, min, sec, frm, Form.decode_std std]

/-- Every form has a command. -/
theorem exists_carries (m s f : Byte) (form : Form) :
    ∃ c : Command, Carries c m s f form Command.cAddr := by
  cases form with
  | vendor =>
    exact ⟨{ c := fun | 0 => 0xc9 | 3 => m | 4 => s | 5 => f | 9 => 0x40 | _ => 0 },
      .play rfl (by simp [Command.form]) rfl rfl rfl⟩
  | binary | full =>
    exact ⟨{ c := fun | 0 => 0x47 | 3 => m | 4 => s | 5 => f | _ => 0 },
      .playMsf (by simp) rfl rfl rfl rfl⟩

/-- The report is inverse to the decode: seconds and frames are in range, and
every command that takes the bytes back decodes them to `lba`. -/
def RoundTrip (form : Form) (lba : Nat) (m s f : Byte) : Prop :=
  form.value s < 60 ∧ form.value f < 75 ∧
    ∀ (x : Main) (w : MainIn) (read : Command → Nat), w.rst = false → x.mst = .cmd →
      Carries x.cmd (form.sent m) (form.sent s) (form.sent f) form read →
      read (x.next w).cmd = lba

/-- The round trip as an equation. -/
theorem roundTrip_iff_decode {form : Form} {lba : Nat} {m s f : Byte} (below : form.sent m ≠ 0xff) :
    RoundTrip form lba m s f ↔
      form.value s < 60 ∧ form.value f < 75 ∧
        form.decode (form.sent m) (form.sent s) (form.sent f) = lba := by
  constructor
  · rintro ⟨sec, frm, back⟩
    obtain ⟨c, carries⟩ := exists_carries (form.sent m) (form.sent s) (form.sent f) form
    let x : Main := { mst := .cmd, cmd := c }
    let w : MainIn :=
      { rst := false, busRst := false, mounted := true, imgMounted := false, imgBlocks := 0
        cmdStb := false, cdb := fun _ => 0, readStb := false, ejectStb := false, grant := false
        ioAck := false, ackFall := false, frAct := false, frameDone := false, blobQ := 0 }
    have decodes := carries.decodes (x := x) (w := w) rfl rfl below
    exact ⟨sec, frm, decodes.symm.trans (back x w _ rfl rfl carries)⟩
  · rintro ⟨sec, frm, back⟩
    exact ⟨sec, frm, fun x w read rst mst carries => (carries.decodes rst mst below).trans back⟩

theorem msf_whole (v : Nat) : v / 4500 * 4500 + v / 75 % 60 * 75 + v % 75 = v := by
  have minutes := Nat.div_add_mod v 4500
  omega

/-- The number a form reports for `v`: the decimal forms keep the units. -/
def Form.kept : Form → Nat → Nat
  | .binary, v => v
  | .vendor, v | .full, v => v % 10

theorem value_code (form : Form) {v : Nat} (small : v < 100) :
    form.value (form.code v) = form.kept v := by
  cases form with
  | vendor | full => exact bcd2bin_bin2bcd small
  | binary =>
    simp only [Form.value, Form.code, Form.kept, BitVec.toNat_ofNat]
    omega

theorem kept_le (form : Form) (v : Nat) : form.kept v ≤ v := by
  cases form with
  | vendor | full => exact Nat.mod_le v 10
  | binary => exact Nat.le_refl v

theorem kept_small (form : Form) {v : Nat} (units : v < 10) : form.kept v = v := by
  cases form with
  | vendor | full => exact Nat.mod_eq_of_lt units
  | binary => rfl

/-- The standard commands get the number as it is. -/
theorem sent_code {form : Form} (std : form ≠ .vendor) {v : Nat} (small : v < 100) :
    (form.sent (form.code v)).toNat = form.kept v := by
  have low := kept_le form v
  cases form with
  | vendor => contradiction
  | binary | full =>
    simp only [Form.sent, value_code _ small, BitVec.toNat_ofNat]
    omega

theorem sent_ne {form : Form} {v : Nat} (small : v < 100) : form.sent (form.code v) ≠ 0xff := by
  intro full
  have same := congrArg BitVec.toNat full
  have low := kept_le form v
  by_cases std : form = .vendor
  · subst std
    have units : (bin2bcd v).toNat = 255 := same
    rw [bin2bcd_toNat small] at units
    omega
  · rw [sent_code std small] at same
    simp at same
    omega

/-- The lead-in offset is added by the report and taken off by the decode. -/
theorem decode_code {form : Form} {lba : Nat} {m s f : Nat} (min : m < 100) (sec : s < 100)
    (frm : f < 75) (small : lba + form.offset = m * 4500 + s * 75 + f) :
    form.decode (form.sent (form.code m)) (form.sent (form.code s)) (form.sent (form.code f)) =
        lba ↔
      form.kept m * 4500 + form.kept s * 75 + form.kept f = lba + form.offset := by
  have lowM := kept_le form m
  have lowS := kept_le form s
  have lowF := kept_le form f
  have frm' : f < 100 := by omega
  by_cases std : form = .vendor
  · subst std
    have m' : bcd2bin (bin2bcd m) = Form.kept .vendor m := value_code .vendor min
    have s' : bcd2bin (bin2bcd s) = Form.kept .vendor s := value_code .vendor sec
    have f' : bcd2bin (bin2bcd f) = Form.kept .vendor f := value_code .vendor frm'
    simp [Form.decode, Form.sent, Form.code, Form.offset, msf2lba, m', s', f']
  · rw [Form.decode_std std, msf2lbaStd]
    simp only [sent_code std min, sent_code std sec, sent_code std frm']
    have lead : form.offset = 150 := by
      cases form with
      | vendor => contradiction
      | binary | full => rfl
    rw [lead] at small ⊢
    split
    · omega
    · -- below the lead-in the decode says 0, which is reported as two seconds
      rename_i clamped
      constructor
      · intro zero
        have seconds : s = 2 := by omega
        have := kept_small form (v := s) (by omega)
        omega
      · omega

/-- No number has a tens digit, unless the form is binary. -/
def Form.Units (form : Form) (v : Nat) : Prop :=
  form = .binary ∨ v / 4500 < 10 ∧ v / 75 % 60 < 10 ∧ v % 75 < 10

theorem kept_whole {form : Form} {v : Nat} :
    form.kept (v / 4500) * 4500 + form.kept (v / 75 % 60) * 75 + form.kept (v % 75) = v ↔
      form.Units v := by
  have whole := msf_whole v
  cases form with
  | vendor | full =>
    simp only [Form.kept, Form.Units, reduceCtorEq, false_or]
    omega
  | binary => simpa [Form.kept, Form.Units] using whole

/-- In every run, and for every address the tables of a ready TOC report: the
round trip holds exactly if the form is binary or no number has a tens digit. -/
theorem Engine.Reached.roundTrip_iff {e : Engine} (reached : Engine.Reached e)
    (ready : e.main.tab.tocReady = true) {form : Form} {lba : Nat} {m s f : Byte}
    (reported : e.Reports form lba m s f) (small : lba + form.offset < 450000) :
    RoundTrip form lba m s f ↔ form.Units (lba + form.offset) := by
  obtain ⟨rfl, rfl, rfl⟩ := reported.bytes (reached.toc ready)
  have min : (lba + form.offset) / 4500 < 100 := by omega
  have sec : (lba + form.offset) / 75 % 60 < 60 := Nat.mod_lt _ (by omega)
  have frm : (lba + form.offset) % 75 < 75 := Nat.mod_lt _ (by omega)
  have byte : (lba + form.offset) % 75 % 256 = (lba + form.offset) % 75 :=
    Nat.mod_eq_of_lt (by omega)
  rw [Disc.msf_small small]
  simp only [byte]
  rw [roundTrip_iff_decode (sent_ne min), value_code _ (by omega), value_code _ (by omega),
    decode_code min (by omega) frm (msf_whole _).symm, kept_whole]
  have lowS := kept_le form ((lba + form.offset) / 75 % 60)
  have lowF := kept_le form ((lba + form.offset) % 75)
  constructor
  · exact fun all => all.2.2
  · exact fun units => ⟨by omega, by omega, units⟩

/-! ### A disc of one data track -/

/-- Inputs that mount a disc of 1024 sectors without a blob. -/
def plainDisc (t : Nat) : EngineIn :=
  { mounted := true, imgBlocks := 4096, grant := true, ioAck := t % 2 == 1 }

/-- The engine after `t` clocks of it. -/
def plainRun (t : Nat) : Engine := .after plainDisc t

theorem plainRun_reached (t : Nat) : Engine.Reached (plainRun t) := Engine.reached_after plainDisc t

/-- What the built tables say. -/
theorem plainRun_toc :
    (plainRun 750).main.tab.tocReady = true ∧ (plainRun 750).disc.start 0 = 0 ∧
      (plainRun 750).disc.leadout = 1024 ∧ (plainRun 750).resp 4 = 0 ∧
      (plainRun 750).resp 5 = 3 ∧ (plainRun 750).resp 6 = 9 := by
  decide +kernel

/-- The lead-out is at 00:13:49, is reported as 00:03:09 and comes back as 234. -/
theorem roundTrip_leadout :
    Engine.Reached (plainRun 750) ∧ (plainRun 750).main.tab.tocReady = true ∧
      (plainRun 750).Reports .vendor 1024 0 3 9 ∧ ¬ RoundTrip .vendor 1024 0 3 9 ∧
      Form.decode .vendor 0 3 9 = 234 := by
  obtain ⟨ready, -, leadout, m, s, f⟩ := plainRun_toc
  have reported := Engine.Reports.vendorLeadout (e := plainRun 750)
  rw [leadout, m, s, f] at reported
  refine ⟨plainRun_reached 750, ready, reported, fun back => ?_, rfl⟩
  obtain ⟨-, -, same⟩ := (roundTrip_iff_decode (by decide)).mp back
  exact absurd same (by decide)

/-! ### A disc of three tracks -/

/-- Data from 00:00:00, audio from 01:01:01 and from 02:02:02, lead-out at 03:03:03. -/
def threeTracks : Nat → BitVec 16
  | 0 => 0x434d
  | 1 => 0x4144
  | 3 => 3
  | 4 => 13728
  | 8 => 0x0014
  | 12 => 0x0010
  | 13 => 4576
  | 16 => 0x0010
  | 17 => 9152
  | _ => 0

/-- The disc of this blob is mounted; its first block comes from clock 32 on, its
second from clock 96 on. -/
def threeDisc (t : Nat) : EngineIn :=
  { mounted := true, imgBlocks := 4096, grant := t % 64 < 32, ioAck := 32 ≤ t % 64
    sdBuffWr := 32 ≤ t % 64, sdBuffAddr := t % 64 - 32
    sdBuffDout := if t < 64 then threeTracks (t - 32) else 0 }

/-- The engine once the tables of the disc are built. -/
def threeRun : Engine := .after threeDisc 1760

theorem threeRun_reached : Engine.Reached threeRun := Engine.reached_after threeDisc 1760

set_option maxRecDepth 4000 in
theorem threeRun_toc :
    threeRun.main.tab.tocReady = true ∧ threeRun.disc.nTracks = 3 ∧
      threeRun.disc.start 1 = 4576 ∧ threeRun.disc.start 2 = 9152 ∧
      threeRun.resp 13 = 1 ∧ threeRun.resp 14 = 1 ∧ threeRun.resp 15 = 1 := by
  decide +kernel

/-- The second track starts at 01:01:01 and comes back. -/
theorem roundTrip_track : RoundTrip .vendor 4576 1 1 1 := by
  obtain ⟨ready, -, start, -, m, s, f⟩ := threeRun_toc
  have row := Engine.Reports.vendorTrack (e := threeRun) (k := 1) (by decide)
  rw [start, m, s, f] at row
  exact (threeRun_reached.roundTrip_iff ready row (by decide)).mpr (.inr (by decide))

end CdAudio

end MacIIvi
