import MacIIvi.Floppy.Download

/-!
# Media change

Source: `MacIIvi.sv`, the mount flags and the empty hold; `rtl/floppy.v`, the disk-in-place
line, the eject timer and the disk-switched flag. The drive goes by the enable at the end
of each bus cycle, the mount flags by every clock.
-/

namespace MacIIvi.Floppy

/-- `DSK_EMPTY_CY` -/
def dskEmptyCy : Nat := 0x3FFFFFF

def ejectClocks : Nat := 0xFFFFFF

/-- The mount flags: geometry of the image. -/
structure Flags where
  ds : Bool
  ss : Bool
  mfm : Bool
  hd : Bool
  deriving DecidableEq

def Flags.empty : Flags := ⟨false, false, false, false⟩

def Flags.any (f : Flags) : Bool := f.ds || f.ss || f.mfm

structure Mount where
  flags : Flags
  emptyCy : Nat
  oldDown : Bool

namespace Mount

variable (s : Mount) (w : Ioctl)

def dioMenu : Bool := w.index % 64 == 1

/-- `dsk_int_ins` -/
def insertDisk : Bool := s.emptyCy == dskEmptyCy && s.flags.any

/-- What the end of a download makes of the size and the header. -/
def geometryOf (dioAddr : Nat) (dc42Skip : Bool) (format : BitVec 8) : Flags where
  ds := dioAddr == 409600 || (dc42Skip && format == 1)
  ss := dioAddr == 204800 || (dc42Skip && format == 0)
  mfm := dioAddr == 368640 || dioAddr == 737280 || (dc42Skip && (format == 2 || format == 3))
  hd := dioAddr == 737280 || (dc42Skip && format == 3)

/-- One clock; the last assignment of a register counts. -/
def step (dio : Dio) (diskEject : Bool) : Mount where
  oldDown := w.download
  emptyCy :=
    if w.download && dioMenu w then 0
    else if s.emptyCy ≠ dskEmptyCy then s.emptyCy + 1
    else s.emptyCy
  flags :=
    if diskEject then Flags.empty
    else if s.oldDown && !w.download && dioMenu w then
      geometryOf w.addr dio.dc42Skip dio.dc42DiskFormat
    else if !s.oldDown && w.download && dioMenu w then Flags.empty
    else s.flags

end Mount

/-- The lines from the SWIM to the drive. -/
structure Control where
  enableN : Bool := true
  lstrb : Bool := false
  ca0 : Bool := false
  ca1 : Bool := false
  ca2 : Bool := false
  sel : Bool := false
  ismActive : Bool := false
  ismSel : Bool := false

/-- The registers of the drive that know of the medium. -/
structure Sense where
  diskSwitched : Bool
  insertDiskD : Bool
  cstin : Bool
  ejectIndicatorTimer : Nat
  lstrbPrev : Bool

namespace Sense

variable (s : Sense) (c : Control)

def diskEject : Bool := s.ejectIndicatorTimer != 0

def lstrbEdge : Bool := !c.lstrb && s.lstrbPrev

/-- DskchgClear: the strobe of command `0xC`. -/
def clears : Bool := !c.enableN && s.lstrbEdge c && (c.sel && c.ca2 && !c.ca1 && !c.ca0)

/-- An eject that is accepted. -/
def ejects : Bool :=
  !c.enableN && (!c.ismActive || c.ismSel) && s.lstrbEdge c && (c.ca1 && c.ca0 && !c.sel) && c.ca2

/-- The medium has been taken away. -/
def removed (insertDisk : Bool) : Bool := s.insertDiskD && !insertDisk

/-- A clock with the enable. -/
def step (insertDisk : Bool) : Sense where
  insertDiskD := insertDisk
  diskSwitched :=
    if s.removed insertDisk then true else if s.clears c then false else s.diskSwitched
  cstin := if s.ejects c then true else !insertDisk
  ejectIndicatorTimer :=
    if s.ejects c then ejectClocks else s.ejectIndicatorTimer - 1
  lstrbPrev := c.lstrb

end Sense

/-! ## The system -/

/-- The slots, the write path, the mount flags and the drive. -/
structure Bay where
  slots : Slots
  dio : Dio
  mount : Mount
  sense : Sense

structure BayIn where
  ioctl : Ioctl := {}
  control : Control := {}

namespace Bay

variable (s : Bay) (i : BayIn)

/-- `clk8_en_p` -/
def cep : Bool := s.slots.busPhase == 3

def step : Bay where
  slots := s.slots.step
  dio := s.dio.step i.ioctl s.slots.dioBusControl
  mount := s.mount.step i.ioctl s.dio s.sense.diskEject
  sense := if s.cep then s.sense.step i.control s.mount.insertDisk else s.sense

/-- The state after `t` clocks. -/
def after (i : Nat → BayIn) : Nat → Bay
  | 0 => s
  | t + 1 => (after i t).step (i t)

/-- An image is written into the SDRAM in this clock. -/
def stages : Bool := i.ioctl.download && s.slots.dioBusControl && s.dio.dioWrite

/-- The drive out of reset, no download, any flags. -/
structure Initial : Prop where
  phase : s.slots.busPhase < 4
  cycle : s.slots.busCycle < 4
  oldCyc : s.dio.oldCyc = false
  dioWrite : s.dio.dioWrite = false
  ioctlWait : s.dio.ioctlWait = false
  oldDown : s.mount.oldDown = false
  cstin : s.sense.cstin = true

end Bay

/-! ## What is claimed -/

/-- The formats of a floppy. -/
inductive Format where
  | gcr400 | gcr800 | mfm720 | mfm1440
  deriving DecidableEq

namespace Format

/-- The words of a raw image. -/
def words : Format → Nat
  | gcr400 => 204800
  | gcr800 => 409600
  | mfm720 => 368640
  | mfm1440 => 737280

def flags : Format → Flags
  | gcr400 => ⟨false, true, false, false⟩
  | gcr800 => ⟨true, false, false, false⟩
  | mfm720 => ⟨false, false, true, false⟩
  | mfm1440 => ⟨false, false, true, true⟩

/-- Byte `0x50` of a DiskCopy header. -/
def ofByte (b : BitVec 8) : Option Format :=
  if b = 0 then some gcr400
  else if b = 1 then some gcr800
  else if b = 2 then some mfm720
  else if b = 3 then some mfm1440
  else none

def ofWords (n : Nat) : Option Format :=
  if n = gcr400.words then some gcr400
  else if n = gcr800.words then some gcr800
  else if n = mfm720.words then some mfm720
  else if n = mfm1440.words then some mfm1440
  else none

end Format

/-- The format that a DiskCopy header names. -/
def dc42Format (ws : List Word) : Option Format :=
  if isDc42 ws then Format.ofByte (formatByte ws) else none

/-- The disk that a file is: the header says it, or else the size. -/
def recognised (ws : List Word) : Option Format :=
  dc42Format ws <|> Format.ofWords ws.length

section Claims

variable (s : Bay) (i : Nat → BayIn)

/-- A removal is noticed at clock `r`. -/
def Removal (r : Nat) : Prop :=
  (s.after i r).cep = true ∧ (s.after i r).sense.removed (s.after i r).mount.insertDisk = true

/-- DskchgClear at clock `v`. -/
def Clear (v : Nat) : Prop :=
  (s.after i v).cep = true ∧ (s.after i v).sense.clears (i v).control = true

/-- An eject at clock `v`. -/
def Eject (v : Nat) : Prop :=
  (s.after i v).cep = true ∧ (s.after i v).sense.ejects (i v).control = true

/-- Between two polls with a disk in place that an image is written between, the drive
shows no disk for the whole hold and notices the removal. -/
def ChangeSeen : Prop :=
  ∀ t u v, t ≤ u → u ≤ v → (s.after i t).sense.cstin = false → (s.after i v).sense.cstin = false →
    (s.after i u).stages (i u) = true →
    (∃ a, t < a ∧ a + dskEmptyCy < v ∧
      ∀ k, k ≤ dskEmptyCy → (s.after i (a + k)).sense.cstin = true) ∧
    ∃ r, t ≤ r ∧ r < v ∧ Removal s i r ∧ (s.after i (r + 1)).sense.diskSwitched = true

/-- The disk-switched flag of a removal falls with a later DskchgClear only. -/
def FlagKept : Prop :=
  ∀ r t, r < t → Removal s i r → (s.after i t).sense.diskSwitched = false →
    ∃ v, r < v ∧ v < t ∧ Clear s i v

/-- The flags of an optional format. -/
def flagsOf (f : Option Format) : Flags := (f.map Format.flags).getD Flags.empty

/-- From the end of a download at clock `e` to the next download or eject, the drive has the
disk that the file is; after the hold it shows it. -/
def Presented (e : Nat) : Prop :=
  ∀ t, e < t → (∀ v, e < v → v < t → (i v).ioctl.download = false) →
    (∀ v, e ≤ v → v < t → ¬ Eject s i v) →
    (s.after i t).mount.flags = flagsOf (recognised (sent (fun v => (i v).ioctl) e)) ∧
    (e + dskEmptyCy + 4 ≤ t → (s.after i t).sense.cstin =
      (recognised (sent (fun v => (i v).ioctl) e)).isNone)

structure MediaChange : Prop where
  seen : ChangeSeen s i
  kept : FlagKept s i
  presented : ∀ e, Ends (fun v => (i v).ioctl) e → Presented s i e

def Flags.join (f g : Flags) : Flags := ⟨f.ds || g.ds, f.ss || g.ss, f.mfm || g.mfm, f.hd || g.hd⟩

/-- What the detection finds in the file: no stale header for an empty one, no header
or size of a disk beyond `2 ^ 20` words, no size that adds a flag to those of the header. -/
structure Plain (ws : List Word) (d : Dio) : Prop where
  fresh : ws = [] → d.dc42Skip = true → Format.ofByte d.dc42DiskFormat = none
  short : 2 ^ 20 < ws.length → isDc42 ws = false ∧ isDc42 (lastChunk ws) = false ∧
    Format.ofWords (ws.length % 2 ^ 24) = none
  single : ∀ f g, dc42Format ws = some f → Format.ofWords ws.length = some g →
    g.flags.join f.flags = f.flags

/-- The download that ends at clock `e` is plain, and no eject is still under way if it is a
disk. -/
structure Settles (e : Nat) : Prop where
  plain : Plain (sent (fun v => (i v).ioctl) e) (s.after i e).dio
  idle : recognised (sent (fun v => (i v).ioctl) e) ≠ none → (s.after i e).sense.diskEject = false

end Claims

/-! ## The geometry at the end of a download -/

theorem Flags.join_empty (f : Flags) : f.join Flags.empty = f := by
  cases f
  simp [Flags.join, Flags.empty]

theorem Flags.empty_join (f : Flags) : Flags.empty.join f = f := by
  cases f
  simp [Flags.join, Flags.empty]

theorem flagsOf_any (f : Option Format) : (flagsOf f).any = f.isSome := by
  rcases f with _ | f
  · rfl
  · cases f <;> rfl

/-- Size and header each give a format. -/
theorem geometryOf_eq (a : Nat) (skip : Bool) (b : BitVec 8) :
    Mount.geometryOf a skip b = (flagsOf (Format.ofWords a)).join
      (flagsOf (if skip then Format.ofByte b else none)) := by
  have size : Mount.geometryOf a false b = flagsOf (Format.ofWords a) := by
    unfold Mount.geometryOf Format.ofWords
    simp only [Bool.false_and, Bool.or_false]
    split
    · next h => rw [h]; rfl
    · next h1 =>
      split
      · next h => rw [h]; rfl
      · next h2 =>
        split
        · next h => rw [h]; rfl
        · next h3 =>
          split
          · next h => rw [h]; rfl
          · next h4 =>
            have h1 : a ≠ 204800 := h1
            have h2 : a ≠ 409600 := h2
            have h3 : a ≠ 368640 := h3
            have h4 : a ≠ 737280 := h4
            simp [flagsOf, Flags.empty, h1, h2, h3, h4]
  have header : flagsOf (Format.ofByte b) =
      ⟨b == 1, b == 0, b == 2 || b == 3, b == 3⟩ := by
    unfold Format.ofByte
    split
    · next h => subst h; rfl
    · split
      · next h => subst h; rfl
      · split
        · next h => subst h; rfl
        · split
          · next h => subst h; rfl
          · simp_all [flagsOf, Flags.empty]
  cases skip with
  | false =>
    rw [size]
    exact (Flags.join_empty _).symm
  | true =>
    rw [if_pos rfl, header, ← size, Mount.geometryOf, Mount.geometryOf, Flags.join]
    simp

theorem ofWords_large {n : Nat} (large : 2 ^ 20 < n) : Format.ofWords n = none := by
  have other : ∀ f : Format, n ≠ f.words := by
    intro f
    cases f <;> simp only [Format.words] <;> omega
  rw [Format.ofWords, if_neg (other _), if_neg (other _), if_neg (other _), if_neg (other _)]

theorem isDc42_length {ws : List Word} (dc42 : isDc42 ws = true) : 42 ≤ ws.length := by
  by_contra short
  have none_ : ws[41]? = none := by
    rw [List.getElem?_eq_none_iff]
    omega
  simp [isDc42, none_] at dc42

/-- The detection finds the disk that a plain file is. -/
theorem geometry_plain {ws : List Word} {d : Dio} (plain : Plain ws d)
    (known : ws ≠ [] → Detected ws d) :
    Mount.geometryOf (max ws.length 1 % 2 ^ 24) d.dc42Skip d.dc42DiskFormat =
      flagsOf (recognised ws) := by
  rw [geometryOf_eq]
  by_cases some_ : ws = []
  · subst some_
    have stale : (if d.dc42Skip then Format.ofByte d.dc42DiskFormat else none) = none := by
      cases skip : d.dc42Skip with
      | false => rfl
      | true => exact plain.fresh rfl skip
    rw [stale]
    rfl
  · have detected := known some_
    have positive : 0 < ws.length := List.length_pos_of_ne_nil some_
    have count : max ws.length 1 = ws.length := Nat.max_eq_left positive
    rw [count]
    by_cases large : 2 ^ 20 < ws.length
    · obtain ⟨noHeader, noSkip, noSize⟩ := plain.short large
      rw [detected.skip, noSkip, noSize, recognised, dc42Format, noHeader, ofWords_large large]
      rfl
    · have low : ws.length ≤ 2 ^ 20 := by omega
      have small : ws.length % 2 ^ 24 = ws.length := Nat.mod_eq_of_lt (by omega)
      rw [small, detected.skip, lastChunk_short low, recognised, dc42Format]
      cases dc42 : isDc42 ws with
      | false =>
        rw [if_neg Bool.false_ne_true]
        exact Flags.join_empty _
      | true =>
        have long := isDc42_length dc42
        rw [if_pos rfl, if_pos rfl, detected.format low (by omega)]
        cases header : Format.ofByte (formatByte ws) with
        | none => exact Flags.join_empty _
        | some f =>
          cases size : Format.ofWords ws.length with
          | none => exact Flags.empty_join _
          | some g =>
            exact plain.single f g (by rw [dc42Format, dc42, if_pos rfl, header]) size

end MacIIvi.Floppy
