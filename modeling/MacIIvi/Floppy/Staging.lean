import MacIIvi.Card.SharedSdram
import MacIIvi.Floppy.Mount

/-!
# The staging region of the floppy image

Source: `MacIIvi.sv` (the write path, the mux in front of the SDRAM and the demultiplexer
behind it), `rtl/addrController_top.v` and the command phases of `rtl/sdram.v`, with the
CPU and the display card on the other slots.
-/

namespace MacIIvi.Floppy

open Card (Sizes Shared SharedIn Lines Lanes)

/-- The words of the SDRAM and the command under way. -/
structure Sdram where
  mem : Nat → Word
  weLatch : Bool
  addrLatch : Nat

/-- A clock of the system, two of the controller: the row is taken at the first, data and
strobes two clocks of the controller later. -/
def Sdram.step (m : Sdram) (t : Nat) (l : Lines) : Sdram :=
  if t = 0 then
    { m with weLatch := l.we, addrLatch := if l.we || l.oe then l.addr else m.addrLatch }
  else if t = 2 then
    { m with
      mem :=
        if m.weLatch then
          Function.update m.mem m.addrLatch (l.ds.merge l.din (m.mem m.addrLatch))
        else m.mem }
  else m

/-- `dsk_int_sdram_word` -/
def dskIntSdramWord (dskReadAddr : Nat) : Nat := stagingBase + dskReadAddr % 2 ^ 22 / 2

/-- `extra_rom_data_demux`, one of its equal halves. -/
def demux (dskReadAddr : Nat) (sdramOut : Word) : BitVec 8 :=
  if dskReadAddr % 2 = 1 then lowByte sdramOut else highByte sdramOut

structure Loader where
  shared : Shared
  dio : Dio
  sdram : Sdram

structure LoaderIn where
  bus : SharedIn
  ioctl : Ioctl
  dskReadAddrInt : Nat

namespace Loader

variable (sz : Sizes) (ramSize : Nat) (s : Loader) (i : LoaderIn)

/-- What the CPU's side sees. -/
def sharedIn : SharedIn :=
  { i.bus with
    dioDownload := i.ioctl.download
    dioA := s.dio.dioA
    dioData := s.dio.dioData
    dioWrite := s.dio.dioWrite
    dskInt := dskIntSdramWord i.dskReadAddrInt }

def lines : Lines := s.shared.lines ramSize (s.sharedIn i)

def step : Loader where
  shared := s.shared.step sz ramSize (s.sharedIn i)
  dio := s.dio.step i.ioctl s.shared.slots.dioBusControl
  sdram := s.sdram.step s.shared.sdramT (s.lines ramSize i)

/-- The state after `t` clocks. -/
def after (i : Nat → LoaderIn) : Nat → Loader
  | 0 => s
  | t + 1 => (after i t).step sz ramSize (i t)

/-- Card and bus in reset, with no word to write. -/
structure Initial : Prop where
  shared : s.shared.Initial
  oldCyc : s.dio.oldCyc = false
  dioWrite : s.dio.dioWrite = false
  ioctlWait : s.dio.ioctlWait = false
  weLatch : s.sdram.weLatch = false

end Loader

/-! ## What is claimed -/

/-- A raw image, or a DiskCopy file: header, sector data, tags. -/
inductive Image where
  | raw (f : Format) (disk : List Word)
  | diskCopy (f : Format) (header disk tags : List Word)

namespace Image

def words : Image → List Word
  | raw _ disk => disk
  | diskCopy _ header disk tags => header ++ disk ++ tags

/-- The sector data. -/
def disk : Image → List Word
  | raw _ disk => disk
  | diskCopy _ _ disk _ => disk

def Ok : Image → Prop
  | raw f disk => disk.length = f.words
  | diskCopy f header disk tags =>
    header.length = 42 ∧ isDc42 header = true ∧ Format.ofByte (formatByte header) = some f ∧
      disk.length = f.words ∧ (header ++ disk ++ tags).length < 2 ^ 20

/-- A raw image does not look like a DiskCopy file, and finds no header flag of one. -/
def Plain (dc42Skip : Bool) : Image → Prop
  | raw _ disk => dc42Skip = false ∧ isDc42 disk = false
  | diskCopy .. => True

end Image

/-- Byte `a` of words that come with the first byte low. -/
def byteOf (ws : List Word) (a : Nat) : BitVec 8 :=
  if a % 2 = 1 then highByte (ws.getD (a / 2) 0) else lowByte (ws.getD (a / 2) 0)

section Claims

variable (sz : Sizes) (ramSize : Nat) (s : Loader) (i : Nat → LoaderIn)

/-- The words of the HPS, one at a time. -/
def Served : Prop :=
  Hps (fun t => (i t).ioctl) fun t => (s.after sz ramSize i t).dio.ioctlWait

/-- The download from clock `d` to its end at clock `e`. -/
structure Spans (d e : Nat) : Prop where
  order : d < e
  before : ∃ u, d = u + 1 ∧ (i u).ioctl.download = false
  run : ∀ t, d ≤ t → t < e → (i t).ioctl.download = true
  stop : (i e).ioctl.download = false

/-- The download writes `v` to word `a`: the row at clock `u`, the data with the next. -/
structure Writes (u a : Nat) (v : Word) : Prop where
  row : (s.after sz ramSize i u).shared.sdramT = 0
  cycle : (s.after sz ramSize i u).shared.downloadCycle
    ((s.after sz ramSize i u).sharedIn (i u)) = true
  we : ((s.after sz ramSize i u).lines ramSize (i u)).we = true
  addr : ((s.after sz ramSize i u).lines ramSize (i u)).addr = a
  din : ((s.after sz ramSize i (u + 1)).lines ramSize (i (u + 1))).din = v
  ds : ((s.after sz ramSize i (u + 1)).lines ramSize (i (u + 1))).ds = Lanes.both

/-- The sector data is in the staging region, from its first word on, and is what the drive
is served. -/
structure Loaded (d e : Nat) (disk : List Word) : Prop where
  holds : ∀ t, e ≤ t → (∀ v, e ≤ v → v < t → (i v).ioctl.download = false) →
    ∀ k, k < disk.length →
      (s.after sz ramSize i t).sdram.mem (stagingBase + k) = swap (disk.getD k 0)
  written : ∀ k, k < disk.length →
    ∃ u, d ≤ u ∧ u < e ∧ Writes sz ramSize s i u (stagingBase + k) (swap (disk.getD k 0))
  inside : ∀ u a v, d ≤ u → u < e → Writes sz ramSize s i u a v →
    stagingBase ≤ a ∧ a < stagingBase + 2 ^ 20
  served : ∀ t, e ≤ t → (∀ v, e ≤ v → v < t → (i v).ioctl.download = false) →
    ∀ a, a < 2 * disk.length →
      demux a ((s.after sz ramSize i t).sdram.mem (dskIntSdramWord a)) = byteOf disk a

end Claims

end MacIIvi.Floppy
