import Mathlib.Data.Nat.Log
import Mathlib.Tactic.IntervalCases
import MacIIvi.Rtl.Dpram

/-!
# Scanout of the display card

Source: `rtl/nubus/nubus_video_mdc824.sv`, from the pixel clock to the RGB outputs, and
port B of `rtl/nubus/vram_ram.sv`. The registers of the card and its memory are inputs
here. The slot interrupt and the probes are left out.
-/

namespace MacIIvi.Card

/-- What the scanout reads: the registers, the CLUT (as `{B, G, R}`), the words of the
BRAM and the options of the top level. -/
structure Config where
  baseReg : BitVec 32
  strideReg : BitVec 32
  ramdacCtrl : Byte
  clut : Byte → BitVec 24
  mem : Nat → BitVec 16
  monitor512 : Bool
  monochrome : Bool

/-! ## Geometry -/

section Geometry

variable (monitor512 : Bool)

def hTotal : Nat := if monitor512 then 640 else 896
def hRes : Nat := if monitor512 then 512 else 640
def vTotal : Nat := if monitor512 then 407 else 525
def vRes : Nat := if monitor512 then 384 else 480
def hSyncStart : Nat := if monitor512 then 528 else 672
def hSyncEnd : Nat := if monitor512 then 560 else 736
def vSyncStart : Nat := if monitor512 then 385 else 483
def vSyncEnd : Nat := if monitor512 then 388 else 486

/-- The pixel rate in kHz, on a clock of 32500 kHz. -/
def clkVideoInc : Nat := if monitor512 then 15667 else 31360

end Geometry

/-! ## The fetch -/

namespace Config

variable (c : Config)

/-- The mode of the pixel pipeline: `2 ^ mode` bits per pixel. -/
def mode : Nat :=
  let rmode := c.ramdacCtrl.extractLsb' 1 4
  if rmode = 0x0 then 0 else if rmode = 0x4 then 1 else if rmode = 0x8 then 2 else 3

/-- `{base_reg[19:0], 5'b00000}` -/
def baseBytes : Nat := c.baseReg.toNat % 2 ^ 20 * 32

/-- `{stride_reg[11:0], 2'b00}` -/
def strideBytes : Nat := c.strideReg.toNat % 2 ^ 12 * 4

def hByte (h : Nat) : Nat :=
  match c.mode with
  | 0 => h % 2 ^ 10 / 8
  | 1 => h % 2 ^ 10 / 4
  | 2 => h % 2 ^ 10 / 2
  | _ => h % 2 ^ 10

def fetchByteAddr (h v : Nat) : Nat :=
  (c.baseBytes + v % 2 ^ 10 * c.strideBytes + c.hByte h) % 2 ^ 25

/-- `VRAM_BASE + fetch_word_addr` -/
def vramScanAddr (h v : Nat) : Nat := (0x300000 + c.fetchByteAddr h v / 2) % 2 ^ 25

/-- `mem[idx_b]`, in a memory of `words` words. -/
def scanWord (words h v : Nat) : BitVec 16 := c.mem (c.vramScanAddr h v % 2 ^ Nat.clog 2 words)

end Config

/-! ## The registers -/

/-- The accumulator has 16 bits, the counters 11, `hCntD` 3. -/
structure Scan where
  clkVideoAcc : Nat
  clkVideoEn : Bool
  hCnt : Nat
  vCnt : Nat
  vgaHs : Bool
  vgaVs : Bool
  blanking : Bool
  hCntD : Nat
  byteSelD : Bool
  blankingD : Bool
  vramScanData : BitVec 16

namespace Scan

variable (words : Nat) (s : Scan) (c : Config)

/-- The accumulator overflows. -/
def overflows : Bool :=
  decide (32500 ≤ (s.clkVideoAcc + clkVideoInc c.monitor512) % 2 ^ 16)

def lastColumn : Bool := decide (hTotal c.monitor512 - 1 ≤ s.hCnt)

def lastLine : Bool := decide (vTotal c.monitor512 - 1 ≤ s.vCnt)

/-- A clock out of reset. -/
def step : Scan where
  clkVideoAcc :=
    if s.overflows c then (s.clkVideoAcc + clkVideoInc c.monitor512 + (2 ^ 16 - 32500)) % 2 ^ 16
    else (s.clkVideoAcc + clkVideoInc c.monitor512) % 2 ^ 16
  clkVideoEn := s.overflows c
  hCnt :=
    if s.clkVideoEn then if s.lastColumn c then 0 else (s.hCnt + 1) % 2 ^ 11
    else s.hCnt
  vCnt :=
    if s.clkVideoEn && s.lastColumn c then if s.lastLine c then 0 else (s.vCnt + 1) % 2 ^ 11
    else s.vCnt
  vgaHs :=
    if s.clkVideoEn then
      !(decide (hSyncStart c.monitor512 ≤ s.hCnt) && decide (s.hCnt < hSyncEnd c.monitor512))
    else s.vgaHs
  vgaVs :=
    if s.clkVideoEn then
      !(decide (vSyncStart c.monitor512 ≤ s.vCnt) && decide (s.vCnt < vSyncEnd c.monitor512))
    else s.vgaVs
  blanking :=
    if s.clkVideoEn then
      decide (hRes c.monitor512 ≤ s.hCnt) || decide (vRes c.monitor512 ≤ s.vCnt)
    else s.blanking
  hCntD := if s.clkVideoEn then s.hCnt % 8 else s.hCntD
  byteSelD :=
    if s.clkVideoEn then c.fetchByteAddr s.hCnt s.vCnt % 2 == 1 else s.byteSelD
  blankingD := if s.clkVideoEn then s.blanking else s.blankingD
  vramScanData := if s.clkVideoEn then c.scanWord words s.hCnt s.vCnt else s.vramScanData

/-- A clock in reset, which leaves the pixel pipeline alone. -/
def reset : Scan :=
  { s.step words c with
    clkVideoAcc := 0
    clkVideoEn := false
    hCnt := 0
    vCnt := 0
    vgaHs := true
    vgaVs := true
    blanking := true }

/-- The state after `t` clocks. -/
def after (i : Nat → Config) : Nat → Scan
  | 0 => s
  | t + 1 => (after i t).step words (i t)

/-! ## The pixel -/

def vramByte : Byte :=
  if s.byteSelD then s.vramScanData.extractLsb' 0 8 else s.vramScanData.extractLsb' 8 8

def pixelIdx : Byte :=
  match c.mode with
  | 0 => (s.vramByte >>> (7 - s.hCntD)) &&& 0x01
  | 1 => (s.vramByte >>> (6 - 2 * (s.hCntD % 4))) &&& 0x03
  | 2 => (s.vramByte >>> (if s.hCntD % 2 = 1 then 0 else 4)) &&& 0x0F
  | _ => s.vramByte

def monoPixel : Byte := if (s.pixelIdx c).getLsbD 0 then 0x22 else 0xEE

/-- `vga_b`, `vga_g` and `vga_r`. -/
def rgb : BitVec 24 :=
  if s.blankingD then 0
  else if c.monochrome || c.mode == 0 then s.monoPixel c ++ s.monoPixel c ++ s.monoPixel c
  else c.clut (s.pixelIdx c)

/-- Display enable, `vga_blank`. -/
def de : Bool := !s.blanking

end Scan

/-! ## The frame that is to be seen -/

namespace Config

variable (c : Config)

/-- The byte at an address of the framebuffer, high byte first. -/
def byteAt (a : Nat) : Byte :=
  if a % 2 = 0 then (c.mem (a / 2)).extractLsb' 8 8 else (c.mem (a / 2)).extractLsb' 0 8

/-- Bits per pixel. -/
def bpp : Nat := 2 ^ c.mode

/-- The first byte of a line. -/
def lineAddr (y : Nat) : Nat := c.baseReg.toNat * 32 + y * (c.strideReg.toNat * 4)

/-- The pixel at a bit offset of a line, most significant bits first. -/
def pixelAt (x y : Nat) : Byte :=
  BitVec.ofNat 8 ((c.byteAt (c.lineAddr y + x * c.bpp / 8)).toNat / 2 ^ (8 - c.bpp - x * c.bpp % 8) %
    2 ^ c.bpp)

/-- Every byte of the framebuffer is in the memory. -/
def Inside (words : Nat) : Prop :=
  ∀ x < hRes c.monitor512, ∀ y < vRes c.monitor512, c.lineAddr y + x * c.bpp / 8 < 2 * words

end Config

section Frame

variable (words : Nat) (s : Scan) (i : Nat → Config) (t : Nat)

/-- Pixel clocks among the first `k` clocks from `t` on. -/
def ticks : Nat → Nat
  | 0 => 0
  | k + 1 => ticks k + if (s.after words i (t + k)).clkVideoEn then 1 else 0

/-- The pixel clocks of a frame. -/
def frameTicks (c : Config) : Nat := hTotal c.monitor512 * vTotal c.monitor512

/-- The frame that begins at `t` is the one in memory. -/
structure FrameCorrect (c : Config) : Prop where
  /-- Every pixel clock of the frame comes. -/
  complete : ∀ n < frameTicks c, ∃ k, ticks words s i t k = n ∧
    (s.after words i (t + k)).clkVideoEn = true
  /-- Display enable marks the lines. -/
  enabled : ∀ k, (s.after words i (t + k)).clkVideoEn = true → ticks words s i t k < frameTicks c →
    ((s.after words i (t + k)).de = true ↔ ∃ y < vRes c.monitor512, ∃ x < hRes c.monitor512,
      ticks words s i t k = y * hTotal c.monitor512 + x + 1)
  /-- Each pixel is the one in memory. -/
  pixels : ∀ k, (s.after words i (t + k)).clkVideoEn = true →
    ∀ y < vRes c.monitor512, ∀ x < hRes c.monitor512,
      ticks words s i t k = y * hTotal c.monitor512 + x + 1 →
      (s.after words i (t + k)).rgb c = c.clut (c.pixelAt x y)

end Frame

/-! ## The fetch is the pixel's -/

namespace Config

variable {c : Config} {words : Nat}

theorem mode_le (c : Config) : c.mode ≤ 3 := by
  unfold mode
  dsimp only
  split_ifs <;> omega

/-- A framebuffer inside the memory needs few bits. -/
theorem Inside.narrow (inside : c.Inside words) (size : words ≤ 2 ^ 20) :
    c.baseReg.toNat % 2 ^ 20 = c.baseReg.toNat ∧ c.strideReg.toNat % 2 ^ 12 = c.strideReg.toNat := by
  have rows : 383 < vRes c.monitor512 := by unfold vRes; split <;> omega
  have columns : 0 < hRes c.monitor512 := by unfold hRes; split <;> omega
  have last := inside 0 columns 383 rows
  unfold lineAddr at last
  constructor <;> exact Nat.mod_eq_of_lt (by omega)

/-- The address that is fetched is the one of the pixel's byte. -/
theorem fetchByteAddr_eq (inside : c.Inside words) (size : words ≤ 2 ^ 20) {x y : Nat}
    (column : x < hRes c.monitor512) (row : y < vRes c.monitor512) :
    c.fetchByteAddr x y = c.lineAddr y + x * c.bpp / 8 := by
  obtain ⟨base, stride⟩ := inside.narrow size
  have here := inside x column y row
  have x_lt : x % 2 ^ 10 = x := by
    refine Nat.mod_eq_of_lt (column.trans_le ?_)
    unfold hRes
    split <;> omega
  have y_lt : y % 2 ^ 10 = y := by
    refine Nat.mod_eq_of_lt (row.trans_le ?_)
    unfold vRes
    split <;> omega
  have byte : c.hByte x = x * c.bpp / 8 := by
    unfold hByte bpp
    have le := c.mode_le
    rw [x_lt]
    interval_cases c.mode
    · change x / 8 = x * 2 ^ 0 / 8
      omega
    · change x / 4 = x * 2 ^ 1 / 8
      omega
    · change x / 2 = x * 2 ^ 2 / 8
      omega
    · change x = x * 2 ^ 3 / 8
      omega
  have sum : c.baseBytes + y % 2 ^ 10 * c.strideBytes + c.hByte x = c.lineAddr y + x * c.bpp / 8 := by
    rw [baseBytes, strideBytes, base, stride, y_lt, byte, lineAddr]
  rw [fetchByteAddr, sum]
  exact Nat.mod_eq_of_lt (by omega)

theorem scanWord_eq (inside : c.Inside words) (size : words ≤ 2 ^ 20) {x y : Nat}
    (column : x < hRes c.monitor512) (row : y < vRes c.monitor512) :
    c.scanWord words x y = c.mem ((c.lineAddr y + x * c.bpp / 8) / 2) := by
  have here := inside x column y row
  have width : Nat.clog 2 words ≤ 20 := Nat.clog_le_of_le_pow size
  have fits : words ≤ 2 ^ Nat.clog 2 words := Nat.le_pow_clog (by omega) words
  obtain ⟨k, multiple⟩ : 2 ^ Nat.clog 2 words ∣ 0x300000 :=
    (pow_dvd_pow 2 width).trans ⟨3, rfl⟩
  rw [scanWord, vramScanAddr, fetchByteAddr_eq inside size column row]
  have small : (0x300000 + (c.lineAddr y + x * c.bpp / 8) / 2) % 2 ^ 25 =
      0x300000 + (c.lineAddr y + x * c.bpp / 8) / 2 := Nat.mod_eq_of_lt (by omega)
  rw [small, multiple, Nat.mul_add_mod]
  rw [Nat.mod_eq_of_lt (by omega)]

end Config

namespace Scan

variable {words : Nat} {s : Scan} {c : Config} {x y : Nat}

/-- What the pixel pipeline holds a tick after a position. -/
structure Fetched (words : Nat) (c : Config) (x y : Nat) (s : Scan) : Prop where
  column : s.hCntD = x % 8
  half : s.byteSelD = (c.fetchByteAddr x y % 2 == 1)
  word : s.vramScanData = c.scanWord words x y

theorem Fetched.vramByte (fetched : Fetched words c x y s) (inside : c.Inside words)
    (size : words ≤ 2 ^ 20) (column : x < hRes c.monitor512) (row : y < vRes c.monitor512) :
    s.vramByte = c.byteAt (c.lineAddr y + x * c.bpp / 8) := by
  rw [Scan.vramByte, fetched.half, fetched.word, Config.scanWord_eq inside size column row,
    Config.fetchByteAddr_eq inside size column row, Config.byteAt]
  by_cases even : (c.lineAddr y + x * c.bpp / 8) % 2 = 0
  · rw [if_pos even, if_neg (by simp [even])]
  · rw [if_neg even, if_pos (by simpa using even)]

/-- Bits of a byte, by a shift and a mask. -/
theorem bits_eq (b : Byte) (shift width : Nat) (narrow : width ≤ 8) :
    (b >>> shift) &&& BitVec.ofNat 8 (2 ^ width - 1) =
      BitVec.ofNat 8 (b.toNat / 2 ^ shift % 2 ^ width) := by
  apply BitVec.eq_of_toNat_eq
  have pow_le : 2 ^ width ≤ 2 ^ 8 := Nat.pow_le_pow_right (by omega) narrow
  have mask : (2 ^ width - 1) % 2 ^ 8 = 2 ^ width - 1 := by
    have positive : 0 < 2 ^ width := Nat.two_pow_pos _
    exact Nat.mod_eq_of_lt (by omega)
  have small : b.toNat / 2 ^ shift % 2 ^ width < 2 ^ 8 :=
    (Nat.mod_lt _ (Nat.two_pow_pos _)).trans_le pow_le
  rw [BitVec.toNat_and, BitVec.toNat_ushiftRight, BitVec.toNat_ofNat, BitVec.toNat_ofNat, mask,
    Nat.and_two_pow_sub_one_eq_mod, Nat.shiftRight_eq_div_pow, Nat.mod_eq_of_lt small]

theorem Fetched.pixelIdx (fetched : Fetched words c x y s) (inside : c.Inside words)
    (size : words ≤ 2 ^ 20) (column : x < hRes c.monitor512) (row : y < vRes c.monitor512) :
    s.pixelIdx c = c.pixelAt x y := by
  have byte := fetched.vramByte inside size column row
  have le := c.mode_le
  rw [Scan.pixelIdx, Config.pixelAt, byte, fetched.column]
  generalize c.byteAt _ = b
  unfold Config.bpp
  interval_cases mode : c.mode
  · have shift : 8 - 2 ^ 0 - x * 2 ^ 0 % 8 = 7 - x % 8 := by omega
    rw [shift]
    exact bits_eq b _ 1 (by omega)
  · have shift : 8 - 2 ^ 1 - x * 2 ^ 1 % 8 = 6 - 2 * (x % 8 % 4) := by omega
    rw [shift]
    exact bits_eq b _ 2 (by omega)
  · have shift : 8 - 2 ^ 2 - x * 2 ^ 2 % 8 = if x % 8 % 2 = 1 then 0 else 4 := by split <;> omega
    rw [shift]
    exact bits_eq b _ 4 (by omega)
  · have shift : 8 - 2 ^ 3 - x * 2 ^ 3 % 8 = 0 := by omega
    have whole : b.toNat % 2 ^ 2 ^ 3 = b.toNat := Nat.mod_eq_of_lt b.isLt
    rw [shift, pow_zero, Nat.div_one, whole, BitVec.ofNat_toNat, BitVec.setWidth_eq]
    rfl

end Scan

/-! ## The raster -/

/-- The position before the `n`-th pixel clock of a frame is blank. -/
def blankBefore (c : Config) (n : Nat) : Bool :=
  n == 0 || decide (hRes c.monitor512 ≤ (n - 1) % hTotal c.monitor512) ||
    decide (vRes c.monitor512 ≤ (n - 1) / hTotal c.monitor512)

/-- The position after the next one. -/
theorem position_succ (m : Bool) (n : Nat) :
    (n % hTotal m = hTotal m - 1 → (n + 1) % hTotal m = 0 ∧ (n + 1) / hTotal m = n / hTotal m + 1) ∧
    (n % hTotal m ≠ hTotal m - 1 →
      (n + 1) % hTotal m = n % hTotal m + 1 ∧ (n + 1) / hTotal m = n / hTotal m) := by
  unfold hTotal
  cases m <;> simp only [Bool.false_eq_true, if_true, if_false] <;> omega

theorem position_lt (m : Bool) {n : Nat} (inside : n < hTotal m * vTotal m) :
    n % hTotal m < hTotal m ∧ n / hTotal m < vTotal m ∧ hTotal m < 2 ^ 10 ∧ vTotal m < 2 ^ 10 := by
  unfold hTotal vTotal at *
  cases m <;> simp only [Bool.false_eq_true, if_true, if_false] at * <;> omega

/-- The place of a position in the frame. -/
theorem position_eq (m : Bool) {x y : Nat} (column : x < hTotal m) :
    (y * hTotal m + x) % hTotal m = x ∧ (y * hTotal m + x) / hTotal m = y := by
  unfold hTotal at *
  cases m <;> simp only [Bool.false_eq_true, if_true, if_false] at * <;> omega

theorem hRes_lt (m : Bool) : hRes m < hTotal m := by
  unfold hRes hTotal
  cases m <;> decide

theorem vRes_lt (m : Bool) : vRes m < vTotal m := by
  unfold vRes vTotal
  cases m <;> decide

namespace Scan

variable {words : Nat} {s : Scan} {c : Config} {n : Nat}

/-- The registers before the `n`-th pixel clock of a frame. -/
structure Aligned (words : Nat) (c : Config) (n : Nat) (s : Scan) : Prop where
  column : s.hCnt = n % hTotal c.monitor512
  line : s.vCnt = n / hTotal c.monitor512
  blank : s.blanking = blankBefore c n
  fetched : 0 < n →
    Fetched words c ((n - 1) % hTotal c.monitor512) ((n - 1) / hTotal c.monitor512) s
  delayed : 0 < n → s.blankingD = blankBefore c (n - 1)

theorem Aligned.wait (aligned : Aligned words c n s) (off : s.clkVideoEn = false) :
    Aligned words c n (s.step words c) := by
  obtain ⟨column, line, blank, fetched, delayed⟩ := aligned
  refine ⟨by simpa [step, off] using column, by simpa [step, off] using line,
    by simpa [step, off] using blank, fun positive => ?_, fun positive => ?_⟩
  · obtain ⟨col, half, word⟩ := fetched positive
    exact ⟨by simpa [step, off] using col, by simpa [step, off] using half,
      by simpa [step, off] using word⟩
  · simpa [step, off] using delayed positive

theorem Aligned.tick (aligned : Aligned words c n s) (on : s.clkVideoEn = true)
    (inside : n + 1 < frameTicks c) : Aligned words c (n + 1) (s.step words c) := by
  obtain ⟨column, line, blank, -, -⟩ := aligned
  obtain ⟨wraps, goes⟩ := position_succ c.monitor512 n
  obtain ⟨column_lt, line_lt, narrow, short⟩ := position_lt c.monitor512 (show n < _ by
    unfold frameTicks at inside
    omega)
  have next_lt := (position_lt c.monitor512 inside).2.1
  refine ⟨?_, ?_, ?_, fun _ => ⟨?_, ?_, ?_⟩, fun _ => ?_⟩
  · by_cases last : n % hTotal c.monitor512 = hTotal c.monitor512 - 1
    · simp [step, on, lastColumn, column, last, (wraps last).1]
    · have early : ¬ hTotal c.monitor512 - 1 ≤ n % hTotal c.monitor512 := by omega
      have small : (n % hTotal c.monitor512 + 1) % 2 ^ 11 = n % hTotal c.monitor512 + 1 :=
        Nat.mod_eq_of_lt (by omega)
      simp only [step, on, lastColumn, column, early, small, (goes last).1]
      rfl
  · by_cases last : n % hTotal c.monitor512 = hTotal c.monitor512 - 1
    · have above : ¬ vTotal c.monitor512 - 1 ≤ n / hTotal c.monitor512 := by
        rw [(wraps last).2] at next_lt
        omega
      have small : (n / hTotal c.monitor512 + 1) % 2 ^ 11 = n / hTotal c.monitor512 + 1 :=
        Nat.mod_eq_of_lt (by omega)
      simp only [step, on, lastColumn, lastLine, column, line, last, above, small, (wraps last).2]
      simp
    · have early : ¬ hTotal c.monitor512 - 1 ≤ n % hTotal c.monitor512 := by omega
      simp [step, on, lastColumn, column, line, early, (goes last).2]
  · simp [step, on, column, line, blankBefore]
  · simp [step, on, column]
  · simp [step, on, column, line]
  · simp [step, on, column, line]
  · simp [step, on, blank]

end Scan

/-! ## The pixel clock -/

namespace Scan

/-- What holds from a reset on. -/
structure Settled (s : Scan) : Prop where
  acc : s.clkVideoAcc < 32500
  blank : s.hCnt = 0 → s.blanking = true

variable {words : Nat} {s : Scan} {c : Config}

theorem overflows_eq (acc : s.clkVideoAcc < 32500) :
    s.overflows c = decide (32500 ≤ s.clkVideoAcc + clkVideoInc c.monitor512) := by
  have inc : clkVideoInc c.monitor512 ≤ 31360 := by unfold clkVideoInc; split <;> omega
  have small : (s.clkVideoAcc + clkVideoInc c.monitor512) % 2 ^ 16 =
      s.clkVideoAcc + clkVideoInc c.monitor512 := Nat.mod_eq_of_lt (by omega)
  rw [overflows, small]

/-- A clock without an overflow brings the accumulator on. -/
theorem step_acc (settled : Settled s) : (s.step words c).clkVideoAcc < 32500 ∧
    ((s.step words c).clkVideoEn = false → s.clkVideoAcc + 15667 ≤ (s.step words c).clkVideoAcc) := by
  have acc := settled.acc
  have inc : 15667 ≤ clkVideoInc c.monitor512 ∧ clkVideoInc c.monitor512 ≤ 31360 := by
    unfold clkVideoInc
    split <;> omega
  simp only [step, overflows_eq acc]
  by_cases carry : 32500 ≤ s.clkVideoAcc + clkVideoInc c.monitor512
  · rw [decide_eq_true carry, if_pos rfl]
    exact ⟨by omega, fun off => by cases off⟩
  · rw [decide_eq_false carry, if_neg (by decide)]
    exact ⟨by omega, fun _ => by omega⟩

theorem settled_step (settled : Settled s) : Settled (s.step words c) := by
  refine ⟨(step_acc settled).1, ?_⟩
  intro zero
  cases on : s.clkVideoEn
  · have here : s.hCnt = 0 := by simpa [step, on] using zero
    simpa [step, on] using settled.blank here
  · cases last : s.lastColumn c
    · have wide : hTotal c.monitor512 - 1 ≤ 2046 := by unfold hTotal; split <;> omega
      simp only [lastColumn, decide_eq_false_iff_not] at last
      simp only [step, on, lastColumn, last, if_true, decide_false, Bool.false_eq_true, if_false] at zero
      exact absurd zero (by omega)
    · have le := hRes_lt c.monitor512
      simp only [lastColumn, decide_eq_true_eq] at last
      have beyond : hRes c.monitor512 ≤ s.hCnt := by omega
      simp [step, on, beyond]

variable (s c) (i : Nat → Config)

theorem settled_after (t : Nat) : Settled ((s.reset words c).after words i t) := by
  induction t with
  | zero => exact ⟨Nat.zero_lt_succ _, fun _ => rfl⟩
  | succ t ih => exact settled_step ih

variable {s c i}

/-- A pixel clock comes within three clocks. -/
theorem tick_comes {t : Nat} (settled : ∀ u, Settled (s.after words i u)) :
    ∃ d, (s.after words i (t + d)).clkVideoEn = true := by
  by_contra none_
  simp only [not_exists, Bool.not_eq_true] at none_
  have first : (s.after words i t).clkVideoAcc + 15667 ≤ (s.after words i (t + 1)).clkVideoAcc :=
    (step_acc (settled t)).2 (none_ 1)
  have second : (s.after words i (t + 1)).clkVideoAcc + 15667 ≤
      (s.after words i (t + 2)).clkVideoAcc := (step_acc (settled (t + 1))).2 (none_ 2)
  have third : (s.after words i (t + 2)).clkVideoAcc + 15667 ≤
      (s.after words i (t + 3)).clkVideoAcc := (step_acc (settled (t + 2))).2 (none_ 3)
  have bound := (settled (t + 3)).acc
  omega

end Scan

section Frame

open Scan

variable {words : Nat} {s : Scan} {i : Nat → Config} {t : Nat} {c : Config}

theorem ticks_still {k d : Nat}
    (off : ∀ e < d, (s.after words i (t + (k + e))).clkVideoEn = false) :
    ticks words s i t (k + d) = ticks words s i t k := by
  induction d with
  | zero => rfl
  | succ d ih =>
    rw [← Nat.add_assoc, ticks, off d (by omega), ih fun e before => off e (by omega)]
    rfl

/-- The next pixel clock. -/
theorem next_tick (settled : ∀ u, Settled (s.after words i u)) (k : Nat) :
    ∃ k', ticks words s i t k' = ticks words s i t k ∧
      (s.after words i (t + k')).clkVideoEn = true := by
  have comes : ∃ d, (s.after words i (t + (k + d))).clkVideoEn = true := by
    obtain ⟨d, on⟩ := tick_comes (t := t + k) settled
    exact ⟨d, by rwa [← Nat.add_assoc]⟩
  refine ⟨k + Nat.find comes, ticks_still fun e before => ?_, Nat.find_spec comes⟩
  simpa using Nat.find_min comes before

theorem tick_exists (settled : ∀ u, Settled (s.after words i u)) (n : Nat) :
    ∃ k, ticks words s i t k = n ∧ (s.after words i (t + k)).clkVideoEn = true := by
  induction n with
  | zero => exact next_tick settled 0
  | succ n ih =>
    obtain ⟨k, count, on⟩ := ih
    obtain ⟨k', same, on'⟩ := next_tick (t := t) settled (k + 1)
    refine ⟨k', ?_, on'⟩
    rw [same, ticks, count, on]
    rfl

/-- A frame begins at `t`, and nothing that it shows changes before its end. -/
structure FrameHeld (words : Nat) (s : Scan) (i : Nat → Config) (t : Nat) (c : Config) : Prop where
  column : (s.after words i t).hCnt = 0
  line : (s.after words i t).vCnt = 0
  held : ∀ k, ticks words s i t k < frameTicks c → i (t + k) = c

theorem aligned_run (settled : ∀ u, Settled (s.after words i u)) (held : FrameHeld words s i t c)
    (k : Nat) (inside : ticks words s i t k < frameTicks c) :
    Aligned words c (ticks words s i t k) (s.after words i (t + k)) := by
  induction k with
  | zero =>
    refine ⟨?_, ?_, ?_, fun positive => absurd positive (Nat.lt_irrefl _),
      fun positive => absurd positive (Nat.lt_irrefl _)⟩
    · rw [ticks, Nat.zero_mod]
      exact held.column
    · rw [ticks, Nat.zero_div]
      exact held.line
    · exact (settled t).blank held.column
  | succ k ih =>
    have next : s.after words i (t + (k + 1)) = (s.after words i (t + k)).step words (i (t + k)) := rfl
    rw [ticks] at inside ⊢
    have before : ticks words s i t k < frameTicks c := by omega
    rw [next, held.held k before]
    cases on : (s.after words i (t + k)).clkVideoEn
    · rw [on] at inside
      exact (ih before).wait on
    · rw [on] at inside
      exact (ih before).tick on inside

/-- Where a pixel of the frame is. -/
theorem tick_inside (m : Bool) {x y : Nat} (column : x < hRes m) (row : y < vRes m) :
    y * hTotal m + x + 1 < hTotal m * vTotal m := by
  have h := hRes_lt m
  have v := vRes_lt m
  calc y * hTotal m + x + 1
      < (y + 1) * hTotal m := by rw [Nat.succ_mul]; omega
    _ ≤ vTotal m * hTotal m := Nat.mul_le_mul_right _ (by omega)
    _ = hTotal m * vTotal m := Nat.mul_comm _ _

theorem Scan.Aligned.de_iff {n : Nat} {s : Scan} (aligned : Aligned words c n s) :
    s.de = true ↔ ∃ y < vRes c.monitor512, ∃ x < hRes c.monitor512,
      n = y * hTotal c.monitor512 + x + 1 := by
  rw [de, aligned.blank, blankBefore]
  constructor
  · intro on
    simp only [Bool.not_or, Bool.and_eq_true, Bool.not_eq_true', beq_eq_false_iff_ne,
      decide_eq_false_iff_not, Nat.not_le] at on
    obtain ⟨⟨positive, column⟩, row⟩ := on
    refine ⟨_, row, _, column, ?_⟩
    have parts := Nat.div_add_mod (n - 1) (hTotal c.monitor512)
    rw [Nat.mul_comm] at parts
    omega
  · rintro ⟨y, row, x, column, rfl⟩
    obtain ⟨col, line⟩ := position_eq c.monitor512 (column.trans (hRes_lt c.monitor512)) (y := y)
    rw [Nat.add_sub_cancel, col, line]
    simp [column, row]

/-- What a tick shows: the first column is black. -/
theorem Scan.Aligned.rgb {x y : Nat} {s : Scan}
    (aligned : Aligned words c (y * hTotal c.monitor512 + x + 1) s)
    (inside : c.Inside words) (size : words ≤ 2 ^ 20) (colour : c.monochrome = false)
    (deep : c.mode ≠ 0) (column : x < hRes c.monitor512) (row : y < vRes c.monitor512) :
    s.rgb c = if x = 0 then 0 else c.clut (c.pixelAt x y) := by
  have h := hRes_lt c.monitor512
  obtain ⟨col, line⟩ := position_eq c.monitor512 (column.trans h) (y := y)
  have delayed := aligned.delayed (by omega)
  rw [Nat.add_sub_cancel] at delayed
  rw [Scan.rgb, delayed]
  by_cases first : x = 0
  · have blank : blankBefore c (y * hTotal c.monitor512 + x) = true := by
      subst first
      rcases y with _ | y
      · rw [Nat.zero_mul]
        rfl
      · obtain ⟨wide, -⟩ := position_eq c.monitor512 (y := y)
          (show hTotal c.monitor512 - 1 < hTotal c.monitor512 by omega)
        have before : (y + 1) * hTotal c.monitor512 + 0 - 1 =
            y * hTotal c.monitor512 + (hTotal c.monitor512 - 1) := by
          rw [Nat.succ_mul]
          omega
        have beyond : hRes c.monitor512 ≤ hTotal c.monitor512 - 1 := by omega
        rw [blankBefore, before, wide, decide_eq_true beyond]
        simp
    rw [blank, if_pos rfl, if_pos first]
  · have shown : blankBefore c (y * hTotal c.monitor512 + x) = false := by
      obtain ⟨col', line'⟩ := position_eq c.monitor512 (y := y)
        (show x - 1 < hTotal c.monitor512 by omega)
      have before : y * hTotal c.monitor512 + x - 1 = y * hTotal c.monitor512 + (x - 1) := by omega
      have some_ : (y * hTotal c.monitor512 + x == 0) = false := beq_eq_false_iff_ne.2 (by omega)
      have narrow : ¬ hRes c.monitor512 ≤ x - 1 := by omega
      have above : ¬ vRes c.monitor512 ≤ y := by omega
      rw [blankBefore, before, col', line', some_, decide_eq_false narrow, decide_eq_false above]
      rfl
    have fetched := aligned.fetched (by omega)
    rw [Nat.add_sub_cancel, col, line] at fetched
    have colours : (c.monochrome || c.mode == 0) = false := by
      rw [colour, beq_eq_false_iff_ne.2 deep]
      rfl
    rw [shown, colours, fetched.pixelIdx inside size column row, if_neg first]
    rfl

section Held

variable (size : words ≤ 2 ^ 20) (settled : ∀ u, Settled (s.after words i u))
  (held : FrameHeld words s i t c) (colour : c.monochrome = false) (deep : c.mode ≠ 0)
  (inside : c.Inside words)

include size settled held colour deep inside

theorem frame_black (frame : FrameCorrect words s i t c) {y : Nat} (row : y < vRes c.monitor512) :
    c.clut (c.pixelAt 0 y) = 0 := by
  have column : 0 < hRes c.monitor512 := by unfold hRes; split <;> omega
  obtain ⟨k, count, on⟩ := frame.complete _ (tick_inside c.monitor512 column row)
  have shown := frame.pixels k on y row 0 column count
  have here := aligned_run settled held k
    (by rw [count]; exact tick_inside c.monitor512 column row)
  rw [count] at here
  rw [here.rgb inside size colour deep column row, if_pos rfl] at shown
  exact shown.symm

theorem frame_correct (black : ∀ y < vRes c.monitor512, c.clut (c.pixelAt 0 y) = 0) :
    FrameCorrect words s i t c where
  complete := fun n _ => tick_exists settled n
  enabled := fun k _ upTo => (aligned_run settled held k upTo).de_iff
  pixels := by
    intro k _ y row x column count
    have here := aligned_run settled held k
      (by rw [count]; exact tick_inside c.monitor512 column row)
    rw [count] at here
    rw [here.rgb inside size colour deep column row]
    split
    · next first =>
      rw [first, black y row]
    · rfl

end Held

/-- The frame is the one in memory exactly when its first column is black. -/
theorem frameCorrect_iff (words : Nat) (size : words ≤ 2 ^ 20) (s₀ : Scan) (c₀ : Config)
    (i : Nat → Config) (t : Nat) (c : Config)
    (held : FrameHeld words (s₀.reset words c₀) i t c) (colour : c.monochrome = false)
    (deep : c.mode ≠ 0) (inside : c.Inside words) :
    FrameCorrect words (s₀.reset words c₀) i t c ↔
      ∀ y < vRes c.monitor512, c.clut (c.pixelAt 0 y) = 0 := by
  have settled : ∀ u, Settled ((s₀.reset words c₀).after words i u) := settled_after s₀ c₀ i
  constructor
  · intro frame y row
    exact frame_black size settled held colour deep inside frame row
  · exact frame_correct size settled held colour deep inside

/-- 256 colours on 640 x 480, with the memory and the registers of the pipeline zero. -/
def plain (clut : Byte → BitVec 24) : Config where
  baseReg := 0
  strideReg := 160
  ramdacCtrl := 0x18
  clut := clut
  mem := fun _ => 0
  monitor512 := false
  monochrome := false

def blankScan : Scan where
  clkVideoAcc := 0
  clkVideoEn := false
  hCnt := 0
  vCnt := 0
  vgaHs := true
  vgaVs := true
  blanking := true
  hCntD := 0
  byteSelD := false
  blankingD := true
  vramScanData := 0

theorem plain_held (clut : Byte → BitVec 24) :
    FrameHeld 157696 (blankScan.reset 157696 (plain clut)) (fun _ => plain clut) 0 (plain clut) :=
  ⟨rfl, rfl, fun _ _ => rfl⟩

theorem plain_bpp (clut : Byte → BitVec 24) : (plain clut).bpp = 8 := by
  simp [Config.bpp, Config.mode, plain]

theorem plain_inside (clut : Byte → BitVec 24) : (plain clut).Inside 157696 := by
  intro x column y row
  change x < 640 at column
  change y < 480 at row
  rw [plain_bpp]
  change 0 * 32 + y * (160 * 4) + x * 8 / 8 < 2 * 157696
  omega

/-- Each line counts its bytes, and the CLUT is the grey ramp that it starts with. -/
def columns : Config :=
  { plain fun b => b ++ b ++ b with
    mem := fun a => BitVec.ofNat 8 (2 * a % 640) ++ BitVec.ofNat 8 ((2 * a + 1) % 640) }

theorem columns_byteAt (a : Nat) : columns.byteAt a = BitVec.ofNat 8 (a % 640) := by
  have word : columns.mem (a / 2) =
      BitVec.ofNat 8 (2 * (a / 2) % 640) ++ BitVec.ofNat 8 ((2 * (a / 2) + 1) % 640) := rfl
  unfold Config.byteAt
  rw [word]
  split
  · rw [BitVec.extractLsb'_append_eq_left, show 2 * (a / 2) = a by omega]
  · rw [BitVec.extractLsb'_append_eq_right, show 2 * (a / 2) + 1 = a by omega]

theorem columns_pixelAt {x : Nat} (column : x < 640) (y : Nat) :
    columns.pixelAt x y = BitVec.ofNat 8 x := by
  have bpp : columns.bpp = 8 := plain_bpp fun b => b ++ b ++ b
  have line : (columns.lineAddr y + x * 8 / 8) % 640 = x := by
    change (0 * 32 + y * (160 * 4) + x * 8 / 8) % 640 = x
    omega
  rw [Config.pixelAt, bpp, columns_byteAt, line]
  apply BitVec.eq_of_toNat_eq
  simp

/-- Lines of 640 pixels in 256 greys. -/
theorem frameCorrect_iff_columns :
    FrameCorrect 157696 (blankScan.reset 157696 columns) (fun _ => columns) 0 columns ∧
      ∀ x < 640, ∀ y, columns.pixelAt x y = BitVec.ofNat 8 x :=
  ⟨(frameCorrect_iff 157696 (by decide) _ _ _ 0 columns ⟨rfl, rfl, fun _ _ => rfl⟩ rfl (by decide)
      (plain_inside fun b => b ++ b ++ b)).2 fun y _ => by
        rw [columns_pixelAt (by decide)]
        rfl,
    fun _ column y => columns_pixelAt column y⟩

/-- A white screen has a black first column. -/
theorem frameCorrect_white :
    ¬ FrameCorrect 157696 (blankScan.reset 157696 (plain fun _ => 0xFFFFFF)) (fun _ => plain fun _ => 0xFFFFFF)
      0 (plain fun _ => 0xFFFFFF) := by
  intro frame
  have black := frame_black (by decide) (settled_after _ _ _) (plain_held _) rfl (by decide)
    (plain_inside _) frame (show 0 < 480 by decide)
  exact absurd black (show (0xFFFFFF#24 : BitVec 24) ≠ 0 by decide)

end Frame

end MacIIvi.Card
