import MacIIvi.CdAudio.Planes
import MacIIvi.Rtl.DpramSettle
import MacIIvi.Scsi.Target

/-!
# What the target puts on the bus in a DataIn phase

Source: `rtl/scsi.v`, `cmd_dout`, `cmd_dout_pair`, `cmd_dout_pair_next` and the
response functions behind them. Every source of bytes has four lanes: the byte
at `data_cnt` and the three after it. The first lane alone is `dout`, the first
two are `dout_pair`, the other two `dout_pair_next`.
-/

namespace MacIIvi

open CdAudio (Planes)
open Dpram (Look)

/-- `cd_ap_*`: the audio ports written by MODE SELECT, page 0x0E. -/
structure AudioPage where
  ch0 : Byte := 0x01
  vol0 : Byte := 0xff
  ch1 : Byte := 0x02
  vol1 : Byte := 0xff
  ch2 : Byte := 0x04
  vol2 : Byte := 0x00
  ch3 : Byte := 0x08
  vol3 : Byte := 0x00

/-- The registers and response memories of the CD-audio engine the lanes read. -/
structure CaServe where
  astCode : Byte := 0
  curCtrl : Byte := 0
  curTrk : Byte := 0
  absM : Byte := 0
  absS : Byte := 0
  absF : Byte := 0
  relM : Byte := 0
  relS : Byte := 0
  relF : Byte := 0
  tocReady : Bool := false
  toc : Planes := {}
  t43 : Planes := {}
  t43Len : BitVec 10 := 0
  t2 : Planes := {}
  t2Len : BitVec 10 := 0
  discAudio : Bool := false

/-- A target with everything its lanes show. -/
structure Serve where
  tgt : Target
  inp : TargetIn := {}
  page : AudioPage := {}
  ca : CaServe := {}

/-- The outputs of the two sector buffers and the two Toolbox buffers. -/
structure Looks where
  buffer0 : Look
  buffer1 : Look
  tbBuf0 : Look
  tbBuf1 : Look

namespace Serve

/-! ### Response functions -/

/-- Character `k` of a response text. -/
def text (s : String) (k : Nat) : Byte := BitVec.ofNat 8 (s.toList.getD k ' ').toNat

/-- Byte `k` of a number, the lowest one first. -/
def byteOf (v k : Nat) : Byte := BitVec.ofNat 8 (v / 256 ^ k)

/-- `scsi_bin2bcd`, for 0 to 99. -/
def scsiBin2bcd (v : Byte) : Byte := (v / 10) <<< 4 ||| v % 10

/-- `cd_bcd2bin` -/
def cdBcd2bin (b : Byte) : Nat := b.toNat / 16 * 10 + b.toNat % 16

variable (P : Params) (s : Serve)

/-- `sense_byte` -/
def senseByte (cnt : Nat) : Byte :=
  match cnt with
  | 0 => 0x70
  | 2 => if P.cdrom then s.tgt.cdSenseKey.zeroExtend 8 else 0x00
  | 7 => 0x0a
  | 12 => if P.cdrom then s.tgt.cdSenseAsc else 0x00
  | _ => 0x00

/-- `cd_inquiry_byte` -/
def cdInquiryByte (cnt : Nat) : Byte :=
  if 8 ≤ cnt ∧ cnt ≤ 35 then text "SONY    CD-ROM CDU-8004 1.9a" (cnt - 8)
  else
    match cnt with
    | 0 => 0x05
    | 1 => 0x80
    | 2 => 0x02
    | 3 => 0x02
    | 4 => 0x31
    | 39 => 0xd0
    | 40 => 0x90
    | 41 => 0x27
    | 42 => 0x3e
    | 43 => 0x01
    | 44 => 0x04
    | 45 => 0x91
    | 47 => 0x18
    | 48 => 0x06
    | 49 => 0xf0
    | 50 => 0xfe
    | _ => 0x00

/-- `inquiry_byte`. The vendor text is `SCSI_VENDOR_STRING`. -/
def inquiryByte (cnt : Nat) : Byte :=
  if P.cdrom then cdInquiryByte cnt
  else if cnt = 4 then 31
  else if 8 ≤ cnt ∧ cnt ≤ 15 then text "MiSTer  " (cnt - 8)
  else if cnt = 28 then 0x30 + BitVec.ofNat 8 P.id
  else if 16 ≤ cnt ∧ cnt ≤ 31 then text "VIRTUAL DISK" (cnt - 16)
  else 0x00

/-- `read_capacity_dout`, as a function of the count. -/
def readCapacityByte (cnt : Nat) : Byte :=
  match cnt with
  | 0 => byteOf s.tgt.capacity 3
  | 1 => byteOf s.tgt.capacity 2
  | 2 => byteOf s.tgt.capacity 1
  | 3 => byteOf s.tgt.capacity 0
  | 6 => if P.cdrom then 0x08 else 2
  | _ => 0x00

/-- `mode_sense_p31_byte` -/
def modeSenseP31Byte (cnt : Nat) : Byte :=
  if 14 ≤ cnt ∧ cnt ≤ 54 then text "BlueSCSI is the BEST STOLEN FROM BLUESCSI" (cnt - 14)
  else
    match cnt with
    | 0 => 55
    | 3 => 8
    | 10 => 2
    | 12 => 0x31
    | 13 => 0x2a
    | _ => 0x00

/-- The header and block descriptor the CD-ROM pages share, with the mode data
length `len`. -/
def cdModeHeader (len : Byte) (cnt : Nat) : Byte :=
  match cnt with
  | 0 => len
  | 2 => 0x80
  | 3 => 8
  | 5 => byteOf s.tgt.capacity 2
  | 6 => byteOf s.tgt.capacity 1
  | 7 => byteOf s.tgt.capacity 0
  | 10 => 0x08
  | _ => 0x00

/-- `cd_ms30` -/
def cdMs30 : Bool := P.cdrom && s.tgt.cmd.cmdModeSense && s.tgt.cmd.modePage == 0x30

/-- `cd_ms0e` -/
def cdMs0e : Bool := P.cdrom && s.tgt.cmd.cmdModeSense && s.tgt.cmd.modePage == 0x0e

/-- `cd_ms2a` -/
def cdMs2a : Bool := P.cdrom && s.tgt.cmd.cmdModeSense && s.tgt.cmd.modePage == 0x2a

/-- `cd_ms31` -/
def cdMs31 : Bool := P.cdchangerEnable && s.tgt.cmd.cmdModeSense && s.tgt.cmd.modePage == 0x31

/-- `cd_mode_sense_byte` -/
def cdModeSenseByte (cnt : Nat) : Byte :=
  if cnt < 12 then s.cdModeHeader (if s.cdMs30 P then 35 else 11) cnt
  else if cnt = 12 then 0x30
  else if 14 ≤ cnt ∧ cnt ≤ 35 then text "APPLE COMPUTER, INC   " (cnt - 14)
  else 0x00

/-- `cd_ms0e_byte` -/
def cdMs0eByte (cnt : Nat) : Byte :=
  match cnt with
  | 12 => 0x0e
  | 13 => 0x0e
  | 14 => 0x04
  | 18 => 75
  | 19 => 75
  | 20 => s.page.ch0
  | 21 => s.page.vol0
  | 22 => s.page.ch1
  | 23 => s.page.vol1
  | 24 => s.page.ch2
  | 25 => s.page.vol2
  | 26 => s.page.ch3
  | 27 => s.page.vol3
  | _ => s.cdModeHeader 27 cnt

/-- `cd_ms2a_byte` -/
def cdMs2aByte (cnt : Nat) : Byte :=
  match cnt with
  | 12 => 0x2a
  | 13 => 0x18
  | 16 => 0x71
  | 18 => 0x28
  | 19 => 0x03
  | 22 => 0x01
  | _ => s.cdModeHeader 37 cnt

/-- `mode_sense_def_dout`, as a function of the count. -/
def modeSenseDefByte (cnt : Nat) : Byte :=
  match cnt with
  | 0 => 11
  | 3 => 8
  | 5 => byteOf s.tgt.capacity 2
  | 6 => byteOf s.tgt.capacity 1
  | 7 => byteOf s.tgt.capacity 0
  | 10 => 2
  | _ => 0x00

/-- `mode_sense_dout`, as a function of the count. -/
def modeSenseByte (cnt : Nat) : Byte :=
  if P.cdrom then
    if s.cdMs0e P then s.cdMs0eByte cnt
    else if s.cdMs2a P then s.cdMs2aByte cnt
    else if s.cdMs31 P then modeSenseP31Byte cnt
    else s.cdModeSenseByte P cnt
  else if s.tgt.cmd.modeSenseP31 P s.tgt.tbReady then modeSenseP31Byte cnt
  else s.modeSenseDefByte cnt

/-- `cd_subq_byte` -/
def cdSubqByte (cnt : Nat) : Byte :=
  match cnt with
  | 1 => scsiBin2bcd s.ca.curTrk
  | 2 => 0x01
  | 3 => scsiBin2bcd s.ca.relM
  | 4 => scsiBin2bcd s.ca.relS
  | 5 => scsiBin2bcd s.ca.relF
  | 6 => scsiBin2bcd s.ca.absM
  | 7 => scsiBin2bcd s.ca.absS
  | 8 => scsiBin2bcd s.ca.absF
  | _ => 0x00

/-- `cd_astat_byte` -/
def cdAstatByte (cnt : Nat) : Byte :=
  match cnt with
  | 0 => if s.tgt.cmd 3 = 1 then 0xff else s.ca.astCode
  | 1 => if s.tgt.cmd 3 = 1 then 0xff else 0x00
  | 2 => s.ca.curCtrl
  | 3 => scsiBin2bcd s.ca.absM
  | 4 => scsiBin2bcd s.ca.absS
  | 5 => scsiBin2bcd s.ca.absF
  | _ => 0x00

/-- `ca_ast_std` -/
def caAstStd : Byte :=
  if s.ca.astCode = 0 then 0x11 else if s.ca.astCode = 1 then 0x12 else 0x13

/-- `cd_subq43_byte` -/
def cdSubq43Byte (cnt : Nat) : Byte :=
  if s.tgt.cmd 3 = 0x02 then
    match cnt with
    | 1 => s.caAstStd
    | 3 => 20
    | 4 => 0x02
    | _ => 0x00
  else if s.tgt.cmd 3 = 0x03 then
    match cnt with
    | 1 => s.caAstStd
    | 3 => 20
    | 4 => 0x03
    | 6 => s.tgt.cmd 6
    | _ => 0x00
  else
    match cnt with
    | 1 => s.caAstStd
    | 3 => 12
    | 4 => 0x01
    | 5 => s.ca.curCtrl
    | 6 => s.ca.curTrk
    | 7 => 0x01
    | 9 => s.ca.absM
    | 10 => s.ca.absS
    | 11 => s.ca.absF
    | 13 => s.ca.relM
    | 14 => s.ca.relS
    | 15 => s.ca.relF
    | _ => 0x00

/-- `cd_hdr_byte` -/
def cdHdrByte (cnt : Nat) : Byte :=
  match cnt with
  | 0 => if s.ca.discAudio then 0x00 else 0x01
  | 4 => s.tgt.cmd 2
  | 5 => s.tgt.cmd 3
  | 6 => s.tgt.cmd 4
  | 7 => s.tgt.cmd 5
  | _ => 0x00

/-- `TB_CAPS` -/
def tbCaps : Byte := 0x82

/-- `tb_caps_byte` -/
def tbCapsByte (cnt : Nat) : Byte := if cnt = 1 then tbCaps else 0x00

/-- `tb_devinfo_dout`, as a function of the count. -/
def tbDevinfoByte (cnt : Nat) : Byte :=
  if s.tgt.cmd.tbDevinfoCaps P s.tgt.tbReady then tbCapsByte cnt
  else if cnt = P.id then 0x00 else 0xff

/-- `tb_debug_dout`, as a function of the count. -/
def tbDebugByte (cnt : Nat) : Byte := if cnt = 0 ∧ s.tgt.tbDebugFlag then 0x01 else 0x00

/-! ### Response memories -/

/-- `ca_t43_nreal`: the tracks of the format-0 table. -/
def caT43Nreal : Nat := if 14 ≤ s.ca.t43Len.toNat then (s.ca.t43Len.toNat - 14) / 8 + 1 else 1

/-- `ca_t43_start` -/
def caT43Start : Nat := (s.tgt.cmd 6).toNat

/-- `ca_t43_soff`: rows left out before the start track. -/
def caT43Soff : Nat :=
  if s.caT43Start = 0 ∨ s.caT43Start = 1 then 0
  else if s.caT43Start = 0xaa then s.caT43Nreal
  else if s.caT43Nreal < s.caT43Start then s.caT43Nreal
  else s.caT43Start - 1

/-- `ca_t43_flen`. The row count is a seven-bit number. -/
def caT43Flen : Nat := (1 + s.caT43Nreal - s.caT43Soff) % 128 * 8 + 2

/-- `ca_t43_tot`: the bytes of the filtered table. -/
def caT43Tot : Nat := s.caT43Flen + 2

/-- `ca_t43_addr`: the header as it is, the descriptors from the start track on. -/
def caT43Addr : Nat :=
  if s.tgt.dataCnt < 4 then s.tgt.dataCnt
  else (4 + s.caT43Soff * 8 + (s.tgt.dataCnt % 512 + 1024 - 4)) % 512

/-- `t43_hdr_fix` -/
def t43HdrFix (cnt : Nat) (raw : Byte) : Byte :=
  if s.caT43Tot ≤ cnt then 0x00
  else if cnt = 0 then BitVec.ofNat 8 (s.caT43Flen / 256)
  else if cnt = 1 then BitVec.ofNat 8 s.caT43Flen
  else raw

/-- `ca_toc_trk_k`: the descriptor of the BCD track number in the command. -/
def caTocTrkK : Nat :=
  if cdBcd2bin (s.tgt.cmd 5) = 0 then 0
  else if 99 < cdBcd2bin (s.tgt.cmd 5) then 98
  else cdBcd2bin (s.tgt.cmd 5) - 1

/-- `ca_toc_base`, by the mode in the control byte. -/
def caTocBase : Nat :=
  if (s.tgt.cmd 9).toNat / 64 = 1 then 4
  else if (s.tgt.cmd 9).toNat / 64 = 2 then 8 + s.caTocTrkK * 4
  else 0

/-- `ca_toc_raw` -/
def caTocRaw : Nat := (s.caTocBase + s.tgt.dataCnt) % 512

/-- `ca_toc_addr`: past the 99 descriptors the last one repeats. -/
def caTocAddr : Nat := if s.caTocRaw < 404 then s.caTocRaw else 400 + s.caTocRaw % 4

/-- `cmd_cd_t43f2`: the full TOC. -/
def cmdCdT43f2 : Bool := s.tgt.cmd.cmdCdToc43 P && (s.tgt.cmd 9).toNat / 64 == 2

/-- `cmd_cd_t43f1`: the session information. -/
def cmdCdT43f1 : Bool := s.tgt.cmd.cmdCdToc43 P && (s.tgt.cmd 9).toNat / 64 == 1

/-- `cmd_cd_t43f0` -/
def cmdCdT43f0 : Bool := s.tgt.cmd.cmdCdToc43 P && !s.cmdCdT43f2 P && !s.cmdCdT43f1 P

/-- `ca_t2_addr` -/
def caT2Addr : Nat := ((if s.cmdCdT43f1 P then 496 else 0) + s.tgt.dataCnt) % 512

/-- `t2_fix` -/
def t2Fix (cnt : Nat) (raw : Byte) : Byte := if s.ca.t2Len.toNat ≤ cnt then 0x00 else raw

/-- `sess_fix` -/
def sessFix (cnt : Nat) (raw : Byte) : Byte := if 12 ≤ cnt then 0x00 else raw

/-! ### Lanes -/

/-- `data_cnt`, `data_cnt_next`, `data_cnt_next2` and `data_cnt_next3`. -/
def cnt : Nat → Nat
  | 0 => s.tgt.dataCnt
  | k => (s.tgt.dataCnt + k) % 2 ^ 32

/-- Lane `k` of two buffers that hold the even and the odd bytes. -/
def bufferLane (odd : Bool) (b0 b1 : Look) : Nat → Byte
  | 0 => if odd then b1.q else b0.q
  | 1 => if odd then b0.next else b1.q
  | 2 => if odd then b1.next else b0.next
  | _ => if odd then b0.next2 else b1.next

/-- `cd_toc_dout` and its look-ahead lanes. -/
def cdTocLane (k : Nat) : Byte := if s.ca.tocReady then s.ca.toc.q s.caTocAddr k else 0x00

/-- `cd_toc2_dout` and its look-ahead lanes. -/
def cdToc2Lane (k : Nat) : Byte :=
  if !s.ca.tocReady then 0x00
  else if s.cmdCdT43f1 P then sessFix (s.cnt k) (s.ca.t2.q (s.caT2Addr P) k)
  else s.t2Fix (s.cnt k) (s.ca.t2.q (s.caT2Addr P) k)

/-- `cd_toc43_dout` and its look-ahead lanes. -/
def cdToc43Lane (k : Nat) : Byte :=
  if s.ca.tocReady then s.t43HdrFix (s.cnt k) (s.ca.t43.q s.caT43Addr k) else 0x00

/-- The source of the bytes of a command. -/
inductive Source where
  | read | inquiry | readCapacity | modeSense | requestSense | cdToc | cdToc2 | cdToc43 | cdSubq
  | cdSubq43 | cdAstat | cdHdr | tbDevinfo | tbDebug | tbServe | none
  deriving DecidableEq, Repr

/-- The priority order of `cmd_dout`, `cmd_dout_pair` and `cmd_dout_pair_next`. -/
def source : Source :=
  let cmd := s.tgt.cmd
  if cmd.cmdRead then .read
  else if cmd.cmdInquiry then .inquiry
  else if cmd.cmdReadCapacity then .readCapacity
  else if cmd.cmdModeSense then .modeSense
  else if cmd.cmdRequestSense then .requestSense
  else if cmd.cmdCdToc P then .cdToc
  else if s.cmdCdT43f2 P || s.cmdCdT43f1 P then .cdToc2
  else if s.cmdCdT43f0 P then .cdToc43
  else if cmd.cmdCdSubq P then .cdSubq
  else if cmd.cmdCdSubq43 P then .cdSubq43
  else if cmd.cmdCdAstat P then .cdAstat
  else if cmd.cmdCdHdr P then .cdHdr
  else if cmd.cmdTbDevinfo P s.tgt.tbReady then .tbDevinfo
  else if cmd.cmdTbDebug P s.tgt.tbReady then .tbDebug
  else if cmd.cmdTbIn P s.tgt.tbReady then .tbServe
  else .none

/-- Lane `k` of the selected source, `v` being the outputs of the buffers. -/
def lane (v : Looks) (k : Nat) : Byte :=
  match s.source P with
  | .read => bufferLane (s.tgt.dataCnt % 2 == 1) v.buffer0 v.buffer1 k
  | .inquiry => inquiryByte P (s.cnt k)
  | .readCapacity => s.readCapacityByte P (s.cnt k)
  | .modeSense => s.modeSenseByte P (s.cnt k)
  | .requestSense => s.senseByte P (s.cnt k)
  | .cdToc => s.cdTocLane k
  | .cdToc2 => s.cdToc2Lane P k
  | .cdToc43 => s.cdToc43Lane k
  | .cdSubq => s.cdSubqByte (s.cnt k)
  | .cdSubq43 => s.cdSubq43Byte (s.cnt k)
  | .cdAstat => s.cdAstatByte (s.cnt k)
  | .cdHdr => s.cdHdrByte (s.cnt k)
  | .tbDevinfo => s.tbDevinfoByte P (s.cnt k)
  | .tbDebug => s.tbDebugByte (s.cnt k)
  | .tbServe => bufferLane (s.tgt.dataCnt % 2 == 1) v.tbBuf0 v.tbBuf1 k
  | .none => 0x00

/-- `cmd_dout` -/
def cmdDout (v : Looks) : Byte := s.lane P v 0

/-- `cmd_dout_pair` -/
def cmdDoutPair (v : Looks) : BitVec 16 := s.lane P v 0 ++ s.lane P v 1

/-- `cmd_dout_pair_next` -/
def cmdDoutPairNext (v : Looks) : BitVec 16 := s.lane P v 2 ++ s.lane P v 3

/-- `MSG_CMD_COMPLETE` -/
def msgCmdComplete : Byte := 0x00

/-- `dout` -/
def dout (v : Looks) : Byte :=
  match s.tgt.phase with
  | .statusOut => s.tgt.status
  | .messageOut => msgCmdComplete
  | .dataOut => s.cmdDout P v
  | _ => 0x00

/-- `dout_pair` -/
def doutPair (v : Looks) : BitVec 16 :=
  match s.tgt.phase with
  | .statusOut => s.tgt.status ++ s.tgt.status
  | .messageOut => msgCmdComplete ++ msgCmdComplete
  | .dataOut => s.cmdDoutPair P v
  | _ => 0x0000

/-- `dout_pair_next` -/
def doutPairNext (v : Looks) : BitVec 16 :=
  match s.tgt.phase with
  | .statusOut => s.tgt.status ++ s.tgt.status
  | .messageOut => msgCmdComplete ++ msgCmdComplete
  | .dataOut => s.cmdDoutPairNext P v
  | _ => 0x0000

/-! ### The buffers behind the lanes -/

/-- The output registers of the four buffers. -/
def looksNow : Looks :=
  { buffer0 := s.tgt.buffer0.out, buffer1 := s.tgt.buffer1.out
    tbBuf0 := s.tgt.tbBuf0.out, tbBuf1 := s.tgt.tbBuf1.out }

/-- What they show once they have caught up with their addresses. -/
def looks : Looks :=
  { buffer0 := Dpram.look s.tgt.buffer0.ramAb (s.tgt.buffer0In P s.inp)
    buffer1 := Dpram.look s.tgt.buffer1.ramAb (s.tgt.buffer1In P s.inp)
    tbBuf0 := Dpram.look s.tgt.tbBuf0.ramAb (s.tgt.tbBuf0In P s.inp)
    tbBuf1 := Dpram.look s.tgt.tbBuf1.ramAb (s.tgt.tbBuf1In P s.inp) }

/-- The same tables at another count. -/
def at_ (n : Nat) : Serve := { s with tgt := { s.tgt with dataCnt := n } }

/-- The byte a byte read gets at count `n`. -/
def single (n : Nat) : Byte := (s.at_ n).dout P ((s.at_ n).looks P)

/-- The four bytes a longword read gets at count `n`. -/
def quad (n : Nat) : BitVec 32 :=
  (s.at_ n).doutPair P ((s.at_ n).looks P) ++ (s.at_ n).doutPairNext P ((s.at_ n).looks P)

/-- Byte `k` of a longword, the first one highest. -/
def quadByte (w : BitVec 32) (k : Nat) : Byte := w.extractLsb' (24 - 8 * k) 8

/-- The longword at count `n` is made of the bytes byte reads get. -/
def Agrees (n : Nat) : Prop :=
  ∀ k < 4, n + k < s.tgt.dataLen P → quadByte (s.quad P n) k = s.single P (n + k)

end Serve

end MacIIvi
