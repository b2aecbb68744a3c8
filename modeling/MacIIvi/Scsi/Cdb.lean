import MacIIvi.Rtl.Dpram

/-!
# Command decoding of the SCSI target

Source: `rtl/scsi.v`, "command decoding" and the `data_len` table. Each wire is
a function of the module parameters, the `tb_ready` latch and the bytes of
`cmd`. The `cmd_cd_*` wires fold to 0 on a disk target.
-/

namespace MacIIvi

/-- The parameters of one `scsi` instance. -/
structure Params where
  id : Nat
  cdrom : Bool
  toolboxEnable : Bool
  cdchangerEnable : Bool
  tbAddrw : Nat
  ringLog : Nat

namespace Params

/-- `RING_BLOCKS` -/
def ringBlocks (P : Params) : Nat := 2 ^ P.ringLog

/-- `BUF_AW` -/
def bufAw (P : Params) : Nat := 8 + P.ringLog

/-- `TB_MAXSEC`, a five-bit parameter. -/
def tbMaxsec (P : Params) : Nat := 2 ^ (P.tbAddrw - 8) % 32

/-- `TB_SEND_CAP` -/
def tbSendCap (P : Params) : Nat := if 12 ≤ P.tbAddrw then 65536 else 512

/-- The boot disk, ID 0. -/
def disk0 : Params :=
  { id := 0, cdrom := false, toolboxEnable := true, cdchangerEnable := false
    tbAddrw := 12, ringLog := 6 }

/-- The second disk, ID 1. -/
def disk1 : Params :=
  { id := 1, cdrom := false, toolboxEnable := false, cdchangerEnable := false
    tbAddrw := 8, ringLog := 4 }

/-- The CD-ROM target, ID 3. -/
def cdromTarget : Params :=
  { id := 3, cdrom := true, toolboxEnable := false, cdchangerEnable := true
    tbAddrw := 11, ringLog := 2 }

end Params

/-- `cmd[0..9]`: the stored bytes of the command descriptor block. -/
abbrev Cdb := Nat → Byte

namespace Cdb

variable (P : Params) (tbReady : Bool) (cmd : Cdb)

def opCode : Byte := cmd 0

/-- `cmd_group`, the top three bits of the opcode. -/
def cmdGroup : Nat := (cmd 0).toNat / 32

def cmdRead6 : Bool := opCode cmd == 0x08
def cmdRead10 : Bool := opCode cmd == 0x28
def cmdRead : Bool := cmdRead6 cmd || cmdRead10 cmd
def cmdWrite6 : Bool := opCode cmd == 0x0a
def cmdWrite10 : Bool := opCode cmd == 0x2a
def cmdWrite : Bool := cmdWrite6 cmd || cmdWrite10 cmd

/-- Commands that move sectors between the buffer and the HPS. -/
def blockCmd : Bool := cmdRead cmd || cmdWrite cmd

def cmdInquiry : Bool := opCode cmd == 0x12
def cmdFormat : Bool := opCode cmd == 0x04
def cmdModeSelect : Bool := opCode cmd == 0x15
def cmdModeSense : Bool := opCode cmd == 0x1a
def cmdTestUnitReady : Bool := opCode cmd == 0x00
def cmdReadCapacity : Bool := opCode cmd == 0x25
def cmdReadBuffer : Bool := opCode cmd == 0x3b
def cmdWriteBuffer : Bool := opCode cmd == 0x3c
def cmdVerify6 : Bool := opCode cmd == 0x13
def cmdVerify10 : Bool := opCode cmd == 0x2f
def cmdRequestSense : Bool := opCode cmd == 0x03

def cmdCdEject : Bool := P.cdrom && opCode cmd == 0xc0
def cmdCdToc : Bool := P.cdrom && opCode cmd == 0xc1
def cmdCdSubq : Bool := P.cdrom && opCode cmd == 0xc2
def cmdCdAstat : Bool := P.cdrom && opCode cmd == 0xcc
def cmdCdActl : Bool := P.cdrom && opCode cmd == 0xce
def cmdCdAudioNop : Bool :=
  P.cdrom && [0xc8, 0xc9, 0xca, 0xcb, 0xcd, 0x47, 0x48, 0x4b, 0x4e, 0x01, 0x0b, 0x2b, 0x45,
    0xa5].contains (opCode cmd)
def cmdCdToc43 : Bool := P.cdrom && opCode cmd == 0x43
def cmdCdSubq43 : Bool := P.cdrom && opCode cmd == 0x42
def cmdCdPrevent : Bool := P.cdrom && opCode cmd == 0x1e
def cmdCdStartstop : Bool := P.cdrom && opCode cmd == 0x1b
def cmdCdSetspeed : Bool := P.cdrom && opCode cmd == 0xbb
def cmdCdHdr : Bool := P.cdrom && opCode cmd == 0x44

/-- READ HEADER in its MSF form is refused. -/
def cdHdrMsfRej : Bool := cmdCdHdr P cmd && (cmd 1).getLsbD 1

/-- Both eject forms: Apple 0xC0, and START/STOP UNIT with LoEj=1, Start=0. -/
def cmdCdEjectAny : Bool :=
  cmdCdEject P cmd || (cmdCdStartstop P cmd && (cmd 4).getLsbD 1 && !(cmd 4).getLsbD 0)

def cmdTbDevinfo : Bool := P.toolboxEnable && tbReady && opCode cmd == 0xd9
def cmdTbFsIn : Bool :=
  P.toolboxEnable && (opCode cmd == 0xd0 || opCode cmd == 0xd1 || opCode cmd == 0xd2)
def cmdTbSendPrep : Bool := P.toolboxEnable && opCode cmd == 0xd3
def cmdTbSendData : Bool := P.toolboxEnable && opCode cmd == 0xd4
def cmdTbSendEnd : Bool := P.toolboxEnable && opCode cmd == 0xd5
def cmdTbSend : Bool := cmdTbSendPrep P cmd || cmdTbSendData P cmd || cmdTbSendEnd P cmd
def cmdTbSendPay : Bool := cmdTbSendPrep P cmd || cmdTbSendData P cmd
def cmdTbDebug : Bool := P.toolboxEnable && tbReady && opCode cmd == 0xd6
def cmdTbDebugGet : Bool := cmdTbDebug P tbReady cmd && cmd 1 != 0
def tbDevinfoCaps : Bool := cmdTbDevinfo P tbReady cmd && cmd 1 == 0x01

def cmdCdcList : Bool := P.cdchangerEnable && tbReady && opCode cmd == 0xd7
def cmdCdcCount : Bool := P.cdchangerEnable && tbReady && opCode cmd == 0xda
def cmdCdcSet : Bool := P.cdchangerEnable && tbReady && opCode cmd == 0xd8
def cmdCdcIn : Bool := cmdCdcList P tbReady cmd || cmdCdcCount P tbReady cmd
def cmdCdcTb : Bool := cmdCdcIn P tbReady cmd || cmdCdcSet P tbReady cmd

/-- Commands answered from the Toolbox buffer in a DataIn phase. -/
def cmdTbIn : Bool := cmdTbFsIn P cmd || cmdCdcIn P tbReady cmd

/-- `cmd_toolbox_op`: 0xD0 to 0xDA are ten-byte CDBs. -/
def cmdToolboxOp : Bool := decide (0xd0 ≤ (opCode cmd).toNat) && decide ((opCode cmd).toNat ≤ 0xda)

def cmdAppleCdOp : Bool := P.cdrom && (opCode cmd).toNat / 16 == 0xc

def cmd6Cpl (cmdCnt : Nat) : Bool := cmdGroup cmd == 0 && cmdCnt == 6

def cmd10Cpl (cmdCnt : Nat) : Bool :=
  ((cmdGroup cmd == 2 || cmdGroup cmd == 1) && cmdCnt == 10) ||
    (cmdToolboxOp cmd && cmdCnt == 10) || (cmdAppleCdOp P cmd && cmdCnt == 10)

def cmd12Cpl (cmdCnt : Nat) : Bool := cmdGroup cmd == 5 && cmdCnt == 12

/-- A complete command has been received. -/
def cmdCpl (cmdCnt : Nat) : Bool :=
  cmd6Cpl cmd cmdCnt || cmd10Cpl P cmd cmdCnt || cmd12Cpl cmd cmdCnt

def lba6 : Nat := (cmd 1).toNat % 32 * 65536 + (cmd 2).toNat * 256 + (cmd 3).toNat

def lba10 : Nat :=
  (cmd 2).toNat * 16777216 + (cmd 3).toNat * 65536 + (cmd 4).toNat * 256 + (cmd 5).toNat

/-- `tlen6`: a length byte of 0 stands for 256. -/
def tlen6 : Nat := if cmd 4 = 0 then 256 else (cmd 4).toNat

def tlen10 : Nat := (cmd 7).toNat * 256 + (cmd 8).toNat

/-- The address field of the command. -/
def lbaField (cmdCnt : Nat) : Nat := if cmd6Cpl cmd cmdCnt then lba6 cmd else lba10 cmd

/-- The value latched into `lba` when the command completes. A CD-ROM READ
counts blocks of 2048 bytes. -/
def lbaLatch (cmdCnt : Nat) : Nat :=
  if P.cdrom && cmdRead cmd then lbaField cmd cmdCnt * 4 % 2 ^ 32 else lbaField cmd cmdCnt

/-- The value latched into `tlen` when the command completes. -/
def tlenLatch (cmdCnt : Nat) : Nat :=
  let raw := if cmd6Cpl cmd cmdCnt then tlen6 cmd else tlen10 cmd
  if P.cdrom && cmdRead cmd then raw * 4 % 2 ^ 16 else raw

/-- The ten-byte allocation field `{cmd[7], cmd[8]}`, capped. -/
def allocCap (cap : Nat) : Nat := min (tlen10 cmd) cap

def allocLen (tlen : Nat) : Nat := if tlen = 256 then 0 else tlen
def senseLen (tlen : Nat) : Nat := if tlen = 256 then 4 else tlen
def inquiryLen : Nat := if P.cdrom then 54 else 36

/-- The page code of a MODE SENSE. -/
def modePage : Nat := (cmd 2).toNat % 64

/-- Page 0x31, the Toolbox advertisement of a disk target. -/
def modeSenseP31 : Bool := P.toolboxEnable && tbReady && cmdModeSense cmd && modePage cmd == 0x31

/-- Bytes of the MODE SENSE response proper. -/
def modeSenseLen : Nat :=
  if P.cdrom then
    if modePage cmd = 0x0e then 28
    else if modePage cmd = 0x2a then 38
    else if P.cdchangerEnable && modePage cmd == 0x31 then 56
    else if modePage cmd = 0x30 then 36
    else 12
  else if modeSenseP31 P tbReady cmd then 56 else 12

def cdTocLen (tlen : Nat) : Nat :=
  if (cmd 9).toNat / 64 = 2 then tlen / 4 * 4 else min tlen 4

def tbSendRaw : Nat := if cmd 6 ≠ 0 then (cmd 6).toNat * 512 else 512
def tbSendLen : Nat := min (tbSendRaw cmd) P.tbSendCap

/-- Last buffer sector the payload touches. Only `TBS_REQ2` reads it. -/
def tbTailLast : Nat := (tbSendLen P cmd % 65536 + 15) / 512

def tbDevinfoLen : Nat := min (if cmd 8 = 0 then 8 else (cmd 8).toNat) 8

/-- `data_len`: the length of the data phase in bytes. `tbSrvLen` is the length
the HPS gave for a Toolbox response. -/
def dataLen (tlen tbSrvLen : Nat) : Nat :=
  if cmdReadCapacity cmd then 8
  else if cmdRead cmd then tlen * 512
  else if cmdWrite cmd then tlen * 512
  else if cmdCdToc P cmd then cdTocLen cmd tlen
  else if cmdCdToc43 P cmd then allocCap cmd 512
  else if cmdCdSubq43 P cmd then allocCap cmd 64
  else if cmdCdSubq P cmd then 9
  else if cmdCdAstat P cmd then 6
  else if cmdCdHdr P cmd then allocCap cmd 16
  else if cmdCdActl P cmd then (cmd 8).toNat
  else if cmdInquiry cmd then min (allocLen tlen) (inquiryLen P)
  else if cmdModeSense cmd then min (allocLen tlen) (modeSenseLen P tbReady cmd)
  else if P.cdrom && cmdModeSelect cmd then allocLen tlen
  else if cmdRequestSense cmd then min (senseLen tlen) 18
  else if cmdTbDevinfo P tbReady cmd then tbDevinfoLen cmd
  else if cmdTbDebugGet P tbReady cmd then 1
  else if cmdTbIn P tbReady cmd then tbSrvLen
  else if cmdTbSendPrep P cmd then 33
  else if cmdTbSendData P cmd then tbSendLen P cmd
  else tlen

def cmdOkHd : Bool :=
  cmdRead cmd || cmdWrite cmd || cmdInquiry cmd || cmdTestUnitReady cmd ||
    cmdReadCapacity cmd || cmdModeSelect cmd || cmdFormat cmd || cmdModeSense cmd ||
    cmdReadBuffer cmd || cmdWriteBuffer cmd || cmdVerify6 cmd || cmdVerify10 cmd ||
    cmdRequestSense cmd || cmdTbDevinfo P tbReady cmd || cmdTbDebug P tbReady cmd ||
    (cmdTbFsIn P cmd && tbReady) || (cmdTbSend P cmd && tbReady)

def cmdOkCd : Bool :=
  cmdRead cmd || cmdInquiry cmd || cmdTestUnitReady cmd || cmdReadCapacity cmd ||
    cmdModeSelect cmd || cmdModeSense cmd || cmdRequestSense cmd || cmdCdEject P cmd ||
    cmdCdToc P cmd || cmdCdSubq P cmd || cmdCdAstat P cmd || cmdCdActl P cmd ||
    cmdCdAudioNop P cmd || cmdCdToc43 P cmd || cmdCdSubq43 P cmd || cmdCdHdr P cmd ||
    cmdCdPrevent P cmd || cmdCdStartstop P cmd || cmdCdSetspeed P cmd ||
    cmdCdcTb P tbReady cmd

def cmdOk : Bool := if P.cdrom then cmdOkCd P tbReady cmd else cmdOkHd P tbReady cmd

/-- Commands that fail while no image is mounted. -/
def cdNeedsMedia : Bool :=
  cmdTestUnitReady cmd || cmdRead cmd || cmdReadCapacity cmd || cmdCdToc P cmd ||
    cmdCdSubq P cmd || cmdCdAstat P cmd || cmdCdActl P cmd || cmdCdToc43 P cmd ||
    cmdCdSubq43 P cmd || cmdCdHdr P cmd || cmdCdAudioNop P cmd

def cdNoMedia (mounted : Bool) : Bool := P.cdrom && !mounted && cdNeedsMedia P cmd

def cdAudioReadRej (mounted discAudio : Bool) : Bool :=
  P.cdrom && mounted && cmdRead cmd && discAudio

/-- The command is carried out; otherwise it ends with CHECK CONDITION. -/
def accepted (mounted discAudio : Bool) : Bool :=
  cmdOk P tbReady cmd && !cdNoMedia P cmd mounted &&
    !cdAudioReadRej P cmd mounted discAudio && !cdHdrMsfRej P cmd

/-- Accepted commands with a DataIn phase served by the target itself. -/
def startsDataOut : Bool :=
  cmdRead cmd || cmdInquiry cmd || cmdReadCapacity cmd || cmdModeSense cmd ||
    cmdReadBuffer cmd || cmdRequestSense cmd || cmdTbDevinfo P tbReady cmd ||
    cmdTbDebugGet P tbReady cmd || cmdCdToc P cmd || cmdCdSubq P cmd || cmdCdAstat P cmd ||
    cmdCdToc43 P cmd || cmdCdSubq43 P cmd || cmdCdHdr P cmd

/-- Accepted commands with a DataOut phase that do not involve the Toolbox. -/
def startsDataIn : Bool :=
  cmdWrite cmd || cmdModeSelect cmd || cmdWriteBuffer cmd || cmdCdActl P cmd

/-! ### Block commands -/

section

variable {P : Params} {tbReady : Bool} {cmd : Cdb}

theorem cmdRead_opCode (h : cmdRead cmd = true) : opCode cmd = 0x08 ∨ opCode cmd = 0x28 := by
  simpa [cmdRead, cmdRead6, cmdRead10] using h

theorem cmdWrite_opCode (h : cmdWrite cmd = true) : opCode cmd = 0x0a ∨ opCode cmd = 0x2a := by
  simpa [cmdWrite, cmdWrite6, cmdWrite10] using h

theorem blockCmd_opCode (h : blockCmd cmd = true) :
    opCode cmd = 0x08 ∨ opCode cmd = 0x28 ∨ opCode cmd = 0x0a ∨ opCode cmd = 0x2a := by
  have kinds : cmdRead cmd = true ∨ cmdWrite cmd = true := by simpa [blockCmd] using h
  rcases kinds with read | write
  · rcases cmdRead_opCode read with op | op <;> simp [op]
  · rcases cmdWrite_opCode write with op | op <;> simp [op]

theorem cmdWrite_of_read (h : cmdRead cmd = true) : cmdWrite cmd = false := by
  rcases cmdRead_opCode h with op | op <;> simp [cmdWrite, cmdWrite6, cmdWrite10, op]

theorem cmdRead_of_write (h : cmdWrite cmd = true) : cmdRead cmd = false := by
  rcases cmdWrite_opCode h with op | op <;> simp [cmdRead, cmdRead6, cmdRead10, op]

/-- A block command is none of the Toolbox commands. -/
theorem blockCmd_noToolbox (P : Params) (tbReady : Bool) (h : blockCmd cmd = true) :
    cmdTbFsIn P cmd = false ∧ cmdTbSend P cmd = false ∧ cmdTbSendPay P cmd = false ∧
      cmdTbSendData P cmd = false ∧ cmdTbSendEnd P cmd = false ∧
      cmdCdcTb P tbReady cmd = false ∧ cmdTbIn P tbReady cmd = false := by
  rcases blockCmd_opCode h with op | op | op | op <;>
    simp [cmdTbFsIn, cmdTbSend, cmdTbSendPay, cmdTbSendData, cmdTbSendEnd, cmdTbSendPrep,
      cmdCdcTb, cmdTbIn, cmdCdcIn, cmdCdcList, cmdCdcCount, cmdCdcSet, op]

/-- The length of a block command is its block count in bytes. -/
theorem dataLen_block (h : blockCmd cmd = true) (tlen srv : Nat) :
    dataLen P tbReady cmd tlen srv = tlen * 512 := by
  have kinds : cmdRead cmd = true ∨ cmdWrite cmd = true := by simpa [blockCmd] using h
  have capacity : cmdReadCapacity cmd = false := by
    rcases blockCmd_opCode h with op | op | op | op <;> simp [cmdReadCapacity, op]
  rcases kinds with read | write
  · simp [dataLen, capacity, read]
  · simp [dataLen, capacity, write]

/-- A disk accepts every block command. -/
theorem accepted_block (disk : P.cdrom = false) (h : blockCmd cmd = true)
    (mounted discAudio : Bool) : accepted P tbReady cmd mounted discAudio = true := by
  have kinds : cmdRead cmd = true ∨ cmdWrite cmd = true := by simpa [blockCmd] using h
  have ok : cmdOk P tbReady cmd = true := by
    rcases kinds with read | write
    · simp [cmdOk, cmdOkHd, disk, read]
    · simp [cmdOk, cmdOkHd, disk, write]
  simp [accepted, ok, cdNoMedia, cdAudioReadRej, cdHdrMsfRej, cmdCdHdr, disk]

theorem tlenLatch_lt (cmdCnt : Nat) : tlenLatch P cmd cmdCnt < 65536 := by
  have h4 := (cmd 4).isLt
  have h7 := (cmd 7).isLt
  have h8 := (cmd 8).isLt
  have raw : (if cmd6Cpl cmd cmdCnt then tlen6 cmd else tlen10 cmd) < 65536 := by
    unfold tlen6 tlen10
    split
    · split <;> omega
    · omega
  unfold tlenLatch
  dsimp only
  split
  · exact Nat.mod_lt _ (by decide)
  · exact raw

theorem lbaLatch_lt (cmdCnt : Nat) : lbaLatch P cmd cmdCnt < 2 ^ 32 := by
  have h1 := (cmd 1).isLt
  have h2 := (cmd 2).isLt
  have h3 := (cmd 3).isLt
  have h4 := (cmd 4).isLt
  have h5 := (cmd 5).isLt
  have raw : lbaField cmd cmdCnt < 2 ^ 32 := by
    unfold lbaField lba6 lba10
    split <;> omega
  unfold lbaLatch
  split
  · exact Nat.mod_lt _ (by decide)
  · exact raw

/-- A completed command has exactly the length its opcode announces. -/
theorem cmdCpl_length {cmdCnt : Nat} (h : cmdCpl P cmd cmdCnt = true) :
    cmdCnt = if cmdGroup cmd = 0 then 6 else if cmdGroup cmd = 5 then 12 else 10 := by
  simp [cmdCpl, cmd6Cpl, cmd10Cpl, cmd12Cpl, cmdToolboxOp, cmdAppleCdOp] at h
  have group : cmdGroup cmd = (opCode cmd).toNat / 32 := rfl
  split
  · omega
  · split <;> omega

end

end Cdb

end MacIIvi
