import MacIIvi.Clocked.Run
import MacIIvi.Clocked.Ring
import MacIIvi.Scsi.ReadRing
import MacIIvi.Scsi.ServeLanes
import MacIIvi.Scsi.ModeSelect
import MacIIvi.CdAudio.ReadToc
import MacIIvi.CdAudio.PlayRange
import MacIIvi.CdAudio.Cadence
import MacIIvi.CdAudio.CommandOrder
import MacIIvi.CdAudio.Scaling
import MacIIvi.CdAudio.Coverage
import MacIIvi.CdAudio.Freshness
import MacIIvi.Swim.Stream
import MacIIvi.Swim.Latch
import MacIIvi.Nvram.Persistence
import MacIIvi.Floppy.MfmRevolution
import MacIIvi.Floppy.GcrRevolution
import MacIIvi.Floppy.GcrFetch
import MacIIvi.Egret.Interrupts
import MacIIvi.Asc.Fifo
import MacIIvi.Egret.BootCopy
import MacIIvi.Card.SharedSdram
import MacIIvi.Card.Scanout
import MacIIvi.Cpu.Turbo
import MacIIvi.Rtl.DpramContract
import MacIIvi.CdAudio.StatusRefresh
import MacIIvi.Adb.Keyboard
import MacIIvi.Adb.Mouse
import MacIIvi.Adb.Relocate
import MacIIvi.Via.Exchange
import MacIIvi.Floppy.MediaChange
import MacIIvi.Floppy.ImageLoad
import MacIIvi.CdAudio.Output
import MacIIvi.Via.Interrupts
import MacIIvi.Via.PseudoVia
import MacIIvi.Video.RegisterFile
import MacIIvi.Scc.Receive
import MacIIvi.Sdram.Service
