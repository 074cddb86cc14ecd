import KhdfLinux.Adc.Init
import KhdfLinux.Hdf.Base
import KhdfLinux.I2c.Adapter
import KhdfLinux.Kevent.Acknowledged
import KhdfLinux.Kevent.Clients
import KhdfLinux.Kevent.Fidelity
import KhdfLinux.Kevent.Lifecycle
import KhdfLinux.Kevent.Module
import KhdfLinux.Kevent.Power
import KhdfLinux.Kevent.SysEvent
import KhdfLinux.Kevent.WaitCount
import KhdfLinux.Lib.Blocks
import KhdfLinux.Lib.Bytes
import KhdfLinux.Lib.CStrings
import KhdfLinux.Lib.Calendar
import KhdfLinux.Lib.Cells
import KhdfLinux.Lib.Critical
import KhdfLinux.Lib.Exec
import KhdfLinux.Lib.Index
import KhdfLinux.Lib.Kfifo
import KhdfLinux.Lib.Locks
import KhdfLinux.Lib.Machine
import KhdfLinux.Lib.Memory
import KhdfLinux.Lib.Registers
import KhdfLinux.Lib.Ring
import KhdfLinux.Lib.Run
import KhdfLinux.Lib.Segments
import KhdfLinux.Lib.Semaphore
import KhdfLinux.Lib.Slots
import KhdfLinux.Lib.Superseding
import KhdfLinux.Lib.Table
import KhdfLinux.Lib.Walk
import KhdfLinux.Lib.Workers
import KhdfLinux.MipiDsi.Command
import KhdfLinux.MipiDsi.Config
import KhdfLinux.MipiDsi.Ioctl
import KhdfLinux.MipiDsi.Link
import KhdfLinux.MipiDsi.Modes
import KhdfLinux.MipiDsi.Nodes
import KhdfLinux.MipiDsi.Packets
import KhdfLinux.MipiDsi.PhyTiming
import KhdfLinux.MipiDsi.Replies
import KhdfLinux.Network.Concat
import KhdfLinux.Network.NetBuf
import KhdfLinux.Network.WlanQueue
import KhdfLinux.Network.WlanThreads
import KhdfLinux.Osal.Cdev
import KhdfLinux.Osal.File
import KhdfLinux.Osal.LogFormat
import KhdfLinux.Osal.Mem
import KhdfLinux.Osal.Thread
import KhdfLinux.Osal.Time
import KhdfLinux.Osal.Timer
import KhdfLinux.Osal.TimerDelete
import KhdfLinux.Osal.TimerLifetime
import KhdfLinux.Osal.Work
import KhdfLinux.Platform.TraceDump
import KhdfLinux.Platform.TraceMessages
import KhdfLinux.Pnp.DeviceList
import KhdfLinux.Pnp.EventProtocol
import KhdfLinux.Pnp.EventWord
import KhdfLinux.Pnp.GadgetNotify
import KhdfLinux.Pnp.InterfaceTable
import KhdfLinux.Pnp.Lifecycle
import KhdfLinux.Pnp.Mailbox
import KhdfLinux.Pnp.PayloadType
import KhdfLinux.Pnp.RecordIdentity
import KhdfLinux.Pnp.Records
import KhdfLinux.Pnp.ReportThread
import KhdfLinux.Pnp.Reports
import KhdfLinux.Pnp.SendEvent
import KhdfLinux.Pwm.Adapter
import KhdfLinux.Pwm.GetState
import KhdfLinux.Pwm.Hi35xx
import KhdfLinux.Regulator.Balance
import KhdfLinux.Rtc.Conversion
import KhdfLinux.Spi.Binding
import KhdfLinux.Spi.References
import KhdfLinux.Storage.Sdio
import KhdfLinux.Storage.SdioSearch
import KhdfLinux.Uart.Handle
import KhdfLinux.Uart.Nodes
import KhdfLinux.Uart.Settings
import KhdfLinux.Uart.Transfer
import KhdfLinux.Usb.Acceptance
import KhdfLinux.Usb.BindBounds
import KhdfLinux.Usb.BindPasses
import KhdfLinux.Usb.BindReading
import KhdfLinux.Usb.BoundEndpoints
import KhdfLinux.Usb.BoundState
import KhdfLinux.Usb.Completions
import KhdfLinux.Usb.Deletion
import KhdfLinux.Usb.Descriptors
import KhdfLinux.Usb.DevList
import KhdfLinux.Usb.DeviceNumbers
import KhdfLinux.Usb.Enabling
import KhdfLinux.Usb.EndpointClaims
import KhdfLinux.Usb.EndpointDescs
import KhdfLinux.Usb.EndpointMap
import KhdfLinux.Usb.EndpointReports
import KhdfLinux.Usb.Endpoints
import KhdfLinux.Usb.Ep0
import KhdfLinux.Usb.Epfile
import KhdfLinux.Usb.EpfileCreation
import KhdfLinux.Usb.EpfileLinks
import KhdfLinux.Usb.EpfileLocks
import KhdfLinux.Usb.EpfilePolling
import KhdfLinux.Usb.EventDelivery
import KhdfLinux.Usb.Events
import KhdfLinux.Usb.FailedBind
import KhdfLinux.Usb.Features
import KhdfLinux.Usb.FfsData
import KhdfLinux.Usb.FileBuffers
import KhdfLinux.Usb.FileRequests
import KhdfLinux.Usb.FuncBind
import KhdfLinux.Usb.FunctionNames
import KhdfLinux.Usb.GotDescs
import KhdfLinux.Usb.Grammar
import KhdfLinux.Usb.LegacyDescs
import KhdfLinux.Usb.NumberWalk
import KhdfLinux.Usb.Numbers
import KhdfLinux.Usb.OsDescriptors
import KhdfLinux.Usb.OsPass
import KhdfLinux.Usb.OsWalk
import KhdfLinux.Usb.Overwritten
import KhdfLinux.Usb.PatchSafety
import KhdfLinux.Usb.Patches
import KhdfLinux.Usb.PendingList
import KhdfLinux.Usb.Polling
import KhdfLinux.Usb.RawDescs
import KhdfLinux.Usb.References
import KhdfLinux.Usb.Registry
import KhdfLinux.Usb.RejectedDescs
import KhdfLinux.Usb.Renumbering
import KhdfLinux.Usb.SetupState
import KhdfLinux.Usb.SpeedWalks
import KhdfLinux.Usb.Speeds
import KhdfLinux.Usb.StateGate
import KhdfLinux.Usb.StringIds
import KhdfLinux.Usb.StringTables
import KhdfLinux.Usb.Strings
import KhdfLinux.Usb.SyncTransfers
import KhdfLinux.Usb.Transfers
import KhdfLinux.Usb.Uapi
