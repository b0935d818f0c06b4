import OpenHypervisor.Cancel
import OpenHypervisor.EntryLevels
import OpenHypervisor.MonitorBand
import OpenHypervisor.NestedState
import OpenHypervisor.VmMemory
import OpenHypervisor.NestedSpaces
import OpenHypervisor.VcpuBinding
import OpenHypervisor.FreshSlot
import OpenHypervisor.PageFrame
import OpenHypervisor.BankedRuns
import OpenHypervisor.TwoViews
import OpenHypervisor.Snapshot
import OpenHypervisor.TrappedOutcome
import OpenHypervisor.StorageRuns
import OpenHypervisor.CoresApart
import OpenHypervisor.HvcRoundTrip
import OpenHypervisor.GuestPstate
import OpenHypervisor.SpiDelivery
import OpenHypervisor.GicRestore
import OpenHypervisor.GuestPointer
import OpenHypervisor.TimerRuns
import OpenHypervisor.PendingRuns
import OpenHypervisor.IchRegs
import OpenHypervisor.SmeState
import OpenHypervisor.HostIdentity
import OpenHypervisor.Stage1Arm
import OpenHypervisor.TrapSyndrome
import OpenHypervisor.OffsetProbe
import OpenHypervisor.OffsetReport
import OpenHypervisor.RunLoop
import OpenHypervisor.PageEdits
import OpenHypervisor.VtimerMask
import OpenHypervisor.TimerControl
import OpenHypervisor.ExitReport
import OpenHypervisor.GicRegs
import OpenHypervisor.GuestTraps
import OpenHypervisor.ControlRuns
import OpenHypervisor.RunLedger
import OpenHypervisor.Objects
import OpenHypervisor.RunCall
import OpenHypervisor.Isolation
