import FabricOS.Acknowledgements
import FabricOS.Amendments
import FabricOS.AuditAccounting
import FabricOS.AuditHistory
import FabricOS.Authority
import FabricOS.Backlogs
import FabricOS.BudgetRate
import FabricOS.BusPayload
import FabricOS.BusRetry
import FabricOS.ByteQueue
import FabricOS.ConstitutionIntegrity
import FabricOS.CouncilTraining
import FabricOS.DeadManSwitch
import FabricOS.DisplayHeap
import FabricOS.DnsCache
import FabricOS.ElfHeaders
import FabricOS.ElfPermissions
import FabricOS.EphemeralPorts
import FabricOS.FixedMapRefinement
import FabricOS.ForeignSend
import FabricOS.FrameUsage
import FabricOS.GatedSend
import FabricOS.GiveUp
import FabricOS.Handshake
import FabricOS.Hysteresis
import FabricOS.InheritanceRetained
import FabricOS.InheritanceSettled
import FabricOS.KeyboardReports
import FabricOS.Listing
import FabricOS.LockOrder
import FabricOS.PayloadBounds
import FabricOS.ProcessFiles
import FabricOS.ProcessSlots
import FabricOS.RecvExact
import FabricOS.RestForOne
import FabricOS.RestartedContexts
import FabricOS.RetransmitCoverage
import FabricOS.RttEstimator
import FabricOS.RuleArray
import FabricOS.RunQueueAgreement
import FabricOS.SafetyHistory
import FabricOS.SendPackets
import FabricOS.Severity
import FabricOS.SocketDescriptors
import FabricOS.StaleHandles
import FabricOS.StreamIntegrity
import FabricOS.Teardown
import FabricOS.TlsSessions
import FabricOS.UdpFraming
import FabricOS.VirtioRx
