import OpenRV64.SyncRun
import OpenRV64.SnoopFilter
import OpenRV64.ProbeTracker
import OpenRV64.ProbeLedger
import OpenRV64.CoherentProtocol
import OpenRV64.DirectorySound
import OpenRV64.PrivateCopies
import OpenRV64.Reservation
import OpenRV64.RetireExact
import OpenRV64.LsqForwarding
import OpenRV64.LsqAgeWindow
import OpenRV64.LsqTranslation
import OpenRV64.LsqExactlyOnce
import OpenRV64.LsqStores
import OpenRV64.PtwWalk
import OpenRV64.PmpSound
import OpenRV64.TlbAgreement
import OpenRV64.BranchTargetCheck
import OpenRV64.WindowOrder
import OpenRV64.WindowOperands
import OpenRV64.CommitPrecise
import OpenRV64.WfiSleep
import OpenRV64.L2Shape
import OpenRV64.BusAttribution
import OpenRV64.VecLsuProgress
import OpenRV64.ScalarProgress
import OpenRV64.MeshDelivery
import OpenRV64.FetchDelivery
import OpenRV64.InstrFormat
import OpenRV64.DecodeTop
import OpenRV64.Rv64Grammar
import OpenRV64.DecodeExact
import OpenRV64.Compressed
import OpenRV64.CompressedExact
import OpenRV64.DecodeFd
import OpenRV64.InstructionDecode
import OpenRV64.ScalarIssueExact
import OpenRV64.AtomicExact
import OpenRV64.MulDivExact
import OpenRV64.ZbbRotateExact
import OpenRV64.HomeProgress
import OpenRV64.MisalignedProgress
import OpenRV64.WriterMap
import OpenRV64.TlbInclusion
import OpenRV64.InterruptSelect
import OpenRV64.CrossbarDelivery
import OpenRV64.CheckpointHistory
import OpenRV64.LaneDelivery
import OpenRV64.PteReads
import OpenRV64.PrfIdeal
import OpenRV64.L1Snoop
import OpenRV64.CmuCount
import OpenRV64.Plic
import OpenRV64.PrefixAdder
import OpenRV64.ScalarOrder
import OpenRV64.ReturnStack
