import RiscvWorker.Library.Lts
import RiscvWorker.Library.AxiLite
import RiscvWorker.Library.ByteMemory
import RiscvWorker.Library.MemoryImage
import RiscvWorker.Library.WordStore
import RiscvWorker.Library.BuildChain
import RiscvWorker.Library.MemorySlave
import RiscvWorker.Library.Text
import RiscvWorker.Library.CString
import RiscvWorker.Library.PyText
import RiscvWorker.Library.PyInt
import RiscvWorker.Hdl.Params
import RiscvWorker.Hdl.InstructionDecode
import RiscvWorker.Hdl.Datapath
import RiscvWorker.Hdl.RegisterFile
import RiscvWorker.Hdl.MemoryArbiter
import RiscvWorker.Hdl.AxiMemoryMock
import RiscvWorker.Hdl.RiscvCpu
import RiscvWorker.Hdl.SocControl
import RiscvWorker.Hdl.CmAndCore
import RiscvWorker.Isa.Rv32i
import RiscvWorker.Core.Phases
import RiscvWorker.Core.ClockEdge
import RiscvWorker.Core.Decoding
import RiscvWorker.Core.LoadStore
import RiscvWorker.Core.ByteLanes
import RiscvWorker.Core.Execution
import RiscvWorker.Core.History
import RiscvWorker.Core.StallGate
import RiscvWorker.Core.Token
import RiscvWorker.Core.OddPc
import RiscvWorker.Core.LoadIsolation
import RiscvWorker.Core.Arbitration
import RiscvWorker.Core.MockBench
import RiscvWorker.Core.FlatMemory
import RiscvWorker.Control.AddressMap
import RiscvWorker.Control.Transactions
import RiscvWorker.Control.Answers
import RiscvWorker.Control.AxiSlave
import RiscvWorker.Firmware.ControlModule
import RiscvWorker.Firmware.Main
import RiscvWorker.Firmware.Numbers
import RiscvWorker.Firmware.Commands
import RiscvWorker.Firmware.Lines
import RiscvWorker.Firmware.Grammar
import RiscvWorker.Firmware.Acceptance
import RiscvWorker.Host.WorkerInterface
import RiscvWorker.Host.CommandLines
import RiscvWorker.Host.Agreement
import RiscvWorker.Host.Link
import RiscvWorker.Host.StaleReplies
import RiscvWorker.Tools.InstructionBuilders
import RiscvWorker.Tools.BuildUtils
import RiscvWorker.Tools.SkippedBuilds
import RiscvWorker.Tools.Rv322coe
import RiscvWorker.Tools.ProgramImage
import RiscvWorker.System.CoreAndMemory
import RiscvWorker.System.Refinement
import RiscvWorker.System.Progress
import RiscvWorker.System.IsaRun
import RiscvWorker.System.Latency
import RiscvWorker.System.DebugPort
import RiscvWorker.System.PortStability
import RiscvWorker.System.Session
import RiscvWorker.System.Machine
import RiscvWorker.System.SingleStep
import RiscvWorker.System.Halting
import RiscvWorker.System.DebugWrites
import RiscvWorker.System.Accesses
import RiscvWorker.Worker.Model
import RiscvWorker.Worker.OnMachine
import RiscvWorker.Worker.OnBoard
import RiscvWorker.Host.Workflow
import RiscvWorker.Worker.EagerBoard
import RiscvWorker.Library.WordArray
import RiscvWorker.Worker.Client
import RiscvWorker.Worker.TestCase
import RiscvWorker.Core.EveryWord
import RiscvWorker.System.EveryProgram
import RiscvWorker.Host.PatientLink
import RiscvWorker.System.FullCpuTest
import RiscvWorker.Worker.TestSeries
import RiscvWorker.Isa.Footprint
import RiscvWorker.System.DebugReads
import RiscvWorker.Worker.LatentFaults
import RiscvWorker.Worker.TestIsolation
import RiscvWorker.Library.BitMask
import RiscvWorker.Worker.FaultCampaign
import RiscvWorker.Worker.SelfTests
import RiscvWorker.Isa.Relocation
import RiscvWorker.Worker.Platforms
