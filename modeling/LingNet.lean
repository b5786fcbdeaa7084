import LingNet.Lib.Run
import LingNet.Lib.Amortized
import LingNet.Lib.SpinLock
import LingNet.Lib.FixedWindow
import LingNet.Lib.Chain
import LingNet.Lib.Custody
import LingNet.Lib.Cbpf
import LingNet.Lib.Priority
import LingNet.Lib.Displace
import LingNet.Lib.IdTree
import LingNet.Lib.Shelves
import LingNet.Lib.ByteMem
import LingNet.Lib.Ebpf
import LingNet.Lib.EbpfWord
import LingNet.Lib.BoundedMap
import LingNet.Lib.ByteStream
import LingNet.Lib.Coroutine
import LingNet.Lib.Credit
import LingNet.Lib.RoundRobin
import LingNet.Lib.FirstComers
import LingNet.Lib.Floats
import LingNet.Lib.PriorityQueue
import LingNet.Lib.Tiling
import LingNet.Lib.Route
import LingNet.Lib.Greedy
import LingNet.Lib.Mix
import LingNet.Lib.Weighted
import LingNet.Zig.Outcome
import LingNet.Zig.Proc
import LingNet.Zig.Heap
import LingNet.Zig.Ghost
import LingNet.Zig.Path
import LingNet.Zig.ParseInt
import LingNet.Zig.Descriptors
import LingNet.Zig.Triple
import LingNet.Gqap.Pools
import LingNet.Gqap.Arena
import LingNet.Gqap.System
import LingNet.Gqap.Refinement
import LingNet.Gqap.Conservation
import LingNet.Gqap.Tiers
import LingNet.Gqap.Zeroing
import LingNet.Gqap.Grace
import LingNet.Gqap.Exposure
import LingNet.Gqap.Isolation
import LingNet.Gqap.Noninterference
import LingNet.Gqap.Machine
import LingNet.Gqap.Solo
import LingNet.Gqap.Interleaving
import LingNet.Gqap.Handover
import LingNet.Gqap.Bump
import LingNet.Gqap.Exhaustion
import LingNet.Gqap.Progress
import LingNet.Gqap.Drain
import LingNet.Gqap.Clients
import LingNet.Gqap.Capacity
import LingNet.Boot.Preflight
import LingNet.Boot.Protection
import LingNet.Boot.Gate
import LingNet.Boot.V22
import LingNet.V1.Compat
import LingNet.Sandbox.Seccomp
import LingNet.Sandbox.Policy
import LingNet.Sandbox.Confinement
import LingNet.Sandbox.Instance
import LingNet.Sandbox.Descriptors
import LingNet.L2.Loader
import LingNet.L2.Admission
import LingNet.L2.Unload
import LingNet.L2.Ledger
import LingNet.L2.Confinement
import LingNet.L2.Ownership
import LingNet.L2.File
import LingNet.L2.Descriptors
import LingNet.Skill.Loader
import LingNet.Skill.Resources
import LingNet.Skill.Permanence
import LingNet.Skill.Reentrancy
import LingNet.Skill.Revocation
import LingNet.Scheduler.Tick
import LingNet.Scheduler.Ledger
import LingNet.Scheduler.Retention
import LingNet.EbpfLoader.Insn
import LingNet.EbpfLoader.Encoding
import LingNet.EbpfLoader.Invoke
import LingNet.EbpfLoader.Counters
import LingNet.EbpfLoader.Registry
import LingNet.EbpfLoader.Loading
import LingNet.ArenaAudit.Probe
import LingNet.ArenaAudit.Leaks
import LingNet.ArenaAudit.Alarms
import LingNet.ArenaAudit.Monitor
import LingNet.Lsm.Policy
import LingNet.Switch.Table
import LingNet.PerfectHash.Build
import LingNet.PerfectHash.Lookup
import LingNet.PerfectHash.Release
import LingNet.PhfGenerator.Generate
import LingNet.PhfGenerator.Exact
import LingNet.Vfs.Adapter
import LingNet.Vfs.Calls
import LingNet.Vfs.Walk
import LingNet.Vfs.Quota
import LingNet.Vfs.WellFormed
import LingNet.Vfs.Frame
import LingNet.Vfs.ReadBack
import LingNet.Vfs.Permission
import LingNet.Vfs.Refinement
import LingNet.Mrc.Cam
import LingNet.Mrc.Rules
import LingNet.Mrc.Flow
import LingNet.Mrc.FlowRuns
import LingNet.Mrc.FlowRetention
import LingNet.Mrc.Engine
import LingNet.Mrc.Expiry
import LingNet.Mrc.Accounting
import LingNet.Mrc.FlowHash
import LingNet.Mrc.FlowLocking
import LingNet.Orchestrator.Sanitizer
import LingNet.Orchestrator.Vrf
import LingNet.Orchestrator.Locking
import LingNet.Zmq.Frame
import LingNet.Zmq.Receive
import LingNet.Zmq.Stream
import LingNet.Zmq.Segmentation
import LingNet.Zmq.Endpoint
import LingNet.Zmq.Syscalls
import LingNet.Netlink.Parse
import LingNet.Netlink.Wire
import LingNet.Netlink.Report
import LingNet.Netlink.Build
import LingNet.Py.Value
import LingNet.Router.Config
import LingNet.Router.Call
import LingNet.Router.Race
import LingNet.Router.Budget
import LingNet.Router.Route
import LingNet.Router.Early
import LingNet.Router.RaceRun
import LingNet.Router.Fallback
import LingNet.Router.Entry
import LingNet.Router.Selection
import LingNet.Router.Retry
import LingNet.Router.Answers
import LingNet.Router.Spending
import LingNet.Router.Traffic
import LingNet.Providers.RouterCore
import LingNet.Providers.Status
import LingNet.Providers.Accounting
import LingNet.Providers.Race
import LingNet.Providers.Effect
import LingNet.Providers.Metrics
import LingNet.Providers.Fairness
import LingNet.Clients.Base
import LingNet.Clients.Adapters
import LingNet.Clients.Agreement
import LingNet.Clients.Conversion
import LingNet.Clients.Registry
import LingNet.Clients.Attempts
import LingNet.Cognitive.Condense
import LingNet.Condense.Pipeline
import LingNet.Condense.Tracking
import LingNet.Condense.Window
import LingNet.Condense.Budget
import LingNet.Condense.Preservation
import LingNet.Condense.Entitlement
import LingNet.Condense.Starvation
import LingNet.Condense.Order
import LingNet.Condense.Idempotence
import LingNet.Generator.Generate
import LingNet.Generator.Ledger
import LingNet.Process.Vrfs
import LingNet.Process.L2Skills
import LingNet.Process.Skills
import LingNet.Process.Generated
import LingNet.Process.System
import LingNet.Process.Isolation
