import L4Lb.Lib.IntrusiveList
import L4Lb.Lib.OnesComplement
import L4Lb.Lib.Calls
import L4Lb.Lib.Checked
import L4Lb.Lib.Probing
import L4Lb.Logger
import L4Lb.Logger.Delivery
import L4Lb.Logger.RateLimit
import L4Lb.Lib.SlotLog
import L4Lb.Lib.BoundedMap
import L4Lb.Logger.Files
import L4Lb.Logger.Rotation
import L4Lb.Types
import L4Lb.Text
import L4Lb.Dpdk.Hash
import L4Lb.Config
import L4Lb.Config.Parse
import L4Lb.Config.Services
import L4Lb.TcpState
import L4Lb.Session
import L4Lb.TcpState.Connection
import L4Lb.Session.Links
import L4Lb.Session.Consistent
import L4Lb.Session.Expire
import L4Lb.Session.Wheel
import L4Lb.Clock
import L4Lb.Frame
import L4Lb.Parser
import L4Lb.Parser.Grammar
import L4Lb.Checksum
import L4Lb.Forward
import L4Lb.Forward.Spec
import L4Lb.Forward.Valid
import L4Lb.Lib.OptionList
import L4Lb.Forward.Options
import L4Lb.Forward.Effect
import L4Lb.Forward.Errors
import L4Lb.Forward.Offload
import L4Lb.Scheduler
import L4Lb.Scheduler.Built
import L4Lb.Lib.SmoothRoundRobin
import L4Lb.Scheduler.Smooth
import L4Lb.Scheduler.Rounds
import L4Lb.Snapshot
import L4Lb.Snapshot.Lookup
import L4Lb.Snapshot.Built
import L4Lb.Snapshot.Answers
import L4Lb.Snapshot.Picks
import L4Lb.Steering
import L4Lb.Context
import L4Lb.Processor
import L4Lb.Processor.Icmp
import L4Lb.Session.Steps
import L4Lb.Session.Create
import L4Lb.Processor.Sessions
import L4Lb.Processor.Paths
import L4Lb.Processor.Ledger
import L4Lb.Processor.Outward
import L4Lb.World
import L4Lb.World.Invariant
import L4Lb.World.Owners
import L4Lb.World.Receiver
import L4Lb.World.Errors
import L4Lb.World.Arp
import L4Lb.World.Rollback
import L4Lb.World.Connection
import L4Lb.World.Handshake
import L4Lb.World.Tuples
import L4Lb.World.RealServers
import L4Lb.Lib.Custody
import L4Lb.Lib.Qsbr
import L4Lb.Snapshot.Desired
import L4Lb.World.Lineage
import L4Lb.Processor.Counters
import L4Lb.World.Ledger
import L4Lb.World.Totals
import L4Lb.Traffic
import L4Lb.Traffic.Ownership
import L4Lb.Rcu
import L4Lb.Rcu.Safety
import L4Lb.Control
import L4Lb.Config.RsSpec
import L4Lb.Control.Replies
import L4Lb.World.Services
import L4Lb.Lib.PartialInverse
import L4Lb.HealthCheck
import L4Lb.HealthCheck.Probes
import L4Lb.HealthCheck.Ports
import L4Lb.HealthCheck.Life
import L4Lb.HealthCheck.Verdicts
import L4Lb.HealthCheck.Hysteresis
import L4Lb.Neigh
import L4Lb.Neigh.Consistent
import L4Lb.Processor.Caches
import L4Lb.Net
import L4Lb.Net.Caches
import L4Lb.Master
import L4Lb.Master.Arp
import L4Lb.Master.Heard
import L4Lb.HealthCheck.Wire
import L4Lb.Master.Answers
import L4Lb.Lib.Lanes
import L4Lb.Traffic.Workers
import L4Lb.Traffic.Order
import L4Lb.World.Lifetime
import L4Lb.Port
import L4Lb.Port.Placement
import L4Lb.Control.Health
import L4Lb.HealthCheck.Reports
import L4Lb.HealthCheck.Loop
import L4Lb.Config.Load
import L4Lb.Config.Loaded
import L4Lb.Config.OldFormat
import L4Lb.Control.Socket
import L4Lb.Control.Requests
