/-
# The context of a worker

`include/dataplane/context.h`, `include/common/stats.h` and
`include/net/route.h`: what the workers share and what each keeps for itself.
The counters are unbounded. `events` are the events a worker has posted to
the master, oldest first; whether the ring to the master takes them is not
seen by the worker. A packet reads the generation of the neighbour table and
looks up at most one address, so what the master writes meanwhile is covered
by taking any `NeighView` for each packet.

A scheduler keeps a WRR cursor for each worker; here each worker keeps the
cursors of the services of the snapshot it uses.
-/
import L4Lb.Snapshot
import L4Lb.Clock
import L4Lb.Steering

namespace L4Lb

/-- `Stat`: the counters of a worker. -/
inductive Stat
  | rx
  | tx
  | txFull
  | arp
  | icmp
  | tcp
  | udp
  | fwdIn
  | fwdOut
  | icmpErrFwd
  | dropMalformed
  | dropFragment
  | dropCksum
  | dropNotLocal
  | dropNoService
  | dropNoSession
  | dropNoRs
  | dropRsDown
  | dropTableFull
  | dropNoPort
  | dropNoNeigh
  | dropTtl
  | dropRedirect
  | dropOther
  | sessNew
  | sessExpired
  | sessClosed
  | redirectOut
  | redirectIn
  | ringIn
  | dropRxRing
  | rssMismatch
  | rssNoHash
  | toaAdded
  | toaNoRoom
  | tsStripped
  | hcResp
  deriving DecidableEq, Repr

/-- `ST_DROP_MALFORMED` to `ST_DROP_OTHER`. -/
def Stat.dropReasons : List Stat :=
  [.dropMalformed, .dropFragment, .dropCksum, .dropNotLocal, .dropNoService, .dropNoSession, .dropNoRs,
    .dropRsDown, .dropTableFull, .dropNoPort, .dropNoNeigh, .dropTtl, .dropRedirect, .dropOther]

inductive ByteStat
  | rx
  | tx
  | fwdIn
  | fwdOut
  deriving DecidableEq, Repr

/-- The counters of a real server. -/
structure RsCounters where
  conns : ℕ := 0
  pktsIn : ℕ := 0
  bytesIn : ℕ := 0
  pktsOut : ℕ := 0
  bytesOut : ℕ := 0
  deriving DecidableEq

structure Route where
  netmask : IPv4Addr := 0
  network : IPv4Addr := 0
  gateway : IPv4Addr := 0

namespace Route

def init (localIp mask gw : IPv4Addr) : Route := ⟨mask, localIp &&& mask, gw⟩

def onLink (r : Route) (ip : IPv4Addr) : Bool := r.netmask == 0 || ip &&& r.netmask == r.network

/-- `next_hop`; 0 is unreachable. -/
def nextHop (r : Route) (dst : IPv4Addr) : IPv4Addr := if r.onLink dst then dst else r.gateway

end Route

/-- What a worker reads of the neighbour table. -/
structure NeighView where
  generation : ℕ
  lookup : IPv4Addr → Option MacAddr

inductive MasterEvent
  | arpForUs (ip : IPv4Addr) (mac : MacAddr)
  | arpReply (ip : IPv4Addr) (mac : MacAddr)
  | neighHint (ip : IPv4Addr) (mac : MacAddr)
  | neighMiss (ip : IPv4Addr)
  | hcResp (ip : IPv4Addr) (port aux : UInt16) (tcpFlags : UInt8) (seq ack : UInt32)
  deriving DecidableEq

/-- `Dataplane`: what stays as it was set up at the start, with the hash
functions. Of `tx_offloads` the two bits that are read are kept. -/
structure Dataplane where
  H : HashFns
  localMac : MacAddr
  txTcpCksum : Bool := false
  txUdpCksum : Bool := false
  mtu : ℕ := 1500
  pipeline : Bool := false
  cfg : LbConfig
  steering : Steering
  route : Route
  clock : Tsc

/-- `route_src` of `main`: the first local address, or the first VIP. -/
def routeOf (cfg : LbConfig) : Route :=
  Route.init (cfg.localIps.headD ((cfg.services.map (·.vip)).headD 0)) cfg.netmask cfg.gateway

structure WorkerCtx where
  idx : ℕ
  sessions : SessionTable
  stats : Stat → ℕ := fun _ => 0
  bytes : ByteStat → ℕ := fun _ => 0
  /-- `kMaxRsCounters` of them -/
  rsStats : ℕ → RsCounters := fun _ => {}
  lipCursor : List ℕ := []
  lipRr : ℕ := 0
  nowTick : ℕ := 1
  cursors : ℕ → ℕ
  events : List MasterEvent := []

namespace WorkerCtx

/-- The context of worker `i` at the start. -/
def init (cfg : LbConfig) (numWorkers i : ℕ) : WorkerCtx where
  idx := i
  sessions := SessionTable.init (max (cfg.maxSessions / numWorkers) 1024) 1
  lipCursor := List.replicate cfg.localIps.length 0
  cursors := fun _ => Scheduler.firstCursor i

/-- `stats.add`. -/
def addStat (w : WorkerCtx) (id : Stat) (n : ℕ) : WorkerCtx :=
  { w with stats := Function.update w.stats id (w.stats id + n) }

/-- `stats.add(id)`. -/
def count (w : WorkerCtx) (id : Stat) : WorkerCtx := w.addStat id 1

/-- `stats.add_bytes`. -/
def addBytes (w : WorkerCtx) (id : ByteStat) (n : ℕ) : WorkerCtx :=
  { w with bytes := Function.update w.bytes id (w.bytes id + n) }

/-- A write to the counters of a real server. -/
def addRs (w : WorkerCtx) (id : ℕ) (f : RsCounters → RsCounters) : Except Fault WorkerCtx :=
  if id < kMaxRsCounters then .ok { w with rsStats := Function.update w.rsStats id (f (w.rsStats id)) }
  else .error (.index id kMaxRsCounters)

/-- `post_master_event`, of each. -/
def post (w : WorkerCtx) (evs : List MasterEvent) : WorkerCtx := { w with events := w.events ++ evs }

/-- The session at `i`. -/
def session (w : WorkerCtx) (i : ℕ) : Session := w.sessions.sessions i

/-- A write to the session at `i`. -/
def setSession (w : WorkerCtx) (i : ℕ) (f : Session → Session) : WorkerCtx :=
  { w with sessions := w.sessions.modify i f }

end WorkerCtx

end L4Lb
