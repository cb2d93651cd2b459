/-
# The master

`src/dataplane/master.cpp`: the thread that writes the neighbour table. It
takes the events of the workers from its ring, 64 at a time, runs its timers
and sends ARP requests and health checks. The workers go on meanwhile, so a
step of the system is a step of a worker or one part of the master's loop:
`wake` (the clock), `fetch` (a burst from the ring), `dispatch` (one event of
the burst), `garp`, `check` and `refresh` (the timers). The order of the parts
within the loop is left open. The timers of the statistics are left out.

`requested` has the targets of all ARP requests that were handed to the
transmit queue, gratuitous ones included. `alloc` says for which targets the
pool has a buffer, `room` whether the hash has room for a new key, `order` and
`probes` are the orders of the loops over hash tables.
-/
import L4Lb.Net
import L4Lb.HealthCheck

open Checked

namespace L4Lb

/-- The events a ring of `MASTER_RING_SIZE` entries holds. -/
def kMasterRing : ℕ := 8191

/-- `evs` of `drain_master_events`. -/
def kMasterBurst : ℕ := 64

structure MasterTimers where
  hcMs : ℕ := 0
  neighMs : ℕ := 0
  garpMs : ℕ := 0
  garpCount : ℕ := 0

structure System where
  net : Net
  hc : HealthChecker
  /-- `master_ring`, oldest first -/
  ring : List MasterEvent := []
  /-- the events of the burst that are still to be handled -/
  burst : List MasterEvent := []
  timers : MasterTimers := {}
  nowMs : ℕ := 0
  requested : List IPv4Addr := []

inductive SystemEvent
  | work (ev : Event)
  | wake (ms : ℕ)
  | fetch
  | dispatch (room : Bool) (alloc : IPv4Addr → Bool)
  | garp (alloc : IPv4Addr → Bool)
  | check (probes : List ℕ) (taken : ℕ → Bool) (alloc : IPv4Addr → Bool)
  | refresh (order : List IPv4Addr) (alloc : IPv4Addr → Bool)

/-- The worker that handles a packet. -/
def Event.worker : Event → Option ℕ
  | receive i _ _ | takeRedirected i _ => some i
  | _ => none

/-- The events that the step has posted. -/
def World.posted (W W' : World) (ev : Event) : List MasterEvent :=
  match ev.worker with
  | none => []
  | some i => (W'.workers i).events.drop (W.workers i).events.length

/-- The addresses of `send_garp`. -/
def Snapshot.garpAddrs (snap : Snapshot) : List IPv4Addr :=
  ((snap.services.map (·.vip) ++ snap.localIps ++ if snap.hcSrc ≠ 0 then [snap.hcSrc] else []).mergeSort
    fun a b => decide (a ≤ b)).eraseDups

/-- The static neighbours of the configuration. -/
def staticsOf (cfg : LbConfig) (room : IPv4Addr → Bool) : List StaticNeigh :=
  ((cfg.services.flatMap (·.rs)).filter fun rs => !macIsZero rs.mac).map fun rs => ⟨rs.ip, rs.mac, room rs.ip⟩

namespace System

def neigh (s : System) : NeighTable := s.net.neigh

/-- `now_tick` of the master. -/
def nowTick (s : System) : ℕ := 1 + s.nowMs / 1000

def setNeigh (s : System) (t : NeighTable) : System := { s with net := { s.net with neigh := t } }

/-- `send_arp`. -/
def sendArp (alloc : IPv4Addr → Bool) (s : System) (target : IPv4Addr) : System :=
  if alloc target then { s with requested := s.requested ++ [target] } else s

/-- `master_request_neigh`. -/
def requestNeigh (alloc : IPv4Addr → Bool) (s : System) (ip : IPv4Addr) : System :=
  if ip = 0 then s
  else
    let want := s.neigh.wantRequest ip s.nowTick
    let s := s.setNeigh want.1
    if want.2 then s.sendArp alloc ip else s

/-- An address that is looked up, and asked for if it is not in the table. -/
def ensure (alloc : IPv4Addr → Bool) (s : System) (ip : IPv4Addr) : System :=
  if s.neigh.lookup ip = none then s.requestNeigh alloc ip else s

variable (dp : Dataplane)

/-- `build_tcp`, as far as the neighbour table is concerned. -/
def transmit (alloc : IPv4Addr → Bool) (s : System) : HcAction → System
  | .probe _ seg | .reset _ seg => if macIsZero seg.mac then s.ensure alloc (dp.route.nextHop seg.dst) else s
  | .result _ _ | .report _ => s

/-- The body of `drain_master_events`. -/
def dispatch (room : Bool) (alloc : IPv4Addr → Bool) (s : System) : MasterEvent → System
  | .arpForUs ip mac => s.setNeigh (s.neigh.learn ip mac false s.nowTick room)
  -- every reply counts as an answer to a request
  | .arpReply ip mac => s.setNeigh (s.neigh.learn ip mac true s.nowTick room)
  | .neighHint ip mac => s.setNeigh (s.neigh.hint ip mac s.nowTick room)
  | .neighMiss ip => s.requestNeigh alloc ip
  | .hcResp ip port aux tcpFlags seq ack =>
    let answered := s.hc.onResponse ⟨ip, port, aux, tcpFlags, seq, ack⟩
    answered.2.foldl (transmit dp alloc) { s with hc := answered.1 }

/-- `preresolve`: the gateway, and the real servers without a MAC. -/
def preresolve (alloc : IPv4Addr → Bool) (snap : Snapshot) (s : System) : System :=
  let s := if dp.route.gateway ≠ 0 then s.ensure alloc dp.route.gateway else s
  (snap.services.flatMap (·.rs)).foldl (fun s rs =>
    let hop := dp.route.nextHop rs.ip
    if macIsZero rs.mac ∧ hop ≠ 0 then s.ensure alloc hop else s) s

/-- The gratuitous ARP of `master_periodic`: three times in the first seconds,
then every minute. -/
def garp (alloc : IPv4Addr → Bool) (snap : Snapshot) (s : System) : System :=
  let gap := if s.timers.garpCount < 3 then 1000 else 60000
  if s.timers.garpCount = 0 ∨ s.nowMs - s.timers.garpMs ≥ gap then
    { snap.garpAddrs.foldl (sendArp alloc) s with
      timers := { s.timers with garpMs := s.nowMs, garpCount := s.timers.garpCount + 1 } }
  else s

/-- The health checks of `master_periodic`. -/
def check (probes : List ℕ) (taken : ℕ → Bool) (alloc : IPv4Addr → Bool) (snap : Snapshot) (s : System) : System :=
  if s.nowMs - s.timers.hcMs ≥ 100 then
    let ticked := s.hc.tick snap s.nowMs probes taken
    ticked.2.foldl (transmit dp alloc) { s with hc := ticked.1, timers := { s.timers with hcMs := s.nowMs } }
  else s

/-- The ageing of the neighbours in `master_periodic`. -/
def refresh (order : List IPv4Addr) (alloc : IPv4Addr → Bool) (snap : Snapshot) (s : System) : System :=
  if s.nowMs - s.timers.neighMs ≥ 1000 then
    let aged := s.neigh.age s.nowTick order
    let s := aged.2.foldl (sendArp alloc) (s.setNeigh aged.1)
    { s.preresolve dp alloc snap with timers := { s.timers with neighMs := s.nowMs } }
  else s

/-- The snapshot that the master reads. -/
def current (s : System) : Except Fault Snapshot :=
  match s.net.world.mgr.cur with
  | none => .error .null
  | some snap => .ok snap

def step (s : System) : SystemEvent → Except Fault System
  | .work ev => do
    let W := s.net.world
    let W' ← W.step dp (ev.seeing s.neigh.view)
    return { s with net := ⟨W', s.neigh⟩, ring := (s.ring ++ W.posted W' ev).take kMasterRing }
  | .wake ms => .ok { s with nowMs := ms }
  | .fetch =>
    -- the next burst, when the last one is done
    if s.burst = [] then .ok { s with burst := s.ring.take kMasterBurst, ring := s.ring.drop kMasterBurst } else .ok s
  | .dispatch room alloc =>
    match s.burst with
    | [] => .ok s
    | ev :: rest => .ok ({ s with burst := rest }.dispatch dp room alloc ev)
  | .garp alloc => do return s.garp alloc (← s.current)
  | .check probes taken alloc => do return s.check dp probes taken alloc (← s.current)
  | .refresh order alloc => do return s.refresh dp order alloc (← s.current)

/-- The worker is there, the clock does not go back, and the loops go through
what there is. -/
def Valid (s : System) : SystemEvent → Prop
  | .work ev => ev.Valid dp.steering.n
  | .wake ms => s.nowMs ≤ ms
  | .refresh order _ => s.neigh.Orders order
  | _ => True

/-- The start: the table has the static neighbours. -/
def boot (room : IPv4Addr → Bool) : Except Fault System := do
  return {
    net := ⟨← World.boot dp, NeighTable.startUp (staticsOf dp.cfg room)⟩
    hc := { conf := dp.cfg.health, srcIp := dp.cfg.hcSrc } }

/-- The states of the system. -/
inductive Reach (room : IPv4Addr → Bool) : System → Prop
  | boot {s : System} (h : boot dp room = .ok s) : Reach room s
  | step {s s' : System} (ev : SystemEvent) (h : Reach room s) (hv : s.Valid dp ev) (hs : s.step dp ev = .ok s') :
      Reach room s'

end System

end L4Lb
