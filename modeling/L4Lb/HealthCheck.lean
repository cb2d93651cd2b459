/-
# Health checks

`src/ctrl/healthcheck.cpp`, and the system it runs in: the manager publishes
snapshots, the master gives the health checker the current one and the answers
that the workers have passed on. `probes` and `byPort` are hash tables. The
order in which `tick` goes through the probes is that of the table, so it is an
input: `order` has every key once. `taken` says of which real servers the ring
to the control thread takes a report.

What the checker does besides changing its state is a list of actions. The
segment of a `probe` or a `reset` is what `build_tcp` is called with; whether it
finds the next hop and a buffer does not matter to the checker. Times are in
milliseconds, and the clock does not go back.
-/
import L4Lb.Control
import L4Lb.TcpState

open Checked

namespace L4Lb

structure Probe where
  rsId : ℕ := 0
  ip : IPv4Addr := 0
  port : UInt16 := 0
  mac : MacAddr := MacAddr.zero
  /-- the state in the snapshot -/
  snapHealthy : Bool := true
  healthy : Bool := true
  inFlight : Bool := false
  srcPort : ℕ := 0
  isn : UInt32 := 0
  sentMs : ℕ := 0
  nextMs : ℕ := 0
  reportedMs : ℕ := 0
  ok : ℕ := 0
  fail : ℕ := 0

/-- What `build_tcp` makes a frame of. A zero MAC is looked up. -/
structure Segment where
  mac : MacAddr
  src : IPv4Addr
  dst : IPv4Addr
  srcPort : ℕ
  dstPort : UInt16
  flags : UInt8
  seq : UInt32
  ack : UInt32

inductive HcAction
  /-- `send_probe` -/
  | probe (rsId : ℕ) (seg : Segment)
  /-- `send_rst` -/
  | reset (rsId : ℕ) (seg : Segment)
  /-- `result` -/
  | result (rsId : ℕ) (ok : Bool)
  /-- an event to the control thread -/
  | report (ev : HealthEvent)

/-- The `EV_HC_RESP` of a worker. -/
structure HcResponse where
  ip : IPv4Addr
  /-- the port it was sent to -/
  port : UInt16
  /-- the port it came from -/
  aux : UInt16
  tcpFlags : UInt8
  seq : UInt32
  ack : UInt32

/-- `HealthChecker`. -/
structure HealthChecker where
  conf : HealthConf
  srcIp : IPv4Addr
  nextPort : ℕ := kHcPortMin
  isnSeed : UInt32 := 0x5a5a1234
  probes : ℕ → Option Probe := fun _ => none
  byPort : ℕ → Option ℕ := fun _ => none

/-- `HealthChecker::result`. -/
def Probe.result (conf : HealthConf) (p : Probe) : Bool → Probe
  | true =>
    let ok := (p.ok + 1) % 2 ^ 32
    { p with fail := 0, ok := ok, healthy := p.healthy || decide (ok ≥ conf.rise) }
  | false =>
    let fail := (p.fail + 1) % 2 ^ 32
    { p with ok := 0, fail := fail, healthy := p.healthy && !decide (fail ≥ conf.fall) }

/-- What `tick` takes over from the snapshot. -/
def Probe.refresh (p : Probe) (rs : RsState) : Probe :=
  { p with ip := rs.ip, port := rs.port, mac := rs.mac, snapHealthy := rs.healthy }

def Probe.waitUntil (p : Probe) (ms : ℕ) : Probe := { p with nextMs := ms }

/-- The real servers of TCP services, as they stand in `rs_pool`. -/
def Snapshot.tcpServers (snap : Snapshot) : List RsState :=
  (snap.services.flatMap (·.rs)).filter fun rs => (snap.services[rs.svcIdx]?).any (·.proto = 6)

namespace HealthChecker

def setProbe (hc : HealthChecker) (id : ℕ) (p : Option Probe) : HealthChecker :=
  { hc with probes := Function.update hc.probes id p }

def setPort (hc : HealthChecker) (port : ℕ) (id : Option ℕ) : HealthChecker :=
  { hc with byPort := Function.update hc.byPort port id }

def buildTcp (hc : HealthChecker) (p : Probe) (flags : UInt8) (seq ack : UInt32) : Segment where
  mac := p.mac
  src := hc.srcIp
  dst := p.ip
  srcPort := p.srcPort
  dstPort := p.port
  flags := flags
  seq := seq
  ack := ack

/-- The port after `port`. -/
def portAfter (port : ℕ) : ℕ := if port ≥ kHcPortMax then kHcPortMin else port + 1

/-- The loop of `send_probe`: `next_port_` behind it, and the free port. -/
def pickPort (byPort : ℕ → Option ℕ) : ℕ → ℕ → ℕ × Option ℕ
  | 0, port => (port, none)
  | tries + 1, port =>
    if (byPort port).isNone then (portAfter port, some port) else pickPort byPort tries (portAfter port)

def kHcPorts : ℕ := kHcPortMax - kHcPortMin + 1

/-- `send_probe`. Without a free port the probe keeps the port it has. -/
def sendProbe (hc : HealthChecker) (p : Probe) (now : ℕ) : HealthChecker × Probe :=
  let pick := pickPort hc.byPort kHcPorts hc.nextPort
  let srcPort := pick.2.getD p.srcPort
  let isn := hc.isnSeed * 1103515245 + 12345
  ({ hc with nextPort := pick.1, isnSeed := isn }.setPort srcPort (some p.rsId),
    { p with srcPort := srcPort, isn := isn, sentMs := now, inFlight := true })

/-- The real server in the loop of `tick` over the snapshot. -/
def sync (now : ℕ) (hc : HealthChecker) (rs : RsState) : HealthChecker :=
  let p := (hc.probes rs.id).getD
    { rsId := rs.id, healthy := rs.healthy, nextMs := now + (rs.id * 37 % 2 ^ 32) % hc.conf.intervalMs }
  hc.setProbe rs.id (some (p.refresh rs))

/-- The probe in the loop that removes those not seen. -/
def purge (seen : List ℕ) (hc : HealthChecker) (id : ℕ) : HealthChecker :=
  if id ∈ seen then hc
  else
    match hc.probes id with
    | none => hc
    | some p => (if p.inFlight then hc.setPort p.srcPort none else hc).setProbe id none

/-- A probe that has waited too long. -/
def expire (hc : HealthChecker) (p : Probe) (now : ℕ) : HealthChecker × Probe × List HcAction :=
  if p.inFlight ∧ now - p.sentMs ≥ hc.conf.timeoutMs then
    (hc.setPort p.srcPort none, { p with inFlight := false }.result hc.conf false, [.result p.rsId false])
  else (hc, p, [])

/-- The next probe, if it is time. -/
def launch (hc : HealthChecker) (p : Probe) (now : ℕ) : HealthChecker × Probe × List HcAction :=
  if ¬ p.inFlight ∧ now ≥ p.nextMs then
    let sent := hc.sendProbe p now
    (sent.1, sent.2.waitUntil (now + hc.conf.intervalMs),
      [.probe p.rsId (hc.buildTcp sent.2 TCP_SYN sent.2.isn 0)])
  else (hc, p, [])

/-- The report of a verdict that the snapshot does not have. -/
def reportChange (p : Probe) (now : ℕ) (taken : Bool) : Probe × List HcAction :=
  if p.healthy ≠ p.snapHealthy ∧ now - p.reportedMs ≥ 1000 ∧ taken then
    ({ p with reportedMs := now }, [.report ⟨p.rsId, p.healthy⟩])
  else (p, [])

/-- The body of the last loop of `tick`. -/
def visit (now : ℕ) (taken : ℕ → Bool) (hc : HealthChecker) (id : ℕ) : HealthChecker × List HcAction :=
  match hc.probes id with
  | none => (hc, [])
  | some p =>
    let expired := hc.expire p now
    let launched := expired.1.launch expired.2.1 now
    let reported := reportChange launched.2.1 now (taken id)
    (launched.1.setProbe id (some reported.1), expired.2.2 ++ launched.2.2 ++ reported.2)

/-- The last loop of `tick`. -/
def visitAll (now : ℕ) (taken : ℕ → Bool) : HealthChecker → List ℕ → HealthChecker × List HcAction
  | hc, [] => (hc, [])
  | hc, id :: rest =>
    let visited := hc.visit now taken id
    let rest := visitAll now taken visited.1 rest
    (rest.1, visited.2 ++ rest.2)

/-- `tick` up to its last loop. -/
def prepare (hc : HealthChecker) (snap : Snapshot) (now : ℕ) (order : List ℕ) : HealthChecker :=
  order.foldl (purge (snap.tcpServers.map (·.id))) (snap.tcpServers.foldl (sync now) hc)

def tick (hc : HealthChecker) (snap : Snapshot) (now : ℕ) (order : List ℕ) (taken : ℕ → Bool) :
    HealthChecker × List HcAction :=
  if hc.conf.enabled then visitAll now taken (hc.prepare snap now order) order else (hc, [])

def isSynAck (flags : UInt8) : Bool := flags &&& (TCP_SYN ||| TCP_ACK) == TCP_SYN ||| TCP_ACK

/-- `on_response`, for a probe in flight that the segment may be an answer to. -/
def answer (hc : HealthChecker) (id : ℕ) (p : Probe) (ev : HcResponse) : HealthChecker × List HcAction :=
  let hc := hc.setPort ev.port.toNat none
  let p := { p with inFlight := false }
  if isSynAck ev.tcpFlags then
    (hc.setProbe id (some (p.result hc.conf true)),
      [.reset id (hc.buildTcp p TCP_RST ev.ack 0), .result id true])
  else if hasFlag ev.tcpFlags TCP_RST then
    (hc.setProbe id (some (p.result hc.conf false)), [.result id false])
  else (hc.setProbe id (some p), [])

def onResponse (hc : HealthChecker) (ev : HcResponse) : HealthChecker × List HcAction :=
  match hc.byPort ev.port.toNat with
  | none => (hc, [])
  | some id =>
    match hc.probes id with
    | none => (hc, [])
    | some p =>
      if ¬ p.inFlight ∨ ev.ip ≠ p.ip ∨ ev.aux ≠ p.port then (hc, [])
      else if isSynAck ev.tcpFlags ∧ ev.ack ≠ p.isn + 1 then (hc, [])
      else hc.answer id p ev

end HealthChecker

/-! ### The system -/

/-- The manager, the health checker, and the time of its last call. -/
structure Monitor where
  mgr : SnapshotManager
  hc : HealthChecker
  now : ℕ := 0

inductive MonitorEvent
  | command (c : SnapshotManager.Command)
  | tick (now : ℕ) (order : List ℕ) (taken : ℕ → Bool)
  | response (now : ℕ) (ev : HcResponse)

namespace Monitor

variable (H : HashFns) (cfg : LbConfig)

/-- `HealthChecker::init`, after the first snapshot is published. -/
def boot : Except Fault Monitor := do
  return { mgr := ← SnapshotManager.init H cfg, hc := { conf := cfg.health, srcIp := cfg.hcSrc } }

/-- One step, with what the health checker does in it. -/
def step (s : Monitor) : MonitorEvent → Except Fault (Monitor × List HcAction)
  | .command c => do return ({ s with mgr := ← c.run H s.mgr }, [])
  | .tick now order taken =>
    match s.mgr.cur with
    | none => .error .null
    | some snap =>
      let ticked := s.hc.tick snap now order taken
      .ok ({ s with hc := ticked.1, now := now }, ticked.2)
  | .response now ev =>
    let answered := s.hc.onResponse ev
    .ok ({ s with hc := answered.1, now := now }, answered.2)

/-- The real servers that are checked. -/
def tcpIds (s : Monitor) : List ℕ := (s.mgr.cur.elim [] Snapshot.tcpServers).map (·.id)

/-- The clock does not go back, and a `tick` goes through the probes there are. -/
def Valid (s : Monitor) : MonitorEvent → Prop
  | .command _ => True
  | .tick now order _ => s.now ≤ now ∧ order.Nodup ∧ ∀ id, id ∈ order ↔ (s.hc.probes id).isSome ∨ id ∈ s.tcpIds
  | .response now _ => s.now ≤ now

/-- Runs of steps that `allowed` admits, with the actions of each. -/
inductive Steps (allowed : Monitor → MonitorEvent → Prop) :
    Monitor → List (MonitorEvent × List HcAction) → Monitor → Prop
  | nil (s : Monitor) : Steps allowed s [] s
  | cons {s s' s'' : Monitor} {ev : MonitorEvent} {acts : List HcAction}
      {τ : List (MonitorEvent × List HcAction)} (ha : allowed s ev) (hs : s.step H ev = .ok (s', acts))
      (h : Steps allowed s' τ s'') : Steps allowed s ((ev, acts) :: τ) s''

def Reach (allowed : Monitor → MonitorEvent → Prop) (s : Monitor) : Prop :=
  ∃ s0 τ, boot H cfg = .ok s0 ∧ Steps H allowed s0 τ s

end Monitor

end L4Lb
