/-
# Snapshots

`include/ctrl/snapshot.h` and `src/ctrl/snapshot.cpp`. The control plane
changes the desired state of the `SnapshotManager` and publishes snapshots
built from it; the workers read the current snapshot. The lookup tables of a
snapshot are arrays of 512 cells with linear probing: `ℕ → IPv4Addr` with 0 for
an empty cell, `ℕ → Option ℕ` for the services (`none` is -1). A probe loop that
would not end is the fault `endless`.

`Service::rs` holds pointers into `rs_pool`; here it holds the states. The
services of the program are left with the fields that the data plane reads.
What an operation of the manager returns as an error text, with the state
unchanged, is `Except.error`.
-/
import L4Lb.Scheduler
import L4Lb.Lib.Probing

open Checked Probing

namespace L4Lb

/-- The size of a worker's array of RS counters. -/
def kMaxRsCounters : ℕ := 16384

def kMaxRsId : ℕ := kMaxRsCounters

/-- `RsState`: a real server in a snapshot. -/
structure RsState where
  id : ℕ
  svcIdx : ℕ
  ip : IPv4Addr
  portBe : Port
  port : UInt16
  mac : MacAddr
  weight : ℕ
  enabled : Bool
  healthy : Bool
  deriving DecidableEq

namespace RsState

/-- A session may go on using it. -/
def usable (r : RsState) : Bool := r.enabled && r.healthy

/-- A new session may use it. -/
def schedulable (r : RsState) : Bool := r.usable && decide (0 < r.weight)

/-- What the scheduler is built from. -/
def backend (r : RsState) : SchedBackend := ⟨r.ip, r.port, if r.schedulable then r.weight else 0⟩

end RsState

structure Service where
  idx : ℕ
  name : String
  vip : IPv4Addr
  portBe : Port
  port : UInt16
  proto : UInt8
  rs : List RsState
  sched : Scheduler

/-- What `find_service` looks for. -/
def Service.key (s : Service) : IPv4Addr × Port × UInt8 := (s.vip, s.portBe, s.proto)

def kSvcSlots : ℕ := 512
def kAddrSlots : ℕ := 512

structure Snapshot where
  version : ℕ := 0
  mode : ForwardMode := .nat
  services : List Service := []
  rsById : List (Option RsState) := []
  localIps : List IPv4Addr := []
  hcSrc : IPv4Addr := 0
  svcSlots : ℕ → Option ℕ := fun _ => none
  vips : ℕ → IPv4Addr := fun _ => 0
  lips : ℕ → IPv4Addr := fun _ => 0
  locals : ℕ → IPv4Addr := fun _ => 0

namespace Snapshot

variable (H : HashFns)

def svcHash (vip : IPv4Addr) (portBe : Port) (proto : UInt8) : ℕ :=
  (H.crc8byte ((vip.toUInt64 <<< 24) ||| (portBe.toUInt64 <<< 8) ||| proto.toUInt64) 0).toNat

def addrHash (ip : IPv4Addr) : ℕ := (H.crc4byte ip 0).toNat

/-- `set_has`. -/
def setHas (set : ℕ → IPv4Addr) (ip : IPv4Addr) : Except Fault Bool :=
  match probe kAddrSlots (fun i => set i == ip || set i == 0) kAddrSlots (addrHash H ip % kAddrSlots) with
  | some i => .ok (set i == ip)
  | none => .error .endless

/-- `set_add`. -/
def setAdd (set : ℕ → IPv4Addr) (ip : IPv4Addr) : Except Fault (ℕ → IPv4Addr) := do
  if ip = 0 then return set
  if ← setHas H set ip then return set
  match probe kAddrSlots (fun i => set i == 0) kAddrSlots (addrHash H ip % kAddrSlots) with
  | some i => return Function.update set i ip
  | none => throw .endless

/-- The service of a cell, if it has the key. -/
def cellMatches (services : List Service) (vip : IPv4Addr) (portBe : Port) (proto : UInt8) (idx : ℕ) : Bool :=
  (services[idx]?).all fun s => s.vip == vip && s.portBe == portBe && s.proto == proto

def findService (snap : Snapshot) (vip : IPv4Addr) (portBe : Port) (proto : UInt8) :
    Except Fault (Option Service) :=
  match probe kSvcSlots (fun i => (snap.svcSlots i).all (cellMatches snap.services vip portBe proto))
      kSvcSlots (svcHash H vip portBe proto % kSvcSlots) with
  | none => .error .endless
  | some i =>
    match snap.svcSlots i with
    | none => .ok none
    | some idx =>
      match snap.services[idx]? with
      | some s => .ok (some s)
      | none => .error (.index idx snap.services.length)

def isVip (snap : Snapshot) (ip : IPv4Addr) : Except Fault Bool := setHas H snap.vips ip

def isLip (snap : Snapshot) (ip : IPv4Addr) : Except Fault Bool := setHas H snap.lips ip

def isLocal (snap : Snapshot) (ip : IPv4Addr) : Except Fault Bool := setHas H snap.locals ip

/-- `rs`; a null pointer is `none`. -/
def rs (snap : Snapshot) (id : ℕ) : Option RsState := (snap.rsById[id]?).join

/-- The loop of `index` over the services. -/
def indexServices : List Service → (ℕ → Option ℕ) → Except Fault (ℕ → Option ℕ)
  | [], slots => return slots
  | s :: rest, slots =>
    match probe kSvcSlots (fun i => (slots i).isNone) kSvcSlots (svcHash H s.vip s.portBe s.proto % kSvcSlots) with
    | some i => indexServices rest (Function.update slots i (some s.idx))
    | none => throw .endless

/-- `index`. -/
def index (snap : Snapshot) : Except Fault Snapshot := do
  let slots ← indexServices H snap.services fun _ => none
  let vips ← (snap.services.map (·.vip)).foldlM (setAdd H) fun _ => 0
  let lips ← snap.localIps.foldlM (setAdd H) fun _ => 0
  let locals ← (snap.services.map (·.vip) ++ snap.localIps ++ [snap.hcSrc]).foldlM (setAdd H) fun _ => 0
  return { snap with svcSlots := slots, vips := vips, lips := lips, locals := locals }

end Snapshot

/-! ### The manager -/

structure DesiredRs where
  id : ℕ
  conf : RsConf
  enabled : Bool := true
  healthy : Bool := true

structure DesiredService where
  /-- its `rs` is not used -/
  conf : ServiceConf
  rs : List DesiredRs

structure SnapshotManager where
  mode : ForwardMode := .nat
  localIps : List IPv4Addr := []
  hcSrc : IPv4Addr := 0
  services : List DesiredService := []
  nextRsId : ℕ := 1
  version : ℕ := 0
  cur : Option Snapshot := none

namespace SnapshotManager

/-- The first RS with the id, changed by `f`; `none` if there is no such RS. -/
def modifyRs (id : ℕ) (f : DesiredRs → DesiredRs) : List DesiredService → Option (List DesiredService)
  | [] => none
  | ds :: rest =>
    match ds.rs.findIdx? (·.id == id) with
    | some k => some ({ ds with rs := ds.rs.modify k f } :: rest)
    | none => (modifyRs id f rest).map (ds :: ·)

/-- The first RS with the id, erased. -/
def eraseRs (id : ℕ) : List DesiredService → Option (List DesiredService)
  | [] => none
  | ds :: rest =>
    match ds.rs.findIdx? (·.id == id) with
    | some k => some ({ ds with rs := ds.rs.eraseIdx k } :: rest)
    | none => (eraseRs id rest).map (ds :: ·)

def noSuchRs (id : ℕ) : String := s!"no such rs {id}"

def setWeight (mgr : SnapshotManager) (id weight : ℕ) : Except String SnapshotManager :=
  match modifyRs id (fun r => { r with conf := { r.conf with weight := weight } }) mgr.services with
  | none => .error (noSuchRs id)
  | some services =>
    if weight > 65535 then .error "weight must be 0-65535" else .ok { mgr with services := services }

def setEnabled (mgr : SnapshotManager) (id : ℕ) (enabled : Bool) : Except String SnapshotManager :=
  match modifyRs id (fun r => { r with enabled := enabled }) mgr.services with
  | none => .error (noSuchRs id)
  | some services => .ok { mgr with services := services }

/-- `add_rs`: the manager and the new id. -/
def addRs (mgr : SnapshotManager) (svcIdx : ℕ) (rs : RsConf) : Except String (SnapshotManager × ℕ) :=
  match mgr.services[svcIdx]? with
  | none => .error s!"no such service {svcIdx}"
  | some svc =>
    if svc.rs.length ≥ kMaxRsPerService then .error "too many real servers in service"
    else
      match svc.rs.find? fun r => r.conf.ip == rs.ip && r.conf.port == rs.port with
      | some r => .error s!"rs already exists (id {r.id})"
      | none =>
        if mgr.nextRsId ≥ kMaxRsId then .error "rs id space exhausted"
        else
          let svc := { svc with rs := svc.rs ++ [{ id := mgr.nextRsId, conf := rs }] }
          .ok ({ mgr with services := mgr.services.set svcIdx svc, nextRsId := mgr.nextRsId + 1 },
            mgr.nextRsId)

def delRs (mgr : SnapshotManager) (id : ℕ) : Except String SnapshotManager :=
  match eraseRs id mgr.services with
  | none => .error (noSuchRs id)
  | some services => .ok { mgr with services := services }

def setHealth (mgr : SnapshotManager) (id : ℕ) (healthy : Bool) : SnapshotManager :=
  match modifyRs id (fun r => { r with healthy := healthy }) mgr.services with
  | none => mgr
  | some services => { mgr with services := services }

/-- The state of an RS in a snapshot. -/
def rsState (svcIdx : ℕ) (r : DesiredRs) : RsState where
  id := r.id
  svcIdx := svcIdx
  ip := r.conf.ip
  portBe := bswap16 r.conf.port
  port := r.conf.port
  mac := r.conf.mac
  weight := r.conf.weight
  enabled := r.enabled
  healthy := r.healthy

/-- `snap->rs_by_id[rs.id] = p`. -/
def storeRs (byId : List (Option RsState)) (r : RsState) : Except Fault (List (Option RsState)) :=
  if r.id < byId.length then .ok (byId.set r.id (some r)) else .error (.index r.id byId.length)

variable (H : HashFns)

/-- A service of the snapshot, at position `i`. -/
def buildService (ds : DesiredService) (i : ℕ) : Except Fault Service := do
  let rs := ds.rs.map (rsState i)
  let sched ← Scheduler.build H ds.conf.sched (rs.map (·.backend))
  return {
    idx := i, name := ds.conf.name, vip := ds.conf.vip, portBe := bswap16 ds.conf.port,
    port := ds.conf.port, proto := ds.conf.proto, rs := rs, sched := sched }

/-- The loop of `build` over the services, from position `i` on. -/
def buildServices : List DesiredService → ℕ → List (Option RsState) →
    Except Fault (List Service × List (Option RsState))
  | [], _, byId => return ([], byId)
  | ds :: rest, i, byId => do
    let svc ← buildService H ds i
    let byId ← svc.rs.foldlM storeRs byId
    let (services, byId) ← buildServices rest (i + 1) byId
    return (svc :: services, byId)

def build (mgr : SnapshotManager) : Except Fault Snapshot := do
  let (services, byId) ← buildServices H mgr.services 0 (List.replicate mgr.nextRsId none)
  Snapshot.index H {
    version := mgr.version, mode := mgr.mode, services := services, rsById := byId,
    localIps := mgr.localIps, hcSrc := mgr.hcSrc }

/-- `publish`; waiting for the readers of the old snapshot is left out. -/
def publish (mgr : SnapshotManager) : Except Fault SnapshotManager := do
  let mgr := { mgr with version := mgr.version + 1 }
  let snap ← build H mgr
  return { mgr with cur := some snap }

/-- The services with the ids that `init` assigns, from `next` on. -/
def initServices : List ServiceConf → ℕ → List DesiredService × ℕ
  | [], next => ([], next)
  | sc :: rest, next =>
    let rs := (sc.rs.zipIdx next).map fun (rc, id) => { id := id, conf := rc : DesiredRs }
    let (services, next) := initServices rest (next + sc.rs.length)
    ({ conf := sc, rs := rs } :: services, next)

def init (cfg : LbConfig) : Except Fault SnapshotManager :=
  let (services, next) := initServices cfg.services 1
  publish H {
    mode := cfg.mode, localIps := if cfg.mode = .nat then cfg.localIps else [], hcSrc := cfg.hcSrc,
    services := services, nextRsId := next }

/-- What the control plane does to the manager. -/
inductive Command
  | setWeight (id weight : ℕ)
  | setEnabled (id : ℕ) (enabled : Bool)
  | addRs (svcIdx : ℕ) (rs : RsConf)
  | delRs (id : ℕ)
  | setHealth (id : ℕ) (healthy : Bool)
  | publish

/-- The manager after a command; one that is refused changes nothing. -/
def Command.run (mgr : SnapshotManager) : Command → Except Fault SnapshotManager
  | .setWeight id weight => .ok ((mgr.setWeight id weight).toOption.getD mgr)
  | .setEnabled id enabled => .ok ((mgr.setEnabled id enabled).toOption.getD mgr)
  | .addRs svcIdx rs => .ok (((mgr.addRs svcIdx rs).map (·.1)).toOption.getD mgr)
  | .delRs id => .ok ((mgr.delRs id).toOption.getD mgr)
  | .setHealth id healthy => .ok (mgr.setHealth id healthy)
  | .publish => mgr.publish H

end SnapshotManager

end L4Lb
