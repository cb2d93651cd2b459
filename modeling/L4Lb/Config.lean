/-
# The configuration

`include/common/config.h` and the checks of `Config::validate`
(`src/common/config.cpp`) on the configuration that `Config::build` has read:
the limits on services and real servers, the keys of the services, the
defaults for the local addresses and the probe source, and the ports reserved
on local addresses. `validate` gives the configuration the program runs with,
or the text it logs when it refuses. The options that `validate` does not read are in
`Config/Load.lean`. The warning about a gateway outside the local subnet, which
refuses nothing, is left out.
-/
import L4Lb.Types

namespace L4Lb

/-- The SNAT ports of a local address. -/
def kNatPortMin : ℕ := 10000
def kNatPortMax : ℕ := 60000

/-- The source ports of the health probes. -/
def kHcPortMin : ℕ := 61000
def kHcPortMax : ℕ := 61999

def kMaxServices : ℕ := 64
def kMaxRsPerService : ℕ := 256
def kMaxLocalIps : ℕ := 64

inductive SchedulerType
  | wrr
  | maglev
  deriving DecidableEq, Repr

/-- `RsConf`: a real server as configured. -/
structure RsConf where
  ip : IPv4Addr
  /-- host byte order -/
  port : UInt16
  weight : ℕ := 1
  mac : MacAddr := MacAddr.zero
  deriving DecidableEq

/-- `ServiceConf`: `VIP:port/proto` and its real servers. -/
structure ServiceConf where
  name : String
  vip : IPv4Addr
  /-- host byte order -/
  port : UInt16
  proto : UInt8 := 6
  sched : SchedulerType := .wrr
  rs : List RsConf

/-- The key of a service. -/
def ServiceConf.key (s : ServiceConf) : IPv4Addr × UInt16 × UInt8 := (s.vip, s.port, s.proto)

/-- `TimeoutConf`: the timeouts of the states, in seconds. -/
structure TimeoutConf where
  tcpSyn : ℕ := 10
  tcpEstablished : ℕ := 900
  tcpFin : ℕ := 10
  tcpTimewait : ℕ := 10
  tcpClose : ℕ := 5
  udp : ℕ := 60

structure HealthConf where
  enabled : Bool := false
  intervalMs : ℕ := 5000
  timeoutMs : ℕ := 3000
  fall : ℕ := 3
  rise : ℕ := 2

/-- `LbConfig`. -/
structure LbConfig where
  mode : ForwardMode := .nat
  maxSessions : ℕ := 1048576
  timeouts : TimeoutConf := {}
  toa : Bool := false
  stripTcpTimestamp : Bool := true
  netmask : IPv4Addr := 0
  gateway : IPv4Addr := 0
  localIps : List IPv4Addr := []
  hcSrc : IPv4Addr := 0
  health : HealthConf := {}
  services : List ServiceConf

namespace Config

def protoName (proto : UInt8) : String := if proto = 17 then "udp" else "tcp"

def inPortRange (p lo hi : ℕ) : Bool := lo ≤ p && p ≤ hi

/-- The loop of `validate` over the services; `keys` are the keys it has
inserted so far. -/
def checkServices : List ServiceConf → List (IPv4Addr × UInt16 × UInt8) → Except String Unit
  | [], _ => .ok ()
  | svc :: rest, keys =>
    if svc.rs = [] then .error s!"config: service {svc.name} has no real server"
    else if svc.rs.length > kMaxRsPerService then
      .error s!"config: service {svc.name} has too many real servers"
    else if (svc.vip, svc.port, svc.proto) ∈ keys then
      .error s!"config: duplicate service {ipToString svc.vip}:{svc.port}/{protoName svc.proto}"
    else checkServices rest ((svc.vip, svc.port, svc.proto) :: keys)

/-- The loop over the services that keeps their ports off the ranges reserved
on `locals`. -/
def checkReserved (locals : List IPv4Addr) : List ServiceConf → Except String Unit
  | [] => .ok ()
  | svc :: rest =>
    if svc.vip ∈ locals ∧ inPortRange svc.port.toNat kNatPortMin kHcPortMax then
      .error (s!"config: service port {svc.port} on {ipToString svc.vip} overlaps the reserved " ++
        s!"SNAT/health-check port range {kNatPortMin}-{kHcPortMax} (VIP is also a local IP)")
    else checkReserved locals rest

/-- FULLNAT without a local address uses the first VIP. -/
def defaultLocalIps (c : LbConfig) : List IPv4Addr :=
  if c.mode = .nat ∧ c.localIps = [] then (c.services.map (·.vip)).take 1 else c.localIps

/-- Without `hc_src` the first local address is used. -/
def defaultHcSrc (c : LbConfig) : IPv4Addr :=
  if c.hcSrc = 0 then c.localIps.headD 0 else c.hcSrc

/-- `Config::validate`. -/
def validate (c : LbConfig) : Except String LbConfig := do
  if c.services = [] then throw "config: no service defined"
  if c.services.length > kMaxServices then
    throw s!"config: too many services ({c.services.length} > {kMaxServices})"
  checkServices c.services []
  let c := { c with localIps := defaultLocalIps c }
  if c.localIps.length > kMaxLocalIps then
    throw s!"config: too many local_ips ({c.localIps.length} > {kMaxLocalIps})"
  let c := { c with hcSrc := defaultHcSrc c }
  if c.health.enabled ∧ c.hcSrc = 0 then
    throw ("config: healthcheck needs [network] hc_src in DR mode " ++
      "(an address on the LB that is not a VIP)")
  if c.mode = .dr ∧ c.hcSrc ∈ c.services.map (·.vip) then
    throw "config: hc_src must not be a VIP in DR mode (RS has VIP on lo)"
  checkReserved (if c.hcSrc ≠ 0 then c.hcSrc :: c.localIps else c.localIps) c.services
  return c

/-! ### What an accepted configuration satisfies -/

theorem checkServices_ok : ∀ {l : List ServiceConf} {keys : List (IPv4Addr × UInt16 × UInt8)},
    checkServices l keys = .ok () →
    (∀ s ∈ l, s.rs ≠ [] ∧ s.rs.length ≤ kMaxRsPerService) ∧ (l.map (·.key)).Nodup ∧
      ∀ s ∈ l, s.key ∉ keys
  | [], _, _ => by simp
  | svc :: rest, keys, h => by
    unfold checkServices at h
    split at h
    · simp at h
    rename_i hne
    split at h
    · simp at h
    rename_i hle
    split at h
    · simp at h
    rename_i hkey
    obtain ⟨h1, h2, h3⟩ := checkServices_ok h
    refine ⟨?_, ?_, ?_⟩
    · rintro s (_ | ⟨_, hs⟩)
      · exact ⟨hne, by omega⟩
      · exact h1 s hs
    · rw [List.map_cons, List.nodup_cons]
      refine ⟨fun hm => ?_, h2⟩
      obtain ⟨s, hs, he⟩ := List.mem_map.mp hm
      exact h3 s hs (he ▸ List.mem_cons_self)
    · rintro s (_ | ⟨_, hs⟩)
      · exact hkey
      · exact fun hk => h3 s hs (List.mem_cons_of_mem _ hk)

theorem checkReserved_ok {locals : List IPv4Addr} : ∀ {l : List ServiceConf},
    checkReserved locals l = .ok () →
    ∀ s ∈ l, s.vip ∈ locals → inPortRange s.port.toNat kNatPortMin kHcPortMax = false
  | svc :: rest, h, s, hs, hv => by
    unfold checkReserved at h
    split at h
    · simp at h
    rename_i hn
    rcases List.mem_cons.mp hs with rfl | hs
    · simpa [hv] using hn
    · exact checkReserved_ok h s hs hv

/-- What `validate` accepts. -/
structure Valid (c : LbConfig) : Prop where
  services_ne : c.services ≠ []
  services_le : c.services.length ≤ kMaxServices
  rs : ∀ s ∈ c.services, s.rs ≠ [] ∧ s.rs.length ≤ kMaxRsPerService
  keys : (c.services.map (·.key)).Nodup
  localIps_ne : c.mode = .nat → c.localIps ≠ []
  localIps_le : c.localIps.length ≤ kMaxLocalIps
  hcSrc_dr : c.mode = .dr → c.hcSrc ∉ c.services.map (·.vip)
  reserved : ∀ s ∈ c.services, s.vip ∈ c.localIps ∨ (c.hcSrc ≠ 0 ∧ s.vip = c.hcSrc) →
    inPortRange s.port.toNat kNatPortMin kHcPortMax = false

theorem validate_ok {c c' : LbConfig} (h : validate c = .ok c') :
    Valid c' ∧ c'.maxSessions = c.maxSessions := by
  unfold validate at h
  simp only [bind, Except.bind, throw, throwThe, MonadExceptOf.throw, pure, Except.pure] at h
  split at h
  · simp at h
  rename_i hne
  split at h
  · simp at h
  rename_i hle
  split at h
  · simp at h
  rename_i hserv
  split at h
  · simp at h
  rename_i hlips
  split at h
  · simp at h
  split at h
  · simp at h
  rename_i hdr
  split at h
  · simp at h
  rename_i hres
  obtain rfl := Except.ok.inj h
  obtain ⟨hrs, hkeys, -⟩ := checkServices_ok hserv
  refine ⟨⟨hne, not_lt.mp hle, hrs, hkeys, fun hm => ?_, not_lt.mp hlips,
    fun hm hd => hdr ⟨hm, hd⟩, ?_⟩, rfl⟩
  · show defaultLocalIps c ≠ []
    unfold defaultLocalIps
    split
    · simpa using hne
    · rename_i hn
      exact fun he => hn ⟨hm, he⟩
  · intro s hs hv
    refine checkReserved_ok hres s hs ?_
    split
    · rcases hv with hv | ⟨-, hv⟩
      · exact List.mem_cons_of_mem _ hv
      · exact List.mem_cons.mpr (Or.inl hv)
    · rename_i h0
      rcases hv with hv | ⟨hv, -⟩
      · exact hv
      · exact absurd hv h0

/-- `Config::load` gives `cfg`: `build` has kept `max_sessions` in its range. -/
def Accepted (cfg : LbConfig) : Prop :=
  ∃ c : LbConfig, 1024 ≤ c.maxSessions ∧ c.maxSessions ≤ 2 ^ 26 ∧ validate c = .ok cfg

theorem Accepted.valid {cfg : LbConfig} (h : Accepted cfg) : Valid cfg := by
  obtain ⟨c, -, -, hc⟩ := h
  exact (validate_ok hc).1

theorem Accepted.maxSessions_le {cfg : LbConfig} (h : Accepted cfg) : cfg.maxSessions ≤ 2 ^ 26 := by
  obtain ⟨c, -, hle, hc⟩ := h
  rw [(validate_ok hc).2]
  exact hle

end Config

/-- A DNS service on 10.0.0.2 with the real servers 10.0.1.1 and 10.0.1.2. -/
def demoConfig : LbConfig where
  maxSessions := 1024
  localIps := [0x0A01000A]
  hcSrc := 0x0A01000A
  services := [{
    name := "dns", vip := 0x0200000A, port := 53, proto := 17,
    rs := [{ ip := 0x0101000A, port := 53, mac := #v[2, 0, 0, 0, 1, 1] },
      { ip := 0x0201000A, port := 53, mac := #v[2, 0, 0, 0, 1, 2] }] }]

/-- The MAC of its first real server. -/
def plainMac : MacAddr := #v[2, 0, 0, 0, 1, 1]

theorem demoConfig_accepted : Config.Accepted demoConfig := ⟨demoConfig, by decide, by decide, rfl⟩

end L4Lb
