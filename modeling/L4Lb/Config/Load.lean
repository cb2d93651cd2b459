/-
# Loading a configuration

`Config::load` of `src/common/config.cpp`: the file is read into sections, `build`
takes the values from them, and `validate` checks the whole. The services are those
of the sections `[service.*]` or, if there is none, of the old format, `[vip]` and
`[realserver]`. A load that fails gives the lines it logs.

`FileConfig` adds to `LbConfig` the options that are not used by what is modelled
elsewhere: the log, the statistics, the kind of dataplane and the control socket.
-/
import L4Lb.Config.Parse

namespace L4Lb
namespace Config

inductive DataplaneMode
  | rtc
  | pipeline
  deriving DecidableEq

/-- `LbConfig`, with all its options. -/
structure FileConfig extends LbConfig where
  services := []
  logLevel : List Char := "info".toList
  logDir : List Char := []
  logMaxSizeMb : ℕ := 100
  logMaxFiles : ℕ := 5
  logStderr : Bool := true
  statsInterval : ℕ := 10
  forceSwSteering : Bool := false
  dataplane : DataplaneMode := .rtc
  vipMac : MacAddr := MacAddr.zero
  controlSocket : List Char := "/run/l4lb.sock".toList

/-! ### Values -/

/-- The section of a name; `get` takes one that is not there as empty. -/
def sectionOf (s : Sections) (name : String) : Section := s.getD name.toList ∅

/-- `get_u32`. -/
def readU32 (s : Sections) (name key : String) (out minVal maxVal : ℕ) : Except String ℕ :=
  getU32 name.toList (sectionOf s name) key out minVal maxVal

/-- `get_bool`. -/
def getBool (s : Sections) (name key : String) (out : Bool) : Except String Bool :=
  let v := toLower (get (sectionOf s name) key "")
  if v = [] then .ok out
  else if v ∈ ["true".toList, "yes".toList, "1".toList, "on".toList] then .ok true
  else if v ∈ ["false".toList, "no".toList, "0".toList, "off".toList] then .ok false
  else .error s!"config [{name}] {key} = '{text v}': expected true/false"

/-- `get_ip`. -/
def getIp (s : Sections) (name key : String) (out : IPv4Addr) : Except String IPv4Addr :=
  let v := get (sectionOf s name) key ""
  if v = [] then .ok out
  else orError (parseIpv4 v) s!"config [{name}] {key} = '{text v}': invalid IPv4 address"

/-! ### `[global]` -/

def parseMode (s : Sections) : Except String ForwardMode :=
  let mode := toLower (get (sectionOf s "global") "mode" "nat")
  if mode = "nat".toList ∨ mode = "fullnat".toList then .ok .nat
  else if mode = "dr".toList then .ok .dr
  else .error s!"config [global] mode = '{text mode}': expected nat or dr"

/-- `force_sw_steering`. -/
def parseSteering (s : Sections) : Except String Bool :=
  let steering := toLower (get (sectionOf s "global") "steering" "auto")
  if steering ≠ "auto".toList ∧ steering ≠ "sw".toList then
    .error s!"config [global] steering = '{text steering}': expected auto or sw"
  else .ok (steering = "sw".toList)

def parseDataplane (s : Sections) : Except String DataplaneMode :=
  let dp := toLower (get (sectionOf s "global") "dataplane" "rtc")
  if dp = "rtc".toList then .ok .rtc
  else if dp = "pipeline".toList then .ok .pipeline
  else .error s!"config [global] dataplane = '{text dp}': expected rtc or pipeline"

/-- A timeout of `[global]`, in seconds. -/
def readTimeout (s : Sections) (key : String) (out : ℕ) : Except String ℕ := readU32 s "global" key out 1 86400

/-- `session_timeout` is the old name for two of the timeouts. -/
def withLegacyTimeout (t : TimeoutConf) (legacyTimeout : ℕ) : TimeoutConf :=
  if legacyTimeout ≠ 0 then { t with tcpEstablished := legacyTimeout, udp := legacyTimeout } else t

/-- The timeouts. No phase of a connection may last longer than an established one. -/
def parseTimeouts (s : Sections) (t : TimeoutConf) : Except String TimeoutConf := do
  let legacyTimeout ← readTimeout s "session_timeout" 0
  let t := withLegacyTimeout t legacyTimeout
  let tcpSyn ← readTimeout s "tcp_syn_timeout" t.tcpSyn
  let tcpEstablished ← readTimeout s "tcp_established_timeout" t.tcpEstablished
  let tcpFin ← readTimeout s "tcp_fin_timeout" t.tcpFin
  let tcpTimewait ← readTimeout s "tcp_timewait_timeout" t.tcpTimewait
  let tcpClose ← readTimeout s "tcp_close_timeout" t.tcpClose
  let udp ← readTimeout s "udp_timeout" t.udp
  return {
    tcpSyn := min tcpSyn tcpEstablished, tcpEstablished := tcpEstablished, tcpFin := min tcpFin tcpEstablished
    tcpTimewait := min tcpTimewait tcpEstablished, tcpClose := min tcpClose tcpEstablished, udp := udp }

def buildGlobal (s : Sections) (c : FileConfig) : Except String FileConfig := do
  let mode ← parseMode s
  let forceSwSteering ← parseSteering s
  let dataplane ← parseDataplane s
  let maxSessions ← readU32 s "global" "max_sessions" c.maxSessions 1024 (2 ^ 26)
  let toa ← getBool s "global" "toa" c.toa
  let stripTcpTimestamp ← getBool s "global" "strip_tcp_timestamp" c.stripTcpTimestamp
  let logMaxSizeMb ← readU32 s "global" "log_max_size_mb" c.logMaxSizeMb 1 10240
  let logMaxFiles ← readU32 s "global" "log_max_files" c.logMaxFiles 1 100
  let logStderr ← getBool s "global" "log_stderr" c.logStderr
  let statsInterval ← readU32 s "global" "stats_interval" c.statsInterval 1 3600
  let timeouts ← parseTimeouts s c.timeouts
  return { c with
    mode := mode, forceSwSteering := forceSwSteering, dataplane := dataplane, maxSessions := maxSessions, toa := toa
    stripTcpTimestamp := stripTcpTimestamp, logMaxSizeMb := logMaxSizeMb, logMaxFiles := logMaxFiles
    logStderr := logStderr, statsInterval := statsInterval, timeouts := timeouts
    logLevel := toLower ((sectionOf s "global").getD "log_level".toList c.logLevel)
    logDir := (sectionOf s "global").getD "log_dir".toList c.logDir }

/-! ### `[network]`, `[healthcheck]` -/

/-- `vip_mac`, with the old place of it. -/
def parseVipMac (s : Sections) (out : MacAddr) : Except String MacAddr :=
  let mac := (sectionOf s "network").getD "vip_mac".toList (get (sectionOf s "vip") "mac" "")
  if mac = [] then .ok out else orError (parseMac mac) s!"config vip_mac = '{text mac}': invalid MAC address"

/-- An address of `local_ips`. -/
def parseLocalIp (part : List Char) : Except String IPv4Addr :=
  orError (parseIpv4 part) s!"config [network] local_ips: invalid address '{text part}'"

def buildNetwork (s : Sections) (c : FileConfig) : Except String FileConfig := do
  let vipMac ← parseVipMac s c.vipMac
  let netmask ← getIp s "network" "netmask" c.netmask
  let gateway ← getIp s "network" "gateway" c.gateway
  let hcSrc ← getIp s "network" "hc_src" c.hcSrc
  let localIps ← (split (get (sectionOf s "network") "local_ips" "") ',').mapM parseLocalIp
  return { c with
    vipMac := vipMac, netmask := netmask, gateway := gateway, hcSrc := hcSrc, localIps := c.localIps ++ localIps }

/-- `[healthcheck]`: the interval is configured in seconds. -/
def buildHealth (s : Sections) (h : HealthConf) : Except String HealthConf := do
  let enabled ← getBool s "healthcheck" "enabled" h.enabled
  let interval ← readU32 s "healthcheck" "interval" h.intervalMs 1 3600
  let timeoutMs ← readU32 s "healthcheck" "timeout" h.timeoutMs 10 60000
  let fall ← readU32 s "healthcheck" "failure_threshold" h.fall 1 100
  let rise ← readU32 s "healthcheck" "success_threshold" h.rise 1 100
  let given := get (sectionOf s "healthcheck") "interval" "" ≠ []
  return {
    enabled := enabled, intervalMs := if given then interval * 1000 else interval, timeoutMs := timeoutMs
    fall := fall, rise := rise }

/-! ### The old format of the services -/

/-- The real server under a number; one without a value is left out. -/
def parseLegacyRs (s : Sections) (n : ℕ) : Except String (Option RsConf) :=
  let key := s!"server{n}"
  let value := get (sectionOf s "realserver") key ""
  if value = [] then .ok none
  else do
    let rs ← parseRs s!"[realserver] {key}" value
    return some rs

/-- A port of `[vip] ports`. -/
def legacyPort (part : List Char) : Except String ℕ :=
  let n := strtoul (cStr part)
  if n.2 ≠ [] ∨ n.1 = 0 ∨ n.1 > 65535 then .error s!"config [vip] ports: invalid port '{text part}'" else .ok n.1

/-- The service of a port of the old format. -/
def legacyService (vip : IPv4Addr) (rs : List RsConf) (part : List Char) (port : ℕ) (proto : UInt8) : ServiceConf where
  name := protoName proto ++ "-" ++ String.ofList part
  vip := vip
  port := UInt16.ofNat port
  proto := proto
  rs := rs

def legacyServices (vip : IPv4Addr) (rs : List RsConf) (part : List Char) : Except String (List ServiceConf) := do
  let port ← legacyPort part
  return [6, 17].map (legacyService vip rs part port)

/-- The parts of `[vip] ports`. -/
def legacyPorts (s : Sections) : List (List Char) := split (get (sectionOf s "vip") "ports" "80") ','

def parseLegacyServices (s : Sections) : Except String (List ServiceConf) := do
  let vip ← orError (parseIpv4 (get (sectionOf s "vip") "ip" ""))
    "config: no [service.*] section and [vip] ip is missing/invalid"
  let count ← readU32 s "realserver" "count" 0 0 kMaxRsPerService
  let rs ← (List.range' 1 count).mapM (parseLegacyRs s)
  let services ← (legacyPorts s).mapM (legacyServices vip (rs.filterMap fun r => r))
  return services.flatten

/-! ### All of it -/

/-- A function that logs one line when it fails. -/
def logged {α : Type} (x : Except String α) : Except (List String) α := x.mapError ([·])

/-- `build`. -/
def build (s : Sections) : Except (List String) FileConfig := do
  let c ← logged (buildGlobal s {})
  let c ← logged (buildNetwork s c)
  let health ← logged (buildHealth s c.health)
  let controlSocket := (sectionOf s "control").getD "socket".toList c.controlSocket
  let services ← if serviceSections s ≠ [] then parseServices s else logged (parseLegacyServices s)
  return { c with health := health, controlSocket := controlSocket, services := services }

/-- `load`, for the content of the file, if it can be opened. -/
def load (filename : String) (file : Option (List Char)) : Except (List String) FileConfig := do
  let content ← logged (orError file s!"Failed to open config file: {filename}")
  let sections ← parseFile filename (getlineParts '\n' content)
  let c ← build sections
  let lb ← logged (validate c.toLbConfig)
  return { c with toLbConfig := lb }

end Config
end L4Lb
