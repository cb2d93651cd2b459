/-
# Reading the configuration

`src/common/config.cpp`, from the lines of the file to the services:
`parse_file`, `parse_rs`, `parse_services` and what they use. The sections and
their keys are kept in maps, in the order of their bytes, which is the order in
which `parse_services` goes through them. A function that fails gives the lines it
logs. The other sections and the old format of the services are read in
`Config/Load.lean`.
-/
import L4Lb.Config
import L4Lb.Text
import Mathlib.Tactic.Linarith

namespace L4Lb
namespace Config

/-- A section: keys and values. -/
abbrev Section := Std.TreeMap (List Char) (List Char)

/-- `sections_`. -/
abbrev Sections := Std.TreeMap (List Char) Section

/-! ### Texts -/

def trim (s : List Char) : List Char := ((s.dropWhile isspace).reverse.dropWhile isspace).reverse

def toLower (s : List Char) : List Char := s.map Char.toLower

/-- `split`: no empty parts. -/
def split (s : List Char) (sep : Char) : List (List Char) := ((getlineParts sep s).map trim).filter (· ≠ [])

/-- A text as `%s` prints it. -/
def text (s : List Char) : String := String.ofList (cStr s)

/-! ### The file -/

/-- What `parse_file` keeps between two lines. -/
structure Reader where
  sections : Sections := ∅
  current : List Char := []

/-- A line of the file, with its number. -/
def readLine (filename : String) (r : Reader) (line : List Char) (lineNum : ℕ) : Except (List String) Reader :=
  let line := trim line
  match line with
  | [] | '#' :: _ | ';' :: _ => .ok r
  | '[' :: rest =>
    if ']' ∈ rest then
      let current := toLower (trim (rest.takeWhile (· ≠ ']')))
      .ok { current := current, sections := r.sections.insert current (r.sections.getD current ∅) }
    else .error [s!"{filename}:{lineNum}: invalid section: {text line}"]
  | _ =>
    if '=' ∉ line ∨ r.current = [] then
      .error [s!"{filename}:{lineNum}: expected 'key = value' inside a section: {text line}"]
    else
      let key := toLower (trim (line.takeWhile (· ≠ '=')))
      let value := ((line.dropWhile (· ≠ '=')).drop 1).takeWhile (· ≠ '#')
      let sec := (r.sections.getD r.current ∅).insert key (trim value)
      .ok { r with sections := r.sections.insert r.current sec }

/-- `parse_file`. -/
def parseFile (filename : String) (lines : List (List Char)) : Except (List String) Sections := do
  let r ← (lines.zipIdx 1).foldlM (fun r l => readLine filename r l.1 l.2) {}
  return r.sections

/-! ### Values -/

/-- `get`, from the section itself. -/
def get (sec : Section) (key defaultVal : String) : List Char :=
  sec.getD key.toList defaultVal.toList

/-- `get_u32`; a key that is not there leaves `out`. -/
def getU32 (name : List Char) (sec : Section) (key : String) (out minVal maxVal : ℕ) : Except String ℕ :=
  let v := get sec key ""
  if v = [] then .ok out
  else
    let n := strtoul (cStr v)
    if strtoulErange (cStr v) ∨ n.2 = cStr v ∨ n.2 ≠ [] ∨ n.1 < minVal ∨ n.1 > maxVal then
      .error s!"config [{text name}] {key} = '{text v}': expected integer in [{minVal}, {maxVal}]"
    else .ok n.1

/-- The value, or the error if there is none. -/
def orError {α : Type} (x : Option α) (e : String) : Except String α := x.elim (.error e) .ok

/-- The port, in `parse_rs`. -/
def rsPort (key : String) (part : List Char) : Except String ℕ :=
  let n := strtoul (cStr part)
  if n.2 ≠ [] ∨ n.1 = 0 ∨ n.1 > 65535 then .error s!"config {key}: invalid RS port '{text part}'" else .ok n.1

/-- The weight, in `parse_rs`. -/
def rsWeight (key : String) (part : List Char) : Except String ℕ :=
  let n := strtoul (cStr part)
  if n.2 ≠ [] ∨ n.1 > 65535 then .error s!"config {key}: invalid weight '{text part}'" else .ok n.1

/-- `parse_rs`: `ip:port[:weight[:mac]]`. -/
def parseRs (key : String) (value : List Char) : Except String RsConf :=
  let parts := split value ':'
  if parts.length ≠ 2 ∧ parts.length ≠ 3 ∧ parts.length ≠ 9 then
    .error s!"config {key} = '{text value}': expected ip:port[:weight[:mac]]"
  else do
    let address := parts.getD 0 []
    let ip ← orError (parseIpv4 address) s!"config {key}: invalid RS address '{text address}'"
    let port ← rsPort key (parts.getD 1 [])
    let weight ← if parts.length ≥ 3 then rsWeight key (parts.getD 2 []) else .ok 1
    -- the address of the NIC has six parts itself
    let macText := [':'].intercalate (parts.drop 3)
    let mac ← if parts.length = 9 then orError (parseMac macText) s!"config {key}: invalid MAC '{text macText}'"
      else .ok MacAddr.zero
    return { ip := ip, port := UInt16.ofNat port, weight := weight, mac := mac }

/-! ### The services -/

/-- The number of a key with the prefix `pre` and a digit behind it. -/
def numberAfter (pre key : List Char) : Option ℕ :=
  if pre <+: key ∧ ((key.drop pre.length).head?.any Char.isDigit) then
    some (strtoul (cStr (key.drop pre.length))).1
  else none

/-- The map `servers` of `parse_services`: the values by number. -/
def servers (sec : Section) : Std.TreeMap ℕ (List Char) :=
  sec.toList.foldl (fun servers kv =>
    ["server".toList, "rs".toList].foldl (fun servers pre =>
      match numberAfter pre kv.1 with
      | some n => servers.insert n kv.2
      | none => servers) servers) ∅

/-- The name under which `parse_services` reports a real server. -/
def serverName (name : List Char) (n : ℕ) : String := s!"[{text name}] server{n}"

def parseProto (name : List Char) (sec : Section) : Except (List String) UInt8 :=
  let proto := toLower (get sec "proto" "tcp")
  if proto = "tcp".toList then .ok 6
  else if proto = "udp".toList then .ok 17
  else .error [s!"config [{text name}] proto = '{text proto}': expected tcp or udp"]

def parseScheduler (name : List Char) (sec : Section) : Except (List String) SchedulerType :=
  let sched := toLower (get sec "scheduler" "wrr")
  if sched = "wrr".toList ∨ sched = "rr".toList then .ok .wrr
  else if sched = "maglev".toList ∨ sched = "consistent_hash".toList then .ok .maglev
  else .error [s!"config [{text name}] scheduler = '{text sched}': expected wrr or maglev"]

/-- The port of a service, with the line that `get_u32` logs before the one here. -/
def parsePort (name : List Char) (sec : Section) : Except (List String) ℕ :=
  let error := s!"config [{text name}] port: missing or invalid"
  match getU32 name sec "port" 0 1 65535 with
  | .error e => .error [e, error]
  | .ok port => if port = 0 then .error [error] else .ok port

/-- The body of the loop of `parse_services`. -/
def parseService (name : List Char) (sec : Section) : Except (List String) ServiceConf := do
  let vip ← (orError (parseIpv4 (get sec "vip" "")) s!"config [{text name}] vip: missing or invalid").mapError ([·])
  let port ← parsePort name sec
  let proto ← parseProto name sec
  let sched ← parseScheduler name sec
  let rs ← (servers sec).toList.mapM fun kv => (parseRs (serverName name kv.1) kv.2).mapError ([·])
  return {
    name := String.ofList (name.drop 8), vip := vip, port := UInt16.ofNat port, proto := proto, sched := sched
    rs := rs }

/-- The sections `[service.*]`. -/
def serviceSections (sections : Sections) : List (List Char × Section) :=
  sections.toList.filter fun sec => "service.".toList <+: sec.1

def parseServices (sections : Sections) : Except (List String) (List ServiceConf) :=
  (serviceSections sections).mapM fun sec => parseService sec.1 sec.2

end Config
end L4Lb
