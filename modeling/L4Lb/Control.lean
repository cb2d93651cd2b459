/-
# The command interface

`src/ctrl/control.cpp`. A command is a line of text. The state it works on is
the manager of the snapshots and `g_running`; the level of the log is left out.
The texts of `stats`, `counters`, `rate` and `services` are a parameter: these
commands only read.
-/
import L4Lb.Snapshot
import L4Lb.Text

open Checked

namespace L4Lb

/-! ### Words and numbers -/

/-- The words of a line, as `is >> t` reads them. -/
def tokens (line : List Char) : List (List Char) := (line.splitOnP isspace).filter (· ≠ [])

/-- `parse_u32`. -/
def parseU32 (s : List Char) : Option ℕ :=
  if s = [] then none
  else if (strtoul (cStr s)).2 ≠ [] ∨ (strtoul (cStr s)).1 > 0xFFFFFFFF then none
  else some (strtoul (cStr s)).1

theorem parseU32_eq_some_iff {s : List Char} {v : ℕ} : parseU32 s = some v ↔
    s ≠ [] ∧ (strtoul (cStr s)).2 = [] ∧ (strtoul (cStr s)).1 = v ∧ v ≤ 0xFFFFFFFF := by
  unfold parseU32
  by_cases hs : s = []
  · simp [hs]
  rw [if_neg hs]
  by_cases hend : (strtoul (cStr s)).2 = []
  swap
  · simp [hend]
  by_cases hv : (strtoul (cStr s)).1 > 0xFFFFFFFF
  · rw [if_pos (Or.inr hv)]
    simp only [reduceCtorEq, false_iff]
    rintro ⟨-, -, rfl, hle⟩
    omega
  · rw [if_neg (not_or.mpr ⟨not_not.mpr hend, hv⟩), Option.some.injEq]
    exact ⟨fun e => ⟨hs, hend, e, e ▸ not_lt.mp hv⟩, fun h => h.2.2.1⟩

/-- `parse_rs_spec`: `ip:port[:weight]`. -/
def parseRsSpec (spec : List Char) : Option RsConf :=
  match getlineParts ':' spec with
  | ip :: port :: weight =>
    match parseIpv4 ip, parseU32 port, weight.map parseU32 with
    | some ip, some port, [] =>
      if port = 0 ∨ port > 65535 then none else some { ip := ip, port := UInt16.ofNat port }
    | some ip, some port, [some weight] =>
      if port = 0 ∨ port > 65535 ∨ weight > 65535 then none
      else some { ip := ip, port := UInt16.ofNat port, weight := weight }
    | _, _, _ => none
  | _ => none

/-! ### The commands -/

def kHelp : String :=
  "commands:\n" ++
  "  stats [-v|-r]                  summary; -v per worker; -r per service/RS\n" ++
  "  counters                       all raw counters (key value), for delta\n" ++
  "  rate                           last periodic rates and busy %\n" ++
  "  services                       services and real servers\n" ++
  "  weight <rs_id> <weight>        0 = drain (no new connections)\n" ++
  "  enable <rs_id> | disable <rs_id>\n" ++
  "  add <service_idx> <ip:port[:weight]>\n" ++
  "  del <rs_id>\n" ++
  "  log <debug|info|warn|error>\n" ++
  "  quit                           stop l4lb\n"

/-- The texts that only report. -/
inductive Report
  | rsStats
  | stats (verbose : Bool)
  | counters
  | rate
  | services

/-- `HealthEvent`: a verdict of the health checker. -/
structure HealthEvent where
  rsId : ℕ
  healthy : Bool
  deriving DecidableEq

structure Control where
  mgr : SnapshotManager
  running : Bool := true

namespace Control

variable (H : HashFns) (reports : Control → Report → String)

/-- The end of `execute`, for the commands that change the desired state. -/
def commit (C : Control) : Except String SnapshotManager → Except Fault (String × Control)
  | .error err => return ("error: " ++ err ++ "\n", C)
  | .ok mgr => do return ("ok\n", { C with mgr := ← mgr.publish H })

def badCommand (C : Control) : Except Fault (String × Control) := return ("error: bad command\n" ++ kHelp, C)

/-- `add`, with its arguments. -/
def executeAdd (C : Control) (args : List (List Char)) : Except Fault (String × Control) :=
  match args with
  | [idx, spec] =>
    match parseU32 idx with
    | none => badCommand C
    | some id =>
      match parseRsSpec spec with
      | none => return ("error: expected ip:port[:weight]\n", C)
      | some rs =>
        -- static_cast<uint16_t>
        match C.mgr.addRs (id % 2 ^ 16) rs with
        | .error err => return ("error: " ++ err ++ "\n", C)
        | .ok (mgr, newId) => do return ("ok rs " ++ toString newId ++ "\n", { C with mgr := ← mgr.publish H })
  | _ => badCommand C

/-- `ControlServer::execute`: the reply and the state after it. -/
def execute (C : Control) (line : List Char) : Except Fault (String × Control) :=
  match tokens line with
  | [] => return (kHelp, C)
  | cmd :: args =>
    if cmd = "help".toList then return (kHelp, C)
    else if cmd = "stats".toList ∧ args.head? = some "-r".toList then return (reports C .rsStats, C)
    else if cmd = "stats".toList then return (reports C (.stats (args.head? = some "-v".toList)), C)
    else if cmd = "counters".toList then return (reports C .counters, C)
    else if cmd = "rate".toList then return (reports C .rate, C)
    else if cmd = "services".toList then return (reports C .services, C)
    else if cmd = "weight".toList then
      match args.map parseU32 with
      | [some id, some w] => commit H C (C.mgr.setWeight id w)
      | _ => badCommand C
    else if cmd = "enable".toList ∨ cmd = "disable".toList then
      match args.map parseU32 with
      | [some id] => commit H C (C.mgr.setEnabled id (cmd = "enable".toList))
      | _ => badCommand C
    else if cmd = "add".toList then executeAdd H C args
    else if cmd = "del".toList then
      match args.map parseU32 with
      | [some id] => commit H C (C.mgr.delRs id)
      | _ => badCommand C
    else if cmd = "log".toList ∧ args.length = 1 then return ("ok\n", C)
    else if cmd = "quit".toList then return ("ok, shutting down\n", { C with running := false })
    else badCommand C

theorem execute_weight (C : Control) {line : List Char} {args : List (List Char)}
    (ht : tokens line = "weight".toList :: args) :
    execute H reports C line = match args.map parseU32 with
      | [some id, some w] => commit H C (C.mgr.setWeight id w)
      | _ => badCommand C := by
  unfold execute
  rw [ht]
  rfl

/-- `drain_health`, with the events taken from the ring. -/
def drainHealth (C : Control) (evs : List HealthEvent) : Except Fault Control :=
  if evs = [] then return C
  else do
    return { C with mgr := ← (evs.foldl (fun mgr ev => mgr.setHealth ev.rsId ev.healthy) C.mgr).publish H }

/-- The states of the control thread. -/
inductive Reach (cfg : LbConfig) : Control → Prop
  | init {mgr : SnapshotManager} (h : SnapshotManager.init H cfg = .ok mgr) : Reach cfg { mgr := mgr }
  | execute {C C' : Control} (line : List Char) (reply : String) (h : Reach cfg C)
      (he : C.execute H reports line = .ok (reply, C')) : Reach cfg C'
  | drain {C C' : Control} (evs : List HealthEvent) (h : Reach cfg C) (he : C.drainHealth H evs = .ok C') :
      Reach cfg C'

end Control

end L4Lb
