/-
# The TCP state machine

`include/lb/tcp_state.h` and `src/lb/tcp_state.cpp`: the simplified
connection states, what a segment does to them, and the timeout of each.
-/
import L4Lb.Config

namespace L4Lb

def TCP_FIN : UInt8 := 0x01
def TCP_SYN : UInt8 := 0x02
def TCP_RST : UInt8 := 0x04
def TCP_ACK : UInt8 := 0x10

/-- `flags & mask`, as a condition. -/
def hasFlag (flags mask : UInt8) : Bool := flags &&& mask != 0

inductive TcpState
  | none
  | synRecv
  | established
  | finWait
  | timeWait
  | close
  | udp
  deriving DecidableEq, Repr

inductive Dir
  | clientToRs
  | rsToClient
  deriving DecidableEq, Repr

/-- `tcp_next_state`: the new state and the new `fin_seen`. -/
def tcpNextState (cur : TcpState) (flags : UInt8) (dir : Dir) (finSeen : UInt8) : TcpState × UInt8 :=
  if cur = .udp then (cur, finSeen)
  else if hasFlag flags TCP_RST then (.close, finSeen)
  else
    let self : UInt8 := if dir = .clientToRs then 1 else 2
    let finSeen := if hasFlag flags TCP_FIN then finSeen ||| self else finSeen
    match cur with
    | .none => (if hasFlag flags TCP_SYN then .synRecv else cur, finSeen)
    | .synRecv =>
      -- the client's third ACK of the handshake establishes
      if dir = .clientToRs ∧ hasFlag flags TCP_ACK ∧ !hasFlag flags TCP_SYN then
        (if finSeen ≠ 0 then .finWait else .established, finSeen)
      else (cur, finSeen)
    | .established => (if finSeen ≠ 0 then .finWait else cur, finSeen)
    | .finWait => (if finSeen = 3 then .timeWait else cur, finSeen)
    | _ => (cur, finSeen)

/-- `state_timeout`. -/
def stateTimeout (s : TcpState) (t : TimeoutConf) : ℕ :=
  match s with
  | .none | .synRecv => t.tcpSyn
  | .established => t.tcpEstablished
  | .finWait => t.tcpFin
  | .timeWait => t.tcpTimewait
  | .close => t.tcpClose
  | .udp => t.udp

/-- `tcp_state_reusable`: a new SYN replaces a session in this state. -/
def tcpStateReusable (s : TcpState) : Bool := s = .timeWait || s = .close

end L4Lb
