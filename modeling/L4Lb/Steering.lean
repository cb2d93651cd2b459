/-
# Steering

`include/dataplane/steering.h`, `src/dataplane/steering.cpp` and the
`Dispatcher` of `src/dataplane/receiver.cpp`: which worker owns a packet. A
`Steering` carries what its two initialisations establish, so every owner is
a worker (`fwdOwner_lt`, `retOwner_lt`). The hash functions are parameters.
-/
import L4Lb.Parser
import L4Lb.Config
import L4Lb.Dpdk.Hash

open Checked

namespace L4Lb

/-- `in_nat_range`. -/
def inNatRange (portBe : Port) : Bool := Config.inPortRange (bswap16 portBe).toNat kNatPortMin kNatPortMax

/-- `in_hc_range`. -/
def inHcRange (portBe : Port) : Bool := Config.inPortRange (bswap16 portBe).toNat kHcPortMin kHcPortMax

/-- `rte_convert_rss_key`: the bytes of each word are swapped. -/
def convertRssKey : List UInt8 → List UInt8
  | a :: b :: c :: d :: rest => d :: c :: b :: a :: convertRssKey rest
  | rest => rest

structure Steering where
  hw : Bool
  tcpL4 : Bool
  udpL4 : Bool
  /-- the number of workers -/
  n : ℕ
  retaSize : ℕ
  retaOwner : ℕ → ℕ
  keyBe : List UInt8
  n_pos : 0 < n
  owner_lt : ∀ i, retaOwner i < n

namespace Steering

def kMaxReta : ℕ := 512

/-- `init_sw`. -/
def initSw (numWorkers : ℕ) : Steering where
  hw := false
  tcpL4 := false
  udpL4 := false
  n := if numWorkers ≠ 0 then numWorkers else 1
  retaSize := 0
  retaOwner := fun _ => 0
  keyBe := []
  n_pos := by split <;> omega
  owner_lt := fun _ => by split <;> omega

/-- `init_hw`, of at least one worker and a table that `reta_owner_` holds. -/
def initHw (numWorkers : ℕ) (rssKey : List UInt8) (reta : List ℕ) (tcpL4 udpL4 : Bool)
    (hn : 0 < numWorkers) (_ : reta.length ≤ kMaxReta) : Steering where
  hw := true
  tcpL4 := tcpL4
  udpL4 := udpL4
  n := numWorkers
  retaSize := reta.length
  retaOwner := fun i => reta.getD i 0 % numWorkers
  keyBe := convertRssKey rssKey
  n_pos := hn
  owner_lt := fun _ => Nat.mod_lt _ hn

variable (H : HashFns) (st : Steering)

/-- `rss_hash`. -/
def rssHash (t : FiveTuple) (l4 : Bool) : UInt32 :=
  let ports := ((bswap16 t.srcPort).toUInt32 <<< 16) ||| (bswap16 t.dstPort).toUInt32
  let input := [bswap32 t.srcIp, bswap32 t.dstIp, ports]
  H.softrssBe (input.take (if l4 then 3 else 2)) st.keyBe

/-- `l4_hashed`. -/
def l4Hashed (proto : UInt8) : Bool := if proto = 6 then st.tcpL4 else st.udpL4

/-- `ret_by_rss`. -/
def retByRss (proto : UInt8) : Bool := st.hw && if proto = 6 then st.tcpL4 else st.udpL4

/-- `port_step`. -/
def portStep (proto : UInt8) : ℕ := if st.retByRss proto then 1 else st.n

/-- The owner of an RSS hash. -/
def hashOwner (h : UInt32) : ℕ :=
  if st.retaSize ≠ 0 then st.retaOwner (h.toNat % st.retaSize) else h.toNat % st.n

/-- `fwd_owner`. -/
def fwdOwner (t : FiveTuple) : ℕ :=
  if st.n = 1 then 0
  else if !st.hw then
    let (w0, w1, w2) := t.words
    (H.jhash3words w0 w1 w2 0x1234567).toNat % st.n
  else st.hashOwner (st.rssHash H t (st.l4Hashed t.protocol))

/-- `ret_owner`. -/
def retOwner (t : FiveTuple) : ℕ :=
  if st.n = 1 then 0
  else if !st.retByRss t.protocol then (bswap16 t.dstPort).toNat % st.n
  else st.hashOwner (st.rssHash H t true)

variable {H st}

theorem hashOwner_lt (h : UInt32) : st.hashOwner h < st.n := by
  unfold hashOwner
  split
  · exact st.owner_lt _
  · exact Nat.mod_lt _ st.n_pos

theorem fwdOwner_lt (t : FiveTuple) : st.fwdOwner H t < st.n := by
  unfold fwdOwner
  split
  · exact st.n_pos
  split
  · exact Nat.mod_lt _ st.n_pos
  · exact hashOwner_lt _

theorem retOwner_lt (t : FiveTuple) : st.retOwner H t < st.n := by
  unfold retOwner
  split
  · exact st.n_pos
  split
  · exact Nat.mod_lt _ st.n_pos
  · exact hashOwner_lt _

/-- Where the ports do not go into the RSS hash, the owner of a return packet
is given by its port. -/
theorem retOwner_of_port {t : FiveTuple} (h : st.retByRss t.protocol = false) :
    st.retOwner H t = (bswap16 t.dstPort).toNat % st.n := by
  unfold retOwner
  split
  · rename_i h1
    rw [h1, Nat.mod_one]
  · rw [h]
    rfl

end Steering

/-! ### The receiver -/

/-- `Dispatcher`. -/
structure Dispatcher where
  st : Steering
  fullnat : Bool
  lips : List IPv4Addr

namespace Dispatcher

/-- `init`; the addresses are sorted. -/
def init (st : Steering) (mode : ForwardMode) (localIps : List IPv4Addr) : Dispatcher where
  st := st
  fullnat := mode = .nat
  lips := localIps.mergeSort fun a b => a ≤ b

def isLip (d : Dispatcher) (ip : IPv4Addr) : Bool := d.lips.contains ip

variable (H : HashFns) (d : Dispatcher)

/-- `target`: the worker a received frame goes to. -/
def target (m : Mbuf) : Except Fault ℕ := do
  let n := d.st.n
  if n = 1 then return 0
  if m.dataLen < 14 + 20 then return 0
  if (← m.etherType) ≠ 0x0800 then return 0
  let ip := 14
  let ihl ← m.ipHeaderLen ip
  -- MF and the offset
  let frag := (bswap16 (← m.load16 (ip + 6))).toNat % 16384
  let protocol ← m.load8 (ip + 9)
  let srcIp ← m.load32 (ip + 12)
  let dstIp ← m.load32 (ip + 16)
  if !((protocol = 6 ∨ protocol = 17) ∧ frag = 0 ∧ ihl ≥ 20 ∧ m.dataLen ≥ 14 + ihl + 4) then
    return (H.jhash2words srcIp dstIp 0).toNat % n
  let l4 := 14 + ihl
  let sport ← m.load16 l4
  let dport ← m.load16 (l4 + 2)
  let t : FiveTuple := ⟨srcIp, dstIp, sport, dport, protocol⟩
  if d.fullnat && inNatRange dport && d.isLip dstIp then return d.st.retOwner H t
  return d.st.fwdOwner H t

/-- The receiver reads inside the frame and gives it to a worker. -/
theorem target_returns (m : Mbuf) : Returns (d.target H m) fun w => w < d.st.n := by
  have hn := d.st.n_pos
  unfold target
  simp only [pure_eq_ok]
  split
  · exact .ok hn
  split
  · exact .ok hn
  rename_i hlen
  rw [Mbuf.etherType_eq (by omega), ok_bind]
  split
  · exact .ok hn
  rw [Mbuf.ipHeaderLen_eq (by omega), ok_bind, Mbuf.load16_eq (by omega), ok_bind,
    Mbuf.load8_eq (by omega), ok_bind, Mbuf.load32_eq (by omega), ok_bind, Mbuf.load32_eq (by omega), ok_bind]
  split
  · exact .ok (Nat.mod_lt _ hn)
  rename_i hl4
  simp only [Bool.not_eq_true', decide_eq_false_iff_not, not_not] at hl4
  obtain ⟨-, -, -, hfit⟩ := hl4
  rw [Mbuf.load16_eq (by omega), ok_bind, Mbuf.load16_eq (by omega), ok_bind]
  split
  · exact .ok (Steering.retOwner_lt _)
  · exact .ok (Steering.fwdOwner_lt _)

end Dispatcher

end L4Lb
