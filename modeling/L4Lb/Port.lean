/-
# The port

`src/dataplane/port.cpp`: the queues of the NIC, its RSS indirection table, and
the steering that fits them. What the driver answers is an input: the
capabilities it reports (`DevInfo`), whether it takes and shows the indirection
table, and the key it has of its own (`Nic`). An update that fails leaves the table
as it is. The offloads, the rings, the MAC address and the waiting for the link are
left out, and a call on the device that fails ends the program.

What the NIC then does with a packet is the model's own statement
(`PortInfo.queueOf`): the entry of its table for the Toeplitz hash under its key.
-/
import L4Lb.Steering
import Mathlib.Data.Nat.Log

namespace L4Lb

/-- What is read of `rte_eth_dev_info`. -/
structure DevInfo where
  maxRxQueues : ℕ
  maxTxQueues : ℕ
  /-- `flow_type_rss_offloads` -/
  rssIpv4 : Bool
  rssTcp : Bool
  rssUdp : Bool
  hashKeySize : ℕ

/-- The NIC and its driver. -/
structure Nic where
  /-- `rte_eth_dev_rss_reta_update` succeeds -/
  updates : Bool
  /-- `rte_eth_dev_rss_reta_query` succeeds -/
  queries : Bool
  /-- the table the driver has made itself -/
  initial : ℕ → ℕ
  /-- the RSS key of a driver that takes none -/
  builtinKey : List UInt8

/-- The table behind `setup_reta`: the queue of each entry. -/
def Nic.table (nic : Nic) (nq : ℕ) : ℕ → ℕ := if nic.updates then fun i => i % nq else nic.initial

/-- `setup_reta`: the table as it is read back, or assumed. -/
def setupReta (nic : Nic) (retaSize nq : ℕ) : Option (List ℕ) :=
  if retaSize = 0 ∨ retaSize > Steering.kMaxReta then none
  else some ((List.range retaSize).map fun i => if nic.queries then nic.table nq i else i % nq)

theorem setupReta_length {nic : Nic} {retaSize nq : ℕ} {reta : List ℕ} (h : setupReta nic retaSize nq = some reta) :
    reta.length = retaSize ∧ 0 < retaSize ∧ retaSize ≤ Steering.kMaxReta := by
  unfold setupReta at h
  split at h
  · simp at h
  rename_i hs
  obtain rfl := Option.some.inj h
  rw [List.length_map, List.length_range]
  omega

/-! ### The steering -/

namespace Steering

def kRssKeyLen : ℕ := 40

def kDefaultRssKey : List UInt8 :=
  [0x6D, 0x5A, 0x56, 0xDA, 0x25, 0x5B, 0x0E, 0xC2, 0x41, 0x67,
    0x25, 0x3D, 0x43, 0xA3, 0x8F, 0xB0, 0xD0, 0xCA, 0x2B, 0xCB,
    0xAE, 0x7B, 0x30, 0xB4, 0x77, 0xCB, 0x2D, 0xA3, 0x80, 0x30,
    0xF2, 0x0C, 0x6A, 0x42, 0xB7, 0x3B, 0xBE, 0xAC, 0x01, 0xFA]

end Steering

/-- The port as `port_init` finds it, for at least one worker and not more than
`reta_owner_` has entries. -/
structure PortInfo where
  info : DevInfo
  nic : Nic
  /-- `reta_size` behind `rte_eth_dev_configure`; 0 if it cannot be had -/
  retaSize : ℕ
  numWorkers : ℕ
  forceSw : Bool
  workers_pos : 0 < numWorkers
  workers_le : numWorkers ≤ Steering.kMaxReta

namespace PortInfo

variable (port : PortInfo)

/-- `custom_key`: the driver takes the key of the program. -/
def customKey : Bool := port.info.hashKeySize == Steering.kRssKeyLen

/-- `use_rss`. -/
def useRss : Bool :=
  decide (port.numWorkers > 1) && !port.forceSw && port.info.rssIpv4 && (port.customKey || port.info.hashKeySize == 0)

/-- The table that `init_hw` gets. -/
def retaRead : List ℕ := (setupReta port.nic port.retaSize port.numWorkers).getD (List.range port.numWorkers)

theorem retaRead_length : port.retaRead.length ≤ Steering.kMaxReta := by
  unfold retaRead
  cases h : setupReta port.nic port.retaSize port.numWorkers with
  | none =>
    rw [Option.getD_none, List.length_range]
    exact port.workers_le
  | some reta =>
    obtain ⟨hlen, -, hle⟩ := setupReta_length h
    rw [Option.getD_some, hlen]
    exact hle

/-- The steering that `port_init` sets up. -/
def steering : Steering :=
  if port.useRss then
    .initHw port.numWorkers Steering.kDefaultRssKey port.retaRead port.info.rssTcp port.info.rssUdp port.workers_pos
      port.retaRead_length
  else .initSw port.numWorkers

/-! ### The NIC -/

/-- The table of the NIC, once the port is set up. -/
def table : ℕ → ℕ := port.nic.table port.numWorkers

/-- The key the NIC hashes with. -/
def nicKey : List UInt8 := if port.customKey then Steering.kDefaultRssKey else port.nic.builtinKey

/-- What the NIC hashes of a TCP or UDP packet: the ports are part of it if RSS
has them for the protocol. -/
def nicHash (H : HashFns) (t : FiveTuple) : UInt32 :=
  { port.steering with keyBe := convertRssKey port.nicKey }.rssHash H t
    (if t.protocol = 6 then port.info.rssTcp else port.info.rssUdp)

/-- The queue the NIC puts a TCP or UDP packet into. -/
def queueOf (H : HashFns) (t : FiveTuple) : ℕ := port.table ((port.nicHash H t).toNat % port.retaSize)

/-- RSS is on, and the program knows the table and the key of the NIC: the table
is read back or is the one that was written, and the key is the one that was
given or the usual one. -/
structure Works : Prop where
  rss : port.useRss = true
  size_pos : 0 < port.retaSize
  size_le : port.retaSize ≤ Steering.kMaxReta
  knownTable : port.nic.updates = true ∨ port.nic.queries = true
  knownKey : port.customKey = true ∨ port.nic.builtinKey = Steering.kDefaultRssKey

end PortInfo

end L4Lb
