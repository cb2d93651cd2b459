/-
# The neighbour table

`src/net/neigh.cpp`: the addresses on the link and their MACs. The workers read
an `rte_hash` whose values are packed MACs; the master keeps a record of each
address beside it (`meta_`), with the times at which it was last confirmed and
asked for.

The hash has no extension buckets, so it may refuse a new key before it holds
`kCapacity` of them: `room` says whether it has room for the key. The loops of
`age` go through an unordered map: `order` has its keys in the order of the
loop. `gen_` is 1 plus the number of changes, in 32 bits.
-/
import L4Lb.Context

namespace L4Lb

/-- `kValidBit`, of a value in the hash. -/
def kValidBit : ℕ := 2 ^ 63

/-- The first six bytes of the value, as `memcpy` writes them. -/
def macWord (mac : MacAddr) : ℕ :=
  mac[0].toNat + 2 ^ 8 * mac[1].toNat + 2 ^ 16 * mac[2].toNat + 2 ^ 24 * mac[3].toNat + 2 ^ 32 * mac[4].toNat +
    2 ^ 40 * mac[5].toNat

def pack (mac : MacAddr) : ℕ := macWord mac ||| kValidBit

def unpack (v : ℕ) : MacAddr := Vector.ofFn fun i => UInt8.ofNat (v / 2 ^ (8 * i.val))

/-- `NeighTable::Meta`. -/
structure NeighMeta where
  /-- when it was last confirmed, in seconds -/
  confirmed : ℕ := 0
  /-- when it was last asked for -/
  requested : ℕ := 0
  isStatic : Bool := false
  /-- it is in the hash -/
  valid : Bool := false

structure NeighTable where
  hash : RteHash IPv4Addr ℕ
  metas : IPv4Addr → Option NeighMeta
  /-- how often `gen_` was incremented -/
  changes : ℕ
  count : ℕ

namespace NeighTable

def kCapacity : ℕ := 65536
def kReachableSec : ℕ := 300
def kRefreshSec : ℕ := 240
def kRequestGapSec : ℕ := 1

/-- `NeighTable::init`. -/
def init : NeighTable := ⟨RteHash.create kCapacity, fun _ => none, 0, 0⟩

def generation (t : NeighTable) : ℕ := (1 + t.changes) % 2 ^ 32

def lookup (t : NeighTable) (ip : IPv4Addr) : Option MacAddr :=
  match t.hash.lookupData ip with
  | none => none
  | some v => if v &&& kValidBit = 0 then none else some (unpack v)

/-- What the workers read. -/
def view (t : NeighTable) : NeighView := ⟨t.generation, t.lookup⟩

/-- `meta_[ip]`. -/
def metaAt (t : NeighTable) (ip : IPv4Addr) : NeighMeta := (t.metas ip).getD {}

def setMeta (t : NeighTable) (ip : IPv4Addr) (m : NeighMeta) : NeighTable :=
  { t with metas := Function.update t.metas ip (some m) }

def isStatic (t : NeighTable) (ip : IPv4Addr) : Bool := (t.metaAt ip).isStatic

/-- The address is in the table, by its record. -/
def valid (t : NeighTable) (ip : IPv4Addr) : Bool := (t.metaAt ip).valid

/-- `rte_hash_add_key_data`. A key that is there is overwritten. -/
def addKeyData (t : NeighTable) (ip : IPv4Addr) (mac : MacAddr) (room : Bool) : Option (RteHash IPv4Addr ℕ) :=
  if (t.hash.lookupData ip).isSome || room then t.hash.addKeyData ip (pack mac) else none

def store (t : NeighTable) (ip : IPv4Addr) (mac : MacAddr) (room : Bool) : NeighTable :=
  match t.addKeyData ip mac room with
  | none => t
  | some hash =>
    { t.setMeta ip { t.metaAt ip with valid := true } with
      hash := hash
      count := if t.valid ip then t.count else t.count + 1
      changes := t.changes + 1 }

def erase (t : NeighTable) (ip : IPv4Addr) : NeighTable where
  hash := t.hash.delKey ip
  metas := Function.update t.metas ip none
  count := if t.valid ip then t.count - 1 else t.count
  changes := t.changes + 1

def addStatic (t : NeighTable) (ip : IPv4Addr) (mac : MacAddr) (room : Bool) : NeighTable :=
  let t := t.store ip mac room
  t.setMeta ip { t.metaAt ip with isStatic := true }

/-- The address was confirmed at `now`. -/
def confirm (t : NeighTable) (ip : IPv4Addr) (now : ℕ) : NeighTable :=
  t.setMeta ip { t.metaAt ip with confirmed := now }

def learn (t : NeighTable) (ip : IPv4Addr) (mac : MacAddr) (solicited : Bool) (now : ℕ) (room : Bool) : NeighTable :=
  if t.isStatic ip then t
  -- an address that nobody asked for is not learned when the table fills up
  else if !solicited ∧ !t.valid ip ∧ t.count ≥ kCapacity / 2 then t
  else
    (if t.valid ip ∧ t.lookup ip = some mac then t else t.store ip mac room).confirm ip now

def hint (t : NeighTable) (ip : IPv4Addr) (mac : MacAddr) (now : ℕ) (room : Bool) : NeighTable :=
  if t.valid ip then t
  else if t.count ≥ kCapacity / 2 then t
  else (t.store ip mac room).confirm ip now

/-- `now - since` of two `uint64_t`. -/
def sub64 (now since : ℕ) : ℕ := (now + 2 ^ 64 - since) % 2 ^ 64

/-- The table, and whether a request is to be sent. -/
def wantRequest (t : NeighTable) (ip : IPv4Addr) (now : ℕ) : NeighTable × Bool :=
  let m := t.metaAt ip
  if m.isStatic ∨ sub64 now m.requested < kRequestGapSec then (t.setMeta ip m, false)
  else (t.setMeta ip { m with requested := now }, true)

/-- An entry that was not confirmed for too long. -/
def dead (t : NeighTable) (now : ℕ) (ip : IPv4Addr) : Bool :=
  !t.isStatic ip && t.valid ip && decide (sub64 now (t.metaAt ip).confirmed ≥ kReachableSec)

/-- An entry that is about to be. -/
def aging (t : NeighTable) (now : ℕ) (ip : IPv4Addr) : Bool :=
  !t.isStatic ip && t.valid ip && decide (sub64 now (t.metaAt ip).confirmed ≥ kRefreshSec) &&
    decide (sub64 now (t.metaAt ip).requested ≥ kRequestGapSec * 5)

/-- The record of an address that was asked for and never learned. -/
def forget (now : ℕ) (t : NeighTable) (ip : IPv4Addr) : NeighTable :=
  match t.metas ip with
  | none => t
  | some m =>
    if !m.valid && !m.isStatic && decide (sub64 now m.requested > kReachableSec) then
      { t with metas := Function.update t.metas ip none }
    else t

/-- `age`: the table, and the addresses to ask for. -/
def age (t : NeighTable) (now : ℕ) (order : List IPv4Addr) : NeighTable × List IPv4Addr :=
  let dead := order.filter (t.dead now)
  let refresh := order.filter fun ip => !t.dead now ip && t.aging now ip
  let t := dead.foldl erase t
  let t := refresh.foldl (fun t ip => t.setMeta ip { t.metaAt ip with requested := now }) t
  (order.foldl (forget now) t, refresh)

end NeighTable

/-- The calls of the master. -/
inductive NeighOp
  | learn (ip : IPv4Addr) (mac : MacAddr) (solicited : Bool) (now : ℕ) (room : Bool)
  | hint (ip : IPv4Addr) (mac : MacAddr) (now : ℕ) (room : Bool)
  | wantRequest (ip : IPv4Addr) (now : ℕ)
  | age (now : ℕ) (order : List IPv4Addr)

def NeighOp.now : NeighOp → ℕ
  | learn _ _ _ now _ | hint _ _ now _ | wantRequest _ now | age now _ => now

/-- A real server with a MAC in the configuration. -/
structure StaticNeigh where
  ip : IPv4Addr
  mac : MacAddr
  room : Bool := true

namespace NeighTable

def apply (t : NeighTable) : NeighOp → NeighTable
  | .learn ip mac solicited now room => t.learn ip mac solicited now room
  | .hint ip mac now room => t.hint ip mac now room
  | .wantRequest ip now => (t.wantRequest ip now).1
  | .age now order => (t.age now order).1

/-- The loops go through the records there are. -/
def Orders (t : NeighTable) (order : List IPv4Addr) : Prop :=
  order.Nodup ∧ ∀ ip, ip ∈ order ↔ (t.metas ip).isSome = true

/-- The time does not go back. -/
def Valid (t : NeighTable) (now : ℕ) : NeighOp → Prop
  | .age now' order => now ≤ now' ∧ t.Orders order
  | op => now ≤ op.now

/-- The table when the threads start. -/
def startUp (statics : List StaticNeigh) : NeighTable := statics.foldl (fun t s => t.addStatic s.ip s.mac s.room) init

/-- The tables after any calls, with the time of the last one. -/
inductive Reach (statics : List StaticNeigh) : NeighTable → ℕ → Prop
  | start : Reach statics (startUp statics) 0
  | call {t : NeighTable} {now : ℕ} (op : NeighOp) (h : Reach statics t now) (hv : t.Valid now op) :
      Reach statics (t.apply op) op.now

end NeighTable

end L4Lb
