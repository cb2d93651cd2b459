/-
# The common types

`include/common/types.h` and `src/common/types.cpp`: addresses, ports, the
five-tuple that is the key of the session table, and the conversions between
network and host byte order. Addresses and ports are kept as the program
keeps them, in network byte order as a little-endian host loads them: the
first byte on the wire is the low byte of the value.
-/
import Mathlib.Data.UInt
import Mathlib.Data.Nat.Init

namespace L4Lb

abbrev IPv4Addr := UInt32

/-- A port in network byte order. -/
abbrev Port := UInt16

abbrev MacAddr := Vector UInt8 6

/-- `MacAddr{}`. -/
def MacAddr.zero : MacAddr := Vector.replicate 6 0

def macIsZero (mac : MacAddr) : Bool := mac.toList.all (· == 0)

inductive ForwardMode
  | nat
  | dr
  deriving DecidableEq, Repr

/-! ### Byte order -/

/-- `rte_be_to_cpu_16`, `rte_cpu_to_be_16`, `ntohs`, `htons` on a little-endian
host: all swap the two bytes. -/
def bswap16 (p : UInt16) : UInt16 := UInt16.ofNat (p.toNat % 256 * 256 + p.toNat / 256)

/-- `rte_be_to_cpu_32`, `ntohl`. -/
def bswap32 (v : UInt32) : UInt32 :=
  let n := v.toNat
  UInt32.ofNat (n % 256 * 16777216 + n / 256 % 256 * 65536 + n / 65536 % 256 * 256 + n / 16777216)

theorem bswap16_toNat (p : UInt16) :
    (bswap16 p).toNat = p.toNat % 256 * 256 + p.toNat / 256 := by
  have := p.toNat_lt
  rw [bswap16, UInt16.toNat_ofNat']
  omega

@[simp] theorem bswap16_bswap16 (p : UInt16) : bswap16 (bswap16 p) = p := by
  have := p.toNat_lt
  apply UInt16.toNat_inj.mp
  rw [bswap16_toNat, bswap16_toNat]
  omega

/-- `ip_to_string`: dotted decimal, first byte on the wire first. -/
def ipToString (ip : IPv4Addr) : String :=
  let n := ip.toNat
  s!"{n % 256}.{n / 256 % 256}.{n / 65536 % 256}.{n / 16777216}"

/-! ### The five-tuple -/

/-- `FiveTuple`, the packed key of the session hash. -/
structure FiveTuple where
  srcIp : IPv4Addr
  dstIp : IPv4Addr
  srcPort : Port
  dstPort : Port
  protocol : UInt8
  deriving DecidableEq, Repr, Inhabited

namespace FiveTuple

/-- The default constructor: all bytes 0. -/
def zero : FiveTuple := ⟨0, 0, 0, 0, 0⟩

/-- The three words the hash functions read. -/
def words (t : FiveTuple) : UInt32 × UInt32 × UInt32 :=
  (t.srcIp, t.dstIp,
    (t.srcPort.toUInt32 <<< 16) ^^^ t.dstPort.toUInt32 ^^^ (t.protocol.toUInt32 <<< 8))

def reverse (t : FiveTuple) : FiveTuple := ⟨t.dstIp, t.srcIp, t.dstPort, t.srcPort, t.protocol⟩

end FiveTuple

end L4Lb
