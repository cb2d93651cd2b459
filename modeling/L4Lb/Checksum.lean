/-
# Checksums

`include/protocol/checksum.h`, `src/protocol/checksum.cpp` and
`IcmpHandler::calculate_checksum`: the full computation over a piece of the
frame and the incremental updates (RFC 1624). The sums of the code are the word
sums of `Lib/OnesComplement`: `sumWords_eq` for the loops, `incrementalUpdate_cast`
for the updates.
-/
import L4Lb.Parser

open Checked OnesComplement

namespace L4Lb

/-- The loops over the 16-bit words of `len` bytes at `off`: a last odd byte
counts as a word. -/
def sumWords (m : Mbuf) : ℕ → ℕ → Except Fault ℕ
  | 0, _ => return 0
  | 1, off => do return (← m.load8 off).toNat
  | len + 2, off => do
    let w ← m.load16 off
    let rest ← sumWords m len (off + 2)
    return w.toNat + rest

/-- The end of every computation: the 32-bit sum is folded and complemented. -/
def finish (sum : ℕ) : UInt16 := UInt16.ofNat (compl (sum % 2 ^ 32))

namespace IpChecksum

def calculate (m : Mbuf) (data len : ℕ) : Except Fault UInt16 := do
  return finish (← sumWords m len data)

/-- `IpChecksum::update`, `L4Checksum::recalculate_ip_checksum` and the
`ip_checksum` of `nat_forwarder.cpp`. -/
def update (m : Mbuf) (ip : ℕ) : Except Fault Mbuf := do
  let m ← m.store16 (ip + 10) 0
  let len ← m.ipHeaderLen ip
  let sum ← calculate m ip len
  m.store16 (ip + 10) sum

end IpChecksum

/-- `IcmpHandler::calculate_checksum`: the same computation. -/
def icmpCalculateChecksum (m : Mbuf) (data len : ℕ) : Except Fault UInt16 := IpChecksum.calculate m data len

namespace L4Checksum

def incrementalUpdate (oldSum oldVal newVal : UInt16) : UInt16 :=
  UInt16.ofNat (incUpdate oldSum.toNat oldVal.toNat newVal.toNat)

/-- The two halves of an address, as `uint16_t` arguments. -/
def hi (ip : IPv4Addr) : UInt16 := UInt16.ofNat (ip.toNat / 65536)

def lo (ip : IPv4Addr) : UInt16 := UInt16.ofNat (ip.toNat % 65536)

def updateTcpChecksumIp (m : Mbuf) (tcp : ℕ) (oldIp newIp : IPv4Addr) : Except Fault Mbuf := do
  let m ← m.store16 (tcp + 16) (incrementalUpdate (← m.load16 (tcp + 16)) (hi oldIp) (hi newIp))
  m.store16 (tcp + 16) (incrementalUpdate (← m.load16 (tcp + 16)) (lo oldIp) (lo newIp))

def updateTcpChecksumPort (m : Mbuf) (tcp : ℕ) (oldPort newPort : Port) : Except Fault Mbuf := do
  m.store16 (tcp + 16) (incrementalUpdate (← m.load16 (tcp + 16)) oldPort newPort)

def updateUdpChecksumIp (m : Mbuf) (udp : ℕ) (oldIp newIp : IPv4Addr) : Except Fault Mbuf := do
  -- a UDP checksum is optional
  if (← m.load16 (udp + 6)) = 0 then return m
  let m ← m.store16 (udp + 6) (incrementalUpdate (← m.load16 (udp + 6)) (hi oldIp) (hi newIp))
  let m ← m.store16 (udp + 6) (incrementalUpdate (← m.load16 (udp + 6)) (lo oldIp) (lo newIp))
  if (← m.load16 (udp + 6)) = 0 then m.store16 (udp + 6) 0xFFFF else return m

def updateUdpChecksumPort (m : Mbuf) (udp : ℕ) (oldPort newPort : Port) : Except Fault Mbuf := do
  if (← m.load16 (udp + 6)) = 0 then return m
  let m ← m.store16 (udp + 6) (incrementalUpdate (← m.load16 (udp + 6)) oldPort newPort)
  if (← m.load16 (udp + 6)) = 0 then m.store16 (udp + 6) 0xFFFF else return m

def calculatePseudoHeaderSum (srcIp dstIp : IPv4Addr) (protocol : UInt8) (length : UInt16) : ℕ :=
  (srcIp.toNat / 65536 + srcIp.toNat % 65536) + (dstIp.toNat / 65536 + dstIp.toNat % 65536) +
    (bswap16 (UInt16.ofNat protocol.toNat)).toNat + (bswap16 length).toNat

def recalculateTcpChecksum (m : Mbuf) (ip tcp tcpLen : ℕ) : Except Fault Mbuf := do
  let m ← m.store16 (tcp + 16) 0
  let pseudo := calculatePseudoHeaderSum (← m.load32 (ip + 12)) (← m.load32 (ip + 16))
    (← m.load8 (ip + 9)) (UInt16.ofNat tcpLen)
  let sum ← sumWords m tcpLen tcp
  m.store16 (tcp + 16) (finish (pseudo + sum))

def recalculateUdpChecksum (m : Mbuf) (ip udp : ℕ) : Except Fault Mbuf := do
  let m ← m.store16 (udp + 6) 0
  let udpLen ← m.udpLength udp
  let pseudo := calculatePseudoHeaderSum (← m.load32 (ip + 12)) (← m.load32 (ip + 16))
    (← m.load8 (ip + 9)) (UInt16.ofNat udpLen)
  let sum ← sumWords m udpLen udp
  let m ← m.store16 (udp + 6) (finish (pseudo + sum))
  if (← m.load16 (udp + 6)) = 0 then m.store16 (udp + 6) 0xFFFF else return m

end L4Checksum

/-! ### The full computation -/

theorem sumWords_eq (m : Mbuf) : ∀ (len off : ℕ), off + len ≤ m.dataLen →
    sumWords m len off = .ok (wsum m.byte off len)
  | 0, _, _ => rfl
  | 1, off, h => by
    rw [sumWords, Mbuf.load8_eq (by omega), wsum_one]
    rfl
  | len + 2, off, h => by
    rw [sumWords, Mbuf.load16_eq (by omega), sumWords_eq m len (off + 2) (by omega), Nat.add_comm len 2,
      wsum_add _ _ _ _ rfl, wsum_two, ← Mbuf.get16_toNat]
    rfl

/-- A sum that has not left 32 bits. -/
theorem finish_toNat {s : ℕ} (h : s < 2 ^ 32) : (finish s).toNat = compl s := by
  have := compl_le s
  rw [finish, Nat.mod_eq_of_lt h, UInt16.toNat_ofNat', Nat.mod_eq_of_lt (by omega)]

theorem calculate_eq {m : Mbuf} {off len : ℕ} (h : off + len ≤ m.dataLen) :
    IpChecksum.calculate m off len = .ok (finish (wsum m.byte off len)) := by
  rw [IpChecksum.calculate, sumWords_eq m len off h]
  rfl

theorem Mbuf.ihlOf_set16 (m : Mbuf) {ip off : ℕ} (h : ip < off) (v : UInt16) :
    (m.set16 off v).ihlOf ip = m.ihlOf ip :=
  ihlOf_congr (by rw [set16, byte_put_of_lt _ _ (Or.inl h)])

/-- The checksum of an IPv4 header, computed over the header with 0 for it. -/
def ipSum (m : Mbuf) (ip : ℕ) : UInt16 := finish (wsum (m.set16 (ip + 10) 0).byte ip (m.ihlOf ip))

theorem ipChecksumUpdate_eq {m : Mbuf} {ip : ℕ} (h : ip + m.ihlOf ip ≤ m.dataLen) (h20 : 20 ≤ m.ihlOf ip) :
    IpChecksum.update m ip = .ok (m.set16 (ip + 10) (ipSum m ip)) := by
  unfold IpChecksum.update
  rw [Mbuf.store16_eq (by omega), ok_bind, Mbuf.ipHeaderLen_eq (by rw [Mbuf.dataLen_set16]; omega), ok_bind,
    Mbuf.ihlOf_set16 _ (by omega), calculate_eq (by rw [Mbuf.dataLen_set16]; omega), ok_bind,
    Mbuf.store16_eq (by rw [Mbuf.dataLen_set16]; omega), Mbuf.set16_set16]
  rfl

/-- The sum of the words of the pseudo header, of the IPv4 header at `ip`. -/
def pseudoSum (m : Mbuf) (ip len : ℕ) : ℕ :=
  L4Checksum.calculatePseudoHeaderSum (m.get32 (ip + 12)) (m.get32 (ip + 16)) (m.byte (ip + 9))
    (UInt16.ofNat len)

/-- The checksum `recalculate_tcp_checksum` puts in. -/
def tcpSum (m : Mbuf) (ip tcp len : ℕ) : UInt16 :=
  finish (pseudoSum m ip len + wsum (m.set16 (tcp + 16) 0).byte tcp len)

theorem pseudoSum_set16 {m : Mbuf} {ip off : ℕ} (h : ip + 20 ≤ off) (v : UInt16) (len : ℕ) :
    pseudoSum (m.set16 off v) ip len = pseudoSum m ip len := by
  unfold pseudoSum
  rw [Mbuf.get32_congr (fun i _ _ => Mbuf.byte_set16_of v (by omega)),
    Mbuf.get32_congr (fun i _ _ => Mbuf.byte_set16_of v (by omega)), Mbuf.byte_set16_of v (by omega)]

theorem tcpSum_set16 {m : Mbuf} {ip tcp : ℕ} (h : ip + 20 ≤ tcp) (v : UInt16) (len : ℕ) :
    tcpSum (m.set16 (tcp + 16) v) ip tcp len = tcpSum m ip tcp len := by
  unfold tcpSum
  rw [pseudoSum_set16 (by omega), Mbuf.set16_set16]

theorem recalculateTcpChecksum_eq {m : Mbuf} {ip tcp len : ℕ} (hip : ip + 20 ≤ tcp)
    (h20 : 20 ≤ len) (h : tcp + len ≤ m.dataLen) :
    L4Checksum.recalculateTcpChecksum m ip tcp len = .ok (m.set16 (tcp + 16) (tcpSum m ip tcp len)) := by
  unfold L4Checksum.recalculateTcpChecksum
  rw [Mbuf.store16_eq (by omega), ok_bind, Mbuf.load32_eq (by rw [Mbuf.dataLen_set16]; omega),
    Mbuf.load32_eq (by rw [Mbuf.dataLen_set16]; omega), Mbuf.load8_eq (by rw [Mbuf.dataLen_set16]; omega)]
  simp only [ok_bind]
  rw [sumWords_eq _ _ _ (by rw [Mbuf.dataLen_set16]; omega), ok_bind,
    Mbuf.store16_eq (by rw [Mbuf.dataLen_set16]; omega), Mbuf.set16_set16, tcpSum,
    ← pseudoSum_set16 (show ip + 20 ≤ tcp + 16 by omega) 0]
  rfl

/-! ### The incremental updates -/

namespace L4Checksum

/-- The checksum after both halves of an address have changed. -/
def incIp (c : UInt16) (oldIp newIp : IPv4Addr) : UInt16 :=
  incrementalUpdate (incrementalUpdate c (hi oldIp) (hi newIp)) (lo oldIp) (lo newIp)

/-- UDP sends all ones for 0. -/
def udpFix (c : UInt16) : UInt16 := if c = 0 then 0xFFFF else c

variable {m : Mbuf} {off : ℕ}

theorem updateTcpChecksumIp_eq (h : off + 18 ≤ m.dataLen) (oldIp newIp : IPv4Addr) :
    updateTcpChecksumIp m off oldIp newIp =
      .ok (m.set16 (off + 16) (incIp (m.get16 (off + 16)) oldIp newIp)) := by
  unfold updateTcpChecksumIp
  rw [Mbuf.load16_eq (by omega), ok_bind, Mbuf.store16_eq (by omega), ok_bind,
    Mbuf.load16_eq (by rw [Mbuf.dataLen_set16]; omega), ok_bind,
    Mbuf.store16_eq (by rw [Mbuf.dataLen_set16]; omega), Mbuf.get16_set16, Mbuf.set16_set16]
  rfl

theorem updateTcpChecksumPort_eq (h : off + 18 ≤ m.dataLen) (oldPort newPort : Port) :
    updateTcpChecksumPort m off oldPort newPort =
      .ok (m.set16 (off + 16) (incrementalUpdate (m.get16 (off + 16)) oldPort newPort)) := by
  unfold updateTcpChecksumPort
  rw [Mbuf.load16_eq (by omega), ok_bind, Mbuf.store16_eq (by omega)]

theorem udpFix_store (h : off + 8 ≤ m.dataLen) (c : UInt16) :
    (if (m.set16 (off + 6) c).get16 (off + 6) = 0 then (m.set16 (off + 6) c).store16 (off + 6) 0xFFFF
      else .ok (m.set16 (off + 6) c)) = .ok (m.set16 (off + 6) (udpFix c)) := by
  unfold udpFix
  rw [Mbuf.get16_set16]
  split
  · rw [Mbuf.store16_eq (by rw [Mbuf.dataLen_set16]; omega), Mbuf.set16_set16]
  · rfl

/-- The checksum `recalculate_udp_checksum` puts in. -/
def udpSum (m : Mbuf) (ip udp : ℕ) : UInt16 :=
  udpFix (finish (pseudoSum m ip (m.udpLenOf udp) + wsum (m.set16 (udp + 6) 0).byte udp (m.udpLenOf udp)))

theorem recalculateUdpChecksum_eq {ip : ℕ} (hip : ip + 20 ≤ off) (h8 : 8 ≤ m.udpLenOf off)
    (h : off + m.udpLenOf off ≤ m.dataLen) :
    recalculateUdpChecksum m ip off = .ok (m.set16 (off + 6) (udpSum m ip off)) := by
  have hlen : (m.set16 (off + 6) 0).udpLenOf off = m.udpLenOf off := by
    exact Mbuf.udpLenOf_congr fun i _ _ => Mbuf.byte_set16_of 0 (by omega)
  unfold recalculateUdpChecksum
  rw [Mbuf.store16_eq (by omega), ok_bind, Mbuf.udpLength_eq (by rw [Mbuf.dataLen_set16]; omega), hlen,
    Mbuf.load32_eq (by rw [Mbuf.dataLen_set16]; omega), Mbuf.load32_eq (by rw [Mbuf.dataLen_set16]; omega),
    Mbuf.load8_eq (by rw [Mbuf.dataLen_set16]; omega)]
  simp only [ok_bind]
  rw [sumWords_eq _ _ _ (by rw [Mbuf.dataLen_set16]; omega), ok_bind,
    Mbuf.store16_eq (by rw [Mbuf.dataLen_set16]; omega), Mbuf.set16_set16, ok_bind,
    Mbuf.load16_eq (by rw [Mbuf.dataLen_set16]; omega), ok_bind, udpSum,
    ← pseudoSum_set16 (show ip + 20 ≤ off + 6 by omega) 0]
  exact udpFix_store (by omega) _

theorem updateUdpChecksumIp_eq (h : off + 8 ≤ m.dataLen) (h0 : m.get16 (off + 6) ≠ 0)
    (oldIp newIp : IPv4Addr) :
    updateUdpChecksumIp m off oldIp newIp =
      .ok (m.set16 (off + 6) (udpFix (incIp (m.get16 (off + 6)) oldIp newIp))) := by
  unfold updateUdpChecksumIp
  rw [Mbuf.load16_eq (by omega), ok_bind, if_neg h0, ok_bind, Mbuf.store16_eq (by omega), ok_bind,
    Mbuf.load16_eq (by rw [Mbuf.dataLen_set16]; omega), ok_bind,
    Mbuf.store16_eq (by rw [Mbuf.dataLen_set16]; omega), Mbuf.get16_set16, Mbuf.set16_set16, ok_bind,
    Mbuf.load16_eq (by rw [Mbuf.dataLen_set16]; omega), ok_bind]
  exact udpFix_store h _

theorem updateUdpChecksumPort_eq (h : off + 8 ≤ m.dataLen) (h0 : m.get16 (off + 6) ≠ 0)
    (oldPort newPort : Port) :
    updateUdpChecksumPort m off oldPort newPort =
      .ok (m.set16 (off + 6) (udpFix (incrementalUpdate (m.get16 (off + 6)) oldPort newPort))) := by
  unfold updateUdpChecksumPort
  rw [Mbuf.load16_eq (by omega), ok_bind, if_neg h0, ok_bind, Mbuf.store16_eq (by omega), ok_bind,
    Mbuf.load16_eq (by rw [Mbuf.dataLen_set16]; omega), ok_bind]
  exact udpFix_store h _

theorem udpFix_ne_zero (c : UInt16) : udpFix c ≠ 0 := by
  unfold udpFix
  split
  · decide
  · assumption

/-! ### Modulo 65535 -/

/-- The value of a 16-bit word, up to the two zeros. -/
def res (c : UInt16) : ZMod 65535 := (c.toNat : ℕ)

/-- The sum of the two halves of an address. -/
def resIp (ip : IPv4Addr) : ZMod 65535 := res (hi ip) + res (lo ip)

theorem incrementalUpdate_toNat (c old new : UInt16) :
    (incrementalUpdate c old new).toNat = incUpdate c.toNat old.toNat new.toNat := by
  have := incUpdate_le c.toNat old.toNat new.toNat
  rw [incrementalUpdate, UInt16.toNat_ofNat', Nat.mod_eq_of_lt (by omega)]

theorem res_incrementalUpdate (c old new : UInt16) :
    res (incrementalUpdate c old new) = res c + res old - res new := by
  have h1 := c.toNat_lt
  have h2 := old.toNat_lt
  unfold res
  rw [incrementalUpdate_toNat, incUpdate_cast _ (by omega) (by omega)]

theorem res_incIp (c : UInt16) (old new : IPv4Addr) :
    res (incIp c old new) = res c + resIp old - resIp new := by
  unfold incIp resIp
  rw [res_incrementalUpdate, res_incrementalUpdate]
  ring

theorem res_udpFix (c : UInt16) : res (udpFix c) = res c := by
  unfold udpFix
  split
  · rename_i h
    rw [h]
    exact cast_65535.trans Nat.cast_zero.symm
  · rfl

/-- Only from all ones does an update give all ones. -/
theorem incrementalUpdate_ne {c : UInt16} (old new : UInt16) (h : c ≠ 0xFFFF) :
    incrementalUpdate c old new ≠ 0xFFFF := by
  intro he
  have hc : c.toNat < 65535 := by
    have := c.toNat_lt
    have : c.toNat ≠ 65535 := fun e => h (UInt16.toNat_inj.mp e)
    omega
  have h1 := incUpdate_lt old.toNat new.toNat hc
  rw [← incrementalUpdate_toNat, he] at h1
  exact absurd h1 (by decide)

theorem incIp_ne {c : UInt16} (old new : IPv4Addr) (h : c ≠ 0xFFFF) : incIp c old new ≠ 0xFFFF :=
  incrementalUpdate_ne _ _ (incrementalUpdate_ne _ _ h)

end L4Checksum
end L4Lb
