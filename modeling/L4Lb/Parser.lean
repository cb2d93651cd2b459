/-
# The parser

`include/protocol/parser.h` and `src/protocol/parser.cpp`. `parse` reads the
headers of a frame into a `PacketMeta`, `parse_icmp_error` those of the packet
an ICMP error quotes. Neither reads past the end of the frame nor stores an
offset that does not fit, whatever the bytes are. The verdict of `parse` is
that of `grammar`, which states its checks on the bytes of the frame, and what
it has read of an accepted frame is `decode` (`parse_spec`). `Parsed` is what
the rewriting functions rely on.
-/
import L4Lb.Frame

open Checked

namespace L4Lb

inductive ParseResult
  | ok
  | malformed
  | fragment
  deriving DecidableEq, Repr

/-- Fields that `parse` has not reached are 0. -/
structure PacketMeta where
  srcMac : MacAddr := MacAddr.zero
  dstMac : MacAddr := MacAddr.zero
  etherType : UInt16 := 0
  srcIp : IPv4Addr := 0
  dstIp : IPv4Addr := 0
  ipProtocol : UInt8 := 0
  ipTtl : UInt8 := 0
  srcPort : Port := 0
  dstPort : Port := 0
  tcpFlags : UInt8 := 0
  l2Offset : ℕ := 0
  l3Offset : ℕ := 0
  l4Offset : ℕ := 0
  payloadOffset : ℕ := 0
  totalLen : ℕ := 0
  payloadLen : ℕ := 0

def PacketMeta.toFiveTuple (p : PacketMeta) : FiveTuple :=
  ⟨p.srcIp, p.dstIp, p.srcPort, p.dstPort, p.ipProtocol⟩

structure IcmpErrorInfo where
  innerL3Offset : ℕ
  innerL4Offset : ℕ
  inner : FiveTuple

/-! ### Fields of the headers -/

namespace Mbuf

/-- `get_ether_type`. -/
def etherType (m : Mbuf) : Except Fault UInt16 := do return bswap16 (← m.load16 12)

/-- `get_version`, of the IPv4 header at `ip`. -/
def ipVersion (m : Mbuf) (ip : ℕ) : Except Fault ℕ := do return (← m.load8 ip).toNat / 16

/-- `get_header_len`, of the IPv4 header at `ip`. -/
def ipHeaderLen (m : Mbuf) (ip : ℕ) : Except Fault ℕ := do return (← m.load8 ip).toNat % 16 * 4

/-- `get_total_length`, of the IPv4 header at `ip`. -/
def ipTotalLength (m : Mbuf) (ip : ℕ) : Except Fault ℕ := do
  return (bswap16 (← m.load16 (ip + 2))).toNat

/-- `get_header_len`, of the TCP header at `tcp`. -/
def tcpHeaderLen (m : Mbuf) (tcp : ℕ) : Except Fault ℕ := do
  return (← m.load8 (tcp + 12)).toNat / 16 * 4

/-- `get_length`, of the UDP header at `udp`. -/
def udpLength (m : Mbuf) (udp : ℕ) : Except Fault ℕ := do
  return (bswap16 (← m.load16 (udp + 4))).toNat

end Mbuf

/-- `icmp_is_error`. -/
def icmpIsError (type : UInt8) : Bool := type == 3 || type == 11 || type == 12

/-- `ProtocolParser::parse`, of the whole frame. -/
def parse (m : Mbuf) : Except Fault (ParseResult × PacketMeta) := do
  let len := m.dataLen
  let p : PacketMeta := {}
  if len < 14 then return (.malformed, p)
  let dstMac ← m.loadMac 0
  let srcMac ← m.loadMac 6
  let etherType ← m.etherType
  let p := { p with
    dstMac := dstMac, srcMac := srcMac, etherType := etherType, l2Offset := 0, l3Offset := 14,
    srcPort := 0, dstPort := 0, tcpFlags := 0 }
  if etherType ≠ 0x0800 then return (.ok, p)

  -- the IPv4 header
  if len < p.l3Offset + 20 then return (.malformed, p)
  let ip := p.l3Offset
  let ihl ← m.ipHeaderLen ip
  let ipTotal ← m.ipTotalLength ip
  let version ← m.ipVersion ip
  if version ≠ 4 ∨ ihl < 20 ∨ ipTotal < ihl ∨ p.l3Offset + ipTotal > len then
    return (.malformed, p)

  -- the frame may be padded: the IP length counts from here on
  let stop := p.l3Offset + ipTotal
  let srcIp ← m.load32 (ip + 12)
  let dstIp ← m.load32 (ip + 16)
  let protocol ← m.load8 (ip + 9)
  let ttl ← m.load8 (ip + 8)
  let l4 ← narrow (p.l3Offset + ihl)
  let total ← narrow stop
  let p := { p with
    srcIp := srcIp, dstIp := dstIp, ipProtocol := protocol, ipTtl := ttl, l4Offset := l4,
    totalLen := total, payloadOffset := l4 }

  let frag := (bswap16 (← m.load16 (ip + 6))).toNat
  if frag / 8192 % 2 ≠ 0 ∨ frag % 8192 ≠ 0 then return (.fragment, p)

  -- the L4 header
  if protocol = 6 then
    if p.l4Offset + 20 > stop then return (.malformed, p)
    let doff ← m.tcpHeaderLen p.l4Offset
    if doff < 20 ∨ p.l4Offset + doff > stop then return (.malformed, p)
    let srcPort ← m.load16 p.l4Offset
    let dstPort ← m.load16 (p.l4Offset + 2)
    let flags ← m.load8 (p.l4Offset + 13)
    let payload ← narrow (p.l4Offset + doff)
    let payloadLen ← narrow (sizeSub stop payload)
    return (.ok, { p with
      srcPort := srcPort, dstPort := dstPort, tcpFlags := flags, payloadOffset := payload,
      payloadLen := payloadLen })
  else if protocol = 17 then
    if p.l4Offset + 8 > stop then return (.malformed, p)
    let udpLen ← m.udpLength p.l4Offset
    if udpLen < 8 ∨ p.l4Offset + udpLen > stop then return (.malformed, p)
    let srcPort ← m.load16 p.l4Offset
    let dstPort ← m.load16 (p.l4Offset + 2)
    let payload ← narrow (p.l4Offset + 8)
    let payloadLen ← narrow (sizeSub stop payload)
    return (.ok, { p with
      srcPort := srcPort, dstPort := dstPort, payloadOffset := payload, payloadLen := payloadLen })
  else if protocol = 1 ∧ p.l4Offset + 8 > stop then return (.malformed, p)
  else
    let payloadLen ← narrow (sizeSub stop p.payloadOffset)
    return (.ok, { p with payloadLen := payloadLen })

/-- `ProtocolParser::parse_icmp_error`. -/
def parseIcmpError (m : Mbuf) (p : PacketMeta) : Except Fault (Option IcmpErrorInfo) := do
  let type ← m.load8 p.l4Offset
  if !icmpIsError type then return none
  let innerL3 := p.l4Offset + 8
  if innerL3 + 20 > p.totalLen then return none
  let ihl ← m.ipHeaderLen innerL3
  let version ← m.ipVersion innerL3
  if version ≠ 4 ∨ ihl < 20 then return none
  let protocol ← m.load8 (innerL3 + 9)
  if protocol ≠ 6 ∧ protocol ≠ 17 then return none
  -- only a first fragment has the ports
  let frag := (bswap16 (← m.load16 (innerL3 + 6))).toNat
  if frag % 8192 ≠ 0 then return none
  let innerL4 := innerL3 + ihl
  if innerL4 + 8 > p.totalLen then return none
  let port0 ← m.load16 innerL4
  let port1 ← m.load16 (innerL4 + 2)
  let l3 ← narrow innerL3
  let l4 ← narrow innerL4
  let srcIp ← m.load32 (innerL3 + 12)
  let dstIp ← m.load32 (innerL3 + 16)
  return some ⟨l3, l4, ⟨srcIp, dstIp, port0, port1, protocol⟩⟩

/-! ### The parser in bounds -/

namespace Mbuf

/-- The length of the IPv4 header at `ip`. -/
def ihlOf (m : Mbuf) (ip : ℕ) : ℕ := (m.byte ip).toNat % 16 * 4

/-- The length of the IPv4 packet at `ip`. -/
def totalOf (m : Mbuf) (ip : ℕ) : ℕ := (bswap16 (m.get16 (ip + 2))).toNat

/-- The length of the TCP header at `tcp`. -/
def doffOf (m : Mbuf) (tcp : ℕ) : ℕ := (m.byte (tcp + 12)).toNat / 16 * 4

/-- The length of the UDP datagram at `udp`. -/
def udpLenOf (m : Mbuf) (udp : ℕ) : ℕ := (bswap16 (m.get16 (udp + 4))).toNat

section Congr

variable {m m' : Mbuf} {off : ℕ}

theorem ihlOf_congr (h : m'.byte off = m.byte off) : m'.ihlOf off = m.ihlOf off := by rw [ihlOf, ihlOf, h]

theorem totalOf_congr (h : ∀ i, off + 2 ≤ i → i < off + 4 → m'.byte i = m.byte i) :
    m'.totalOf off = m.totalOf off := by
  rw [totalOf, totalOf, get16_congr (h _ (by omega) (by omega)) (h _ (by omega) (by omega))]

theorem doffOf_congr (h : m'.byte (off + 12) = m.byte (off + 12)) : m'.doffOf off = m.doffOf off := by
  rw [doffOf, doffOf, h]

theorem udpLenOf_congr (h : ∀ i, off + 4 ≤ i → i < off + 6 → m'.byte i = m.byte i) :
    m'.udpLenOf off = m.udpLenOf off := by
  rw [udpLenOf, udpLenOf, get16_congr (h _ (by omega) (by omega)) (h _ (by omega) (by omega))]

end Congr

variable {m : Mbuf} {off : ℕ}

theorem etherType_eq (h : 14 ≤ m.dataLen) : m.etherType = .ok (bswap16 (m.get16 12)) := by
  rw [etherType, load16_eq (by omega)]; rfl

theorem ipVersion_eq (h : off < m.dataLen) : m.ipVersion off = .ok ((m.byte off).toNat / 16) := by
  rw [ipVersion, load8_eq h]; rfl

theorem ipHeaderLen_eq (h : off < m.dataLen) : m.ipHeaderLen off = .ok (m.ihlOf off) := by
  rw [ipHeaderLen, load8_eq h]; rfl

theorem ipTotalLength_eq (h : off + 4 ≤ m.dataLen) : m.ipTotalLength off = .ok (m.totalOf off) := by
  rw [ipTotalLength, load16_eq (by omega)]; rfl

theorem tcpHeaderLen_eq (h : off + 12 < m.dataLen) : m.tcpHeaderLen off = .ok (m.doffOf off) := by
  rw [tcpHeaderLen, load8_eq h]; rfl

theorem udpLength_eq (h : off + 6 ≤ m.dataLen) : m.udpLength off = .ok (m.udpLenOf off) := by
  rw [udpLength, load16_eq (by omega)]; rfl

theorem ihlOf_le (m : Mbuf) (ip : ℕ) : m.ihlOf ip ≤ 60 := by
  unfold ihlOf; omega

end Mbuf

/-! ### The grammar

The checks that the comment at `parse` lists, on the bytes of the frame alone,
and the headers as they stand in it. -/

namespace Mbuf

/-- The 16-bit number at `off`, in network order. -/
def be16 (m : Mbuf) (off : ℕ) : ℕ := (m.byte off).toNat * 256 + (m.byte (off + 1)).toNat

theorem toNat_bswap16_get16 (m : Mbuf) (off : ℕ) : (bswap16 (m.get16 off)).toNat = m.be16 off := by
  have h0 := (m.byte off).toNat_lt
  have h1 := (m.byte (off + 1)).toNat_lt
  rw [bswap16_toNat, get16_toNat, OnesComplement.word, be16]
  omega

/-- Where the L4 header starts. -/
def l4Of (m : Mbuf) : ℕ := 14 + m.ihlOf 14

/-- Where the IPv4 packet ends; padding may follow. -/
def stopOf (m : Mbuf) : ℕ := 14 + m.be16 16

/-- Version 4, a header of at least five words inside `total_length`, and both
inside the frame. -/
def Ipv4Ok (m : Mbuf) : Prop :=
  34 ≤ m.dataLen ∧ (m.byte 14).toNat / 16 = 4 ∧ 5 ≤ (m.byte 14).toNat % 16 ∧
    (m.byte 14).toNat % 16 * 4 ≤ m.be16 16 ∧ m.stopOf ≤ m.dataLen

/-- More fragments follow, or this is not the first. -/
def Fragment (m : Mbuf) : Prop := m.be16 20 / 8192 % 2 = 1 ∨ m.be16 20 % 8192 ≠ 0

/-- A TCP header of at least five words, a UDP datagram of at least its header,
or an ICMP header, inside the packet. -/
def L4Ok (m : Mbuf) : Prop :=
  if m.byte 23 = 6 then
    5 ≤ (m.byte (m.l4Of + 12)).toNat / 16 ∧ m.l4Of + (m.byte (m.l4Of + 12)).toNat / 16 * 4 ≤ m.stopOf
  else if m.byte 23 = 17 then 8 ≤ m.be16 (m.l4Of + 4) ∧ m.l4Of + m.be16 (m.l4Of + 4) ≤ m.stopOf
  else if m.byte 23 = 1 then m.l4Of + 8 ≤ m.stopOf
  else True

/-- Where the payload starts. -/
def payloadOf (m : Mbuf) : ℕ :=
  m.l4Of + if m.byte 23 = 6 then m.doffOf m.l4Of else if m.byte 23 = 17 then 8 else 0

instance (m : Mbuf) : Decidable m.Ipv4Ok := by unfold Ipv4Ok; infer_instance
instance (m : Mbuf) : Decidable m.Fragment := by unfold Fragment; infer_instance
instance (m : Mbuf) : Decidable m.L4Ok := by unfold L4Ok; infer_instance

end Mbuf

/-- The verdict on a frame. -/
def grammar (m : Mbuf) : ParseResult :=
  if m.dataLen < 14 then .malformed
  else if m.be16 12 ≠ 0x0800 then .ok
  else if ¬ m.Ipv4Ok then .malformed
  else if m.Fragment then .fragment
  else if m.L4Ok then .ok
  else .malformed

/-- The Ethernet header of a frame. -/
def decodeEther (m : Mbuf) : PacketMeta where
  dstMac := m.getMac 0
  srcMac := m.getMac 6
  etherType := bswap16 (m.get16 12)
  l3Offset := 14

/-- The headers of an accepted frame. -/
def decode (m : Mbuf) : PacketMeta :=
  if m.be16 12 ≠ 0x0800 then decodeEther m
  else { decodeEther m with
    srcIp := m.get32 26
    dstIp := m.get32 30
    ipProtocol := m.byte 23
    ipTtl := m.byte 22
    l4Offset := m.l4Of
    totalLen := m.stopOf
    srcPort := if m.byte 23 = 6 ∨ m.byte 23 = 17 then m.get16 m.l4Of else 0
    dstPort := if m.byte 23 = 6 ∨ m.byte 23 = 17 then m.get16 (m.l4Of + 2) else 0
    tcpFlags := if m.byte 23 = 6 then m.byte (m.l4Of + 13) else 0
    payloadOffset := m.payloadOf
    payloadLen := m.stopOf - m.payloadOf }

theorem sizeSub_eq {a b : ℕ} (h : b ≤ a) : sizeSub a b = a - b := if_pos h

theorem isIpv4_iff (m : Mbuf) : bswap16 (m.get16 12) = 0x0800 ↔ m.be16 12 = 0x0800 := by
  rw [← Mbuf.toNat_bswap16_get16, ← UInt16.toNat_inj]
  rfl

section L4Ok

variable {m : Mbuf}

theorem Mbuf.l4Ok_tcp (h : m.byte 23 = 6) :
    m.L4Ok ↔ 20 ≤ m.doffOf m.l4Of ∧ m.l4Of + m.doffOf m.l4Of ≤ m.stopOf := by
  rw [L4Ok, if_pos h, doffOf]
  omega

theorem Mbuf.l4Ok_udp (h : m.byte 23 = 17) :
    m.L4Ok ↔ 8 ≤ m.udpLenOf m.l4Of ∧ m.l4Of + m.udpLenOf m.l4Of ≤ m.stopOf := by
  rw [L4Ok, if_neg (by rw [h]; decide), if_pos h, udpLenOf, toNat_bswap16_get16]

theorem Mbuf.l4Ok_other (h6 : m.byte 23 ≠ 6) (h17 : m.byte 23 ≠ 17) :
    m.L4Ok ↔ (m.byte 23 = 1 → m.l4Of + 8 ≤ m.stopOf) := by
  rw [L4Ok, if_neg h6, if_neg h17]
  split
  · rename_i hicmp
    exact ⟨fun h _ => h, fun h => h hicmp⟩
  · rename_i hicmp
    exact ⟨fun _ h => absurd h hicmp, fun _ => trivial⟩

end L4Ok

/-- What `parse` returns. -/
def ParsesTo (m : Mbuf) (r : ParseResult × PacketMeta) : Prop := r.1 = grammar m ∧ (r.1 = .ok → r.2 = decode m)

/-- `parse` returns, for every frame, what the grammar says. -/
theorem parse_spec (m : Mbuf) : Returns (parse m) (ParsesTo m) := by
  have hfit := m.fits
  unfold parse
  by_cases h1 : m.dataLen < 14
  · simp only [h1, ↓reduceIte]
    exact .ok ⟨by simp [grammar, h1], by simp⟩
  simp only [h1, ↓reduceIte, @Mbuf.loadMac_eq m 0 (by omega),
    @Mbuf.loadMac_eq m 6 (by omega), Mbuf.etherType_eq (m := m) (by omega), ok_bind]
  by_cases h2 : bswap16 (m.get16 12) = 0x0800
  swap
  · have h2' : m.be16 12 ≠ 0x0800 := fun e => h2 ((isIpv4_iff m).mpr e)
    simp only [ne_eq, h2, not_false_eq_true, ↓reduceIte]
    refine .ok ⟨by simp [grammar, h1, h2'], fun _ => ?_⟩
    rw [decode, if_pos h2']
    rfl
  have h2' : m.be16 12 = 0x0800 := (isIpv4_iff m).mp h2
  by_cases h3 : m.dataLen < 14 + 20
  · have hno : ¬ m.Ipv4Ok := fun h => by have := h.1; omega
    simp only [ne_eq, h2, not_true_eq_false, ↓reduceIte, h3]
    exact .ok ⟨by simp [grammar, h1, h2', hno], by simp⟩
  simp only [ne_eq, h2, not_true_eq_false, ↓reduceIte, h3,
    @Mbuf.ipHeaderLen_eq m 14 (by omega),
    @Mbuf.ipTotalLength_eq m 14 (by omega),
    @Mbuf.ipVersion_eq m 14 (by omega), ok_bind]
  have htot : m.totalOf 14 = m.be16 16 := m.toNat_bswap16_get16 16
  have hihl := m.ihlOf_le 14
  have hihl' : m.ihlOf 14 = (m.byte 14).toNat % 16 * 4 := rfl
  rw [htot]
  split
  · rename_i h4
    have hno : ¬ m.Ipv4Ok := by
      rintro ⟨-, hv, hi, ht, hs⟩
      unfold Mbuf.stopOf at hs
      omega
    exact .ok ⟨by simp [grammar, h1, h2', hno], by simp⟩
  rename_i h4
  simp only [not_or, not_not, not_lt] at h4
  obtain ⟨hv, hi, ht, hl⟩ := h4
  have hip : m.Ipv4Ok := ⟨by omega, hv, by omega, by omega, hl⟩
  rw [Mbuf.load32_eq (by omega), Mbuf.load32_eq (by omega), Mbuf.load8_eq (by omega),
    Mbuf.load8_eq (by omega), narrow_eq (by omega), narrow_eq (by omega), Mbuf.load16_eq (by omega)]
  simp only [ok_bind]
  have hfrag : (bswap16 (m.get16 (14 + 6))).toNat = m.be16 20 := m.toNat_bswap16_get16 20
  rw [hfrag]
  split
  · rename_i h5
    have hfr : m.Fragment := by
      unfold Mbuf.Fragment
      omega
    exact .ok ⟨by simp [grammar, h1, h2', hip, hfr], by simp⟩
  rename_i h5
  have hfr : ¬ m.Fragment := by
    unfold Mbuf.Fragment
    omega
  have hg : grammar m = if m.L4Ok then .ok else .malformed := by simp [grammar, h1, h2', hip, hfr]
  have hl4 : 14 + m.ihlOf 14 = m.l4Of := rfl
  have hstop : 14 + m.be16 16 = m.stopOf := rfl
  have hmax : m.stopOf ≤ m.dataLen := hl
  have hle : m.l4Of ≤ m.stopOf := by omega
  rw [hl4, hstop]
  split
  · rename_i htcp
    have htcp : m.byte 23 = 6 := htcp
    have hok := Mbuf.l4Ok_tcp htcp
    have hdoff : m.doffOf m.l4Of = (m.byte (m.l4Of + 12)).toNat / 16 * 4 := rfl
    split
    · rename_i h6
      exact .ok ⟨by rw [hg, if_neg (by rw [hok]; omega)], by simp⟩
    rename_i h6
    rw [Mbuf.tcpHeaderLen_eq (by omega), ok_bind]
    split
    · rename_i h7
      exact .ok ⟨by rw [hg, if_neg (by rw [hok]; omega)], by simp⟩
    rename_i h7
    rw [Mbuf.load16_eq (by omega), Mbuf.load16_eq (by omega), Mbuf.load8_eq (by omega),
      narrow_eq (by omega)]
    simp only [ok_bind]
    rw [sizeSub_eq (by omega), narrow_eq (by omega)]
    refine .ok ⟨by rw [hg, if_pos (hok.mpr (by omega))], fun _ => ?_⟩
    simp [decode, decodeEther, Mbuf.payloadOf, h2', h2, htcp]
  rename_i htcp
  have htcp : ¬ m.byte 23 = 6 := htcp
  split
  · rename_i hudp
    have hudp : m.byte 23 = 17 := hudp
    have hok := Mbuf.l4Ok_udp hudp
    split
    · rename_i h6
      exact .ok ⟨by rw [hg, if_neg (by rw [hok]; omega)], by simp⟩
    rename_i h6
    rw [Mbuf.udpLength_eq (by omega), ok_bind]
    split
    · rename_i h7
      exact .ok ⟨by rw [hg, if_neg (by rw [hok]; omega)], by simp⟩
    rename_i h7
    rw [Mbuf.load16_eq (by omega), Mbuf.load16_eq (by omega), narrow_eq (by omega)]
    simp only [ok_bind]
    rw [sizeSub_eq (by omega), narrow_eq (by omega)]
    refine .ok ⟨by rw [hg, if_pos (hok.mpr (by omega))], fun _ => ?_⟩
    simp [decode, decodeEther, Mbuf.payloadOf, h2', h2, hudp]
  rename_i hudp
  have hudp : ¬ m.byte 23 = 17 := hudp
  have hok := Mbuf.l4Ok_other htcp hudp
  split
  · rename_i h6
    have hno : ¬ m.L4Ok := fun h => absurd (hok.mp h h6.1) (not_le.mpr h6.2)
    exact .ok ⟨by rw [hg, if_neg hno], by simp⟩
  rename_i h6
  have hyes : m.L4Ok := hok.mpr fun hicmp => not_lt.mp fun hlt => h6 ⟨hicmp, hlt⟩
  rw [sizeSub_eq hle, narrow_eq (by omega)]
  refine .ok ⟨by rw [hg, if_pos hyes], fun _ => ?_⟩
  simp [decode, decodeEther, Mbuf.payloadOf, h2', h2, htcp, hudp]

/-- What `parse` promises about an IPv4 frame it accepts. -/
structure Parsed (m : Mbuf) (p : PacketMeta) : Prop where
  l3 : p.l3Offset = 14
  version : (m.byte 14).toNat / 16 = 4
  ihl : 20 ≤ m.ihlOf 14
  l4 : p.l4Offset = 14 + m.ihlOf 14
  total : p.totalLen = 14 + m.totalOf 14
  l4_le : p.l4Offset ≤ p.totalLen
  total_le : p.totalLen ≤ m.dataLen
  srcMac : p.srcMac = m.getMac 6
  srcIp : p.srcIp = m.get32 26
  dstIp : p.dstIp = m.get32 30
  protocol : p.ipProtocol = m.byte 23
  ttl : p.ipTtl = m.byte 22
  unfragmented : (bswap16 (m.get16 20)).toNat % 16384 = 0
  ports : p.ipProtocol = 6 ∨ p.ipProtocol = 17 →
    p.srcPort = m.get16 p.l4Offset ∧ p.dstPort = m.get16 (p.l4Offset + 2)
  tcp : p.ipProtocol = 6 → 20 ≤ m.doffOf p.l4Offset ∧
    p.payloadOffset = p.l4Offset + m.doffOf p.l4Offset ∧ p.payloadOffset ≤ p.totalLen ∧
    p.tcpFlags = m.byte (p.l4Offset + 13)
  udp : p.ipProtocol = 17 → 8 ≤ m.udpLenOf p.l4Offset ∧
    p.l4Offset + m.udpLenOf p.l4Offset ≤ p.totalLen ∧ p.payloadOffset = p.l4Offset + 8
  icmp : p.ipProtocol = 1 → p.l4Offset + 8 ≤ p.totalLen
  flags : p.ipProtocol ≠ 6 → p.tcpFlags = 0

theorem grammar_ok_iff (m : Mbuf) : grammar m = .ok ↔
    14 ≤ m.dataLen ∧ (m.be16 12 = 0x0800 → m.Ipv4Ok ∧ ¬ m.Fragment ∧ m.L4Ok) := by
  unfold grammar
  by_cases h1 : m.dataLen < 14
  · simp [h1]
  rw [if_neg h1]
  by_cases h2 : m.be16 12 = 0x0800
  swap
  · simp [h2, not_lt.mp h1]
  by_cases h3 : m.Ipv4Ok <;> by_cases h4 : m.Fragment <;> by_cases h5 : m.L4Ok <;>
    simp [h2, h3, h4, h5, not_lt.mp h1]

theorem parsed_decode {m : Mbuf} (h : m.Ipv4Ok ∧ ¬ m.Fragment ∧ m.L4Ok) (he : m.be16 12 = 0x0800) :
    Parsed m (decode m) := by
  obtain ⟨⟨-, hv, hi, ht, hl⟩, hfr, hl4⟩ := h
  have htot : m.totalOf 14 = m.be16 16 := m.toNat_bswap16_get16 16
  have hihl : m.ihlOf 14 = (m.byte 14).toNat % 16 * 4 := rfl
  have hfrag : (bswap16 (m.get16 20)).toNat = m.be16 20 := m.toNat_bswap16_get16 20
  have hle : m.l4Of ≤ m.stopOf := by
    unfold Mbuf.l4Of Mbuf.stopOf
    omega
  unfold Mbuf.Fragment at hfr
  rw [decode, if_neg (not_not.mpr he)]
  refine ⟨rfl, hv, by omega, rfl, by rw [htot]; rfl, hle, hl, rfl, rfl, rfl, rfl, rfl, by omega, fun hp => ?_,
    fun hp => ?_, fun hp => ?_, fun hp => ?_, fun hp => if_neg hp⟩
  · exact ⟨if_pos hp, if_pos hp⟩
  · have hp : m.byte 23 = 6 := hp
    obtain ⟨hdoff, hle'⟩ := (Mbuf.l4Ok_tcp hp).mp hl4
    have hpay : m.payloadOf = m.l4Of + m.doffOf m.l4Of := by rw [Mbuf.payloadOf, if_pos hp]
    exact ⟨hdoff, hpay, hpay.trans_le hle', if_pos hp⟩
  · have hp : m.byte 23 = 17 := hp
    obtain ⟨h8, hle'⟩ := (Mbuf.l4Ok_udp hp).mp hl4
    exact ⟨h8, hle', by show m.payloadOf = _; rw [Mbuf.payloadOf, if_neg (by rw [hp]; decide), if_pos hp]⟩
  · have hp : m.byte 23 = 1 := hp
    exact (Mbuf.l4Ok_other (by rw [hp]; decide) (by rw [hp]; decide)).mp hl4 hp

/-- `parse` returns, for every frame. -/
theorem parse_returns (m : Mbuf) : Returns (parse m) fun r => r.1 = .ok →
    r.2.etherType = bswap16 (m.get16 12) ∧ (r.2.etherType = 0x0800 → Parsed m r.2) := by
  refine (parse_spec m).mono fun r hr hok => ?_
  have hdec := hr.2 hok
  have hg := ((grammar_ok_iff m).mp (hr.1 ▸ hok)).2
  have hether : r.2.etherType = bswap16 (m.get16 12) := by
    rw [hdec, decode]
    split <;> rfl
  refine ⟨hether, fun he => ?_⟩
  have he : m.be16 12 = 0x0800 := (isIpv4_iff m).mp (hether ▸ he)
  rw [hdec]
  exact parsed_decode (hg he) he

/-- What `parse_icmp_error` asks of the ICMP message from `l4` to `stop`: it is an
error and quotes an IPv4 header of TCP or UDP, no later fragment, and 8 bytes
behind it. -/
def Mbuf.QuoteOk (m : Mbuf) (l4 stop : ℕ) : Prop :=
  icmpIsError (m.byte l4) = true ∧ l4 + 8 + 20 ≤ stop ∧ (m.byte (l4 + 8)).toNat / 16 = 4 ∧
    20 ≤ m.ihlOf (l4 + 8) ∧ (m.byte (l4 + 8 + 9) = 6 ∨ m.byte (l4 + 8 + 9) = 17) ∧
    m.be16 (l4 + 8 + 6) % 8192 = 0 ∧ l4 + 8 + m.ihlOf (l4 + 8) + 8 ≤ stop

instance (m : Mbuf) (l4 stop : ℕ) : Decidable (m.QuoteOk l4 stop) := by unfold Mbuf.QuoteOk; infer_instance

/-- The packet that the ICMP message at `l4` quotes. -/
def Mbuf.quoteOf (m : Mbuf) (l4 : ℕ) : IcmpErrorInfo :=
  let ip := l4 + 8
  let ports := ip + m.ihlOf ip
  ⟨ip, ports, ⟨m.get32 (ip + 12), m.get32 (ip + 16), m.get16 ports, m.get16 (ports + 2), m.byte (ip + 9)⟩⟩

/-- `parse_icmp_error` returns, for every frame that `parse` has accepted, and
accepts the errors that quote such a packet. -/
theorem parseIcmpError_eq {m : Mbuf} {p : PacketMeta} (hp : Parsed m p) (hicmp : p.ipProtocol = 1) :
    parseIcmpError m p =
      .ok (if m.QuoteOk p.l4Offset p.totalLen then some (m.quoteOf p.l4Offset) else none) := by
  have hfit := m.fits
  have hlen := hp.icmp hicmp
  have htot := hp.total_le
  have hno {P : Prop} (h : ¬ P) (hq : m.QuoteOk p.l4Offset p.totalLen → P) :
      (.ok none : Except Fault (Option IcmpErrorInfo)) =
        .ok (if m.QuoteOk p.l4Offset p.totalLen then some (m.quoteOf p.l4Offset) else none) := by
    rw [if_neg fun hok => h (hq hok)]
  unfold parseIcmpError
  rw [Mbuf.load8_eq (by omega)]
  simp only [ok_bind]
  split
  · rename_i h1
    exact hno (fun h => by simp [h] at h1) (·.1)
  rename_i h1
  split
  · rename_i h2
    exact hno (not_le.mpr h2) (·.2.1)
  rename_i h2
  have hihl := m.ihlOf_le (p.l4Offset + 8)
  rw [Mbuf.ipHeaderLen_eq (by omega), Mbuf.ipVersion_eq (by omega), Mbuf.load8_eq (by omega),
    Mbuf.load16_eq (by omega)]
  simp only [ok_bind]
  rw [m.toNat_bswap16_get16]
  split
  · rename_i h3
    exact hno (fun h => by omega) fun hq => And.intro hq.2.2.1 hq.2.2.2.1
  rename_i h3
  split
  · rename_i h4
    exact hno (not_or.mpr h4) (·.2.2.2.2.1)
  rename_i h4
  split
  · rename_i h5
    exact hno h5 (·.2.2.2.2.2.1)
  rename_i h5
  split
  · rename_i h6
    exact hno (not_le.mpr h6) (·.2.2.2.2.2.2)
  rename_i h6
  rw [Mbuf.load16_eq (by omega), Mbuf.load16_eq (by omega), narrow_eq (by omega), narrow_eq (by omega),
    Mbuf.load32_eq (by omega), Mbuf.load32_eq (by omega)]
  have hproto : m.byte (p.l4Offset + 8 + 9) = 6 ∨ m.byte (p.l4Offset + 8 + 9) = 17 := by
    by_contra hne
    exact h4 (not_or.mp hne)
  have hok : m.QuoteOk p.l4Offset p.totalLen :=
    ⟨by simpa using h1, by omega, by omega, by omega, hproto, not_not.mp h5, by omega⟩
  rw [if_pos hok]
  rfl

/-- What `parse_icmp_error` promises about the packet an ICMP error quotes. -/
structure Quoted (m : Mbuf) (p : PacketMeta) (info : IcmpErrorInfo) : Prop where
  l3 : info.innerL3Offset = p.l4Offset + 8
  version : (m.byte info.innerL3Offset).toNat / 16 = 4
  ihl : 20 ≤ m.ihlOf info.innerL3Offset
  l4 : info.innerL4Offset = info.innerL3Offset + m.ihlOf info.innerL3Offset
  l4_le : info.innerL4Offset + 8 ≤ p.totalLen
  protocol : info.inner.protocol = 6 ∨ info.inner.protocol = 17
  inner : info.inner = ⟨m.get32 (info.innerL3Offset + 12), m.get32 (info.innerL3Offset + 16),
    m.get16 info.innerL4Offset, m.get16 (info.innerL4Offset + 2), m.byte (info.innerL3Offset + 9)⟩
  error : icmpIsError (m.byte p.l4Offset) = true

/-- `parse_icmp_error` returns, for every frame that `parse` has accepted. -/
theorem parseIcmpError_returns {m : Mbuf} {p : PacketMeta} (hp : Parsed m p) (hicmp : p.ipProtocol = 1) :
    Returns (parseIcmpError m p) fun r => ∀ info, r = some info → Quoted m p info := by
  rw [parseIcmpError_eq hp hicmp]
  refine .ok fun info hinfo => ?_
  split at hinfo
  · rename_i hok
    obtain rfl := Option.some.inj hinfo
    obtain ⟨herr, -, hv, hi, hproto, -, hle⟩ := hok
    exact ⟨rfl, hv, hi, rfl, hle, hproto, rfl, herr⟩
  · cases hinfo

/-- The packet that an accepted error quotes. -/
theorem quoted_of_parseIcmpError {m : Mbuf} {p : PacketMeta} {info : IcmpErrorInfo} (hp : Parsed m p)
    (hicmp : p.ipProtocol = 1) (hinfo : parseIcmpError m p = .ok (some info)) :
    Quoted m p info ∧ m.QuoteOk p.l4Offset p.totalLen ∧ info = m.quoteOf p.l4Offset := by
  obtain ⟨r, hr, hq⟩ := parseIcmpError_returns hp hicmp
  rw [hinfo] at hr
  refine ⟨hq info (Except.ok.inj hr).symm, ?_⟩
  rw [parseIcmpError_eq hp hicmp] at hinfo
  split at hinfo
  · rename_i hok
    exact ⟨hok, (Option.some.inj (Except.ok.inj hinfo)).symm⟩
  · cases hinfo

end L4Lb
