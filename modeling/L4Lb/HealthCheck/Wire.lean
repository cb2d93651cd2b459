/-
# Probes on the wire

`HealthChecker::build_tcp`, from the buffer on: the Ethernet, IPv4 and TCP headers
of a probe or a reset, with both checksums. The frame is what `parse` reads back:
54 bytes, the addresses and ports of the segment, its flags and numbers, no
payload, and checksums that a receiver finds right (`buildTcpFrame_parses`).

The headers are written one field at a time. What a field reads afterwards is the
last write that meets it: `get16_put_of` and its like pass the writes elsewhere.
-/
import L4Lb.HealthCheck
import L4Lb.Forward.Valid
import L4Lb.Parser.Grammar

open Checked OnesComplement

namespace L4Lb

/-! ### Reading what was written -/

/-- The four bytes, in the other order. -/
theorem bswap32_digits {v : UInt32} {a b c d : ℕ} (ha : a < 256) (hb : b < 256) (hc : c < 256) (hd : d < 256)
    (hv : v.toNat = a + 256 * b + 65536 * c + 16777216 * d) :
    (bswap32 v).toNat = d + 256 * c + 65536 * b + 16777216 * a := by
  have h0 : v.toNat % 256 = a := by omega
  have h1 : v.toNat / 256 % 256 = b := by omega
  have h2 : v.toNat / 65536 % 256 = c := by omega
  have h3 : v.toNat / 16777216 = d := by omega
  rw [bswap32, UInt32.toNat_ofNat', h0, h1, h2, h3]
  omega

theorem bswap32_bswap32 (v : UInt32) : bswap32 (bswap32 v) = v := by
  have h := v.toNat_lt
  obtain ⟨a, b, c, d, ha, hb, hc, hd, hv⟩ : ∃ a b c d, a < 256 ∧ b < 256 ∧ c < 256 ∧ d < 256 ∧
      v.toNat = a + 256 * b + 65536 * c + 16777216 * d :=
    ⟨v.toNat % 256, v.toNat / 256 % 256, v.toNat / 65536 % 256, v.toNat / 16777216, by omega, by omega, by omega,
      by omega, by omega⟩
  apply UInt32.toNat_inj.mp
  rw [bswap32_digits hd hc hb ha (bswap32_digits ha hb hc hd hv), hv]

namespace Mbuf

variable {m : Mbuf} {off at' n : ℕ} {f : ℕ → UInt8}

theorem get16_put_of (h : at' + 2 ≤ off ∨ off + n ≤ at') : (m.put off n f).get16 at' = m.get16 at' :=
  get16_congr (byte_put_of_lt m f (by omega)) (byte_put_of_lt m f (by omega))

theorem get32_put_of (h : at' + 4 ≤ off ∨ off + n ≤ at') : (m.put off n f).get32 at' = m.get32 at' :=
  get32_congr fun _ _ _ => byte_put_of_lt m f (by omega)

theorem getMac_put_of (h : at' + 6 ≤ off ∨ off + n ≤ at') : (m.put off n f).getMac at' = m.getMac at' :=
  getMac_congr fun _ _ _ => byte_put_of_lt m f (by omega)

theorem get16_put_self (m : Mbuf) (off : ℕ) (v : UInt16) : (m.put off 2 (leByte v.toNat)).get16 off = v :=
  get16_set16 m off v

theorem get32_put_self (m : Mbuf) (off : ℕ) (v : UInt32) : (m.put off 4 (leByte v.toNat)).get32 off = v :=
  get32_set32 m off v

theorem getMac_put_self (m : Mbuf) (off : ℕ) (mac : MacAddr) :
    (m.put off 6 fun k => mac.toList.getD k 0).getMac off = mac := getMac_setMac m off mac

theorem byte_put_one (m : Mbuf) (off : ℕ) (v : UInt8) : (m.put off 1 fun _ => v).byte off = v := by
  rw [byte_put, if_pos (by omega)]

end Mbuf

/-! ### The frame -/

section Build

variable (localMac dstMac : MacAddr) (seg : Segment)

/-- The Ethernet header, and the IPv4 header at 14. -/
def storeIpHeader (m : Mbuf) : Except Fault Mbuf := do
  let m ← m.storeMac 0 dstMac
  let m ← m.storeMac 6 localMac
  let m ← m.store16 12 (bswap16 0x0800)
  let m ← m.store8 14 0x45
  let m ← m.store16 16 (bswap16 40)
  let m ← m.store16 20 (bswap16 0x4000)
  let m ← m.store8 22 64
  let m ← m.store8 23 6
  let m ← m.store32 26 seg.src
  m.store32 30 seg.dst

/-- The TCP header at 34. -/
def storeTcpHeader (m : Mbuf) : Except Fault Mbuf := do
  let m ← m.store16 34 (bswap16 (UInt16.ofNat seg.srcPort))
  let m ← m.store16 36 (bswap16 seg.dstPort)
  let m ← m.store32 38 (bswap32 seg.seq)
  let m ← m.store32 42 (bswap32 seg.ack)
  let m ← m.store8 46 ((5 : UInt8) <<< 4)
  let m ← m.store8 47 seg.flags
  m.store16 48 (bswap16 (if hasFlag seg.flags TCP_RST then 0 else 1024))

/-- `build_tcp` from the buffer on, when the MAC of the next hop is known: none if
the buffer has no room. -/
def buildTcpFrame (buf : Mbuf) : Except Fault (Option Mbuf) := do
  match buf.append 54 with
  | none => return none
  | some m =>
    let m ← m.fill 0 54 0
    let m ← storeIpHeader localMac dstMac seg m
    let m ← IpChecksum.update m 14
    let m ← storeTcpHeader seg m
    let m ← L4Checksum.recalculateTcpChecksum m 14 34 20
    return some m

end Build

/-- The tuple of the segment, in the byte order of the wire. -/
def Segment.tuple (seg : Segment) : FiveTuple :=
  ⟨seg.src, seg.dst, bswap16 (UInt16.ofNat seg.srcPort), bswap16 seg.dstPort, 6⟩

section Written

variable (localMac dstMac : MacAddr) (seg : Segment) (m : Mbuf)

def ipHeader : Mbuf :=
  (((((((((m.setMac 0 dstMac).setMac 6 localMac).set16 12 (bswap16 0x0800)).set8 14 0x45).set16 16 (bswap16 40)).set16
    20 (bswap16 0x4000)).set8 22 64).set8 23 6).set32 26 seg.src).set32 30 seg.dst

def tcpHeader : Mbuf :=
  ((((((m.set16 34 (bswap16 (UInt16.ofNat seg.srcPort))).set16 36 (bswap16 seg.dstPort)).set32 38
    (bswap32 seg.seq)).set32 42 (bswap32 seg.ack)).set8 46 ((5 : UInt8) <<< 4)).set8 47 seg.flags).set16 48
    (bswap16 (if hasFlag seg.flags TCP_RST then 0 else 1024))

/-- The checksum of the header at 14 is put in. -/
def withIpSum : Mbuf := m.set16 24 (ipSum m 14)

def withTcpSum : Mbuf := m.set16 50 (tcpSum m 14 34 20)

/-- The frame that `build_tcp` makes. -/
def segmentFrame : Mbuf :=
  withTcpSum (tcpHeader seg (withIpSum (ipHeader localMac dstMac seg (m.put 0 54 fun _ => 0))))

variable {m}

theorem storeIpHeader_eq (h : 34 ≤ m.dataLen) :
    storeIpHeader localMac dstMac seg m = .ok (ipHeader localMac dstMac seg m) := by
  unfold storeIpHeader
  simp (disch := (simp; omega)) only [Mbuf.storeMac_eq, Mbuf.store16_eq, Mbuf.store8_eq, Mbuf.store32_eq, ok_bind]
  rfl

theorem storeTcpHeader_eq (h : 54 ≤ m.dataLen) : storeTcpHeader seg m = .ok (tcpHeader seg m) := by
  unfold storeTcpHeader
  simp (disch := (simp; omega)) only [Mbuf.store16_eq, Mbuf.store8_eq, Mbuf.store32_eq, ok_bind]
  rfl

theorem byte_ipHeader : (ipHeader localMac dstMac seg m).byte 14 = 0x45 := by
  unfold ipHeader
  simp (disch := omega) only [Mbuf.set32, Mbuf.set16, Mbuf.set8, Mbuf.setMac, Mbuf.byte_put_of_lt, Mbuf.byte_put_one]

theorem ihlOf_ipHeader : (ipHeader localMac dstMac seg m).ihlOf 14 = 20 := by
  rw [Mbuf.ihlOf, byte_ipHeader]
  rfl

end Written

variable {localMac dstMac : MacAddr} {seg : Segment} {buf m : Mbuf}

/-- Into a buffer with room the headers are written without a fault. -/
theorem buildTcpFrame_eq (h : buf.append 54 = some m) (hlen : 54 ≤ m.dataLen) :
    buildTcpFrame localMac dstMac seg buf = .ok (some (segmentFrame localMac dstMac seg m)) := by
  have h0 : m.fill 0 54 0 = .ok (m.put 0 54 fun _ => 0) := Mbuf.fill_eq (by omega) 0
  have h1 := storeIpHeader_eq localMac dstMac seg (m := m.put 0 54 fun _ => 0) (hlen.trans' (by decide))
  have h20 := ihlOf_ipHeader localMac dstMac seg (m := m.put 0 54 fun _ => 0)
  have h2 : IpChecksum.update (ipHeader localMac dstMac seg (m.put 0 54 fun _ => 0)) 14 = .ok (withIpSum _) :=
    ipChecksumUpdate_eq (by rw [h20]; exact hlen.trans' (by decide)) h20.ge
  have h3 := storeTcpHeader_eq seg (m := withIpSum (ipHeader localMac dstMac seg (m.put 0 54 fun _ => 0))) hlen
  have h4 : L4Checksum.recalculateTcpChecksum (tcpHeader seg (withIpSum (ipHeader localMac dstMac seg
      (m.put 0 54 fun _ => 0)))) 14 34 20 = .ok (segmentFrame localMac dstMac seg m) :=
    recalculateTcpChecksum_eq (by omega) le_rfl hlen
  unfold buildTcpFrame
  rw [h]
  simp only [h0, h1, h2, h3, h4, ok_bind, pure_eq_ok]

/-! ### What is in it -/

/-- The headers of a frame say what the segment says. -/
structure Segment.InHeaders (seg : Segment) (localMac dstMac : MacAddr) (m : Mbuf) : Prop where
  dstMac : m.getMac 0 = dstMac
  srcMac : m.getMac 6 = localMac
  type : m.get16 12 = bswap16 0x0800
  ihl : m.byte 14 = 0x45
  total : m.get16 16 = bswap16 40
  fragment : m.get16 20 = bswap16 0x4000
  ttl : m.byte 22 = 64
  protocol : m.byte 23 = 6
  src : m.get32 26 = seg.src
  dst : m.get32 30 = seg.dst
  srcPort : m.get16 34 = bswap16 (UInt16.ofNat seg.srcPort)
  dstPort : m.get16 36 = bswap16 seg.dstPort
  seq : m.get32 38 = bswap32 seg.seq
  ack : m.get32 42 = bswap32 seg.ack
  offset : m.byte 46 = 0x50
  flags : m.byte 47 = seg.flags

/-- Whatever the checksums are. -/
theorem inHeaders_written (localMac dstMac : MacAddr) (seg : Segment) (m : Mbuf) (c c' : UInt16) :
    seg.InHeaders localMac dstMac ((tcpHeader seg ((ipHeader localMac dstMac seg m).set16 24 c)).set16 50 c') := by
  unfold tcpHeader ipHeader
  constructor <;> simp (disch := omega) only [Mbuf.set32, Mbuf.set16, Mbuf.set8, Mbuf.setMac, Mbuf.get16_put_of,
    Mbuf.get32_put_of, Mbuf.getMac_put_of, Mbuf.byte_put_of_lt, Mbuf.get16_put_self, Mbuf.get32_put_self,
    Mbuf.getMac_put_self, Mbuf.byte_put_one]
  rfl

theorem inHeaders_segmentFrame (localMac dstMac : MacAddr) (seg : Segment) (m : Mbuf) :
    seg.InHeaders localMac dstMac (segmentFrame localMac dstMac seg m) := inHeaders_written ..

theorem Mbuf.be16_eq {off : ℕ} {v : UInt16} (hv : m.get16 off = bswap16 v) : m.be16 off = v.toNat := by
  rw [← m.toNat_bswap16_get16, hv, bswap16_bswap16]

namespace Segment.InHeaders

variable (h : seg.InHeaders localMac dstMac m)

include h

theorem ihlOf : m.ihlOf 14 = 20 := by
  rw [Mbuf.ihlOf, h.ihl]
  rfl

theorem totalOf : m.totalOf 14 = 40 := by
  rw [Mbuf.totalOf, show m.get16 (14 + 2) = bswap16 40 from h.total, bswap16_bswap16]
  rfl

theorem l4Of : m.l4Of = 34 := by rw [Mbuf.l4Of, h.ihlOf]

theorem stopOf : m.stopOf = 54 := by
  rw [Mbuf.stopOf, Mbuf.be16_eq h.total]
  rfl

theorem accepted (hlen : m.dataLen = 54) : m.Ipv4Ok ∧ ¬ m.Fragment ∧ m.L4Ok := by
  refine ⟨?_, ?_, ?_⟩
  · unfold Mbuf.Ipv4Ok
    rw [hlen, h.stopOf, h.ihl, Mbuf.be16_eq h.total]
    decide
  · unfold Mbuf.Fragment
    rw [Mbuf.be16_eq h.fragment]
    decide
  · rw [Mbuf.l4Ok_tcp h.protocol, h.l4Of, h.stopOf, Mbuf.doffOf, h.offset]
    decide

/-- The frame is accepted, and decoded to the segment. -/
theorem parse_eq (hlen : m.dataLen = 54) : parse m = .ok (.ok, decode m) := parse_of_accepted (h.accepted hlen)

theorem isIpv4 : m.be16 12 = 0x0800 := Mbuf.be16_eq h.type

theorem decode_tuple : (decode m).toFiveTuple = seg.tuple := by
  unfold PacketMeta.toFiveTuple Segment.tuple
  rw [decode, if_neg (not_not.mpr h.isIpv4)]
  simp only [h.protocol, h.l4Of, h.src, h.dst, h.srcPort, h.dstPort, true_or, if_true]

theorem decode_rest : (decode m).srcMac = localMac ∧ (decode m).dstMac = dstMac ∧ (decode m).tcpFlags = seg.flags ∧
    (decode m).l4Offset = 34 ∧ (decode m).payloadLen = 0 := by
  have hpay : m.payloadOf = 54 := by
    rw [Mbuf.payloadOf, h.protocol, if_pos rfl, h.l4Of, Mbuf.doffOf, h.offset]
    rfl
  rw [decode, if_neg (not_not.mpr h.isIpv4)]
  simp only [decodeEther, h.protocol, h.l4Of, h.srcMac, h.dstMac, h.flags, h.stopOf, hpay, if_true, and_self]

theorem segLen_eq : segLen m (decode m) = 20 := by
  have hproto : (decode m).ipProtocol = 6 := congrArg FiveTuple.protocol h.decode_tuple
  rw [segLen, if_pos hproto, h.ihlOf, h.totalOf]

end Segment.InHeaders

/-- The header checksum is right, and stays so when the TCP header is written. -/
theorem ipValid_segmentFrame : IpValid (segmentFrame localMac dstMac seg m) 14 := by
  have h20 := ihlOf_ipHeader localMac dstMac seg (m := m.put 0 54 fun _ => 0)
  have hv : IpValid (withIpSum (ipHeader localMac dstMac seg (m.put 0 54 fun _ => 0))) 14 := ipValid_set16 h20.ge
  have hbyte : ∀ i, i < 34 → (segmentFrame localMac dstMac seg m).byte i =
      (withIpSum (ipHeader localMac dstMac seg (m.put 0 54 fun _ => 0))).byte i := by
    intro i hi
    unfold segmentFrame withTcpSum tcpHeader
    simp (disch := omega) only [Mbuf.byte_set16_of, Mbuf.byte_set32_of, Mbuf.byte_set8_of]
  have hihl := Mbuf.ihlOf_congr (hbyte 14 (by omega))
  have h20' : (segmentFrame localMac dstMac seg m).ihlOf 14 = 20 := (inHeaders_segmentFrame ..).ihlOf
  unfold IpValid at hv ⊢
  rw [← hihl] at hv
  rwa [wsum_congr fun i _ hi => hbyte i (by omega)]

theorem valid_withTcpSum (h : m.byte 23 = 6) : Valid (segSum (withTcpSum m) 14 34 20) :=
  @segSum_valid m 14 34 16 20 le_rfl rfl (by decide) (by decide) (.inl h)

/-- The checksum of the segment is right. -/
theorem l4Valid_segmentFrame :
    L4Valid (segmentFrame localMac dstMac seg m) (decode (segmentFrame localMac dstMac seg m)) := by
  have h := inHeaders_segmentFrame localMac dstMac seg m
  obtain ⟨-, -, -, hl4, -⟩ := h.decode_rest
  right
  rw [hl4, h.segLen_eq]
  refine valid_withTcpSum ?_
  unfold tcpHeader withIpSum ipHeader
  simp (disch := omega) only [Mbuf.set32, Mbuf.set16, Mbuf.set8, Mbuf.byte_put_of_lt, Mbuf.byte_put_one]

/-- **The frame of a segment reads back as the segment.** In an empty buffer with
room for it, `build_tcp` makes a frame of 54 bytes that `parse` accepts, with the
addresses, ports, flags and numbers of the segment and without payload, and with
checksums that are right. -/
theorem buildTcpFrame_parses (hbuf : buf.dataLen = 0) (hroom : 54 ≤ buf.tailroom) :
    ∃ m p, buildTcpFrame localMac dstMac seg buf = .ok (some m) ∧ m.dataLen = 54 ∧ parse m = .ok (.ok, p) ∧
      p.srcMac = localMac ∧ p.dstMac = dstMac ∧ p.toFiveTuple = seg.tuple ∧ p.tcpFlags = seg.flags ∧
      bswap32 (m.get32 (p.l4Offset + 4)) = seg.seq ∧ bswap32 (m.get32 (p.l4Offset + 8)) = seg.ack ∧
      p.payloadLen = 0 ∧ IpValid m 14 ∧ L4Valid m p := by
  obtain ⟨m, happ, hlen⟩ : ∃ m, buf.append 54 = some m ∧ m.dataLen = 54 :=
    ⟨_, dif_pos hroom, by simp [hbuf]⟩
  have h := inHeaders_segmentFrame localMac dstMac seg m
  obtain ⟨hsrc, hdst, hflags, hl4, hpay⟩ := h.decode_rest
  refine ⟨_, _, buildTcpFrame_eq happ hlen.ge, hlen, h.parse_eq hlen, hsrc, hdst, h.decode_tuple, hflags, ?_, ?_, hpay,
    ipValid_segmentFrame, l4Valid_segmentFrame⟩
  · rw [hl4, h.seq, bswap32_bswap32]
  · rw [hl4, h.ack, bswap32_bswap32]

/-- A SYN from 10.0.1.10:61000 to 10.0.1.1:80. -/
def synSegment : Segment := ⟨#v[2, 0, 0, 0, 0, 2], 0x0A01000A, 0x0101000A, 61000, 80, TCP_SYN, 7, 0⟩

/-- The SYN in a buffer of 2048 bytes. -/
theorem buildTcpFrame_parses_syn :
    ∃ m p, buildTcpFrame #v[2, 0, 0, 0, 0, 1] synSegment.mac synSegment (Mbuf.ofBytes [] 2048 (by decide)) =
        .ok (some m) ∧ parse m = .ok (.ok, p) ∧ p.srcIp = 0x0A01000A ∧ p.tcpFlags = TCP_SYN ∧ IpValid m 14 ∧
      L4Valid m p := by
  obtain ⟨m, p, hm, -, hp, -, -, ht, hflags, -, -, -, hip, hl4⟩ :=
    @buildTcpFrame_parses #v[2, 0, 0, 0, 0, 1] synSegment.mac synSegment (Mbuf.ofBytes [] 2048 (by decide)) rfl
      (by decide)
  exact ⟨m, p, hm, hp, congrArg FiveTuple.srcIp ht, hflags, hip, hl4⟩

end L4Lb
