/-
# What `nat_rewrite_icmp_error` makes of an ICMP error

A translated ICMP error is one that `parse` and `parse_icmp_error` accept again.
It quotes the packet under the given tuple and goes between the given
addresses, all three checksums around the quoted packet are valid, the TTL is
one less, and no byte has changed that is not there for one of these.

The order of the steps matters: the quoted header is part of the message that
the ICMP checksum covers. Both header lengths are arbitrary.
-/
import L4Lb.Forward.Valid
import L4Lb.Parser.Grammar

open Checked OnesComplement

namespace L4Lb

/-- The ICMP error after `nat_rewrite_icmp_error`. -/
def translatedError (m : Mbuf) (p : PacketMeta) (info : IcmpErrorInfo) (outerSrc outerDst : IPv4Addr)
    (inner : FiveTuple) (srcMac dstMac : MacAddr) : Mbuf :=
  clearTxOffload (((icmpFrame (ipFrame (innerFrame m info inner) 14 outerSrc outerDst) p.l4Offset
    (p.totalLen - p.l4Offset)).setMac 0 dstMac).setMac 6 srcMac)

/-- The bytes that are written: MACs, TTL, checksum and addresses of the outer
header, the ICMP checksum, and checksum, addresses and ports of the quoted
packet. -/
def ErrorWritten (p : PacketMeta) (info : IcmpErrorInfo) (i : ℕ) : Prop :=
  i < 12 ∨ i = 22 ∨ (24 ≤ i ∧ i < 34) ∨ (p.l4Offset + 2 ≤ i ∧ i < p.l4Offset + 4) ∨
    (info.innerL3Offset + 10 ≤ i ∧ i < info.innerL3Offset + 20) ∨
    (info.innerL4Offset ≤ i ∧ i < info.innerL4Offset + 4)

/-- The frame `r`, in which `parse` finds `q`, is the error `m` translated. -/
structure ErrorEffect (m : Mbuf) (p : PacketMeta) (info : IcmpErrorInfo) (outerSrc outerDst : IPv4Addr)
    (inner : FiveTuple) (r : Mbuf) (q : PacketMeta) : Prop where
  length : r.dataLen = m.dataLen ∧ r.rest = m.rest
  parsed : parse r = .ok (.ok, q)
  quoted : parseIcmpError r q = .ok (some { info with inner := inner })
  addresses : q.srcIp = outerSrc ∧ q.dstIp = outerDst
  ttl : q.ipTtl.toNat + 1 = p.ipTtl.toNat
  ipValid : IpValid r 14
  quotedValid : IpValid r info.innerL3Offset
  icmpValid : IcmpValid r q
  unchanged : ∀ i, ¬ ErrorWritten p info i → r.byte i = m.byte i

/-! ### The quoted packet -/

/-- `parse_icmp_error` decides by these bytes. -/
theorem Mbuf.QuoteOk.congr {m m' : Mbuf} {l4 stop : ℕ} (h : m.QuoteOk l4 stop)
    (hb : ∀ i, i = l4 ∨ (l4 + 8 ≤ i ∧ i < l4 + 18) → m'.byte i = m.byte i) :
    m'.QuoteOk l4 stop ∧ m'.ihlOf (l4 + 8) = m.ihlOf (l4 + 8) := by
  have eihl : m'.ihlOf (l4 + 8) = m.ihlOf (l4 + 8) := 
    Mbuf.ihlOf_congr (hb _ (by omega))
  refine ⟨?_, eihl⟩
  unfold Mbuf.QuoteOk Mbuf.be16 at h ⊢
  rw [eihl, hb _ (by omega), hb _ (by omega), hb _ (by omega), hb _ (by omega), hb _ (by omega)]
  exact h

/-- The quoted packet, by the tuple in its headers. -/
theorem quoteOf_eq (m : Mbuf) (l4 : ℕ) : m.quoteOf l4 =
    ⟨l4 + 8, l4 + 8 + m.ihlOf (l4 + 8), tupleAt m (l4 + 8) (l4 + 8 + m.ihlOf (l4 + 8))⟩ := rfl

theorem tupleAt_congr {m m' : Mbuf} {ip l4 : ℕ} (hl4 : ip ≤ l4) (h : ∀ i, ip ≤ i → m'.byte i = m.byte i) :
    tupleAt m' ip l4 = tupleAt m ip l4 := by
  unfold tupleAt
  rw [Mbuf.get32_congr fun i _ _ => h i (by omega), Mbuf.get32_congr fun i _ _ => h i (by omega),
    Mbuf.get16_congr (h _ (by omega)) (h _ (by omega)), Mbuf.get16_congr (h _ (by omega)) (h _ (by omega)),
    h _ (by omega)]

section Inner

variable {m : Mbuf} {info : IcmpErrorInfo} (inner : FiveTuple)

theorem innerFrame_byte_of {i : ℕ} (h3 : i < info.innerL3Offset + 10 ∨ info.innerL3Offset + 20 ≤ i)
    (h4 : i < info.innerL4Offset ∨ info.innerL4Offset + 4 ≤ i) : (innerFrame m info inner).byte i = m.byte i := by
  unfold innerFrame
  simp (disch := omega) only [Mbuf.byte_set16_of, Mbuf.byte_set32_of]

/-- The tuple is in the quoted headers. -/
theorem innerFrame_tuple (h : info.innerL3Offset + 20 ≤ info.innerL4Offset) :
    tupleAt (innerFrame m info inner) info.innerL3Offset info.innerL4Offset =
      { inner with protocol := m.byte (info.innerL3Offset + 9) } := by
  have hsrc : (innerFrame m info inner).get32 (info.innerL3Offset + 12) = inner.srcIp := by
    refine (Mbuf.get32_congr fun i _ _ => ?_).trans (Mbuf.get32_set32 m _ inner.srcIp)
    unfold innerFrame
    simp (disch := omega) only [Mbuf.byte_set16_of, Mbuf.byte_set32_of]
  have hdst : (innerFrame m info inner).get32 (info.innerL3Offset + 16) = inner.dstIp := by
    refine (Mbuf.get32_congr fun i _ _ => ?_).trans
      (Mbuf.get32_set32 (m.set32 (info.innerL3Offset + 12) inner.srcIp) _ inner.dstIp)
    unfold innerFrame
    simp (disch := omega) only [Mbuf.byte_set16_of]
  have hsp : (innerFrame m info inner).get16 info.innerL4Offset = inner.srcPort := by
    unfold innerFrame
    rw [Mbuf.get16_congr (Mbuf.byte_set16_of _ (by omega)) (Mbuf.byte_set16_of _ (by omega)), Mbuf.get16_set16]
  have hdp : (innerFrame m info inner).get16 (info.innerL4Offset + 2) = inner.dstPort := Mbuf.get16_set16 _ _ _
  rw [tupleAt, hsrc, hdst, hsp, hdp, innerFrame_byte_of inner (by omega) (by omega)]

/-- The checksum of the quoted header is computed over the header with the new
addresses; the ports are behind it. -/
theorem innerFrame_valid (h20 : 20 ≤ m.ihlOf info.innerL3Offset)
    (h4 : info.innerL4Offset = info.innerL3Offset + m.ihlOf info.innerL3Offset) :
    IpValid (innerFrame m info inner) info.innerL3Offset := by
  set m2 := (m.set32 (info.innerL3Offset + 12) inner.srcIp).set32 (info.innerL3Offset + 16) inner.dstIp with hm2
  set F := m2.set16 (info.innerL3Offset + 10) (ipSum m2 info.innerL3Offset) with hF
  have eihl : m2.ihlOf info.innerL3Offset = m.ihlOf info.innerL3Offset := by
    apply Mbuf.ihlOf_congr
    rw [hm2, Mbuf.byte_set32_of _ (by omega), Mbuf.byte_set32_of _ (by omega)]
  have eihlF : F.ihlOf info.innerL3Offset = m.ihlOf info.innerL3Offset := by
    rw [hF, Mbuf.ihlOf_set16 _ (by omega), eihl]
  have hb : ∀ i, info.innerL3Offset ≤ i → i < info.innerL3Offset + F.ihlOf info.innerL3Offset →
      (innerFrame m info inner).byte i = F.byte i := fun i _ hi => by
    show ((F.set16 info.innerL4Offset inner.srcPort).set16 (info.innerL4Offset + 2) inner.dstPort).byte i = _
    rw [Mbuf.byte_set16_of _ (by omega), Mbuf.byte_set16_of _ (by omega)]
  have eihl' : (innerFrame m info inner).ihlOf info.innerL3Offset = F.ihlOf info.innerL3Offset :=
    Mbuf.ihlOf_congr (hb _ le_rfl (by omega))
  have hv : IpValid F info.innerL3Offset := ipValid_set16 (eihl ▸ h20)
  unfold IpValid at hv ⊢
  rw [eihl', wsum_congr hb]
  exact hv

end Inner

/-! ### The whole frame -/

section Whole

variable {m : Mbuf} {p : PacketMeta} {info : IcmpErrorInfo} (outerSrc outerDst : IPv4Addr) (inner : FiveTuple)
  (srcMac dstMac : MacAddr)

/-- The last steps write the MACs and the ICMP checksum. -/
theorem translatedError_byte_ip {i : ℕ} (h12 : 12 ≤ i) (hi : i < p.l4Offset + 2 ∨ p.l4Offset + 4 ≤ i) :
    (translatedError m p info outerSrc outerDst inner srcMac dstMac).byte i =
      (ipFrame (innerFrame m info inner) 14 outerSrc outerDst).byte i := by
  show (((icmpFrame _ _ _).setMac 0 dstMac).setMac 6 srcMac).byte i = _
  rw [Mbuf.byte_setMac_of _ (by omega), Mbuf.byte_setMac_of _ (by omega), icmpFrame,
    Mbuf.byte_set16_of _ (by omega)]

/-- What is not written stays. -/
theorem translatedError_byte {i : ℕ} (hi : ¬ ErrorWritten p info i) :
    (translatedError m p info outerSrc outerDst inner srcMac dstMac).byte i = m.byte i := by
  unfold ErrorWritten at hi
  rw [translatedError_byte_ip _ _ _ _ _ (by omega) (by omega), ipFrame_byte _ _ (by omega),
    innerFrame_byte_of inner (by omega) (by omega)]

variable (h : Parsed m p) (hq : Quoted m p info)

include h hq

/-- The outer header, the ICMP type and the fields of the quoted header that
`parse_icmp_error` looks at are not written. -/
theorem not_errorWritten {i : ℕ} (hi : (12 ≤ i ∧ i < 22) ∨ i = 23 ∨ i = p.l4Offset ∨
      (info.innerL3Offset ≤ i ∧ i < info.innerL3Offset + 10)) : ¬ ErrorWritten p info i := by
  have hl3 := hq.l3
  have hl4 := h.l4
  have hihl := h.ihl
  have hq4 := hq.l4
  have hqihl := hq.ihl
  unfold ErrorWritten
  omega

theorem translatedError_sameLayout (hicmp : p.ipProtocol = 1) :
    SameLayout m (translatedError m p info outerSrc outerDst inner srcMac dstMac) := by
  have htot : m.stopOf = p.totalLen := by
    rw [h.total, Mbuf.totalOf, Mbuf.toNat_bswap16_get16]
    rfl
  have hp : m.byte 23 = 1 := h.protocol.symm.trans hicmp
  refine ⟨htot.trans_le h.total_le, fun i h12 hi => ?_, fun h6 => ?_, fun h17 => ?_⟩
  · exact translatedError_byte _ _ _ _ _ (not_errorWritten h hq (by omega))
  · exact absurd (hp.symm.trans h6) (by decide)
  · exact absurd (hp.symm.trans h17) (by decide)

/-- The quoted packet in the frame: its header is where it was, with the new
tuple and a valid checksum. -/
theorem translatedError_quote (hok : m.QuoteOk p.l4Offset p.totalLen)
    (hproto : inner.protocol = info.inner.protocol) :
    let r := translatedError m p info outerSrc outerDst inner srcMac dstMac
    r.QuoteOk p.l4Offset p.totalLen ∧ r.quoteOf p.l4Offset = { info with inner := inner } ∧
      IpValid r info.innerL3Offset := by
  intro r
  have hl3 := hq.l3
  have hl4 := h.l4
  have hihl := h.ihl
  obtain ⟨hokr, eihl⟩ : r.QuoteOk p.l4Offset p.totalLen ∧ r.ihlOf (p.l4Offset + 8) = m.ihlOf (p.l4Offset + 8) :=
    hok.congr fun i hi => translatedError_byte _ _ _ _ _ (not_errorWritten h hq (by omega))
  have hquote : ∀ i, info.innerL3Offset ≤ i → r.byte i = (innerFrame m info inner).byte i := fun i hi => by
    rw [translatedError_byte_ip _ _ _ _ _ (by omega) (by omega), ipFrame_byte _ _ (by omega)]
  refine ⟨hokr, ?_, ?_⟩
  · have hil4 : p.l4Offset + 8 + m.ihlOf (p.l4Offset + 8) = info.innerL4Offset := by rw [hq.l4, hl3]
    have h20 : info.innerL3Offset + 20 ≤ info.innerL4Offset := by rw [hq.l4]; exact Nat.add_le_add_left hq.ihl _
    have ht : tupleAt r info.innerL3Offset info.innerL4Offset = inner := by
      have hp9 : m.byte (info.innerL3Offset + 9) = inner.protocol := by rw [hproto, hq.inner]
      rw [tupleAt_congr (by omega) hquote, innerFrame_tuple inner (by omega), hp9]
    rw [quoteOf_eq, eihl, hil4, ← hl3, ht]
  · have eihl' : r.ihlOf info.innerL3Offset = (innerFrame m info inner).ihlOf info.innerL3Offset :=
      Mbuf.ihlOf_congr (hquote _ le_rfl)
    unfold IpValid
    rw [eihl', wsum_congr fun i hi _ => hquote i hi]
    exact innerFrame_valid inner hq.ihl hq.l4

end Whole

/-- **The effect of `nat_rewrite_icmp_error`**, on every ICMP error that `parse`
and `parse_icmp_error` accept. -/
theorem natRewriteIcmpError_effect {m : Mbuf} {p : PacketMeta} {info : IcmpErrorInfo}
    (hp : parse m = .ok (.ok, p)) (heth : p.etherType = 0x0800) (hicmp : p.ipProtocol = 1)
    (hinfo : parseIcmpError m p = .ok (some info)) (outerSrc outerDst : IPv4Addr) (inner : FiveTuple)
    (hproto : inner.protocol = info.inner.protocol) (srcMac dstMac : MacAddr) :
    (p.ipTtl ≤ 1 → natRewriteIcmpError m p info outerSrc outerDst inner srcMac dstMac = .ok (.ttlExceeded, m)) ∧
    (1 < p.ipTtl → ∃ r q, natRewriteIcmpError m p info outerSrc outerDst inner srcMac dstMac = .ok (.ok, r) ∧
      ErrorEffect m p info outerSrc outerDst inner r q) := by
  have h := parsed_of_parse hp heth
  obtain ⟨hq, hok, -⟩ := quoted_of_parseIcmpError h hicmp hinfo
  have heq := natRewriteIcmpError_eq h hq outerSrc outerDst inner srcMac dstMac
  rw [← h.ttl] at heq
  refine ⟨fun httl => by rw [heq, if_pos httl], fun httl => ?_⟩
  have hno : ¬ p.ipTtl ≤ 1 := UInt8.not_le.mpr httl
  rw [if_neg hno] at heq
  have hihl := h.ihl
  have hl4 := h.l4
  have hl3 := hq.l3
  have hq4 := hq.l4
  have hqihl := hq.ihl
  obtain ⟨hparse, hrq, hl4q, htotq⟩ := h.parse_of_sameLayout (decode_of_parse hp heth).1
    (translatedError_sameLayout outerSrc outerDst inner srcMac dstMac h hq hicmp)
  obtain ⟨hipv, hicmpv⟩ := icmpFrame_valid h hq outerSrc outerDst inner srcMac dstMac
  obtain ⟨hokr, hinfor, hqv⟩ := translatedError_quote outerSrc outerDst inner srcMac dstMac h hq hok hproto
  rw [← translatedError] at heq hipv hicmpv
  set r := translatedError m p info outerSrc outerDst inner srcMac dstMac
  have hrp : (decode r).ipProtocol = 1 := by
    rw [hrq.protocol, ← hicmp, h.protocol]
    exact translatedError_byte _ _ _ _ _ (not_errorWritten h hq (by omega))
  have houter : ∀ i, 12 ≤ i → i < p.l4Offset →
      r.byte i = (ipFrame (innerFrame m info inner) 14 outerSrc outerDst).byte i := fun i h12 hi =>
    translatedError_byte_ip _ _ _ _ _ h12 (by omega)
  refine ⟨r, decode r, heq, ⟨rfl, rfl⟩, hparse, ?_, ⟨?_, ?_⟩, ?_, hipv, hqv, ?_,
    fun i hi => translatedError_byte _ _ _ _ _ hi⟩
  · rw [parseIcmpError_eq hrq hrp, hl4q, htotq, if_pos hokr, hinfor]
  · rw [hrq.srcIp, Mbuf.get32_congr fun i _ _ => houter i (by omega) (by omega)]
    exact ipFrame_srcIp _ _ _ _
  · rw [hrq.dstIp, Mbuf.get32_congr fun i _ _ => houter i (by omega) (by omega)]
    exact ipFrame_dstIp _ _ _ _
  · have h22 : (innerFrame m info inner).byte 22 = m.byte 22 := innerFrame_byte inner (by omega) (by omega)
    rw [hrq.ttl, h.ttl, ← h22, houter 22 (by omega) (by omega)]
    exact ipFrame_ttl _ _ (by rw [h22, ← h.ttl]; exact hno)
  · unfold IcmpValid at hicmpv ⊢
    rw [hl4q, htotq]
    exact hicmpv

end L4Lb
