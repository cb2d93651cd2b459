/-
# The checksums of rewritten frames

Which checksums of a frame are valid after `nat_rewrite` and
`nat_rewrite_icmp_error`, and what that says about the frame before. The IPv4
header checksum is computed anew and always valid afterwards. The L4 checksum
is computed anew if a TCP option was edited; otherwise the incremental updates
keep the sum a receiver folds, modulo 65535, so it is valid if and only if it
was before. Both computations give the same checksum, except where the sender
used the other zero.
-/
import L4Lb.Forward.Spec

open Checked OnesComplement

namespace L4Lb

/-! ### What a receiver checks -/

/-- The header checksum of the IPv4 header at `ip`. -/
def IpValid (m : Mbuf) (ip : ℕ) : Prop := Valid (wsum m.byte ip (m.ihlOf ip))

/-- What a receiver adds up to check a segment of `len` bytes at `l4`. -/
def segSum (m : Mbuf) (ip l4 len : ℕ) : ℕ := pseudoSum m ip len + wsum m.byte l4 len

/-- The length of the TCP segment or the UDP datagram. -/
def segLen (m : Mbuf) (p : PacketMeta) : ℕ :=
  if p.ipProtocol = 6 then m.totalOf 14 - m.ihlOf 14 else m.udpLenOf p.l4Offset

/-- The L4 checksum of the frame; a UDP checksum of 0 is none. -/
def L4Valid (m : Mbuf) (p : PacketMeta) : Prop :=
  (p.ipProtocol = 17 ∧ m.get16 (p.l4Offset + 6) = 0) ∨ Valid (segSum m 14 p.l4Offset (segLen m p))

/-- The checksum of the ICMP message in the frame. -/
def IcmpValid (m : Mbuf) (p : PacketMeta) : Prop := Valid (wsum m.byte p.l4Offset (p.totalLen - p.l4Offset))

instance (m : Mbuf) (ip : ℕ) : Decidable (IpValid m ip) := by unfold IpValid; infer_instance

instance (m : Mbuf) (p : PacketMeta) : Decidable (L4Valid m p) := by unfold L4Valid; infer_instance

instance (m : Mbuf) (p : PacketMeta) : Decidable (IcmpValid m p) := by unfold IcmpValid; infer_instance

/-! ### Writing a computed checksum -/

/-- The word written at an even offset counts in the sum. -/
theorem wsum_set16 (m : Mbuf) (off : ℕ) {k n : ℕ} (hk : k % 2 = 0) (hn : k + 2 ≤ n) (v : UInt16) :
    wsum (m.set16 (off + k) v).byte off n = wsum (m.set16 (off + k) 0).byte off n + v.toNat := by
  have split : ∀ v : UInt16, wsum (m.set16 (off + k) v).byte off n =
      wsum m.byte off k + (v.toNat + wsum m.byte (off + k + 2) (n - (k + 2))) := fun v => by
    rw [show n = k + (2 + (n - (k + 2))) by omega, wsum_add _ _ _ _ hk, wsum_add _ _ _ _ rfl, wsum_two,
      ← Mbuf.get16_toNat, Mbuf.get16_set16, wsum_congr fun i _ _ => Mbuf.byte_set16_of v (by omega),
      wsum_congr fun i _ _ => Mbuf.byte_set16_of v (by omega), show k + (2 + (n - (k + 2))) = n by omega]
  rw [split v, split 0]
  show _ = _ + (0 + _) + _
  omega

theorem wsum_pos {b : ℕ → UInt8} {off n : ℕ} (hb : 0 < (b off).toNat) (hn : 0 < n) : 0 < wsum b off n := by
  unfold wsum
  rw [show n = (n - 1) + 1 by omega, Finset.sum_range_succ']
  simp only [Nat.add_zero, Nat.zero_mod, pow_zero, Nat.mul_one]
  omega

/-- A sum whose checksum has been computed with 0 in its place is valid. -/
theorem valid_set16_finish {m : Mbuf} {off k n x : ℕ} (hk : k % 2 = 0) (hn : k + 2 ≤ n)
    (hpos : 0 < x + wsum (m.set16 (off + k) 0).byte off n)
    (hlt : x + wsum (m.set16 (off + k) 0).byte off n < 2 ^ 32) :
    Valid (x + wsum (m.set16 (off + k)
      (finish (x + wsum (m.set16 (off + k) 0).byte off n))).byte off n) := by
  rw [wsum_set16 m off hk hn, finish_toNat hlt, ← Nat.add_assoc]
  exact valid_add_compl hpos

theorem ipValid_set16 {m : Mbuf} {ip : ℕ} (h20 : 20 ≤ m.ihlOf ip) :
    IpValid (m.set16 (ip + 10) (ipSum m ip)) ip := by
  have h60 := m.ihlOf_le ip
  have hle := wsum_le (m.set16 (ip + 10) 0).byte ip (m.ihlOf ip)
  have hb : 0 < (m.byte ip).toNat := by unfold Mbuf.ihlOf at h20; omega
  have hpos : 0 < wsum (m.set16 (ip + 10) 0).byte ip (m.ihlOf ip) :=
    wsum_pos (by rw [Mbuf.byte_set16_of 0 (by omega)]; exact hb) (by omega)
  unfold IpValid
  rw [Mbuf.ihlOf_set16 _ (by omega)]
  have := @valid_set16_finish m ip 10 (m.ihlOf ip) 0 rfl (by omega) (by omega) (by omega)
  rwa [Nat.zero_add, Nat.zero_add] at this

theorem ipFrame_valid {m : Mbuf} {ip : ℕ} (h20 : 20 ≤ m.ihlOf ip) (srcIp dstIp : IPv4Addr) :
    IpValid (ipFrame m ip srcIp dstIp) ip := by
  apply ipValid_set16
  rw [Mbuf.ihlOf_congr (m := m) (by simp (disch := omega) only [Mbuf.byte_set8_of, Mbuf.byte_set32_of])]
  exact h20

/-! ### The sum of a segment -/

namespace L4Checksum

theorem res_hi (ip : IPv4Addr) : res (hi ip) = ((ip.toNat / 65536 : ℕ) : ZMod 65535) := by
  have := ip.toNat_lt
  unfold res hi
  rw [UInt16.toNat_ofNat', Nat.mod_eq_of_lt (by omega)]

theorem res_lo (ip : IPv4Addr) : res (lo ip) = ((ip.toNat % 65536 : ℕ) : ZMod 65535) := by
  unfold res lo
  rw [UInt16.toNat_ofNat', Nat.mod_eq_of_lt (by omega)]

/-- What the addresses and ports of a packet add to the sum. -/
def resTuple (t : FiveTuple) : ZMod 65535 := resIp t.srcIp + resIp t.dstIp + res t.srcPort + res t.dstPort

theorem res_tcpInc (c : UInt16) (old new : FiveTuple) :
    res (tcpInc c old new) = res c + resTuple old - resTuple new := by
  unfold tcpInc resTuple
  rw [res_incrementalUpdate, res_incrementalUpdate, res_incIp, res_incIp]
  ring

theorem res_udpInc (c : UInt16) (old new : FiveTuple) :
    res (udpInc c old new) = res c + resTuple old - resTuple new := by
  unfold udpInc resTuple
  simp only [res_udpFix, res_incrementalUpdate, res_incIp]
  ring

theorem tcpInc_ne {c : UInt16} (old new : FiveTuple) (h : c ≠ 0xFFFF) : tcpInc c old new ≠ 0xFFFF :=
  incrementalUpdate_ne _ _ (incrementalUpdate_ne _ _ (incIp_ne _ _ (incIp_ne _ _ h)))

end L4Checksum

open L4Checksum

/-- The part of the sum that a rewrite leaves alone. -/
def segRest (m : Mbuf) (ip l4 ck len : ℕ) : ℕ :=
  (bswap16 (UInt16.ofNat (m.byte (ip + 9)).toNat)).toNat + (bswap16 (UInt16.ofNat len)).toNat +
    wsum m.byte (l4 + 4) (ck - 4) + wsum m.byte (l4 + ck + 2) (len - (ck + 2))

/-- The tuple in the headers of a frame. -/
def tupleAt (m : Mbuf) (ip l4 : ℕ) : FiveTuple :=
  ⟨m.get32 (ip + 12), m.get32 (ip + 16), m.get16 l4, m.get16 (l4 + 2), m.byte (ip + 9)⟩

theorem wsum_segment (m : Mbuf) (l4 : ℕ) {ck len : ℕ} (hck : ck % 2 = 0) (h4 : 4 ≤ ck) (hlen : ck + 2 ≤ len) :
    wsum m.byte l4 len = (m.get16 l4).toNat + (m.get16 (l4 + 2)).toNat + wsum m.byte (l4 + 4) (ck - 4) +
      (m.get16 (l4 + ck)).toNat + wsum m.byte (l4 + ck + 2) (len - (ck + 2)) := by
  have e : len = 2 + (2 + ((ck - 4) + (2 + (len - (ck + 2))))) := by omega
  rw [e, wsum_add _ _ _ _ rfl, wsum_add _ _ _ _ rfl, wsum_add _ _ _ _ (by omega), wsum_add _ _ _ _ rfl, ← e,
    wsum_two, wsum_two, wsum_two, Mbuf.get16_toNat, Mbuf.get16_toNat, Mbuf.get16_toNat,
    show l4 + 2 + 2 = l4 + 4 by omega, show l4 + 4 + (ck - 4) = l4 + ck by omega]
  omega

theorem segSum_cast (m : Mbuf) (ip l4 : ℕ) {ck len : ℕ} (hck : ck % 2 = 0) (h4 : 4 ≤ ck)
    (hlen : ck + 2 ≤ len) :
    ((segSum m ip l4 len : ℕ) : ZMod 65535) =
      resTuple (tupleAt m ip l4) + segRest m ip l4 ck len + res (m.get16 (l4 + ck)) := by
  unfold segSum pseudoSum calculatePseudoHeaderSum resTuple tupleAt segRest resIp
  rw [wsum_segment m l4 hck h4 hlen, res_hi, res_hi, res_lo, res_lo]
  unfold res
  push_cast
  ring

theorem pseudoSum_lt (m : Mbuf) (ip len : ℕ) : pseudoSum m ip len < 393216 := by
  have h1 := (m.get32 (ip + 12)).toNat_lt
  have h2 := (m.get32 (ip + 16)).toNat_lt
  have h3 := (bswap16 (UInt16.ofNat (m.byte (ip + 9)).toNat)).toNat_lt
  have h4 := (bswap16 (UInt16.ofNat len)).toNat_lt
  unfold pseudoSum calculatePseudoHeaderSum
  omega

section Recalculated

variable {m : Mbuf} {ip l4 ck len : ℕ}

/-- The sum with 0 for the checksum, as the full computations form it. -/
theorem segSum_zero_pos (hproto : m.byte (ip + 9) = 6 ∨ m.byte (ip + 9) = 17) (b : ℕ → UInt8) :
    0 < pseudoSum m ip len + wsum b l4 len := by
  have hp : 0 < (bswap16 (UInt16.ofNat (m.byte (ip + 9)).toNat)).toNat := by
    rcases hproto with h | h <;> rw [h] <;> decide
  unfold pseudoSum calculatePseudoHeaderSum
  omega

theorem segSum_zero_lt (hlen : len ≤ 65535) (b : ℕ → UInt8) :
    pseudoSum m ip len + wsum b l4 len < 2 ^ 32 := by
  have h1 := pseudoSum_lt m ip len
  have h2 := wsum_le b l4 len
  omega

theorem segSum_eq_add (hck : ck % 2 = 0) (hlen : ck + 2 ≤ len) : segSum m ip l4 len =
    pseudoSum m ip len + wsum (m.set16 (l4 + ck) 0).byte l4 len + (m.get16 (l4 + ck)).toNat := by
  have := wsum_set16 m l4 hck hlen (m.get16 (l4 + ck))
  rw [Mbuf.set16_get16] at this
  unfold segSum
  omega

/-- With the checksum of the full computation the segment is valid. -/
theorem segSum_valid (hip : ip + 20 ≤ l4) (hck : ck % 2 = 0) (hlen : ck + 2 ≤ len) (hlen' : len ≤ 65535)
    (hproto : m.byte (ip + 9) = 6 ∨ m.byte (ip + 9) = 17) :
    Valid (segSum (m.set16 (l4 + ck)
      (finish (pseudoSum m ip len + wsum (m.set16 (l4 + ck) 0).byte l4 len))) ip l4 len) := by
  unfold segSum
  rw [pseudoSum_set16 (by omega)]
  exact valid_set16_finish hck hlen (segSum_zero_pos hproto _) (segSum_zero_lt hlen' _)

/-- A valid checksum and the one of the full computation are the same modulo
65535. -/
theorem res_finish_of_valid (hck : ck % 2 = 0) (hlen : ck + 2 ≤ len) (hlen' : len ≤ 65535)
    (hv : Valid (segSum m ip l4 len)) :
    res (finish (pseudoSum m ip len + wsum (m.set16 (l4 + ck) 0).byte l4 len)) = res (m.get16 (l4 + ck)) := by
  have h0 := (valid_iff.mp hv).2
  rw [segSum_eq_add hck hlen] at h0
  unfold res
  rw [finish_toNat (segSum_zero_lt hlen' _), compl_cast]
  push_cast at h0 ⊢
  linear_combination -h0

/-- Recalculating a valid TCP checksum changes nothing, unless it is all ones. -/
theorem tcpSum_eq_of_valid (hlen : 18 ≤ len) (hlen' : len ≤ 65535)
    (hproto : m.byte (ip + 9) = 6 ∨ m.byte (ip + 9) = 17) (hv : Valid (segSum m ip l4 len))
    (hne : m.get16 (l4 + 16) ≠ 0xFFFF) : tcpSum m ip l4 len = m.get16 (l4 + 16) := by
  have hres := @res_finish_of_valid m ip l4 16 len rfl hlen hlen' hv
  have h1 : (tcpSum m ip l4 len).toNat < 65535 := by
    unfold tcpSum
    rw [finish_toNat (segSum_zero_lt hlen' _)]
    exact compl_lt (segSum_zero_pos hproto _)
  have h2 : (m.get16 (l4 + 16)).toNat < 65535 := by
    have := (m.get16 (l4 + 16)).toNat_lt
    have : (m.get16 (l4 + 16)).toNat ≠ 65535 := fun e => hne (UInt16.toNat_inj.mp e)
    omega
  have h3 := (ZMod.natCast_eq_natCast_iff' _ _ _).mp hres
  apply UInt16.toNat_inj.mp
  rwa [← tcpSum, Nat.mod_eq_of_lt h1, Nat.mod_eq_of_lt h2] at h3

/-- Recalculating a valid UDP checksum changes nothing. -/
theorem udpSum_eq_of_valid (hlen : 8 ≤ m.udpLenOf l4) (hlen' : m.udpLenOf l4 ≤ 65535)
    (hv : Valid (segSum m ip l4 (m.udpLenOf l4))) (hne : m.get16 (l4 + 6) ≠ 0) :
    udpSum m ip l4 = m.get16 (l4 + 6) := by
  have pos : ∀ {x : UInt16}, x ≠ 0 → 0 < x.toNat := fun {x} hx =>
    Nat.pos_of_ne_zero fun e => hx (UInt16.toNat_inj.mp e)
  have le : ∀ x : UInt16, x.toNat ≤ 65535 := fun x => Nat.le_of_lt_succ x.toNat_lt
  apply UInt16.toNat_inj.mp
  refine eq_of_cast (pos (udpFix_ne_zero _)) (le _) (pos hne) (le _) ?_
  show res (udpFix _) = res _
  rw [res_udpFix]
  exact res_finish_of_valid rfl hlen hlen' hv

end Recalculated

theorem segSum_pos {m : Mbuf} {ip : ℕ} (l4 len : ℕ) (h : m.byte (ip + 9) = 6 ∨ m.byte (ip + 9) = 17) :
    0 < segSum m ip l4 len := segSum_zero_pos h m.byte

/-- The sums read the bytes of the frame only. -/
theorem segSum_of_byte {m m' : Mbuf} (h : m'.byte = m.byte) (p : PacketMeta) :
    segSum m' 14 p.l4Offset (segLen m' p) = segSum m 14 p.l4Offset (segLen m p) := by
  unfold segSum segLen pseudoSum Mbuf.totalOf Mbuf.ihlOf Mbuf.udpLenOf Mbuf.get16 Mbuf.get32
  rw [h]

theorem Parsed.tupleAt {m : Mbuf} {p : PacketMeta} (h : Parsed m p)
    (hproto : p.ipProtocol = 6 ∨ p.ipProtocol = 17) : tupleAt m 14 p.l4Offset = p.toFiveTuple := by
  obtain ⟨hsp, hdp⟩ := h.ports hproto
  unfold L4Lb.tupleAt PacketMeta.toFiveTuple
  rw [h.srcIp, h.dstIp, hsp, hdp, h.protocol]

/-- The offset of the checksum is even and inside the segment. -/
theorem Parsed.ckOffset_le {m : Mbuf} {p : PacketMeta} (h : Parsed m p)
    (hproto : p.ipProtocol = 6 ∨ p.ipProtocol = 17) :
    ckOffset p.ipProtocol % 2 = 0 ∧ 4 ≤ ckOffset p.ipProtocol ∧ ckOffset p.ipProtocol + 2 ≤ segLen m p ∧
      ckOffset p.ipProtocol + 4 ≤ 20 ∧ p.l4Offset + segLen m p ≤ p.totalLen := by
  have htot := h.total
  have hl4 := h.l4
  have hle := h.l4_le
  unfold ckOffset segLen
  rcases hproto with htcp | hudp
  · obtain ⟨hdoff, hpay, hple, -⟩ := h.tcp htcp
    rw [if_pos htcp, if_pos htcp]
    omega
  · obtain ⟨h8, hule, -⟩ := h.udp hudp
    have h6 : p.ipProtocol ≠ 6 := by rw [hudp]; decide
    rw [if_neg h6, if_neg h6]
    omega

/-! ### The rewritten frame -/

namespace Rewritten

variable {m m1 r : Mbuf} {p p1 : PacketMeta} {rw : NatRewrite} {opt : NatOptions} {edited : Bool} {c : UInt16}

section

variable (h : Rewritten m p rw opt edited m1 p1 c r) (hproto : p.ipProtocol = 6 ∨ p.ipProtocol = 17)

include h hproto

theorem ckOffset_le : ckOffset p.ipProtocol % 2 = 0 ∧ 4 ≤ ckOffset p.ipProtocol ∧
    ckOffset p.ipProtocol + 2 ≤ segLen m1 p1 ∧ ckOffset p.ipProtocol + 4 ≤ 20 ∧
    p.l4Offset + segLen m1 p1 ≤ p1.totalLen := by
  have := h.parsed.ckOffset_le (h.protocol ▸ hproto)
  rwa [h.protocol, h.l4] at this

/-- Step 3 and the MACs leave the IP header alone. -/
theorem byte_ip {i : ℕ} (h12 : 12 ≤ i) (hi : i < p.l4Offset) :
    r.byte i = (ipFrame m1 14 rw.srcIp rw.dstIp).byte i := by
  have hck := h.ckOffset_le hproto
  rw [h.byte i h12, l4Frame_byte _ _ _ (Or.inl hi) (by omega)]

/-- Behind the ports, all but the checksum is what it was. -/
theorem byte_l4 {i : ℕ} (hi : p.l4Offset + 4 ≤ i)
    (hck : i < p.l4Offset + ckOffset p.ipProtocol ∨ p.l4Offset + ckOffset p.ipProtocol + 2 ≤ i) :
    r.byte i = m1.byte i := by
  have hck' := h.ckOffset_le hproto
  have hihl := h.parsed.ihl
  have hl4 := h.parsed.l4
  rw [h.l4] at hl4
  rw [h.byte i (by omega), l4Frame_byte _ _ _ (Or.inr ⟨hi, hck⟩) (by omega), ipFrame_byte _ _ (by omega)]

theorem byte_header {i : ℕ} (h12 : 12 ≤ i) (hi : i < 22 ∨ i = 23) : r.byte i = m1.byte i := by
  have hihl := h.parsed.ihl
  have hl4 := h.parsed.l4
  rw [h.l4] at hl4
  rw [h.byte_ip hproto h12 (by omega), ipFrame_byte _ _ (by omega)]

theorem ihlOf : r.ihlOf 14 = m1.ihlOf 14 := Mbuf.ihlOf_congr (h.byte_header hproto (by omega) (by omega))

theorem totalOf : r.totalOf 14 = m1.totalOf 14 :=
  Mbuf.totalOf_congr fun i _ _ => h.byte_header hproto (by omega) (by omega)

theorem segLen : segLen r p1 = segLen m1 p1 := by
  have hck := h.ckOffset_le hproto
  unfold L4Lb.segLen
  rw [h.ihlOf hproto, h.totalOf hproto, h.l4, h.protocol]
  split
  · rfl
  · rename_i h6
    have h6' : ckOffset p.ipProtocol = 6 := if_neg h6
    exact Mbuf.udpLenOf_congr fun i _ _ => h.byte_l4 hproto (by omega) (by omega)

/-- The IP header checksum is valid, whatever it was. -/
theorem ipValid : IpValid r 14 := by
  have hihl := h.parsed.ihl
  have hl4 := h.parsed.l4
  rw [h.l4] at hl4
  have hv := ipFrame_valid h.parsed.ihl rw.srcIp rw.dstIp
  unfold IpValid at *
  have e : (ipFrame m1 14 rw.srcIp rw.dstIp).ihlOf 14 = m1.ihlOf 14 :=
    Mbuf.ihlOf_congr (ipFrame_byte _ _ (by omega))
  rw [h.ihlOf hproto, wsum_congr fun i _ _ => h.byte_ip hproto (by omega) (by omega), ← e]
  exact hv

/-- The new tuple is in the headers. -/
theorem tupleAt : tupleAt r 14 p.l4Offset = rw.tuple p.ipProtocol := by
  have hck := h.ckOffset_le hproto
  have hihl := h.parsed.ihl
  have hl4 := h.parsed.l4
  rw [h.l4] at hl4
  have e32 : ∀ off, 12 ≤ off → off + 4 ≤ p.l4Offset →
      r.get32 off = (ipFrame m1 14 rw.srcIp rw.dstIp).get32 off := fun off h1 h2 =>
    Mbuf.get32_congr fun i _ _ => h.byte_ip hproto (by omega) (by omega)
  have esp : r.get16 p.l4Offset = rw.srcPort := by
    rw [← Mbuf.get16_set16 (ipFrame m1 14 rw.srcIp rw.dstIp) p.l4Offset rw.srcPort]
    apply Mbuf.get16_congr <;> rw [h.byte _ (by omega)] <;> unfold l4Frame <;>
      simp (disch := omega) only [Mbuf.byte_set16_of]
  have edp : r.get16 (p.l4Offset + 2) = rw.dstPort := by
    rw [← Mbuf.get16_set16 ((ipFrame m1 14 rw.srcIp rw.dstIp).set16 p.l4Offset rw.srcPort) (p.l4Offset + 2)
      rw.dstPort]
    apply Mbuf.get16_congr <;> rw [h.byte _ (by omega)] <;> unfold l4Frame <;>
      simp (disch := omega) only [Mbuf.byte_set16_of]
  unfold L4Lb.tupleAt NatRewrite.tuple
  rw [e32 _ (by omega) (by omega), e32 _ (by omega) (by omega), ipFrame_srcIp, ipFrame_dstIp, esp, edp,
    h.byte_header hproto (by omega) (by omega), ← h.protocol, h.parsed.protocol]

omit hproto in
theorem checksum : r.get16 (p.l4Offset + ckOffset p.ipProtocol) = c := by
  have hihl := h.parsed.ihl
  have hl4 := h.parsed.l4
  rw [h.l4] at hl4
  rw [← Mbuf.get16_set16 (((ipFrame m1 14 rw.srcIp rw.dstIp).set16 p.l4Offset rw.srcPort).set16
    (p.l4Offset + 2) rw.dstPort) (p.l4Offset + ckOffset p.ipProtocol) c]
  apply Mbuf.get16_congr <;> rw [h.byte _ (by omega)] <;> rfl

theorem segRest : segRest r 14 p.l4Offset (ckOffset p.ipProtocol) (L4Lb.segLen r p1) =
    segRest m1 14 p.l4Offset (ckOffset p.ipProtocol) (L4Lb.segLen m1 p1) := by
  have hck := h.ckOffset_le hproto
  unfold L4Lb.segRest
  rw [h.segLen hproto, h.byte_header hproto (by omega) (by omega),
    wsum_congr fun i _ _ => h.byte_l4 hproto (by omega) (by omega),
    wsum_congr fun i _ _ => h.byte_l4 hproto (by omega) (by omega)]

/-- The protocol of the rewritten frame. -/
theorem byte_protocol : r.byte 23 = p.ipProtocol := by
  rw [h.byte_header hproto (by omega) (by omega), ← h.protocol, h.parsed.protocol]

/-- The sum of the rewritten segment. -/
theorem segSum_cast : ((segSum r 14 p1.l4Offset (L4Lb.segLen r p1) : ℕ) : ZMod 65535) =
    resTuple (rw.tuple p.ipProtocol) +
      L4Lb.segRest m1 14 p.l4Offset (ckOffset p.ipProtocol) (L4Lb.segLen m1 p1) + res c := by
  obtain ⟨hev, h4, hlen, -⟩ := h.ckOffset_le hproto
  rw [h.l4, L4Lb.segSum_cast r 14 p.l4Offset hev h4 (by rw [h.segLen hproto]; exact hlen), h.tupleAt hproto,
    h.segRest hproto, h.checksum]

/-- The sum of the segment before the rewrite. -/
theorem segSum_cast_old : ((segSum m1 14 p1.l4Offset (L4Lb.segLen m1 p1) : ℕ) : ZMod 65535) =
    resTuple p1.toFiveTuple +
      L4Lb.segRest m1 14 p.l4Offset (ckOffset p.ipProtocol) (L4Lb.segLen m1 p1) +
      res (m1.get16 (p.l4Offset + ckOffset p.ipProtocol)) := by
  obtain ⟨hev, h4, hlen, -⟩ := h.ckOffset_le hproto
  rw [← h.parsed.tupleAt (h.protocol ▸ hproto), h.l4, L4Lb.segSum_cast m1 14 p.l4Offset hev h4 hlen]

end

section Unedited

variable (h : Rewritten m p rw opt false m1 p1 c r) (hproto : p.ipProtocol = 6 ∨ p.ipProtocol = 17)
  (htx : opt.txTcpCksum = false) (htx' : opt.txUdpCksum = false)

include h

theorem natSum_eq (htx : opt.txTcpCksum = false) (htx' : opt.txUdpCksum = false) : c = natSum m p rw false := by
  obtain ⟨hb, hp⟩ := h.unedited rfl
  rw [h.sum htx htx', hp]
  unfold natSum Mbuf.get16
  rw [hb]
  simp only [Bool.false_eq_true, if_false]

include htx htx'

/-- A UDP checksum of 0 stays 0, and no other becomes 0. -/
theorem udp_zero_iff (hudp : p.ipProtocol = 17) :
    r.get16 (p.l4Offset + 6) = 0 ↔ m.get16 (p.l4Offset + 6) = 0 := by
  have h6 : p.ipProtocol ≠ 6 := by rw [hudp]; decide
  have hck : ckOffset p.ipProtocol = 6 := if_neg h6
  have hc := h.checksum
  rw [hck] at hc
  rw [hc, h.natSum_eq htx htx']
  unfold natSum
  simp only [hck, if_neg h6]
  split
  · simp [*]
  · rename_i h0
    exact iff_of_false (udpFix_ne_zero _) h0

include hproto

/-- On the incremental path the sum of the segment stays the same. -/
theorem segSum_cast_eq (h0 : p.ipProtocol = 17 → m.get16 (p.l4Offset + 6) ≠ 0) :
    ((segSum r 14 p1.l4Offset (L4Lb.segLen r p1) : ℕ) : ZMod 65535) =
      (segSum m 14 p.l4Offset (L4Lb.segLen m p) : ℕ) := by
  obtain ⟨hb, hp⟩ := h.unedited rfl
  have hres : res c = res (m.get16 (p.l4Offset + ckOffset p.ipProtocol)) + resTuple p.toFiveTuple -
      resTuple (rw.tuple p.ipProtocol) := by
    rw [h.natSum_eq htx htx']
    unfold natSum
    rcases hproto with htcp | hudp
    · rw [if_pos htcp]
      exact res_tcpInc _ _ _
    · have h6 : p.ipProtocol ≠ 6 := by rw [hudp]; decide
      have hck : ckOffset p.ipProtocol = 6 := if_neg h6
      rw [if_neg h6, if_neg (by rw [hck]; exact h0 hudp)]
      exact res_udpInc _ _ _
  have hold := h.segSum_cast_old hproto
  rw [show m1.get16 _ = m.get16 _ from Mbuf.get16_congr (congrFun hb _) (congrFun hb _), hp,
    segSum_of_byte hb p] at hold
  rw [h.segSum_cast hproto, hold, hp, hres]
  ring

/-- **On the incremental path the L4 checksum is valid if and only if it was
before.** -/
theorem l4Valid_iff : L4Valid r p1 ↔ L4Valid m p := by
  obtain ⟨-, hp⟩ := h.unedited rfl
  unfold L4Valid
  rw [hp]
  by_cases hz : p.ipProtocol = 17 ∧ m.get16 (p.l4Offset + 6) = 0
  · exact iff_of_true (Or.inl ⟨hz.1, (h.udp_zero_iff htx htx' hz.1).mpr hz.2⟩) (Or.inl hz)
  · have hz' : ¬ (p.ipProtocol = 17 ∧ r.get16 (p.l4Offset + 6) = 0) := fun hr =>
      hz ⟨hr.1, (h.udp_zero_iff htx htx' hr.1).mp hr.2⟩
    have hcast := h.segSum_cast_eq hproto htx htx' fun h17 h0 => hz ⟨h17, h0⟩
    rw [hp] at hcast
    have hm : m.byte 23 = p.ipProtocol := by
      rw [← congrFun (h.unedited rfl).1 23, ← h.protocol, h.parsed.protocol]
    simp only [hz, hz', false_or]
    rw [valid_iff, valid_iff, hcast]
    exact and_congr_left' (iff_of_true (segSum_pos _ _ ((h.byte_protocol hproto).symm ▸ hproto))
      (segSum_pos _ _ (hm.symm ▸ hproto)))

end Unedited

/-- The two ways of computing the checksum agree. -/
theorem recalculateTcp (h : Rewritten m p rw opt false m1 p1 c r) (htcp : p.ipProtocol = 6)
    (htx : opt.txTcpCksum = false) (htx' : opt.txUdpCksum = false) (hv : L4Valid r p1)
    (hne : m.get16 (p.l4Offset + 16) ≠ 0xFFFF) :
    recalculateTcpChecksum r 14 p.l4Offset (r.totalOf 14 - r.ihlOf 14) = .ok r := by
  have hproto : p.ipProtocol = 6 ∨ p.ipProtocol = 17 := Or.inl htcp
  have hck : ckOffset p.ipProtocol = 16 := if_pos htcp
  have hlen : L4Lb.segLen r p1 = r.totalOf 14 - r.ihlOf 14 := if_pos (h.protocol.trans htcp)
  obtain ⟨hdoff, hpay, hple, -⟩ := h.parsed.tcp (h.protocol.trans htcp)
  have hl4 := h.parsed.l4
  have hihl := h.parsed.ihl
  have htot := h.parsed.total
  have htotle := h.parsed.total_le
  have hfit := m1.fits
  have hd := h.dataLen
  have eihl := h.ihlOf hproto
  have etot := h.totalOf hproto
  have hcne : r.get16 (p.l4Offset + 16) ≠ 0xFFFF := by
    have hc := h.checksum
    rw [hck] at hc
    rw [hc, h.natSum_eq htx htx']
    unfold natSum
    rw [if_pos htcp, hck]
    exact tcpInc_ne _ _ hne
  have hv' : Valid (segSum r 14 p.l4Offset (r.totalOf 14 - r.ihlOf 14)) := by
    rcases hv with ⟨h17, -⟩ | hv
    · rw [h.protocol, htcp] at h17
      exact absurd h17 (by decide)
    · rwa [hlen, h.l4] at hv
  rw [h.l4] at *
  rw [recalculateTcpChecksum_eq (by omega) (by omega) (by omega),
    tcpSum_eq_of_valid (by omega) (by omega) ((h.byte_protocol hproto).symm ▸ hproto) hv' hcne, Mbuf.set16_get16]

theorem recalculateUdp (h : Rewritten m p rw opt false m1 p1 c r) (hudp : p.ipProtocol = 17)
    (htx : opt.txTcpCksum = false) (htx' : opt.txUdpCksum = false) (hv : L4Valid r p1)
    (hne : m.get16 (p.l4Offset + 6) ≠ 0) : recalculateUdpChecksum r 14 p.l4Offset = .ok r := by
  have hproto : p.ipProtocol = 6 ∨ p.ipProtocol = 17 := Or.inr hudp
  have h6 : p1.ipProtocol ≠ 6 := by rw [h.protocol, hudp]; decide
  have hlen : L4Lb.segLen r p1 = r.udpLenOf p.l4Offset := by
    rw [← h.l4]; exact if_neg h6
  have hlen1 : L4Lb.segLen m1 p1 = m1.udpLenOf p.l4Offset := by
    rw [← h.l4]; exact if_neg h6
  have elen := h.segLen hproto
  obtain ⟨h8, hule, -⟩ := h.parsed.udp (h.protocol.trans hudp)
  have hl4 := h.parsed.l4
  have hihl := h.parsed.ihl
  have htotle := h.parsed.total_le
  have hfit := m1.fits
  have hd := h.dataLen
  have hcne : r.get16 (p.l4Offset + 6) ≠ 0 := fun h0 => hne ((h.udp_zero_iff htx htx' hudp).mp h0)
  have hv' : Valid (segSum r 14 p.l4Offset (r.udpLenOf p.l4Offset)) := by
    rcases hv with ⟨-, h0⟩ | hv
    · rw [h.l4] at h0
      exact absurd h0 hcne
    · rwa [hlen, h.l4] at hv
  rw [h.l4] at *
  rw [recalculateUdpChecksum_eq (by omega) (by omega) (by omega),
    udpSum_eq_of_valid (by omega) (by omega) hv' hcne, Mbuf.set16_get16]

/-- After an option edit the TCP checksum is computed anew, and valid. -/
theorem l4Valid_of_edited (h : Rewritten m p rw opt true m1 p1 c r) (htx : opt.txTcpCksum = false)
    (htx' : opt.txUdpCksum = false) : L4Valid r p1 := by
  have htcp := h.edited_tcp rfl
  have hproto : p.ipProtocol = 6 ∨ p.ipProtocol = 17 := Or.inl htcp
  have htcp1 : p1.ipProtocol = 6 := h.protocol.trans htcp
  have hck : ckOffset p.ipProtocol = 16 := if_pos htcp
  have hlen : L4Lb.segLen m1 p1 = m1.totalOf 14 - m1.ihlOf 14 := if_pos htcp1
  obtain ⟨-, -, hlen16, -, hle⟩ := h.ckOffset_le hproto
  have hl41 := h.l4
  have hl4 := h.parsed.l4
  have hihl := h.parsed.ihl
  have htotle := h.parsed.total_le
  have hfit := m1.fits
  -- the frame before its checksum is written
  set F := l4Frame (ipFrame m1 14 rw.srcIp rw.dstIp) p.l4Offset 16 rw.srcPort rw.dstPort 0 with hF
  have hc : c = tcpSum F 14 p.l4Offset (L4Lb.segLen m1 p1) := by
    rw [h.sum htx htx']
    unfold natSum
    rw [if_pos htcp1, if_pos rfl, hlen, h.l4]
  have hr : ∀ i, 12 ≤ i → r.byte i = (F.set16 (p.l4Offset + 16) c).byte i := fun i hi => by
    rw [h.byte i hi, hck, hF]
    unfold l4Frame
    rw [Mbuf.set16_set16]
  have hFp : F.byte (14 + 9) = p.ipProtocol := by
    rw [← h.byte_protocol hproto, hr 23 (by omega), Mbuf.byte_set16_of _ (by omega)]
  have hv := @segSum_valid F 14 p.l4Offset 16 (L4Lb.segLen m1 p1) (by omega) rfl (by omega) (by omega)
    (hFp.symm ▸ hproto)
  rw [← tcpSum, ← hc] at hv
  right
  rw [h.segLen hproto, h.l4]
  unfold segSum pseudoSum at hv ⊢
  rw [Mbuf.get32_congr fun i _ _ => hr i (by omega), Mbuf.get32_congr fun i _ _ => hr i (by omega),
    hr _ (by omega), wsum_congr fun i _ _ => hr i (by omega)]
  exact hv

end Rewritten

/-! ### ICMP errors -/

/-- The two checksums of a translated ICMP error are valid, whatever they
were. -/
theorem icmpFrame_valid {m : Mbuf} {p : PacketMeta} {info : IcmpErrorInfo} (h : Parsed m p)
    (hq : Quoted m p info) (outerSrc outerDst : IPv4Addr) (inner : FiveTuple) (srcMac dstMac : MacAddr) :
    let r := clearTxOffload (((icmpFrame (ipFrame (innerFrame m info inner) 14 outerSrc outerDst)
      p.l4Offset (p.totalLen - p.l4Offset)).setMac 0 dstMac).setMac 6 srcMac)
    IpValid r 14 ∧ IcmpValid r p := by
  intro r
  have hfit := m.fits
  have hihl := h.ihl
  have hl4 := h.l4
  have htotle := h.total_le
  have hq3 := hq.l3
  have hq4 := hq.l4
  have hqihl := hq.ihl
  have hqle := hq.l4_le
  set F := ipFrame (innerFrame m info inner) 14 outerSrc outerDst with hF
  have hr : ∀ i, 12 ≤ i → r.byte i = (icmpFrame F p.l4Offset (p.totalLen - p.l4Offset)).byte i := fun i hi => by
    show (((icmpFrame F p.l4Offset (p.totalLen - p.l4Offset)).setMac 0 dstMac).setMac 6 srcMac).byte i = _
    rw [Mbuf.byte_setMac_of _ (by omega), Mbuf.byte_setMac_of _ (by omega)]
  have hrip : ∀ i, 12 ≤ i → i < p.l4Offset → r.byte i = F.byte i := fun i h1 h2 => by
    rw [hr i h1, icmpFrame, Mbuf.byte_set16_of _ (by omega)]
  have eihl : (innerFrame m info inner).ihlOf 14 = m.ihlOf 14 :=
    Mbuf.ihlOf_congr (innerFrame_byte inner (by omega) (by omega))
  have eihlF : F.ihlOf 14 = m.ihlOf 14 := by
    rw [← eihl]
    exact Mbuf.ihlOf_congr (ipFrame_byte _ _ (by omega))
  have eihlr : r.ihlOf 14 = F.ihlOf 14 := Mbuf.ihlOf_congr (hrip 14 (by omega) (by omega))
  constructor
  · have hv : IpValid F 14 := ipFrame_valid (by omega) outerSrc outerDst
    unfold IpValid at *
    rw [eihlr, wsum_congr fun i _ _ => hrip i (by omega) (by omega)]
    exact hv
  · have htype : 0 < ((F.set16 (p.l4Offset + 2) 0).byte p.l4Offset).toNat := by
      rw [Mbuf.byte_set16_of _ (by omega), hF, ipFrame_byte _ _ (by omega),
        innerFrame_byte inner (by omega) (by omega)]
      refine Nat.pos_of_ne_zero fun h0 => ?_
      have h0' : m.byte p.l4Offset = 0 := UInt8.toNat_inj.mp h0
      have := hq.error
      rw [h0'] at this
      exact absurd this (by decide)
    have hle := wsum_le (F.set16 (p.l4Offset + 2) 0).byte p.l4Offset (p.totalLen - p.l4Offset)
    have hpos := wsum_pos htype (show 0 < p.totalLen - p.l4Offset by omega)
    have hv := @valid_set16_finish F p.l4Offset 2 (p.totalLen - p.l4Offset) 0 rfl (by omega) (by omega)
      (by omega)
    rw [Nat.zero_add, Nat.zero_add] at hv
    unfold IcmpValid
    rw [wsum_congr fun i _ _ => hr i (by omega)]
    exact hv

/-! ### The checksums before and after -/

theorem parsed_of_parse {m : Mbuf} {p : PacketMeta} (hp : parse m = .ok (.ok, p)) (heth : p.etherType = 0x0800) :
    Parsed m p := by
  obtain ⟨r, hr, h⟩ := parse_returns m
  rw [hp] at hr
  obtain rfl := Except.ok.inj hr
  exact (h rfl).2 heth

/-- **`nat_rewrite` keeps the checksums valid.** The frame is one that `parse`
accepts and its L4 checksum is valid. Then that of the rewritten frame and its
IPv4 header checksum are valid; on the incremental path the full computation
gives the same L4 checksum. -/
theorem natRewrite_valid {m : Mbuf} {p : PacketMeta} (hp : parse m = .ok (.ok, p))
    (heth : p.etherType = 0x0800) (hproto : p.ipProtocol = 6 ∨ p.ipProtocol = 17) (rw : NatRewrite)
    (opt : NatOptions) (htx : opt.txTcpCksum = false) (htx' : opt.txUdpCksum = false) (hv : L4Valid m p) :
    Returns (natRewrite m p rw opt) fun (result, r, p', out) => result = .ok →
      IpValid r 14 ∧ L4Valid r p' ∧
      (p.ipProtocol = 17 → (r.get16 (p.l4Offset + 6) = 0 ↔ m.get16 (p.l4Offset + 6) = 0)) ∧
      (p.ipProtocol = 17 → m.get16 (p.l4Offset + 6) ≠ 0 → recalculateUdpChecksum r 14 p.l4Offset = .ok r) ∧
      (p.ipProtocol = 6 → out.tsStripped = false → out.toaAdded = false →
        m.get16 (p.l4Offset + 16) ≠ 0xFFFF →
        recalculateTcpChecksum r 14 p.l4Offset (r.totalOf 14 - r.ihlOf 14) = .ok r) := by
  refine (natRewrite_returns (parsed_of_parse hp heth) hproto rw opt).mono ?_
  rintro ⟨result, r, p', out⟩ ⟨-, hok⟩ hres
  obtain ⟨m1, c, h⟩ := hok hres
  simp only at h
  cases hed : out.tsStripped || out.toaAdded with
  | true =>
    rw [hed] at h
    have htcp := h.edited_tcp rfl
    refine ⟨h.ipValid hproto, h.l4Valid_of_edited htx htx', fun h17 => ?_, fun h17 => ?_, fun _ hs ha => ?_⟩
    · exact absurd (htcp.symm.trans h17) (by decide)
    · exact absurd (htcp.symm.trans h17) (by decide)
    · rw [hs, ha] at hed
      exact absurd hed (by decide)
  | false =>
    rw [hed] at h
    have hv' := (h.l4Valid_iff hproto htx htx').mpr hv
    exact ⟨h.ipValid hproto, hv', h.udp_zero_iff htx htx', fun h17 h0 => h.recalculateUdp h17 htx htx' hv' h0,
      fun h6 _ _ hne => h.recalculateTcp h6 htx htx' hv' hne⟩

/-- A SYN from 10.0.0.1:1234 to 10.0.0.2:80. -/
def synFrame : Mbuf :=
  Mbuf.ofBytes
    [2, 0, 0, 0, 0, 1, 2, 0, 0, 0, 0, 2, 8, 0,
      69, 0, 0, 40, 0, 1, 0, 0, 64, 6, 102, 205, 10, 0, 0, 1, 10, 0, 0, 2,
      4, 210, 0, 80, 0, 0, 0, 1, 0, 0, 0, 0, 80, 2, 255, 255, 150, 189, 0, 0]
    8 (by decide)

/-- What `parse` says about a frame. -/
def metaOf (m : Mbuf) : PacketMeta :=
  match parse m with
  | .ok (_, p) => p
  | .error _ => {}

/-- From 10.0.1.1:10000 to 10.0.1.2:8080. -/
def synRewrite : NatRewrite :=
  { srcIp := 0x0101000A, dstIp := 0x0201000A, srcPort := 0x1027, dstPort := 0x901F,
    srcMac := MacAddr.zero, dstMac := MacAddr.zero }

theorem natRewrite_valid_syn :
    parse synFrame = .ok (.ok, metaOf synFrame) ∧ IpValid synFrame 14 ∧ L4Valid synFrame (metaOf synFrame) ∧
      Returns (natRewrite synFrame (metaOf synFrame) synRewrite {}) fun (result, r, p', _) =>
        result = .ok ∧ IpValid r 14 ∧ L4Valid r p' := by
  have hv : L4Valid synFrame (metaOf synFrame) := by decide +kernel
  refine ⟨rfl, by decide +kernel, hv, ?_⟩
  obtain ⟨a, ha, h⟩ := natRewrite_valid (m := synFrame) (p := metaOf synFrame) rfl (by decide +kernel)
    (by decide +kernel) synRewrite {} rfl rfl hv
  have hres : (natRewrite synFrame (metaOf synFrame) synRewrite {}).map (·.1) = .ok .ok := by rfl
  rw [ha] at hres
  have hok : a.1 = .ok := Except.ok.inj hres
  exact ⟨a, ha, hok, (h hok).1, (h hok).2.1⟩

/-- **What the checksums of a rewritten frame say about the frame before.**
Those that are computed anew are valid in any case; an L4 checksum that is
updated is valid if and only if it was. -/
theorem rewrite_checksums {m : Mbuf} {p : PacketMeta} (hp : parse m = .ok (.ok, p))
    (heth : p.etherType = 0x0800) :
    (∀ (rw : NatRewrite) (opt : NatOptions), p.ipProtocol = 6 ∨ p.ipProtocol = 17 →
      opt.txTcpCksum = false → opt.txUdpCksum = false →
      Returns (natRewrite m p rw opt) fun (result, r, p', out) => result = .ok →
        IpValid r 14 ∧
        (out.tsStripped = true ∨ out.toaAdded = true → L4Valid r p') ∧
        (out.tsStripped = false → out.toaAdded = false →
          (L4Valid r p' ↔ L4Valid m p) ∧
          (p.ipProtocol = 17 → (r.get16 (p.l4Offset + 6) = 0 ↔ m.get16 (p.l4Offset + 6) = 0)))) ∧
    (∀ (info : IcmpErrorInfo) (outerSrc outerDst : IPv4Addr) (inner : FiveTuple) (srcMac dstMac : MacAddr),
      p.ipProtocol = 1 → parseIcmpError m p = .ok (some info) →
      Returns (natRewriteIcmpError m p info outerSrc outerDst inner srcMac dstMac) fun (result, r) =>
        result = .ok → IpValid r 14 ∧ IcmpValid r p) := by
  have hparsed := parsed_of_parse hp heth
  constructor
  · intro rw opt hproto htx htx'
    refine (natRewrite_returns hparsed hproto rw opt).mono ?_
    rintro ⟨result, r, p', out⟩ ⟨-, hok⟩ hres
    obtain ⟨m1, c, h⟩ := hok hres
    simp only at h
    refine ⟨h.ipValid hproto, fun hed => ?_, fun hs ha => ?_⟩
    · rw [Bool.or_eq_true_iff.mpr hed] at h
      exact h.l4Valid_of_edited htx htx'
    · rw [hs, ha] at h
      exact ⟨h.l4Valid_iff hproto htx htx', h.udp_zero_iff htx htx'⟩
  · intro info outerSrc outerDst inner srcMac dstMac hicmp hinfo
    have hq := (quoted_of_parseIcmpError hparsed hicmp hinfo).1
    refine ⟨_, natRewriteIcmpError_eq hparsed hq outerSrc outerDst inner srcMac dstMac, ?_⟩
    split
    · intro hres
      exact absurd hres (by simp)
    · intro _
      exact icmpFrame_valid hparsed hq outerSrc outerDst inner srcMac dstMac

theorem rewrite_checksums_syn :
    Returns (natRewrite synFrame (metaOf synFrame) synRewrite {}) fun (result, r, p', _) => result = .ok →
      IpValid r 14 ∧ (L4Valid r p' ↔ L4Valid synFrame (metaOf synFrame)) := by
  have h := (rewrite_checksums (m := synFrame) (p := metaOf synFrame) rfl (by decide +kernel)).1 synRewrite {}
    (by decide +kernel) rfl rfl
  have hout : (natRewrite synFrame (metaOf synFrame) synRewrite {}).map (·.2.2.2) = .ok {} := by rfl
  obtain ⟨a, ha, hq⟩ := h
  rw [ha] at hout
  have ho : a.2.2.2 = {} := Except.ok.inj hout
  refine ⟨a, ha, fun hok => ⟨(hq hok).1, ((hq hok).2.2 ?_ ?_).1⟩⟩
  · rw [ho]
  · rw [ho]

/-- The SYN with a timestamp option and 0 for both checksums. -/
def zeroSumFrame : Mbuf :=
  Mbuf.ofBytes
    [2, 0, 0, 0, 0, 1, 2, 0, 0, 0, 0, 2, 8, 0,
      69, 0, 0, 52, 0, 1, 0, 0, 64, 6, 0, 0, 10, 0, 0, 1, 10, 0, 0, 2,
      4, 210, 0, 80, 0, 0, 0, 1, 0, 0, 0, 0, 128, 2, 255, 255, 0, 0, 0, 0, 1, 1, 8, 10, 0, 0, 0, 1, 0, 0, 0, 0]
    8 (by decide)

/-- Stripping the timestamp of a frame whose checksums are both wrong gives a
frame whose checksums are both valid. -/
theorem natRewrite_masks_corruption :
    parse zeroSumFrame = .ok (.ok, metaOf zeroSumFrame) ∧ zeroSumFrame.olFlags = {} ∧
      ¬ IpValid zeroSumFrame 14 ∧ ¬ L4Valid zeroSumFrame (metaOf zeroSumFrame) ∧
      Returns (natRewrite zeroSumFrame (metaOf zeroSumFrame) synRewrite { stripTs := true })
        fun (result, r, p', _) => result = .ok ∧ IpValid r 14 ∧ L4Valid r p' := by
  have hproto : (metaOf zeroSumFrame).ipProtocol = 6 ∨ (metaOf zeroSumFrame).ipProtocol = 17 := by
    decide +kernel
  refine ⟨rfl, rfl, by decide +kernel, by decide +kernel, ?_⟩
  obtain ⟨a, ha, h⟩ := natRewrite_returns (parsed_of_parse (m := zeroSumFrame) (p := metaOf zeroSumFrame) rfl
    (by decide +kernel)) hproto synRewrite { stripTs := true }
  have hres : (natRewrite zeroSumFrame (metaOf zeroSumFrame) synRewrite { stripTs := true }).map
      (fun r => (r.1, r.2.2.2)) = .ok (.ok, ⟨true, false, false⟩) := by rfl
  rw [ha] at hres
  obtain ⟨hok, hout⟩ := Prod.ext_iff.mp (Except.ok.inj hres)
  simp only at hok hout
  obtain ⟨m1, c, hr⟩ := h.2 hok
  rw [hout] at hr
  exact ⟨a, ha, hok, hr.ipValid hproto, hr.l4Valid_of_edited rfl rfl⟩

end L4Lb
