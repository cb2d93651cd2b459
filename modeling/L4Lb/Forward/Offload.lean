/-
# The checksum that the NIC completes

With TX offload `nat_rewrite` leaves the sum of the pseudo header in the
checksum field, computed with the length of the IP payload, and the NIC puts the
complement of the sum over the whole IP payload there (`Mbuf.onWire`). The
receiver of a TCP segment checks the same bytes with the same length. The
receiver of a UDP datagram takes the length from the UDP header, and `parse`
accepts datagrams that are shorter than the IP payload: what is behind them, and
the difference of the lengths, is in the NIC's sum and not in the receiver's.
-/
import L4Lb.Forward.Valid
import L4Lb.Parser.Grammar

open Checked OnesComplement

namespace L4Lb

/-- The frame as the NIC sends it. -/
def Mbuf.onWire (m : Mbuf) : Mbuf :=
  let l4 := m.l2Len + m.l3Len
  let sum := UInt16.ofNat (compl (wsum m.byte l4 (m.totalOf m.l2Len - m.l3Len)))
  if m.olFlags.txTcp then m.set16 (l4 + 16) sum
  else if m.olFlags.txUdp then m.set16 (l4 + 6) (L4Checksum.udpFix sum)
  else m

/-- The offload that is on for the protocol. -/
def NatOptions.offloads (opt : NatOptions) (protocol : UInt8) : Bool :=
  if protocol = 6 then opt.txTcpCksum else opt.txUdpCksum

/-! ### What `nat_rewrite` leaves for the NIC -/

/-- The frame is ready for the NIC to complete the checksum of the L4 header at
`l4`. -/
structure Offloaded (m : Mbuf) (l4 : ℕ) (tcp : Bool) : Prop where
  l2Len : m.l2Len = 14
  l3Len : m.l3Len = m.ihlOf 14
  txTcp : m.olFlags.txTcp = tcp
  txUdp : m.olFlags.txUdp = !tcp
  field : m.get16 (l4 + if tcp then 16 else 6) = phdrSum m 14

theorem phdrSum_congr {m m' : Mbuf} (h : ∀ i, 14 ≤ i → i < 34 → m'.byte i = m.byte i) :
    phdrSum m' 14 = phdrSum m 14 := by
  unfold phdrSum pseudoSum
  rw [Mbuf.totalOf_congr fun i _ _ => h i (by omega) (by omega), Mbuf.ihlOf_congr (h 14 (by omega) (by omega)),
    Mbuf.get32_congr fun i _ _ => h i (by omega) (by omega),
    Mbuf.get32_congr fun i _ _ => h i (by omega) (by omega), h _ (by omega) (by omega)]

/-- `l4_checksum_full`, where the NIC completes the checksum. -/
theorem l4ChecksumFull_offload {m : Mbuf} {p : PacketMeta} {l4 : ℕ} {opt : NatOptions} (hl3 : p.l3Offset = 14)
    (hl4 : 34 ≤ l4) (hihl : m.ihlOf 14 ≤ m.totalOf 14)
    (hlen : l4 + (if m.byte 23 = 6 then 18 else 8) ≤ m.dataLen) (htx : opt.offloads (m.byte 23) = true) :
    Returns (l4ChecksumFull m p 14 l4 opt) fun r => Offloaded r l4 (decide (m.byte 23 = 6)) := by
  have htx' : (if decide (m.byte 23 = 6) = true then opt.txTcpCksum else opt.txUdpCksum) = true := by
    simpa [NatOptions.offloads] using htx
  have hlen' : l4 + (if decide (m.byte 23 = 6) = true then 18 else 8) ≤ m.dataLen := by simpa using hlen
  unfold l4ChecksumFull
  rw [Mbuf.load8_eq (by omega), ok_bind]
  simp only
  rw [if_pos htx', l4ChecksumOffload_eq _ (by omega) hihl hlen', hl3]
  have hk : 6 ≤ if decide (m.byte 23 = 6) = true then 16 else 6 := by split <;> omega
  generalize decide (m.byte 23 = 6) = tcp at hk
  refine .ok ⟨rfl, ?_, rfl, rfl, ?_⟩
  · rw [Mbuf.ihlOf_set16 _ (by omega)]
    rfl
  · rw [Mbuf.get16_set16, phdrSum_congr fun i _ hi => Mbuf.byte_set16_of _ (by omega)]
    rfl

section Ports

variable {m : Mbuf} {p : PacketMeta} {rw : NatRewrite} {opt : NatOptions} (oldSrc oldDst : IPv4Addr)

theorem rewriteTcp_offload (full : Bool) (hlen : p.l4Offset + 4 ≤ m.dataLen) (htx : opt.txTcpCksum = true) :
    rewriteTcp m p rw opt oldSrc oldDst full =
      l4ChecksumFull ((m.set16 p.l4Offset rw.srcPort).set16 (p.l4Offset + 2) rw.dstPort) p p.l3Offset p.l4Offset
        opt := by
  unfold rewriteTcp
  simp only
  rw [Mbuf.load16_eq (by omega), ok_bind, Mbuf.load16_eq (by omega), ok_bind, Mbuf.store16_eq (by omega), ok_bind,
    Mbuf.store16_eq (by rw [Mbuf.dataLen_set16]; omega), ok_bind, if_pos (Or.inr htx)]

theorem rewriteUdp_offload (hlen : p.l4Offset + 8 ≤ m.dataLen) (htx : opt.txUdpCksum = true) :
    rewriteUdp m p rw opt oldSrc oldDst =
      l4ChecksumFull ((m.set16 p.l4Offset rw.srcPort).set16 (p.l4Offset + 2) rw.dstPort) p p.l3Offset p.l4Offset
        opt := by
  unfold rewriteUdp
  simp only
  rw [Mbuf.load16_eq (by omega), ok_bind, Mbuf.load16_eq (by omega), ok_bind, Mbuf.load16_eq (by omega), ok_bind,
    Mbuf.store16_eq (by omega), ok_bind, Mbuf.store16_eq (by rw [Mbuf.dataLen_set16]; omega), ok_bind, if_pos htx]

end Ports

/-- Step 3 of `nat_rewrite` with the offload. -/
theorem rewriteL4_offload {m : Mbuf} {p : PacketMeta} (h : Parsed m p)
    (hproto : p.ipProtocol = 6 ∨ p.ipProtocol = 17) (rw : NatRewrite) {opt : NatOptions}
    (htx : opt.offloads p.ipProtocol = true) (oldSrc oldDst : IPv4Addr) (full : Bool) :
    Returns (rewriteL4 (ipFrame m 14 rw.srcIp rw.dstIp) p rw opt oldSrc oldDst full) fun r =>
      Offloaded r p.l4Offset (decide (p.ipProtocol = 6)) := by
  have hihl := h.ihl
  have hl4 := h.l4
  have htot := h.total
  have htotle := h.total_le
  have hle := h.l4_le
  set F := ((ipFrame m 14 rw.srcIp rw.dstIp).set16 p.l4Offset rw.srcPort).set16 (p.l4Offset + 2) rw.dstPort with hF
  have hb : ∀ i, i < 22 ∨ i = 23 → F.byte i = m.byte i := fun i hi => by
    rw [hF, Mbuf.byte_set16_of _ (by omega), Mbuf.byte_set16_of _ (by omega), ipFrame_byte _ _ (by omega)]
  have hlenF : F.dataLen = m.dataLen := rfl
  have hbF : F.byte 23 = p.ipProtocol := (hb 23 (by omega)).trans h.protocol.symm
  have eihl : F.ihlOf 14 = m.ihlOf 14 := Mbuf.ihlOf_congr (hb 14 (by omega))
  have etot : F.totalOf 14 = m.totalOf 14 := Mbuf.totalOf_congr fun i _ _ => hb i (by omega)
  have hsize : p.l4Offset + (if p.ipProtocol = 6 then 18 else 8) ≤ m.dataLen := by
    rcases hproto with h6 | h17
    · obtain ⟨hdoff, hpay, hple, -⟩ := h.tcp h6
      rw [if_pos h6]
      omega
    · obtain ⟨h8, hule, -⟩ := h.udp h17
      rw [if_neg (by rw [h17]; decide)]
      omega
  have hsize' : p.l4Offset + 8 ≤ m.dataLen := by split at hsize <;> omega
  have hfull : Returns (l4ChecksumFull F p p.l3Offset p.l4Offset opt) fun r =>
      Offloaded r p.l4Offset (decide (p.ipProtocol = 6)) := by
    rw [← hbF] at hsize htx ⊢
    rw [h.l3]
    exact l4ChecksumFull_offload h.l3 (by omega) (by omega) hsize htx
  unfold rewriteL4
  rw [h.l3, Mbuf.load8_eq (by rw [dataLen_ipFrame]; omega), ok_bind, ipFrame_byte _ _ (by omega),
    ← show _ = m.byte (14 + 9) from h.protocol]
  unfold NatOptions.offloads at htx
  rcases hproto with h6 | h17
  · rw [if_pos h6] at htx ⊢
    rw [rewriteTcp_offload _ _ _ (by rw [dataLen_ipFrame]; omega) htx]
    exact hfull
  · have h6 : p.ipProtocol ≠ 6 := by rw [h17]; decide
    rw [if_neg h6] at htx ⊢
    rw [if_pos h17, rewriteUdp_offload _ _ (by rw [dataLen_ipFrame]; omega) htx]
    exact hfull

/-- The MACs are in front of all that. -/
theorem Offloaded.setMacs {m : Mbuf} {l4 : ℕ} {tcp : Bool} (h : Offloaded m l4 tcp) (hl4 : 12 ≤ l4)
    (srcMac dstMac : MacAddr) : Offloaded ((m.setMac 0 dstMac).setMac 6 srcMac) l4 tcp := by
  have hb : ∀ i, 12 ≤ i → ((m.setMac 0 dstMac).setMac 6 srcMac).byte i = m.byte i := fun i hi => by
    rw [Mbuf.byte_setMac_of _ (by omega), Mbuf.byte_setMac_of _ (by omega)]
  refine ⟨h.l2Len, ?_, h.txTcp, h.txUdp, ?_⟩
  · rw [Mbuf.ihlOf_congr (hb 14 (by omega))]
    exact h.l3Len
  · rw [Mbuf.get16_congr (hb _ (by omega)) (hb _ (by omega)), phdrSum_congr fun i hi _ => hb i (by omega)]
    exact h.field

/-- With the offload for its protocol the rewritten frame is ready for the NIC. -/
theorem natRewrite_offload {m : Mbuf} {p : PacketMeta} (h : Parsed m p)
    (hproto : p.ipProtocol = 6 ∨ p.ipProtocol = 17) (rw : NatRewrite) {opt : NatOptions}
    (htx : opt.offloads p.ipProtocol = true) (httl : ¬ m.byte 22 ≤ 1) :
    ∃ r p1 out m1 c, natRewrite m p rw opt = .ok (.ok, r, p1, out) ∧
      Rewritten m p rw opt (out.tsStripped || out.toaAdded) m1 p1 c r ∧
      Offloaded r p.l4Offset (decide (p.ipProtocol = 6)) := by
  obtain ⟨r, p1, out, m1, c, hr, hopts, hrw, -⟩ := (natRewrite_spec h hproto rw opt).2 httl
  have h1 := hrw.parsed
  have hl4 := h.l4
  refine ⟨r, p1, out, m1, c, hr, hrw, ?_⟩
  obtain ⟨m3, hm3, hlen, -⟩ := rewriteL4_returns h1 (hrw.protocol ▸ hproto) rw opt
    (out.tsStripped || out.toaAdded)
  obtain ⟨m3', hm3', ho⟩ := rewriteL4_offload h1 (hrw.protocol ▸ hproto) rw (hrw.protocol ▸ htx) (m1.get32 26)
    (m1.get32 30) (out.tsStripped || out.toaAdded)
  obtain rfl := Except.ok.inj (hm3.symm.trans hm3')
  rw [hrw.l4, hrw.protocol] at ho
  have hl41 := h1.l4
  have hle := h1.l4_le
  have htotle := h1.total_le
  rw [natRewrite_steps h h1 httl hopts, hm3, ok_bind, setMacs_eq (by omega), ok_bind] at hr
  obtain rfl := congrArg (·.2.1) (Except.ok.inj hr)
  exact ho.setMacs (by omega) _ _

/-! ### What the NIC and the receiver add up -/

/-- What the sum over the `n` bytes of the IP payload has more than the one over
the first `len` bytes, pseudo headers included. -/
def beyond (m : Mbuf) (l4 len n : ℕ) : ℕ :=
  ∑ i ∈ Finset.range (n - len), (m.byte (l4 + len + i)).toNat * 256 ^ ((len + i) % 2) + 256 * (n - len)

@[simp] theorem beyond_self (m : Mbuf) (l4 n : ℕ) : beyond m l4 n n = 0 := by simp [beyond]

theorem beyond_congr {m m' : Mbuf} {l4 len : ℕ} (h : ∀ i, l4 + len ≤ i → m'.byte i = m.byte i) (n : ℕ) :
    beyond m' l4 len n = beyond m l4 len n := by
  unfold beyond
  rw [Finset.sum_congr rfl fun i _ => by rw [h (l4 + len + i) (by omega)]]

theorem bswap16_cast {x : ℕ} (h : x ≤ 65535) :
    (((bswap16 (UInt16.ofNat x)).toNat : ℕ) : ZMod 65535) = 256 * (x : ℕ) := by
  have hto : (UInt16.ofNat x).toNat = x := by rw [UInt16.toNat_ofNat', Nat.mod_eq_of_lt (by omega)]
  have hx : (bswap16 (UInt16.ofNat x)).toNat + 65535 * (x / 256) = 256 * x := by
    rw [bswap16_toNat, hto]
    omega
  have := congrArg (Nat.cast : ℕ → ZMod 65535) hx
  push_cast at this
  rw [← this, show (65535 : ZMod 65535) = 0 from ZMod.natCast_self 65535]
  ring

/-- The pseudo headers differ in the length. -/
theorem pseudoSum_cast (m : Mbuf) (ip : ℕ) {len n : ℕ} (hle : len ≤ n) (hn : n ≤ 65535) :
    ((pseudoSum m ip n : ℕ) : ZMod 65535) = (pseudoSum m ip len : ℕ) + 256 * ((n - len : ℕ) : ZMod 65535) := by
  unfold pseudoSum L4Checksum.calculatePseudoHeaderSum
  push_cast [Nat.cast_sub hle]
  rw [bswap16_cast hn, bswap16_cast (hle.trans hn)]
  ring

section OnWire

variable {r : Mbuf} {l4 : ℕ} {tcp : Bool} (h : Offloaded r l4 tcp)

include h

/-- The sum of the pseudo header is in the field. -/
theorem Offloaded.field_cast : L4Checksum.res (r.get16 (l4 + if tcp then 16 else 6)) =
    ((pseudoSum r 14 (r.totalOf 14 - r.ihlOf 14) : ℕ) : ZMod 65535) := by
  have hle := fold_le (pseudoSum r 14 (r.totalOf 14 - r.ihlOf 14))
  rw [h.field, phdrSum, L4Checksum.res, UInt16.toNat_ofNat', Nat.mod_eq_of_lt (by omega), fold_cast]

variable (hl4 : l4 = 14 + r.ihlOf 14)

include hl4

/-- The NIC writes the complement of its sum. -/
theorem Offloaded.onWire_eq : ∃ v : UInt16, r.onWire = r.set16 (l4 + if tcp then 16 else 6) v ∧
    L4Checksum.res v = -((wsum r.byte l4 (r.totalOf 14 - r.ihlOf 14) : ℕ) : ZMod 65535) ∧
    (tcp = false → v ≠ 0) := by
  have hres : L4Checksum.res (UInt16.ofNat (compl (wsum r.byte l4 (r.totalOf 14 - r.ihlOf 14)))) =
      -((wsum r.byte l4 (r.totalOf 14 - r.ihlOf 14) : ℕ) : ZMod 65535) := by
    have hle := compl_le (wsum r.byte l4 (r.totalOf 14 - r.ihlOf 14))
    unfold L4Checksum.res
    rw [UInt16.toNat_ofNat', Nat.mod_eq_of_lt (by omega), compl_cast]
  unfold Mbuf.onWire
  simp only [h.l2Len, h.l3Len, h.txTcp, h.txUdp, ← hl4]
  cases tcp with
  | true => exact ⟨_, rfl, hres, by simp⟩
  | false => exact ⟨_, rfl, by rw [L4Checksum.res_udpFix, hres], fun _ => L4Checksum.udpFix_ne_zero _⟩

/-- What the receiver of the first `len` bytes adds up. -/
theorem Offloaded.segSum_cast {len : ℕ} (hlen : (if tcp then 16 else 6) + 2 ≤ len)
    (hle : len ≤ r.totalOf 14 - r.ihlOf 14) (hn : r.totalOf 14 - r.ihlOf 14 ≤ 65535) (hihl : 20 ≤ r.ihlOf 14) :
    ((segSum r.onWire 14 l4 len : ℕ) : ZMod 65535) =
      -((beyond r l4 len (r.totalOf 14 - r.ihlOf 14) : ℕ) : ZMod 65535) := by
  obtain ⟨v, hv, hres, -⟩ := h.onWire_eq hl4
  have hfield := h.field_cast
  have hev : (if tcp = true then 16 else 6) % 2 = 0 := by split <;> rfl
  generalize (if tcp = true then 16 else 6) = ck at hlen hv hfield hev
  generalize r.totalOf 14 - r.ihlOf 14 = n at hle hn hres hfield ⊢
  -- the two sums without the checksum, and what the longer one has more
  have hseg : segSum r.onWire 14 l4 len =
      pseudoSum r 14 len + (wsum (r.set16 (l4 + ck) 0).byte l4 len + v.toNat) := by
    rw [hv, segSum, pseudoSum_set16 (by omega), wsum_set16 r l4 hev hlen]
  have hnic : wsum r.byte l4 n = wsum (r.set16 (l4 + ck) 0).byte l4 n + (r.get16 (l4 + ck)).toNat := by
    rw [← wsum_set16 r l4 hev (hlen.trans hle), Mbuf.set16_get16]
  have hmore : wsum (r.set16 (l4 + ck) 0).byte l4 n = wsum (r.set16 (l4 + ck) 0).byte l4 len +
      ∑ i ∈ Finset.range (n - len), (r.byte (l4 + len + i)).toNat * 256 ^ ((len + i) % 2) := by
    conv_lhs => rw [← Nat.add_sub_cancel' hle, wsum_append]
    congr 1
    refine Finset.sum_congr rfl fun i _ => ?_
    rw [Mbuf.byte_set16_of _ (by omega)]
  have hpseudo := pseudoSum_cast r 14 hle hn
  unfold L4Checksum.res at hres hfield
  rw [hnic, hmore] at hres
  rw [hseg, beyond]
  push_cast at hres ⊢
  linear_combination hres - hfield - hpseudo

end OnWire

/-- The checksum says nothing about the length. -/
theorem segLen_set16 {p : PacketMeta} (hl4 : 18 ≤ p.l4Offset) (m : Mbuf) (v : UInt16) :
    segLen (m.set16 (p.l4Offset + ckOffset p.ipProtocol) v) p = segLen m p := by
  unfold segLen ckOffset
  split
  · rw [Mbuf.ihlOf_set16 _ (by omega), Mbuf.totalOf_congr fun i _ _ => Mbuf.byte_set16_of _ (by omega)]
  · exact Mbuf.udpLenOf_congr fun i _ _ => Mbuf.byte_set16_of _ (by omega)

/-- The receiver takes the frame on the wire if and only if nothing that counts
is behind its segment. -/
theorem Rewritten.onWire_valid_iff {m m1 r : Mbuf} {p p1 : PacketMeta} {rw : NatRewrite} {opt : NatOptions}
    {edited : Bool} {c : UInt16} (h : Rewritten m p rw opt edited m1 p1 c r)
    (hproto : p.ipProtocol = 6 ∨ p.ipProtocol = 17) (ho : Offloaded r p.l4Offset (decide (p.ipProtocol = 6))) :
    L4Valid r.onWire p1 ↔
      beyond r p.l4Offset (L4Lb.segLen r p1) (r.totalOf 14 - r.ihlOf 14) % 65535 = 0 := by
  have hihl := h.parsed.ihl
  have hl4 := h.parsed.l4
  have htot := h.parsed.total
  have htotle := h.parsed.total_le
  obtain ⟨hev, h4, hlen, -, hle⟩ := h.ckOffset_le hproto
  rw [h.l4] at hl4
  rw [← h.segLen hproto] at hlen hle
  have hck : (if decide (p.ipProtocol = 6) = true then 16 else 6) = ckOffset p.ipProtocol := by
    simp [ckOffset]
  have hl4r : p.l4Offset = 14 + r.ihlOf 14 := by rw [h.ihlOf hproto, hl4]
  have hn : r.totalOf 14 ≤ 65535 := Nat.le_of_lt_succ (UInt16.toNat_lt _)
  obtain ⟨v, hv, -, hne⟩ := ho.onWire_eq hl4r
  have hcast := ho.segSum_cast hl4r (hck ▸ hlen) (by rw [h.totalOf hproto, h.ihlOf hproto]; omega) (by omega)
    (h.ihlOf hproto ▸ hihl)
  rw [hck] at hv
  have hseg : L4Lb.segLen r.onWire p1 = L4Lb.segLen r p1 := by
    rw [hv, ← h.l4, ← h.protocol]
    exact segLen_set16 (by rw [h.l4]; omega) r v
  have hpos : 0 < segSum r.onWire 14 p1.l4Offset (L4Lb.segLen r p1) := by
    apply segSum_pos
    rw [hv, Mbuf.byte_set16_of _ (by omega), h.byte_protocol hproto]
    exact hproto
  unfold L4Valid
  rw [hseg, h.protocol, h.l4, or_iff_right, valid_iff, hcast, neg_eq_zero, ZMod.natCast_eq_zero_iff,
    Nat.dvd_iff_mod_eq_zero]
  · exact and_iff_right (h.l4 ▸ hpos)
  · -- the NIC never sends 0 for UDP
    intro ⟨h17, h0⟩
    have hck6 : ckOffset p.ipProtocol = 6 := by rw [h17]; rfl
    rw [hv, hck6, Mbuf.get16_set16] at h0
    exact hne (by rw [h17]; rfl) h0

/-- A UDP datagram is not edited, so that what is behind it is what was. -/
theorem Rewritten.beyond_eq {m m1 r : Mbuf} {p p1 : PacketMeta} {rw : NatRewrite} {opt : NatOptions}
    {edited : Bool} {c : UInt16} (h : Rewritten m p rw opt edited m1 p1 c r) (hm : Parsed m p)
    (hudp : p.ipProtocol = 17) :
    beyond r p.l4Offset (L4Lb.segLen r p1) (r.totalOf 14 - r.ihlOf 14) =
      beyond m p.l4Offset (m.udpLenOf p.l4Offset) (m.totalOf 14 - m.ihlOf 14) := by
  have hproto : p.ipProtocol = 6 ∨ p.ipProtocol = 17 := Or.inr hudp
  have h6 : p.ipProtocol ≠ 6 := by rw [hudp]; decide
  obtain ⟨hb, hp1⟩ := h.unedited (Bool.eq_false_iff.mpr fun e => h6 (h.edited_tcp e))
  have hlen : L4Lb.segLen m1 p1 = m.udpLenOf p.l4Offset := by
    rw [hp1, L4Lb.segLen, if_neg h6]
    exact Mbuf.udpLenOf_congr fun i _ _ => congrFun hb i
  have htot : m1.totalOf 14 = m.totalOf 14 := Mbuf.totalOf_congr fun i _ _ => congrFun hb i
  have hihl : m1.ihlOf 14 = m.ihlOf 14 := Mbuf.ihlOf_congr (congrFun hb _)
  have h8 := (hm.udp hudp).1
  have hck6 : ckOffset p.ipProtocol = 6 := if_neg h6
  rw [h.segLen hproto, hlen, h.totalOf hproto, h.ihlOf hproto, htot, hihl]
  apply beyond_congr
  intro i hi
  rw [h.byte_l4 hproto (by omega) (by omega), hb]

/-- **The checksum of the NIC.** With the TX offload for its protocol every TCP or
UDP frame that `parse` accepts is rewritten, unless its TTL is used up. The
receiver then takes the L4 checksum on the wire if and only if the frame is TCP,
or what the IP payload has behind the UDP datagram adds up to nothing. -/
theorem onWire_l4Valid_iff {m : Mbuf} {p : PacketMeta} (hp : parse m = .ok (.ok, p)) (heth : p.etherType = 0x0800)
    (hproto : p.ipProtocol = 6 ∨ p.ipProtocol = 17) (rw : NatRewrite) (opt : NatOptions)
    (htx : opt.offloads p.ipProtocol = true) :
    Returns (natRewrite m p rw opt) fun (result, r, p', _) =>
      (result = .ok ↔ 1 < p.ipTtl) ∧
      (result = .ok → (L4Valid r.onWire p' ↔ p.ipProtocol = 6 ∨
        beyond m p.l4Offset (m.udpLenOf p.l4Offset) (m.totalOf 14 - m.ihlOf 14) % 65535 = 0)) := by
  have hm := parsed_of_parse hp heth
  by_cases httl : m.byte 22 ≤ 1
  · refine ⟨_, (natRewrite_spec hm hproto rw opt).1 httl, ?_, by simp⟩
    rw [hm.ttl]
    simpa using UInt8.not_lt.mpr httl
  obtain ⟨r, p1, out, m1, c, hr, h, ho⟩ := natRewrite_offload hm hproto rw htx httl
  refine ⟨_, hr, ?_, fun _ => ?_⟩
  · rw [hm.ttl]
    simpa using UInt8.not_le.mp httl
  show L4Valid r.onWire p1 ↔ _
  rw [h.onWire_valid_iff hproto ho]
  rcases hproto with h6 | h17
  · -- the receiver of a TCP segment checks what the NIC has added up
    have hlen : L4Lb.segLen r p1 = r.totalOf 14 - r.ihlOf 14 := if_pos (h.protocol.trans h6)
    simp [hlen, h6]
  · have h6 : p.ipProtocol ≠ 6 := by rw [h17]; decide
    rw [h.beyond_eq hm h17, or_iff_right h6]

theorem onWire_l4Valid_iff_syn :
    parse synFrame = .ok (.ok, metaOf synFrame) ∧
      Returns (natRewrite synFrame (metaOf synFrame) synRewrite { txTcpCksum := true }) fun (result, r, p', _) =>
        result = .ok ∧ L4Valid r.onWire p' := by
  obtain ⟨a, ha, hok, hv⟩ := onWire_l4Valid_iff (m := synFrame) (p := metaOf synFrame) rfl (by decide +kernel)
    (Or.inl (by decide +kernel)) synRewrite { txTcpCksum := true } (by decide +kernel)
  have hres := hok.mpr (by decide +kernel)
  exact ⟨rfl, a, ha, hres, (hv hres).mpr (Or.inl (by decide +kernel))⟩

/-- A UDP datagram without data from 10.0.0.1:1234 to 10.0.0.2:53, with two more
bytes in the IP payload. -/
def trailedFrame : Mbuf :=
  Mbuf.ofBytes
    [2, 0, 0, 0, 0, 1, 2, 0, 0, 0, 0, 2, 8, 0,
      69, 0, 0, 30, 0, 1, 0, 0, 64, 17, 102, 204, 10, 0, 0, 1, 10, 0, 0, 2,
      4, 210, 0, 53, 0, 8, 230, 212, 1, 2]
    8 (by decide)

/-- The checksum is right before the rewrite and after the one without the
offload, and wrong on the wire with it. -/
theorem onWire_trailed :
    parse trailedFrame = .ok (.ok, metaOf trailedFrame) ∧ IpValid trailedFrame 14 ∧
      L4Valid trailedFrame (metaOf trailedFrame) ∧
      (Returns (natRewrite trailedFrame (metaOf trailedFrame) synRewrite {}) fun (result, r, p', _) =>
        result = .ok ∧ L4Valid r p') ∧
      Returns (natRewrite trailedFrame (metaOf trailedFrame) synRewrite { txUdpCksum := true })
        fun (result, r, p', _) => result = .ok ∧ ¬ L4Valid r.onWire p' := by
  refine ⟨rfl, by decide +kernel, by decide +kernel, ⟨_, rfl, rfl, ?_⟩, ⟨_, rfl, rfl, ?_⟩⟩ <;> decide +kernel

end L4Lb
