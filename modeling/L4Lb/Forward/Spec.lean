/-
# What the rewriting functions do to an accepted frame

On a frame that `parse` has accepted every function of `Forward` returns: no
access leaves the frame and no offset is cut off. Each lemma also says which
bytes change, in the terms the checksum results need.
-/
import L4Lb.Forward

open Checked OnesComplement

namespace L4Lb

/-! ### Frames with the same headers -/

/-- `Parsed` reads the headers up to the fixed part of the L4 header. -/
theorem Parsed.congr {m m' : Mbuf} {p : PacketMeta} (h : Parsed m p)
    (hb : ∀ i, i < p.l4Offset + 20 → m'.byte i = m.byte i) (hlen : p.totalLen ≤ m'.dataLen) :
    Parsed m' p := by
  have hl4 := h.l4
  have hihl := h.ihl
  have e16 : ∀ off, off + 2 ≤ p.l4Offset + 20 → m'.get16 off = m.get16 off := fun off ho =>
    Mbuf.get16_congr (hb _ (by omega)) (hb _ (by omega))
  have e32 : ∀ off, off + 4 ≤ p.l4Offset + 20 → m'.get32 off = m.get32 off := fun off ho =>
    Mbuf.get32_congr fun i _ _ => hb i (by omega)
  have eihl : m'.ihlOf 14 = m.ihlOf 14 := Mbuf.ihlOf_congr (hb 14 (by omega))
  have etot : m'.totalOf 14 = m.totalOf 14 := Mbuf.totalOf_congr fun i _ _ => hb i (by omega)
  have edoff : m'.doffOf p.l4Offset = m.doffOf p.l4Offset := Mbuf.doffOf_congr (hb _ (by omega))
  have eudp : m'.udpLenOf p.l4Offset = m.udpLenOf p.l4Offset :=
    Mbuf.udpLenOf_congr fun i _ _ => hb i (by omega)
  have emac : m'.getMac 6 = m.getMac 6 := by
    unfold Mbuf.getMac
    congr 1
    funext i
    exact hb _ (by omega)
  refine ⟨h.l3, ?_, ?_, ?_, ?_, h.l4_le, hlen, ?_, ?_, ?_, ?_, ?_, ?_, ?_, ?_, ?_, h.icmp, h.flags⟩
  · rw [hb 14 (by omega)]; exact h.version
  · rw [eihl]; exact h.ihl
  · rw [eihl]; exact h.l4
  · rw [etot]; exact h.total
  · rw [emac]; exact h.srcMac
  · rw [e32 _ (by omega)]; exact h.srcIp
  · rw [e32 _ (by omega)]; exact h.dstIp
  · rw [hb _ (by omega)]; exact h.protocol
  · rw [hb _ (by omega)]; exact h.ttl
  · rw [e16 _ (by omega)]; exact h.unfragmented
  · rw [e16 _ (by omega), e16 _ (by omega)]; exact h.ports
  · rw [edoff, hb _ (by omega)]; exact h.tcp
  · rw [eudp]; exact h.udp

/-! ### Stripping the timestamp -/

/-- The loop changes bytes from `opt` up to `stop` only, and none if it does
not say so. -/
theorem stripLoop_returns (stop : ℕ) : ∀ (fuel : ℕ) (m : Mbuf) (opt : ℕ) (changed : Bool),
    stop ≤ m.dataLen → opt ≤ stop → stop < fuel + opt →
    Returns (stripLoop stop fuel m opt changed) fun r =>
      Mbuf.SameShape m r.1 ∧ (∀ i, i < opt ∨ stop ≤ i → r.1.byte i = m.byte i) ∧
        (r.2 = false → r.1 = m ∧ changed = false)
  | 0, _, _, _, _, _, _ => by omega
  | fuel + 1, m, opt, changed, hlen, hopt, hf => by
    unfold stripLoop
    by_cases h1 : opt ≥ stop
    · rw [if_pos h1]
      exact .ok ⟨.refl m, fun _ _ => rfl, fun h => ⟨rfl, h⟩⟩
    rw [if_neg h1, Mbuf.load8_eq (by omega), ok_bind]
    by_cases h2 : m.byte opt = 0
    · rw [if_pos h2]
      exact .ok ⟨.refl m, fun _ _ => rfl, fun h => ⟨rfl, h⟩⟩
    rw [if_neg h2]
    by_cases h3 : m.byte opt = 1
    · rw [if_pos h3]
      refine (stripLoop_returns stop fuel m (opt + 1) changed hlen (by omega) (by omega)).mono ?_
      rintro r ⟨hs, hb, hc⟩
      exact ⟨hs, fun i hi => hb i (by omega), hc⟩
    rw [if_neg h3]
    by_cases h4 : opt + 1 ≥ stop
    · rw [if_pos h4]
      exact .ok ⟨.refl m, fun _ _ => rfl, fun h => ⟨rfl, h⟩⟩
    rw [if_neg h4, Mbuf.load8_eq (by omega)]
    simp only [ok_bind]
    by_cases h5 : (m.byte (opt + 1)).toNat < 2 ∨ opt + (m.byte (opt + 1)).toNat > stop
    · rw [if_pos h5]
      exact .ok ⟨.refl m, fun _ _ => rfl, fun h => ⟨rfl, h⟩⟩
    rw [if_neg h5]
    by_cases h6 : m.byte opt = 8
    · -- the option is all NOPs now, and the walk goes on inside it
      simp only [h6, ↓reduceIte, beq_self_eq_true, Bool.or_true]
      rw [Mbuf.fill_eq (by omega), ok_bind, Mbuf.load8_eq (by rw [Mbuf.dataLen_put]; omega), ok_bind]
      have hnop : ((m.put opt (m.byte (opt + 1)).toNat fun _ => 1).byte (opt + 1)).toNat = 1 := by
        rw [Mbuf.byte_put, if_pos (by omega)]; rfl
      rw [hnop]
      refine (stripLoop_returns stop fuel _ (opt + 1) true (by rw [Mbuf.dataLen_put]; omega)
        (by omega) (by omega)).mono ?_
      rintro r ⟨hs, hb, hc⟩
      refine ⟨(Mbuf.sameShape_put m _ _ _).trans hs, fun i hi => ?_, fun h => ?_⟩
      · rw [hb i (by omega), Mbuf.byte_put_of_lt _ _ (by omega)]
      · exact absurd (hc h).2 (by simp)
    · simp only [h6, ↓reduceIte, pure_eq_ok, ok_bind]
      rw [Mbuf.load8_eq (by omega), ok_bind]
      refine (stripLoop_returns stop fuel m _ _ hlen (by omega) (by omega)).mono ?_
      rintro r ⟨hs, hb, hc⟩
      refine ⟨hs, fun i hi => hb i (by omega), fun h => ?_⟩
      obtain ⟨he, hch⟩ := hc h
      have h6' : (m.byte opt == 8) = false := by simpa using h6
      rw [h6', Bool.or_false] at hch
      exact ⟨he, hch⟩

theorem stripTimestamp_returns {m : Mbuf} {p : PacketMeta} (h : Parsed m p) (htcp : p.ipProtocol = 6) :
    Returns (stripTimestamp m p.l4Offset) fun r => Mbuf.SameShape m r.1 ∧
      (∀ i, i < p.l4Offset + 20 ∨ p.payloadOffset ≤ i → r.1.byte i = m.byte i) ∧
      (r.2 = false → r.1 = m) := by
  obtain ⟨hdoff, hpay, hle, -⟩ := h.tcp htcp
  have htot := h.total_le
  unfold stripTimestamp
  rw [Mbuf.tcpHeaderLen_eq (by omega), ok_bind, ← hpay]
  refine (stripLoop_returns p.payloadOffset _ m (p.l4Offset + 20) false (by omega) (by omega)
    (by omega)).mono ?_
  rintro r ⟨hs, hb, hc⟩
  exact ⟨hs, hb, fun h => (hc h).1⟩

theorem stripOption_returns {m : Mbuf} {p : PacketMeta} (h : Parsed m p) (htcp : p.ipProtocol = 6)
    (opt : NatOptions) :
    Returns (stripOption m p.l4Offset opt) fun r => Parsed r.1 p ∧ (r.2 = false → r.1.byte = m.byte) := by
  obtain ⟨hdoff, hpay, hle, -⟩ := h.tcp htcp
  have htot := h.total_le
  unfold stripOption
  split
  · exact .ok ⟨h, fun _ => rfl⟩
  rw [Mbuf.load8_eq (by omega), ok_bind]
  split
  · refine (stripTimestamp_returns h htcp).mono ?_
    rintro r ⟨hs, hb, hc⟩
    exact ⟨h.congr (fun i hi => hb i (Or.inl hi)) (by rw [hs.dataLen]; exact htot), fun hr => by rw [hc hr]⟩
  · exact .ok ⟨h, fun _ => rfl⟩

/-! ### Inserting the TOA option -/

/-- The frame with a TOA option: everything behind the fixed part of the TCP
header has moved by 8 bytes, and the two lengths are larger by 8. -/
def toaFrame (m : Mbuf) (p : PacketMeta) (ip : IPv4Addr) (port : Port) : Mbuf :=
  let l4 := p.l4Offset
  let moved := m.put (l4 + 20 + 8) (p.totalLen - (l4 + 20)) fun k => m.byte (l4 + 20 + k)
  let option := (((moved.set8 (l4 + 20) 254).set8 (l4 + 20 + 1) 8).set16 (l4 + 20 + 2) port).set32
    (l4 + 20 + 4) ip
  let doff := UInt8.ofNat ((m.doffOf l4 + 8) / 4 * 16 + (m.byte (l4 + 12)).toNat % 16)
  (option.set8 (l4 + 12) doff).set16 16 (bswap16 (UInt16.ofNat (m.totalOf 14 + 8)))

/-- The offsets of the frame with a TOA option. -/
def PacketMeta.addToa (p : PacketMeta) : PacketMeta :=
  { p with totalLen := p.totalLen + 8, payloadOffset := p.payloadOffset + 8 }

theorem writeToa_eq {m : Mbuf} {p : PacketMeta} {doff ipLen : ℕ} (ip : IPv4Addr) (port : Port)
    (hl3 : p.l3Offset = 14) (hpay : p.payloadOffset = p.l4Offset + doff)
    (hdoff : 20 ≤ doff) (hle : p.payloadOffset ≤ p.totalLen) (htot : p.totalLen = 14 + ipLen)
    (hlen : m.dataLen = p.totalLen + 8) (h12 : m.doffOf p.l4Offset = doff) (h16 : m.totalOf 14 = ipLen) :
    writeToa m p ip port doff ipLen = .ok (toaFrame m p ip port, p.addToa) := by
  have hfit := m.fits
  unfold writeToa toaFrame PacketMeta.addToa
  simp only [hl3, h12, h16, ← htot]
  rw [sizeSub_eq (by omega), Mbuf.move_eq (by omega) (by omega), ok_bind,
    Mbuf.store8_eq (by rw [Mbuf.dataLen_put]; omega), ok_bind, Mbuf.store8_eq (by simp; omega), ok_bind,
    Mbuf.store16_eq (by simp; omega), ok_bind, Mbuf.store32_eq (by simp; omega), ok_bind,
    Mbuf.load8_eq (by simp; omega), ok_bind, Mbuf.store8_eq (by simp; omega), ok_bind,
    Mbuf.store16_eq (by simp; omega), ok_bind, narrow_eq (by omega), ok_bind, narrow_eq (by omega), ok_bind]
  simp (disch := omega) only [Mbuf.byte_set32_of, Mbuf.byte_set16_of, Mbuf.byte_set8_of,
    Mbuf.byte_put_of_lt]
  rfl

/-- Before the option, only the two lengths change. -/
theorem toaFrame_byte {m : Mbuf} {p : PacketMeta} (ip : IPv4Addr) (port : Port) {i : ℕ}
    (hi : i < p.l4Offset + 20) (h16 : i < 16 ∨ 18 ≤ i) (h12 : i ≠ p.l4Offset + 12) :
    (toaFrame m p ip port).byte i = m.byte i := by
  unfold toaFrame
  simp (disch := omega) only [Mbuf.byte_set32_of, Mbuf.byte_set16_of, Mbuf.byte_set8_of,
    Mbuf.byte_put_of_lt]

/-- The data offset grows, the reserved bits beside it stay. -/
theorem toaFrame_dataOffset {m : Mbuf} {p : PacketMeta} (ip : IPv4Addr) (port : Port) (hl4 : 34 ≤ p.l4Offset)
    (h60 : m.doffOf p.l4Offset + 8 ≤ 60) : ((toaFrame m p ip port).byte (p.l4Offset + 12)).toNat =
      (m.doffOf p.l4Offset + 8) / 4 * 16 + (m.byte (p.l4Offset + 12)).toNat % 16 := by
  unfold toaFrame
  simp only
  rw [Mbuf.byte_set16_of _ (by omega), Mbuf.byte_set8, if_pos rfl, UInt8.toNat_ofNat']
  omega

theorem doffOf_toaFrame {m : Mbuf} {p : PacketMeta} (ip : IPv4Addr) (port : Port) (hl4 : 34 ≤ p.l4Offset)
    (h60 : m.doffOf p.l4Offset + 8 ≤ 60) :
    (toaFrame m p ip port).doffOf p.l4Offset = m.doffOf p.l4Offset + 8 := by
  have hb := toaFrame_dataOffset ip port hl4 h60
  unfold Mbuf.doffOf at *
  rw [hb]
  omega

theorem totalOf_toaFrame {m : Mbuf} {p : PacketMeta} (ip : IPv4Addr) (port : Port)
    (h : m.totalOf 14 + 8 ≤ 65535) : (toaFrame m p ip port).totalOf 14 = m.totalOf 14 + 8 := by
  unfold Mbuf.totalOf at *
  unfold toaFrame
  rw [Mbuf.get16_set16, bswap16_bswap16, UInt16.toNat_ofNat']
  unfold Mbuf.totalOf
  omega

/-- The frame with the option is one that `parse` accepts, with the offsets
`insert_toa` gives. -/
theorem Parsed.toaFrame {m m2 : Mbuf} {p : PacketMeta} (h : Parsed m p) (htcp : p.ipProtocol = 6)
    (hb : m2.byte = m.byte) (hlen : m2.dataLen = p.totalLen + 8) (h60 : m.doffOf p.l4Offset + 8 ≤ 60)
    (ip : IPv4Addr) (port : Port) : Parsed (toaFrame m2 p ip port) p.addToa := by
  have hfit := m2.fits
  have hl4 := h.l4
  have hihl := h.ihl
  have htot := h.total
  obtain ⟨hdoff, hpay, hle, hflags⟩ := h.tcp htcp
  have eihl2 : m2.ihlOf 14 = m.ihlOf 14 := Mbuf.ihlOf_congr (congrFun hb _)
  have etot2 : m2.totalOf 14 = m.totalOf 14 := Mbuf.totalOf_congr fun i _ _ => congrFun hb i
  have edoff2 : m2.doffOf p.l4Offset = m.doffOf p.l4Offset := Mbuf.doffOf_congr (congrFun hb _)
  have hfix : ∀ i, i < p.l4Offset + 20 → (i < 16 ∨ 18 ≤ i) → i ≠ p.l4Offset + 12 →
      (L4Lb.toaFrame m2 p ip port).byte i = m.byte i := fun i h1 h2 h3 => by
    rw [toaFrame_byte ip port h1 h2 h3, hb]
  have e16 : ∀ off, 18 ≤ off → off ≤ p.l4Offset + 2 →
      (L4Lb.toaFrame m2 p ip port).get16 off = m.get16 off := fun off h1 h2 =>
    Mbuf.get16_congr (hfix _ (by omega) (by omega) (by omega)) (hfix _ (by omega) (by omega) (by omega))
  have e32 : ∀ off, 18 ≤ off → off ≤ p.l4Offset →
      (L4Lb.toaFrame m2 p ip port).get32 off = m.get32 off := fun off h1 h2 =>
    Mbuf.get32_congr fun i _ _ => hfix i (by omega) (by omega) (by omega)
  have eihl : (L4Lb.toaFrame m2 p ip port).ihlOf 14 = m.ihlOf 14 :=
    Mbuf.ihlOf_congr (hfix 14 (by omega) (by omega) (by omega))
  have etot : (L4Lb.toaFrame m2 p ip port).totalOf 14 = m.totalOf 14 + 8 := by
    rw [totalOf_toaFrame ip port (by omega), etot2]
  have edoff : (L4Lb.toaFrame m2 p ip port).doffOf p.l4Offset = m.doffOf p.l4Offset + 8 := by
    rw [doffOf_toaFrame ip port (by omega) (by omega), edoff2]
  have emac : (L4Lb.toaFrame m2 p ip port).getMac 6 = m.getMac 6 := by
    unfold Mbuf.getMac
    congr 1
    funext i
    exact hfix _ (by omega) (by omega) (by omega)
  refine ⟨h.l3, ?_, ?_, ?_, ?_, ?_, ?_, ?_, ?_, ?_, ?_, ?_, ?_, ?_, fun _ => ⟨?_, ?_, ?_, ?_⟩, ?_, ?_, ?_⟩
  · rw [hfix 14 (by omega) (by omega) (by omega)]; exact h.version
  · rw [eihl]; exact h.ihl
  · rw [eihl]; exact h.l4
  · rw [etot]; show p.totalLen + 8 = _; omega
  · show p.l4Offset ≤ p.totalLen + 8; omega
  · show p.totalLen + 8 ≤ m2.dataLen; omega
  · rw [emac]; exact h.srcMac
  · rw [e32 _ (by omega) (by omega)]; exact h.srcIp
  · rw [e32 _ (by omega) (by omega)]; exact h.dstIp
  · rw [hfix _ (by omega) (by omega) (by omega)]; exact h.protocol
  · rw [hfix _ (by omega) (by omega) (by omega)]; exact h.ttl
  · rw [e16 _ (by omega) (by omega)]; exact h.unfragmented
  · intro hp
    obtain ⟨hsrc, hdst⟩ := h.ports hp
    exact ⟨hsrc.trans (e16 _ (by omega) (by omega)).symm, hdst.trans (e16 _ (by omega) le_rfl).symm⟩
  · show 20 ≤ (L4Lb.toaFrame m2 p ip port).doffOf p.l4Offset; omega
  · show p.payloadOffset + 8 = p.l4Offset + (L4Lb.toaFrame m2 p ip port).doffOf p.l4Offset; omega
  · show p.payloadOffset + 8 ≤ p.totalLen + 8; omega
  · show _ = (L4Lb.toaFrame m2 p ip port).byte (p.l4Offset + 13)
    rw [hfix _ (by omega) (by omega) (by omega)]; exact hflags
  · intro h17; exact absurd (htcp.symm.trans h17) (by decide)
  · intro h1; exact absurd (htcp.symm.trans h1) (by decide)
  · intro h6; exact absurd htcp h6

/-- `insert_toa` returns: without the option the bytes of the packet are what
they were. -/
theorem insertToa_returns {m : Mbuf} {p : PacketMeta} (h : Parsed m p) (htcp : p.ipProtocol = 6)
    (ip : IPv4Addr) (port : Port) (mtu : ℕ) :
    Returns (insertToa m p ip port mtu) fun r =>
      (r.2.2 = false → r.2.1 = p ∧ r.1.byte = m.byte ∧ p.totalLen ≤ r.1.dataLen) ∧
      (r.2.2 = true → ∃ m2 : Mbuf, m2.byte = m.byte ∧ m2.dataLen = p.totalLen + 8 ∧
        m.doffOf p.l4Offset + 8 ≤ 60 ∧ r.1 = toaFrame m2 p ip port ∧ r.2.1 = p.addToa) := by
  obtain ⟨hdoff, hpay, hle, -⟩ := h.tcp htcp
  have htot := h.total
  have htotle := h.total_le
  have hl3 := h.l3
  unfold insertToa
  simp only [hl3, Mbuf.tcpHeaderLen_eq (m := m) (show p.l4Offset + 12 < m.dataLen by omega),
    Mbuf.ipTotalLength_eq (m := m) (show 14 + 4 ≤ m.dataLen by omega), ok_bind]
  split
  · exact .ok ⟨fun _ => ⟨rfl, rfl, htotle⟩, by simp⟩
  rename_i hroom
  -- the frame without its padding
  set m1 := if m.dataLen > 14 + m.totalOf 14 then m.trim (m.dataLen - (14 + m.totalOf 14)) else m with hm1
  have hbyte1 : m1.byte = m.byte := by rw [hm1]; split <;> rfl
  have hlen1 : m1.dataLen = p.totalLen := by
    rw [hm1]
    split
    · show m.dataLen - (m.dataLen - _) = _; omega
    · omega
  cases happ : m1.append 8 with
  | none => exact .ok ⟨fun _ => ⟨rfl, hbyte1, hlen1.ge⟩, by simp⟩
  | some m2 =>
    have hm2 : m2.byte = m.byte ∧ m2.dataLen = p.totalLen + 8 := by
      unfold Mbuf.append at happ
      split at happ
      · obtain rfl := Option.some.inj happ
        exact ⟨hbyte1, by rw [← hlen1]⟩
      · simp at happ
    obtain ⟨hbyte2, hlen2⟩ := hm2
    have edoff2 : m2.doffOf p.l4Offset = m.doffOf p.l4Offset := Mbuf.doffOf_congr (congrFun hbyte2 _)
    have etot2 : m2.totalOf 14 = m.totalOf 14 := Mbuf.totalOf_congr fun i _ _ => congrFun hbyte2 i
    simp only [writeToa_eq ip port hl3 hpay hdoff hle htot hlen2 edoff2 etot2, ok_bind]
    exact .ok ⟨by simp, fun _ => ⟨m2, hbyte2, hlen2, by omega, rfl, rfl⟩⟩

/-- The option edits leave a frame that `parse` accepts. If the L4 checksum
need not be computed in full, the bytes are those of the frame before. -/
theorem rewriteOptions_returns {m : Mbuf} {p : PacketMeta} (h : Parsed m p) (hl4 : p.l4Offset + 8 ≤ p.totalLen)
    (opt : NatOptions) :
    Returns (rewriteOptions m p opt) fun r => Parsed r.1 r.2.1 ∧ r.2.1.l4Offset = p.l4Offset ∧
      r.2.1.ipProtocol = p.ipProtocol ∧ (r.2.2.2 = (r.2.2.1.tsStripped || r.2.2.1.toaAdded)) ∧
      (r.2.2.2 = false → r.1.byte = m.byte ∧ r.2.1 = p) ∧ (r.2.2.2 = true → p.ipProtocol = 6) := by
  have htot := h.total_le
  have hl3 := h.l3
  have hihl := h.ihl
  have hl4eq := h.l4
  unfold rewriteOptions
  rw [Mbuf.load8_eq (by omega), ok_bind, hl3, ← show _ = m.byte (14 + 9) from h.protocol]
  by_cases htcp : p.ipProtocol = 6
  swap
  · rw [if_pos htcp]
    exact .ok ⟨h, rfl, rfl, rfl, fun _ => ⟨rfl, rfl⟩, by simp⟩
  obtain ⟨hdoff, hpay, hle, -⟩ := h.tcp htcp
  rw [if_neg (not_not.mpr htcp)]
  refine (stripOption_returns h htcp opt).bind ?_
  rintro ⟨m1, stripped⟩ ⟨h1, hs1⟩
  simp only
  split
  · refine (insertToa_returns h1 htcp opt.toaIp opt.toaPort opt.mtu).bind ?_
    rintro ⟨m2, p2, added⟩ ⟨hno, hyes⟩
    cases added with
    | false =>
      obtain ⟨rfl, hb, hlen⟩ := hno rfl
      refine .ok ⟨h1.congr (fun i _ => congrFun hb i) hlen, rfl, rfl, rfl, fun hf => ⟨?_, rfl⟩, fun _ => htcp⟩
      rw [Bool.or_false] at hf
      exact hb.trans (hs1 hf)
    | true =>
      obtain ⟨m3, hb, hlen, h60, rfl, rfl⟩ := hyes rfl
      exact .ok ⟨h1.toaFrame htcp hb hlen h60 _ _, rfl, rfl, rfl, by simp, fun _ => htcp⟩
  · exact .ok ⟨h1, rfl, rfl, by simp, fun hf => ⟨hs1 hf, rfl⟩, fun _ => htcp⟩

/-! ### The IP header -/

/-- The frame with other addresses, one less TTL and the checksum of that
header. -/
def ipFrame (m : Mbuf) (ip : ℕ) (srcIp dstIp : IPv4Addr) : Mbuf :=
  let m' := ((m.set32 (ip + 12) srcIp).set32 (ip + 16) dstIp).set8 (ip + 8) (m.byte (ip + 8) - 1)
  m'.set16 (ip + 10) (ipSum m' ip)

theorem rewriteIp_eq {m : Mbuf} {ip : ℕ} (h : ip + m.ihlOf ip ≤ m.dataLen) (h20 : 20 ≤ m.ihlOf ip)
    (srcIp dstIp : IPv4Addr) : rewriteIp m ip srcIp dstIp = .ok (ipFrame m ip srcIp dstIp) := by
  have hihl : (((m.set32 (ip + 12) srcIp).set32 (ip + 16) dstIp).set8 (ip + 8) (m.byte (ip + 8) - 1)).ihlOf ip
      = m.ihlOf ip := by
    apply Mbuf.ihlOf_congr
    simp (disch := omega) only [Mbuf.byte_set32_of, Mbuf.byte_set8_of]
  unfold rewriteIp ipFrame
  rw [Mbuf.store32_eq (by omega), ok_bind, Mbuf.store32_eq (by simp; omega), ok_bind,
    Mbuf.load8_eq (by simp; omega), ok_bind, Mbuf.store8_eq (by simp; omega), ok_bind]
  simp (disch := omega) only [Mbuf.byte_set32_of]
  exact ipChecksumUpdate_eq (by rw [hihl]; simpa using h) (by rw [hihl]; exact h20)

/-- Outside the TTL, the checksum and the addresses nothing changes. -/
theorem ipFrame_byte {m : Mbuf} {ip i : ℕ} (srcIp dstIp : IPv4Addr)
    (h : i < ip + 8 ∨ i = ip + 9 ∨ ip + 20 ≤ i) : (ipFrame m ip srcIp dstIp).byte i = m.byte i := by
  unfold ipFrame
  simp (disch := omega) only [Mbuf.byte_set16_of, Mbuf.byte_set32_of, Mbuf.byte_set8_of]

@[simp] theorem dataLen_ipFrame (m : Mbuf) (ip : ℕ) (srcIp dstIp : IPv4Addr) :
    (ipFrame m ip srcIp dstIp).dataLen = m.dataLen := rfl

theorem ipFrame_srcIp (m : Mbuf) (ip : ℕ) (srcIp dstIp : IPv4Addr) :
    (ipFrame m ip srcIp dstIp).get32 (ip + 12) = srcIp := by
  rw [← Mbuf.get32_set32 m (ip + 12) srcIp]
  refine Mbuf.get32_congr fun i _ _ => ?_
  unfold ipFrame
  simp (disch := omega) only [Mbuf.byte_set16_of, Mbuf.byte_set8_of, Mbuf.byte_set32_of]
  rw [Mbuf.get32_set32]

theorem ipFrame_dstIp (m : Mbuf) (ip : ℕ) (srcIp dstIp : IPv4Addr) :
    (ipFrame m ip srcIp dstIp).get32 (ip + 16) = dstIp := by
  rw [← Mbuf.get32_set32 (m.set32 (ip + 12) srcIp) (ip + 16) dstIp]
  refine Mbuf.get32_congr fun i _ _ => ?_
  unfold ipFrame
  simp (disch := omega) only [Mbuf.byte_set16_of, Mbuf.byte_set8_of]
  rw [Mbuf.get32_set32]

/-- The TTL is one less. -/
theorem ipFrame_ttl {m : Mbuf} {ip : ℕ} (srcIp dstIp : IPv4Addr) (h : ¬ m.byte (ip + 8) ≤ 1) :
    ((ipFrame m ip srcIp dstIp).byte (ip + 8)).toNat + 1 = (m.byte (ip + 8)).toNat := by
  have hb : (ipFrame m ip srcIp dstIp).byte (ip + 8) = m.byte (ip + 8) - 1 := by
    unfold ipFrame
    rw [Mbuf.byte_set16_of _ (by omega), Mbuf.byte_set8, if_pos rfl]
  have h1 : (1 : UInt8) ≤ m.byte (ip + 8) := UInt8.le_of_lt (UInt8.not_le.mp h)
  have h1' : 1 ≤ (m.byte (ip + 8)).toNat := UInt8.le_iff_toNat_le.mp h1
  rw [hb, UInt8.toNat_sub_of_le _ _ h1]
  show (m.byte (ip + 8)).toNat - 1 + 1 = _
  omega

/-! ### The L4 header -/

/-- The frame with other ports and another checksum, at `ck` of the header. -/
def l4Frame (m : Mbuf) (l4 ck : ℕ) (srcPort dstPort : Port) (c : UInt16) : Mbuf :=
  ((m.set16 l4 srcPort).set16 (l4 + 2) dstPort).set16 (l4 + ck) c

theorem l4Frame_byte {m : Mbuf} {l4 ck i : ℕ} (srcPort dstPort : Port) (c : UInt16)
    (h : i < l4 ∨ (l4 + 4 ≤ i ∧ (i < l4 + ck ∨ l4 + ck + 2 ≤ i))) (hck : 4 ≤ ck) :
    (l4Frame m l4 ck srcPort dstPort c).byte i = m.byte i := by
  unfold l4Frame
  simp (disch := omega) only [Mbuf.byte_set16_of]

namespace L4Checksum

/-- The four updates of a TCP checksum. -/
def tcpInc (c : UInt16) (old new : FiveTuple) : UInt16 :=
  let c := incIp (incIp c old.srcIp new.srcIp) old.dstIp new.dstIp
  incrementalUpdate (incrementalUpdate c old.srcPort new.srcPort) old.dstPort new.dstPort

/-- The four updates of a UDP checksum that is there. -/
def udpInc (c : UInt16) (old new : FiveTuple) : UInt16 :=
  let c := udpFix (incIp (udpFix (incIp c old.srcIp new.srcIp)) old.dstIp new.dstIp)
  udpFix (incrementalUpdate (udpFix (incrementalUpdate c old.srcPort new.srcPort)) old.dstPort new.dstPort)

end L4Checksum

/-- The tuple of the rewritten packet. -/
def NatRewrite.tuple (rw : NatRewrite) (protocol : UInt8) : FiveTuple :=
  ⟨rw.srcIp, rw.dstIp, rw.srcPort, rw.dstPort, protocol⟩

section RewriteL4

variable {m : Mbuf} {p : PacketMeta} (rw : NatRewrite) (opt : NatOptions) (oldSrc oldDst : IPv4Addr)

@[simp] theorem dataLen_withOffload (m : Mbuf) (l2 l3 l4 : ℕ) (flags : OlFlags) :
    (m.withOffload l2 l3 l4 flags).dataLen = m.dataLen := rfl

/-- What `rte_ipv4_phdr_cksum` gives for the packet at `ip`. -/
def phdrSum (m : Mbuf) (ip : ℕ) : UInt16 := UInt16.ofNat (fold (pseudoSum m ip (m.totalOf ip - m.ihlOf ip)))

theorem phdrCksum_eq {ip : ℕ} (h : ip + 20 ≤ m.dataLen) (hihl : m.ihlOf ip ≤ m.totalOf ip) :
    phdrCksum m ip = .ok (phdrSum m ip) := by
  unfold phdrCksum
  rw [Mbuf.ipTotalLength_eq (by omega), ok_bind, Mbuf.ipHeaderLen_eq (by omega), ok_bind,
    Mbuf.load32_eq (by omega), ok_bind, Mbuf.load32_eq (by omega), ok_bind, Mbuf.load8_eq (by omega), ok_bind,
    sizeSub_eq hihl]
  rfl

/-- The NIC gets the sum of the pseudo header, and is told where to put the rest. -/
theorem l4ChecksumOffload_eq {ip l4 : ℕ} (tcp : Bool) (hip : ip + 20 ≤ l4) (hihl : m.ihlOf ip ≤ m.totalOf ip)
    (hlen : l4 + (if tcp then 18 else 8) ≤ m.dataLen) :
    l4ChecksumOffload m p ip l4 tcp = .ok ((m.withOffload p.l3Offset (m.ihlOf ip)
      (if tcp then m.doffOf l4 else 8) { txTcp := tcp, txUdp := !tcp }).set16 (l4 + if tcp then 16 else 6)
        (phdrSum m ip)) := by
  unfold l4ChecksumOffload
  cases tcp with
  | true =>
    simp only [if_true] at hlen ⊢
    rw [Mbuf.ipHeaderLen_eq (by omega), ok_bind, phdrCksum_eq (by omega) hihl, ok_bind,
      Mbuf.tcpHeaderLen_eq (by omega), ok_bind, Mbuf.store16_eq (by rw [dataLen_withOffload]; omega)]
    rfl
  | false =>
    simp only [Bool.false_eq_true, if_false] at hlen ⊢
    rw [Mbuf.ipHeaderLen_eq (by omega), ok_bind, phdrCksum_eq (by omega) hihl, ok_bind,
      Mbuf.store16_eq (by rw [dataLen_withOffload]; omega)]
    rfl

/-- `l4_checksum_full` changes the checksum only. -/
theorem l4ChecksumFull_returns {ip l4 : ℕ} (hip : ip + 20 ≤ l4) (hihl : m.ihlOf ip ≤ m.totalOf ip)
    (htcp : m.byte (ip + 9) = 6 → l4 + (m.totalOf ip - m.ihlOf ip) ≤ m.dataLen ∧
      20 ≤ m.totalOf ip - m.ihlOf ip)
    (hudp : m.byte (ip + 9) ≠ 6 → l4 + m.udpLenOf l4 ≤ m.dataLen ∧ 8 ≤ m.udpLenOf l4) :
    Returns (l4ChecksumFull m p ip l4 opt) fun r => r.dataLen = m.dataLen ∧
      (m.byte (ip + 9) = 6 → ∃ c, r.byte = (m.set16 (l4 + 16) c).byte ∧
        (opt.txTcpCksum = false → c = tcpSum m ip l4 (m.totalOf ip - m.ihlOf ip))) ∧
      (m.byte (ip + 9) ≠ 6 → ∃ c, r.byte = (m.set16 (l4 + 6) c).byte) := by
  have hlen : l4 + 8 ≤ m.dataLen := by
    by_cases h : m.byte (ip + 9) = 6
    · have := htcp h; omega
    · have := hudp h; omega
  unfold l4ChecksumFull
  rw [Mbuf.load8_eq (by omega), ok_bind]
  by_cases h : m.byte (ip + 9) = 6
  · obtain ⟨h1, h2⟩ := htcp h
    simp only [h, decide_true, if_true]
    split
    · rename_i htx
      rw [l4ChecksumOffload_eq true hip hihl (by rw [if_pos rfl]; omega)]
      exact .ok ⟨rfl, fun _ => ⟨_, rfl, fun hno => absurd htx (by simp [hno])⟩, by simp⟩
    · rw [Mbuf.ipTotalLength_eq (by omega), ok_bind, Mbuf.ipHeaderLen_eq (by omega), ok_bind, sizeSub_eq hihl,
        recalculateTcpChecksum_eq (m := clearTxOffload m) hip h2 h1]
      exact .ok ⟨rfl, fun _ => ⟨_, rfl, fun _ => rfl⟩, by simp⟩
  · obtain ⟨h1, h2⟩ := hudp h
    simp only [h, decide_false, Bool.false_eq_true, if_false]
    split
    · rw [l4ChecksumOffload_eq false hip hihl (by rw [if_neg Bool.false_ne_true]; omega)]
      exact .ok ⟨rfl, by simp, fun _ => ⟨_, rfl⟩⟩
    · rw [L4Checksum.recalculateUdpChecksum_eq (m := clearTxOffload m) hip h2 h1]
      exact .ok ⟨rfl, by simp, fun _ => ⟨_, rfl⟩⟩

/-- The frame with the new ports, before its checksum is written. -/
theorem l4Frame_get16 (m : Mbuf) (l4 ck : ℕ) (hck : 4 ≤ ck) (srcPort dstPort : Port) :
    ((m.set16 l4 srcPort).set16 (l4 + 2) dstPort).get16 (l4 + ck) = m.get16 (l4 + ck) := by
  apply Mbuf.get16_congr
  · simp (disch := omega) only [Mbuf.byte_set16_of]
  · simp (disch := omega) only [Mbuf.byte_set16_of]

/-- What `nat_rewrite` writes over the TCP header of the frame `m`. -/
theorem rewriteTcp_returns (full : Bool) (hl3 : p.l3Offset = 14) (hl4 : 34 ≤ p.l4Offset)
    (hihl : m.ihlOf 14 ≤ m.totalOf 14) (h6 : m.byte 23 = 6)
    (hlen : p.l4Offset + (m.totalOf 14 - m.ihlOf 14) ≤ m.dataLen) (h20 : 20 ≤ m.totalOf 14 - m.ihlOf 14) :
    Returns (rewriteTcp m p rw opt oldSrc oldDst full) fun r => r.dataLen = m.dataLen ∧
      ∃ c, r.byte = (l4Frame m p.l4Offset 16 rw.srcPort rw.dstPort c).byte ∧
        (opt.txTcpCksum = false → c =
          if full then tcpSum (l4Frame m p.l4Offset 16 rw.srcPort rw.dstPort 0) 14 p.l4Offset
            (m.totalOf 14 - m.ihlOf 14)
          else L4Checksum.tcpInc (m.get16 (p.l4Offset + 16))
            ⟨oldSrc, oldDst, m.get16 p.l4Offset, m.get16 (p.l4Offset + 2), 6⟩ (rw.tuple 6)) := by
  set m1 := (m.set16 p.l4Offset rw.srcPort).set16 (p.l4Offset + 2) rw.dstPort with hm1
  have hb : ∀ i, i < 34 → m1.byte i = m.byte i := fun i hi => by
    rw [hm1]
    simp (disch := omega) only [Mbuf.byte_set16_of]
  have hlen1 : m1.dataLen = m.dataLen := rfl
  have eihl : m1.ihlOf 14 = m.ihlOf 14 := Mbuf.ihlOf_congr (hb 14 (by omega))
  have etot : m1.totalOf 14 = m.totalOf 14 := Mbuf.totalOf_congr fun i _ _ => hb i (by omega)
  unfold rewriteTcp
  simp only
  rw [Mbuf.load16_eq (by omega), ok_bind, Mbuf.load16_eq (by omega), ok_bind, Mbuf.store16_eq (by omega),
    ok_bind, Mbuf.store16_eq (by rw [Mbuf.dataLen_set16]; omega), ok_bind, ← hm1, hl3]
  split
  · rename_i hfull
    refine (l4ChecksumFull_returns opt (by omega) (by omega) (fun _ => ?_) (fun hne => ?_)).mono ?_
    · rw [eihl, etot]; exact ⟨hlen, h20⟩
    · exact absurd ((hb 23 (by omega)).trans h6) hne
    · rintro r ⟨hd, ht, -⟩
      obtain ⟨c, hc, hsum⟩ := ht ((hb 23 (by omega)).trans h6)
      refine ⟨hd, c, hc, fun htx => ?_⟩
      have hf : full = true := by simpa [htx] using hfull
      rw [hsum htx, eihl, etot, if_pos hf, l4Frame, ← hm1, tcpSum_set16 (by omega)]
  · rename_i hno
    obtain ⟨hf, htx⟩ := not_or.mp hno
    rw [L4Checksum.updateTcpChecksumIp_eq (by omega), ok_bind,
      L4Checksum.updateTcpChecksumIp_eq (by rw [Mbuf.dataLen_set16]; omega), ok_bind,
      L4Checksum.updateTcpChecksumPort_eq (by simp only [Mbuf.dataLen_set16]; omega), ok_bind,
      L4Checksum.updateTcpChecksumPort_eq (by simp only [Mbuf.dataLen_set16]; omega), ok_bind]
    simp only [Mbuf.get16_set16, Mbuf.set16_set16]
    refine .ok ⟨rfl, _, rfl, fun _ => ?_⟩
    rw [if_neg hf, hm1, l4Frame_get16 m _ _ (by omega)]
    rfl

/-- What `nat_rewrite` writes over the UDP header of the frame `m`. -/
theorem rewriteUdp_returns (hl3 : p.l3Offset = 14) (hl4 : 34 ≤ p.l4Offset)
    (hihl : m.ihlOf 14 ≤ m.totalOf 14) (h17 : m.byte 23 = 17)
    (hlen : p.l4Offset + m.udpLenOf p.l4Offset ≤ m.dataLen) (h8 : 8 ≤ m.udpLenOf p.l4Offset) :
    Returns (rewriteUdp m p rw opt oldSrc oldDst) fun r => r.dataLen = m.dataLen ∧
      ∃ c, r.byte = (l4Frame m p.l4Offset 6 rw.srcPort rw.dstPort c).byte ∧
        (opt.txUdpCksum = false → c =
          if m.get16 (p.l4Offset + 6) = 0 then 0
          else L4Checksum.udpInc (m.get16 (p.l4Offset + 6))
            ⟨oldSrc, oldDst, m.get16 p.l4Offset, m.get16 (p.l4Offset + 2), 17⟩ (rw.tuple 17)) := by
  set m1 := (m.set16 p.l4Offset rw.srcPort).set16 (p.l4Offset + 2) rw.dstPort with hm1
  have hb : ∀ i, i < 34 ∨ p.l4Offset + 4 ≤ i → m1.byte i = m.byte i := fun i hi => by
    rw [hm1]
    simp (disch := omega) only [Mbuf.byte_set16_of]
  have hlen1 : m1.dataLen = m.dataLen := rfl
  have eihl : m1.ihlOf 14 = m.ihlOf 14 := Mbuf.ihlOf_congr (hb 14 (by omega))
  have etot : m1.totalOf 14 = m.totalOf 14 := Mbuf.totalOf_congr fun i _ _ => hb i (by omega)
  have eudp : m1.udpLenOf p.l4Offset = m.udpLenOf p.l4Offset :=
    Mbuf.udpLenOf_congr fun i _ _ => hb i (by omega)
  have eck : m1.get16 (p.l4Offset + 6) = m.get16 (p.l4Offset + 6) := l4Frame_get16 m _ _ (by omega) _ _
  have h6 : m1.byte (14 + 9) ≠ 6 := by
    rw [hb (14 + 9) (by omega), h17]
    decide
  unfold rewriteUdp
  simp only
  rw [Mbuf.load16_eq (by omega), ok_bind, Mbuf.load16_eq (by omega), ok_bind, Mbuf.load16_eq (by omega)]
  simp only [ok_bind]
  rw [Mbuf.store16_eq (by omega), ok_bind, Mbuf.store16_eq (by rw [Mbuf.dataLen_set16]; omega), ok_bind,
    ← hm1, hl3]
  split
  · rename_i htx
    refine (l4ChecksumFull_returns opt (by omega) (by omega) (fun h => absurd h h6) (fun _ => ?_)).mono ?_
    · rw [eudp]; exact ⟨hlen, h8⟩
    · rintro r ⟨hd, -, hu⟩
      obtain ⟨c, hc⟩ := hu h6
      exact ⟨hd, c, hc, fun hno => absurd htx (by simp [hno])⟩
  by_cases h0 : m.get16 (p.l4Offset + 6) = 0
  · simp only [h0, ne_eq, not_true_eq_false, decide_false, Bool.false_eq_true, if_false, if_true]
    refine .ok ⟨rfl, 0, ?_, fun _ => rfl⟩
    rw [l4Frame, ← hm1, ← h0, ← eck, Mbuf.set16_get16]
    rfl
  · have hne : ∀ (m : Mbuf) c, (m.set16 (p.l4Offset + 6) (L4Checksum.udpFix c)).get16 (p.l4Offset + 6) ≠ 0 :=
      fun m c => by rw [Mbuf.get16_set16]; exact L4Checksum.udpFix_ne_zero c
    simp only [h0, ne_eq, not_false_eq_true, decide_true, if_true, if_false]
    rw [L4Checksum.updateUdpChecksumIp_eq (by omega) (eck ▸ h0), ok_bind,
      L4Checksum.updateUdpChecksumIp_eq (by rw [Mbuf.dataLen_set16]; omega) (hne _ _), ok_bind,
      L4Checksum.updateUdpChecksumPort_eq (by simp only [Mbuf.dataLen_set16]; omega) (hne _ _), ok_bind,
      L4Checksum.updateUdpChecksumPort_eq (by simp only [Mbuf.dataLen_set16]; omega) (hne _ _), ok_bind]
    simp only [Mbuf.get16_set16, Mbuf.set16_set16, eck]
    exact .ok ⟨rfl, _, rfl, fun _ => rfl⟩

end RewriteL4

/-! ### The whole rewrite -/

/-- Where the L4 header of a protocol has its checksum. -/
def ckOffset (protocol : UInt8) : ℕ := if protocol = 6 then 16 else 6

/-- The L4 checksum of the rewritten packet: `m` is the frame after the option
edits, `edited` says that there was one. -/
def natSum (m : Mbuf) (p : PacketMeta) (rw : NatRewrite) (edited : Bool) : UInt16 :=
  let c := m.get16 (p.l4Offset + ckOffset p.ipProtocol)
  if p.ipProtocol = 6 then
    if edited then
      tcpSum (l4Frame (ipFrame m 14 rw.srcIp rw.dstIp) p.l4Offset 16 rw.srcPort rw.dstPort 0) 14 p.l4Offset
        (m.totalOf 14 - m.ihlOf 14)
    else L4Checksum.tcpInc c p.toFiveTuple (rw.tuple p.ipProtocol)
  else if c = 0 then 0
  else L4Checksum.udpInc c p.toFiveTuple (rw.tuple p.ipProtocol)

/-- Step 3 of `nat_rewrite`, after step 2, on a frame that `parse` accepts. -/
theorem rewriteL4_returns {m : Mbuf} {p : PacketMeta} (h : Parsed m p)
    (hproto : p.ipProtocol = 6 ∨ p.ipProtocol = 17) (rw : NatRewrite) (opt : NatOptions) (full : Bool) :
    Returns (rewriteL4 (ipFrame m 14 rw.srcIp rw.dstIp) p rw opt (m.get32 26) (m.get32 30) full) fun r =>
      r.dataLen = m.dataLen ∧
      ∃ c, r.byte = (l4Frame (ipFrame m 14 rw.srcIp rw.dstIp) p.l4Offset (ckOffset p.ipProtocol)
          rw.srcPort rw.dstPort c).byte ∧
        (opt.txTcpCksum = false → opt.txUdpCksum = false → c = natSum m p rw full) := by
  have hihl := h.ihl
  have hl4 := h.l4
  have htot := h.total
  have htotle := h.total_le
  have hle := h.l4_le
  obtain ⟨hsp, hdp⟩ := h.ports hproto
  set m2 := ipFrame m 14 rw.srcIp rw.dstIp with hm2
  have hb : ∀ i, i < 22 ∨ i = 23 ∨ 34 ≤ i → m2.byte i = m.byte i := fun i hi =>
    ipFrame_byte _ _ (by omega)
  have hb16 : ∀ off, off + 2 ≤ 22 ∨ 34 ≤ off → m2.get16 off = m.get16 off := fun off ho =>
    Mbuf.get16_congr (hb _ (by omega)) (hb _ (by omega))
  have hlen : m2.dataLen = m.dataLen := rfl
  have eihl : m2.ihlOf 14 = m.ihlOf 14 := Mbuf.ihlOf_congr (hb 14 (by omega))
  have etot : m2.totalOf 14 = m.totalOf 14 := Mbuf.totalOf_congr fun i _ _ => hb i (by omega)
  have eprot : m2.byte 23 = p.ipProtocol := (hb 23 (by omega)).trans h.protocol.symm
  have esp : m2.get16 p.l4Offset = p.srcPort := (hb16 _ (by omega)).trans hsp.symm
  have edp : m2.get16 (p.l4Offset + 2) = p.dstPort := (hb16 _ (by omega)).trans hdp.symm
  unfold rewriteL4
  rw [h.l3, Mbuf.load8_eq (by omega), ok_bind, show m2.byte (14 + 9) = _ from eprot]
  rcases hproto with htcp | hudp
  · obtain ⟨hdoff, hpay, hple, -⟩ := h.tcp htcp
    rw [if_pos htcp]
    refine (rewriteTcp_returns rw opt _ _ full h.l3 (by omega) (by omega) (eprot.trans htcp) (by omega)
      (by omega)).mono ?_
    rintro r ⟨hd, c, hc, hsum⟩
    have hck : ckOffset p.ipProtocol = 16 := if_pos htcp
    refine ⟨hd, c, hck ▸ hc, fun htx _ => ?_⟩
    rw [hsum htx]
    unfold natSum PacketMeta.toFiveTuple
    rw [if_pos htcp, hck, hb16 _ (by omega), esp, edp, eihl, etot, ← hm2, htcp, h.srcIp, h.dstIp]
  · obtain ⟨h8, hule, -⟩ := h.udp hudp
    have h6 : p.ipProtocol ≠ 6 := by rw [hudp]; decide
    have eudp : m2.udpLenOf p.l4Offset = m.udpLenOf p.l4Offset :=
      Mbuf.udpLenOf_congr fun i _ _ => hb i (by omega)
    rw [if_neg h6, if_pos hudp]
    refine (rewriteUdp_returns rw opt _ _ h.l3 (by omega) (by omega) (eprot.trans hudp) (by omega)
      (by omega)).mono ?_
    rintro r ⟨hd, c, hc, hsum⟩
    have hck : ckOffset p.ipProtocol = 6 := if_neg h6
    refine ⟨hd, c, hck ▸ hc, fun _ htx => ?_⟩
    rw [hsum htx]
    unfold natSum PacketMeta.toFiveTuple
    rw [if_neg h6, hck, hb16 _ (by omega), esp, edp, hudp, h.srcIp, h.dstIp]

/-- The frame `r` is `m` rewritten: `m1` with the offsets `p1` is the frame
after the option edits, `c` the L4 checksum that went in. -/
structure Rewritten (m : Mbuf) (p : PacketMeta) (rw : NatRewrite) (opt : NatOptions) (edited : Bool)
    (m1 : Mbuf) (p1 : PacketMeta) (c : UInt16) (r : Mbuf) : Prop where
  parsed : Parsed m1 p1
  l4 : p1.l4Offset = p.l4Offset
  protocol : p1.ipProtocol = p.ipProtocol
  unedited : edited = false → m1.byte = m.byte ∧ p1 = p
  edited_tcp : edited = true → p.ipProtocol = 6
  dataLen : r.dataLen = m1.dataLen
  byte : ∀ i, 12 ≤ i → r.byte i = (l4Frame (ipFrame m1 14 rw.srcIp rw.dstIp) p.l4Offset
    (ckOffset p.ipProtocol) rw.srcPort rw.dstPort c).byte i
  sum : opt.txTcpCksum = false → opt.txUdpCksum = false → c = natSum m1 p1 rw edited

theorem setMacs_eq {m : Mbuf} (h : 12 ≤ m.dataLen) (srcMac dstMac : MacAddr) :
    setMacs m srcMac dstMac = .ok ((m.setMac 0 dstMac).setMac 6 srcMac) := by
  unfold setMacs
  rw [Mbuf.storeMac_eq (by omega), ok_bind, Mbuf.storeMac_eq (by rw [Mbuf.dataLen_setMac]; omega)]

/-- `nat_rewrite` after step 1. -/
theorem natRewrite_steps {m m1 : Mbuf} {p p1 : PacketMeta} {opt : NatOptions} {out : RewriteOutcome} {full : Bool}
    (h : Parsed m p) (h1 : Parsed m1 p1) (httl : ¬ m.byte 22 ≤ 1)
    (hopts : rewriteOptions m p opt = .ok (m1, p1, out, full)) (rw : NatRewrite) :
    natRewrite m p rw opt = do
      let m3 ← rewriteL4 (ipFrame m1 14 rw.srcIp rw.dstIp) p1 rw opt (m1.get32 26) (m1.get32 30) full
      let r ← setMacs m3 rw.srcMac rw.dstMac
      return (.ok, r, p1, out) := by
  have hihl := h.ihl
  have hl4 := h.l4
  have hle := h.l4_le
  have htotle := h.total_le
  have hihl1 := h1.ihl
  have hl41 := h1.l4
  have hle1 := h1.l4_le
  have htotle1 := h1.total_le
  unfold natRewrite
  rw [h.l3, Mbuf.load8_eq (by omega), ok_bind, if_neg httl, hopts, ok_bind]
  simp only
  rw [h1.l3, Mbuf.load32_eq (by omega), ok_bind, Mbuf.load32_eq (by omega), ok_bind,
    rewriteIp_eq (by omega) h1.ihl, ok_bind]

/-- What `nat_rewrite` does to a TCP or UDP frame that `parse` has accepted:
nothing if the TTL is used up, otherwise all its steps. -/
theorem natRewrite_spec {m : Mbuf} {p : PacketMeta} (h : Parsed m p)
    (hproto : p.ipProtocol = 6 ∨ p.ipProtocol = 17) (rw : NatRewrite) (opt : NatOptions) :
    (m.byte 22 ≤ 1 → natRewrite m p rw opt = .ok (.ttlExceeded, m, p, {})) ∧
    (¬ m.byte 22 ≤ 1 → ∃ r p1 out m1 c, natRewrite m p rw opt = .ok (.ok, r, p1, out) ∧
      rewriteOptions m p opt = .ok (m1, p1, out, out.tsStripped || out.toaAdded) ∧
      Rewritten m p rw opt (out.tsStripped || out.toaAdded) m1 p1 c r ∧
      r.getMac 0 = rw.dstMac ∧ r.getMac 6 = rw.srcMac) := by
  have hl4 : p.l4Offset + 8 ≤ p.totalLen := by
    rcases hproto with htcp | hudp
    · have := h.tcp htcp; omega
    · have := h.udp hudp; omega
  have hihl := h.ihl
  have hl4eq := h.l4
  have htotle := h.total_le
  refine ⟨fun httl => ?_, fun httl => ?_⟩
  · unfold natRewrite
    rw [h.l3, Mbuf.load8_eq (by omega), ok_bind, if_pos httl]
    rfl
  obtain ⟨⟨m1, p1, out, full⟩, hopts, h1, hl41, hproto1, hfull, hun, hed⟩ := rewriteOptions_returns h hl4 opt
  simp only at h1 hl41 hproto1 hfull hun hed
  subst hfull
  obtain ⟨m3, hm3, hlen3, c, hc, hsum⟩ := rewriteL4_returns h1 (hproto1 ▸ hproto) rw opt _
  have hihl1 := h1.ihl
  have hl4eq1 := h1.l4
  have hle1 := h1.l4_le
  have htotle1 := h1.total_le
  rw [natRewrite_steps h h1 httl hopts, hm3, ok_bind, setMacs_eq (by omega), ok_bind]
  refine ⟨_, p1, out, m1, c, rfl, hopts, ⟨h1, hl41, hproto1, hun, hed, hlen3, fun i hi => ?_, hsum⟩, ?_, ?_⟩
  · rw [Mbuf.byte_setMac_of _ (by omega), Mbuf.byte_setMac_of _ (by omega), hc, hl41, hproto1]
  · rw [Mbuf.getMac_congr fun i _ hi => Mbuf.byte_setMac_of _ (by omega), Mbuf.getMac_setMac]
  · exact Mbuf.getMac_setMac _ _ _

/-- **`nat_rewrite` returns**, for every TCP or UDP frame that `parse` has
accepted. -/
theorem natRewrite_returns {m : Mbuf} {p : PacketMeta} (h : Parsed m p)
    (hproto : p.ipProtocol = 6 ∨ p.ipProtocol = 17) (rw : NatRewrite) (opt : NatOptions) :
    Returns (natRewrite m p rw opt) fun r =>
      (r.1 = .ttlExceeded → r.2.1 = m) ∧
      (r.1 = .ok → ∃ m1 c, Rewritten m p rw opt (r.2.2.2.tsStripped || r.2.2.2.toaAdded) m1 r.2.2.1 c r.2.1) := by
  obtain ⟨hexc, hok⟩ := natRewrite_spec h hproto rw opt
  by_cases httl : m.byte 22 ≤ 1
  · exact ⟨_, hexc httl, fun _ => rfl, by simp⟩
  · obtain ⟨r, p1, out, m1, c, hr, -, hrw, -⟩ := hok httl
    exact ⟨_, hr, by simp, fun _ => ⟨m1, c, hrw⟩⟩

/-! ### DR and ICMP errors -/

theorem drRewrite_eq {m : Mbuf} (h : 12 ≤ m.dataLen) (srcMac dstMac : MacAddr) :
    drRewrite m srcMac dstMac = .ok (clearTxOffload ((m.setMac 0 dstMac).setMac 6 srcMac)) := by
  unfold drRewrite
  rw [setMacs_eq h, ok_bind]
  rfl

/-- The frame with the quoted packet translated. -/
def innerFrame (m : Mbuf) (info : IcmpErrorInfo) (inner : FiveTuple) : Mbuf :=
  let iip := info.innerL3Offset
  let m := (m.set32 (iip + 12) inner.srcIp).set32 (iip + 16) inner.dstIp
  let m := m.set16 (iip + 10) (ipSum m iip)
  (m.set16 info.innerL4Offset inner.srcPort).set16 (info.innerL4Offset + 2) inner.dstPort

/-- The frame with the checksum of the ICMP message of `len` bytes at `icmp`. -/
def icmpFrame (m : Mbuf) (icmp len : ℕ) : Mbuf :=
  m.set16 (icmp + 2) (finish (wsum (m.set16 (icmp + 2) 0).byte icmp len))

theorem innerFrame_byte {m : Mbuf} {info : IcmpErrorInfo} (inner : FiveTuple) {i : ℕ}
    (h : i < info.innerL3Offset + 10) (h' : info.innerL3Offset + 10 ≤ info.innerL4Offset) :
    (innerFrame m info inner).byte i = m.byte i := by
  unfold innerFrame
  simp (disch := omega) only [Mbuf.byte_set16_of, Mbuf.byte_set32_of]

@[simp] theorem dataLen_innerFrame (m : Mbuf) (info : IcmpErrorInfo) (inner : FiveTuple) :
    (innerFrame m info inner).dataLen = m.dataLen := rfl

/-- **`nat_rewrite_icmp_error` returns**, for every error that `parse` and
`parse_icmp_error` have accepted. -/
theorem natRewriteIcmpError_eq {m : Mbuf} {p : PacketMeta} {info : IcmpErrorInfo} (h : Parsed m p)
    (hq : Quoted m p info) (outerSrc outerDst : IPv4Addr) (inner : FiveTuple) (srcMac dstMac : MacAddr) :
    natRewriteIcmpError m p info outerSrc outerDst inner srcMac dstMac =
      .ok (if m.byte 22 ≤ 1 then (.ttlExceeded, m)
        else (.ok, clearTxOffload (((icmpFrame (ipFrame (innerFrame m info inner) 14 outerSrc outerDst)
          p.l4Offset (p.totalLen - p.l4Offset)).setMac 0 dstMac).setMac 6 srcMac))) := by
  have hihl := h.ihl
  have hl4 := h.l4
  have htotle := h.total_le
  have hq3 := hq.l3
  have hq4 := hq.l4
  have hqihl := hq.ihl
  have hqle := hq.l4_le
  have eihl : ((m.set32 (info.innerL3Offset + 12) inner.srcIp).set32 (info.innerL3Offset + 16)
      inner.dstIp).ihlOf info.innerL3Offset = m.ihlOf info.innerL3Offset := by
    apply Mbuf.ihlOf_congr
    simp (disch := omega) only [Mbuf.byte_set32_of]
  have eihl' : (innerFrame m info inner).ihlOf 14 = m.ihlOf 14 :=
    Mbuf.ihlOf_congr (innerFrame_byte inner (by omega) (by omega))
  unfold natRewriteIcmpError
  simp only [h.l3]
  rw [Mbuf.load8_eq (by omega), ok_bind]
  show (if m.byte 22 ≤ 1 then _ else _) = _
  split
  · rfl
  rw [Mbuf.store32_eq (by omega), ok_bind, Mbuf.store32_eq (by rw [Mbuf.dataLen_set32]; omega), ok_bind,
    ipChecksumUpdate_eq (by rw [eihl]; simp only [Mbuf.dataLen_set32]; omega) (by rw [eihl]; omega), ok_bind,
    Mbuf.store16_eq (by simp only [Mbuf.dataLen_set32, Mbuf.dataLen_set16]; omega), ok_bind,
    Mbuf.store16_eq (by simp only [Mbuf.dataLen_set32, Mbuf.dataLen_set16]; omega), ok_bind]
  change (rewriteIp (innerFrame m info inner) 14 outerSrc outerDst >>= _) = _
  rw [rewriteIp_eq (by rw [eihl', dataLen_innerFrame]; omega) (by omega), ok_bind,
    Mbuf.store16_eq (by rw [dataLen_ipFrame, dataLen_innerFrame]; omega), ok_bind, sizeSub_eq h.l4_le,
    icmpCalculateChecksum,
    calculate_eq (by rw [Mbuf.dataLen_set16, dataLen_ipFrame, dataLen_innerFrame]; omega), ok_bind,
    Mbuf.store16_eq (by rw [Mbuf.dataLen_set16, dataLen_ipFrame, dataLen_innerFrame]; omega), ok_bind,
    Mbuf.set16_set16, setMacs_eq (by rw [Mbuf.dataLen_set16, dataLen_ipFrame, dataLen_innerFrame]; omega)]
  rfl

end L4Lb
