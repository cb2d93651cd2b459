/-
# `parse` decides the grammar of frames

`grammar` states the checks on the bytes of a frame, `decode` the headers in
it. `parse` gives that verdict and those headers for every frame, with the
offsets of an IPv4 packet in order, and reads nothing behind the packet:
padding, and whatever else follows `total_length`, does not change its answer
(`parse_decides`).
-/
import L4Lb.Parser

open Checked

namespace L4Lb

variable {m m' : Mbuf}

/-- The frame `m'` is `m` up to the end of the packet in it. -/
structure SamePacket (m m' : Mbuf) : Prop where
  stop_le : m.stopOf ≤ m'.dataLen
  byte : ∀ k, k < m.stopOf → m'.byte k = m.byte k

namespace SamePacket

theorem be16 (h : SamePacket m m') {off : ℕ} (ho : off + 2 ≤ m.stopOf) : m'.be16 off = m.be16 off := by
  rw [Mbuf.be16, Mbuf.be16, h.byte _ (by omega), h.byte _ (by omega)]

theorem get16 (h : SamePacket m m') {off : ℕ} (ho : off + 2 ≤ m.stopOf) : m'.get16 off = m.get16 off :=
  Mbuf.get16_congr (h.byte _ (by omega)) (h.byte _ (by omega))

theorem get32 (h : SamePacket m m') {off : ℕ} (ho : off + 4 ≤ m.stopOf) : m'.get32 off = m.get32 off :=
  Mbuf.get32_congr fun i _ hi => h.byte i (by omega)

theorem getMac (h : SamePacket m m') {off : ℕ} (ho : off + 6 ≤ m.stopOf) : m'.getMac off = m.getMac off := by
  exact Mbuf.getMac_congr fun i _ hi => h.byte i (by omega)

end SamePacket

/-- The IPv4 header is inside the packet, and so is the L4 header. -/
theorem Mbuf.Ipv4Ok.bounds (h : m.Ipv4Ok) : 34 ≤ m.l4Of ∧ m.l4Of ≤ m.stopOf ∧ m.stopOf ≤ m.dataLen := by
  obtain ⟨-, -, hi, ht, hl⟩ := h
  have hihl : m.ihlOf 14 = (m.byte 14).toNat % 16 * 4 := rfl
  unfold Mbuf.l4Of
  unfold Mbuf.stopOf at hl ⊢
  omega

/-- The L4 header of TCP or UDP is inside the packet. -/
theorem Mbuf.L4Ok.header (h : m.L4Ok) : (m.byte 23 = 6 → m.l4Of + 20 ≤ m.stopOf) ∧
    (m.byte 23 = 17 → m.l4Of + 8 ≤ m.stopOf) := by
  constructor
  · intro hp
    have := (Mbuf.l4Ok_tcp hp).mp h
    omega
  · intro hp
    have := (Mbuf.l4Ok_udp hp).mp h
    omega

theorem Mbuf.L4Ok.payload (hip : m.Ipv4Ok) (h : m.L4Ok) : m.l4Of ≤ m.payloadOf ∧ m.payloadOf ≤ m.stopOf := by
  obtain ⟨-, hle, -⟩ := hip.bounds
  have hudp := h.header.2
  unfold Mbuf.payloadOf
  by_cases h6 : m.byte 23 = 6
  · have := (Mbuf.l4Ok_tcp h6).mp h
    rw [if_pos h6]
    omega
  · rw [if_neg h6]
    by_cases h17 : m.byte 23 = 17
    · rw [if_pos h17]
      have := hudp h17
      omega
    · rw [if_neg h17]
      omega

/-- The frame `m'` has the lengths and the protocol of `m`, so that its headers
are where those of `m` are. -/
structure SameLayout (m m' : Mbuf) : Prop where
  stop_le : m.stopOf ≤ m'.dataLen
  header : ∀ i, 12 ≤ i → i < 22 ∨ i = 23 → m'.byte i = m.byte i
  tcp : m.byte 23 = 6 → m'.byte (m.l4Of + 12) = m.byte (m.l4Of + 12)
  udp : m.byte 23 = 17 → m'.be16 (m.l4Of + 4) = m.be16 (m.l4Of + 4)

namespace SameLayout

variable (h : SameLayout m m')
include h

theorem be16 {off : ℕ} (h12 : 12 ≤ off) (ho : off + 2 ≤ 22) : m'.be16 off = m.be16 off := by
  rw [Mbuf.be16, Mbuf.be16, h.header _ (by omega) (by omega), h.header _ (by omega) (by omega)]

/-- The offsets are the same. -/
theorem offsets : m'.l4Of = m.l4Of ∧ m'.stopOf = m.stopOf := by
  constructor
  · unfold Mbuf.l4Of Mbuf.ihlOf
    rw [h.header 14 (by omega) (by omega)]
  · unfold Mbuf.stopOf
    rw [h.be16 (by omega) (by omega)]

theorem ipv4Ok (hip : m.Ipv4Ok) : m'.Ipv4Ok := by
  obtain ⟨h34, hle, -⟩ := hip.bounds
  have hlen := h.stop_le
  obtain ⟨-, hv, hi, ht, -⟩ := hip
  refine ⟨by omega, ?_, ?_, ?_, ?_⟩
  · rw [h.header 14 (by omega) (by omega)]
    exact hv
  · rw [h.header 14 (by omega) (by omega)]
    exact hi
  · rw [h.header 14 (by omega) (by omega), h.be16 (by omega) (by omega)]
    exact ht
  · rw [h.offsets.2]
    exact hlen

theorem l4Ok (hl4 : m.L4Ok) : m'.L4Ok := by
  obtain ⟨e4, es⟩ := h.offsets
  unfold Mbuf.L4Ok at hl4 ⊢
  rw [e4, es, h.header 23 (by omega) (by omega)]
  by_cases h6 : m.byte 23 = 6
  · rw [if_pos h6] at hl4 ⊢
    rw [h.tcp h6]
    exact hl4
  rw [if_neg h6] at hl4 ⊢
  by_cases h17 : m.byte 23 = 17
  · rw [if_pos h17] at hl4 ⊢
    rw [h.udp h17]
    exact hl4
  · rw [if_neg h17] at hl4 ⊢
    exact hl4

/-- Such a frame is accepted if `m` is. -/
theorem accepted (hok : m.Ipv4Ok ∧ ¬ m.Fragment ∧ m.L4Ok) : m'.Ipv4Ok ∧ ¬ m'.Fragment ∧ m'.L4Ok := by
  obtain ⟨hip, hfr, hl4⟩ := hok
  refine ⟨h.ipv4Ok hip, ?_, h.l4Ok hl4⟩
  unfold Mbuf.Fragment
  rw [h.be16 (by omega) (by omega)]
  exact hfr

theorem payloadOf_eq : m'.payloadOf = m.payloadOf := by
  unfold Mbuf.payloadOf
  rw [h.offsets.1, h.header 23 (by omega) (by omega)]
  by_cases h6 : m.byte 23 = 6
  · rw [if_pos h6, if_pos h6, Mbuf.doffOf, Mbuf.doffOf, h.tcp h6]
  · rw [if_neg h6, if_neg h6]

end SameLayout

namespace SamePacket

variable (h : SamePacket m m') (hip : m.Ipv4Ok) (hl4 : m.L4Ok)
include h hip hl4

theorem layout : SameLayout m m' := by
  obtain ⟨h34, hle, -⟩ := hip.bounds
  obtain ⟨htcp, hudp⟩ := hl4.header
  refine ⟨h.stop_le, fun i _ hi => h.byte i (by omega), fun h6 => h.byte _ ?_, fun h17 => h.be16 ?_⟩
  · have := htcp h6
    omega
  · have := hudp h17
    omega

/-- All that is read of an accepted packet is inside it. -/
theorem decode_eq : decode m' = decode m := by
  obtain ⟨h34, hle, -⟩ := hip.bounds
  obtain ⟨htcp, hudp⟩ := hl4.header
  have hlay := h.layout hip hl4
  obtain ⟨e4, es⟩ := hlay.offsets
  have hether : decodeEther m' = decodeEther m := by
    rw [decodeEther, decodeEther, h.getMac (by omega), h.getMac (by omega), h.get16 (by omega)]
  have hports (hp : m.byte 23 = 6 ∨ m.byte 23 = 17) : m.l4Of + 4 ≤ m.stopOf := by
    rcases hp with hp | hp
    · have := htcp hp
      omega
    · have := hudp hp
      omega
  have hsrc : (if m.byte 23 = 6 ∨ m.byte 23 = 17 then m'.get16 m.l4Of else 0) =
      if m.byte 23 = 6 ∨ m.byte 23 = 17 then m.get16 m.l4Of else 0 :=
    if_ctx_congr Iff.rfl (fun hp => h.get16 (by have := hports hp; omega)) fun _ => rfl
  have hdst : (if m.byte 23 = 6 ∨ m.byte 23 = 17 then m'.get16 (m.l4Of + 2) else 0) =
      if m.byte 23 = 6 ∨ m.byte 23 = 17 then m.get16 (m.l4Of + 2) else 0 :=
    if_ctx_congr Iff.rfl (fun hp => h.get16 (by have := hports hp; omega)) fun _ => rfl
  have hflags : (if m.byte 23 = 6 then m'.byte (m.l4Of + 13) else 0) =
      if m.byte 23 = 6 then m.byte (m.l4Of + 13) else 0 :=
    if_ctx_congr Iff.rfl (fun hp => h.byte _ (by have := htcp hp; omega)) fun _ => rfl
  rw [decode, decode, h.be16 (by omega), hether, e4, es, hlay.payloadOf_eq, h.get32 (by omega),
    h.get32 (by omega), h.byte 23 (by omega), h.byte 22 (by omega), hsrc, hdst, hflags]

end SamePacket

/-- An accepted IPv4 frame is parsed. -/
theorem parse_of_accepted (hok : m.Ipv4Ok ∧ ¬ m.Fragment ∧ m.L4Ok) : parse m = .ok (.ok, decode m) := by
  have h14 : 14 ≤ m.dataLen := by
    obtain ⟨h34, hle, hstop⟩ := hok.1.bounds
    omega
  have hg : grammar m = .ok := (grammar_ok_iff m).mpr ⟨h14, fun _ => hok⟩
  obtain ⟨⟨res, p⟩, hp, hres, hdec⟩ := parse_spec m
  obtain rfl : res = .ok := hres.trans hg
  obtain rfl : p = decode m := hdec rfl
  exact hp

/-- What the rewriting functions rely on is what the grammar asks for. -/
theorem Parsed.accepted {p : PacketMeta} (h : Parsed m p) : m.Ipv4Ok ∧ ¬ m.Fragment ∧ m.L4Ok := by
  have hihl := h.ihl
  have hl4 := h.l4
  have htot := h.total
  have hle := h.l4_le
  have htotle := h.total_le
  have hfrag := h.unfragmented
  have hproto := h.protocol
  have et : m.totalOf 14 = m.be16 16 := m.toNat_bswap16_get16 16
  have ei : m.ihlOf 14 = (m.byte 14).toNat % 16 * 4 := rfl
  have el : m.l4Of = p.l4Offset := hl4.symm
  have es : m.stopOf = p.totalLen := by rw [htot, et, Mbuf.stopOf]
  refine ⟨⟨by omega, h.version, by omega, by omega, by omega⟩, ?_, ?_⟩
  · rw [m.toNat_bswap16_get16] at hfrag
    unfold Mbuf.Fragment
    omega
  · by_cases h6 : m.byte 23 = 6
    · obtain ⟨hdoff, hpay, hple, -⟩ := h.tcp (hproto.trans h6)
      rw [Mbuf.l4Ok_tcp h6, el, es]
      omega
    by_cases h17 : m.byte 23 = 17
    · obtain ⟨h8, hule, -⟩ := h.udp (hproto.trans h17)
      rw [Mbuf.l4Ok_udp h17, el, es]
      exact ⟨h8, hule⟩
    · rw [Mbuf.l4Ok_other h6 h17, el, es]
      exact fun h1 => h.icmp (hproto.trans h1)

/-- A frame with the layout of an accepted one is accepted, with the same
offsets. -/
theorem Parsed.parse_of_sameLayout {p : PacketMeta} (h : Parsed m p) (he : m.be16 12 = 0x0800)
    (hs : SameLayout m m') : parse m' = .ok (.ok, decode m') ∧ Parsed m' (decode m') ∧
      (decode m').l4Offset = p.l4Offset ∧ (decode m').totalLen = p.totalLen := by
  have hok := hs.accepted h.accepted
  have he' : m'.be16 12 = 0x0800 := by rw [hs.be16 (by omega) (by omega), he]
  have hp' := parsed_decode hok he'
  refine ⟨parse_of_accepted hok, hp', ?_, ?_⟩
  · rw [hp'.l4, h.l4]
    exact hs.offsets.1
  · have et (m : Mbuf) : m.totalOf 14 = m.be16 16 := m.toNat_bswap16_get16 16
    rw [hp'.total, h.total, et, et, hs.be16 (by omega) (by omega)]

/-- What `parse` has read of an accepted IPv4 frame. -/
theorem decode_of_parse {p : PacketMeta} (hp : parse m = .ok (.ok, p)) (heth : p.etherType = 0x0800) :
    m.be16 12 = 0x0800 ∧ p.payloadLen = p.totalLen - p.payloadOffset := by
  obtain ⟨r, hr, -, hdec⟩ := parse_spec m
  rw [hp] at hr
  obtain rfl := Except.ok.inj hr
  obtain rfl : p = decode m := hdec rfl
  have hether : (decode m).etherType = bswap16 (m.get16 12) := by
    rw [decode]
    split <;> rfl
  have he : m.be16 12 = 0x0800 := (isIpv4_iff m).mp (hether ▸ heth)
  refine ⟨he, ?_⟩
  rw [decode, if_neg (not_not.mpr he)]

/-- **`parse` decides the grammar.** It returns for every frame, with the
verdict of the grammar. What it has read of an accepted frame are the headers
in it; those of an IPv4 packet lie one behind the other, inside the packet and
the frame, and no byte behind the packet matters. -/
theorem parse_decides (m : Mbuf) : ∃ p, parse m = .ok (grammar m, p) ∧
    (grammar m = .ok → p = decode m ∧
      (m.be16 12 = 0x0800 →
        p.l3Offset < p.l4Offset ∧ p.l4Offset ≤ p.payloadOffset ∧ p.payloadOffset ≤ p.totalLen ∧
        p.totalLen ≤ m.dataLen ∧
        ∀ m' : Mbuf, p.totalLen ≤ m'.dataLen → (∀ k, k < p.totalLen → m'.byte k = m.byte k) →
          parse m' = .ok (.ok, p))) := by
  obtain ⟨⟨res, p⟩, hp, hres, hdec⟩ := parse_spec m
  obtain rfl : res = grammar m := hres
  refine ⟨p, hp, fun hok => ?_⟩
  obtain rfl : p = decode m := hdec hok
  refine ⟨rfl, fun he => ?_⟩
  obtain ⟨hip, hfr, hl4⟩ := ((grammar_ok_iff m).mp hok).2 he
  obtain ⟨h34, -, hstop⟩ := hip.bounds
  obtain ⟨hpay, hpay'⟩ := hl4.payload hip
  obtain ⟨h3, h4, hpo, htot⟩ : (decode m).l3Offset = 14 ∧ (decode m).l4Offset = m.l4Of ∧
      (decode m).payloadOffset = m.payloadOf ∧ (decode m).totalLen = m.stopOf := by
    rw [decode, if_neg (not_not.mpr he)]
    exact ⟨rfl, rfl, rfl, rfl⟩
  rw [h3, h4, hpo, htot]
  refine ⟨by omega, hpay, hpay', hstop, fun m' hlen hbyte => ?_⟩
  have hs : SamePacket m m' := ⟨hlen, hbyte⟩
  rw [parse_of_accepted ((hs.layout hip hl4).accepted ⟨hip, hfr, hl4⟩), hs.decode_eq hip hl4]

/-- A UDP packet of 28 bytes, in a frame that is padded to 60 bytes. -/
def paddedFrame : Mbuf :=
  Mbuf.ofBytes
    ([2, 0, 0, 0, 0, 1, 2, 0, 0, 0, 0, 2, 8, 0,
      69, 0, 0, 28, 0, 1, 0, 0, 64, 17, 102, 206, 10, 0, 0, 1, 10, 0, 0, 2,
      4, 210, 0, 53, 0, 8, 0, 0] ++ List.replicate 18 255)
    0 (by decide)

/-- The padding does not matter: without it the frame has the same headers. -/
theorem parse_decides_padded : ∃ p, parse paddedFrame = .ok (.ok, p) ∧ p.totalLen = 42 ∧ p.payloadLen = 0 ∧
    parse (paddedFrame.trim 18) = .ok (.ok, p) := by
  have hg : grammar paddedFrame = .ok := by decide +kernel
  obtain ⟨p, hp, hok⟩ := parse_decides paddedFrame
  obtain ⟨rfl, hv4⟩ := hok hg
  obtain ⟨-, -, -, -, htail⟩ := hv4 (by decide +kernel)
  exact ⟨_, hg ▸ hp, by decide +kernel, by decide +kernel,
    htail _ (by decide +kernel) fun _ _ => rfl⟩

end L4Lb
