/-
# What `nat_rewrite` makes of a frame

A rewritten frame is one that `parse` accepts again. It has the new addresses,
ports and MACs, a TTL that is one less and the payload it had; of its headers
nothing else changes but the checksums and what the option edits are for, and
the options are the TOA option, if it went in, followed by the old ones. A frame
whose TTL is used up is left alone.
-/
import L4Lb.Forward.Options
import L4Lb.Forward.Valid
import L4Lb.Parser.Grammar

open Checked OptionList

namespace L4Lb

/-- The L4 payload of the packet. -/
def payload (m : Mbuf) (p : PacketMeta) : List UInt8 := m.slice p.payloadOffset p.payloadLen

/-- The bytes of the headers that every rewrite writes: MACs, TTL, addresses,
ports and both checksums. -/
def Translated (p : PacketMeta) (i : ℕ) : Prop :=
  i < 12 ∨ i = 22 ∨ (24 ≤ i ∧ i < 34) ∨ (p.l4Offset ≤ i ∧ i < p.l4Offset + 4) ∨
    (p.l4Offset + ckOffset p.ipProtocol ≤ i ∧ i < p.l4Offset + ckOffset p.ipProtocol + 2)

/-- The bytes of the two lengths that grow with the TOA option. -/
def Lengthened (p : PacketMeta) (i : ℕ) : Prop := i = 16 ∨ i = 17 ∨ i = p.l4Offset + 12

/-- The frame `r`, in which `parse` finds `q`, is `m` after the rewrite: `p'` and
`out` are what `nat_rewrite` says about it. -/
structure NatEffect (m : Mbuf) (p : PacketMeta) (rw : NatRewrite) (opt : NatOptions) (r : Mbuf) (p' : PacketMeta)
    (out : RewriteOutcome) (q : PacketMeta) : Prop where
  tuple : q.toFiveTuple = rw.tuple p.ipProtocol
  macs : q.srcMac = rw.srcMac ∧ q.dstMac = rw.dstMac
  ttl : q.ipTtl.toNat + 1 = p.ipTtl.toNat
  payload : payload r q = payload m p
  /-- the headers, up to the end of the fixed part of the L4 header -/
  header : ∀ i, i < p.l4Offset + (if p.ipProtocol = 6 then 20 else 8) → ¬ Translated p i →
    ¬ (out.toaAdded = true ∧ Lengthened p i) → r.byte i = m.byte i
  /-- the data offset shares its byte with reserved bits -/
  reserved : p.ipProtocol = 6 →
    (r.byte (p.l4Offset + 12)).toNat % 16 = (m.byte (p.l4Offset + 12)).toNat % 16
  options : p.ipProtocol = 6 → tcpOptions r q =
    (if out.toaAdded then toaOption opt.toaIp opt.toaPort else []) ++
      if opt.stripTs = true ∧ hasFlag p.tcpFlags TCP_SYN = true then blank 8 (tcpOptions m p) else tcpOptions m p
  total : r.totalOf 14 = m.totalOf 14 + if out.toaAdded then 8 else 0
  stripped : out.tsStripped = true ↔ p.ipProtocol = 6 ∧ opt.stripTs = true ∧ hasFlag p.tcpFlags TCP_SYN = true ∧
    met 8 (tcpOptions m p) = true
  added : out.toaAdded = true → p.ipProtocol = 6 ∧ opt.addToa = true ∧ r.totalOf 14 ≤ opt.mtu
  /-- the caller goes on with the offsets that `parse` finds -/
  offsets : p'.l4Offset = q.l4Offset ∧ p'.payloadOffset = q.payloadOffset ∧ p'.totalLen = q.totalLen

section Rewritten

variable {m m1 r : Mbuf} {p p1 : PacketMeta} {rw : NatRewrite} {opt : NatOptions} {edited : Bool} {c : UInt16}
  {out : RewriteOutcome}

/-- Steps 2 to 4 leave the lengths alone. -/
theorem Rewritten.sameLayout (h : Rewritten m p rw opt edited m1 p1 c r)
    (hproto : p.ipProtocol = 6 ∨ p.ipProtocol = 17) : SameLayout m1 r := by
  have hl4 : m1.l4Of = p.l4Offset := h.l4 ▸ h.parsed.l4.symm
  have hp : m1.byte 23 = p.ipProtocol := h.protocol ▸ h.parsed.protocol.symm
  have htot : m1.stopOf = p1.totalLen := by
    rw [h.parsed.total, Mbuf.totalOf, Mbuf.toNat_bswap16_get16]
    rfl
  have htotle := h.parsed.total_le
  rw [← h.dataLen] at htotle
  refine ⟨htot.trans_le htotle, fun i h12 hi => h.byte_header hproto h12 hi, fun h6 => ?_, fun h17 => ?_⟩
  · have hck : ckOffset p.ipProtocol = 16 := if_pos (hp.symm.trans h6)
    rw [hl4]
    exact h.byte_l4 hproto (by omega) (by omega)
  · have hck : ckOffset p.ipProtocol = 6 := if_neg (by rw [← hp, h17]; decide)
    rw [hl4, Mbuf.be16, Mbuf.be16, h.byte_l4 hproto (by omega) (by omega), h.byte_l4 hproto (by omega) (by omega)]

/-- Steps 2 to 4 write the bytes that a rewrite is for and no others. -/
theorem Rewritten.byte_eq (h : Rewritten m p rw opt edited m1 p1 c r)
    (hproto : p.ipProtocol = 6 ∨ p.ipProtocol = 17) {i : ℕ} (hi : ¬ Translated p i) :
    r.byte i = m1.byte i := by
  unfold Translated at hi
  have h12 : 12 ≤ i := by omega
  by_cases hl4 : i < p.l4Offset
  · rw [h.byte_ip hproto h12 hl4, ipFrame_byte _ _ (by omega)]
  · exact h.byte_l4 hproto (by omega) (by omega)

/-- `parse` accepts the frame again and finds the L4 header and the payload where
step 1 has left them. -/
theorem Rewritten.parse_eq (h : Rewritten m p rw opt edited m1 p1 c r)
    (hproto : p.ipProtocol = 6 ∨ p.ipProtocol = 17) (hip : m1.be16 12 = 0x0800) :
    parse r = .ok (.ok, decode r) ∧ Parsed r (decode r) ∧ (decode r).ipProtocol = p.ipProtocol ∧
      (decode r).l4Offset = p.l4Offset ∧ (decode r).totalLen = p1.totalLen ∧
      (decode r).payloadOffset = p1.payloadOffset := by
  obtain ⟨hparse, hq, hl4, htot⟩ := h.parsed.parse_of_sameLayout hip (h.sameLayout hproto)
  rw [h.l4] at hl4
  have hpq : (decode r).ipProtocol = p.ipProtocol := hq.protocol.trans (h.byte_protocol hproto)
  refine ⟨hparse, hq, hpq, hl4, htot, ?_⟩
  rcases hproto with h6 | h17
  · obtain ⟨-, hpay, -⟩ := hq.tcp (hpq.trans h6)
    obtain ⟨-, hpay1, -⟩ := h.parsed.tcp (h.protocol.trans h6)
    have hdoff : r.doffOf p.l4Offset = m1.doffOf p.l4Offset := by
      exact Mbuf.doffOf_congr (h.byte_l4 (Or.inl h6) (by omega) (by rw [ckOffset, if_pos h6]; omega))
    rw [hpay, hpay1, h.l4, hl4, hdoff]
  · obtain ⟨-, -, hpay⟩ := hq.udp (hpq.trans h17)
    obtain ⟨-, -, hpay1⟩ := h.parsed.udp (h.protocol.trans h17)
    rw [hpay, hpay1, h.l4, hl4]

/-- Options and payload are behind all that steps 2 to 4 write. -/
theorem Rewritten.ckOffset_le_payload (h : Rewritten m p rw opt edited m1 p1 c r)
    (hproto : p.ipProtocol = 6 ∨ p.ipProtocol = 17) :
    p.l4Offset + ckOffset p.ipProtocol + 2 ≤ p1.payloadOffset := by
  rcases hproto with h6 | h17
  · obtain ⟨hdoff, hpay, -⟩ := h.parsed.tcp (h.protocol.trans h6)
    rw [h.l4] at hpay hdoff
    rw [ckOffset, if_pos h6]
    omega
  · obtain ⟨-, -, hpay⟩ := h.parsed.udp (h.protocol.trans h17)
    rw [h.l4] at hpay
    rw [ckOffset, if_neg (by rw [h17]; decide)]
    omega

/-- The frame after all steps. -/
theorem Rewritten.effect (h : Rewritten m p rw opt edited m1 p1 c r) (he : Edited m p opt m1 p1 out)
    (hm : Parsed m p) (hproto : p.ipProtocol = 6 ∨ p.ipProtocol = 17) (hip : m.be16 12 = 0x0800)
    (hlen : p.payloadLen = p.totalLen - p.payloadOffset) (httl : ¬ m.byte 22 ≤ 1)
    (hdst : r.getMac 0 = rw.dstMac) (hsrc : r.getMac 6 = rw.srcMac) :
    ∃ q, parse r = .ok (.ok, q) ∧ NatEffect m p rw opt r p1 out q := by
  have hihl := hm.ihl
  have hl4 := hm.l4
  have hpay1 := h.ckOffset_le_payload hproto
  have hck := h.ckOffset_le hproto
  obtain ⟨hpo, hto⟩ : p1.payloadOffset = p.payloadOffset + (if out.toaAdded then 8 else 0) ∧
      p1.totalLen = p.totalLen + if out.toaAdded then 8 else 0 := by
    rw [he.offsets]
    split <;> exact ⟨rfl, rfl⟩
  have hip1 : m1.be16 12 = 0x0800 := by
    rw [← hip, Mbuf.be16, Mbuf.be16, he.header 12 (by omega) (by omega), he.header 13 (by omega) (by omega)]
  obtain ⟨hparse, hq, hpq, hl4q, htotq, hpayq⟩ := h.parse_eq hproto hip1
  have hlenq : (decode r).payloadLen = (decode r).totalLen - (decode r).payloadOffset := by
    have hipr : r.be16 12 = 0x0800 := by
      rw [Mbuf.be16, h.byte_header hproto (by omega) (by omega), h.byte_header hproto (by omega) (by omega)]
      exact hip1
    rw [decode, if_neg (not_not.mpr hipr)]
  have htotal : r.totalOf 14 = m.totalOf 14 + if out.toaAdded then 8 else 0 := by
    have h1 := h.parsed.total
    have h0 := hm.total
    rw [h.totalOf hproto]
    omega
  refine ⟨decode r, hparse, ?_, ⟨hq.srcMac.trans hsrc, ?_⟩, ?_, ?_, ?_, ?_, ?_, htotal, ?_, ?_, ?_⟩
  · rw [← hq.tupleAt (hpq ▸ hproto), hl4q, h.tupleAt hproto]
  · rw [← hdst, decode]
    split <;> rfl
  · have h22 : m1.byte 22 = m.byte 22 := he.header 22 (by omega) (by omega)
    rw [hq.ttl, hm.ttl, ← h22, h.byte_ip hproto (by omega) (by omega)]
    exact ipFrame_ttl _ _ (by rw [h22]; exact httl)
  · unfold payload
    rw [hlenq, hpayq, htotq, hlen, show p1.totalLen - p1.payloadOffset = p.totalLen - p.payloadOffset by omega]
    refine Mbuf.slice_congr fun k hk => ?_
    rw [h.byte_l4 hproto (by omega) (by omega), he.payload k (by omega)]
  · intro i hi hw hlen
    unfold Lengthened at hlen
    rw [h.byte_eq hproto hw, he.header i (by split at hi <;> omega) fun hadd => ?_]
    have hno : ¬ (i = 16 ∨ i = 17 ∨ i = p.l4Offset + 12) := fun hl => hlen ⟨hadd, hl⟩
    omega
  · intro h6
    have hck6 : ckOffset p.ipProtocol = 16 := if_pos h6
    rw [h.byte_l4 hproto (by omega) (by omega), he.reserved]
  · intro h6
    have hck6 : ckOffset p.ipProtocol = 16 := if_pos h6
    have hopts : tcpOptions r (decode r) = tcpOptions m1 p1 := by
      unfold tcpOptions
      rw [hl4q, hpayq, h.l4]
      exact Mbuf.slice_congr fun i _ => h.byte_l4 hproto (by omega) (by omega)
    rw [hopts, he.options h6, strippedOptions, NatOptions.strips]
    simp only [Bool.and_eq_true]
  · rw [he.stripped, NatOptions.strips]
    simp only [Bool.and_eq_true, decide_eq_true_eq, and_assoc]
  · intro hadd
    obtain ⟨h6, htoa, hmtu⟩ := he.added hadd
    rw [htotal, if_pos hadd]
    exact ⟨h6, htoa, hmtu⟩
  · exact ⟨h.l4.trans hl4q.symm, hpayq.symm, htotq.symm⟩

end Rewritten

/-- **The effect of `nat_rewrite`**, on every TCP or UDP frame that `parse`
accepts, for every target and all options. -/
theorem natRewrite_effect {m : Mbuf} {p : PacketMeta} (hp : parse m = .ok (.ok, p)) (heth : p.etherType = 0x0800)
    (hproto : p.ipProtocol = 6 ∨ p.ipProtocol = 17) (rw : NatRewrite) (opt : NatOptions) :
    (p.ipTtl ≤ 1 → natRewrite m p rw opt = .ok (.ttlExceeded, m, p, {})) ∧
    (1 < p.ipTtl → ∃ r p' out q, natRewrite m p rw opt = .ok (.ok, r, p', out) ∧ parse r = .ok (.ok, q) ∧
      NatEffect m p rw opt r p' out q) := by
  have hm := parsed_of_parse hp heth
  obtain ⟨hip, hlen⟩ := decode_of_parse hp heth
  obtain ⟨hexc, hok⟩ := natRewrite_spec hm hproto rw opt
  rw [← hm.ttl] at hexc hok
  refine ⟨hexc, fun httl => ?_⟩
  obtain ⟨r, p1, out, m1, c, hr, hopts, hrw, hdst, hsrc⟩ := hok (UInt8.not_le.mpr httl)
  obtain ⟨a, ha, he⟩ := rewriteOptions_edited hm opt
  rw [hopts] at ha
  obtain rfl := Except.ok.inj ha
  obtain ⟨q, hq, heff⟩ := hrw.effect he hm hproto hip hlen (hm.ttl ▸ UInt8.not_le.mpr httl) hdst hsrc
  exact ⟨r, p1, out, q, hr, hq, heff⟩

/-- Both edits, with 10.0.0.1:1234 as the client. -/
def synOptions : NatOptions := { stripTs := true, addToa := true, toaIp := 0x0100000A, toaPort := 0xD204 }

/-- The SYN with a timestamp gets the TOA option in front of twelve NOPs. -/
theorem natRewrite_effect_syn :
    ∃ r p' q, natRewrite zeroSumFrame (metaOf zeroSumFrame) synRewrite synOptions =
        .ok (.ok, r, p', ⟨true, true, false⟩) ∧ parse r = .ok (.ok, q) ∧ q.toFiveTuple = synRewrite.tuple 6 ∧
      q.ipTtl = 63 ∧ r.totalOf 14 = 60 ∧
      tcpOptions r q = [254, 8, 4, 210, 10, 0, 0, 1] ++ List.replicate 12 1 := by
  obtain ⟨r, p', out, q, hr, hq, heff⟩ := (natRewrite_effect (m := zeroSumFrame) (p := metaOf zeroSumFrame) rfl
    (by decide +kernel) (Or.inl (by decide +kernel)) synRewrite synOptions).2 (by decide +kernel)
  have hout : (natRewrite zeroSumFrame (metaOf zeroSumFrame) synRewrite synOptions).map (·.2.2.2) =
      .ok ⟨true, true, false⟩ := by rfl
  rw [hr] at hout
  obtain rfl : out = ⟨true, true, false⟩ := Except.ok.inj hout
  refine ⟨r, p', q, hr, hq, heff.tuple, ?_, heff.total, ?_⟩
  · have h64 : (metaOf zeroSumFrame).ipTtl.toNat = 64 := by decide +kernel
    have := heff.ttl
    apply UInt8.toNat_inj.mp
    show q.ipTtl.toNat = 63
    omega
  · rw [heff.options (by decide +kernel)]
    decide +kernel

end L4Lb
