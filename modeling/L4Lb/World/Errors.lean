/-
# ICMP errors in a session

An ICMP error that comes in quotes a packet as the load balancer has sent it. It
is for the side that sent that packet in the first place, and this side knows
the packet under the tuple it used. `handle_icmp_error` finds the session under
the quoted tuple and sends the error on with the tuple of that side, in the
quoted packet and, turned round, in the outer header.

In DR a real server sends its packets to the client itself: an error about one
of them quotes it as the real server has sent it, and goes on as it is.
-/
import L4Lb.Forward.Errors
import L4Lb.World.RealServers
import L4Lb.World.Tuples

open Checked

namespace L4Lb

/-- The tuple of the packets that a side of the session sends. -/
def Session.sends (s : Session) : Dir → FiveTuple
  | .clientToRs => s.client
  | .rsToClient => s.server

/-- The tuple under which FULLNAT sends these packets on. -/
def Session.relays (s : Session) : Dir → FiveTuple
  | .clientToRs => s.server.reverse
  | .rsToClient => s.client.reverse

/-- The rewrite of these packets. -/
def rewriteOf (dp : Dataplane) (s : Session) : Dir → MacAddr → NatRewrite
  | .clientToRs => toServer dp s
  | .rsToClient => toClient dp s

theorem rewriteOf_tuple (dp : Dataplane) {s : Session} (h : s.server.protocol = s.client.protocol) (dir : Dir)
    (mac : MacAddr) : (rewriteOf dp s dir mac).tuple (s.sends dir).protocol = s.relays dir := by
  cases dir with
  | clientToRs =>
    show FiveTuple.mk _ _ _ _ s.client.protocol = FiveTuple.mk _ _ _ _ s.server.protocol
    rw [h]
    rfl
  | rsToClient =>
    show FiveTuple.mk _ _ _ _ s.server.protocol = FiveTuple.mk _ _ _ _ s.client.protocol
    rw [h]
    rfl

section Sent

variable {dp : Dataplane} {view : NeighView} {snap : Snapshot} {w w' : WorkerCtx} {m m' : Mbuf} {p : PacketMeta}
  {info : IcmpErrorInfo} {redirected : Bool}

/-- Case 1 of `handle_icmp_error`, if it sends the error. -/
theorem icmpToClient_sent (ho : icmpToClient dp view w m p info = .ok (w', m', .send)) :
    ∃ a mac, w.sessions.lookup info.inner.reverse = some a ∧ (w.session a).server = info.inner.reverse ∧
      natRewriteIcmpError m p info (w.session a).client.dstIp (w.session a).client.srcIp (w.session a).client
        dp.localMac mac = .ok (.ok, m') := by
  unfold icmpToClient at ho
  simp only [pure_eq_ok] at ho
  cases hl : w.sessions.lookup info.inner.reverse with
  | none => simp [hl] at ho
  | some a =>
    simp only [hl] at ho
    split at ho
    · cases ho
    rename_i hs
    have hk := Keeps.resolveClientMac dp view w a
    generalize resolveClientMac dp view w a = res at hk ho
    rcases res with ⟨w1, _ | mac⟩
    · cases ho
    have hclient : (w1.session a).client = (w.session a).client := congrArg SessionId.client hk.ident
    simp only [hclient] at ho
    obtain ⟨⟨result, r⟩, hr, ho⟩ := bind_eq_ok.mp ho
    simp only at ho
    split at ho
    · cases ho
    rename_i hok
    obtain rfl : result = .ok := not_not.mp hok
    cases ho
    exact ⟨a, mac, rfl, not_not.mp hs, hr⟩

/-- Case 2 of `handle_icmp_error`, if it sends the error. -/
theorem icmpToServer_sent (ho : icmpToServer dp view w snap m p info = .ok (w', m', .send)) :
    ∃ a mac, w.sessions.lookup info.inner.reverse = some a ∧ (w.session a).client = info.inner.reverse ∧
      (snap.mode = .dr ∧ drRewrite m dp.localMac mac = .ok m' ∨
        snap.mode ≠ .dr ∧ natRewriteIcmpError m p info (w.session a).server.dstIp (w.session a).server.srcIp
          (w.session a).server dp.localMac mac = .ok (.ok, m')) := by
  unfold icmpToServer at ho
  simp only [pure_eq_ok] at ho
  cases hl : w.sessions.lookup info.inner.reverse with
  | none => simp [hl] at ho
  | some a =>
    simp only [hl] at ho
    split at ho
    · cases ho
    rename_i hc
    cases hrs : snap.rs (w.session a).rsId with
    | none => simp [hrs] at ho
    | some rs =>
      simp only [hrs] at ho
      have hk := Keeps.resolveRsMac dp view w a rs
      generalize resolveRsMac dp view w a rs = res at hk ho
      rcases res with ⟨w1, _ | mac⟩
      · cases ho
      have hserver : (w1.session a).server = (w.session a).server := congrArg SessionId.server hk.ident
      simp only [hserver] at ho
      refine ⟨a, mac, rfl, not_not.mp hc, ?_⟩
      split at ho
      · rename_i hdr
        obtain ⟨r, hr, ho⟩ := bind_eq_ok.mp ho
        cases ho
        exact Or.inl ⟨hdr, hr⟩
      · rename_i hdr
        obtain ⟨⟨result, r⟩, hr, ho⟩ := bind_eq_ok.mp ho
        simp only at ho
        split at ho
        · cases ho
        rename_i hok
        obtain rfl : result = .ok := not_not.mp hok
        cases ho
        exact Or.inr ⟨hdr, hr⟩

/-- An error that is sent takes one of the two cases. -/
theorem handleIcmpError_sent (hinfo : parseIcmpError m p = .ok (some info))
    (ho : handleIcmpError dp view w snap m p redirected = .ok (w', m', .send)) :
    (snap.mode = .nat ∧ icmpToClient dp view w m p info = .ok (w', m', .send)) ∨
      icmpToServer dp view w snap m p info = .ok (w', m', .send) := by
  have hown : ∀ k, (w, m, notOwner redirected k) ≠ (w', m', .send) := fun k he =>
    notOwner_ne_send redirected k (congrArg (·.2.2) he)
  unfold handleIcmpError at ho
  rw [hinfo, ok_bind] at ho
  simp only at ho
  obtain ⟨b, hb, ho⟩ := bind_eq_ok.mp ho
  split at ho
  · rename_i hbt
    split at ho
    · exact absurd (Except.ok.inj ho) (hown _)
    · refine Or.inl ⟨?_, ho⟩
      unfold quotesServer at hb
      split at hb
      · cases hb
        cases hbt
      · rename_i hm
        exact not_not.mp hm
  · obtain ⟨c, -, ho⟩ := bind_eq_ok.mp ho
    split at ho
    · split at ho
      · exact absurd (Except.ok.inj ho) (hown _)
      · exact Or.inr ho
    · cases ho

/-- A frame with other MACs quotes the same packet. -/
theorem Relayed.quotes (hp : parse m = .ok (.ok, p)) (heth : p.etherType = 0x0800) (hicmp : p.ipProtocol = 1)
    (hinfo : parseIcmpError m p = .ok (some info)) (hr : Relayed m m') :
    ∃ q, parse m' = .ok (.ok, q) ∧ parseIcmpError m' q = .ok (some info) := by
  obtain ⟨hlen, hb⟩ := hr
  have h := parsed_of_parse hp heth
  have hihl := h.ihl
  have hl4 := h.l4
  obtain ⟨-, hok, rfl⟩ := quoted_of_parseIcmpError h hicmp hinfo
  have hlay : SameLayout m m' := by
    refine ⟨?_, fun i h12 _ => hb i h12, fun _ => hb _ ?_, fun _ => ?_⟩
    · rw [hlen]
      exact h.accepted.1.bounds.2.2
    · unfold Mbuf.l4Of
      omega
    · unfold Mbuf.be16 Mbuf.l4Of
      rw [hb _ (by omega), hb _ (by omega)]
  obtain ⟨hparse, hq, hl4q, htotq⟩ := h.parse_of_sameLayout (decode_of_parse hp heth).1 hlay
  have hpq : (decode m').ipProtocol = 1 := by
    rw [hq.protocol, hb 23 (by omega), ← h.protocol, hicmp]
  obtain ⟨hok', eihl⟩ := hok.congr fun i _ => hb i (by omega)
  refine ⟨decode m', hparse, ?_⟩
  rw [parseIcmpError_eq hq hpq, hl4q, htotq, if_pos hok', quoteOf_eq, quoteOf_eq, eihl,
    tupleAt_congr (by omega) fun i _ => hb i (by omega)]

/-- The frame that `nat_rewrite_icmp_error` has made, if it has. -/
theorem errorEffect_of_ok {outerSrc outerDst : IPv4Addr} {inner : FiveTuple} {srcMac dstMac : MacAddr}
    (hp : parse m = .ok (.ok, p)) (heth : p.etherType = 0x0800) (hicmp : p.ipProtocol = 1)
    (hinfo : parseIcmpError m p = .ok (some info)) (hproto : inner.protocol = info.inner.protocol)
    (hr : natRewriteIcmpError m p info outerSrc outerDst inner srcMac dstMac = .ok (.ok, m')) :
    ∃ q, ErrorEffect m p info outerSrc outerDst inner m' q := by
  obtain ⟨hexc, hok⟩ := natRewriteIcmpError_effect hp heth hicmp hinfo outerSrc outerDst inner hproto srcMac dstMac
  by_cases httl : p.ipTtl ≤ 1
  · rw [hexc httl] at hr
    cases hr
  · obtain ⟨r, q, hr', heff⟩ := hok (UInt8.not_le.mp httl)
    rw [hr] at hr'
    cases hr'
    exact ⟨q, heff⟩

end Sent

/-- The error `m'` that goes on is the error `m` about a packet of the session,
as the side that sent the packet has to see it. -/
def ErrorReturned (dp : Dataplane) (s : Session) (m : Mbuf) (p : PacketMeta) (info : IcmpErrorInfo) (m' : Mbuf) :
    Prop :=
  if dp.cfg.mode = .nat then
    ∃ dir q, info.inner = s.relays dir ∧
      (∀ mac, (rewriteOf dp s dir mac).tuple (s.sends dir).protocol = info.inner) ∧
      ErrorEffect m p info (s.sends dir).dstIp (s.sends dir).srcIp (s.sends dir) m' q
  else
    info.inner = s.client.reverse ∧ Relayed m m' ∧
      ∃ q, parse m' = .ok (.ok, q) ∧ parseIcmpError m' q = .ok (some info)

section Returned

variable {dp : Dataplane} {view : NeighView} {snap : Snapshot} {w w' : WorkerCtx} {m m' : Mbuf} {p : PacketMeta}
  {info : IcmpErrorInfo} {k : ℕ} (hw : WorkerOk dp k w) (hp : parse m = .ok (.ok, p)) (heth : p.etherType = 0x0800)
  (hicmp : p.ipProtocol = 1) (hinfo : parseIcmpError m p = .ok (some info))

include hw

/-- In FULLNAT both tuples of a session have its protocol. -/
theorem WorkerOk.protocol (hnat : dp.cfg.mode = .nat) {a : ℕ} (ha : w.sessions.Live a) :
    (w.session a).server.protocol = (w.session a).client.protocol :=
  (hw.live a ha).serverProto ((hw.live a ha).fullnat.mpr hnat)

include hp heth hicmp hinfo

/-- An error about a packet to the real server, at the client. -/
theorem icmpToClient_returned (hnat : dp.cfg.mode = .nat)
    (ho : icmpToClient dp view w m p info = .ok (w', m', .send)) :
    ∃ a, w.sessions.Live a ∧ ErrorReturned dp (w.session a) m p info m' := by
  obtain ⟨a, mac, hl, hserver, hr⟩ := icmpToClient_sent ho
  have ha : w.sessions.Live a := ((hw.fit.lookup_iff _ _).mp hl).1
  have hproto := hw.protocol hnat ha
  have hrel : info.inner = (w.session a).relays .clientToRs := by
    rw [Session.relays, hserver]
    rfl
  obtain ⟨q, hq⟩ := errorEffect_of_ok hp heth hicmp hinfo (by rw [← hproto, hserver]; rfl) hr
  refine ⟨a, ha, ?_⟩
  rw [ErrorReturned, if_pos hnat]
  exact ⟨.clientToRs, q, hrel, fun mac => (rewriteOf_tuple dp hproto _ mac).trans hrel.symm, hq⟩

/-- An error about a packet to the client, at the real server. -/
theorem icmpToServer_returned (hmode : snap.mode = dp.cfg.mode)
    (ho : icmpToServer dp view w snap m p info = .ok (w', m', .send)) :
    ∃ a, w.sessions.Live a ∧ ErrorReturned dp (w.session a) m p info m' := by
  obtain ⟨a, mac, hl, hclient, hr⟩ := icmpToServer_sent ho
  have ha : w.sessions.Live a := ((hw.fit.lookup_iff _ _).mp hl).1
  have hrel : info.inner = (w.session a).relays .rsToClient := by
    rw [Session.relays, hclient]
    rfl
  refine ⟨a, ha, ?_⟩
  rw [hmode] at hr
  rcases hr with ⟨hdr, hr⟩ | ⟨hdr, hr⟩
  · rw [ErrorReturned, if_neg (by rw [hdr]; decide)]
    obtain ⟨m1, hm1, hrelayed⟩ := relayed_drRewrite (parsed_of_parse hp heth) dp.localMac mac
    obtain rfl := Except.ok.inj (hr.symm.trans hm1)
    exact ⟨hrel, hrelayed, hrelayed.quotes hp heth hicmp hinfo⟩
  · have hnat : dp.cfg.mode = .nat := by
      cases hm : dp.cfg.mode with
      | nat => rfl
      | dr => exact absurd hm hdr
    have hproto := hw.protocol hnat ha
    obtain ⟨q, hq⟩ := errorEffect_of_ok hp heth hicmp hinfo (by rw [hproto, hclient]; rfl) hr
    rw [ErrorReturned, if_pos hnat]
    exact ⟨.rsToClient, q, hrel, fun mac => (rewriteOf_tuple dp hproto _ mac).trans hrel.symm, hq⟩

end Returned

namespace World

variable {dp : Dataplane} {W : World}

/-- **ICMP errors reach the side that they are for.** An ICMP error that `parse`
and `parse_icmp_error` accept can be translated to every tuple of the quoted
protocol, with the effect that `ErrorEffect` states. In every state of the
system, an error that `handle_icmp_error` sends is about a session of the worker
and is sent as `ErrorReturned` states: the packet that it quotes has become the
one that the receiver has sent in that session. -/
theorem icmp_errors_translated (hcfg : Config.Accepted dp.cfg) (h : Reach dp W) {m : Mbuf} {p : PacketMeta}
    {info : IcmpErrorInfo} (hp : parse m = .ok (.ok, p)) (heth : p.etherType = 0x0800) (hicmp : p.ipProtocol = 1)
    (hinfo : parseIcmpError m p = .ok (some info)) :
    (∀ outerSrc outerDst inner srcMac dstMac, 1 < p.ipTtl → inner.protocol = info.inner.protocol →
      ∃ r q, natRewriteIcmpError m p info outerSrc outerDst inner srcMac dstMac = .ok (.ok, r) ∧
        ErrorEffect m p info outerSrc outerDst inner r q) ∧
    ∀ k, k < dp.steering.n → ∀ w, SameSessions (W.workers k) w → ∀ view redirected w' m',
      handleIcmpError dp view w (W.snaps k) m p redirected = .ok (w', m', .send) →
      ∃ a, (W.workers k).sessions.Live a ∧ ErrorReturned dp ((W.workers k).session a) m p info m' := by
  refine ⟨fun outerSrc outerDst inner srcMac dstMac httl hproto => ?_, ?_⟩
  · exact (natRewriteIcmpError_effect hp heth hicmp hinfo outerSrc outerDst inner hproto srcMac dstMac).2 httl
  intro k hk w hsame view redirected w' m' ho
  have hinv := reach_inv hcfg h
  have hw : WorkerOk dp k w := (hinv.workers k hk).same hsame
  have hmode := (hinv.snaps k).mode
  obtain ⟨a, ha, hret⟩ : ∃ a, w.sessions.Live a ∧ ErrorReturned dp (w.session a) m p info m' := by
    rcases handleIcmpError_sent hinfo ho with ⟨hnat, hc⟩ | hs
    · exact icmpToClient_returned hw hp heth hicmp hinfo (hmode ▸ hnat) hc
    · exact icmpToServer_returned hw hp heth hicmp hinfo hmode hs
  rw [hsame.sessions] at ha
  rw [hsame.session] at hret
  exact ⟨a, ha, hret⟩

/-- The error of the client's host, on the session of the query. -/
theorem icmp_errors_translated_query : ∃ W, Reach demo W ∧
    ∃ w' m' a, handleIcmpError demo noNeigh (W.workers 0) (W.snaps 0) errorFrame (metaOf errorFrame) false =
        .ok (w', m', .send) ∧ (W.workers 0).sessions.Live a ∧
      ErrorReturned demo ((W.workers 0).session a) errorFrame (metaOf errorFrame) (errorFrame.quoteOf 34) m' := by
  obtain ⟨W, h, o, ho, hsend⟩ := exists_reach demo [.receive 0 queryFrame noNeigh]
    (P := fun W => Returns (handleIcmpError demo noNeigh (W.workers 0) (W.snaps 0) errorFrame (metaOf errorFrame)
      false) fun o => o.2.2 = .send) (by decide) (by decide +kernel)
  obtain ⟨w', m', res⟩ := o
  obtain rfl : res = .send := hsend
  obtain ⟨a, ha, hret⟩ := (icmp_errors_translated demo_accepted h (m := errorFrame) (p := metaOf errorFrame) rfl
    (by decide +kernel) (by decide +kernel) (by rfl)).2 0 (by decide) _ (.refl _) noNeigh false w' m' ho
  exact ⟨W, h, w', m', a, ho, ha, hret⟩

end World

end L4Lb
