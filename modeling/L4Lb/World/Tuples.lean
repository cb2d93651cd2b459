/-
# The tuples of FULLNAT

In FULLNAT a session has a client tuple (client to VIP) and a server tuple
(real server to local address). No two sessions of the system share a server
tuple, though the workers choose the NAT ports without talking to each other,
and no server tuple is a client tuple (`World.tuples_apart`). So a packet of a
real server goes to the client of its session and to no other.

A packet of the client goes to the real server of its session unless the
packet ends the session: the real server is gone or down, or the packet is a
SYN that takes an old connection's place. Then, if it is forwarded at all, it
is on a new session, with another server tuple (`client_tuple_moves`).
-/
import L4Lb.World.Owners

open Checked

namespace L4Lb

namespace World

variable {dp : Dataplane} {W : World} {i k a b : ℕ}

theorem Inv.fullnat (h : Inv dp W) (hm : dp.cfg.mode = .nat) (hi : i < dp.steering.n)
    (ha : (W.workers i).sessions.Live a) : ((W.workers i).session a).ident.fullnat = true :=
  ((h.workers i hi).live a ha).fullnat.mpr hm

/-- Within a worker the keys tell the sessions apart, between workers the
owners do. -/
theorem Inv.server_unique (h : Inv dp W) (hm : dp.cfg.mode = .nat) (hi : i < dp.steering.n)
    (hk : k < dp.steering.n) (ha : (W.workers i).sessions.Live a) (hb : (W.workers k).sessions.Live b)
    (he : ((W.workers i).session a).server = ((W.workers k).session b).server) : i = k ∧ a = b := by
  have hfa := h.fullnat hm hi ha
  have hfb := h.fullnat hm hk hb
  have howner := ((h.workers i hi).live a ha).serverOwner hfa
  have hik : i = k := by
    rw [← howner, ← ((h.workers k hk).live b hb).serverOwner hfb]
    exact congrArg _ he
  subst hik
  refine ⟨rfl, ?_⟩
  have hfit := (h.workers i hi).fit
  have h1 := (hfit.lookup_iff _ a).mpr ⟨ha, Or.inr ⟨hfa, rfl⟩⟩
  have h2 := (hfit.lookup_iff _ b).mpr ⟨hb, Or.inr ⟨hfb, he⟩⟩
  exact Option.some.inj (h1.symm.trans h2)

theorem Inv.server_ne_client (h : Inv dp W) (hm : dp.cfg.mode = .nat) (hi : i < dp.steering.n)
    (hk : k < dp.steering.n) (ha : (W.workers i).sessions.Live a) (hb : (W.workers k).sessions.Live b) :
    ((W.workers i).session a).server ≠ ((W.workers k).session b).client := by
  intro he
  have hret := ((h.workers i hi).live a ha).returnTo (h.fullnat hm hi ha)
  have hno := ((h.workers k hk).live b hb).noReturn
  change dp.cfg.ReturnTo ((W.workers i).session a).server.dstIp ((W.workers i).session a).server.dstPort at hret
  rw [he] at hret
  exact hno hret

end World

section Packets

variable {dp : Dataplane} {view : NeighView} {snap : Snapshot} {w : WorkerCtx} {m : Mbuf} {p : PacketMeta}
  {o : Outcome} {i k a : ℕ} {redirected : Bool}

/-- A client's packet that is sent: where, and on which session. -/
theorem sent_forward {d : SessionId} (hb : snap.Built dp.H dp.cfg) (hw : WorkerOk dp k w)
    (hd : SessionOk dp i d) (h : Admitted dp m p) (ht : p.toFiveTuple = d.client)
    (ho : processPacket dp view w snap m redirected = .ok o) (hsend : o.2.2 = .send) :
    k = i ∧ ∃ svc b, SentInbound dp snap svc w m p b o ∧ (o.1.session b).client = p.toFiveTuple := by
  obtain ⟨svc, hp⟩ := path_forward hb hd h ht
  have hproc := processPacket_processed ho hp
  obtain ⟨hown, hdone⟩ := hproc.sent hsend
  have hik : k = i := by
    rw [← hw.idx, ← hown i (by rw [Path.owner, ht, hd.owner])]
  obtain ⟨b, hsb⟩ := InboundPost.sent hdone (hb.admits hw hproc.taken) hsend
  refine ⟨hik, svc, b, hsb, ?_⟩
  have hw' := (processPacket_keeps hb hw ho).1
  obtain ⟨hl, hkey⟩ := (hw'.fit.lookup_iff _ b).mp hsb.found
  rcases hkey with hc | ⟨hf, hs⟩
  · exact hc.symm
  -- the key is not a server key: those are of return packets
  · have hret := (hw'.live b hl).returnTo hf
    change dp.cfg.ReturnTo (o.1.session b).server.dstIp (o.1.session b).server.dstPort at hret
    rw [show (o.1.session b).server = d.client from hs.symm.trans ht] at hret
    exact absurd hret hd.noReturn

/-- A real server's packet that is sent: where, and on which session. -/
theorem sent_back {d : SessionId} (hb : snap.Built dp.H dp.cfg) (hw : WorkerOk dp k w) (hd : SessionOk dp i d)
    (hf : d.fullnat = true) (h : Admitted dp m p) (ht : p.toFiveTuple = d.server)
    (ho : processPacket dp view w snap m redirected = .ok o) (hsend : o.2.2 = .send) :
    k = i ∧ ∃ b, w.sessions.lookup p.toFiveTuple = some b ∧ Carries p (w.session b).client.reverse o.2.1 := by
  have hp := path_back hb hd hf h ht
  obtain ⟨hown, hdone⟩ := (processPacket_processed ho hp).sent hsend
  obtain ⟨b, hl, -, -, hc⟩ := OnSession.sent hdone hsend
  refine ⟨?_, b, hl, hc⟩
  rw [← hw.idx, ← hown i (by rw [Path.owner, ht, hd.serverOwner hf])]

end Packets

namespace World

variable {dp : Dataplane} {W : World}

/-- **The tuples of FULLNAT sessions.** In every state of the system, over
all workers: no two sessions share a server tuple, and none has a client tuple
for its server tuple. A packet with the client tuple of session `a` of worker
`i`, if it is sent, is sent by worker `i` as the packet of the session that is
then found under the client tuple, to its real server; this is session `a`
itself unless the packet ends session `a`. A packet with the server tuple of
session `a`, if it is sent, is sent by worker `i` to the client of session `a`. -/
theorem tuples_apart (hcfg : Config.Accepted dp.cfg) (hm : dp.cfg.mode = .nat) (h : Reach dp W) {i a : ℕ}
    (hi : i < dp.steering.n) (ha : (W.workers i).sessions.Live a) {k : ℕ} (hk : k < dp.steering.n) :
    (∀ b, (W.workers k).sessions.Live b →
      (((W.workers i).session a).server = ((W.workers k).session b).server → i = k ∧ a = b) ∧
      ((W.workers i).session a).server ≠ ((W.workers k).session b).client) ∧
    ∀ w, SameSessions (W.workers k) w → ∀ view m p redirected o, Admitted dp m p →
      processPacket dp view w (W.snaps k) m redirected = .ok o → o.2.2 = .send →
      (p.toFiveTuple = ((W.workers i).session a).client →
        k = i ∧ ∃ b, o.1.sessions.lookup p.toFiveTuple = some b ∧ (o.1.session b).client = p.toFiveTuple ∧
          Carries p (o.1.session b).server.reverse o.2.1 ∧
          (b = a ∧ (o.1.session b).ident = ((W.workers i).session a).ident ∨
            Ends (W.snaps k) ((W.workers i).session a) (opensConnection p))) ∧
      (p.toFiveTuple = ((W.workers i).session a).server →
        k = i ∧ Carries p ((W.workers i).session a).client.reverse o.2.1) := by
  have hinv := reach_inv hcfg h
  have hok := (hinv.workers i hi).live a ha
  have hf := hinv.fullnat hm hi ha
  have hb := hinv.snaps k
  refine ⟨fun b hl => ⟨hinv.server_unique hm hi hk ha hl, hinv.server_ne_client hm hi hk ha hl⟩, ?_⟩
  intro w hsame view m p redirected o hp ho hsend
  have hw : WorkerOk dp k w := (hinv.workers k hk).same hsame
  constructor
  · intro ht
    obtain ⟨rfl, svc, b, hs, hc⟩ := sent_forward hb hw hok hp ht ho hsend
    have hla : w.sessions.lookup p.toFiveTuple = some a := by
      rw [hw.fit.lookup_iff, hsame.sessions]
      exact ⟨ha, Or.inl ht⟩
    have hframe := hs.frame
    rw [SentToServer, hb.mode, hm, if_neg (by simp)] at hframe
    refine ⟨rfl, b, hs.found, hc, hframe, ?_⟩
    rcases hs.session with ⟨hl, hid, -⟩ | ⟨-, he⟩
    · obtain rfl : a = b := by simpa [hla] using hl
      exact Or.inl ⟨rfl, by rw [hid, hsame.session]⟩
    · exact Or.inr (hsame.session a ▸ he a hla)
  · intro ht
    obtain ⟨rfl, b, hl, hc⟩ := sent_back hb hw hok hf hp ht ho hsend
    have hla : w.sessions.lookup p.toFiveTuple = some a := by
      rw [hw.fit.lookup_iff, hsame.sessions]
      exact ⟨ha, Or.inr ⟨hf, ht⟩⟩
    obtain rfl : a = b := by simpa [hla] using hl
    exact ⟨rfl, hsame.session a ▸ hc⟩

/-- The query of a second client, from port 1235. -/
def otherQuery : Mbuf := queryFrame.set8 35 211

/-- Two clients have a session each. -/
theorem tuples_apart_query : ∃ W, Reach demo W ∧ (W.workers 0).sessions.Live 0 ∧ (W.workers 0).sessions.Live 1 ∧
    ((W.workers 0).session 1).client = (metaOf otherQuery).toFiveTuple ∧
    ((W.workers 0).session 0).server ≠ ((W.workers 0).session 1).server ∧
    ((W.workers 0).session 0).server ≠ ((W.workers 0).session 1).client ∧
    Returns (processPacket demo noNeigh (W.workers 0) (W.snaps 0) queryFrame false) fun o => o.2.2 = .send ∧
      ∃ b, o.1.sessions.lookup queryTuple = some b ∧
        Carries (metaOf queryFrame) (o.1.session b).server.reverse o.2.1 := by
  obtain ⟨W, h, hl, hl', hc, hc', o, ho, hsend⟩ := exists_reach demo
    [.receive 0 queryFrame noNeigh, .receive 0 otherQuery noNeigh]
    (P := fun W => (W.workers 0).sessions.Live 0 ∧ (W.workers 0).sessions.Live 1 ∧
      ((W.workers 0).session 0).client = queryTuple ∧
      ((W.workers 0).session 1).client = (metaOf otherQuery).toFiveTuple ∧
      Returns (processPacket demo noNeigh (W.workers 0) (W.snaps 0) queryFrame false) fun o => o.2.2 = .send)
    (by decide) (by decide +kernel)
  obtain ⟨hne, hsent⟩ := tuples_apart (a := 0) demo_accepted rfl h (by decide) hl (k := 0) (by decide)
  obtain ⟨hserver, hclient⟩ := hne 1 hl'
  obtain ⟨hfwd, -⟩ := hsent _ (.refl _) noNeigh queryFrame _ false o queryFrame_admitted ho hsend
  obtain ⟨-, b, hb, -, hcar, -⟩ := hfwd hc.symm
  refine ⟨W, h, hl, hl', hc', fun he => ?_, hclient, o, ho, hsend, b, hb, hcar⟩
  exact absurd (hserver he).2 (by decide)

instance (p : PacketMeta) (t : FiveTuple) (m : Mbuf) : Decidable (Carries p t m) := by
  unfold Carries; infer_instance

/-- The real server of a session is disabled: the next packet of the client
goes out with another server tuple. -/
theorem client_tuple_moves : ∃ W, Reach demo W ∧ (W.workers 0).sessions.Live 0 ∧
    ((W.workers 0).session 0).client = (metaOf queryFrame).toFiveTuple ∧
    Returns (processPacket demo noNeigh (W.workers 0) (W.snaps 0) queryFrame false) fun o =>
      o.2.2 = .send ∧ ¬ Carries (metaOf queryFrame) ((W.workers 0).session 0).server.reverse o.2.1 :=
  exists_reach demo
    [.receive 0 queryFrame noNeigh, .command (.setEnabled 1 false), .command .publish, .turn 0]
    (by decide) (by decide +kernel)

end World

end L4Lb
