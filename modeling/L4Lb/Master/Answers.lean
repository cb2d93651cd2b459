/-
# Probes and their answers

A probe goes out as a frame, and what comes back passes a worker, the ring to the
master and the health checker. Both directions of that way are here. An answer to
the probe in flight, at whichever worker it comes in and whichever snapshot that
worker has, is consumed there, waits in the ring and counts as a success when the
master handles it (`System.probe_answered`). And nothing else makes a real server
healthy again: when the checker's verdict goes from down to up, the master is handling
what a SYN-ACK brought that was received from the address and port of this real server,
to the address of the checks and the port of this probe, and that acknowledges it
(`System.up_from_frame`).
-/
import L4Lb.Master.Heard
import L4Lb.HealthCheck.Wire
import L4Lb.HealthCheck.Life

open Checked

namespace L4Lb

/-- The event of a packet that answers a health check. -/
def hcEvent (m : Mbuf) (p : PacketMeta) : MasterEvent :=
  .hcResp p.srcIp (bswap16 p.dstPort) (bswap16 p.srcPort) p.tcpFlags (bswap32 (m.get32 (p.l4Offset + 4)))
    (bswap32 (m.get32 (p.l4Offset + 8)))

/-- The packet answers the segment, as the accepting side of a handshake does. -/
structure AnswersTo (seg : Segment) (m : Mbuf) (p : PacketMeta) : Prop where
  tuple : p.toFiveTuple = seg.tuple.reverse
  synAck : HealthChecker.isSynAck p.tcpFlags = true
  ack : bswap32 (m.get32 (p.l4Offset + 8)) = seg.seq + 1

/-! ### At the worker -/

section Worker

variable {dp : Dataplane} {snap : Snapshot} {m : Mbuf} {p : PacketMeta}

/-- The two port ranges are apart. -/
theorem inNatRange_of_inHcRange {port : Port} (h : inHcRange port = true) : inNatRange port = false := by
  unfold inHcRange Config.inPortRange kHcPortMin kHcPortMax at h
  unfold inNatRange Config.inPortRange kNatPortMin kNatPortMax
  simp only [Bool.and_eq_true, decide_eq_true_eq] at h
  simp only [Bool.and_eq_false_iff, decide_eq_false_iff_not]
  omega

/-- An answer is consumed, and the master gets its event, whatever the worker's
state is. -/
theorem processPacket_answer (hb : snap.Built dp.H dp.cfg) (hp : PacketFrom dp m p) (htcp : p.ipProtocol = 6)
    (hdst : p.dstIp = dp.cfg.hcSrc) (hrange : inHcRange p.dstPort = true) (view : NeighView) (w : WorkerCtx)
    (redirected : Bool) :
    ∃ w', processPacket dp view w snap m redirected = .ok (w', m, .consumed) ∧
      w'.events = w.events ++ [hcEvent m p] := by
  have hparsed := hp.isParsed
  obtain ⟨hdoff, hpay, hle, -⟩ := hparsed.tcp htcp
  have htotal := hparsed.total_le
  have hret : isReturn dp snap p = .ok false := by
    obtain ⟨b, hr, hiff⟩ := hb.isReturn_iff p
    cases b with
    | false => exact hr
    | true =>
      have hnat : inNatRange p.dstPort = true := (hiff.mp rfl).2.2
      rw [inNatRange_of_inHcRange hrange] at hnat
      cases hnat
  have hresp : ∀ w : WorkerCtx, handleHcResponse w m p =
      .ok ((w.post [hcEvent m p]).count .hcResp, m, .consumed) := by
    intro w
    unfold handleHcResponse
    rw [if_neg (not_not.mpr htcp), Mbuf.load32_eq (by omega), ok_bind, Mbuf.load32_eq (by omega)]
    rfl
  have hl4 : ∀ w : WorkerCtx, processL4 dp view w snap m p redirected =
      .ok ((w.post [hcEvent m p]).count .hcResp, m, .consumed) := by
    intro w
    unfold processL4
    rw [hret, ok_bind, if_neg Bool.false_ne_true, if_pos ⟨hdst.trans hb.hcSrc.symm, hrange⟩, hresp]
  have h14 : 14 ≤ m.dataLen := by
    have := hparsed.l4
    have := hparsed.l4_le
    omega
  have hip : processIpv4 dp view w snap m p redirected =
      processL4 dp view (if redirected then w else w.count .tcp) snap m p redirected := by
    unfold processIpv4
    rw [if_neg (by rw [hp.intact]; decide), if_neg hp.foreign, if_neg (by rw [htcp]; decide),
      if_neg (by rw [htcp]; decide), if_pos htcp]
  have hproc : processPacket dp view w snap m redirected = processIpv4 dp view w snap m p redirected := by
    unfold processPacket
    rw [if_neg (by omega), Mbuf.etherType_eq h14, ok_bind, hp.type, if_neg (by decide), if_neg (by decide), hp.parsed]
    rfl
  refine ⟨_, (hproc.trans hip).trans (hl4 _), ?_⟩
  cases redirected <;> rfl

end Worker

/-! ### At the checker -/

namespace HealthChecker

variable {hc hc' hc'' : HealthChecker} {id : ℕ} {p : Probe}

/-- An answer to the probe in flight counts as a success. -/
theorem onResponse_success {ev : HcResponse} (hport : hc.byPort ev.port.toNat = some id)
    (hp : hc.probes id = some p) (hfly : p.inFlight = true) (hip : ev.ip = p.ip) (haux : ev.aux = p.port)
    (hflags : isSynAck ev.tcpFlags = true) (hack : ev.ack = p.isn + 1) :
    (hc.onResponse ev).1.probes id = some ({ p with inFlight := false }.result hc.conf true) := by
  unfold onResponse
  simp only [hport, hp]
  rw [if_neg (by simp [hfly, hip, haux]), if_neg (by simp [hack])]
  unfold answer
  rw [if_pos hflags]
  exact Function.update_self ..

/-- What a response can do for a probe that is down: nothing, but for an answer to
the probe in flight. -/
theorem up_of_onResponse {ev : HcResponse} {p' : Probe} (hp : hc.probes id = some p)
    (hp' : (hc.onResponse ev).1.probes id = some p') (hdown : p.healthy = false) (hup : p'.healthy = true) :
    hc.byPort ev.port.toNat = some id ∧ p.inFlight = true ∧ ev.ip = p.ip ∧ ev.aux = p.port ∧
      isSynAck ev.tcpFlags = true ∧ ev.ack = p.isn + 1 := by
  have hsame : ∀ {hc' : HealthChecker}, hc'.probes id = hc.probes id → hc'.probes id = some p' → False := by
    intro hc' he h
    obtain rfl := Option.some.inj (hp.symm.trans (he.symm.trans h))
    cases hdown.symm.trans hup
  unfold onResponse at hp'
  cases hport : hc.byPort ev.port.toNat with
  | none =>
    rw [hport] at hp'
    exact (hsame rfl hp').elim
  | some x =>
    rw [hport] at hp'
    simp only at hp'
    cases hx : hc.probes x with
    | none =>
      rw [hx] at hp'
      exact (hsame rfl hp').elim
    | some q =>
      rw [hx] at hp'
      simp only at hp'
      split at hp'
      · exact (hsame rfl hp').elim
      rename_i hmatch
      rw [not_or, not_or, not_not, not_not, not_not] at hmatch
      split at hp'
      · exact (hsame rfl hp').elim
      rename_i hack
      -- whatever the answer is, only the probe at `x` changes
      have hat : ∀ {q' : Probe}, Function.update hc.probes x (some q') id = some p' → x = id ∧ p' = q' := by
        intro q' hq'
        by_cases hne : id = x
        · subst hne
          rw [Function.update_self] at hq'
          exact ⟨rfl, (Option.some.inj hq').symm⟩
        · rw [Function.update_of_ne hne] at hq'
          exact (hsame rfl hq').elim
      unfold answer at hp'
      split at hp'
      · rename_i hflags
        obtain ⟨rfl, -⟩ := hat hp'
        obtain rfl := Option.some.inj (hp.symm.trans hx)
        exact ⟨rfl, hmatch.1, hmatch.2.1, hmatch.2.2, hflags, not_not.mp fun hne => hack ⟨hflags, hne⟩⟩
      -- a RST counts against it, anything else leaves it as it is
      split at hp'
      · obtain ⟨rfl, rfl⟩ := hat hp'
        obtain rfl := Option.some.inj (hp.symm.trans hx)
        simp [Probe.result, hdown] at hup
      · obtain ⟨rfl, rfl⟩ := hat hp'
        obtain rfl := Option.some.inj (hp.symm.trans hx)
        cases hdown.symm.trans hup

/-! A tick makes no real server healthy: it makes probes for new real servers,
removes old ones, and counts failures. -/

/-- Every probe was there, and has not come up. -/
def Sinks (hc hc' : HealthChecker) : Prop :=
  ∀ id p', hc'.probes id = some p' → ∃ p, hc.probes id = some p ∧ (p'.healthy = true → p.healthy = true)

theorem Sinks.refl (hc : HealthChecker) : Sinks hc hc := fun _ p' h => ⟨p', h, fun hup => hup⟩

theorem Sinks.trans (h : Sinks hc hc') (h' : Sinks hc' hc'') : Sinks hc hc'' := by
  intro id p'' hp''
  obtain ⟨p', hp', hup'⟩ := h' id p'' hp''
  obtain ⟨p, hp, hup⟩ := h id p' hp'
  exact ⟨p, hp, fun hh => hup (hup' hh)⟩

theorem Sinks.foldl {f : HealthChecker → ℕ → HealthChecker} (hf : ∀ hc x, Sinks hc (f hc x)) :
    ∀ (l : List ℕ) (hc : HealthChecker), Sinks hc (l.foldl f hc)
  | [], hc => .refl hc
  | x :: l, hc => (hf hc x).trans (foldl hf l (f hc x))

theorem Sinks.purge (seen : List ℕ) (hc : HealthChecker) (x : ℕ) : Sinks hc (hc.purge seen x) := by
  intro id p' hp'
  rw [purge_probes] at hp'
  split at hp'
  · cases hp'
  · exact ⟨p', hp', fun hup => hup⟩

theorem expired_sinks (conf : HealthConf) (p : Probe) (now : ℕ) :
    (p.expired conf now).healthy = true → p.healthy = true := by
  unfold Probe.expired
  split
  · simp only [Probe.result, Bool.and_eq_true]
    exact And.left
  · exact id

theorem Sinks.visit (now : ℕ) (taken : ℕ → Bool) (hc : HealthChecker) (x : ℕ) :
    Sinks hc (hc.visit now taken x).1 := by
  intro id p' hp'
  by_cases hne : id = x
  · subst hne
    cases hp : hc.probes id with
    | none =>
      unfold HealthChecker.visit at hp'
      rw [hp] at hp'
      cases hp.symm.trans hp'
    | some p =>
      obtain ⟨q, hq, srcPort, isn, seg, ms, reports, rfl, -⟩ := visit_spec hp now taken
      obtain rfl := Option.some.inj (hq.symm.trans hp')
      refine ⟨p, rfl, fun hup => expired_sinks hc.conf p now ?_⟩
      split at hup
      · exact hup
      · exact hup
  · rw [visit_probes_of_ne hne] at hp'
    exact ⟨p', hp', fun hup => hup⟩

theorem Sinks.visitAll (now : ℕ) (taken : ℕ → Bool) : ∀ (order : List ℕ) (hc : HealthChecker),
    Sinks hc (HealthChecker.visitAll now taken hc order).1
  | [], hc => .refl hc
  | x :: order, hc => (Sinks.visit now taken hc x).trans (visitAll now taken order _)

theorem foldl_sync_healthy (now : ℕ) : ∀ (l : List RsState) {hc : HealthChecker} {p p' : Probe},
    hc.probes id = some p → (l.foldl (sync now) hc).probes id = some p' → p'.healthy = p.healthy
  | [], _, _, _, hp, hp' => by rw [Option.some.inj (hp.symm.trans hp')]
  | rs :: l, hc, p, p', hp, hp' => by
    have hstep : ∃ q, (hc.sync now rs).probes id = some q ∧ q.healthy = p.healthy := by
      by_cases hid : id = rs.id
      · subst hid
        refine ⟨_, Function.update_self .., ?_⟩
        rw [hp]
        rfl
      · exact ⟨p, (Function.update_of_ne hid ..).trans hp, rfl⟩
    obtain ⟨q, hq, hh⟩ := hstep
    exact (foldl_sync_healthy now l hq hp').trans hh

theorem tick_sinks {snap : Snapshot} {now : ℕ} {order : List ℕ} {taken : ℕ → Bool} {p' : Probe}
    (hp : hc.probes id = some p) (hp' : (hc.tick snap now order taken).1.probes id = some p')
    (hup : p'.healthy = true) : p.healthy = true := by
  unfold tick at hp'
  split at hp'
  · obtain ⟨q, hq, hsink⟩ := ((Sinks.foldl (Sinks.purge _) order _).trans (.visitAll now taken order _)) id p' hp'
    rw [← foldl_sync_healthy now _ hp hq]
    exact hsink hup
  · obtain rfl := Option.some.inj (hp.symm.trans hp')
    exact hup

/-! The address of the checks stays. -/

theorem foldl_sync_srcIp (now : ℕ) : ∀ (l : List RsState) (hc : HealthChecker),
    (l.foldl (sync now) hc).srcIp = hc.srcIp
  | [], _ => rfl
  | rs :: l, hc => foldl_sync_srcIp now l (hc.sync now rs)

theorem foldl_purge_srcIp (seen : List ℕ) : ∀ (order : List ℕ) (hc : HealthChecker),
    (order.foldl (purge seen) hc).srcIp = hc.srcIp
  | [], _ => rfl
  | x :: order, hc => by
    rw [List.foldl_cons, foldl_purge_srcIp seen order]
    unfold purge
    repeat' split
    all_goals rfl

theorem visit_srcIp (now : ℕ) (taken : ℕ → Bool) (hc : HealthChecker) (x : ℕ) :
    (hc.visit now taken x).1.srcIp = hc.srcIp := by
  have hlaunch : ∀ (hc : HealthChecker) (p : Probe), (hc.launch p now).1.srcIp = hc.srcIp := by
    intro hc p
    unfold launch
    split <;> rfl
  have hexpire : ∀ p : Probe, (hc.expire p now).1.srcIp = hc.srcIp := by
    intro p
    unfold expire
    split <;> rfl
  unfold visit
  split
  · rfl
  · exact (hlaunch ..).trans (hexpire _)

theorem visitAll_srcIp (now : ℕ) (taken : ℕ → Bool) : ∀ (order : List ℕ) (hc : HealthChecker),
    (visitAll now taken hc order).1.srcIp = hc.srcIp
  | [], _ => rfl
  | x :: order, hc => (visitAll_srcIp now taken order _).trans (visit_srcIp now taken hc x)

theorem tick_srcIp (hc : HealthChecker) (snap : Snapshot) (now : ℕ) (order : List ℕ) (taken : ℕ → Bool) :
    (hc.tick snap now order taken).1.srcIp = hc.srcIp := by
  unfold tick
  split
  · rw [visitAll_srcIp]
    exact (foldl_purge_srcIp ..).trans (foldl_sync_srcIp ..)
  · rfl

theorem onResponse_srcIp (hc : HealthChecker) (ev : HcResponse) : (hc.onResponse ev).1.srcIp = hc.srcIp := by
  unfold onResponse answer
  repeat' split
  all_goals rfl

end HealthChecker

/-! ### In the system -/

namespace System

variable {dp : Dataplane} {s s' : System} {room : IPv4Addr → Bool} {frames : List Mbuf} {id : ℕ} {p : Probe}

/-- The probe is in flight, under a port of its own. -/
structure Flying (s : System) (id : ℕ) (p : Probe) : Prop where
  probe : s.hc.probes id = some p
  inFlight : p.inFlight = true
  port : s.hc.byPort p.srcPort = some id
  range : kHcPortMin ≤ p.srcPort ∧ p.srcPort ≤ kHcPortMax

/-- What the calls of the health checker keep holds of it in every state. -/
theorem Reach.hc_rule {P : HealthChecker → Prop} (hboot : P { conf := dp.cfg.health, srcIp := dp.cfg.hcSrc })
    (htick : ∀ hc snap now order taken, P hc → P (hc.tick snap now order taken).1)
    (hresp : ∀ hc ev, P hc → P (hc.onResponse ev).1) (h : Reach dp room s) : P s.hc := by
  induction h with
  | boot hb =>
    obtain ⟨W, -, hb⟩ := bind_eq_ok.mp hb
    obtain rfl := Except.ok.inj hb
    exact hboot
  | @step s s' ev _ hv hs ih =>
    cases ev with
    | work ev =>
      obtain ⟨W, -, hs⟩ := bind_eq_ok.mp hs
      obtain rfl := Except.ok.inj hs
      exact ih
    | wake ms =>
      obtain rfl := Except.ok.inj hs
      exact ih
    | fetch =>
      simp only [System.step] at hs
      split at hs <;> exact Except.ok.inj hs ▸ ih
    | dispatch r alloc =>
      simp only [System.step] at hs
      split at hs
      · exact Except.ok.inj hs ▸ ih
      · rename_i e rest hb
        obtain rfl := Except.ok.inj hs
        rw [(dispatched dp r alloc _ e).hc]
        cases e <;> first | exact ih | exact hresp _ _ ih
    | garp alloc =>
      obtain ⟨snap, -, hs⟩ := bind_eq_ok.mp hs
      obtain rfl := Except.ok.inj hs
      rw [(Quiet.garp alloc snap s).hc]
      exact ih
    | check probes taken alloc =>
      obtain ⟨snap, -, hs⟩ := bind_eq_ok.mp hs
      obtain rfl := Except.ok.inj hs
      rcases check_quiet probes taken alloc snap s with hq | hq
      · rw [hq.hc]
        exact ih
      · rw [hq.hc]
        exact htick _ _ _ _ _ ih
    | refresh order alloc =>
      obtain ⟨snap, -, hs⟩ := bind_eq_ok.mp hs
      obtain rfl := Except.ok.inj hs
      rw [(Quiet.refresh order alloc snap s).hc]
      exact ih

theorem Reach.hc_srcIp (h : Reach dp room s) : s.hc.srcIp = dp.cfg.hcSrc :=
  h.hc_rule (P := fun hc => hc.srcIp = dp.cfg.hcSrc) rfl
    (fun hc snap now order taken he => (hc.tick_srcIp snap now order taken).trans he)
    fun hc ev he => (hc.onResponse_srcIp ev).trans he

theorem Reach.hc_owns (h : Reach dp room s) : s.hc.Owns :=
  h.hc_rule ⟨fun _ _ he => (nomatch he), fun _ _ he => (nomatch he)⟩
    (fun _ snap now order taken ho => ho.tick snap now order taken)
    fun _ ev ho => HealthChecker.owns_rule.onResponse ho ev

/-- The ring takes the event of an answer. -/
theorem receive_answer (hinv : World.Inv dp s.net.world) {m : Mbuf} {q : PacketMeta} (hm : PacketFrom dp m q)
    (htcp : q.ipProtocol = 6) (hdst : q.dstIp = dp.cfg.hcSrc) (hrange : inHcRange q.dstPort = true)
    (hroom : s.ring.length < kMasterRing) (i : ℕ) (view : NeighView) :
    ∃ s1, s.step dp (.work (.receive i m view)) = .ok s1 ∧ s1.ring = s.ring ++ [hcEvent m q] ∧ s1.hc = s.hc := by
  obtain ⟨w', hproc, hev⟩ := processPacket_answer (hinv.snaps i) hm htcp hdst hrange s.neigh.view
    ((s.net.world.workers i).received dp m) false
  have hstep : s.net.world.step dp (.receive i m s.neigh.view) = .ok (s.net.world.setWorker i w') := by
    show s.net.world.handle dp s.neigh.view i ((s.net.world.workers i).received dp m) m false = _
    unfold World.handle
    rw [hproc]
    rfl
  have hposted : s.net.world.posted (s.net.world.setWorker i w') (.receive i m view) = [hcEvent m q] := by
    have hold : ((s.net.world.workers i).received dp m).events = (s.net.world.workers i).events := by
      unfold WorkerCtx.received
      split <;> rfl
    show ((s.net.world.setWorker i w').workers i).events.drop (s.net.world.workers i).events.length = _
    rw [World.setWorker_self, hev, hold, List.drop_left]
  refine ⟨{ s with net := ⟨s.net.world.setWorker i w', s.neigh⟩, ring := s.ring ++ [hcEvent m q] }, ?_, rfl, rfl⟩
  simp only [step, Event.seeing, hstep, ok_bind, pure_eq_ok]
  rw [hposted, List.take_of_length_le (by simp; omega)]

/-- **An answered probe is a success.** A probe is in flight under a port of its own
and the answer to it comes in, at any worker. The worker takes it, and the ring to the
master gets its event if it has room. Whenever the master handles the event and the
same probe is still in flight under its port, the checker counts a success for it. -/
theorem probe_answered (hcfg : Config.Accepted dp.cfg) (h : Reach dp room s) (hfly : s.Flying id p) {m : Mbuf}
    {q : PacketMeta} (hm : PacketFrom dp m q) (hans : AnswersTo (s.hc.buildTcp p TCP_SYN p.isn 0) m q)
    (hroom : s.ring.length < kMasterRing) (i : ℕ) (view : NeighView) :
    ∃ s1, s.step dp (.work (.receive i m view)) = .ok s1 ∧ s1.ring = s.ring ++ [hcEvent m q] ∧
      ∀ (s2 : System) (p2 : Probe) (rest : List MasterEvent) (r : Bool) (alloc : IPv4Addr → Bool),
        s2.burst = hcEvent m q :: rest → s2.Flying id p2 → p2.flight = p.flight →
        ∃ s3, s2.step dp (.dispatch r alloc) = .ok s3 ∧
          s3.hc.probes id = some ({ p2 with inFlight := false }.result s2.hc.conf true) := by
  obtain ⟨hsrcIp, hdstIp, hsrcPort, hdstPort, hproto⟩ : q.srcIp = p.ip ∧ q.dstIp = s.hc.srcIp ∧
      q.srcPort = bswap16 p.port ∧ q.dstPort = bswap16 (UInt16.ofNat p.srcPort) ∧ q.ipProtocol = 6 := by
    have ht := hans.tuple
    simp only [PacketMeta.toFiveTuple, Segment.tuple, FiveTuple.reverse, HealthChecker.buildTcp,
      FiveTuple.mk.injEq] at ht
    exact ht
  have hport : (UInt16.ofNat p.srcPort).toNat = p.srcPort := by
    have hle := hfly.range.2
    unfold kHcPortMax at hle
    rw [UInt16.toNat_ofNat', Nat.mod_eq_of_lt (by omega)]
  have hrange : inHcRange q.dstPort = true := by
    unfold inHcRange Config.inPortRange
    rw [hdstPort, bswap16_bswap16, hport]
    simp [hfly.range]
  obtain ⟨s1, hs1, hring, -⟩ := receive_answer (h.inv hcfg) hm hproto (hdstIp.trans h.hc_srcIp) hrange hroom i view
  refine ⟨s1, hs1, hring, fun s2 p2 rest r alloc hb hfly2 hsame => ?_⟩
  obtain ⟨hs, hip, hp, hisn⟩ : p2.srcPort = p.srcPort ∧ p2.ip = p.ip ∧ p2.port = p.port ∧ p2.isn = p.isn := by
    simp only [Probe.flight, hfly.inFlight, hfly2.inFlight, if_true, Option.some.injEq, Flight.mk.injEq] at hsame
    exact ⟨hsame.1, hsame.2.1, hsame.2.2.1, hsame.2.2.2.1⟩
  refine ⟨{ s2 with burst := rest }.dispatch dp r alloc (hcEvent m q), by simp only [step, hb], ?_⟩
  rw [(dispatched dp r alloc { s2 with burst := rest } (hcEvent m q)).hc]
  refine HealthChecker.onResponse_success ?_ hfly2.probe hfly2.inFlight (hsrcIp.trans hip.symm) ?_ hans.synAck ?_
  · show s2.hc.byPort (bswap16 q.dstPort).toNat = some id
    rw [hdstPort, bswap16_bswap16, hport, ← hs]
    exact hfly2.port
  · show bswap16 q.srcPort = p2.port
    rw [hsrcPort, bswap16_bswap16, hp]
  · rw [hisn]
    exact hans.ack

/-- One real server, that one failure takes down and one success brings up. -/
def probedConfig : LbConfig := { Monitor.webConfig 1 1 with health := { enabled := true, fall := 1, rise := 1 } }

theorem probedConfig_accepted : Config.Accepted probedConfig := ⟨probedConfig, by decide, by decide, rfl⟩

def probed : Dataplane := { demo with cfg := probedConfig, route := routeOf probedConfig }

/-- The first probe gets no answer, and the second goes out. -/
def secondProbe : List SystemEvent :=
  [.wake 100, .check [1] (fun _ => true) (fun _ => true), .wake 1000, .check [1] (fun _ => true) (fun _ => true),
    .wake 20000, .check [1] (fun _ => true) (fun _ => true)]

/-- The answer to the second probe, from 10.0.1.0:80 to 10.0.1.10:61001. -/
def synAckFrame : Mbuf :=
  Mbuf.ofBytes
    [2, 0, 0, 0, 0, 1, 2, 0, 0, 0, 0, 2, 8, 0,
      69, 0, 0, 40, 0, 0, 64, 0, 64, 6, 36, 199, 10, 0, 1, 0, 10, 0, 1, 10,
      0, 80, 238, 73, 0, 0, 0, 0, 254, 168, 213, 211, 80, 18, 4, 0, 210, 178, 0, 0]
    8 (by decide)

theorem synAckFrame_from : PacketFrom probed synAckFrame (metaOf synAckFrame) :=
  ⟨by decide +kernel, rfl, by decide +kernel, by decide +kernel⟩

set_option synthInstance.maxSize 1000 in
/-- The second probe is answered, the master takes the answer off the ring and handles
it: the real server, which was down, is up. -/
theorem probe_answered_second : ∃ s p s1 s2 p2 s3 p3, Reach probed (fun _ => true) s ∧ s.Flying 1 p ∧
    p.healthy = false ∧ s.step probed (.work (.receive 0 synAckFrame noNeigh)) = .ok s1 ∧
    s1.ring = s.ring ++ [hcEvent synAckFrame (metaOf synAckFrame)] ∧ s1.step probed .fetch = .ok s2 ∧
    s2.burst = [hcEvent synAckFrame (metaOf synAckFrame)] ∧ s2.Flying 1 p2 ∧ p2.flight = p.flight ∧
    s2.step probed handleNext = .ok s3 ∧ s3.hc.probes 1 = some p3 ∧
    p3 = { p2 with inFlight := false }.result s2.hc.conf true ∧ p3.healthy = true := by
  have flying : ∀ {s : System} {p : Probe}, s.hc.probes 1 = some p → p.inFlight = true ∧ p.srcPort = 61001 →
      s.hc.byPort 61001 = some 1 → s.Flying 1 p := fun hp hf hport =>
    ⟨hp, hf.1, hf.2 ▸ hport, by rw [hf.2]; decide⟩
  obtain ⟨s, h, hprobe, hport, hring, s1, hs1, s2, hs2, hburst, hprobe2, hport2, s3, hs3, hup⟩ :=
    exists_heard probed (fun _ => true) secondProbe
    (P := fun s => (s.hc.probes 1).map (fun p => (p.healthy, p.inFlight, p.srcPort, p.isn, p.ip, p.port)) =
        some (false, true, 61001, 4272477650, 0x0001000A, 80) ∧ s.hc.byPort 61001 = some 1 ∧ s.ring.length = 0 ∧
      Returns (s.step probed (.work (.receive 0 synAckFrame noNeigh))) fun s1 => Returns (s1.step probed .fetch)
        fun s2 => s2.burst = [hcEvent synAckFrame (metaOf synAckFrame)] ∧
          (s2.hc.probes 1).map (fun p => (p.flight, p.inFlight, p.srcPort)) =
            (s.hc.probes 1).map (fun p => (p.flight, p.inFlight, p.srcPort)) ∧
          s2.hc.byPort 61001 = some 1 ∧
          Returns (s2.step probed handleNext) fun s3 => (s3.hc.probes 1).map Probe.healthy = some true)
    (by decide +kernel) (by decide +kernel)
  obtain ⟨p, hp, hfields⟩ := Option.map_eq_some_iff.mp hprobe
  obtain ⟨hdown, hfly, hsp, hisn, hip, hpt⟩ : p.healthy = false ∧ p.inFlight = true ∧ p.srcPort = 61001 ∧
      p.isn = 4272477650 ∧ p.ip = 0x0001000A ∧ p.port = 80 := by simpa using hfields
  rw [hp, Option.map_some] at hprobe2
  obtain ⟨p2, hp2, hsame⟩ := Option.map_eq_some_iff.mp hprobe2
  obtain ⟨hflight, hfly2, hsp2⟩ : p2.flight = p.flight ∧ p2.inFlight = p.inFlight ∧ p2.srcPort = p.srcPort := by
    simpa using hsame
  have hflying := flying hp ⟨hfly, hsp⟩ hport
  have hflying2 := flying hp2 ⟨hfly2.trans hfly, hsp2.trans hsp⟩ hport2
  have hans : AnswersTo (s.hc.buildTcp p TCP_SYN p.isn 0) synAckFrame (metaOf synAckFrame) := by
    refine ⟨?_, by decide +kernel, ?_⟩
    · simp only [Segment.tuple, HealthChecker.buildTcp, FiveTuple.reverse, h.reach.hc_srcIp, hip, hsp, hpt]
      decide +kernel
    · simp only [HealthChecker.buildTcp, hisn]
      decide +kernel
  obtain ⟨s1', hs1', hring1, hnext⟩ := probe_answered probedConfig_accepted h.reach hflying synAckFrame_from hans
    (by rw [hring]; decide) 0 noNeigh
  obtain rfl := Except.ok.inj (hs1.symm.trans hs1')
  obtain ⟨s3', hs3', hp3⟩ := hnext s2 p2 [] true (fun _ => true) hburst hflying2 hflight
  obtain rfl := Except.ok.inj (hs3.symm.trans hs3')
  rw [hp3] at hup
  exact ⟨s, p, s1, s2, p2, s3, _, h.reach, hflying, hdown, hs1, hring1, hs2, hburst, hflying2, hflight, hs3, hp3,
    rfl, Option.some.inj hup⟩

/-- **Only an answer brings a real server up.** A step of the system after which
the checker finds a real server healthy that it found down before is the master's,
handling the next event of its burst, which a frame brought that was received: an
answer to the probe in flight, from the address and the port of this real server to
the port of the probe. -/
theorem up_from_frame (hcfg : Config.Accepted dp.cfg) (h : Heard dp room frames s) {ev : SystemEvent}
    (hs : s.step dp ev = .ok s') {p' : Probe} (hp : s.hc.probes id = some p) (hp' : s'.hc.probes id = some p')
    (hdown : p.healthy = false) (hup : p'.healthy = true) :
    p.inFlight = true ∧ ∃ m ∈ frames, ∃ q, (∃ r alloc rest, ev = .dispatch r alloc ∧ s.burst = hcEvent m q :: rest) ∧
      PacketFrom dp m q ∧ q.srcIp = p.ip ∧ q.srcPort = bswap16 p.port ∧ q.dstIp = dp.cfg.hcSrc ∧
      (bswap16 q.dstPort).toNat = p.srcPort ∧ s.hc.byPort p.srcPort = some id ∧ q.ipProtocol = 6 ∧
      HealthChecker.isSynAck q.tcpFlags = true ∧ bswap32 (m.get32 (q.l4Offset + 8)) = p.isn + 1 := by
  have hsame : s'.hc = s.hc → False := by
    intro he
    obtain rfl := Option.some.inj (hp.symm.trans (he ▸ hp'))
    cases hdown.symm.trans hup
  cases ev with
  | work ev =>
    obtain ⟨W, -, hs⟩ := bind_eq_ok.mp hs
    exact (hsame (Except.ok.inj hs ▸ rfl)).elim
  | wake ms => exact (hsame (Except.ok.inj hs ▸ rfl)).elim
  | fetch =>
    simp only [System.step] at hs
    split at hs <;> exact (hsame (Except.ok.inj hs ▸ rfl)).elim
  | garp alloc =>
    obtain ⟨snap, -, hs⟩ := bind_eq_ok.mp hs
    exact (hsame (Except.ok.inj hs ▸ (Quiet.garp alloc snap s).hc)).elim
  | refresh order alloc =>
    obtain ⟨snap, -, hs⟩ := bind_eq_ok.mp hs
    exact (hsame (Except.ok.inj hs ▸ (Quiet.refresh order alloc snap s).hc)).elim
  | check probes taken alloc =>
    obtain ⟨snap, -, hs⟩ := bind_eq_ok.mp hs
    obtain rfl := Except.ok.inj hs
    rcases check_quiet probes taken alloc snap s with hq | hq
    · exact (hsame hq.hc).elim
    · rw [hq.hc] at hp'
      cases hdown.symm.trans (HealthChecker.tick_sinks hp hp' hup)
  | dispatch r alloc =>
    simp only [System.step] at hs
    split at hs
    · exact (hsame (Except.ok.inj hs ▸ rfl)).elim
    rename_i e rest hb
    obtain rfl := Except.ok.inj hs
    have hd := dispatched dp r alloc { s with burst := rest } e
    have htold := (h.informed hcfg).burst e (hb ▸ List.mem_cons_self)
    cases e with
    | hcResp ip port aux tcpFlags seq ack =>
      rw [hd.hc] at hp'
      obtain ⟨hport, hfly, hip, haux, hflags, hack⟩ := HealthChecker.up_of_onResponse hp hp' hdown hup
      obtain ⟨m, hm, snap, hsnap, q, hq, ha⟩ := htold
      obtain ⟨rfl, rfl, rfl, rfl, rfl, rfl⟩ := MasterEvent.hcResp.inj ha.event
      -- the entry leads to the probe, so the port is the probe's
      obtain ⟨p1, hp1, -, hsrc⟩ := HealthChecker.portOf_eq_some.mp (h.reach.hc_owns.entry _ _ hport)
      obtain rfl := Option.some.inj (hp.symm.trans hp1)
      refine ⟨hfly, m, hm, q, ⟨r, alloc, rest, rfl, hb⟩, hq, hip, ?_, ha.dst.trans hsnap.hcSrc, hsrc.symm,
        hsrc ▸ hport, ha.tcp, hflags, hack⟩
      rw [← show bswap16 q.srcPort = p.port from haux, bswap16_bswap16]
    | arpForUs ip mac => exact (hsame hd.hc).elim
    | arpReply ip mac => exact (hsame hd.hc).elim
    | neighHint ip mac => exact (hsame hd.hc).elim
    | neighMiss ip => exact (hsame hd.hc).elim

/-- The real server was down, and the answer to its second probe brings it up. -/
theorem up_from_frame_second : ∃ s s' p p', Heard probed (fun _ => true) [synAckFrame] s ∧
    s.step probed handleNext = .ok s' ∧ s.hc.probes 1 = some p ∧ s'.hc.probes 1 = some p' ∧ p.healthy = false ∧
    p'.healthy = true ∧ p.inFlight = true ∧
    ∃ q rest, s.burst = hcEvent synAckFrame q :: rest ∧ PacketFrom probed synAckFrame q ∧ q.srcIp = p.ip ∧
      (bswap16 q.dstPort).toNat = p.srcPort ∧ bswap32 (synAckFrame.get32 (q.l4Offset + 8)) = p.isn + 1 := by
  obtain ⟨s, h, hdown, s', hs', hup⟩ := exists_heard probed (fun _ => true)
    (secondProbe ++ [.work (.receive 0 synAckFrame noNeigh), .fetch])
    (P := fun s => (s.hc.probes 1).map Probe.healthy = some false ∧
      Returns (s.step probed handleNext) fun s' => (s'.hc.probes 1).map Probe.healthy = some true)
    (by decide +kernel) (by decide +kernel)
  obtain ⟨p, hp, hpd⟩ := Option.map_eq_some_iff.mp hdown
  obtain ⟨p', hp', hpu⟩ := Option.map_eq_some_iff.mp hup
  obtain ⟨hfly, m, hm, q, ⟨-, -, rest, -, hburst⟩, hq, hip, -, -, hport, -, -, -, hack⟩ :=
    up_from_frame probedConfig_accepted h hs' hp hp' hpd hpu
  obtain rfl := List.mem_singleton.mp hm
  exact ⟨s, s', p, p', h, hs', hp, hp', hpd, hpu, hfly, q, rest, hburst, hq, hip, hport, hack⟩

end System

end L4Lb
