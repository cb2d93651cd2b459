/-
# Answers to ARP requests

A worker answers ARP requests for the load balancer's addresses by itself, in
the frame that asked, and tells the master about a neighbour that asked from the
same network. A request from 0.0.0.0 is a probe: somebody wants to know whether
an address is in use before taking it (RFC 5227). `handle_arp` means to answer
it and learn nothing, but it leaves frames from its own addresses alone first,
and the address sets hold 0.0.0.0 to be in every set. So a probe for an address
of the load balancer gets no answer, and every other request gets the right one
(`arpAnswer_iff`).
-/
import L4Lb.Snapshot.Answers
import L4Lb.World.Owners

open Checked

namespace L4Lb

/-- An ARP request for an IPv4 address on Ethernet, complete. -/
structure ArpRequest (m : Mbuf) : Prop where
  len : 42 ≤ m.dataLen
  arp : m.be16 12 = 0x0806
  hwType : m.be16 14 = 1
  protoType : m.be16 16 = 0x0800
  hwLen : m.byte 18 = 6
  protoLen : m.byte 19 = 4
  operation : m.be16 20 = 1

instance (m : Mbuf) : Decidable (ArpRequest m) :=
  decidable_of_iff (42 ≤ m.dataLen ∧ m.be16 12 = 0x0806 ∧ m.be16 14 = 1 ∧ m.be16 16 = 0x0800 ∧ m.byte 18 = 6 ∧
      m.byte 19 = 4 ∧ m.be16 20 = 1)
    ⟨fun ⟨h1, h2, h3, h4, h5, h6, h7⟩ => ⟨h1, h2, h3, h4, h5, h6, h7⟩,
      fun ⟨h1, h2, h3, h4, h5, h6, h7⟩ => ⟨h1, h2, h3, h4, h5, h6, h7⟩⟩

/-- The address that asks. -/
def Mbuf.arpSender (m : Mbuf) : IPv4Addr := m.get32 28

/-- The address that is asked for. -/
def Mbuf.arpTarget (m : Mbuf) : IPv4Addr := m.get32 38

/-- What the master learns from a request. -/
def arpLearned (dp : Dataplane) (m : Mbuf) : List MasterEvent :=
  if m.arpSender ≠ 0 ∧ dp.route.onLink m.arpSender = true then [.arpForUs m.arpSender (m.getMac 22)] else []

/-- The request is answered: the frame is sent back as the reply, and the
master learns the neighbour. -/
structure ArpAnswer (dp : Dataplane) (w : WorkerCtx) (m : Mbuf) (o : Outcome) : Prop where
  send : o.2.2 = .send
  reply : ArpReplyTo m dp.localMac o.2.1
  events : o.1.events = w.events ++ arpLearned dp m

section Arp

variable {dp : Dataplane} {snap : Snapshot} {w : WorkerCtx} {m : Mbuf}

theorem ArpRequest.operation_eq (h : ArpRequest m) : bswap16 (m.get16 20) = 1 := by
  rw [← UInt16.toNat_inj, Mbuf.toNat_bswap16_get16, h.operation]
  rfl

theorem ArpRequest.etherType_eq (h : ArpRequest m) : m.etherType = .ok 0x0806 := by
  have hlen := h.len
  rw [Mbuf.etherType_eq (by omega)]
  congr 1
  rw [← UInt16.toNat_inj, Mbuf.toNat_bswap16_get16, h.arp]
  rfl

theorem ArpRequest.isEthIpv4_eq (h : ArpRequest m) : isEthIpv4 m = .ok true := by
  have hlen := h.len
  have hhw : bswap16 (m.get16 14) = 1 := by
    rw [← UInt16.toNat_inj, Mbuf.toNat_bswap16_get16, h.hwType]
    rfl
  have hproto : bswap16 (m.get16 16) = 0x0800 := by
    rw [← UInt16.toNat_inj, Mbuf.toNat_bswap16_get16, h.protoType]
    rfl
  unfold isEthIpv4
  rw [Mbuf.load16_eq (by omega), ok_bind, Mbuf.load16_eq (by omega), ok_bind, Mbuf.load8_eq (by omega), ok_bind,
    Mbuf.load8_eq (by omega), ok_bind, hhw, hproto, h.hwLen, h.protoLen]
  rfl

/-- A request for an address of ours is looked at by the sender alone. -/
theorem ArpRequest.processPacket_eq (hb : snap.Built dp.H dp.cfg) (h : ArpRequest m)
    (ht : Snapshot.IsOwnOf dp.cfg m.arpTarget) (hs : ¬ Snapshot.IsOwnOf dp.cfg m.arpSender) (view : NeighView)
    (w : WorkerCtx) (redirected : Bool) :
    processPacket dp view w snap m redirected =
      if m.arpSender = 0 then .ok (w.count .arp, m, .consumed) else arpForUs dp (w.count .arp) m m.arpSender := by
  have hlen := h.len
  have hsender : snap.isLocal dp.H (m.get32 28) = .ok (decide (m.arpSender = 0)) := by
    rw [hb.isLocal_eq]
    congr 1
    exact decide_eq_decide.mpr (or_iff_left hs)
  have htarget : snap.isLocal dp.H (m.get32 38) = .ok true := by
    rw [hb.isLocal_eq]
    congr 1
    exact decide_eq_true (Or.inr ht)
  unfold processPacket handleArp
  simp only [pure_eq_ok]
  rw [if_neg (by omega), h.etherType_eq, ok_bind, if_pos rfl, if_neg (by omega), h.isEthIpv4_eq, ok_bind,
    Mbuf.load32_eq (by omega), ok_bind, Mbuf.load32_eq (by omega), ok_bind, hsender, ok_bind, htarget, ok_bind]
  by_cases h0 : m.arpSender = 0
  · simp [h0]
  · rw [decide_eq_false h0, if_neg h0]
    rfl

theorem ArpRequest.arpForUs_answers (h : ArpRequest m) (w : WorkerCtx) :
    Returns (arpForUs dp (w.count .arp) m m.arpSender) (ArpAnswer dp w m) := by
  have hlen := h.len
  unfold arpForUs
  rw [Mbuf.loadMac_eq (by omega), ok_bind, Mbuf.load16_eq (by omega), ok_bind, if_pos h.operation_eq]
  refine Returns.bind (makeReply_returns h.len dp.localMac) fun r hr => .ok ⟨rfl, ?_, ?_⟩
  · exact ⟨hr.dataLen, hr.ethDst, hr.ethSrc, hr.operation, hr.senderMac, hr.senderIp, hr.targetMac, hr.targetIp,
      hr.other⟩
  · unfold arpLearned
    by_cases hl : m.arpSender ≠ 0 ∧ dp.route.onLink m.arpSender = true
    · rw [if_pos (by simpa using hl), if_pos hl]
      rfl
    · rw [if_neg (by simpa using hl), if_neg hl, List.append_nil]
      rfl

/-- **Requests are answered, probes are not.** For every accepted configuration,
published snapshot and worker, and every ARP request for an address of the load
balancer that comes from none of its addresses: `process_packet` sends back the
reply, and the master learns a neighbour of the same network, exactly if the
sender is not 0.0.0.0. -/
theorem arpAnswer_iff (hcfg : Config.Accepted dp.cfg) (hp : Snapshot.Published dp.H dp.cfg snap)
    (h : ArpRequest m) (ht : Snapshot.IsOwnOf dp.cfg m.arpTarget) (hs : ¬ Snapshot.IsOwnOf dp.cfg m.arpSender)
    (view : NeighView) (w : WorkerCtx) (redirected : Bool) :
    Returns (processPacket dp view w snap m redirected) (ArpAnswer dp w m) ↔ m.arpSender ≠ 0 := by
  rw [h.processPacket_eq (hp.built hcfg.valid) ht hs]
  by_cases h0 : m.arpSender = 0
  · rw [if_pos h0]
    refine ⟨fun ⟨o, ho, ha⟩ => ?_, fun hne => absurd h0 hne⟩
    obtain rfl := Except.ok.inj ho
    have := ha.send
    cases this
  · rw [if_neg h0]
    exact ⟨fun _ => h0, fun _ => h.arpForUs_answers w⟩

end Arp

/-- A request from `a.b.c.d` for 10.0.0.2. -/
def arpFrame (a b c d : UInt8) : Mbuf :=
  Mbuf.ofBytes
    [255, 255, 255, 255, 255, 255, 2, 0, 0, 0, 0, 2, 8, 6,
      0, 1, 8, 0, 6, 4, 0, 1, 2, 0, 0, 0, 0, 2, a, b, c, d, 0, 0, 0, 0, 0, 0, 10, 0, 0, 2]
    18 (by simp)

/-- A host asks for the VIP. -/
theorem arpAnswer_iff_host : ∃ snap, Snapshot.Published demo.H demo.cfg snap ∧
    Returns (processPacket demo noNeigh (WorkerCtx.init demo.cfg 2 0) snap (arpFrame 10 0 0 1) false)
      (ArpAnswer demo (WorkerCtx.init demo.cfg 2 0) (arpFrame 10 0 0 1)) := by
  obtain ⟨snap, hp, -⟩ := exists_published (P := fun _ => True) (by decide +kernel)
  exact ⟨snap, hp, (arpAnswer_iff demo_accepted hp (by decide) (by decide) (by decide) noNeigh _ false).mpr (by decide)⟩

/-- A probe for the VIP: the frame is taken and not answered. -/
theorem probe_unanswered : ∃ snap, Snapshot.Published demo.H demo.cfg snap ∧
    ArpRequest (arpFrame 0 0 0 0) ∧ Snapshot.IsOwnOf demo.cfg (arpFrame 0 0 0 0).arpTarget ∧
    ¬ Snapshot.IsOwnOf demo.cfg (arpFrame 0 0 0 0).arpSender ∧
    ∃ w, processPacket demo noNeigh (WorkerCtx.init demo.cfg 2 0) snap (arpFrame 0 0 0 0) false =
      .ok (w, arpFrame 0 0 0 0, .consumed) := by
  obtain ⟨snap, hp, -⟩ := exists_published (P := fun _ => True) (by decide +kernel)
  have hb := hp.built demo_accepted.valid
  have hr : ArpRequest (arpFrame 0 0 0 0) := by decide
  have ht : Snapshot.IsOwnOf demo.cfg (arpFrame 0 0 0 0).arpTarget := by decide
  have hs : ¬ Snapshot.IsOwnOf demo.cfg (arpFrame 0 0 0 0).arpSender := by decide
  exact ⟨snap, hp, hr, ht, hs, _, hr.processPacket_eq hb ht hs _ _ _⟩

end L4Lb
