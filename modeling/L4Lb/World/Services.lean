/-
# Every service is reachable

Three tests of `process_packet` look at the destination of a TCP or UDP packet
before the service is looked up: is it a return packet of FULLNAT, an answer to
a health check, a service? A VIP may be a local address and the source of the
health checks too; `validate` keeps the ports of its services off the ranges
that the first two tests take (`LbConfig.unreserved`), so a packet to a service
goes to this service.
-/
import L4Lb.Snapshot.Answers
import L4Lb.World.Owners

open Checked

namespace L4Lb

/-- The frame holds a TCP or UDP packet to the service. -/
structure Addressed (dp : Dataplane) (sc : ServiceConf) (m : Mbuf) (p : PacketMeta) : Prop where
  admitted : Admitted dp m p
  proto : p.ipProtocol = 6 ∨ p.ipProtocol = 17
  dst : (p.dstIp, p.dstPort, p.ipProtocol) = (sc.vip, bswap16 sc.port, sc.proto)

section Services

variable {dp : Dataplane} {snap : Snapshot} {cfg : LbConfig} {sc : ServiceConf} {m : Mbuf} {p : PacketMeta} {i : ℕ}

/-- The port of a service on a local address lies in no reserved range. -/
theorem LbConfig.unreserved (hc : Config.Valid cfg) (hs : sc ∈ cfg.services)
    (hl : sc.vip ∈ cfg.localIps ∨ (cfg.hcSrc ≠ 0 ∧ sc.vip = cfg.hcSrc)) :
    inNatRange (bswap16 sc.port) = false ∧ inHcRange (bswap16 sc.port) = false := by
  have h := hc.reserved sc hs hl
  simp only [inNatRange, inHcRange, bswap16_bswap16, Config.inPortRange, Bool.and_eq_false_iff,
    decide_eq_false_iff_not] at h ⊢
  unfold kNatPortMin kHcPortMax at *
  unfold kNatPortMax kHcPortMin
  omega

theorem LbConfig.not_returnTo (hc : Config.Valid cfg) (hs : sc ∈ cfg.services) (hv : sc.vip ≠ 0) :
    ¬ cfg.ReturnTo sc.vip (bswap16 sc.port) := by
  rintro ⟨-, h0 | ⟨-, hl⟩, hr⟩
  · exact hv h0
  · exact nomatch (unreserved hc hs (Or.inl hl)).1.symm.trans hr

theorem LbConfig.not_hcResponse (hc : Config.Valid cfg) (hs : sc ∈ cfg.services) (hv : sc.vip ≠ 0) :
    ¬ (sc.vip = cfg.hcSrc ∧ inHcRange (bswap16 sc.port) = true) := by
  rintro ⟨he, hr⟩
  exact nomatch (unreserved hc hs (Or.inr ⟨he ▸ hv, he⟩)).2.symm.trans hr

/-- The service at position `i` has the key of the configuration, and no other
service has it. -/
theorem Snapshot.Built.find_addressed (hc : Config.Valid cfg) {H : HashFns} (hb : snap.Built H cfg)
    (hi : cfg.services[i]? = some sc) : ∃ svc, snap.services[i]? = some svc ∧
      svc.key = (sc.vip, bswap16 sc.port, sc.proto) ∧
      snap.findService H sc.vip (bswap16 sc.port) sc.proto = .ok (some svc) := by
  have hkeys : (snap.services[i]?).map (·.key) =
      (cfg.services[i]?).map fun c => (c.vip, bswap16 c.port, c.proto) := by
    rw [← List.getElem?_map, hb.keys, List.getElem?_map]
  rw [hi] at hkeys
  obtain ⟨svc, hsvc, hkey⟩ := Option.map_eq_some_iff.mp hkeys
  exact ⟨svc, hsvc, hkey, (hb.findService_of_key hc (List.mem_of_getElem? hsvc) hkey).1⟩

/-- **`process_packet` gives a packet to a service to `handle_inbound`** for
this service. -/
theorem Addressed.processPacket_eq (hc : Config.Valid dp.cfg) (hb : snap.Built dp.H dp.cfg)
    (hi : dp.cfg.services[i]? = some sc) (hv : sc.vip ≠ 0) (h : Addressed dp sc m p) :
    ∃ svc, snap.services[i]? = some svc ∧ svc.key = (sc.vip, bswap16 sc.port, sc.proto) ∧
      isReturn dp snap p = .ok false ∧ ¬ (p.dstIp = snap.hcSrc ∧ inHcRange p.dstPort = true) ∧
      ∀ view w redirected, processPacket dp view w snap m redirected =
        handleInbound dp view (if redirected then w else w.count (if p.ipProtocol = 6 then .tcp else .udp))
          snap svc m p redirected := by
  have hs := List.mem_of_getElem? hi
  obtain ⟨hip, hport, hproto⟩ : p.dstIp = sc.vip ∧ p.dstPort = bswap16 sc.port ∧ p.ipProtocol = sc.proto := by
    simpa only [Prod.mk.injEq] using h.dst
  obtain ⟨svc, hsvc, hkey, hfind⟩ := hb.find_addressed hc hi
  have hret : isReturn dp snap p = .ok false := by
    obtain ⟨b, hr, hb'⟩ := hb.isReturn_iff p
    have hbf : b = false := by
      rw [← Bool.not_eq_true, hb', hip, hport]
      exact LbConfig.not_returnTo hc hs hv
    rw [hr, hbf]
  have hhc : ¬ (p.dstIp = snap.hcSrc ∧ inHcRange p.dstPort = true) := by
    rw [hip, hport, hb.hcSrc]
    exact LbConfig.not_hcResponse hc hs hv
  refine ⟨svc, hsvc, hkey, hret, hhc, fun view w redirected => ?_⟩
  obtain ⟨hlen, hipv4, -⟩ := h.admitted.holds
  have hicmp : p.ipProtocol ≠ 1 := by rcases h.proto with e | e <;> simp [e]
  have hl4 : ¬ (p.ipProtocol ≠ 6 ∧ p.ipProtocol ≠ 17) := by
    rintro ⟨h6, h17⟩
    exact h.proto.elim h6 h17
  have hl4eq : ∀ w, processL4 dp view w snap m p redirected = handleInbound dp view w snap svc m p redirected := by
    intro w
    unfold processL4
    rw [hret, ok_bind, if_neg (by decide), if_neg hhc, hip, hport, hproto, hfind]
    rfl
  unfold processPacket
  rw [if_neg (by omega), Mbuf.etherType_eq hlen, ok_bind, hipv4, if_neg (by decide), if_neg (by decide),
    h.admitted.parsed, ok_bind]
  show processIpv4 dp view w snap m p redirected = _
  unfold processIpv4
  rw [if_neg (by simp [h.admitted.cksum]), if_neg h.admitted.foreign, if_neg hicmp, if_neg hl4]
  exact hl4eq _

end Services

namespace World

variable {dp : Dataplane}

/-- **Every service with an address is reachable.** Whatever snapshot a worker
has, a packet to the service at position `i` of the configuration is handled
as inbound for the service at position `i` of the snapshot, and not as a return
packet or an answer to a health check. No local address has a port of the SNAT
range in common with a service. -/
theorem services_reachable (hcfg : Config.Accepted dp.cfg) :
    (∀ W, Reach dp W → ∀ (k i : ℕ) (sc : ServiceConf), dp.cfg.services[i]? = some sc → sc.vip ≠ 0 →
      ∀ m p, Addressed dp sc m p → ∃ svc, (W.snaps k).services[i]? = some svc ∧
        svc.key = (sc.vip, bswap16 sc.port, sc.proto) ∧ isReturn dp (W.snaps k) p = .ok false ∧
        ¬ (p.dstIp = (W.snaps k).hcSrc ∧ inHcRange p.dstPort = true) ∧
        ∀ view w redirected, processPacket dp view w (W.snaps k) m redirected =
          handleInbound dp view (if redirected then w else w.count (if p.ipProtocol = 6 then .tcp else .udp))
            (W.snaps k) svc m p redirected) ∧
    ∀ sc ∈ dp.cfg.services, ∀ lip ∈ dp.cfg.localIps, ∀ port, inNatRange port = true →
      (lip, port) ≠ (sc.vip, bswap16 sc.port) := by
  refine ⟨fun W h k i sc hi hv m p ha => ?_, fun sc hs lip hl port hr he => ?_⟩
  · exact ha.processPacket_eq hcfg.valid ((reach_inv hcfg h).snaps k) hi hv
  · obtain ⟨rfl, rfl⟩ := Prod.mk.inj he
    exact nomatch (LbConfig.unreserved hcfg.valid hs (Or.inl hl)).1.symm.trans hr

theorem services_reachable_demo : ∃ W, Reach demo W ∧ ∃ svc, (W.snaps 0).services[0]? = some svc ∧
    svc.key = (0x0200000A, bswap16 53, 17) := by
  obtain ⟨W, h, -⟩ := exists_reach demo [] (P := fun _ => True) (by decide) (by decide +kernel)
  obtain ⟨sc, hsc, hkey⟩ : ∃ sc, demo.cfg.services[0]? = some sc ∧
      (sc.vip, bswap16 sc.port, sc.proto) = (0x0200000A, bswap16 53, 17) := ⟨_, rfl, rfl⟩
  have hv : sc.vip ≠ 0 := by
    rw [show sc.vip = 0x0200000A from congrArg Prod.fst hkey]
    decide
  have ha : Addressed demo sc queryFrame (metaOf queryFrame) :=
    ⟨queryFrame_admitted, by decide +kernel, hkey.symm ▸ by decide +kernel⟩
  obtain ⟨svc, hsvc, hsvckey, -⟩ := (services_reachable demo_accepted).1 W h 0 0 sc hsc hv _ _ ha
  exact ⟨W, h, svc, hsvc, hsvckey.trans hkey⟩

end World

end L4Lb
