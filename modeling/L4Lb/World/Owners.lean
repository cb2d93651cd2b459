/-
# Sessions and their workers

Every session lies in the table of one worker, and that worker is the owner
of every packet of the session: of the client's, of the real server's and of
the ICMP errors about either. The owners of the two directions are computed
from unrelated tuples, by up to three rules; `create_fullnat` takes the NAT
port so that they agree. A worker that gets a packet of another worker's
session passes it on to that worker's ring, and what comes out of a ring is
not passed on again (`sessions_at_owner`).
-/
import L4Lb.World.Invariant

open Checked

namespace L4Lb

/-! ### The packets of a session -/

/-- The frame holds a packet that may belong to a session: IPv4, in order for
`parse` and the NIC, and not sent by the load balancer itself. -/
structure Admitted (dp : Dataplane) (m : Mbuf) (p : PacketMeta) : Prop where
  parsed : parse m = .ok (.ok, p)
  ipv4 : p.etherType = 0x0800
  cksum : cksumBad m = false
  foreign : p.srcMac ≠ dp.localMac

/-- The frame holds a packet of a session, to be found under the key. -/
inductive PacketOf (dp : Dataplane) (m : Mbuf) (d : SessionId) : FiveTuple → Prop
  | forward {p : PacketMeta} (h : Admitted dp m p) (ht : p.toFiveTuple = d.client) : PacketOf dp m d d.client
  | back {p : PacketMeta} (h : Admitted dp m p) (hf : d.fullnat = true) (ht : p.toFiveTuple = d.server) :
      PacketOf dp m d d.server
  /-- an ICMP error to a local address, about a packet to the real server -/
  | errorToClient {p : PacketMeta} {info : IcmpErrorInfo} (h : Admitted dp m p) (hicmp : p.ipProtocol = 1)
      (hq : parseIcmpError m p = .ok (some info)) (hf : d.fullnat = true) (hd : p.dstIp ∈ dp.cfg.localIps)
      (ht : info.inner.reverse = d.server) : PacketOf dp m d d.server
  /-- an ICMP error to a VIP, about a packet to the client -/
  | errorToServer {p : PacketMeta} {info : IcmpErrorInfo} (h : Admitted dp m p) (hicmp : p.ipProtocol = 1)
      (hq : parseIcmpError m p = .ok (some info)) (hd : p.dstIp ∈ dp.cfg.services.map (·.vip))
      (ht : info.inner.reverse = d.client) : PacketOf dp m d d.client

/-- The key a path looks for in the session table. -/
def Path.key : Path → Option FiveTuple
  | inbound p _ | fromServer p => some p.toFiveTuple
  | errorToClient _ info | errorToServer _ info => some info.inner.reverse
  | rest => none

section Packets

variable {dp : Dataplane} {snap : Snapshot} {m : Mbuf} {p : PacketMeta} {d : SessionId} {i : ℕ}

theorem Admitted.holds (h : Admitted dp m p) : 14 ≤ m.dataLen ∧ bswap16 (m.get16 12) = 0x0800 ∧ Parsed m p := by
  have hlen : 14 ≤ m.dataLen := by
    by_contra hlt
    have := h.parsed
    rw [parse, if_pos (by omega)] at this
    simp at this
  obtain ⟨r, hr, hp⟩ := parse_returns m
  rw [h.parsed] at hr
  obtain rfl := Except.ok.inj hr
  obtain ⟨he, hparsed⟩ := hp rfl
  exact ⟨hlen, he.symm.trans h.ipv4, hparsed h.ipv4⟩

theorem Admitted.pathOf_eq (h : Admitted dp m p) : pathOf dp snap m =
    if p.ipProtocol = 1 then pathIcmp dp snap m p
    else if p.ipProtocol ≠ 6 ∧ p.ipProtocol ≠ 17 then .ok .rest else pathL4 dp snap p := by
  obtain ⟨hlen, hip, -⟩ := h.holds
  unfold pathOf
  rw [if_neg (by omega), Mbuf.etherType_eq hlen, ok_bind, hip, if_neg (by simp), h.parsed, ok_bind]
  show pathIpv4 dp snap m p = _
  rw [pathIpv4, if_neg (by simp [h.cksum]), if_neg h.foreign]

theorem path_forward (hb : snap.Built dp.H dp.cfg) (hd : SessionOk dp i d) (h : Admitted dp m p)
    (ht : p.toFiveTuple = d.client) : ∃ svc, pathOf dp snap m = .ok (.inbound p svc) := by
  have hproto : p.ipProtocol = 6 ∨ p.ipProtocol = 17 := by
    rw [show p.ipProtocol = d.client.protocol from congrArg FiveTuple.protocol ht]
    exact hd.proto
  have hip : p.dstIp = d.client.dstIp := congrArg FiveTuple.dstIp ht
  have hport : p.dstPort = d.client.dstPort := congrArg FiveTuple.dstPort ht
  have hpr : p.ipProtocol = d.client.protocol := congrArg FiveTuple.protocol ht
  rw [h.pathOf_eq, if_neg (by rcases hproto with e | e <;> simp [e]), if_neg (by tauto), pathL4]
  obtain ⟨b, hr, hb'⟩ := hb.isReturn_iff p
  have hbf : b = false := by
    rw [← Bool.not_eq_true, hb', hip, hport]
    exact hd.noReturn
  rw [hr, ok_bind, hbf, if_neg (by simp), hb.hcSrc, hip, hport, if_neg hd.noHc, hpr]
  obtain ⟨r, hs, hsome⟩ := hb.findService_iff d.client.dstIp d.client.dstPort d.client.protocol
  obtain ⟨svc, rfl⟩ := Option.isSome_iff_exists.mp (hsome.mpr hd.service)
  rw [hs]
  exact ⟨svc, rfl⟩

/-- The server tuple is one of a return packet. -/
theorem SessionOk.returnTo (hd : SessionOk dp i d) (hf : d.fullnat = true) :
    dp.cfg.ReturnTo d.server.dstIp d.server.dstPort :=
  ⟨hd.fullnat.mp hf, Or.inr ⟨hd.fullnat.mp hf, hd.lip hf⟩, hd.port hf⟩

theorem path_back (hb : snap.Built dp.H dp.cfg) (hd : SessionOk dp i d) (hf : d.fullnat = true)
    (h : Admitted dp m p) (ht : p.toFiveTuple = d.server) : pathOf dp snap m = .ok (.fromServer p) := by
  have hproto : p.ipProtocol = 6 ∨ p.ipProtocol = 17 := by
    rw [show p.ipProtocol = d.server.protocol from congrArg FiveTuple.protocol ht, hd.serverProto hf]
    exact hd.proto
  have hip : p.dstIp = d.server.dstIp := congrArg FiveTuple.dstIp ht
  have hport : p.dstPort = d.server.dstPort := congrArg FiveTuple.dstPort ht
  rw [h.pathOf_eq, if_neg (by rcases hproto with e | e <;> simp [e]), if_neg (by tauto), pathL4]
  obtain ⟨b, hr, hb'⟩ := hb.isReturn_iff p
  have hbt : b = true := by
    rw [hb', hip, hport]
    exact hd.returnTo hf
  rw [hr, ok_bind, hbt]
  rfl

theorem pathIcmp_quoting {info : IcmpErrorInfo} (hb : snap.Built dp.H dp.cfg) (h : Admitted dp m p)
    (hicmp : p.ipProtocol = 1) (hq : parseIcmpError m p = .ok (some info))
    (hloc : p.dstIp ∈ dp.cfg.services.map (·.vip) ++ snap.localIps ++ [dp.cfg.hcSrc]) :
    pathOf dp snap m = (do
      if ← quotesServer dp snap p.dstIp info.inner then return .errorToClient p info
      else if ← quotesClient dp snap p.dstIp info.inner then return .errorToServer p info
      else return .rest) := by
  obtain ⟨-, -, hp⟩ := h.holds
  have hquoted := (quoted_of_parseIcmpError hp hicmp hq).1
  have hlen := hp.icmp hicmp
  have htot := hp.total_le
  rw [h.pathOf_eq, if_pos hicmp, pathIcmp, hb.isLocal, ok_bind, decide_eq_true (Or.inr hloc),
    Mbuf.load8_eq (by omega), ok_bind, hquoted.error, hq]
  rfl

theorem path_errorToClient {info : IcmpErrorInfo} (hb : snap.Built dp.H dp.cfg) (hd : SessionOk dp i d)
    (hf : d.fullnat = true) (h : Admitted dp m p) (hicmp : p.ipProtocol = 1)
    (hq : parseIcmpError m p = .ok (some info)) (hdst : p.dstIp ∈ dp.cfg.localIps)
    (ht : info.inner.reverse = d.server) : pathOf dp snap m = .ok (.errorToClient p info) := by
  have hmode := hd.fullnat.mp hf
  rw [pathIcmp_quoting hb h hicmp hq (by simp [hb.localIps, hmode, hdst])]
  obtain ⟨b, hs, hb'⟩ := hb.quotesServer_iff p.dstIp info.inner
  have hbt : b = true := by
    rw [hb', show info.inner.srcIp = d.server.dstIp from congrArg FiveTuple.dstIp ht,
      show info.inner.srcPort = d.server.dstPort from congrArg FiveTuple.dstPort ht]
    exact ⟨Or.inr ⟨hmode, hdst⟩, hd.returnTo hf⟩
  rw [hs, ok_bind, hbt]
  rfl

theorem path_errorToServer {info : IcmpErrorInfo} (hb : snap.Built dp.H dp.cfg) (hd : SessionOk dp i d)
    (h : Admitted dp m p) (hicmp : p.ipProtocol = 1) (hq : parseIcmpError m p = .ok (some info))
    (hdst : p.dstIp ∈ dp.cfg.services.map (·.vip)) (ht : info.inner.reverse = d.client) :
    pathOf dp snap m = .ok (.errorToServer p info) := by
  have hip : info.inner.srcIp = d.client.dstIp := congrArg FiveTuple.dstIp ht
  have hport : info.inner.srcPort = d.client.dstPort := congrArg FiveTuple.dstPort ht
  rw [pathIcmp_quoting hb h hicmp hq (by simp [hdst])]
  obtain ⟨b, hs, hb'⟩ := hb.quotesServer_iff p.dstIp info.inner
  have hbf : b = false := by
    rw [← Bool.not_eq_true, hb', hip, hport]
    exact fun hr => hd.noReturn hr.2
  obtain ⟨c, hc, hc'⟩ := hb.quotesClient_iff p.dstIp info.inner
  have hvip : d.client.dstIp ∈ dp.cfg.services.map (·.vip) := by
    obtain ⟨s, hs, he⟩ := List.mem_map.mp hd.service
    exact List.mem_map.mpr ⟨s, hs, congrArg Prod.fst he⟩
  have hct : c = true := by
    rw [hc', hip]
    exact ⟨Or.inr hdst, Or.inr hvip⟩
  rw [hs, ok_bind, hbf, if_neg (by simp), hc, ok_bind, hct]
  rfl

/-- **A packet of a session** takes a path of the session's worker, under
every snapshot. -/
theorem path_of_packet {key : FiveTuple} (hb : snap.Built dp.H dp.cfg) (hd : SessionOk dp i d)
    (h : PacketOf dp m d key) :
    ∃ path, pathOf dp snap m = .ok path ∧ path.owner dp = some i ∧ path.key = some key := by
  cases h with
  | forward h ht =>
    obtain ⟨svc, hp⟩ := path_forward hb hd h ht
    exact ⟨_, hp, by rw [Path.owner, ht, hd.owner], by rw [Path.key, ht]⟩
  | back h hf ht =>
    exact ⟨_, path_back hb hd hf h ht, by rw [Path.owner, ht, hd.serverOwner hf], by rw [Path.key, ht]⟩
  | errorToClient h hicmp hq hf hdst ht =>
    exact ⟨_, path_errorToClient hb hd hf h hicmp hq hdst ht, by rw [Path.owner, ht, hd.serverOwner hf],
      by rw [Path.key, ht]⟩
  | errorToServer h hicmp hq hdst ht =>
    exact ⟨_, path_errorToServer hb hd h hicmp hq hdst ht, by rw [Path.owner, ht, hd.owner], by rw [Path.key, ht]⟩

theorem PacketOf.hasKey {s : Session} {key : FiveTuple} (h : PacketOf dp m s.ident key) : s.HasKey key := by
  cases h with
  | forward => exact Or.inl rfl
  | back _ hf => exact Or.inr ⟨hf, rfl⟩
  | errorToClient _ _ _ hf => exact Or.inr ⟨hf, rfl⟩
  | errorToServer => exact Or.inl rfl

end Packets

/-! ### Packets at their owner -/

section Owner

variable {dp : Dataplane} {view : NeighView} {snap : Snapshot} {w : WorkerCtx} {m : Mbuf}
  {path : Path} {o : Outcome} {i k : ℕ}

/-- The owner sends a packet or drops it because of its session. -/
theorem Path.Done.verdict (ho : path.owner dp = some i) (h : path.Done dp snap w m o) :
    o.2.2 = .send ∨ o.2.2.Dropped := by
  cases path with
  | inbound p svc => exact (InboundPost.verdict h).imp_left (·.1)
  | fromServer p => exact (OnSession.verdict h).imp_left (·.1)
  | errorToClient p info => exact (OnSession.verdict h).imp_left (·.1)
  | errorToServer p info => exact (OnSession.verdict h).imp_left (·.1)
  | rest => simp [Path.owner] at ho

/-- What worker `w` does with a packet that belongs to worker `i`: worker `i`
looks for its session, another worker passes it on. -/
def ServedBy (dp : Dataplane) (snap : Snapshot) (w : WorkerCtx) (m : Mbuf) (i : ℕ) (path : Path) : Prop :=
  pathOf dp snap m = .ok path ∧ ∀ view redirected,
    (∃ w', SameSessions w w' ∧ processPacket dp view w snap m redirected =
      if i = w.idx then path.atOwner dp view snap w' m redirected else .ok (w', m, notOwner redirected i)) ∧
    (i = w.idx → ∀ o, processPacket dp view w snap m redirected = .ok o → o.2.2 = .send ∨ o.2.2.Dropped)

theorem servedBy (hp : pathOf dp snap m = .ok path) (ho : path.owner dp = some i) :
    ServedBy dp snap w m i path := by
  refine ⟨hp, fun view redirected => ⟨?_, fun hi o hok => ?_⟩⟩
  · obtain ⟨w', hs, he⟩ := processPacket_path view w redirected hp ho
    refine ⟨w', hs, ?_⟩
    rw [he, Path.run, hs.idx]
    by_cases hi : i = w.idx
    · rw [if_pos hi, if_neg (not_not.mpr hi)]
    · rw [if_neg hi, if_pos hi]
  · rcases (processPacket_processed hok hp).result with ⟨-, hd⟩ | ⟨k, hk, hne, -⟩
    · exact hd.verdict ho
    · rw [ho] at hk
      exact absurd hi (Option.some.inj hk ▸ hne)

end Owner

namespace World

variable {dp : Dataplane} {W : World}

/-- **Every session is at its owner, and so is every packet of it.** In every
state of the system: a session of worker `i` has `i` for the owner of its
client tuple and, in FULLNAT, of its server tuple, with a port of the SNAT
range. A packet of the session that arrives at any worker `k` is found to be
worker `i`'s: worker `i` finds the session under the packet's key, any other
worker passes the frame on to worker `i`. The frames in the ring of worker `i`
are worker `i`'s, so that it neither passes them on again nor drops them as
another's. -/
theorem sessions_at_owner (hcfg : Config.Accepted dp.cfg) (h : Reach dp W) (i : ℕ) (hi : i < dp.steering.n) :
    (∀ j, (W.workers i).sessions.Live j →
      dp.steering.fwdOwner dp.H ((W.workers i).session j).client = i ∧
      (((W.workers i).session j).fullnat = true →
        dp.steering.retOwner dp.H ((W.workers i).session j).server = i ∧
        kNatPortMin ≤ (bswap16 ((W.workers i).session j).server.dstPort).toNat ∧
        (bswap16 ((W.workers i).session j).server.dstPort).toNat ≤ kNatPortMax) ∧
      ∀ m key, PacketOf dp m ((W.workers i).session j).ident key →
        (W.workers i).sessions.lookup key = some j ∧
        ∀ k, k < dp.steering.n → ∀ w, SameSessions (W.workers k) w →
          w.idx = k ∧ ∃ path, path.key = some key ∧ ServedBy dp (W.snaps k) w m i path) ∧
    ∀ m ∈ W.rings i, ∀ w, SameSessions (W.workers i) w →
      w.idx = i ∧ ∃ path, ServedBy dp (W.snaps i) w m i path := by
  have hinv := reach_inv hcfg h
  have hw := hinv.workers i hi
  constructor
  · intro j hj
    have hs := hw.live j hj
    refine ⟨hs.owner, fun hf => ⟨hs.serverOwner hf, ?_⟩, fun m key hm => ⟨?_, fun k hk w hsame => ⟨?_, ?_⟩⟩⟩
    · have hp : inNatRange ((W.workers i).session j).server.dstPort = true := hs.port hf
      simpa [inNatRange, Config.inPortRange] using hp
    · rw [hw.fit.lookup_iff]
      exact ⟨hj, hm.hasKey⟩
    · rw [hsame.idx]
      exact (hinv.workers k hk).idx
    · obtain ⟨path, hp, ho, hkey⟩ := path_of_packet (hinv.snaps k) hs hm
      exact ⟨path, hkey, servedBy hp ho⟩
  · intro m hm w hsame
    obtain ⟨path, hp, ho⟩ := hinv.rings i m hm (W.snaps i) (hinv.snaps i)
    exact ⟨hsame.idx.trans hw.idx, path, servedBy hp ho⟩

end World

/-! ### A small system -/

/-- Two workers, steered in software. -/
def demo : Dataplane where
  H := ⟨fun _ _ _ _ => 0, fun _ _ _ => 0, fun _ _ _ => 0, fun _ _ => 0, fun _ _ => 0, fun _ _ => 0⟩
  localMac := #v[2, 0, 0, 0, 0, 1]
  cfg := demoConfig
  steering := Steering.initSw 2
  route := routeOf demoConfig
  clock := ⟨0, 1000⟩

/-- A query from 10.0.0.1:1234 to 10.0.0.2:53. -/
def queryFrame : Mbuf :=
  Mbuf.ofBytes
    [2, 0, 0, 0, 0, 1, 2, 0, 0, 0, 0, 2, 8, 0,
      69, 0, 0, 28, 0, 1, 0, 0, 64, 17, 102, 206, 10, 0, 0, 1, 10, 0, 0, 2,
      4, 210, 0, 53, 0, 8, 0, 0]
    8 (by decide)

def queryTuple : FiveTuple := (metaOf queryFrame).toFiveTuple

def noNeigh : NeighView := ⟨1, fun _ => none⟩

theorem demo_accepted : Config.Accepted demo.cfg := demoConfig_accepted

/-- The demo with a real server that has no MAC. -/
def plainConfig : LbConfig :=
  { demoConfig with services := [{
      name := "dns", vip := 0x0200000A, port := 53, proto := 17, rs := [{ ip := 0x0101000A, port := 53 }] }] }

def plainDemo : Dataplane := { demo with cfg := plainConfig }

theorem plainDemo_accepted : Config.Accepted plainDemo.cfg := ⟨plainConfig, by decide, by decide, rfl⟩

theorem queryFrame_admitted : Admitted demo queryFrame (metaOf queryFrame) :=
  ⟨rfl, by decide +kernel, by decide, by decide +kernel⟩

theorem World.sessions_at_owner_query : ∃ W, World.Reach demo W ∧ (W.workers 0).sessions.Live 0 ∧
    demo.steering.retOwner demo.H ((W.workers 0).session 0).server = 0 ∧
    (W.workers 0).sessions.lookup queryTuple = some 0 ∧
    ∃ path, ServedBy demo (W.snaps 1) (W.workers 1) queryFrame 0 path := by
  obtain ⟨W, h, hl, hc, hf⟩ := World.exists_reach demo [.receive 0 queryFrame noNeigh]
    (P := fun W => (W.workers 0).sessions.Live 0 ∧ ((W.workers 0).session 0).client = queryTuple ∧
      ((W.workers 0).session 0).fullnat = true) (by decide) (by decide +kernel)
  obtain ⟨-, hret, hpkt⟩ := (World.sessions_at_owner demo_accepted h 0 (by decide)).1 0 hl
  obtain ⟨hlook, hserved⟩ := hpkt queryFrame _ (.forward queryFrame_admitted hc.symm)
  obtain ⟨-, path, -, hs⟩ := hserved 1 (by decide) _ (.refl _)
  exact ⟨W, h, hl, (hret hf).1, hc ▸ hlook, path, hs⟩

end L4Lb
