/-
# What holds in every state of the system

The path of a frame depends on the configuration and not on the snapshot: no
command changes the addresses, the mode or the services (`pathOf_owner_eq`).
So a session that was made for a client stays a session of its worker
whatever is published later, and a frame in a redirect ring stays a frame of
the ring's worker. This is the invariant `World.Inv`.
-/
import L4Lb.Processor.Paths
import L4Lb.Snapshot.Built
import L4Lb.World

open Checked

namespace L4Lb

open SessionTable (Fit)

/-! ### The path and the configuration -/

namespace LbConfig

variable (cfg : LbConfig)

/-- The lookup of a local address, which takes 0 for one. -/
def IsLip (ip : IPv4Addr) : Prop := ip = 0 ∨ cfg.mode = .nat ∧ ip ∈ cfg.localIps

def IsVip (ip : IPv4Addr) : Prop := ip = 0 ∨ ip ∈ cfg.services.map (·.vip)

/-- The destination of a return packet. -/
def ReturnTo (ip : IPv4Addr) (port : Port) : Prop :=
  cfg.mode = .nat ∧ cfg.IsLip ip ∧ inNatRange port = true

/-- The services, as `find_service` looks for them. -/
def serviceKeys : List (IPv4Addr × Port × UInt8) := cfg.services.map fun c => (c.vip, bswap16 c.port, c.proto)

end LbConfig

section Lineage

variable {dp : Dataplane} {snap snap' : Snapshot} {m : Mbuf} {p : PacketMeta}

namespace Snapshot.Built

theorem isLip_iff (hb : snap.Built dp.H dp.cfg) (ip : IPv4Addr) :
    ∃ b, snap.isLip dp.H ip = .ok b ∧ (b = true ↔ dp.cfg.IsLip ip) := by
  refine ⟨_, hb.isLip ip, ?_⟩
  rw [decide_eq_true_iff, hb.localIps, LbConfig.IsLip]
  split
  · rename_i h; simp [h]
  · rename_i h; simp [h]

theorem isReturn_iff (hb : snap.Built dp.H dp.cfg) (p : PacketMeta) :
    ∃ b, isReturn dp snap p = .ok b ∧ (b = true ↔ dp.cfg.ReturnTo p.dstIp p.dstPort) := by
  obtain ⟨b, hl, hb'⟩ := hb.isLip_iff p.dstIp
  unfold isReturn LbConfig.ReturnTo
  rw [hb.mode, hl, ok_bind]
  by_cases hm : dp.cfg.mode = .nat
  · rw [if_neg (not_not.mpr hm)]
    cases b with
    | false => exact ⟨false, rfl, by simpa [hm] using fun h => absurd (hb'.mpr h) (by simp)⟩
    | true => exact ⟨_, rfl, by simp [hm, hb'.mp rfl]⟩
  · exact ⟨false, if_pos hm, by simp [hm]⟩

theorem quotesServer_iff (hb : snap.Built dp.H dp.cfg) (dst : IPv4Addr) (inner : FiveTuple) :
    ∃ b, quotesServer dp snap dst inner = .ok b ∧
      (b = true ↔ dp.cfg.IsLip dst ∧ dp.cfg.ReturnTo inner.srcIp inner.srcPort) := by
  obtain ⟨b, hl, hbl⟩ := hb.isLip_iff dst
  obtain ⟨c, hl', hcl⟩ := hb.isLip_iff inner.srcIp
  unfold quotesServer LbConfig.ReturnTo
  rw [hb.mode, hl, hl', ok_bind]
  by_cases hm : dp.cfg.mode = .nat
  · rw [if_neg (not_not.mpr hm)]
    cases b with
    | false => exact ⟨false, rfl, by simpa using fun h => absurd (hbl.mpr h) (by simp)⟩
    | true =>
      cases c with
      | false => exact ⟨false, rfl, by simpa using fun _ _ h => absurd (hcl.mpr h) (by simp)⟩
      | true => exact ⟨_, rfl, by simp [hm, hbl.mp rfl, hcl.mp rfl]⟩
  · exact ⟨false, if_pos hm, by simp [hm]⟩

theorem quotesClient_iff (hb : snap.Built dp.H dp.cfg) (dst : IPv4Addr) (inner : FiveTuple) :
    ∃ b, quotesClient dp snap dst inner = .ok b ∧
      (b = true ↔ dp.cfg.IsVip dst ∧ dp.cfg.IsVip inner.srcIp) := by
  unfold quotesClient LbConfig.IsVip
  rw [hb.isVip, hb.isVip, ok_bind]
  by_cases hd : dst = 0 ∨ dst ∈ dp.cfg.services.map (·.vip)
  · rw [decide_eq_true hd]
    exact ⟨_, rfl, by simp only [decide_eq_true_iff, hd, true_and]⟩
  · rw [decide_eq_false hd]
    exact ⟨false, rfl, by simp only [hd, Bool.false_eq_true, false_and]⟩

theorem findService_iff (hb : snap.Built dp.H dp.cfg) (vip : IPv4Addr) (portBe : Port) (proto : UInt8) :
    ∃ r, snap.findService dp.H vip portBe proto = .ok r ∧
      (r.isSome = true ↔ (vip, portBe, proto) ∈ dp.cfg.serviceKeys) := by
  refine ⟨_, hb.findService vip portBe proto, ?_⟩
  rw [List.find?_isSome, LbConfig.serviceKeys, ← hb.keys, List.mem_map]
  simp only [decide_eq_true_iff]

end Snapshot.Built

/-- Two lookups that agree with the configuration agree with each other. -/
theorem ok_congr {x y : Except Fault Bool} {P : Prop} (hx : ∃ b, x = .ok b ∧ (b = true ↔ P))
    (hy : ∃ b, y = .ok b ∧ (b = true ↔ P)) : x = y := by
  obtain ⟨b, rfl, hb⟩ := hx
  obtain ⟨c, rfl, hc⟩ := hy
  rw [Bool.eq_iff_iff.mpr (hb.trans hc.symm)]

theorem pathL4_owner_eq (hb : snap.Built dp.H dp.cfg) (hb' : snap'.Built dp.H dp.cfg) {path : Path}
    (h : pathL4 dp snap p = .ok path) :
    ∃ path', pathL4 dp snap' p = .ok path' ∧ path'.owner dp = path.owner dp := by
  unfold pathL4 at h ⊢
  rw [ok_congr (hb'.isReturn_iff p) (hb.isReturn_iff p), hb'.hcSrc, ← hb.hcSrc]
  obtain ⟨b, hr, h⟩ := bind_eq_ok.mp h
  rw [hr, ok_bind]
  split at h
  · rename_i ht
    rw [if_pos ht]
    exact ⟨_, h, rfl⟩
  rename_i hf
  rw [if_neg hf]
  split at h
  · rename_i hc
    rw [if_pos hc]
    exact ⟨_, h, rfl⟩
  rename_i hc
  rw [if_neg hc]
  obtain ⟨r, hs, hr⟩ := hb.findService_iff p.dstIp p.dstPort p.ipProtocol
  obtain ⟨r', hs', hr'⟩ := hb'.findService_iff p.dstIp p.dstPort p.ipProtocol
  have he : r.isSome = r'.isSome := Bool.eq_iff_iff.mpr (hr.trans hr'.symm)
  rw [hs, ok_bind] at h
  rw [hs', ok_bind]
  cases r with
  | none =>
    cases r' with
    | none => exact ⟨_, h, rfl⟩
    | some svc => simp at he
  | some svc =>
    cases r' with
    | none => simp at he
    | some svc' =>
      obtain rfl := Except.ok.inj h
      exact ⟨.inbound p svc', rfl, rfl⟩

theorem pathIcmp_eq (hb : snap.Built dp.H dp.cfg) (hb' : snap'.Built dp.H dp.cfg) :
    pathIcmp dp snap' m p = pathIcmp dp snap m p := by
  have hlocal : snap'.isLocal dp.H p.dstIp = snap.isLocal dp.H p.dstIp := by
    rw [hb'.isLocal, hb.isLocal, hb'.localIps, hb.localIps]
  have hqs := fun dst inner => ok_congr (hb'.quotesServer_iff dst inner) (hb.quotesServer_iff dst inner)
  have hqc := fun dst inner => ok_congr (hb'.quotesClient_iff dst inner) (hb.quotesClient_iff dst inner)
  unfold pathIcmp
  simp only [hlocal, hqs, hqc]

/-- **The owner of a frame** is the same under every snapshot. -/
theorem pathOf_owner_eq (hb : snap.Built dp.H dp.cfg) (hb' : snap'.Built dp.H dp.cfg) {path : Path}
    (h : pathOf dp snap m = .ok path) :
    ∃ path', pathOf dp snap' m = .ok path' ∧ path'.owner dp = path.owner dp := by
  have hipv4 : ∀ {p path}, pathIpv4 dp snap m p = .ok path →
      ∃ path', pathIpv4 dp snap' m p = .ok path' ∧ path'.owner dp = path.owner dp := by
    intro p path h
    unfold pathIpv4 at h ⊢
    rw [pathIcmp_eq hb hb']
    split_ifs at h ⊢
    · exact ⟨_, h, rfl⟩
    · exact ⟨_, h, rfl⟩
    · exact ⟨_, h, rfl⟩
    · exact ⟨_, h, rfl⟩
    · exact pathL4_owner_eq hb hb' h
  unfold pathOf at h ⊢
  split at h
  · rename_i hlen
    rw [if_pos hlen]
    exact ⟨_, h, rfl⟩
  rename_i hlen
  rw [if_neg hlen]
  obtain ⟨type, ht, h⟩ := bind_eq_ok.mp h
  rw [ht, ok_bind]
  split at h
  · rename_i hip
    rw [if_pos hip]
    exact ⟨_, h, rfl⟩
  rename_i hip
  rw [if_neg hip]
  obtain ⟨⟨res, p⟩, hr, h⟩ := bind_eq_ok.mp h
  rw [hr, ok_bind]
  cases res with
  | ok => exact hipv4 h
  | malformed => exact ⟨_, h, rfl⟩
  | fragment => exact ⟨_, h, rfl⟩

end Lineage

/-! ### Sessions and workers -/

section Worker

variable {dp : Dataplane} {view : NeighView} {snap : Snapshot} {w : WorkerCtx} {m : Mbuf} {i : ℕ}

/-- What holds of a session of worker `i` as long as it lives. -/
structure SessionOk (dp : Dataplane) (i : ℕ) (d : SessionId) : Prop where
  owner : dp.steering.fwdOwner dp.H d.client = i
  proto : d.client.protocol = 6 ∨ d.client.protocol = 17
  noReturn : ¬ dp.cfg.ReturnTo d.client.dstIp d.client.dstPort
  noHc : ¬ (d.client.dstIp = dp.cfg.hcSrc ∧ inHcRange d.client.dstPort = true)
  service : (d.client.dstIp, d.client.dstPort, d.client.protocol) ∈ dp.cfg.serviceKeys
  fullnat : d.fullnat = true ↔ dp.cfg.mode = .nat
  lip : d.fullnat = true → d.server.dstIp ∈ dp.cfg.localIps
  port : d.fullnat = true → inNatRange d.server.dstPort = true
  serverProto : d.fullnat = true → d.server.protocol = d.client.protocol
  serverOwner : d.fullnat = true → dp.steering.retOwner dp.H d.server = i
  rsId : d.rsId < max (dp.cfg.rsTotal + 1) kMaxRsId

/-- The sessions a worker has room for. -/
def Dataplane.capacity (dp : Dataplane) : ℕ := max (dp.cfg.maxSessions / dp.steering.n) 1024

/-- Worker `i`, with its sessions. Its table comes from a run of the table's
operations, as the table asks for them to be used. -/
structure WorkerOk (dp : Dataplane) (i : ℕ) (w : WorkerCtx) : Prop where
  idx : w.idx = i
  lt : i < dp.steering.n
  fit : Fit w.sessions
  reach : SessionTable.Reach dp.capacity 1 w.sessions
  live : ∀ j, w.sessions.Live j → SessionOk dp i (w.session j).ident

theorem WorkerOk.step {New : SessionId → Prop} {w' : WorkerCtx} (h : WorkerOk dp i w) (hs : WorkerStep New w w')
    (hn : ∀ d, New d → SessionOk dp i d) : WorkerOk dp i w' := by
  refine ⟨hs.idx.trans h.idx, h.lt, hs.fit, hs.table.reach h.reach, fun j hj => ?_⟩
  rcases hs.table.live j hj with ⟨hl, he⟩ | hd
  · exact (show (w'.session j).ident = (w.session j).ident from he) ▸ h.live j hl
  · exact hn _ hd

theorem WorkerOk.same {w' : WorkerCtx} (h : WorkerOk dp i w) (hs : SameSessions w w') : WorkerOk dp i w' :=
  h.step (hs.step h.fit) fun _ => False.elim

namespace Snapshot.Built

theorem lookupSafe (hb : snap.Built dp.H dp.cfg) (bad : Fault → Prop) : snap.LookupSafe bad dp :=
  ⟨fun ip e he => by simp [hb.isVip] at he, fun ip e he => by simp [hb.isLip] at he,
    fun ip e he => by simp [hb.isLocal] at he, fun vip portBe proto e he => by simp [hb.findService] at he⟩

/-- The path of every frame is found. -/
theorem pathOf_returns (hb : snap.Built dp.H dp.cfg) (m : Mbuf) :
    Returns (pathOf dp snap m) (Path.Taken dp snap m) := by
  have h := pathOf_avoids (hb.lookupSafe fun _ => True) m
  cases hp : pathOf dp snap m with
  | error e => exact absurd trivial (h.1 e hp)
  | ok path => exact .ok (h.2 path hp)

/-- A client of a service is no return packet. -/
theorem noReturn (hb : snap.Built dp.H dp.cfg) {p : PacketMeta} {svc : Service}
    (ht : (Path.inbound p svc).Taken dp snap m) : ¬ dp.cfg.ReturnTo p.dstIp p.dstPort := by
  obtain ⟨-, -, hret, -, -⟩ := ht
  obtain ⟨b, hr, hb'⟩ := hb.isReturn_iff p
  rw [hret] at hr
  rw [← hb', ← Except.ok.inj hr]
  simp

theorem admits (hb : snap.Built dp.H dp.cfg) (hw : WorkerOk dp i w) {p : PacketMeta} {svc : Service}
    (ht : (Path.inbound p svc).Taken dp snap m) : Admits dp snap w p.toFiveTuple := by
  refine ⟨hw.fit, by rw [hw.idx]; exact hw.lt, fun hm => ?_⟩
  rintro ⟨hl, hr⟩
  rw [hb.mode] at hm
  rw [hb.localIps, if_pos hm] at hl
  exact hb.noReturn ht ⟨hm, Or.inr ⟨hm, hl⟩, hr⟩

end Snapshot.Built

theorem sessionOk_of_fresh (hb : snap.Built dp.H dp.cfg) {p : PacketMeta} {svc : Service}
    (ht : (Path.inbound p svc).Taken dp snap m) (ho : dp.steering.fwdOwner dp.H p.toFiveTuple = i) {d : SessionId}
    (hd : Fresh dp snap svc p.toFiveTuple i d) : SessionOk dp i d := by
  have hnr := hb.noReturn ht
  obtain ⟨-, hproto, -, hhc, hfind⟩ := ht
  obtain ⟨k, -, r, hr, hid, hserver⟩ := hd.rs
  have hfull : d.fullnat = true ↔ dp.cfg.mode = .nat := by rw [hd.fullnat, hb.mode]
  have hkey : (p.dstIp, p.dstPort, p.ipProtocol) ∈ dp.cfg.serviceKeys := by
    obtain ⟨r, hs, hr⟩ := hb.findService_iff p.dstIp p.dstPort p.ipProtocol
    rw [hfind] at hs
    exact hr.mp (by rw [← Except.ok.inj hs]; rfl)
  have hmem : r ∈ snap.services.flatMap (·.rs) :=
    List.mem_flatMap.mpr ⟨svc, Snapshot.findService_mem hfind, List.mem_of_getElem? hr⟩
  rw [hb.hcSrc] at hhc
  refine ⟨?_, ?_, ?_, ?_, ?_, hfull, fun hf => ?_, fun hf => (hserver hf).range, fun hf => ?_,
    fun hf => (hserver hf).owner, ?_⟩
  · rw [hd.client_eq]; exact ho
  · rw [hd.client_eq]; exact hproto
  · rw [hd.client_eq]; exact hnr
  · rw [hd.client_eq]; exact hhc
  · rw [hd.client_eq]; exact hkey
  · have := (hserver hf).lip
    rwa [hb.localIps, if_pos (hfull.mp hf)] at this
  · rw [hd.client_eq]; exact (hserver hf).proto
  · rw [hid]; exact hb.ids_lt r hmem

theorem processPacket_processed {redirected : Bool} {o : Outcome}
    (ho : processPacket dp view w snap m redirected = .ok o) {path : Path} (hp : pathOf dp snap m = .ok path) :
    Processed dp snap w m redirected path o :=
  (processPacket_avoids (snap.safe_none dp) (fun _ _ _ => False.elim) view m redirected).2 o ho path hp

theorem Path.Done.keeps {path : Path} {o : Outcome} (hb : snap.Built dp.H dp.cfg) (hw : WorkerOk dp i w)
    (ht : path.Taken dp snap m) (hown : ∀ k, path.owner dp = some k → k = w.idx) (h : path.Done dp snap w m o) :
    WorkerOk dp i o.1 ∧ ∀ k, o.2.2 ≠ .redirect k := by
  have hon : ∀ {key C P}, OnSession w key C P o → WorkerOk dp i o.1 ∧ ∀ k, o.2.2 ≠ .redirect k := by
    intro key C P h
    refine ⟨hw.step (h.step hw.fit) fun _ => False.elim, fun k => ?_⟩
    rcases h.verdict with ⟨hsend, -⟩ | hd
    · simp [hsend]
    · exact hd.ne_redirect k
  cases path with
  | inbound p svc =>
    have ho := hown _ rfl
    refine ⟨hw.step (InboundPost.step h (hb.admits hw ht)) fun d hd => ?_, fun k => ?_⟩
    · rw [hw.idx] at ho hd
      exact sessionOk_of_fresh hb ht ho hd
    · rcases InboundPost.verdict h with ⟨hsend, -⟩ | hd
      · simp [hsend]
      · exact hd.ne_redirect k
  | fromServer p => exact hon h
  | errorToClient p info => exact hon h
  | errorToServer p info => exact hon h
  | rest => exact ⟨hw.same (Untouched.same h), Untouched.not_redirected h⟩

/-- **A packet keeps its worker in order.** A frame is passed on as it is, to
its owner, by a worker that has got it from outside. -/
theorem processPacket_keeps {redirected : Bool} {o : Outcome} (hb : snap.Built dp.H dp.cfg) (hw : WorkerOk dp i w)
    (ho : processPacket dp view w snap m redirected = .ok o) :
    WorkerOk dp i o.1 ∧ ∀ k, o.2.2 = .redirect k →
      o.2.1 = m ∧ redirected = false ∧ ∃ path, pathOf dp snap m = .ok path ∧ path.owner dp = some k := by
  obtain ⟨path, hp, -⟩ := hb.pathOf_returns m
  have h := processPacket_processed ho hp
  rcases h.result with ⟨hown, hd⟩ | ⟨k, hk, -, hs, hm⟩
  · obtain ⟨h1, h2⟩ := hd.keeps hb hw h.taken hown
    exact ⟨h1, fun k hk => absurd hk (h2 k)⟩
  · refine ⟨hw.same hs, fun k' hk' => ?_⟩
    rw [hm] at hk' ⊢
    cases redirected with
    | true => simp [notOwner] at hk'
    | false =>
      obtain rfl : k = k' := by simpa [notOwner] using hk'
      exact ⟨rfl, rfl, path, hp, hk⟩

end Worker

/-! ### The system -/

/-- The frame belongs to worker `k`, under every snapshot. -/
def Owned (dp : Dataplane) (k : ℕ) (m : Mbuf) : Prop :=
  ∀ snap : Snapshot, snap.Built dp.H dp.cfg → ∃ path, pathOf dp snap m = .ok path ∧ path.owner dp = some k

namespace World

variable {dp : Dataplane} {W : World}

theorem setWorker_self (W : World) (i : ℕ) (w : WorkerCtx) : (W.setWorker i w).workers i = w := by
  simp [setWorker]

theorem setWorker_other {i j : ℕ} (W : World) (w : WorkerCtx) (h : j ≠ i) :
    (W.setWorker i w).workers j = W.workers j := by
  simp [setWorker, h]

/-- The verdict is carried out: the sessions stay as they are. -/
theorem finish_same (W : World) (i : ℕ) (o : Outcome) : SameSessions o.1 ((W.finish dp i o).workers i) := by
  obtain ⟨w, m, r⟩ := o
  unfold finish
  cases r with
  | send => exact (setWorker_self W i w).symm ▸ .refl w
  | drop e => exact (setWorker_self W i (w.count e)).symm ▸ .count w e
  | redirect k =>
    simp only
    split
    · exact (setWorker_self W i (w.count .redirectOut)).symm ▸ .count w _
    · exact (setWorker_self W i (w.count .dropRedirect)).symm ▸ .count w _
  | consumed => exact (setWorker_self W i w).symm ▸ .refl w

theorem finish_other {i j : ℕ} (h : j ≠ i) (o : Outcome) : (W.finish dp i o).workers j = W.workers j := by
  obtain ⟨w, m, r⟩ := o
  unfold finish
  cases r with
  | send => exact setWorker_other W w h
  | drop e => exact setWorker_other W _ h
  | redirect k =>
    simp only
    split
    · exact setWorker_other W (w.count .redirectOut) h
    · exact setWorker_other W _ h
  | consumed => exact setWorker_other W w h

structure Inv (dp : Dataplane) (W : World) : Prop where
  running : SnapshotManager.Running dp.H dp.cfg W.mgr
  snaps : ∀ i, (W.snaps i).Built dp.H dp.cfg
  workers : ∀ i, i < dp.steering.n → WorkerOk dp i (W.workers i)
  rings : ∀ i, ∀ m ∈ W.rings i, Owned dp i m

theorem Inv.setWorker {i : ℕ} {w : WorkerCtx} (h : Inv dp W) (hw : WorkerOk dp i w) :
    Inv dp (W.setWorker i w) := by
  refine ⟨h.running, h.snaps, fun k hk => ?_, h.rings⟩
  show WorkerOk dp k (Function.update W.workers i w k)
  by_cases hki : k = i
  · subst hki
    rw [Function.update_self]
    exact hw
  · rw [Function.update_of_ne hki]
    exact h.workers k hk

/-- A worker starts without sessions. -/
theorem not_live_init (cfg : LbConfig) (n i j : ℕ) :
    ¬ (WorkerCtx.init cfg n i).sessions.Live j := by
  intro hj
  have hlt : j < max (cfg.maxSessions / n) 1024 := hj.1
  have hfree : (if j < max (cfg.maxSessions / n) 1024 then ({ wheelPrev := SessionTable.kFree } : Session)
      else {}).wheelPrev ≠ SessionTable.kFree := hj.2
  rw [if_pos hlt] at hfree
  exact hfree rfl

theorem workerOk_init (hcfg : Config.Accepted dp.cfg) {i : ℕ} (hi : i < dp.steering.n) :
    WorkerOk dp i (WorkerCtx.init dp.cfg dp.steering.n i) := by
  have hcap : dp.capacity ≤ SessionTable.kMaxSessions := by
    have h1 := hcfg.maxSessions_le
    have h2 := Nat.div_le_self dp.cfg.maxSessions dp.steering.n
    unfold Dataplane.capacity SessionTable.kMaxSessions
    omega
  have hreach : SessionTable.Reach dp.capacity 1 (WorkerCtx.init dp.cfg dp.steering.n i).sessions := .init
  exact ⟨rfl, hi, hreach.fit hcap, hreach, fun j hj => absurd hj (not_live_init _ _ _ j)⟩

theorem boot_returns (hcfg : Config.Accepted dp.cfg) : Returns (boot dp) fun W => Inv dp W ∧
    ∀ snap, W.mgr.cur = some snap → snap.rsIds = List.range' 1 dp.cfg.rsTotal := by
  unfold boot
  refine Returns.bind (SnapshotManager.init_returns hcfg.valid) fun mgr hm => ?_
  obtain ⟨hrun, hids⟩ := hm
  obtain ⟨snap, hcur, hb⟩ := hrun.cur
  rw [hcur]
  exact .ok ⟨⟨hrun, fun _ => hb, fun i hi => workerOk_init hcfg hi, fun _ m hmem => by simp at hmem⟩, hids⟩

/-- What becomes of a frame that has been processed. -/
theorem Inv.finish {i : ℕ} {o : Outcome} (h : Inv dp W) (hw : WorkerOk dp i o.1)
    (hr : ∀ k, o.2.2 = .redirect k → Owned dp k o.2.1) : Inv dp (W.finish dp i o) := by
  obtain ⟨w, m, r⟩ := o
  cases r with
  | send => exact h.setWorker hw
  | consumed => exact h.setWorker hw
  | drop reason => exact h.setWorker (hw.same (.count w _))
  | redirect k =>
    simp only [World.finish]
    split
    · refine ⟨h.running, h.snaps, (h.setWorker (hw.same (.count w _))).workers, fun k' m' hm' => ?_⟩
      by_cases hk : k' = k
      · subst hk
        simp only [Function.update_self, List.mem_append, List.mem_singleton] at hm'
        rcases hm' with hm' | rfl
        · exact h.rings _ m' hm'
        · exact hr _ rfl
      · simp only [Function.update_of_ne hk] at hm'
        exact h.rings _ m' hm'
    · exact h.setWorker (hw.same (.count w _))

theorem Inv.handle {i : ℕ} {w : WorkerCtx} {m : Mbuf} {view : NeighView} {redirected : Bool} {W' : World}
    (h : Inv dp W) (hw : WorkerOk dp i w) (hs : W.handle dp view i w m redirected = .ok W') : Inv dp W' := by
  unfold World.handle at hs
  obtain ⟨o, ho, hs⟩ := bind_eq_ok.mp hs
  obtain rfl := Except.ok.inj hs
  obtain ⟨h1, h2⟩ := processPacket_keeps (h.snaps i) hw ho
  refine h.finish h1 fun k hk => ?_
  obtain ⟨he, -, path, hp, hown⟩ := h2 k hk
  intro snap hb
  obtain ⟨path', hp', hown'⟩ := pathOf_owner_eq (h.snaps i) hb hp
  exact ⟨path', he ▸ hp', hown'.trans hown⟩

theorem Inv.popRing {i : ℕ} {m : Mbuf} {rest : List Mbuf} (h : Inv dp W) (hring : W.rings i = m :: rest) :
    Inv dp { W with rings := Function.update W.rings i rest } := by
  refine ⟨h.running, h.snaps, h.workers, fun k m' hm' => ?_⟩
  by_cases hk : k = i
  · subst hk
    simp only [Function.update_self] at hm'
    exact h.rings _ m' (hring ▸ List.mem_cons_of_mem _ hm')
  · simp only [Function.update_of_ne hk] at hm'
    exact h.rings _ m' hm'

theorem sameSessions_received (dp : Dataplane) (w : WorkerCtx) (m : Mbuf) : SameSessions w (w.received dp m) := by
  unfold WorkerCtx.received
  exact .ite (.count w _) ⟨rfl, rfl, rfl⟩

theorem workerOk_readClock {i : ℕ} {w w' : WorkerCtx} {tsc : UInt64} (hw : WorkerOk dp i w)
    (h : w.readClock dp tsc = .ok w') : WorkerOk dp i w' := by
  unfold WorkerCtx.readClock at h
  simp only at h
  cases he : w.sessions.expire (dp.clock.now tsc).tick.toNat with
  | none => simp [he] at h
  | some r =>
    rw [he] at h
    obtain rfl := Except.ok.inj h
    have ht : SessionTable.TableStep (fun _ => False) w.sessions r.table := .expire hw.fit he
    refine ⟨hw.idx, hw.lt, ht.fit, ht.reach hw.reach, fun j hj => ?_⟩
    obtain ⟨hl, hid⟩ := (ht.live j hj).resolve_right id
    exact (show (r.table.sessions j).ident = (w.session j).ident from hid) ▸ hw.live j hl

theorem Inv.step {ev : Event} {W' : World} (hcfg : Config.Accepted dp.cfg) (h : Inv dp W)
    (hv : ev.Valid dp.steering.n) (hs : W.step dp ev = .ok W') : Inv dp W' := by
  cases ev with
  | receive i m view => exact h.handle ((h.workers i hv).same (sameSessions_received dp _ m)) hs
  | takeRedirected i view =>
    simp only [World.step] at hs
    cases hring : W.rings i with
    | nil =>
      rw [hring] at hs
      exact Except.ok.inj hs ▸ h
    | cons m rest =>
      rw [hring] at hs
      exact (h.popRing hring).handle ((h.workers i hv).same (.count _ _)) hs
  | turn i =>
    obtain ⟨snap, hcur, hb⟩ := h.running.cur
    simp only [World.step, hcur] at hs
    split at hs
    · exact Except.ok.inj hs ▸ h
    · obtain rfl := Except.ok.inj hs
      have hw : WorkerOk dp i { W.workers i with cursors := fun _ => Scheduler.firstCursor i } :=
        (h.workers i hv).same ⟨rfl, rfl, rfl⟩
      refine ⟨h.running, fun k => ?_, (h.setWorker hw).workers, h.rings⟩
      show (Function.update W.snaps i snap k).Built dp.H dp.cfg
      by_cases hk : k = i
      · subst hk
        rw [Function.update_self]
        exact hb
      · rw [Function.update_of_ne hk]
        exact h.snaps k
  | readClock i tsc =>
    obtain ⟨w', hw', hs⟩ := bind_eq_ok.mp hs
    obtain rfl := Except.ok.inj hs
    exact h.setWorker (workerOk_readClock (h.workers i hv) hw')
  | command c =>
    obtain ⟨mgr, hm, hs⟩ := bind_eq_ok.mp hs
    obtain rfl := Except.ok.inj hs
    obtain ⟨mgr', hm', hrun⟩ := SnapshotManager.Command.run_returns hcfg.valid h.running c
    rw [hm] at hm'
    exact ⟨Except.ok.inj hm' ▸ hrun, h.snaps, h.workers, h.rings⟩

/-- **The invariant holds in every state of the system.** -/
theorem reach_inv (hcfg : Config.Accepted dp.cfg) (h : Reach dp W) : Inv dp W := by
  induction h with
  | boot hb =>
    obtain ⟨W', hW', hinv, -⟩ := boot_returns hcfg
    rw [hb] at hW'
    exact Except.ok.inj hW' ▸ hinv
  | step ev _ hv hs ih => exact ih.step hcfg hv hs

end World

end L4Lb
