/-
# Real servers over whole runs

Commands and health checks change the real servers while sessions live on.

* A frame that is sent towards a real server belongs to a session whose real
  server is in the worker's snapshot and is usable there, with one exception:
  `handle_icmp_error` does not ask whether it is usable, and sends an ICMP
  error to a real server that is disabled or down (`World.sent_usable_iff`,
  `error_reaches_disabled`).
* The ids of real servers stay below the size of the workers' counter arrays
  in every run precisely if the configuration has fewer real servers than
  that: `add_rs` checks the bound, `init` does not (`World.rs_counters_iff`,
  `full_config_exceeds_counters`).
* Below that bound no step of the system faults (`World.step_returns`).
-/
import L4Lb.World.Owners

open Checked

namespace L4Lb

/-! ### Towards a real server -/

/-- The paths on which a frame goes to a real server. -/
def Path.towardServer : Path → Bool
  | inbound _ _ | errorToServer _ _ => true
  | _ => false

/-- The session's real server is in the snapshot, and usable. -/
def OnUsable (snap : Snapshot) (s : Session) : Prop := ∃ r, snap.rs s.rsId = some r ∧ r.usable = true

/-- An ICMP error about a packet of a session whose real server is in the
snapshot but not usable. -/
def Path.Stale (snap : Snapshot) (w : WorkerCtx) : Path → Prop
  | errorToServer _ info => ∃ j r, w.sessions.lookup info.inner.reverse = some j ∧
      snap.rs (w.session j).rsId = some r ∧ r.usable = false
  | _ => False

section Usable

variable {dp : Dataplane} {snap : Snapshot} {w : WorkerCtx} {m : Mbuf} {p : PacketMeta} {o : Outcome}

/-- The scheduler gives a new session a usable real server. -/
theorem Fresh.usable {svc : Service} {client : FiveTuple} {i : ℕ} {s : Session} (hb : snap.Built dp.H dp.cfg)
    (hsvc : svc ∈ snap.services) (h : Fresh dp snap svc client i s.ident) : OnUsable snap s := by
  obtain ⟨k, hk, r, hr, hid, -⟩ := h.rs
  obtain ⟨r', hr', hs⟩ := hb.sched svc hsvc k hk
  obtain rfl : r = r' := Option.some.inj (hr.symm.trans hr')
  refine ⟨r, ?_, (Bool.and_eq_true_iff.mp hs).1⟩
  rw [show s.rsId = r.id from hid]
  exact hb.rs_mem hsvc (List.mem_of_getElem? hr)

theorem SentInbound.usable {svc : Service} {j : ℕ} (hb : snap.Built dp.H dp.cfg) (hsvc : svc ∈ snap.services)
    (h : SentInbound dp snap svc w m p j o) : OnUsable snap (o.1.session j) := by
  rcases h.session with ⟨-, hid, hne⟩ | ⟨hf, -⟩
  · obtain ⟨r, hr⟩ := h.rs
    refine ⟨r, hr, ?_⟩
    by_contra hu
    refine hne (Or.inl fun r' hr' => ?_)
    rw [show (w.session j).rsId = (o.1.session j).rsId from (congrArg SessionId.rsId hid).symm, hr] at hr'
    rw [← Option.some.inj hr']
    exact Bool.eq_false_of_not_eq_true hu
  · exact hf.usable hb hsvc

/-- An ICMP error is sent to a real server without a look at its state. -/
theorem errorToServer_usable_iff {info : IcmpErrorInfo} (hf : SessionTable.Fit w.sessions) (hsend : o.2.2 = .send)
    (h : (Path.errorToServer p info).Done dp snap w m o) :
    (∃ j, o.1.sessions.lookup info.inner.reverse = some j ∧ OnUsable snap (o.1.session j)) ↔
      ¬ (Path.errorToServer p info).Stale snap w := by
  obtain ⟨j, hl, ⟨-, r, hr⟩, hkeeps, -⟩ := OnSession.sent h hsend
  have hl' := hkeeps.lookup hf hl
  have hid : (o.1.session j).rsId = (w.session j).rsId := congrArg SessionId.rsId hkeeps.ident
  constructor
  · rintro ⟨j', hlj, r', hr', hu⟩ ⟨i, r'', hli, hri, hnu⟩
    obtain rfl : j = j' := Option.some.inj (hl'.symm.trans hlj)
    obtain rfl : j = i := Option.some.inj (hl.symm.trans hli)
    rw [hid, hri] at hr'
    rw [Option.some.inj hr', hu] at hnu
    simp at hnu
  · intro hns
    refine ⟨j, hl', r, hid ▸ hr, ?_⟩
    by_contra hu
    exact hns ⟨j, r, hl, hr, Bool.eq_false_of_not_eq_true hu⟩

end Usable

namespace World

variable {dp : Dataplane} {W : World}

/-- **Frames go to usable real servers.** Worker `k` sends a frame towards a
real server in some state of the system: the session it is sent on has a real
server that is usable in the worker's snapshot, if and only if the frame is no
ICMP error for a session whose real server is there and not usable. -/
theorem sent_usable_iff (hcfg : Config.Accepted dp.cfg) (h : Reach dp W) {k : ℕ} (hk : k < dp.steering.n)
    {w : WorkerCtx} (hsame : SameSessions (W.workers k) w) {m : Mbuf} {path : Path}
    (hp : pathOf dp (W.snaps k) m = .ok path) (hto : path.towardServer = true) {view : NeighView}
    {redirected : Bool} {o : Outcome} (ho : processPacket dp view w (W.snaps k) m redirected = .ok o)
    (hsend : o.2.2 = .send) :
    (∃ key j, path.key = some key ∧ o.1.sessions.lookup key = some j ∧ OnUsable (W.snaps k) (o.1.session j)) ↔
      ¬ path.Stale (W.snaps k) w := by
  have hinv := reach_inv hcfg h
  have hb := hinv.snaps k
  have hw : WorkerOk dp k w := (hinv.workers k hk).same hsame
  have hproc := processPacket_processed ho hp
  obtain ⟨-, hdone⟩ := hproc.sent hsend
  cases path with
  | inbound p svc =>
    refine ⟨fun _ => id, fun _ => ?_⟩
    obtain ⟨j, hj⟩ := InboundPost.sent hdone (hb.admits hw hproc.taken) hsend
    exact ⟨_, j, rfl, hj.found, hj.usable hb (Snapshot.findService_mem hproc.taken.2.2.2.2)⟩
  | errorToServer p info =>
    rw [← errorToServer_usable_iff hw.fit hsend hdone]
    simp [Path.key]
  | fromServer p => simp [Path.towardServer] at hto
  | errorToClient p info => simp [Path.towardServer] at hto
  | rest => simp [Path.towardServer] at hto

theorem sent_usable_query : ∃ W, Reach demo W ∧
    Returns (processPacket demo noNeigh (W.workers 0) (W.snaps 0) queryFrame false) fun o => o.2.2 = .send ∧
      ∃ j, o.1.sessions.lookup queryTuple = some j ∧ OnUsable (W.snaps 0) (o.1.session j) := by
  obtain ⟨W, h, hl, hc, o, ho, hsend⟩ := exists_reach demo [.receive 0 queryFrame noNeigh]
    (P := fun W => (W.workers 0).sessions.Live 0 ∧ ((W.workers 0).session 0).client = queryTuple ∧
      Returns (processPacket demo noNeigh (W.workers 0) (W.snaps 0) queryFrame false) fun o => o.2.2 = .send)
    (by decide) (by decide +kernel)
  have hinv := reach_inv demo_accepted h
  have hok := (hinv.workers 0 (by decide)).live 0 hl
  obtain ⟨svc, hp⟩ := path_forward (hinv.snaps 0) hok queryFrame_admitted hc.symm
  obtain ⟨key, j, hkey, hj, hu⟩ :=
    (sent_usable_iff demo_accepted h (by decide) (.refl _) hp rfl ho hsend).mpr id
  obtain rfl := Option.some.inj hkey
  exact ⟨W, h, o, ho, hsend, j, hj, hu⟩

/-- The client's host answers a reply from 10.0.0.2:53 to 10.0.0.1:1234 with
"port unreachable". -/
def errorFrame : Mbuf :=
  Mbuf.ofBytes
    [2, 0, 0, 0, 0, 1, 2, 0, 0, 0, 0, 2, 8, 0,
      69, 0, 0, 56, 0, 2, 0, 0, 64, 1, 102, 193, 10, 0, 0, 1, 10, 0, 0, 2,
      3, 3, 247, 237, 0, 0, 0, 0,
      69, 0, 0, 28, 0, 3, 0, 0, 63, 17, 103, 204, 10, 0, 0, 2, 10, 0, 0, 1,
      0, 53, 4, 210, 0, 8, 0, 0]
    8 (by decide)

/-- A real server is disabled and the worker has the snapshot that says so:
an ICMP error for a session of that server is still sent to it. -/
theorem error_reaches_disabled : ∃ W, Reach demo W ∧
    Returns (pathOf demo (W.snaps 0) errorFrame) (fun path =>
      path.towardServer = true ∧ path.key = some queryTuple) ∧
    (W.workers 0).sessions.lookup queryTuple = some 0 ∧
    ((W.snaps 0).rs ((W.workers 0).session 0).rsId).any (fun r => !r.usable) = true ∧
    Returns (processPacket demo noNeigh (W.workers 0) (W.snaps 0) errorFrame false) fun o => o.2.2 = .send :=
  exists_reach demo
    [.receive 0 queryFrame noNeigh, .command (.setEnabled 1 false), .command .publish, .turn 0]
    (by decide) (by decide +kernel)

/-! ### The counters of the real servers -/

/-- Every id of a real server that is published, in use or kept in a session
is below the size of the counter arrays, and no packet makes an access past
their end. -/
structure RsInBounds (dp : Dataplane) (W : World) : Prop where
  published : ∀ snap, W.mgr.cur = some snap → ∀ id ∈ snap.rsIds, id < kMaxRsCounters
  used : ∀ i, ∀ id ∈ (W.snaps i).rsIds, id < kMaxRsCounters
  sessions : ∀ i, i < dp.steering.n → ∀ j, (W.workers i).sessions.Live j →
    ((W.workers i).session j).rsId < kMaxRsCounters
  access : ∀ i, i < dp.steering.n → ∀ w, SameSessions (W.workers i) w → ∀ view m redirected id,
    processPacket dp view w (W.snaps i) m redirected ≠ .error (.index id kMaxRsCounters)

theorem rsIds_lt {snap : Snapshot} (hlt : dp.cfg.rsTotal < kMaxRsCounters) (hb : snap.Built dp.H dp.cfg) :
    ∀ id ∈ snap.rsIds, id < kMaxRsCounters := by
  intro id hid
  obtain ⟨r, hr, rfl⟩ := List.mem_map.mp hid
  have := hb.ids_lt r hr
  unfold kMaxRsId at this
  omega

/-- Which faults a snapshot of the system keeps away, if the counters are
large enough. -/
theorem safe_of_built (bad : Fault → Prop) {snap : Snapshot} (hlt : dp.cfg.rsTotal < kMaxRsCounters)
    (hb : snap.Built dp.H dp.cfg)
    (hdiv : bad .divZero → ∀ proto, (kNatPortMax - kNatPortMin + 1) / dp.steering.portStep proto ≠ 0) :
    snap.Safe bad dp := by
  refine ⟨hb.lookupSafe bad, hdiv, fun svc hsvc k hk _ => ?_, fun svc hsvc r hr _ => ?_, fun _ svc hsvc r hr => ?_⟩
  · obtain ⟨r, hr, -⟩ := hb.sched svc hsvc k hk
    exact (List.getElem?_eq_some_iff.mp hr).1
  · exact rsIds_lt hlt hb _ (List.mem_map_of_mem (List.mem_flatMap.mpr ⟨svc, hsvc, hr⟩))
  · rw [hb.rs_mem hsvc hr]
    rfl

theorem safe_of_workerOk (bad : Fault → Prop) {i : ℕ} {w : WorkerCtx} (hlt : dp.cfg.rsTotal < kMaxRsCounters)
    (hw : WorkerOk dp i w) : w.Safe bad := by
  intro key j hj _
  have := (hw.live j ((hw.fit.lookup_iff key j).mp hj).1).rsId
  change (w.session j).rsId < _ at this
  unfold kMaxRsId at this
  omega

theorem Inv.rsInBounds (h : Inv dp W) (hlt : dp.cfg.rsTotal < kMaxRsCounters) : RsInBounds dp W := by
  refine ⟨fun snap hs => ?_, fun i => rsIds_lt hlt (h.snaps i), fun i hi j hj => ?_, ?_⟩
  · obtain ⟨snap', hcur, hb⟩ := h.running.cur
    rw [hcur] at hs
    exact Option.some.inj hs ▸ rsIds_lt hlt hb
  · have := ((h.workers i hi).live j hj).rsId
    change ((W.workers i).session j).rsId < _ at this
    unfold kMaxRsId at this
    omega
  · intro i hi w hsame view m redirected id he
    have hsafe := safe_of_built (fun e => ∃ id, e = .index id kMaxRsCounters) hlt (h.snaps i) (by simp)
    have hw := (h.workers i hi).same hsame
    exact (processPacket_avoids hsafe (safe_of_workerOk _ hlt hw) view m redirected).1 _ he ⟨id, rfl⟩

/-- **The counters are large enough** in every state of every run if and only
if the configuration has fewer real servers than there are counters: the ids
start at 1. -/
theorem rs_counters_iff (hcfg : Config.Accepted dp.cfg) :
    (∀ W, Reach dp W → RsInBounds dp W) ↔ dp.cfg.rsTotal < kMaxRsCounters := by
  refine ⟨fun h => ?_, fun hlt W hW => (reach_inv hcfg hW).rsInBounds hlt⟩
  obtain ⟨W, hW, hinv, hids⟩ := boot_returns hcfg
  obtain ⟨snap, hcur, -⟩ := hinv.running.cur
  by_contra hge
  -- the last real server of the configuration has the id `rsTotal`
  have hmem : dp.cfg.rsTotal ∈ snap.rsIds := by
    rw [hids snap hcur, List.mem_range'_1]
    unfold kMaxRsCounters at hge
    omega
  exact hge ((h W (.boot hW)).published snap hcur _ hmem)

theorem rs_counters_demo : demo.cfg.rsTotal < kMaxRsCounters ∧ ∀ W, Reach demo W → RsInBounds demo W :=
  ⟨by decide, (rs_counters_iff demo_accepted).mpr (by decide)⟩

/-- 64 services with 256 real servers each, the limits of `validate`. -/
def fullConfig : LbConfig where
  maxSessions := 1024
  localIps := [0x0A01000A]
  hcSrc := 0x0A01000A
  services := (List.range 64).map fun i => {
    name := "web", vip := 0x0200000A, port := UInt16.ofNat (1000 + i),
    rs := (List.range 256).map fun j => { ip := UInt32.ofNat (j + 1), port := 80 } }

def fullSystem : Dataplane := { demo with cfg := fullConfig }

set_option maxRecDepth 20000 in
theorem fullConfig_accepted : Config.Accepted fullSystem.cfg := ⟨fullConfig, by decide, by decide, rfl⟩

/-- The largest configuration publishes a real server without a counter. -/
theorem full_config_exceeds_counters : ∃ W, Reach fullSystem W ∧ ∃ snap, W.mgr.cur = some snap ∧
    ∃ id ∈ snap.rsIds, ¬ id < kMaxRsCounters ∧
      ∀ (w : WorkerCtx) f, w.addRs id f = .error (.index id kMaxRsCounters) := by
  obtain ⟨W, hW, hinv, hids⟩ := boot_returns fullConfig_accepted
  obtain ⟨snap, hcur, -⟩ := hinv.running.cur
  refine ⟨W, .boot hW, snap, hcur, 16384, ?_, by decide, fun w f => if_neg (by decide)⟩
  rw [hids snap hcur, List.mem_range'_1, show fullSystem.cfg.rsTotal = 16384 by decide +kernel]
  omega

/-! ### No faults -/

theorem readClock_returns {i : ℕ} {w : WorkerCtx} (hw : WorkerOk dp i w) (tsc : UInt64) :
    Returns (w.readClock dp tsc) fun _ => True := by
  have hnow : (dp.clock.now tsc).tick.toNat < 2 ^ 64 - 1 := by
    have := (dp.clock.now tsc).ms.toNat_lt
    rw [Tsc.tick_toNat]
    omega
  obtain ⟨r, hr⟩ := Option.isSome_iff_exists.mp ((SessionTable.expire_spec hw.fit _).2 hnow)
  unfold WorkerCtx.readClock
  simp only [hr]
  exact .ok trivial

/-- **No step of the system faults**, if there is a counter for each real
server and a SNAT port for each worker. -/
theorem step_returns (hcfg : Config.Accepted dp.cfg) (hlt : dp.cfg.rsTotal < kMaxRsCounters)
    (hn : dp.steering.n ≤ kNatPortMax - kNatPortMin + 1) (h : Reach dp W) {ev : Event}
    (hv : ev.Valid dp.steering.n) : Returns (W.step dp ev) (Reach dp) := by
  have hinv := reach_inv hcfg h
  have hstep : ∀ W', W.step dp ev = .ok W' → Reach dp W' := fun W' hs => .step ev h hv hs
  have hpacket : ∀ {i w}, WorkerOk dp i w → ∀ view m redirected,
      Returns (processPacket dp view w (W.snaps i) m redirected) fun _ => True := by
    intro i w hw view m redirected
    have hdiv : ∀ proto, (kNatPortMax - kNatPortMin + 1) / dp.steering.portStep proto ≠ 0 := by
      intro proto
      have hpos := dp.steering.n_pos
      unfold Steering.portStep
      split
      · decide
      · exact (Nat.div_pos hn hpos).ne'
    have hsafe := safe_of_built (fun _ => True) hlt (hinv.snaps i) fun _ => hdiv
    have ha := processPacket_avoids hsafe (safe_of_workerOk _ hlt hw) view m redirected
    cases ho : processPacket dp view w (W.snaps i) m redirected with
    | error e => exact absurd trivial (ha.1 e ho)
    | ok o => exact .ok trivial
  suffices hret : Returns (W.step dp ev) fun _ => True by
    obtain ⟨W', hW', -⟩ := hret
    exact ⟨W', hW', hstep W' hW'⟩
  cases ev with
  | receive i m view =>
    refine Returns.bind (hpacket ?_ view m false) fun o _ => .ok trivial
    exact (hinv.workers i hv).same (sameSessions_received dp _ m)
  | takeRedirected i view =>
    simp only [World.step]
    cases W.rings i with
    | nil => exact .ok trivial
    | cons m rest =>
      exact Returns.bind (hpacket ((hinv.workers i hv).same (.count _ _)) view m true) fun o _ => .ok trivial
  | turn i =>
    obtain ⟨snap, hcur, -⟩ := hinv.running.cur
    simp only [World.step, hcur]
    split
    · exact .ok trivial
    · exact .ok trivial
  | readClock i tsc => exact Returns.bind (readClock_returns (hinv.workers i hv) tsc) fun _ _ => .ok trivial
  | command c =>
    exact Returns.bind (SnapshotManager.Command.run_returns hcfg.valid hinv.running c) fun _ _ => .ok trivial

theorem step_returns_query :
    ∃ W, Reach demo W ∧ Returns (W.step demo (.receive 0 queryFrame noNeigh)) (Reach demo) := by
  obtain ⟨W, hW, -⟩ := boot_returns demo_accepted
  exact ⟨W, .boot hW, step_returns demo_accepted (by decide) (by decide) (.boot hW) (by decide)⟩

end World

end L4Lb
