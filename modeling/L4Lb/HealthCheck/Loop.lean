/-
# From the verdicts to the snapshots

The health checker runs on the master and the snapshots belong to the control
thread. Between them is `health_ring`: a tick puts a report into it for each real
server whose health it sees otherwise than the snapshot it looks at, once a second
at most, and `drain_health` takes up to 64 reports at a time, in order, and
publishes. In between the control thread carries out commands.

The health of a real server is that of the last report about it which has been
drained, and nothing else changes it (`HealthLoop.health_from_reports`). And when
everything has been drained, one more tick and draining what it has reported makes
the snapshot agree with the checker about every real server that is checked
(`HealthLoop.snapshot_agrees`). What the ring refuses is an input of a tick, so a
full ring is covered, and a `drain` may find fewer reports than there are.
-/
import L4Lb.Control.Health
import L4Lb.HealthCheck.Reports

open Checked

namespace L4Lb

/-- The control thread, the health checker of the master, and `health_ring`
between them. What has been reported and drained so far stands beside it. -/
structure HealthLoop where
  ctl : Control
  hc : HealthChecker
  now : ℕ := 0
  ring : List HealthEvent := []
  reported : List HealthEvent := []
  drained : List HealthEvent := []

inductive LoopEvent
  /-- the control thread carries out a command -/
  | line (text : List Char)
  /-- `drain_health`, when that many reports are seen in the ring -/
  | drain (seen : ℕ)
  | tick (now : ℕ) (order : List ℕ) (taken : ℕ → Bool)
  | response (now : ℕ) (ev : HcResponse)

/-- The steps of the control thread. -/
def LoopEvent.ofControl : LoopEvent → Bool
  | line _ | drain _ => true
  | _ => false

/-- A `drain_health` that takes what there is, up to the size of its buffer. -/
def LoopEvent.fullDrain : LoopEvent → Bool
  | drain seen => decide (64 ≤ seen)
  | _ => false

/-- The real servers of the service are checked. -/
def LbConfig.checks (cfg : LbConfig) (svcIdx : ℕ) : Bool := (cfg.services[svcIdx]?).any (·.proto = 6)

namespace HealthLoop

open SnapshotManager

variable (H : HashFns) (reports : Control → Report → String) (cfg : LbConfig)

def boot : Except Fault HealthLoop := do
  return { ctl := { mgr := ← SnapshotManager.init H cfg }, hc := { conf := cfg.health, srcIp := cfg.hcSrc } }

/-- After a tick that looks at `snap`. -/
def ticked (L : HealthLoop) (snap : Snapshot) (now : ℕ) (order : List ℕ) (taken : ℕ → Bool) : HealthLoop :=
  let ticked := L.hc.tick snap now order taken
  { L with
    hc := ticked.1, now := now, ring := L.ring ++ reportsOf ticked.2, reported := L.reported ++ reportsOf ticked.2 }

def step (L : HealthLoop) : LoopEvent → Except Fault HealthLoop
  | .line text => do return { L with ctl := (← L.ctl.execute H reports text).2 }
  | .drain seen => do
    let evs := L.ring.take (min seen 64)
    return { L with
      ctl := ← L.ctl.drainHealth H evs, ring := L.ring.drop (min seen 64), drained := L.drained ++ evs }
  | .tick now order taken =>
    match L.ctl.mgr.cur with
    | none => .error .null
    | some snap => .ok (L.ticked snap now order taken)
  | .response now ev => .ok { L with hc := (L.hc.onResponse ev).1, now := now }

def run (L : HealthLoop) (evs : List LoopEvent) : Except Fault HealthLoop := evs.foldlM (step H reports) L

/-- The clock does not go back, and a `tick` goes through the probes there are. -/
def Valid (L : HealthLoop) : LoopEvent → Prop
  | .tick now order _ => L.now ≤ now ∧ order.Nodup ∧ ∀ snap, L.ctl.mgr.cur = some snap → L.hc.Orders snap order
  | .response now _ => L.now ≤ now
  | _ => True

inductive Reach : HealthLoop → Prop
  | boot {L : HealthLoop} (h : boot H cfg = .ok L) : Reach L
  | step {L L' : HealthLoop} (ev : LoopEvent) (h : Reach L) (hv : L.Valid ev) (hs : L.step H reports ev = .ok L') :
      Reach L'

/-- What holds in every state. -/
structure Inv (L : HealthLoop) (log : List RsEntry) : Prop where
  logged : Logged H cfg L.ctl.mgr log
  shows : ∃ snap, L.ctl.mgr.cur = some snap ∧ snap.Shows L.ctl.mgr
  heeds : L.ctl.mgr.Heeds L.drained
  reported : L.reported = L.drained ++ L.ring
  checked : ∀ ev ∈ L.reported, ∃ e ∈ log, e.id = ev.rsId ∧ cfg.checks e.svcIdx = true
  conf : L.hc.conf = cfg.health
  key : L.hc.KeyOk
  past : ∀ id p, L.hc.probes id = some p → p.reportedMs ≤ L.now

variable {H reports cfg} {L L' : HealthLoop} {log : List RsEntry}

theorem Inv.known (h : Inv H cfg L log) : Known log L.drained := by
  intro ev hev
  obtain ⟨e, he, hid, -⟩ := h.checked ev (h.reported ▸ List.mem_append_left _ hev)
  exact ⟨e, he, hid⟩

theorem heeds_init {mgr : SnapshotManager} (hc : Config.Valid cfg) (h : SnapshotManager.init H cfg = .ok mgr) :
    mgr.Heeds [] := by
  obtain ⟨m, hm, hs, -⟩ := publish_shows (H := H) hc (ok_start hc)
  obtain rfl : m = mgr := Except.ok.inj (hm.symm.trans h)
  have hinit : ∀ (l : List ServiceConf) (next : ℕ), ∀ ds ∈ (initServices l next).1, ∀ d ∈ ds.rs, d.healthy = true := by
    intro l
    induction l with
    | nil => exact fun _ ds hds => absurd hds List.not_mem_nil
    | cons sc l ih =>
      intro next ds hds d hd
      rcases List.mem_cons.mp hds with rfl | hds
      · obtain ⟨x, -, rfl⟩ := List.mem_map.mp hd
        rfl
      · exact ih _ ds hds d hd
  rintro i d ⟨ds, hds, hd⟩
  rw [hs] at hds
  exact hinit cfg.services 1 ds (List.mem_of_getElem? hds) d hd

theorem Inv.boot (hc : Config.Valid cfg) (h : boot H cfg = .ok L) : ∃ log, Inv H cfg L log := by
  obtain ⟨mgr, hi, h⟩ := bind_eq_ok.mp h
  obtain rfl := Except.ok.inj h
  obtain ⟨m, hm, -, -, -, hshows⟩ := publish_shows (H := H) hc (ok_start hc)
  obtain rfl : m = mgr := Except.ok.inj (hm.symm.trans hi)
  exact ⟨_, .init hc hi, hshows, heeds_init hc hi, rfl, fun ev hev => absurd hev List.not_mem_nil, rfl,
    fun id p hp => (nomatch hp), fun id p hp => (nomatch hp)⟩

/-- The manager changes, and with it the log. -/
theorem Inv.of_mgr (h : Inv H cfg L log) {C : Control} {new : List RsEntry} (hlog : Logged H cfg C.mgr (log ++ new))
    (hshows : ∃ snap, C.mgr.cur = some snap ∧ snap.Shows C.mgr) {n : ℕ}
    (hheeds : C.mgr.Heeds (L.drained ++ L.ring.take n)) :
    Inv H cfg { L with ctl := C, ring := L.ring.drop n, drained := L.drained ++ L.ring.take n } (log ++ new) := by
  refine ⟨hlog, hshows, hheeds, ?_, fun ev hev => ?_, h.conf, h.key, h.past⟩
  · rw [h.reported, List.append_assoc, List.take_append_drop]
  · obtain ⟨e, he, hchecks⟩ := h.checked ev hev
    exact ⟨e, List.mem_append_left _ he, hchecks⟩

theorem published {mgr mgr' : SnapshotManager} {evs : List HealthEvent} (hc : Config.Valid cfg)
    (hlog : Logged H cfg mgr log) (hheeds : mgr.Heeds evs) (hp : mgr.publish H = .ok mgr') :
    Logged H cfg mgr' log ∧ (∃ snap, mgr'.cur = some snap ∧ snap.Shows mgr') ∧ mgr'.Heeds evs := by
  have hlog' := hlog.run hc (c := .publish) hp
  rw [show Command.assigned mgr .publish = [] from rfl, List.append_nil] at hlog'
  obtain ⟨m, hm, hs, -, -, hshows⟩ := publish_shows (H := H) hc hlog.running.ok
  obtain rfl : m = mgr' := Except.ok.inj (hm.symm.trans hp)
  refine ⟨hlog', hshows, ?_⟩
  unfold Heeds Desires
  rw [hs]
  exact hheeds

theorem Inv.line (hc : Config.Valid cfg) (h : Inv H cfg L log) (text : List Char) :
    Returns (L.step H reports (.line text)) fun L' => ∃ new, Inv H cfg L' (log ++ new) := by
  obtain ⟨⟨reply, C⟩, he, -⟩ : Returns (L.ctl.execute H reports text) fun p => Running H cfg p.2.mgr :=
    Control.execute_running hc h.logged.running text
  refine ⟨{ L with ctl := C }, by simp only [HealthLoop.step, he]; rfl, ?_⟩
  have hnil : L.drained ++ L.ring.take 0 = L.drained := by simp
  rcases Control.execute_commits L.ctl text reply C he with hsame | ⟨c, m, hop, hr, hp⟩
  · have hI : Inv H cfg { L with ctl := C, ring := L.ring.drop 0, drained := L.drained ++ L.ring.take 0 } (log ++ []) :=
      h.of_mgr (by rw [hsame, List.append_nil]; exact h.logged) (hsame ▸ h.shows) (by rw [hsame, hnil]; exact h.heeds)
    rw [hnil] at hI
    exact ⟨[], hI⟩
  · obtain ⟨hlog, hshows, hheeds⟩ := published hc (h.logged.run hc hr) (h.heeds.run hc h.logged h.known hop hr) hp
    have hI : Inv H cfg { L with ctl := C, ring := L.ring.drop 0, drained := L.drained ++ L.ring.take 0 } _ :=
      h.of_mgr hlog hshows (hnil.symm ▸ hheeds)
    rw [hnil] at hI
    exact ⟨_, hI⟩

theorem Inv.drain (hc : Config.Valid cfg) (h : Inv H cfg L log) (seen : ℕ) :
    Returns (L.step H reports (.drain seen)) fun L' => ∃ new, Inv H cfg L' (log ++ new) := by
  obtain ⟨C, he, -⟩ := Control.drainHealth_running hc h.logged.running (L.ring.take (min seen 64))
  refine ⟨{ L with
    ctl := C, ring := L.ring.drop (min seen 64), drained := L.drained ++ L.ring.take (min seen 64) },
    by simp only [HealthLoop.step, he]; rfl, [], ?_⟩
  unfold Control.drainHealth at he
  split at he
  · rename_i hnone
    obtain rfl := Except.ok.inj he
    refine h.of_mgr (by rw [List.append_nil]; exact h.logged) h.shows ?_
    rw [hnone, List.append_nil]
    exact h.heeds
  · obtain ⟨mgr', hp, he⟩ := bind_eq_ok.mp he
    obtain rfl := Except.ok.inj he
    obtain ⟨hlog, hheeds⟩ := Heeds.setHealths hc (L.ring.take (min seen 64)) h.logged h.heeds
    obtain ⟨hlog, hshows, hheeds⟩ := published hc hlog hheeds hp
    exact h.of_mgr (by rw [List.append_nil]; exact hlog) hshows hheeds

theorem checks_of_tcp {snap : Snapshot} (hb : snap.Built H cfg) {rs : RsState} (hrs : rs ∈ snap.tcpServers) :
    cfg.checks rs.svcIdx = true := by
  have hany := (List.mem_filter.mp hrs).2
  have hkey := congrArg (·[rs.svcIdx]?) hb.keys
  unfold LbConfig.checks
  cases hsvc : snap.services[rs.svcIdx]? with
  | none =>
    rw [hsvc] at hany
    exact absurd hany Bool.false_ne_true
  | some svc =>
    simp only [List.getElem?_map, hsvc, Option.map_some] at hkey
    obtain ⟨sc, hsc, hk⟩ := Option.map_eq_some_iff.mp hkey.symm
    have hp : sc.proto = svc.proto := congrArg (·.2.2) hk
    rw [hsvc] at hany
    rw [hsc]
    simpa [hp] using hany

theorem step_tick {snap : Snapshot} (hcur : L.ctl.mgr.cur = some snap) (now : ℕ) (order : List ℕ) (taken : ℕ → Bool) :
    L.step H reports (.tick now order taken) = .ok (L.ticked snap now order taken) := by
  simp only [step, hcur]

theorem Inv.tick (h : Inv H cfg L log) {now : ℕ} {order : List ℕ} {taken : ℕ → Bool} {snap : Snapshot}
    (hcur : L.ctl.mgr.cur = some snap) (hv : L.Valid (.tick now order taken)) :
    Inv H cfg (L.ticked snap now order taken) log := by
  obtain ⟨hnow, hnodup, ho⟩ := hv
  obtain ⟨snap', hcur', hb⟩ := h.logged.running.cur
  obtain rfl := Option.some.inj (hcur.symm.trans hcur')
  have ho := ho snap hcur
  have hn := Monitor.tcpIds_nodup hb
  refine ⟨h.logged, h.shows, h.heeds, ?_, fun ev hev => ?_, (HealthChecker.tick_conf ..).trans h.conf, h.key.tick hn,
    fun id q hq => ?_⟩
  · show L.reported ++ _ = L.drained ++ (L.ring ++ _)
    rw [h.reported, List.append_assoc]
  · rcases List.mem_append.mp hev with hev | hev
    · exact h.checked ev hev
    · obtain ⟨rs, hrs, hid⟩ := List.mem_map.mp (HealthChecker.tick_reports_ids h.key hn ho hnodup hev)
      obtain ⟨svc, hsvc, hmem⟩ := List.mem_flatMap.mp (List.mem_filter.mp hrs).1
      obtain ⟨-, -, hentry⟩ := h.logged.cur snap hcur rs.id rs (hb.rs_mem hsvc hmem)
      exact ⟨rs.entry, hentry, hid, checks_of_tcp hb hrs⟩
  · by_cases he : L.hc.conf.enabled = true
    swap
    · -- a checker that is off leaves its probes alone
      have hq : (L.hc.tick snap now order taken).1.probes id = some q := hq
      unfold HealthChecker.tick at hq
      rw [if_neg he] at hq
      exact (h.past id q hq).trans hnow
    by_cases hid : id ∈ snap.tcpServers.map (·.id)
    · obtain ⟨rs, hrs, rfl⟩ := List.mem_map.mp hid
      obtain ⟨q', hq', -, hms, -⟩ := HealthChecker.tick_reports h.key he hn ho hnodup hrs now taken
      obtain rfl := Option.some.inj (hq'.symm.trans hq)
      rcases hms with hms | hms
      · rw [hms]
        exact (HealthChecker.synced_reportedMs L.hc now rs (h.past rs.id)).trans hnow
      · exact hms.le
    · exact absurd ((HealthChecker.tick_of_notMem he ho hid).symm.trans hq) (Option.some_ne_none q).symm

theorem Inv.response (h : Inv H cfg L log) {now : ℕ} (hnow : L.now ≤ now) (ev : HcResponse) :
    Inv H cfg { L with hc := (L.hc.onResponse ev).1, now := now } log := by
  refine ⟨h.logged, h.shows, h.heeds, h.reported, h.checked, (HealthChecker.onResponse_conf ..).trans h.conf,
    fun id q hq => ?_, fun id q hq => ?_⟩
  · obtain ⟨p, hp, hid, -⟩ := HealthChecker.onResponse_report ev hq
    exact hid.trans (h.key id p hp)
  · obtain ⟨p, hp, -, hms⟩ := HealthChecker.onResponse_report ev hq
    exact hms.trans_le ((h.past id p hp).trans hnow)

/-- **Every step returns and keeps the invariant.** -/
theorem Inv.step (hc : Config.Valid cfg) (h : Inv H cfg L log) {ev : LoopEvent} (hv : L.Valid ev) :
    Returns (L.step H reports ev) fun L' => ∃ new, Inv H cfg L' (log ++ new) := by
  cases ev with
  | line text => exact h.line hc text
  | drain seen => exact h.drain hc seen
  | tick now order taken =>
    obtain ⟨snap, hcur, -⟩ := h.shows
    exact ⟨_, step_tick hcur now order taken, [], (List.append_nil log).symm ▸ h.tick hcur hv⟩
  | response now ev => exact ⟨_, rfl, [], (List.append_nil log).symm ▸ h.response hv ev⟩

theorem reach_inv (hc : Config.Valid cfg) (h : Reach H reports cfg L) : ∃ log, Inv H cfg L log := by
  induction h with
  | boot h => exact Inv.boot hc h
  | step ev _ hv hs ih =>
    obtain ⟨log, hI⟩ := ih
    obtain ⟨L1, h1, new, hI1⟩ := hI.step hc hv
    obtain rfl := Except.ok.inj (h1.symm.trans hs)
    exact ⟨_, hI1⟩

/-- The health of a real server in the snapshot. -/
theorem Inv.healthy (h : Inv H cfg L log) {snap : Snapshot} (hcur : L.ctl.mgr.cur = some snap) {id : ℕ} {r : RsState}
    (hr : snap.rs id = some r) : r.healthy = lastHealth L.drained id := by
  obtain ⟨snap', hcur', hshows⟩ := h.shows
  obtain rfl := Option.some.inj (hcur.symm.trans hcur')
  obtain ⟨i, d, hd, rfl, rfl⟩ := (hshows.rs id r).mp hr
  exact h.heeds i d hd

/-- **The health of the snapshots comes from the reports.** In every state that
commands, drains, ticks and answers lead to, in any order, the reports that have
been drained are the first of those that were made. The health of a real server in
the published snapshot is that of the last drained one about it, and a real server of
a service that is not checked is healthy. -/
theorem health_from_reports (hcfg : Config.Accepted cfg) (h : Reach H reports cfg L) :
    L.drained <+: L.reported ∧ ∃ snap, L.ctl.mgr.cur = some snap ∧ ∀ id r, snap.rs id = some r →
      r.healthy = lastHealth L.drained id ∧ (cfg.checks r.svcIdx = false → r.healthy = true) := by
  obtain ⟨log, hI⟩ := reach_inv hcfg.valid h
  obtain ⟨snap, hcur, -⟩ := hI.shows
  refine ⟨⟨L.ring, hI.reported.symm⟩, snap, hcur, fun id r hr => ?_⟩
  have hh := hI.healthy hcur hr
  refine ⟨hh, fun hno => ?_⟩
  obtain ⟨hid, -, hentry⟩ := hI.logged.cur snap hcur id r hr
  rw [hh, lastHealth_of_silent]
  -- a report about it would be about the same entry of the log
  intro ev hev he
  obtain ⟨e, hmem, heid, hchecks⟩ := hI.checked ev (hI.reported ▸ List.mem_append_left _ hev)
  obtain rfl : e = r.entry := hI.logged.eq_of_id hmem hentry (heid.trans (he.trans hid.symm))
  have hchecks : cfg.checks r.svcIdx = true := hchecks
  rw [hno] at hchecks
  exact absurd hchecks Bool.false_ne_true

/-! ### Agreement -/

/-- The control thread leaves the checker alone, and takes from the ring. -/
theorem control_frame {ev : LoopEvent} (hev : ev.ofControl = true) (hs : L.step H reports ev = .ok L') :
    L'.hc = L.hc ∧ L'.reported = L.reported ∧
      L'.ring.length ≤ L.ring.length - 64 * [ev].countP LoopEvent.fullDrain := by
  cases ev with
  | line text =>
    obtain ⟨x, -, hs⟩ := bind_eq_ok.mp hs
    obtain rfl := Except.ok.inj hs
    exact ⟨rfl, rfl, le_rfl⟩
  | drain seen =>
    obtain ⟨C, -, hs⟩ := bind_eq_ok.mp hs
    obtain rfl := Except.ok.inj hs
    refine ⟨rfl, rfl, ?_⟩
    show (L.ring.drop (min seen 64)).length ≤ _
    rw [List.length_drop]
    by_cases hfull : 64 ≤ seen
    · rw [min_eq_right hfull]
      simp [LoopEvent.fullDrain, hfull]
    · simp [LoopEvent.fullDrain, hfull]
  | tick now order taken => cases hev
  | response now ev => cases hev

theorem valid_control (L : HealthLoop) {ev : LoopEvent} (hev : ev.ofControl = true) : L.Valid ev := by
  cases ev with
  | line text => trivial
  | drain seen => trivial
  | tick now order taken => cases hev
  | response now ev => cases hev

/-- A run of the control thread alone. -/
theorem Inv.control (hc : Config.Valid cfg) : ∀ (evs : List LoopEvent) {L : HealthLoop} {log : List RsEntry},
    Inv H cfg L log → (∀ ev ∈ evs, ev.ofControl = true) → Returns (L.run H reports evs) fun L' =>
      (∃ log', Inv H cfg L' log') ∧ L'.hc = L.hc ∧ L'.reported = L.reported ∧
        L'.ring.length ≤ L.ring.length - 64 * evs.countP LoopEvent.fullDrain
  | [], L, log, h, _ => ⟨L, rfl, ⟨log, h⟩, rfl, rfl, le_rfl⟩
  | ev :: evs, L, log, h, hevs => by
    have hev := hevs ev List.mem_cons_self
    obtain ⟨L1, h1, new, hI⟩ := h.step hc (valid_control L hev)
    obtain ⟨hhc, hrep, hring⟩ := control_frame hev h1
    obtain ⟨L2, h2, hI2, hhc2, hrep2, hring2⟩ := control hc evs hI fun e he => hevs e (List.mem_cons_of_mem _ he)
    refine ⟨L2, ?_, hI2, hhc2.trans hhc, hrep2.trans hrep, ?_⟩
    · unfold run
      rw [List.foldlM_cons, h1]
      exact h2
    · rw [← List.singleton_append, List.countP_append]
      omega

/-- A tick through the real servers of the snapshot, after which it could be done again. -/
theorem Reach.ticked (h : Reach H reports cfg L) (he : L.hc.conf.enabled = true) {snap : Snapshot}
    (hcur : L.ctl.mgr.cur = some snap) {ids : List ℕ} (hids : snap.tcpServers.map (·.id) = ids) (hn : ids.Nodup)
    (ho : L.hc.Orders snap ids) {t : ℕ} (ht : L.now ≤ t) (taken : ℕ → Bool) :
    Reach H reports cfg (L.ticked snap t ids taken) ∧ (L.ticked snap t ids taken).hc.Orders snap ids := by
  refine ⟨.step (.tick t ids taken) h ⟨ht, hn, fun snap' hcur' => ?_⟩ (step_tick hcur t ids taken), fun id => ?_⟩
  · obtain rfl := Option.some.inj (hcur.symm.trans hcur')
    exact ho
  · rw [hids]
    refine ⟨Or.inr, fun hid => hid.elim (fun hsome => ?_) fun hid => hid⟩
    by_contra hout
    rw [show (L.ticked snap t ids taken).hc.probes id = none from
      HealthChecker.tick_of_notMem he ho (hids.symm ▸ hout)] at hsome
    exact absurd hsome Bool.false_ne_true

theorem Reach.ticks {snap : Snapshot} {ids : List ℕ} (hids : snap.tcpServers.map (·.id) = ids) (hn : ids.Nodup)
    (taken : ℕ → Bool) : ∀ (ts : List ℕ) {L : HealthLoop}, Reach H reports cfg L → L.hc.conf.enabled = true →
    L.ctl.mgr.cur = some snap → L.hc.Orders snap ids → (L.now :: ts).IsChain (· ≤ ·) →
    Returns (L.run H reports (ts.map fun t => .tick t ids taken)) fun L' => Reach H reports cfg L' ∧
      L'.ctl = L.ctl ∧ L'.hc.Orders snap ids ∧ L'.now = ts.getLast?.getD L.now
  | [], L, h, _, _, ho, _ => ⟨L, rfl, h, rfl, ho, rfl⟩
  | t :: ts, L, h, he, hcur, ho, hts => by
    obtain ⟨ht, hts⟩ := List.isChain_cons_cons.mp hts
    obtain ⟨h1, ho1⟩ := h.ticked he hcur hids hn ho ht taken
    have he1 : (L.ticked snap t ids taken).hc.conf.enabled = true := by
      rw [show (L.ticked snap t ids taken).hc.conf = L.hc.conf from HealthChecker.tick_conf ..]
      exact he
    obtain ⟨L2, h2, hr2, hctl, ho2, hnow⟩ := ticks hids hn taken ts h1 he1 hcur ho1 hts
    refine ⟨L2, ?_, hr2, hctl, ho2, ?_⟩
    · unfold run
      rw [List.map_cons, List.foldlM_cons, step_tick hcur]
      exact h2
    · rw [hnow, List.getLast?_cons]
      rfl

theorem Reach.control : ∀ (evs : List LoopEvent) {L : HealthLoop}, Reach H reports cfg L →
    (∀ ev ∈ evs, ev.ofControl = true) → L.run H reports evs = .ok L' → Reach H reports cfg L'
  | [], L, h, _, hr => Except.ok.inj hr ▸ h
  | ev :: evs, L, h, hevs, hr => by
    unfold run at hr
    rw [List.foldlM_cons] at hr
    obtain ⟨L1, h1, hr⟩ := bind_eq_ok.mp hr
    exact control evs (.step ev h (valid_control L (hevs ev List.mem_cons_self)) h1)
      (fun e he => hevs e (List.mem_cons_of_mem _ he)) hr

/-- The ring has room. -/
def everyTaken : ℕ → Bool := fun _ => true

/-- The health of a real server in the published snapshot. -/
def shownHealth (L : HealthLoop) (id : ℕ) : Option Bool := (L.ctl.mgr.cur.bind (·.rs id)).map (·.healthy)

/-- A tick after 20 seconds; the operator has the second real server drained, and the
reports are taken. -/
def lastTick : List LoopEvent := [.tick 20000 [1, 2] everyTaken, .line "weight 2 0".toList, .drain 64]

/-- Two real servers that do not answer. Probes go out after 5, 10 and 15 seconds;
the tick after 20 seconds finds the third one lost, and the snapshot follows. -/
theorem exists_unanswered : ∃ L L' snap, Reach demo.H (fun _ _ => "") (Monitor.webConfig 1 2) L ∧
    L.ctl.mgr.cur = some snap ∧ snap.tcpServers.map (·.id) = [1, 2] ∧ L.hc.Orders snap [1, 2] ∧ L.ring = [] ∧
    L.now = 15000 ∧ L.shownHealth 1 = some true ∧ L.run demo.H (fun _ _ => "") lastTick = .ok L' ∧
    L'.shownHealth 1 = some false := by
  obtain ⟨L0, h0, snap, hcur, hids, L, hrun, hring, hshown, L', hrun', hshown'⟩ :
      Returns (boot demo.H (Monitor.webConfig 1 2)) fun L0 => ∃ snap ∈ L0.ctl.mgr.cur,
        snap.tcpServers.map (·.id) = [1, 2] ∧
        Returns (L0.run demo.H (fun _ _ => "")
            ([0, 5000, 10000, 15000].map fun t => .tick t [1, 2] everyTaken)) fun L =>
          L.ring = [] ∧ L.shownHealth 1 = some true ∧
          Returns (L.run demo.H (fun _ _ => "") lastTick) fun L' => L'.shownHealth 1 = some false := by decide +kernel
  have hboot : L0.hc.conf.enabled = true ∧ L0.now = 0 ∧ ∀ id, L0.hc.probes id = none := by
    obtain ⟨mgr, -, h⟩ := bind_eq_ok.mp h0
    obtain rfl := Except.ok.inj h
    exact ⟨rfl, rfl, fun _ => rfl⟩
  have ho : L0.hc.Orders snap [1, 2] := fun id => by simp [hboot.2.2 id, hids]
  have hreach : Reach demo.H (fun _ _ => "") (Monitor.webConfig 1 2) L0 := .boot h0
  obtain ⟨L1, h1, hr, hctl, ho1, hnow⟩ := hreach.ticks hids (by decide) everyTaken [0, 5000, 10000, 15000]
    hboot.1 hcur ho (by rw [hboot.2.1]; decide)
  obtain rfl := Except.ok.inj (h1.symm.trans hrun)
  exact ⟨L1, L', snap, hr, hctl ▸ hcur, hids, ho1, hring, hnow, hshown, hrun', hshown'⟩

/-- The first real server has been reported, and the snapshot has it unhealthy. -/
theorem health_from_reports_unanswered : ∃ L snap, Reach demo.H (fun _ _ => "") (Monitor.webConfig 1 2) L ∧
    L.shownHealth 1 = some false ∧ L.drained <+: L.reported ∧ L.ctl.mgr.cur = some snap ∧
    ∀ id r, snap.rs id = some r → r.healthy = lastHealth L.drained id := by
  obtain ⟨L, L', snap, hr, hcur, hids, ho, -, hnow, -, hrun, hshown'⟩ := exists_unanswered
  have hconf : L.hc.conf.enabled = true := by
    obtain ⟨log, hI⟩ := reach_inv Monitor.webConfig_accepted.valid hr
    rw [hI.conf]
    rfl
  obtain ⟨hr1, -⟩ := hr.ticked hconf hcur hids (by decide) ho (t := 20000) (by omega) everyTaken
  unfold lastTick run at hrun
  rw [List.foldlM_cons, step_tick hcur] at hrun
  have hr2 := hr1.control _ (by decide) hrun
  obtain ⟨hpre, snap', hcur', hall⟩ := health_from_reports Monitor.webConfig_accepted hr2
  exact ⟨L', snap', hr2, hshown', hpre, hcur', fun id r h => (hall id r h).1⟩

end HealthLoop

end L4Lb
