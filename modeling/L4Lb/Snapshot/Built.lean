/-
# What the snapshot manager publishes

`Ok cfg mgr` holds of the manager from `init` on, through every command: the
mode, the local addresses and the services are those of the configuration,
no two real servers have the same id, and no service has more of them than
`validate` and `add_rs` admit. From such a manager `build` always
returns, with a snapshot in which the lookups answer as the configuration
says, `rs` finds exactly the real servers of the services, and every scheduler
picks a real server that takes new sessions (`Snapshot.Built`).
-/
import L4Lb.Snapshot.Lookup
import L4Lb.Scheduler.Built

open Checked

namespace L4Lb

/-- The number of real servers in a configuration. -/
def LbConfig.rsTotal (c : LbConfig) : ℕ := (c.services.map (·.rs.length)).sum

namespace SnapshotManager

variable {H : HashFns} {cfg : LbConfig}

/-- The ids of the real servers, in order. -/
def idsOf (services : List DesiredService) : List ℕ := services.flatMap fun ds => ds.rs.map (·.id)

@[simp] theorem idsOf_cons (ds : DesiredService) (l : List DesiredService) :
    idsOf (ds :: l) = ds.rs.map (·.id) ++ idsOf l := by simp [idsOf]

/-- What stays from the configuration, and what keeps the ids apart. -/
structure Ok (cfg : LbConfig) (mgr : SnapshotManager) : Prop where
  mode : mgr.mode = cfg.mode
  localIps : mgr.localIps = if cfg.mode = .nat then cfg.localIps else []
  hcSrc : mgr.hcSrc = cfg.hcSrc
  confs : mgr.services.map (·.conf) = cfg.services
  ids_nodup : (idsOf mgr.services).Nodup
  ids_lt : ∀ id ∈ idsOf mgr.services, id < mgr.nextRsId
  next_le : mgr.nextRsId ≤ max (cfg.rsTotal + 1) kMaxRsId
  rs_le : ∀ ds ∈ mgr.services, ds.rs.length ≤ kMaxRsPerService

/-! ### The commands -/

theorem modifyRs_some {id : ℕ} {f : DesiredRs → DesiredRs} (hf : ∀ r, (f r).id = r.id) :
    ∀ {l l' : List DesiredService}, modifyRs id f l = some l' →
    idsOf l' = idsOf l ∧ l'.map (·.conf) = l.map (·.conf) ∧ l'.map (·.rs.length) = l.map (·.rs.length)
  | ds :: rest, l', h => by
    unfold modifyRs at h
    split at h
    · obtain rfl := Option.some.inj h
      have hmap : ∀ (k : ℕ) (rs : List DesiredRs), (rs.modify k f).map (·.id) = rs.map (·.id) := by
        intro k rs
        refine List.ext_getElem (by simp) fun i h1 h2 => ?_
        simp only [List.getElem_map, List.getElem_modify]
        split
        · rw [hf]
        · rfl
      simp [hmap]
    · obtain ⟨l1, h1, rfl⟩ := Option.map_eq_some_iff.mp h
      obtain ⟨hids, hconf, hlen⟩ := modifyRs_some hf h1
      simp [hids, hconf, hlen]

theorem eraseRs_some {id : ℕ} : ∀ {l l' : List DesiredService}, eraseRs id l = some l' →
    (idsOf l').Sublist (idsOf l) ∧ l'.map (·.conf) = l.map (·.conf) ∧
      ∀ n, (∀ ds ∈ l, ds.rs.length ≤ n) → ∀ ds ∈ l', ds.rs.length ≤ n
  | ds :: rest, l', h => by
    unfold eraseRs at h
    split at h
    · obtain rfl := Option.some.inj h
      simp only [idsOf_cons, List.map_cons, List.forall_mem_cons, true_and]
      have hsub := List.eraseIdx_sublist (l := ds.rs)
      exact ⟨((hsub _).map _).append (.refl _), fun n hn => ⟨(hsub _).length_le.trans hn.1, hn.2⟩⟩
    · obtain ⟨l1, h1, rfl⟩ := Option.map_eq_some_iff.mp h
      obtain ⟨hids, hconf, hlen⟩ := eraseRs_some h1
      simp only [idsOf_cons, List.map_cons, hconf, List.forall_mem_cons, true_and]
      exact ⟨(List.Sublist.refl _).append hids, fun n hn => ⟨hn.1, hlen n hn.2⟩⟩

theorem idsOf_set {r : DesiredRs} : ∀ {l : List DesiredService} {k : ℕ} {ds : DesiredService}, l[k]? = some ds →
    (idsOf (l.set k { ds with rs := ds.rs ++ [r] })).Perm (r.id :: idsOf l) ∧
      (l.set k { ds with rs := ds.rs ++ [r] }).map (·.conf) = l.map (·.conf)
  | d :: rest, 0, ds, h => by
    obtain rfl : d = ds := by simpa using h
    simp only [List.set_cons_zero, idsOf_cons, List.map_append, List.map_cons, List.map_nil, and_true,
      List.append_assoc, List.singleton_append]
    exact List.perm_middle
  | d :: rest, k + 1, ds, h => by
    obtain ⟨hp, hc⟩ := idsOf_set (r := r) (l := rest) (k := k) (by simpa using h)
    simp only [List.set_cons_succ, idsOf_cons, List.map_cons, hc, and_true]
    exact (hp.append_left _).trans List.perm_middle

/-- A change of the services that keeps the confs and adds no id. -/
theorem Ok.of_services {mgr : SnapshotManager} (h : Ok cfg mgr) {services : List DesiredService}
    (hids : (idsOf services).Sublist (idsOf mgr.services))
    (hconf : services.map (·.conf) = mgr.services.map (·.conf))
    (hlen : ∀ ds ∈ services, ds.rs.length ≤ kMaxRsPerService) :
    Ok cfg { mgr with services := services } where
  mode := h.mode
  localIps := h.localIps
  hcSrc := h.hcSrc
  confs := hconf.trans h.confs
  ids_nodup := h.ids_nodup.sublist hids
  ids_lt := fun id hid => h.ids_lt id (hids.subset hid)
  next_le := h.next_le
  rs_le := hlen

/-- The positions of a service's real servers fit an entry of its scheduler. -/
theorem Ok.rs_fit {mgr : SnapshotManager} (h : Ok cfg mgr) : ∀ ds ∈ mgr.services, ds.rs.length ≤ 2 ^ 16 :=
  fun ds hds => (h.rs_le ds hds).trans (by decide)

theorem Ok.modifyRs {mgr : SnapshotManager} (h : Ok cfg mgr) {id : ℕ} {f : DesiredRs → DesiredRs}
    {services : List DesiredService} (he : modifyRs id f mgr.services = some services)
    (hf : ∀ r, (f r).id = r.id) : Ok cfg { mgr with services := services } := by
  obtain ⟨hids, hconf, hlen⟩ := modifyRs_some hf he
  refine h.of_services (hids ▸ .refl _) hconf fun ds hds => ?_
  have hmem : ds.rs.length ∈ services.map (·.rs.length) := List.mem_map_of_mem hds
  rw [hlen] at hmem
  obtain ⟨ds', hds', he⟩ := List.mem_map.mp hmem
  exact he ▸ h.rs_le ds' hds'

theorem Ok.addRs {mgr mgr' : SnapshotManager} (h : Ok cfg mgr) {svcIdx id : ℕ} {rs : RsConf}
    (he : mgr.addRs svcIdx rs = .ok (mgr', id)) : Ok cfg mgr' ∧ mgr'.cur = mgr.cur := by
  unfold SnapshotManager.addRs at he
  split at he
  · simp at he
  rename_i svc hsvc
  split at he
  · simp at he
  rename_i hroom
  split at he
  · simp at he
  split at he
  · simp at he
  rename_i hnext
  simp only [Except.ok.injEq, Prod.mk.injEq] at he
  obtain ⟨rfl, rfl⟩ := he
  obtain ⟨hp, hc⟩ := idsOf_set (r := { id := mgr.nextRsId, conf := rs }) hsvc
  refine ⟨⟨h.mode, h.localIps, h.hcSrc, hc.trans h.confs, ?_, fun id hid => ?_, ?_, fun ds hds => ?_⟩, rfl⟩
  · rw [hp.nodup_iff, List.nodup_cons]
    exact ⟨fun hm => absurd (h.ids_lt _ hm) (lt_irrefl _), h.ids_nodup⟩
  · show id < mgr.nextRsId + 1
    rcases List.mem_cons.mp (hp.subset hid) with rfl | hid
    · exact Nat.lt_succ_self _
    · exact (h.ids_lt id hid).trans (Nat.lt_succ_self _)
  · show mgr.nextRsId + 1 ≤ _
    omega
  · rcases List.mem_or_eq_of_mem_set hds with hds | rfl
    · exact h.rs_le ds hds
    · rw [List.length_append, List.length_singleton]
      omega

/-! ### Building a snapshot -/

/-- The service built from `ds` at position `i`. -/
structure FromDesired (i : ℕ) (ds : DesiredService) (svc : Service) : Prop where
  idx : svc.idx = i
  key : svc.key = (ds.conf.vip, bswap16 ds.conf.port, ds.conf.proto)
  rs : svc.rs = ds.rs.map (rsState i)
  sched : ∀ k ∈ svc.sched.table, ∃ r, svc.rs[k]? = some r ∧ r.schedulable = true

theorem backend_weight {r : RsState} (h : r.backend.weight ≠ 0) : r.schedulable = true := by
  unfold RsState.backend at h
  by_contra hn
  simp [hn] at h

theorem buildService_returns {ds : DesiredService} (hlen : ds.rs.length ≤ 2 ^ 16) (i : ℕ) :
    Returns (buildService H ds i) (FromDesired i ds) := by
  unfold buildService
  refine Returns.bind (Scheduler.build_returns H ds.conf.sched (by simpa using hlen)) fun sched hs => ?_
  refine .ok ⟨rfl, rfl, rfl, fun k hk => ?_⟩
  obtain ⟨b, hb, hw⟩ := hs.2.1 k hk
  rw [List.getElem?_map] at hb
  obtain ⟨r, hr, rfl⟩ := Option.map_eq_some_iff.mp hb
  exact ⟨r, hr, backend_weight hw⟩

/-- The real servers `rs`, each stored under its id. -/
def storeAll (byId : List (Option RsState)) (rs : List RsState) : List (Option RsState) :=
  rs.foldl (fun b r => b.set r.id (some r)) byId

theorem length_storeAll : ∀ (rs : List RsState) (byId : List (Option RsState)),
    (storeAll byId rs).length = byId.length
  | [], _ => rfl
  | r :: rs, byId => by
    show (storeAll (byId.set r.id (some r)) rs).length = _
    rw [length_storeAll rs, List.length_set]

theorem foldlM_storeRs : ∀ (rs : List RsState) {byId : List (Option RsState)},
    (∀ r ∈ rs, r.id < byId.length) → rs.foldlM storeRs byId = .ok (storeAll byId rs)
  | [], _, _ => rfl
  | r :: rs, byId, h => by
    rw [List.foldlM_cons, storeRs, if_pos (h r List.mem_cons_self), ok_bind, foldlM_storeRs rs]
    · rfl
    · intro r' hr'
      rw [List.length_set]
      exact h r' (List.mem_cons_of_mem _ hr')

/-- Under an id is the real server with that id. -/
theorem storeAll_get : ∀ (rs : List RsState) {byId : List (Option RsState)}, (rs.map (·.id)).Nodup →
    (∀ r ∈ rs, r.id < byId.length) → ∀ id : ℕ,
    (storeAll byId rs)[id]? = ((rs.find? (·.id == id)).map some).or byId[id]?
  | [], byId, _, _, id => by simp [storeAll]
  | r :: rs, byId, hn, hlt, id => by
    rw [List.map_cons, List.nodup_cons] at hn
    show (storeAll (byId.set r.id (some r)) rs)[id]? = _
    rw [storeAll_get rs hn.2 (fun r' hr' => by
      rw [List.length_set]; exact hlt r' (List.mem_cons_of_mem _ hr')), List.find?_cons]
    by_cases hid : r.id = id
    · subst hid
      have hnone : rs.find? (·.id == r.id) = none := List.find?_eq_none.mpr fun r' hr' he =>
        hn.1 (List.mem_map.mpr ⟨r', hr', by simpa using he⟩)
      have hlt' := hlt r List.mem_cons_self
      simp [hnone, List.getElem?_set_self hlt']
    · have hne : (r.id == id) = false := by simpa using hid
      simp only [hne, List.getElem?_set_ne hid]

theorem buildServices_returns : ∀ (l : List DesiredService) (i : ℕ) {byId : List (Option RsState)},
    (∀ id ∈ idsOf l, id < byId.length) → (∀ ds ∈ l, ds.rs.length ≤ 2 ^ 16) →
    Returns (buildServices H l i byId) fun x => x.1.length = l.length ∧
      (∀ j ds, l[j]? = some ds → ∃ svc, x.1[j]? = some svc ∧ FromDesired (i + j) ds svc) ∧
      (x.1.flatMap (·.rs)).map (·.id) = idsOf l ∧ x.2 = storeAll byId (x.1.flatMap (·.rs))
  | [], i, byId, _, _ => .ok ⟨rfl, by simp, rfl, rfl⟩
  | ds :: rest, i, byId, h, hlens => by
    rw [idsOf_cons] at h
    unfold buildServices
    obtain ⟨hlen, hlens⟩ := List.forall_mem_cons.mp hlens
    refine Returns.bind (buildService_returns hlen i) fun svc hsvc => ?_
    have hids : svc.rs.map (·.id) = ds.rs.map (·.id) := by
      rw [hsvc.rs, List.map_map]
      rfl
    rw [foldlM_storeRs svc.rs fun r hr => h _ (List.mem_append_left _ (hids ▸ List.mem_map_of_mem hr)), ok_bind]
    refine Returns.bind (buildServices_returns rest (i + 1) (fun id hid => ?_) hlens) ?_
    · rw [length_storeAll]
      exact h id (List.mem_append_right _ hid)
    · rintro ⟨services, byId'⟩ ⟨hlen, hget, hid, hby⟩
      refine .ok ⟨by simpa using hlen, fun j d hd => ?_, ?_, ?_⟩
      · cases j with
        | zero =>
          obtain rfl : ds = d := by simpa using hd
          exact ⟨svc, rfl, hsvc⟩
        | succ j =>
          obtain ⟨s, hs, hf⟩ := hget j d (by simpa using hd)
          exact ⟨s, by simpa using hs, by rwa [show i + (j + 1) = i + 1 + j by omega]⟩
      · simpa [hids] using hid
      · simp only at hby
        simp only [hby, storeAll, List.flatMap_cons, List.foldl_append]

end SnapshotManager

/-- The ids of the real servers of a snapshot, in order. -/
def Snapshot.rsIds (snap : Snapshot) : List ℕ := (snap.services.flatMap (·.rs)).map (·.id)

/-- The keys of the services stay apart with their ports in network order. -/
theorem Config.Valid.wireKeys_nodup {cfg : LbConfig} (hc : Config.Valid cfg) :
    (cfg.services.map fun c => (c.vip, bswap16 c.port, c.proto)).Nodup := by
  have hinj : Function.Injective fun k : IPv4Addr × UInt16 × UInt8 => (k.1, bswap16 k.2.1, k.2.2) := by
    rintro ⟨a, b, c⟩ ⟨a', b', c'⟩ he
    simp only [Prod.mk.injEq] at he
    obtain ⟨rfl, hb, rfl⟩ := he
    rw [← bswap16_bswap16 b, hb, bswap16_bswap16]
  have := hc.keys.map hinj
  rwa [List.map_map] at this

/-- A snapshot built from a manager that keeps to the configuration. -/
structure Snapshot.Built (H : HashFns) (cfg : LbConfig) (snap : Snapshot) : Prop where
  mode : snap.mode = cfg.mode
  localIps : snap.localIps = if cfg.mode = .nat then cfg.localIps else []
  hcSrc : snap.hcSrc = cfg.hcSrc
  keys : snap.services.map (·.key) = cfg.services.map fun c => (c.vip, bswap16 c.port, c.proto)
  idx : ∀ (i : ℕ) (s : Service), snap.services[i]? = some s → s.idx = i
  ids_nodup : snap.rsIds.Nodup
  ids_lt : ∀ r ∈ snap.services.flatMap (·.rs), r.id < max (cfg.rsTotal + 1) kMaxRsId
  rs_eq : ∀ id, snap.rs id = (snap.services.flatMap (·.rs)).find? (·.id == id)
  sched : ∀ s ∈ snap.services, ∀ k ∈ s.sched.table, ∃ r, s.rs[k]? = some r ∧ r.schedulable = true
  isVip : ∀ ip, snap.isVip H ip = .ok (decide (ip = 0 ∨ ip ∈ cfg.services.map (·.vip)))
  isLip : ∀ ip, snap.isLip H ip = .ok (decide (ip = 0 ∨ ip ∈ snap.localIps))
  isLocal : ∀ ip, snap.isLocal H ip =
    .ok (decide (ip = 0 ∨ ip ∈ cfg.services.map (·.vip) ++ snap.localIps ++ [cfg.hcSrc]))
  findService : ∀ vip portBe proto, snap.findService H vip portBe proto =
    .ok (snap.services.find? fun s => s.key = (vip, portBe, proto))

namespace Snapshot

variable {H : HashFns} {cfg : LbConfig} {snap : Snapshot}

/-- `index` returns and gives the snapshot its lookups. -/
theorem index_returns (hidx : ∀ (i : ℕ) (s : Service), snap.services[i]? = some s → s.idx = i)
    (hk : (snap.services.map (·.key)).Nodup) (hs : snap.services.length ≤ kMaxServices)
    (hl : snap.localIps.length ≤ kMaxLocalIps) :
    Returns (snap.index H) fun snap' =>
      (∃ slots vips lips locals, snap' =
        { snap with svcSlots := slots, vips := vips, lips := lips, locals := locals }) ∧
      (∀ ip, snap'.isVip H ip = .ok (decide (ip = 0 ∨ ip ∈ snap.services.map (·.vip)))) ∧
      (∀ ip, snap'.isLip H ip = .ok (decide (ip = 0 ∨ ip ∈ snap.localIps))) ∧
      (∀ ip, snap'.isLocal H ip =
        .ok (decide (ip = 0 ∨ ip ∈ snap.services.map (·.vip) ++ snap.localIps ++ [snap.hcSrc]))) ∧
      ∀ vip portBe proto, snap'.findService H vip portBe proto =
        .ok (snap.services.find? fun s => s.key = (vip, portBe, proto)) := by
  unfold kMaxServices at hs
  unfold kMaxLocalIps at hl
  unfold index
  refine Returns.bind (indexServices_returns hidx hk (by unfold kSvcSlots; omega)) ?_
  rintro slots ⟨l, hslots, hlen, hm⟩
  refine Returns.bind (setHas_of_addAll (by rw [List.length_map]; unfold kAddrSlots; omega)) fun vips hv => ?_
  refine Returns.bind (setHas_of_addAll (by unfold kAddrSlots; omega)) fun lips hlip => ?_
  refine Returns.bind (setHas_of_addAll (by
    simp only [List.length_append, List.length_map, List.length_singleton]
    unfold kAddrSlots; omega)) fun locals hloc => ?_
  refine .ok ⟨⟨slots, vips, lips, locals, rfl⟩, hv, hlip, hloc, fun vip portBe proto => ?_⟩
  exact @findService_eq _ { snap with svcSlots := slots, vips := vips, lips := lips, locals := locals } l
    hslots hlen hm vip portBe proto

/-- `index` adds the lookups and leaves the rest. -/
theorem index_same {snap' : Snapshot} (h : snap.index H = .ok snap') :
    snap'.version = snap.version ∧ snap'.services = snap.services := by
  unfold index at h
  obtain ⟨slots, -, h⟩ := bind_eq_ok.mp h
  obtain ⟨vips, -, h⟩ := bind_eq_ok.mp h
  obtain ⟨lips, -, h⟩ := bind_eq_ok.mp h
  obtain ⟨locals, -, h⟩ := bind_eq_ok.mp h
  obtain rfl := Except.ok.inj h
  exact ⟨rfl, rfl⟩

/-- `rs` finds every real server of the services. -/
theorem Built.rs_mem (h : Built H cfg snap) {s : Service} (hs : s ∈ snap.services) {r : RsState}
    (hr : r ∈ s.rs) : snap.rs r.id = some r := by
  have hmem : r ∈ snap.services.flatMap (·.rs) := List.mem_flatMap.mpr ⟨s, hs, hr⟩
  rw [h.rs_eq]
  cases hf : (snap.services.flatMap (·.rs)).find? (·.id == r.id) with
  | none =>
    have := List.find?_eq_none.mp hf r hmem
    simp at this
  | some r' =>
    have hid : r'.id = r.id := by simpa using List.find?_some hf
    rw [List.inj_on_of_nodup_map h.ids_nodup (List.mem_of_find?_eq_some hf) hmem hid]

end Snapshot

namespace SnapshotManager

variable {H : HashFns} {cfg : LbConfig} {mgr : SnapshotManager}

theorem build_returns (hc : Config.Valid cfg) (h : Ok cfg mgr) :
    Returns (mgr.build H) fun snap => snap.Built H cfg ∧ snap.rsIds = idsOf mgr.services := by
  unfold build
  refine Returns.bind (buildServices_returns mgr.services 0 (fun id hid => ?_) h.rs_fit) ?_
  · rw [List.length_replicate]
    exact h.ids_lt id hid
  rintro ⟨services, byId⟩ ⟨hlen, hget, hids, hby⟩
  simp only at hlen hget hids hby
  have hfrom : ∀ (i : ℕ) (s : Service), services[i]? = some s →
      ∃ ds, mgr.services[i]? = some ds ∧ FromDesired i ds s := fun i s hs => by
    have hi : i < mgr.services.length := by
      rw [← hlen]
      exact (List.getElem?_eq_some_iff.mp hs).1
    obtain ⟨s', hs', hf⟩ := hget i _ (List.getElem?_eq_getElem hi)
    rw [Nat.zero_add] at hf
    obtain rfl : s' = s := Option.some.inj (hs'.symm.trans hs)
    exact ⟨_, List.getElem?_eq_getElem hi, hf⟩
  have hkeys : services.map (·.key) = cfg.services.map fun c => (c.vip, bswap16 c.port, c.proto) := by
    rw [← h.confs, List.map_map]
    refine List.ext_getElem? fun i => ?_
    rw [List.getElem?_map, List.getElem?_map]
    cases hs : services[i]? with
    | none =>
      have hi : mgr.services.length ≤ i := by
        rw [← hlen]
        exact List.getElem?_eq_none_iff.mp hs
      rw [List.getElem?_eq_none hi]
      rfl
    | some s =>
      obtain ⟨ds, hds, hf⟩ := hfrom i s hs
      rw [hds, Option.map_some, Option.map_some, hf.key]
      rfl
  have hvips : services.map (·.vip) = cfg.services.map (·.vip) := by
    have := congrArg (List.map Prod.fst) hkeys
    simpa [List.map_map, Function.comp_def, Service.key] using this
  have hnodup : (services.map (·.key)).Nodup := by
    rw [hkeys]
    exact hc.wireKeys_nodup
  have hcount : services.length ≤ kMaxServices := by
    rw [hlen, ← List.length_map (f := (·.conf)), h.confs]
    exact hc.services_le
  have hlips : mgr.localIps.length ≤ kMaxLocalIps := by
    rw [h.localIps]
    split
    · exact hc.localIps_le
    · exact Nat.zero_le _
  have hlt : ∀ r ∈ services.flatMap (·.rs), r.id < mgr.nextRsId := fun r hr =>
    h.ids_lt _ (hids ▸ List.mem_map_of_mem hr)
  refine (Snapshot.index_returns (fun i s hs => ?_) hnodup hcount hlips).mono ?_
  · obtain ⟨ds, -, hf⟩ := hfrom i s hs
    exact hf.idx
  rintro snap' ⟨⟨slots, vips, lips, locals, rfl⟩, hv, hlip, hloc, hfind⟩
  simp only [hvips, h.hcSrc] at hv hlip hloc hfind
  refine ⟨⟨h.mode, h.localIps, h.hcSrc, hkeys, fun i s hs => ?_, ?_, fun r hr => ?_, fun id => ?_,
    fun s hs => ?_, hv, hlip, ?_, hfind⟩, hids⟩
  · obtain ⟨ds, -, hf⟩ := hfrom i s hs
    exact hf.idx
  · show ((services.flatMap (·.rs)).map (·.id)).Nodup
    rw [hids]
    exact h.ids_nodup
  · exact (hlt r hr).trans_le h.next_le
  · show (byId[id]?).join = _
    rw [hby, SnapshotManager.storeAll_get _ (by rw [hids]; exact h.ids_nodup)
      (fun r hr => by rw [List.length_replicate]; exact hlt r hr)]
    cases (services.flatMap (·.rs)).find? (·.id == id) with
    | none =>
      rw [Option.map_none, Option.none_or, List.getElem?_replicate]
      split <;> rfl
    | some r => rfl
  · obtain ⟨i, hi, he⟩ := List.getElem_of_mem hs
    obtain ⟨ds, -, hf⟩ := hfrom i s (by rw [List.getElem?_eq_getElem hi, he])
    exact hf.sched
  · simpa only [h.hcSrc] using hloc

/-- The manager keeps to the configuration, and so does what it has published. -/
structure Running (H : HashFns) (cfg : LbConfig) (mgr : SnapshotManager) : Prop where
  ok : Ok cfg mgr
  cur : ∃ snap, mgr.cur = some snap ∧ snap.Built H cfg

theorem publish_returns (hc : Config.Valid cfg) (h : Ok cfg mgr) :
    Returns (mgr.publish H) fun mgr' => Running H cfg mgr' ∧
      ∀ snap, mgr'.cur = some snap → snap.rsIds = idsOf mgr.services := by
  unfold publish
  have h1 : Ok cfg { mgr with version := mgr.version + 1 } :=
    ⟨h.mode, h.localIps, h.hcSrc, h.confs, h.ids_nodup, h.ids_lt, h.next_le, h.rs_le⟩
  refine Returns.bind (build_returns hc h1) fun snap hs => .ok ⟨⟨?_, snap, rfl, hs.1⟩, fun snap' he => ?_⟩
  · exact ⟨h.mode, h.localIps, h.hcSrc, h.confs, h.ids_nodup, h.ids_lt, h.next_le, h.rs_le⟩
  · obtain rfl := Option.some.inj he
    exact hs.2

theorem initServices_spec : ∀ (l : List ServiceConf) (next : ℕ),
    (initServices l next).1.map (·.conf) = l ∧
    (initServices l next).2 = next + (l.map (·.rs.length)).sum ∧
    idsOf (initServices l next).1 = List.range' next (l.map (·.rs.length)).sum ∧
    (initServices l next).1.map (·.rs.length) = l.map (·.rs.length)
  | [], next => ⟨rfl, rfl, rfl, rfl⟩
  | sc :: rest, next => by
    obtain ⟨h1, h2, h3, h4⟩ := initServices_spec rest (next + sc.rs.length)
    unfold initServices
    simp only [List.map_cons, List.sum_cons, h1, h2, idsOf_cons, h3, h4, true_and]
    refine ⟨by omega, ?_, by simp⟩
    rw [← List.range'_append_1]
    congr 1
    rw [List.map_map, ← List.zipIdx_map_snd next sc.rs]
    rfl

/-- The manager that `init` publishes first. -/
theorem ok_start (hc : Config.Valid cfg) : Ok cfg {
    mode := cfg.mode, localIps := if cfg.mode = .nat then cfg.localIps else [], hcSrc := cfg.hcSrc,
    services := (initServices cfg.services 1).1, nextRsId := (initServices cfg.services 1).2 } := by
  obtain ⟨h1, h2, h3, h4⟩ := initServices_spec cfg.services 1
  refine ⟨rfl, rfl, rfl, h1, ?_, fun id hid => ?_, ?_, fun ds hds => ?_⟩
  · show (idsOf (initServices cfg.services 1).1).Nodup
    rw [h3]
    exact List.nodup_range'
  · show id < (initServices cfg.services 1).2
    have : id ∈ idsOf (initServices cfg.services 1).1 := hid
    rw [h3, List.mem_range'_1] at this
    omega
  · show (initServices cfg.services 1).2 ≤ _
    rw [h2]
    unfold LbConfig.rsTotal
    omega
  · have hmem : ds.rs.length ∈ (initServices cfg.services 1).1.map (·.rs.length) := List.mem_map_of_mem hds
    rw [h4] at hmem
    obtain ⟨sc, hsc, he⟩ := List.mem_map.mp hmem
    exact he ▸ (hc.rs sc hsc).2

/-- `init` returns and publishes the real servers with the ids from 1 on. -/
theorem init_returns (hc : Config.Valid cfg) : Returns (init H cfg) fun mgr => Running H cfg mgr ∧
    ∀ snap, mgr.cur = some snap → snap.rsIds = List.range' 1 cfg.rsTotal := by
  rw [show cfg.rsTotal = (cfg.services.map (·.rs.length)).sum from rfl, ← (initServices_spec cfg.services 1).2.2.1]
  exact publish_returns hc (ok_start hc)

/-- A command returns and keeps the manager running. -/
theorem Command.run_returns (hc : Config.Valid cfg) (h : Running H cfg mgr) (c : Command) :
    Returns (c.run H mgr) (Running H cfg) := by
  cases c with
  | setWeight id weight =>
    refine .ok ?_
    unfold SnapshotManager.setWeight
    split
    · exact h
    · rename_i he
      split
      · exact h
      · exact ⟨h.ok.modifyRs he fun _ => rfl, h.cur⟩
  | setEnabled id enabled =>
    refine .ok ?_
    unfold SnapshotManager.setEnabled
    split
    · exact h
    · rename_i he
      exact ⟨h.ok.modifyRs he fun _ => rfl, h.cur⟩
  | addRs svcIdx rs =>
    refine .ok ?_
    cases he : mgr.addRs svcIdx rs with
    | error e => exact h
    | ok x =>
      obtain ⟨mgr', id⟩ := x
      obtain ⟨hok, hcur⟩ := h.ok.addRs he
      exact ⟨hok, hcur ▸ h.cur⟩
  | delRs id =>
    refine .ok ?_
    unfold SnapshotManager.delRs
    split
    · exact h
    · rename_i he
      obtain ⟨hids, hconf, hlen⟩ := eraseRs_some he
      exact ⟨h.ok.of_services hids hconf (hlen _ h.ok.rs_le), h.cur⟩
  | setHealth id healthy =>
    refine .ok ?_
    unfold SnapshotManager.setHealth
    split
    · exact h
    · rename_i he
      exact ⟨h.ok.modifyRs he fun _ => rfl, h.cur⟩
  | publish => exact (publish_returns hc h.ok).mono fun _ h => h.1

end SnapshotManager
end L4Lb
