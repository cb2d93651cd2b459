/-
# The desired state and its ids

The ids of the real servers are pairwise different, so a command that names
one changes that real server and no other (`modifyRs_eq`, `eraseRs_eq`), and a
published snapshot shows the desired state (`publish_shows`). Each id goes to
one address: `History` keeps the list of the ids with the addresses they have
been assigned to, and a run of commands only ever adds to it (`History.logged`).
-/
import L4Lb.Snapshot.Built

open Checked

namespace L4Lb

/-- The service with `f` done to the real server `id`. -/
def DesiredService.onRs (id : ℕ) (f : DesiredRs → DesiredRs) (ds : DesiredService) : DesiredService :=
  { ds with rs := ds.rs.map fun r => if r.id = id then f r else r }

/-- The service without the real server `id`. -/
def DesiredService.without (id : ℕ) (ds : DesiredService) : DesiredService :=
  { ds with rs := ds.rs.filter fun r => r.id ≠ id }

namespace SnapshotManager

variable {H : HashFns} {cfg : LbConfig} {mgr mgr' : SnapshotManager} {id : ℕ}

/-! ### The real server a command names -/

theorem findIdx?_isSome {l : List DesiredRs} (h : id ∈ l.map (·.id)) :
    ∃ k r, l.findIdx? (·.id == id) = some k ∧ l[k]? = some r ∧ r.id = id := by
  obtain ⟨r, hr, hid⟩ := List.mem_map.mp h
  obtain ⟨k, hk⟩ : ∃ k, l.findIdx? (·.id == id) = some k := by
    rw [← Option.isSome_iff_exists, List.findIdx?_isSome, List.any_eq_true]
    exact ⟨r, hr, by simpa using hid⟩
  obtain ⟨hlt, hp, -⟩ := List.findIdx?_eq_some_iff_getElem.mp hk
  exact ⟨k, l[k], hk, List.getElem?_eq_getElem hlt, by simpa using hp⟩

theorem onId_of_notMem {f : DesiredRs → DesiredRs} {l : List DesiredRs} (h : id ∉ l.map (·.id)) :
    (l.map fun r => if r.id = id then f r else r) = l := by
  conv_rhs => rw [← List.map_id l]
  exact List.map_congr_left fun r hr => if_neg fun he => h (List.mem_map.mpr ⟨r, hr, he⟩)

theorem filter_of_notMem {l : List DesiredRs} (h : id ∉ l.map (·.id)) : (l.filter fun r => r.id ≠ id) = l :=
  List.filter_eq_self.mpr fun r hr => by
    simpa using fun he : r.id = id => h (List.mem_map.mpr ⟨r, hr, he⟩)

/-- With each id once, the first real server with the id is the only one. -/
theorem modify_eq_map {f : DesiredRs → DesiredRs} : ∀ {l : List DesiredRs} {k : ℕ} {r : DesiredRs},
    (l.map (·.id)).Nodup → l[k]? = some r → r.id = id →
    l.modify k f = l.map fun r => if r.id = id then f r else r
  | x :: l, 0, r, hn, hk, hid => by
    obtain rfl : x = r := by simpa using hk
    subst hid
    rw [List.map_cons, List.nodup_cons] at hn
    rw [List.map_cons, if_pos rfl, onId_of_notMem hn.1]
    rfl
  | x :: l, k + 1, r, hn, hk, hid => by
    rw [List.map_cons, List.nodup_cons] at hn
    have hk' : l[k]? = some r := by simpa using hk
    have hx : x.id ≠ id := fun he => hn.1 (List.mem_map.mpr ⟨r, List.mem_of_getElem? hk', hid.trans he.symm⟩)
    rw [List.modify_succ_cons, List.map_cons, if_neg hx, modify_eq_map hn.2 hk' hid]

theorem eraseIdx_eq_filter : ∀ {l : List DesiredRs} {k : ℕ} {r : DesiredRs},
    (l.map (·.id)).Nodup → l[k]? = some r → r.id = id → l.eraseIdx k = l.filter fun r => r.id ≠ id
  | x :: l, 0, r, hn, hk, hid => by
    obtain rfl : x = r := by simpa using hk
    subst hid
    rw [List.map_cons, List.nodup_cons] at hn
    rw [List.eraseIdx_cons_zero, List.filter_cons_of_neg (by simp), filter_of_notMem hn.1]
  | x :: l, k + 1, r, hn, hk, hid => by
    rw [List.map_cons, List.nodup_cons] at hn
    have hk' : l[k]? = some r := by simpa using hk
    have hx : x.id ≠ id := fun he => hn.1 (List.mem_map.mpr ⟨r, List.mem_of_getElem? hk', hid.trans he.symm⟩)
    rw [List.eraseIdx_cons_succ, List.filter_cons_of_pos (by simpa using hx), eraseIdx_eq_filter hn.2 hk' hid]

theorem findIdx?_eq_none {l : List DesiredRs} (h : id ∉ l.map (·.id)) : l.findIdx? (·.id == id) = none := by
  rw [List.findIdx?_eq_none_iff]
  intro r hr
  simpa using fun he : r.id = id => h (List.mem_map.mpr ⟨r, hr, he⟩)

theorem onRs_of_notMem {f : DesiredRs → DesiredRs} {ds : DesiredService} (h : id ∉ ds.rs.map (·.id)) :
    ds.onRs id f = ds := by
  rw [DesiredService.onRs, onId_of_notMem h]

theorem without_of_notMem {ds : DesiredService} (h : id ∉ ds.rs.map (·.id)) : ds.without id = ds := by
  rw [DesiredService.without, filter_of_notMem h]

/-- Services without the id stay as they are. -/
theorem map_onRs_of_notMem {f : DesiredRs → DesiredRs} : ∀ {l : List DesiredService}, id ∉ idsOf l →
    l.map (·.onRs id f) = l
  | [], _ => rfl
  | ds :: l, h => by
    rw [idsOf_cons, List.mem_append, not_or] at h
    rw [List.map_cons, onRs_of_notMem h.1, map_onRs_of_notMem h.2]

theorem map_without_of_notMem : ∀ {l : List DesiredService}, id ∉ idsOf l → l.map (·.without id) = l
  | [], _ => rfl
  | ds :: l, h => by
    rw [idsOf_cons, List.mem_append, not_or] at h
    rw [List.map_cons, without_of_notMem h.1, map_without_of_notMem h.2]

/-- The real server with the id is changed, and no other. -/
theorem modifyRs_eq {f : DesiredRs → DesiredRs} : ∀ {l : List DesiredService}, (idsOf l).Nodup →
    modifyRs id f l = if id ∈ idsOf l then some (l.map (·.onRs id f)) else none
  | [], _ => by simp [modifyRs, idsOf]
  | ds :: rest, hn => by
    rw [idsOf_cons, List.nodup_append] at hn
    obtain ⟨hn1, hn2, hdis⟩ := hn
    unfold modifyRs
    by_cases hm : id ∈ ds.rs.map (·.id)
    · obtain ⟨k, r, hk, hr, hid⟩ := findIdx?_isSome hm
      have hrest : id ∉ idsOf rest := fun h => hdis id hm id h rfl
      rw [hk, if_pos (by rw [idsOf_cons]; exact List.mem_append_left _ hm)]
      simp only [List.map_cons]
      rw [map_onRs_of_notMem hrest, modify_eq_map hn1 hr hid]
      rfl
    · rw [findIdx?_eq_none hm, modifyRs_eq hn2]
      simp only [idsOf_cons, List.mem_append, hm, false_or, List.map_cons, onRs_of_notMem hm]
      split <;> rfl

/-- The real server with the id is taken out, and no other. -/
theorem eraseRs_eq : ∀ {l : List DesiredService}, (idsOf l).Nodup →
    eraseRs id l = if id ∈ idsOf l then some (l.map (·.without id)) else none
  | [], _ => by simp [eraseRs, idsOf]
  | ds :: rest, hn => by
    rw [idsOf_cons, List.nodup_append] at hn
    obtain ⟨hn1, hn2, hdis⟩ := hn
    unfold eraseRs
    by_cases hm : id ∈ ds.rs.map (·.id)
    · obtain ⟨k, r, hk, hr, hid⟩ := findIdx?_isSome hm
      have hrest : id ∉ idsOf rest := fun h => hdis id hm id h rfl
      rw [hk, if_pos (by rw [idsOf_cons]; exact List.mem_append_left _ hm)]
      simp only [List.map_cons]
      rw [map_without_of_notMem hrest, eraseIdx_eq_filter hn1 hr hid]
      rfl
    · rw [findIdx?_eq_none hm, eraseRs_eq hn2]
      simp only [idsOf_cons, List.mem_append, hm, false_or, List.map_cons, without_of_notMem hm]
      split <;> rfl

/-! ### What is wanted, and what a snapshot shows -/

/-- `d` is wanted in service `i`. -/
def Desires (mgr : SnapshotManager) (i : ℕ) (d : DesiredRs) : Prop :=
  ∃ ds, mgr.services[i]? = some ds ∧ d ∈ ds.rs

theorem desires_onRs {f : DesiredRs → DesiredRs} {i : ℕ} {d : DesiredRs} :
    { mgr with services := mgr.services.map (DesiredService.onRs id f) }.Desires i d ↔
      ∃ d0, mgr.Desires i d0 ∧ d = if d0.id = id then f d0 else d0 := by
  simp only [Desires, List.getElem?_map, Option.map_eq_some_iff]
  constructor
  · rintro ⟨ds, ⟨ds0, hds, rfl⟩, hd⟩
    obtain ⟨d0, hd0, rfl⟩ := List.mem_map.mp hd
    exact ⟨d0, ⟨ds0, hds, hd0⟩, rfl⟩
  · rintro ⟨d0, ⟨ds0, hds, hd0⟩, rfl⟩
    exact ⟨_, ⟨ds0, hds, rfl⟩, List.mem_map_of_mem hd0⟩

/-- `set_health` changes the health of the real server with the id. -/
theorem desires_setHealth (hn : (idsOf mgr.services).Nodup) (id : ℕ) (healthy : Bool) (i : ℕ) (d : DesiredRs) :
    (mgr.setHealth id healthy).Desires i d ↔
      ∃ d0, mgr.Desires i d0 ∧ d = if d0.id = id then { d0 with healthy := healthy } else d0 := by
  rw [← desires_onRs]
  unfold setHealth
  rw [modifyRs_eq hn]
  by_cases hid : id ∈ idsOf mgr.services
  · rw [if_pos hid]
  · rw [if_neg hid, map_onRs_of_notMem hid]

end SnapshotManager

namespace Snapshot

open SnapshotManager

/-- The snapshot shows the desired state: the real servers of each service in
their order, and under an id the real server that has it. -/
structure Shows (snap : Snapshot) (mgr : SnapshotManager) : Prop where
  version : snap.version = mgr.version
  services : snap.services.map (·.rs) = mgr.services.mapIdx fun i ds => ds.rs.map (rsState i)
  rs : ∀ id r, snap.rs id = some r ↔ ∃ i d, mgr.Desires i d ∧ d.id = id ∧ r = rsState i d

end Snapshot

namespace SnapshotManager

variable {H : HashFns} {cfg : LbConfig} {mgr mgr' : SnapshotManager} {id : ℕ}

/-- The real servers of the services, as a snapshot has them. -/
def states (mgr : SnapshotManager) : List RsState :=
  (mgr.services.mapIdx fun i ds => ds.rs.map (rsState i)).flatten

theorem mem_states {r : RsState} : r ∈ mgr.states ↔ ∃ i d, mgr.Desires i d ∧ r = rsState i d := by
  simp only [states, List.mem_flatten, List.mem_mapIdx, Desires]
  constructor
  · rintro ⟨l, ⟨i, hi, rfl⟩, hr⟩
    obtain ⟨d, hd, rfl⟩ := List.mem_map.mp hr
    exact ⟨i, d, ⟨_, List.getElem?_eq_getElem hi, hd⟩, rfl⟩
  · rintro ⟨i, d, ⟨ds, hds, hd⟩, rfl⟩
    obtain ⟨hi, rfl⟩ := List.getElem?_eq_some_iff.mp hds
    exact ⟨_, ⟨i, hi, rfl⟩, List.mem_map_of_mem hd⟩

theorem build_shows {snap : Snapshot} (h : Ok cfg mgr) (hb : mgr.build H = .ok snap) (hbuilt : snap.Built H cfg) :
    snap.Shows mgr := by
  obtain ⟨⟨services, byId⟩, hbs, hidx⟩ := bind_eq_ok.mp hb
  obtain ⟨x, hx, hlen, hget, -⟩ := @buildServices_returns H mgr.services 0 (List.replicate mgr.nextRsId none)
    (fun id hid => by rw [List.length_replicate]; exact h.ids_lt id hid) h.rs_fit
  obtain rfl : x = (services, byId) := Except.ok.inj (hx.symm.trans hbs)
  simp only at hlen hget hidx
  have hsame : snap.version = mgr.version ∧ snap.services = services := Snapshot.index_same hidx
  have hrs : services.map (·.rs) = mgr.services.mapIdx fun i ds => ds.rs.map (rsState i) := by
    refine List.ext_getElem (by simpa using hlen) fun i h1 h2 => ?_
    rw [List.length_mapIdx] at h2
    obtain ⟨svc, hsvc, hf⟩ := hget i _ (List.getElem?_eq_getElem h2)
    rw [Nat.zero_add] at hf
    obtain ⟨hi, rfl⟩ := List.getElem?_eq_some_iff.mp hsvc
    rw [List.getElem_map, List.getElem_mapIdx, hf.rs]
  have hflat : snap.services.flatMap (·.rs) = mgr.states := by
    rw [hsame.2, List.flatMap_def, hrs]
    rfl
  refine ⟨hsame.1, hsame.2 ▸ hrs, fun id r => ?_⟩
  constructor
  · intro hr
    rw [hbuilt.rs_eq] at hr
    obtain ⟨i, d, hd, rfl⟩ := mem_states.mp (hflat ▸ List.mem_of_find?_eq_some hr)
    have hid : (rsState i d).id = id := by simpa using List.find?_some hr
    exact ⟨i, d, hd, hid, rfl⟩
  · rintro ⟨i, d, hd, rfl, rfl⟩
    have hmem : rsState i d ∈ snap.services.flatMap (·.rs) := hflat ▸ mem_states.mpr ⟨i, d, hd, rfl⟩
    obtain ⟨s, hs, hr⟩ := List.mem_flatMap.mp hmem
    exact hbuilt.rs_mem hs hr

/-- `publish` returns, keeps the desired state and shows it. -/
theorem publish_shows (hc : Config.Valid cfg) (h : Ok cfg mgr) : Returns (mgr.publish H) fun mgr' =>
    mgr'.services = mgr.services ∧ mgr'.nextRsId = mgr.nextRsId ∧ mgr'.version = mgr.version + 1 ∧
      ∃ snap, mgr'.cur = some snap ∧ snap.Shows mgr' := by
  have h1 : Ok cfg { mgr with version := mgr.version + 1 } :=
    ⟨h.mode, h.localIps, h.hcSrc, h.confs, h.ids_nodup, h.ids_lt, h.next_le, h.rs_le⟩
  obtain ⟨snap, hs, hb, -⟩ := build_returns (H := H) hc h1
  refine ⟨{ mgr with version := mgr.version + 1, cur := some snap }, ?_, rfl, rfl, rfl, snap, rfl, ?_⟩
  · simp only [publish, hs]
    rfl
  · obtain ⟨hv, hsv, hr⟩ := build_shows h1 hs hb
    exact ⟨hv, hsv, hr⟩

end SnapshotManager

/-! ### Who has had which id -/

/-- An id, with the real server it has been assigned to. -/
structure RsEntry where
  id : ℕ
  svcIdx : ℕ
  ip : IPv4Addr
  port : UInt16
  deriving DecidableEq

def RsState.entry (r : RsState) : RsEntry := ⟨r.id, r.svcIdx, r.ip, r.port⟩

/-- Every real server in the snapshot has its id from the log. -/
def Snapshot.Logged (log : List RsEntry) (snap : Snapshot) : Prop :=
  ∀ id r, snap.rs id = some r → r.id = id ∧ r.portBe = bswap16 r.port ∧ r.entry ∈ log

namespace SnapshotManager

variable {H : HashFns} {cfg : LbConfig} {mgr mgr' : SnapshotManager} {id : ℕ} {log : List RsEntry}

/-- The ids that a command assigns. -/
def Command.assigned (mgr : SnapshotManager) : Command → List RsEntry
  | .addRs svcIdx rs =>
    match mgr.addRs svcIdx rs with
    | .ok (_, id) => [⟨id, svcIdx, rs.ip, rs.port⟩]
    | .error _ => []
  | _ => []

/-- The managers that the commands lead to, with the log of all ids that have
been assigned, in the order of time. -/
inductive History (H : HashFns) (cfg : LbConfig) : SnapshotManager → List RsEntry → Prop
  | init {mgr : SnapshotManager} (h : init H cfg = .ok mgr) : History H cfg mgr (mgr.states.map (·.entry))
  | run {mgr mgr' : SnapshotManager} {log : List RsEntry} (c : Command) (h : History H cfg mgr log)
      (hr : c.run H mgr = .ok mgr') : History H cfg mgr' (log ++ c.assigned mgr)

/-- What the commands do to the real servers: those that are wanted afterwards
were wanted before, at the same address, or have got a new id. -/
structure Command.Moves (c : Command) (mgr mgr' : SnapshotManager) : Prop where
  states : ∀ r ∈ mgr'.states, r.entry ∈ mgr.states.map (·.entry) ++ c.assigned mgr
  next : mgr'.nextRsId = mgr.nextRsId + (c.assigned mgr).length
  ids : (c.assigned mgr).map (·.id) = List.range' mgr.nextRsId (c.assigned mgr).length
  cur : mgr'.cur = mgr.cur ∨ ∃ snap, mgr'.cur = some snap ∧ snap.Shows mgr'

theorem states_map_conf {services : List DesiredService} {f : DesiredService → DesiredService}
    (hf : ∀ ds, ∀ d ∈ (f ds).rs, ∃ d' ∈ ds.rs, d.id = d'.id ∧ d.conf.ip = d'.conf.ip ∧ d.conf.port = d'.conf.port)
    (hs : services = mgr.services.map f) :
    ∀ r ∈ { mgr with services := services }.states, r.entry ∈ mgr.states.map (·.entry) := by
  intro r hr
  obtain ⟨i, d, ⟨ds, hds, hd⟩, rfl⟩ := mem_states.mp hr
  subst hs
  rw [List.getElem?_map] at hds
  obtain ⟨ds0, hds0, rfl⟩ := Option.map_eq_some_iff.mp hds
  obtain ⟨d', hd', hid, hip, hport⟩ := hf ds0 d hd
  refine List.mem_map.mpr ⟨rsState i d', mem_states.mpr ⟨i, d', ⟨ds0, hds0, hd'⟩, rfl⟩, ?_⟩
  simp [RsState.entry, rsState, hid, hip, hport]

theorem states_modifyRs {f : DesiredRs → DesiredRs} {services : List DesiredService}
    (hn : (idsOf mgr.services).Nodup) (he : modifyRs id f mgr.services = some services)
    (hf : ∀ d, (f d).id = d.id ∧ (f d).conf.ip = d.conf.ip ∧ (f d).conf.port = d.conf.port) :
    ∀ r ∈ { mgr with services := services }.states, r.entry ∈ mgr.states.map (·.entry) := by
  rw [modifyRs_eq hn] at he
  split at he
  · refine states_map_conf (fun ds d hd => ?_) (Option.some.inj he).symm
    obtain ⟨d', hd', rfl⟩ := List.mem_map.mp hd
    refine ⟨d', hd', ?_⟩
    split
    · exact hf d'
    · exact ⟨rfl, rfl, rfl⟩
  · simp at he

theorem states_eraseRs {services : List DesiredService} (hn : (idsOf mgr.services).Nodup)
    (he : eraseRs id mgr.services = some services) :
    ∀ r ∈ { mgr with services := services }.states, r.entry ∈ mgr.states.map (·.entry) := by
  rw [eraseRs_eq hn] at he
  split at he
  · exact states_map_conf (fun ds d hd => ⟨d, (List.mem_filter.mp hd).1, rfl, rfl, rfl⟩)
      (Option.some.inj he).symm
  · simp at he

/-- What `add_rs` does when it succeeds. -/
theorem addRs_eq_ok {svcIdx : ℕ} {rs : RsConf} (h : mgr.addRs svcIdx rs = .ok (mgr', id)) :
    ∃ svc, mgr.services[svcIdx]? = some svc ∧ id = mgr.nextRsId ∧
      mgr' = { mgr with
        services := mgr.services.set svcIdx { svc with rs := svc.rs ++ [{ id := mgr.nextRsId, conf := rs }] }
        nextRsId := mgr.nextRsId + 1 } := by
  unfold addRs at h
  split at h
  · simp at h
  rename_i svc hsvc
  split at h
  · simp at h
  split at h
  · simp at h
  split at h
  · simp at h
  simp only [Except.ok.injEq, Prod.mk.injEq] at h
  exact ⟨svc, hsvc, h.2.symm, h.1.symm⟩

theorem desires_addRs {svcIdx : ℕ} {rs : RsConf} (h : mgr.addRs svcIdx rs = .ok (mgr', id)) {i : ℕ} {d : DesiredRs} :
    mgr'.Desires i d ↔ mgr.Desires i d ∨ i = svcIdx ∧ d = { id := mgr.nextRsId, conf := rs } := by
  obtain ⟨svc, hsvc, -, rfl⟩ := addRs_eq_ok h
  obtain ⟨hlt, rfl⟩ := List.getElem?_eq_some_iff.mp hsvc
  simp only [Desires, List.getElem?_set]
  by_cases hi : svcIdx = i
  · subst hi
    simp [hlt]
  · simp [hi, Ne.symm hi]

theorem Command.run_moves (hc : Config.Valid cfg) (h : Ok cfg mgr) {c : Command} (hr : c.run H mgr = .ok mgr') :
    c.Moves mgr mgr' := by
  have same : ∀ {m : SnapshotManager}, m.nextRsId = mgr.nextRsId ∧ m.cur = mgr.cur → c.assigned mgr = [] →
      (∀ r ∈ m.states, r.entry ∈ mgr.states.map (·.entry)) → c.Moves mgr m := by
    rintro m ⟨hn, hcur⟩ ha hs
    exact ⟨fun r hr => List.mem_append_left _ (hs r hr), by simp [ha, hn], by simp [ha], Or.inl hcur⟩
  have refl : ∀ r ∈ mgr.states, r.entry ∈ mgr.states.map (·.entry) := fun r hr => List.mem_map_of_mem hr
  cases c with
  | setWeight id weight =>
    obtain rfl := Except.ok.inj hr
    unfold SnapshotManager.setWeight
    split
    · exact same ⟨rfl, rfl⟩ rfl refl
    rename_i he
    split
    · exact same ⟨rfl, rfl⟩ rfl refl
    · exact same ⟨rfl, rfl⟩ rfl (states_modifyRs h.ids_nodup he fun _ => ⟨rfl, rfl, rfl⟩)
  | setEnabled id enabled =>
    obtain rfl := Except.ok.inj hr
    unfold SnapshotManager.setEnabled
    split
    · exact same ⟨rfl, rfl⟩ rfl refl
    rename_i he
    exact same ⟨rfl, rfl⟩ rfl (states_modifyRs h.ids_nodup he fun _ => ⟨rfl, rfl, rfl⟩)
  | addRs svcIdx rs =>
    obtain rfl := Except.ok.inj hr
    cases he : mgr.addRs svcIdx rs with
    | error e => exact same ⟨rfl, rfl⟩ (by simp [assigned, he]) refl
    | ok x =>
      obtain ⟨mgr', id⟩ := x
      have hd := @desires_addRs _ _ _ _ _ he
      obtain ⟨svc, -, rfl, rfl⟩ := addRs_eq_ok he
      have ha : assigned mgr (.addRs svcIdx rs) = [⟨mgr.nextRsId, svcIdx, rs.ip, rs.port⟩] := by simp [assigned, he]
      refine ⟨fun r hr => ?_, by rw [ha]; rfl, by rw [ha]; rfl, Or.inl rfl⟩
      obtain ⟨i, d, hd', rfl⟩ := mem_states.mp hr
      rw [ha]
      rcases hd.mp hd' with hd' | ⟨rfl, rfl⟩
      · exact List.mem_append_left _ (List.mem_map_of_mem (mem_states.mpr ⟨i, d, hd', rfl⟩))
      · exact List.mem_append_right _ (List.mem_singleton.mpr rfl)
  | delRs id =>
    obtain rfl := Except.ok.inj hr
    unfold SnapshotManager.delRs
    split
    · exact same ⟨rfl, rfl⟩ rfl refl
    rename_i he
    exact same ⟨rfl, rfl⟩ rfl (states_eraseRs h.ids_nodup he)
  | setHealth id healthy =>
    obtain rfl := Except.ok.inj hr
    unfold SnapshotManager.setHealth
    split
    · exact same ⟨rfl, rfl⟩ rfl refl
    rename_i he
    exact same ⟨rfl, rfl⟩ rfl (states_modifyRs h.ids_nodup he fun _ => ⟨rfl, rfl, rfl⟩)
  | publish =>
    obtain ⟨m, hm, hs, hn, -, hcur⟩ := publish_shows (H := H) hc h
    obtain rfl : m = mgr' := Except.ok.inj (hm.symm.trans hr)
    refine ⟨?_, hn, rfl, Or.inr hcur⟩
    unfold SnapshotManager.states at refl ⊢
    rwa [hs, show assigned mgr .publish = [] from rfl, List.append_nil]

/-- The log is in order, and every real server has its id from it. -/
structure Logged (H : HashFns) (cfg : LbConfig) (mgr : SnapshotManager) (log : List RsEntry) : Prop where
  running : Running H cfg mgr
  sorted : (log.map (·.id)).Pairwise (· < ·)
  lt : ∀ e ∈ log, e.id < mgr.nextRsId
  states : ∀ r ∈ mgr.states, r.entry ∈ log
  cur : ∀ snap, mgr.cur = some snap → snap.Logged log

theorem states_ids (mgr : SnapshotManager) : mgr.states.map (·.id) = idsOf mgr.services := by
  have : ∀ (l : List DesiredService) (f : ℕ → ℕ),
      ((l.mapIdx fun i ds => ds.rs.map (rsState (f i))).flatten).map (·.id) = idsOf l := by
    intro l
    induction l with
    | nil => intro f; rfl
    | cons ds l ih =>
      intro f
      rw [List.mapIdx_cons, List.flatten_cons, List.map_append, idsOf_cons, ih fun i => f (i + 1), List.map_map]
      rfl
  exact this mgr.services fun i => i

end SnapshotManager

theorem Snapshot.Shows.logged {snap : Snapshot} {mgr : SnapshotManager} {log : List RsEntry} (h : snap.Shows mgr)
    (hs : ∀ r ∈ mgr.states, r.entry ∈ log) : snap.Logged log := by
  intro id r hr
  obtain ⟨i, d, hd, rfl, rfl⟩ := (h.rs id r).mp hr
  exact ⟨rfl, rfl, hs _ (SnapshotManager.mem_states.mpr ⟨i, d, hd, rfl⟩)⟩

theorem Snapshot.Logged.mono {snap : Snapshot} {log log' : List RsEntry} (h : snap.Logged log) (hl : log ⊆ log') :
    snap.Logged log' := fun id r hr => ⟨(h id r hr).1, (h id r hr).2.1, hl (h id r hr).2.2⟩

namespace SnapshotManager

variable {H : HashFns} {cfg : LbConfig} {mgr mgr' : SnapshotManager} {id : ℕ} {log : List RsEntry}

/-- An id stands for one real server. -/
theorem Logged.eq_of_id (h : Logged H cfg mgr log) {e e' : RsEntry} (he : e ∈ log) (he' : e' ∈ log)
    (hid : e.id = e'.id) : e = e' :=
  List.inj_on_of_nodup_map (h.sorted.imp fun hlt => Nat.ne_of_lt hlt) he he' hid

theorem Logged.init (hc : Config.Valid cfg) (h : init H cfg = .ok mgr) :
    Logged H cfg mgr (mgr.states.map (·.entry)) := by
  obtain ⟨m, hm, hrun, -⟩ := init_returns (H := H) hc
  obtain rfl : m = mgr := Except.ok.inj (hm.symm.trans h)
  have hids : idsOf m.services = List.range' 1 cfg.rsTotal ∧ ∀ snap, m.cur = some snap → snap.Shows m := by
    obtain ⟨m', hm', hs, -, -, snap, hcur, hshows⟩ := publish_shows (H := H) hc (ok_start hc)
    obtain rfl : m' = m := Except.ok.inj (hm'.symm.trans h)
    refine ⟨hs ▸ (initServices_spec cfg.services 1).2.2.1, fun snap' hs' => ?_⟩
    exact Option.some.inj (hcur.symm.trans hs') ▸ hshows
  have hmap : (m.states.map (·.entry)).map (·.id) = idsOf m.services := by
    rw [List.map_map, ← states_ids]
    rfl
  refine ⟨hrun, ?_, fun e he => ?_, fun r hr => List.mem_map_of_mem hr, fun snap hs => ?_⟩
  · rw [hmap, hids.1]
    exact List.pairwise_lt_range'
  · exact hrun.ok.ids_lt _ (hmap ▸ List.mem_map_of_mem he)
  · exact (hids.2 snap hs).logged fun r hr => List.mem_map_of_mem hr

theorem Logged.run (hc : Config.Valid cfg) (h : Logged H cfg mgr log) {c : Command} (hr : c.run H mgr = .ok mgr') :
    Logged H cfg mgr' (log ++ c.assigned mgr) := by
  have hm := Command.run_moves hc h.running.ok hr
  obtain ⟨m, hm', hrun⟩ := Command.run_returns hc h.running c
  obtain rfl : m = mgr' := Except.ok.inj (hm'.symm.trans hr)
  have hstates : ∀ r ∈ m.states, r.entry ∈ log ++ c.assigned mgr := fun r hr => by
    rcases List.mem_append.mp (hm.states r hr) with he | he
    · obtain ⟨r0, hr0, he⟩ := List.mem_map.mp he
      exact List.mem_append_left _ (he ▸ h.states r0 hr0)
    · exact List.mem_append_right _ he
  have hnew : ∀ e ∈ c.assigned mgr, mgr.nextRsId ≤ e.id ∧ e.id < m.nextRsId := fun e he => by
    have := List.mem_map_of_mem (f := (·.id)) he
    rw [hm.ids, List.mem_range'_1] at this
    rw [hm.next]
    exact this
  refine ⟨hrun, ?_, fun e he => ?_, hstates, fun snap hs => ?_⟩
  · rw [List.map_append, List.pairwise_append]
    refine ⟨h.sorted, hm.ids ▸ List.pairwise_lt_range', fun a ha b hb => ?_⟩
    obtain ⟨e, he, rfl⟩ := List.mem_map.mp ha
    obtain ⟨e', he', rfl⟩ := List.mem_map.mp hb
    exact (h.lt e he).trans_le (hnew e' he').1
  · rcases List.mem_append.mp he with he | he
    · exact (h.lt e he).trans_le (by rw [hm.next]; exact Nat.le_add_right _ _)
    · exact (hnew e he).2
  · rcases hm.cur with hcur | ⟨snap', hcur, hshows⟩
    · exact (h.cur snap (hcur ▸ hs)).mono (List.subset_append_left ..)
    · obtain rfl : snap' = snap := Option.some.inj (hcur.symm.trans hs)
      exact hshows.logged hstates

theorem History.logged (hc : Config.Valid cfg) (h : History H cfg mgr log) : Logged H cfg mgr log := by
  induction h with
  | init h => exact .init hc h
  | run c _ hr ih => exact ih.run hc hr

end SnapshotManager

end L4Lb
