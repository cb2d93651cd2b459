/-
# The counters of a service

`format_counters` (`src/dataplane/worker.cpp`) prints for each service the sums
of the counters of its real servers, over all workers. The counters of a real
server only grow (`Grown.rsTotal_le`), and no id is used twice. But the sums are
made anew at each call, over the real servers that the service has then: those
that `add_rs` brings in start at 0, and with one that `del_rs` takes out goes
all that was counted for it. So the values of a service never go back in a run
precisely if each real server that is deleted from it has had no traffic
(`svcTotal_never_decreases_iff`). The values are those in the text
(`svcTotal_printed`).

The counters are naturals; those of the source are `uint64_t`, so what is proved is
about runs in which none of them, and no sum of them, passes 2^64.
-/
import L4Lb.Processor.Outward
import L4Lb.Snapshot.Desired
import L4Lb.World.Owners

open Checked

namespace L4Lb

/-! ### What is printed -/

/-- `ServiceInfo::Rs`. -/
structure RsInfo where
  id : ℕ
  ip : IPv4Addr
  port : UInt16

structure ServiceInfo where
  idx : ℕ
  name : String
  vip : IPv4Addr
  port : UInt16
  proto : UInt8
  rs : List RsInfo

def SnapshotManager.list (mgr : SnapshotManager) : List ServiceInfo :=
  mgr.services.mapIdx fun i ds => {
    idx := i % 2 ^ 16, name := ds.conf.name, vip := ds.conf.vip, port := ds.conf.port, proto := ds.conf.proto
    rs := ds.rs.map fun r => ⟨r.id, r.conf.ip, r.conf.port⟩ }

/-- The ids of the real servers of service `k`. -/
def SnapshotManager.rsIds (services : List DesiredService) (k : ℕ) : List ℕ :=
  ((services[k]?).map fun ds => ds.rs.map (·.id)).getD []

/-- The additions of `rs_total` and of `format_counters`. -/
def RsCounters.add (t c : RsCounters) : RsCounters where
  conns := t.conns + c.conns
  pktsIn := t.pktsIn + c.pktsIn
  bytesIn := t.bytesIn + c.bytesIn
  pktsOut := t.pktsOut + c.pktsOut
  bytesOut := t.bytesOut + c.bytesOut

/-- The lines of the five counters, under the key `k`. -/
def RsCounters.lines (c : RsCounters) (k : String) : String :=
  s!"{k}conns {c.conns}\n{k}pkts_in {c.pktsIn}\n{k}bytes_in {c.bytesIn}\n" ++
    s!"{k}pkts_out {c.pktsOut}\n{k}bytes_out {c.bytesOut}\n"

namespace World

variable (dp : Dataplane) (W : World)

/-- `rs_total`. -/
def rsTotal (id : ℕ) : RsCounters :=
  if id ≥ kMaxRsCounters then {}
  else (List.range dp.steering.n).foldl (fun t i => t.add ((W.workers i).rsStats id)) {}

/-- The `sum` of `format_counters`. -/
def sumOf (rs : List RsInfo) : RsCounters := rs.foldl (fun sum r => sum.add (W.rsTotal dp r.id)) {}

/-- What `format_counters` prints of a real server. -/
def formatRs (svcIdx : ℕ) (r : RsInfo) : String :=
  let k := s!"rs.{r.id}."
  s!"{k}svc {svcIdx}\n{k}addr {ipToString r.ip}:{r.port}\n" ++ (W.rsTotal dp r.id).lines k

/-- What `format_counters` prints of a service. -/
def formatService (svc : ServiceInfo) : String :=
  let k := s!"svc.{svc.idx}."
  let proto := if svc.proto = 17 then "udp" else "tcp"
  s!"{k}name {svc.name}\n{k}addr {ipToString svc.vip}:{svc.port}/{proto}\n" ++ (W.sumOf dp svc.rs).lines k ++
    String.join (svc.rs.map (W.formatRs dp svc.idx))

/-- The part of `format_counters` about the services. -/
def formatServices : String := String.join (W.mgr.list.map (W.formatService dp))

/-- The values that are printed of service `k`. -/
def svcTotal (k : ℕ) : RsCounters := ((W.mgr.list[k]?).map fun svc => W.sumOf dp svc.rs).getD {}

/-- The real servers that service `k` has. -/
def svcRsIds (k : ℕ) : List ℕ := SnapshotManager.rsIds W.mgr.services k

end World

/-! ### The sums -/

theorem Account.ofRs_add (a : Account) (t c : RsCounters) : a.ofRs (t.add c) = a.ofRs t + a.ofRs c := by
  cases a <;> rfl

theorem Account.ofRs_empty (a : Account) : a.ofRs {} = 0 := by
  cases a <;> rfl

theorem Account.ofRs_foldl {α : Type} (a : Account) (f : α → RsCounters) : ∀ (l : List α) (t : RsCounters),
    a.ofRs (l.foldl (fun t x => t.add (f x)) t) = a.ofRs t + (l.map fun x => a.ofRs (f x)).sum
  | [], t => by simp
  | x :: l, t => by
    rw [List.foldl_cons, Account.ofRs_foldl a f l, Account.ofRs_add, List.map_cons, List.sum_cons, Nat.add_assoc]

namespace World

variable {dp : Dataplane} {W W' : World}

theorem ofRs_rsTotal (a : Account) (id : ℕ) :
    a.ofRs (W.rsTotal dp id) =
      if id ≥ kMaxRsCounters then 0
      else ((List.range dp.steering.n).map fun i => a.ofRs ((W.workers i).rsStats id)).sum := by
  unfold rsTotal
  split
  · exact a.ofRs_empty
  · rw [Account.ofRs_foldl, a.ofRs_empty, Nat.zero_add]

theorem ofRs_svcTotal (a : Account) (k : ℕ) :
    a.ofRs (W.svcTotal dp k) = ((W.svcRsIds k).map fun id => a.ofRs (W.rsTotal dp id)).sum := by
  unfold svcTotal svcRsIds SnapshotManager.rsIds SnapshotManager.list
  rw [List.getElem?_mapIdx]
  cases W.mgr.services[k]? with
  | none => exact a.ofRs_empty
  | some ds =>
    show a.ofRs (W.sumOf dp (ds.rs.map _)) = ((ds.rs.map _).map _).sum
    rw [sumOf, Account.ofRs_foldl, a.ofRs_empty, Nat.zero_add, List.map_map, List.map_map]
    rfl

theorem formatService_eq (dp : Dataplane) (W : World) (svc : ServiceInfo) : ∃ head rs,
    W.formatService dp svc = head ++ (W.sumOf dp svc.rs).lines s!"svc.{svc.idx}." ++ rs :=
  ⟨_, _, rfl⟩

/-- The values of service `k` are printed under its key. -/
theorem svcTotal_printed {k : ℕ} {svc : ServiceInfo} (h : W.mgr.list[k]? = some svc) :
    svc.idx = k % 2 ^ 16 ∧ ∃ before after,
      W.formatServices dp = before ++ (W.svcTotal dp k).lines s!"svc.{svc.idx}." ++ after := by
  constructor
  · rw [SnapshotManager.list, List.getElem?_mapIdx] at h
    obtain ⟨ds, -, rfl⟩ := Option.map_eq_some_iff.mp h
    rfl
  have hsum : W.svcTotal dp k = W.sumOf dp svc.rs := by
    rw [svcTotal, h]
    rfl
  obtain ⟨pre, post, hlist⟩ := List.append_of_mem (List.mem_of_getElem? h)
  obtain ⟨head, rs, hsvc⟩ := formatService_eq dp W svc
  refine ⟨String.join (pre.map (W.formatService dp)) ++ head, rs ++ String.join (post.map (W.formatService dp)), ?_⟩
  rw [formatServices, hlist, List.map_append, String.join_append, List.map_cons, String.join_cons, hsvc, hsum]
  simp only [String.append_assoc]

/-- The counters of the real servers grow from one state to the other. -/
def Grown (W W' : World) : Prop := ∀ j, Grows (W.workers j) (W'.workers j)

theorem Grown.rsTotal_le (h : Grown W W') (a : Account) (id : ℕ) :
    a.ofRs (W.rsTotal dp id) ≤ a.ofRs (W'.rsTotal dp id) := by
  rw [ofRs_rsTotal, ofRs_rsTotal]
  split
  · exact le_rfl
  · exact List.sum_le_sum fun i _ => h i id a

/-- More real servers, whose counters have grown. -/
theorem Grown.svcTotal_le (h : Grown W W') {k : ℕ} (hids : W.svcRsIds k <+: W'.svcRsIds k) (a : Account) :
    a.ofRs (W.svcTotal dp k) ≤ a.ofRs (W'.svcTotal dp k) := by
  obtain ⟨new, hnew⟩ := hids
  calc a.ofRs (W.svcTotal dp k)
      = ((W.svcRsIds k).map fun id => a.ofRs (W.rsTotal dp id)).sum := ofRs_svcTotal a k
    _ ≤ ((W.svcRsIds k).map fun id => a.ofRs (W'.rsTotal dp id)).sum :=
        List.sum_le_sum fun id _ => h.rsTotal_le a id
    _ ≤ ((W'.svcRsIds k).map fun id => a.ofRs (W'.rsTotal dp id)).sum := by
        rw [← hnew, List.map_append, List.sum_append]
        exact Nat.le_add_right _ _
    _ = a.ofRs (W'.svcTotal dp k) := (ofRs_svcTotal a k).symm

end World

/-! ### The real servers of a service -/

namespace SnapshotManager

variable {H : HashFns} {mgr mgr' : SnapshotManager}

theorem rsIds_map {f : DesiredService → DesiredService} (hf : ∀ ds, (f ds).rs.map (·.id) = ds.rs.map (·.id))
    (services : List DesiredService) (k : ℕ) : rsIds (services.map f) k = rsIds services k := by
  unfold rsIds
  rw [List.getElem?_map]
  cases services[k]? with
  | none => rfl
  | some ds => exact hf ds

theorem rsIds_modifyRs {id : ℕ} {f : DesiredRs → DesiredRs} (hf : ∀ r, (f r).id = r.id)
    (hn : (idsOf mgr.services).Nodup) {services : List DesiredService}
    (h : modifyRs id f mgr.services = some services) (k : ℕ) : rsIds services k = rsIds mgr.services k := by
  rw [modifyRs_eq hn] at h
  split at h
  · rw [← Option.some.inj h]
    refine rsIds_map (fun ds => ?_) _ k
    rw [DesiredService.onRs, List.map_map]
    refine List.map_congr_left fun r _ => ?_
    show (if r.id = id then f r else r).id = r.id
    split
    · exact hf r
    · rfl
  · cases h

theorem rsIds_map_without (id : ℕ) (services : List DesiredService) (k : ℕ) :
    rsIds (services.map (·.without id)) k = (rsIds services k).filter (· ≠ id) := by
  unfold rsIds
  rw [List.getElem?_map]
  cases services[k]? with
  | none => rfl
  | some ds =>
    show (ds.rs.filter _).map _ = (ds.rs.map _).filter _
    rw [List.filter_map]
    rfl

theorem rsIds_delRs (hn : (idsOf mgr.services).Nodup) {id : ℕ} (hr : Command.run H mgr (.delRs id) = .ok mgr')
    (k : ℕ) : rsIds mgr'.services k = (rsIds mgr.services k).filter (· ≠ id) := by
  obtain rfl := Except.ok.inj hr
  unfold delRs
  rw [eraseRs_eq hn]
  by_cases hid : id ∈ idsOf mgr.services
  · rw [if_pos hid]
    exact rsIds_map_without id mgr.services k
  · rw [if_neg hid, ← rsIds_map_without, map_without_of_notMem hid]
    rfl

/-- Only `del_rs` takes a real server out of a service. -/
theorem rsIds_prefix_of_ne_delRs (hn : (idsOf mgr.services).Nodup) {c : Command} (hr : c.run H mgr = .ok mgr')
    (hc : ∀ id, c ≠ .delRs id) (k : ℕ) : rsIds mgr.services k <+: rsIds mgr'.services k := by
  have same : ∀ {id : ℕ} {f : DesiredRs → DesiredRs} {services : List DesiredService},
      modifyRs id f mgr.services = some services → (∀ r, (f r).id = r.id) →
      rsIds mgr.services k <+: rsIds services k :=
    fun he hf => rsIds_modifyRs hf hn he k ▸ List.prefix_rfl
  cases c with
  | setWeight id weight =>
    obtain rfl := Except.ok.inj hr
    unfold setWeight
    split
    · exact List.prefix_rfl
    rename_i he
    split
    · exact List.prefix_rfl
    · exact same he fun _ => rfl
  | setEnabled id enabled =>
    obtain rfl := Except.ok.inj hr
    unfold setEnabled
    split
    · exact List.prefix_rfl
    · rename_i he
      exact same he fun _ => rfl
  | addRs svcIdx rs =>
    obtain rfl := Except.ok.inj hr
    cases he : mgr.addRs svcIdx rs with
    | error e => exact List.prefix_rfl
    | ok x =>
      obtain ⟨m, id⟩ := x
      obtain ⟨svc, hsvc, -, rfl⟩ := addRs_eq_ok he
      show rsIds mgr.services k <+: rsIds (mgr.services.set svcIdx _) k
      unfold rsIds
      by_cases hk : svcIdx = k
      · subst hk
        rw [List.getElem?_set_self (List.getElem?_eq_some_iff.mp hsvc).1, hsvc, Option.map_some, Option.map_some,
          Option.getD_some, Option.getD_some, List.map_append]
        exact List.prefix_append _ _
      · rw [List.getElem?_set_ne hk]
  | delRs id => exact absurd rfl (hc id)
  | setHealth id healthy =>
    obtain rfl := Except.ok.inj hr
    unfold setHealth
    split
    · exact List.prefix_rfl
    · rename_i he
      exact same he fun _ => rfl
  | publish =>
    obtain ⟨snap, -, h⟩ := bind_eq_ok.mp hr
    exact Except.ok.inj h ▸ List.prefix_rfl

theorem rsIds_nodup (hn : (idsOf mgr.services).Nodup) (k : ℕ) : (rsIds mgr.services k).Nodup := by
  unfold rsIds
  cases hk : mgr.services[k]? with
  | none => exact List.nodup_nil
  | some ds => exact (List.nodup_flatMap.mp hn).1 ds (List.mem_of_getElem? hk)

end SnapshotManager

/-! ### Steps and runs -/

namespace World

open SnapshotManager (rsIds_delRs rsIds_prefix_of_ne_delRs rsIds_nodup)

variable {dp : Dataplane} {W W' : World}

theorem Grown.setWorker {i : ℕ} {w : WorkerCtx} (h : Grows (W.workers i) w) : Grown W (W.setWorker i w) := by
  intro j
  by_cases hj : j = i
  · subst hj
    rw [setWorker_self]
    exact h
  · rw [setWorker_other W w hj]
    exact .refl _

theorem handle_grown {view : NeighView} {i : ℕ} {w : WorkerCtx} {m : Mbuf} {redirected : Bool}
    (hw : Grows (W.workers i) w) (h : W.handle dp view i w m redirected = .ok W') :
    Grown W W' ∧ W'.mgr = W.mgr := by
  obtain ⟨o, ho, h⟩ := bind_eq_ok.mp h
  obtain rfl := Except.ok.inj h
  have hg := hw.trans (processPacket_grows dp view w _ m redirected o ho)
  obtain ⟨w1, m1, r⟩ := o
  cases r with
  | send => exact ⟨.setWorker hg, rfl⟩
  | drop e => exact ⟨.setWorker (hg.trans (.of_eq rfl)), rfl⟩
  | redirect k =>
    unfold finish
    simp only
    split
    · have hg' : Grows (W.workers i) (w1.count .redirectOut) := hg.trans (.of_eq rfl)
      exact ⟨fun j => Grown.setWorker hg' j, rfl⟩
    · exact ⟨.setWorker (hg.trans (.of_eq rfl)), rfl⟩
  | consumed => exact ⟨.setWorker hg, rfl⟩

/-- What a step does to the counters of the real servers, and to the manager. -/
theorem step_grown {ev : Event} (h : W.step dp ev = .ok W') :
    Grown W W' ∧ ((∃ c, ev = .command c ∧ c.run dp.H W.mgr = .ok W'.mgr ∧ W'.workers = W.workers) ∨
      (∀ c, ev ≠ .command c) ∧ W'.mgr = W.mgr) := by
  have other : ∀ {ev : Event}, (∀ c, ev ≠ .command c) → Grown W W' ∧ W'.mgr = W.mgr → Grown W W' ∧
      ((∃ c, ev = .command c ∧ c.run dp.H W.mgr = .ok W'.mgr ∧ W'.workers = W.workers) ∨
        (∀ c, ev ≠ .command c) ∧ W'.mgr = W.mgr) := fun hev h => ⟨h.1, Or.inr ⟨hev, h.2⟩⟩
  cases ev with
  | receive i m view =>
    refine other (by simp) (handle_grown ?_ h)
    exact .ite (.of_eq rfl) (.of_eq rfl)
  | takeRedirected i view =>
    refine other (by simp) ?_
    unfold step at h
    cases hring : W.rings i with
    | nil =>
      simp only [hring] at h
      exact Except.ok.inj h ▸ ⟨fun j => .refl _, rfl⟩
    | cons m rest =>
      simp only [hring] at h
      exact handle_grown (W := { W with rings := Function.update W.rings i rest })
        (w := (W.workers i).count .redirectIn) (.of_eq rfl) h
  | turn i =>
    refine other (by simp) ?_
    unfold step at h
    simp only at h
    split at h
    · cases h
    split at h
    · exact Except.ok.inj h ▸ ⟨fun j => .refl _, rfl⟩
    · obtain rfl := Except.ok.inj h
      have h1 : Grown W (W.setWorker i { W.workers i with cursors := fun _ => Scheduler.firstCursor i }) :=
        .setWorker (.of_eq rfl)
      exact ⟨fun j => h1 j, rfl⟩
  | readClock i tsc =>
    refine other (by simp) ?_
    obtain ⟨w1, hw, h⟩ := bind_eq_ok.mp h
    obtain rfl := Except.ok.inj h
    unfold WorkerCtx.readClock at hw
    simp only at hw
    split at hw
    · cases hw
    · exact ⟨.setWorker (Except.ok.inj hw ▸ .of_eq rfl), rfl⟩
  | command c =>
    obtain ⟨mgr, hc, h⟩ := bind_eq_ok.mp h
    obtain rfl := Except.ok.inj h
    exact ⟨fun j => .refl _, Or.inl ⟨c, rfl, hc, rfl⟩⟩

/-- With a real server that is taken out goes what was counted for it. -/
theorem svcTotal_delRs (hn : (SnapshotManager.idsOf W.mgr.services).Nodup) {id : ℕ}
    (hr : SnapshotManager.Command.run dp.H W.mgr (.delRs id) = .ok W'.mgr) (hw : W'.workers = W.workers) {k : ℕ}
    (hid : id ∈ W.svcRsIds k) (a : Account) :
    a.ofRs (W.svcTotal dp k) = a.ofRs (W.rsTotal dp id) + a.ofRs (W'.svcTotal dp k) := by
  have hids : W'.svcRsIds k = (W.svcRsIds k).erase id := by
    have hnodup : (W.svcRsIds k).Nodup := rsIds_nodup hn k
    rw [hnodup.erase_eq_filter]
    refine (rsIds_delRs hn hr k).trans (List.filter_congr fun id' _ => ?_)
    by_cases he : id' = id <;> simp [he]
  have htotal : W'.rsTotal dp = W.rsTotal dp := by
    funext id
    rw [rsTotal, rsTotal, hw]
  rw [ofRs_svcTotal, ofRs_svcTotal, hids, htotal]
  exact (List.sum_map_erase _ hid).symm

/-- One step lets no value of service `k` go back, unless it deletes a real
server for which something was counted. -/
theorem step_svcTotal_le_iff (h : Inv dp W) {ev : Event} (hs : W.step dp ev = .ok W') (k : ℕ) :
    (∀ a : Account, a.ofRs (W.svcTotal dp k) ≤ a.ofRs (W'.svcTotal dp k)) ↔
      ∀ id, ev = .command (.delRs id) → id ∈ W.svcRsIds k → ∀ a : Account, a.ofRs (W.rsTotal dp id) = 0 := by
  have hn := h.running.ok.ids_nodup
  obtain ⟨hgrown, ⟨c, rfl, hc, hw⟩ | ⟨hev, hmgr⟩⟩ := step_grown hs
  · by_cases hdel : ∃ id, c = .delRs id
    · obtain ⟨id, rfl⟩ := hdel
      constructor
      · intro hle id' he hid a
        obtain rfl : id = id' := by simpa using he
        have := svcTotal_delRs hn hc hw hid a
        have := hle a
        omega
      · intro h0 a
        by_cases hid : id ∈ W.svcRsIds k
        · rw [svcTotal_delRs hn hc hw hid a, h0 id rfl hid a, Nat.zero_add]
        · refine hgrown.svcTotal_le ?_ a
          have hids : W'.svcRsIds k = (W.svcRsIds k).filter (· ≠ id) := rsIds_delRs hn hc k
          rw [hids, List.filter_eq_self.mpr]
          intro id' hid'
          simpa using fun he : id' = id => hid (he ▸ hid')
    · rw [not_exists] at hdel
      refine ⟨fun _ id he => absurd (Event.command.inj he) (hdel id), fun _ a => ?_⟩
      exact hgrown.svcTotal_le (rsIds_prefix_of_ne_delRs hn hc hdel k) a
  · refine ⟨fun _ id he => absurd he (hev _), fun _ a => hgrown.svcTotal_le ?_ a⟩
    rw [svcRsIds, svcRsIds, hmgr]

theorem run_append {a b : List Event} :
    W.run dp (a ++ b) = .ok W' ↔ ∃ W1, W.run dp a = .ok W1 ∧ W1.run dp b = .ok W' := by
  unfold run
  rw [List.foldlM_append, bind_eq_ok]

theorem run_cons {ev : Event} {b : List Event} :
    W.run dp (ev :: b) = .ok W' ↔ ∃ W1, W.step dp ev = .ok W1 ∧ W1.run dp b = .ok W' := by
  unfold run
  rw [List.foldlM_cons, bind_eq_ok]

/-- **The values of a service never go back precisely if no real server with
traffic is deleted from it.** For every run of a system that was started from an
accepted configuration, and any two calls of `format_counters` in it, the first
after the events `a` and the second after the events `b` that follow: the second
call prints no smaller value for service `k`, if and only if every `del_rs` of
the run that takes a real server out of service `k` comes when all its counters
are 0. -/
theorem svcTotal_never_decreases_iff (hcfg : Config.Accepted dp.cfg) (h : Reach dp W) {evs : List Event}
    (hv : ∀ ev ∈ evs, ev.Valid dp.steering.n) (hr : W.run dp evs = .ok W') (k : ℕ) :
    (∀ a b c Wa Wb, evs = a ++ b ++ c → W.run dp a = .ok Wa → Wa.run dp b = .ok Wb →
      ∀ acc : Account, acc.ofRs (Wa.svcTotal dp k) ≤ acc.ofRs (Wb.svcTotal dp k)) ↔
    ∀ a id c Wa, evs = a ++ .command (.delRs id) :: c → W.run dp a = .ok Wa → id ∈ Wa.svcRsIds k →
      ∀ acc : Account, acc.ofRs (Wa.rsTotal dp id) = 0 := by
  have hinv : ∀ {a rest : List Event} {Wa : World}, evs = a ++ rest → W.run dp a = .ok Wa → Inv dp Wa := by
    intro a rest Wa he ha
    subst he
    exact reach_inv hcfg (h.run (fun ev hev => hv ev (List.mem_append_left _ hev)) ha)
  constructor
  · intro hle a id c Wa he ha hid
    subst he
    obtain ⟨Wa', ha', hrest⟩ := run_append.mp hr
    obtain rfl : Wa = Wa' := Except.ok.inj (ha.symm.trans ha')
    obtain ⟨Wb, hs, -⟩ := run_cons.mp hrest
    refine (step_svcTotal_le_iff (hinv rfl ha) hs k).mp ?_ id rfl hid
    exact hle a [_] c Wa Wb (by simp) ha (run_cons.mpr ⟨Wb, hs, rfl⟩)
  · intro h0 a b c Wa Wb he ha hb acc
    -- over the events between the two calls
    induction b generalizing a Wa with
    | nil => exact Except.ok.inj hb ▸ le_rfl
    | cons ev b ih =>
      obtain ⟨W1, hs, hb⟩ := run_cons.mp hb
      have he' : evs = a ++ (ev :: b ++ c) := by simpa using he
      have hstep := (step_svcTotal_le_iff (hinv he' ha) hs k).mpr ?_ acc
      · refine hstep.trans (ih (a ++ [ev]) W1 (by simpa using he) ?_ hb)
        exact run_append.mpr ⟨Wa, ha, run_cons.mpr ⟨W1, hs, rfl⟩⟩
      · rintro id rfl hid
        exact h0 a id (b ++ c) Wa (by simpa using he) ha hid

/-- A query is forwarded and the other real server is deleted: the values of the
service grow, and stay. -/
theorem svcTotal_grows_query : ∃ W W1 W2, boot demo = .ok W ∧ W.run demo [.receive 0 queryFrame noNeigh] = .ok W1 ∧
    W1.run demo [.command (.delRs 2)] = .ok W2 ∧ 2 ∈ W1.svcRsIds 0 ∧ 2 ∉ W2.svcRsIds 0 ∧
    (W.svcTotal demo 0).bytesIn = 0 ∧ (W1.svcTotal demo 0).bytesIn = 42 ∧
    ∀ acc : Account, acc.ofRs (W.svcTotal demo 0) ≤ acc.ofRs (W1.svcTotal demo 0) ∧
      acc.ofRs (W1.svcTotal demo 0) ≤ acc.ofRs (W2.svcTotal demo 0) := by
  have h : Returns (boot demo) fun W => (W.svcTotal demo 0).bytesIn = 0 ∧
      Returns (W.run demo [.receive 0 queryFrame noNeigh]) fun W1 => (W1.svcTotal demo 0).bytesIn = 42 ∧
        2 ∈ W1.svcRsIds 0 ∧ W1.rsTotal demo 2 = {} ∧
        Returns (W1.run demo [.command (.delRs 2)]) fun W2 => 2 ∉ W2.svcRsIds 0 := by
    decide +kernel
  obtain ⟨W, hb, h0, W1, h1, h42, hin, hidle, W2, h2, hout⟩ := h
  have hrun : W.run demo [.receive 0 queryFrame noNeigh, .command (.delRs 2)] = .ok W2 := run_append.mpr ⟨W1, h1, h2⟩
  have hiff := svcTotal_never_decreases_iff demo_accepted (.boot hb) (by decide) hrun 0
  have hle := hiff.mpr fun a id c Wa he ha _ acc => by
    -- the only deletion is the one of the idle real server
    obtain ⟨rfl, rfl⟩ : a = [.receive 0 queryFrame noNeigh] ∧ id = 2 := by
      rcases a with - | ⟨ev, - | ⟨ev', a⟩⟩ <;> simp_all
    obtain rfl := Except.ok.inj (h1.symm.trans ha)
    rw [hidle, acc.ofRs_empty]
  refine ⟨W, W1, W2, hb, h1, h2, hin, hout, h0, h42, fun acc => ⟨?_, ?_⟩⟩
  · exact hle [] [_] [_] W W1 rfl rfl h1 acc
  · exact hle [_] [_] [] W1 W2 rfl h1 h2 acc

/-- The real server of a query is deleted: the values of the service fall. -/
theorem svcTotal_falls : ∃ W W1 W2, boot demo = .ok W ∧ W.run demo [.receive 0 queryFrame noNeigh] = .ok W1 ∧
    W1.run demo [.command (.delRs 1)] = .ok W2 ∧
    (W1.svcTotal demo 0).conns = 1 ∧ (W1.svcTotal demo 0).bytesIn = 42 ∧
    (W2.svcTotal demo 0).conns = 0 ∧ (W2.svcTotal demo 0).bytesIn = 0 := by
  have h : Returns (boot demo) fun W => Returns (W.run demo [.receive 0 queryFrame noNeigh]) fun W1 =>
      Returns (W1.run demo [.command (.delRs 1)]) fun W2 =>
        (W1.svcTotal demo 0).conns = 1 ∧ (W1.svcTotal demo 0).bytesIn = 42 ∧
        (W2.svcTotal demo 0).conns = 0 ∧ (W2.svcTotal demo 0).bytesIn = 0 := by
    decide +kernel
  obtain ⟨W, hb, W1, h1, W2, h2, h⟩ := h
  exact ⟨W, W1, W2, hb, h1, h2, h⟩

end World

end L4Lb
