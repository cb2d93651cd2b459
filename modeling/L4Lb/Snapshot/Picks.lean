/-
# What the schedulers pick

A snapshot is built with a scheduler for each service. For every desired state
that commands lead to, both schedulers pick a real server that is enabled,
healthy and of positive weight, for every tuple and every value of the cursor,
and pick none exactly if the service has no such real server
(`History.picks_schedulable`). A service has at most 256 real servers, so that
no position is lost in the 16 bits of a table entry.
-/
import L4Lb.Snapshot.Answers

open Checked

namespace L4Lb
namespace SnapshotManager

variable {H : HashFns} {cfg : LbConfig} {mgr mgr' : SnapshotManager} {log : List RsEntry} {snap : Snapshot}

/-! ### The services of a snapshot -/

theorem buildServices_mem : ∀ {l : List DesiredService} {i : ℕ} {byId byId' : List (Option RsState)}
    {services : List Service}, buildServices H l i byId = .ok (services, byId') →
    ∀ svc ∈ services, ∃ ds ∈ l, ∃ j, buildService H ds j = .ok svc
  | [], _, _, _, services, h, svc, hsvc => by
    obtain ⟨rfl, -⟩ := Prod.mk.inj (Except.ok.inj h)
    simp at hsvc
  | ds :: rest, i, byId, byId', services, h, svc, hsvc => by
    unfold buildServices at h
    obtain ⟨svc0, h0, h⟩ := bind_eq_ok.mp h
    obtain ⟨byId1, -, h⟩ := bind_eq_ok.mp h
    obtain ⟨⟨services1, byId2⟩, h1, h⟩ := bind_eq_ok.mp h
    obtain ⟨rfl, -⟩ := Prod.mk.inj (Except.ok.inj h)
    rcases List.mem_cons.mp hsvc with rfl | hsvc
    · exact ⟨ds, List.mem_cons_self, i, h0⟩
    · obtain ⟨ds', hds', j, hj⟩ := buildServices_mem h1 svc hsvc
      exact ⟨ds', List.mem_cons_of_mem _ hds', j, hj⟩

/-- Every service of a snapshot is built from a desired one. -/
theorem build_mem (h : mgr.build H = .ok snap) : ∀ svc ∈ snap.services, ∃ ds ∈ mgr.services, ∃ j,
    buildService H ds j = .ok svc := by
  obtain ⟨⟨services, byId⟩, hbs, hidx⟩ := bind_eq_ok.mp h
  rw [(Snapshot.index_same hidx).2]
  exact buildServices_mem hbs

theorem backend_weight_eq_zero {r : RsState} : r.backend.weight = 0 ↔ r.schedulable = false := by
  unfold RsState.backend
  cases hs : r.schedulable with
  | false => simp
  | true =>
    have : 0 < r.weight := by
      simp only [RsState.schedulable, Bool.and_eq_true, decide_eq_true_eq] at hs
      exact hs.2
    simpa using Nat.ne_of_gt this

/-- The table of a service is empty just if it has no real server for new
sessions. -/
theorem buildService_picks {ds : DesiredService} (hlen : ds.rs.length ≤ 2 ^ 16) {j : ℕ} {svc : Service}
    (h : buildService H ds j = .ok svc) :
    FromDesired j ds svc ∧ (svc.sched.table = [] ↔ ∀ r ∈ svc.rs, r.schedulable = false) := by
  obtain ⟨svc', h', hfrom⟩ := buildService_returns (H := H) hlen j
  obtain rfl : svc' = svc := Except.ok.inj (h'.symm.trans h)
  refine ⟨hfrom, ?_⟩
  obtain ⟨sched, hsched, hb⟩ := bind_eq_ok.mp h
  obtain ⟨sched', hsched', -, -, hempty⟩ := Scheduler.build_returns H ds.conf.sched
    (b := (ds.rs.map (rsState j)).map (·.backend)) (by simpa using hlen)
  obtain rfl : sched' = sched := Except.ok.inj (hsched'.symm.trans hsched)
  obtain rfl := Except.ok.inj hb
  simp only [List.forall_mem_map, backend_weight_eq_zero] at hempty ⊢
  exact hempty

/-! ### The picks -/

/-- **A scheduler picks a real server that takes new sessions, if there is
one.** For every desired state that commands lead to, a snapshot is built; and
for each of its services, every tuple and every cursor, `pick` returns -1
exactly if no real server of the service is enabled, healthy and of positive
weight, and otherwise the position of one that is. The positions fit a table
entry. -/
theorem History.picks_schedulable (hcfg : Config.Accepted cfg) (h : History H cfg mgr log) :
    ∃ snap, mgr.build H = .ok snap ∧ ∀ svc ∈ snap.services, svc.rs.length ≤ kMaxRsPerService ∧
      ∀ tuple cursor,
        ((svc.sched.pick H tuple cursor).1 = none ↔
          ¬ ∃ r ∈ svc.rs, r.enabled = true ∧ r.healthy = true ∧ 0 < r.weight) ∧
        ∀ i, (svc.sched.pick H tuple cursor).1 = some i → i < svc.rs.length ∧
          ∃ r, svc.rs[i]? = some r ∧ r.enabled = true ∧ r.healthy = true ∧ 0 < r.weight := by
  have hsched : ∀ r : RsState, r.schedulable = true ↔ r.enabled = true ∧ r.healthy = true ∧ 0 < r.weight :=
    fun r => by simp [RsState.schedulable, RsState.usable, and_assoc]
  have hok := (h.logged hcfg.valid).running.ok
  obtain ⟨snap, hb, -⟩ := build_returns (H := H) hcfg.valid hok
  refine ⟨snap, hb, fun svc hsvc => ?_⟩
  obtain ⟨ds, hds, j, hj⟩ := build_mem hb svc hsvc
  obtain ⟨hfrom, hempty⟩ := buildService_picks (hok.rs_fit ds hds) hj
  refine ⟨?_, fun tuple cursor => ⟨?_, fun i hi => ?_⟩⟩
  · rw [hfrom.rs, List.length_map]
    exact hok.rs_le ds hds
  · rw [Scheduler.pick_eq_none_iff, hempty]
    constructor
    · rintro hno ⟨r, hr, hyes⟩
      rw [← hsched, hno r hr] at hyes
      simp at hyes
    · intro hno r hr
      rw [← Bool.not_eq_true, hsched]
      exact fun hyes => hno ⟨r, hr, hyes⟩
  · obtain ⟨r, hr, hs⟩ := hfrom.sched i (Scheduler.pick_mem hi)
    exact ⟨(List.getElem?_eq_some_iff.mp hr).1, r, hr, (hsched r).mp hs⟩

/-- With the first real server of the demo disabled, the second is picked. -/
theorem History.picks_schedulable_demo : ∃ mgr log, History flatHash demoConfig mgr log ∧
    ∃ snap, mgr.build flatHash = .ok snap ∧ ∃ svc ∈ snap.services,
      (svc.rs.map (·.enabled)) = [false, true] ∧ ∃ r, svc.rs[1]? = some r ∧ r.enabled = true ∧
        (svc.sched.pick flatHash FiveTuple.zero 5).1 = some 1 := by
  obtain ⟨mgr, hm, mgr', hr, snap0, hb0, svc, hsvc, hen, hpick⟩ :
      Returns (SnapshotManager.init flatHash demoConfig) fun mgr =>
        Returns (Command.run flatHash mgr (.setEnabled 1 false)) fun mgr' =>
          Returns (mgr'.build flatHash) fun snap => ∃ svc ∈ snap.services,
            (svc.rs.map (·.enabled)) = [false, true] ∧ (svc.sched.pick flatHash FiveTuple.zero 5).1 = some 1 := by
    decide +kernel
  have hist : History flatHash demoConfig mgr' _ := .run _ (.init hm) hr
  obtain ⟨snap, hb, hall⟩ := hist.picks_schedulable demoConfig_accepted
  obtain rfl : snap0 = snap := Except.ok.inj (hb0.symm.trans hb)
  obtain ⟨-, r, hr, hon, -⟩ := ((hall svc hsvc).2 FiveTuple.zero 5).2 1 hpick
  exact ⟨mgr', _, hist, snap0, hb, svc, hsvc, hen, r, hr, hon, hpick⟩

end SnapshotManager
end L4Lb
