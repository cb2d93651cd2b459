/-
# Who changes the health of a real server

The reports that `drain_health` takes set it, and nothing else does. A line of the
operator changes nothing, or it is one command of the manager and a `publish`
(`Control.execute_commits`), and no such command touches the health of a real server;
a new one is healthy, and no report has been about its id
(`SnapshotManager.Heeds.run`).
-/
import L4Lb.Control.Replies

open Checked

namespace L4Lb

/-- The health of a real server by the last report about it; without one it is healthy. -/
def lastHealth (evs : List HealthEvent) (id : ℕ) : Bool :=
  ((evs.filter (·.rsId = id)).getLast?).elim true (·.healthy)

theorem lastHealth_concat (evs : List HealthEvent) (ev : HealthEvent) (id : ℕ) :
    lastHealth (evs ++ [ev]) id = if ev.rsId = id then ev.healthy else lastHealth evs id := by
  unfold lastHealth
  rw [List.filter_append]
  by_cases h : ev.rsId = id
  · simp [h]
  · simp [h]

theorem lastHealth_of_silent {evs : List HealthEvent} {id : ℕ} (h : ∀ ev ∈ evs, ev.rsId ≠ id) :
    lastHealth evs id = true := by
  unfold lastHealth
  rw [List.filter_eq_nil_iff.mpr fun ev hev => by simpa using h ev hev]
  rfl

namespace SnapshotManager

variable {H : HashFns} {cfg : LbConfig} {mgr mgr' : SnapshotManager} {log : List RsEntry} {evs : List HealthEvent}

/-- The commands of the operator: all but the reports. -/
def Command.Operator : Command → Prop
  | setHealth _ _ => False
  | _ => True

theorem desires_without {id i : ℕ} {d : DesiredRs}
    (h : { mgr with services := mgr.services.map (DesiredService.without id) }.Desires i d) : mgr.Desires i d := by
  obtain ⟨ds, hds, hd⟩ := h
  rw [List.getElem?_map] at hds
  obtain ⟨ds0, hds0, rfl⟩ := Option.map_eq_some_iff.mp hds
  exact ⟨ds0, hds0, (List.mem_filter.mp hd).1⟩

/-- The health of a wanted real server is as before. -/
def SameHealth (mgr : SnapshotManager) (i : ℕ) (d : DesiredRs) : Prop :=
  ∃ d0, mgr.Desires i d0 ∧ d0.id = d.id ∧ d0.healthy = d.healthy

theorem Desires.sameHealth {i : ℕ} {d : DesiredRs} (h : mgr.Desires i d) : mgr.SameHealth i d := ⟨d, h, rfl, rfl⟩

theorem SameHealth.of_update {id i : ℕ} {f : DesiredRs → DesiredRs} {d : DesiredRs}
    (h : { mgr with services := mgr.services.map (DesiredService.onRs id f) }.Desires i d)
    (hf : ∀ r, (f r).id = r.id ∧ (f r).healthy = r.healthy) : mgr.SameHealth i d := by
  obtain ⟨d0, hd0, rfl⟩ := desires_onRs.mp h
  refine ⟨d0, hd0, ?_⟩
  split
  · exact ⟨(hf d0).1.symm, (hf d0).2.symm⟩
  · exact ⟨rfl, rfl⟩

/-- The operator does not change the health of a real server, and a new one is healthy. -/
theorem Command.run_health (hc : Config.Valid cfg) (h : Ok cfg mgr) {c : Command} (hop : c.Operator)
    (hr : c.run H mgr = .ok mgr') {i : ℕ} {d : DesiredRs} (hd : mgr'.Desires i d) :
    mgr.SameHealth i d ∨ (d.id = mgr.nextRsId ∧ d.healthy = true) := by
  cases c with
  | setWeight id weight =>
    obtain rfl := Except.ok.inj hr
    rw [Control.setWeight_eq h.ids_nodup] at hd
    split at hd
    swap
    · exact Or.inl (Desires.sameHealth hd)
    split at hd
    · exact Or.inl (Desires.sameHealth hd)
    · exact Or.inl (SameHealth.of_update hd fun _ => ⟨rfl, rfl⟩)
  | setEnabled id enabled =>
    obtain rfl := Except.ok.inj hr
    rw [Control.setEnabled_eq h.ids_nodup] at hd
    split at hd
    · exact Or.inl (SameHealth.of_update hd fun _ => ⟨rfl, rfl⟩)
    · exact Or.inl (Desires.sameHealth hd)
  | delRs id =>
    obtain rfl := Except.ok.inj hr
    rw [Control.delRs_eq h.ids_nodup] at hd
    split at hd
    · exact Or.inl (desires_without hd).sameHealth
    · exact Or.inl (Desires.sameHealth hd)
  | addRs svcIdx rs =>
    obtain rfl := Except.ok.inj hr
    cases he : mgr.addRs svcIdx rs with
    | error e =>
      rw [he] at hd
      exact Or.inl (Desires.sameHealth hd)
    | ok x =>
      rw [he] at hd
      obtain ⟨mgr1, newId⟩ := x
      rcases (desires_addRs he).mp hd with hd | ⟨-, rfl⟩
      · exact Or.inl hd.sameHealth
      · exact Or.inr ⟨rfl, rfl⟩
  | setHealth id healthy => exact hop.elim
  | publish =>
    obtain ⟨m, hm, hs, -⟩ := publish_shows (H := H) hc h
    obtain rfl : m = mgr' := Except.ok.inj (hm.symm.trans hr)
    unfold Desires at hd
    rw [hs] at hd
    exact Or.inl (Desires.sameHealth hd)

/-- The desired state has the health of the reports. -/
def Heeds (mgr : SnapshotManager) (evs : List HealthEvent) : Prop :=
  ∀ i d, mgr.Desires i d → d.healthy = lastHealth evs d.id

/-- Every report is about a real server there is or was. -/
def Known (log : List RsEntry) (evs : List HealthEvent) : Prop := ∀ ev ∈ evs, ∃ e ∈ log, e.id = ev.rsId

theorem Heeds.run (hc : Config.Valid cfg) (hlog : Logged H cfg mgr log) (hknown : Known log evs)
    (h : mgr.Heeds evs) {c : Command} (hop : c.Operator) (hr : c.run H mgr = .ok mgr') : mgr'.Heeds evs := by
  intro i d hd
  rcases Command.run_health hc hlog.running.ok hop hr hd with ⟨d0, hd0, hid, hh⟩ | ⟨hid, hh⟩
  · rw [← hh, ← hid]
    exact h i d0 hd0
  · -- a new id is above all that have been reported
    rw [hh, lastHealth_of_silent]
    intro ev hev he
    obtain ⟨e, hmem, heid⟩ := hknown ev hev
    have hlt := hlog.lt e hmem
    omega

theorem Heeds.setHealth (hn : (idsOf mgr.services).Nodup) (h : mgr.Heeds evs) (ev : HealthEvent) :
    (mgr.setHealth ev.rsId ev.healthy).Heeds (evs ++ [ev]) := by
  intro i d hd
  obtain ⟨d0, hd0, rfl⟩ := (desires_setHealth hn ev.rsId ev.healthy i d).mp hd
  rw [lastHealth_concat]
  by_cases he : d0.id = ev.rsId
  · simp [he]
  · rw [if_neg he, if_neg (Ne.symm he)]
    exact h i d0 hd0

/-- The loop of `drain_health`. -/
theorem Heeds.setHealths (hc : Config.Valid cfg) : ∀ (new : List HealthEvent) {mgr : SnapshotManager}
    {evs : List HealthEvent}, Logged H cfg mgr log → mgr.Heeds evs →
    Logged H cfg (new.foldl (fun mgr ev => mgr.setHealth ev.rsId ev.healthy) mgr) log ∧
      (new.foldl (fun mgr ev => mgr.setHealth ev.rsId ev.healthy) mgr).Heeds (evs ++ new)
  | [], mgr, evs, hlog, h => ⟨hlog, (List.append_nil evs).symm ▸ h⟩
  | ev :: new, mgr, evs, hlog, h => by
    have hlog' := hlog.run hc (c := .setHealth ev.rsId ev.healthy) rfl
    rw [show Command.assigned mgr (.setHealth ev.rsId ev.healthy) = [] from rfl, List.append_nil] at hlog'
    have hrest := setHealths hc new hlog' (h.setHealth hlog.running.ok.ids_nodup ev)
    rwa [List.append_assoc] at hrest

end SnapshotManager

namespace Control

open SnapshotManager

variable {H : HashFns} {reports : Control → Report → String} {C C' : Control}

/-- Nothing is changed, or the manager carries out a command of the operator and publishes. -/
def Commits (H : HashFns) (C : Control) (x : Except Fault (String × Control)) : Prop :=
  ∀ reply C', x = .ok (reply, C') → C'.mgr = C.mgr ∨
    ∃ c m, Command.Operator c ∧ c.run H C.mgr = .ok m ∧ m.publish H = .ok C'.mgr

theorem Commits.same {reply : String} (h : C'.mgr = C.mgr) : C.Commits H (.ok (reply, C')) := by
  intro reply' C1 he
  obtain ⟨-, rfl⟩ := Prod.mk.inj (Except.ok.inj he)
  exact Or.inl h

theorem Commits.commit {x : Except String SnapshotManager} {c : Command} (hop : c.Operator)
    (hc : c.run H C.mgr = .ok (x.toOption.getD C.mgr)) : C.Commits H (Control.commit H C x) := by
  cases x with
  | error err => exact .same rfl
  | ok m =>
    intro reply C1 h
    obtain ⟨m', hm, h⟩ := bind_eq_ok.mp h
    obtain ⟨-, rfl⟩ := Prod.mk.inj (Except.ok.inj h)
    exact Or.inr ⟨c, m, hop, hc, hm⟩

theorem Commits.add (args : List (List Char)) : C.Commits H (executeAdd H C args) := by
  unfold executeAdd
  split
  swap
  · exact .same rfl
  split
  · exact .same rfl
  rename_i v hv
  split
  · exact .same rfl
  rename_i rs hrs
  split
  · exact .same rfl
  rename_i m newId hadd
  intro reply C1 h
  obtain ⟨m', hm, h⟩ := bind_eq_ok.mp h
  obtain ⟨-, rfl⟩ := Prod.mk.inj (Except.ok.inj h)
  refine Or.inr ⟨.addRs (v % 2 ^ 16) rs, m, trivial, ?_, hm⟩
  show Except.ok (((C.mgr.addRs (v % 2 ^ 16) rs).map (·.1)).toOption.getD C.mgr) = _
  rw [hadd]
  rfl

theorem Commits.ite {c : Prop} [Decidable c] {x y : Except Fault (String × Control)} (hx : C.Commits H x)
    (hy : C.Commits H y) : C.Commits H (if c then x else y) := by
  split
  · exact hx
  · exact hy

/-- **A line changes nothing, or it is one command and a `publish`.** -/
theorem execute_commits (C : Control) (line : List Char) : C.Commits H (C.execute H reports line) := by
  unfold execute
  cases tokens line with
  | nil => exact .same rfl
  | cons cmd args =>
    -- what comes before `weight` only reports
    refine .ite (.same rfl) <| .ite (.same rfl) <| .ite (.same rfl) <| .ite (.same rfl) <| .ite (.same rfl) <|
      .ite (.same rfl) <| .ite ?weight <| .ite ?enable <| .ite (.add args) <| .ite ?del <| .ite (.same rfl) <|
      .ite (.same rfl) (.same rfl)
    case weight =>
      split
      · exact .commit (c := .setWeight _ _) trivial rfl
      · exact .same rfl
    case enable =>
      split
      · exact .commit (c := .setEnabled _ _) trivial rfl
      · exact .same rfl
    case del =>
      split
      · exact .commit (c := .delRs _) trivial rfl
      · exact .same rfl

end Control

end L4Lb
