/-
# The reports of the health checker

A tick puts a report into `health_ring` for each real server whose health it sees
otherwise than the snapshot it looks at, once a second at most, if the ring takes it.
-/
import L4Lb.HealthCheck.Life

open Checked

namespace L4Lb

/-- The report that an action is. -/
def HcAction.event : HcAction → Option HealthEvent
  | report ev => some ev
  | _ => none

def reportsOf (acts : List HcAction) : List HealthEvent := acts.filterMap HcAction.event

theorem reportsOf_append (acts acts' : List HcAction) : reportsOf (acts ++ acts') = reportsOf acts ++ reportsOf acts' :=
  List.filterMap_append

/-- The reports about a real server. -/
theorem filter_reportsOf (id : ℕ) (acts : List HcAction) :
    (reportsOf acts).filter (·.rsId = id) = reportsOf (acts.filter (·.rsId = id)) := by
  induction acts with
  | nil => rfl
  | cons a acts ih =>
    rw [← List.singleton_append, reportsOf_append, List.filter_append, List.filter_append, reportsOf_append, ih]
    congr 1
    cases a with
    | report ev =>
      by_cases h : ev.rsId = id
      · simp [reportsOf, HcAction.event, HcAction.rsId, h]
      · simp [reportsOf, HcAction.event, HcAction.rsId, h]
    | probe rsId seg =>
      by_cases h : rsId = id
      · simp [reportsOf, HcAction.event, HcAction.rsId, h]
      · simp [reportsOf, HcAction.event, HcAction.rsId, h]
    | reset rsId seg =>
      by_cases h : rsId = id
      · simp [reportsOf, HcAction.event, HcAction.rsId, h]
      · simp [reportsOf, HcAction.event, HcAction.rsId, h]
    | result rsId ok =>
      by_cases h : rsId = id
      · simp [reportsOf, HcAction.event, HcAction.rsId, h]
      · simp [reportsOf, HcAction.event, HcAction.rsId, h]

namespace HealthChecker

variable {hc : HealthChecker} {now id : ℕ} {taken : ℕ → Bool} {p : Probe}

theorem expired_report (conf : HealthConf) (p : Probe) (now : ℕ) :
    (p.expired conf now).snapHealthy = p.snapHealthy ∧ (p.expired conf now).reportedMs = p.reportedMs := by
  unfold Probe.expired
  split
  · exact ⟨rfl, rfl⟩
  · exact ⟨rfl, rfl⟩

/-- What a visit reports. -/
def Reports (now : ℕ) (taken : Bool) (p q : Probe) (reports : List HealthEvent) : Prop :=
  q.rsId = p.rsId ∧ (q.reportedMs = p.reportedMs ∨ q.reportedMs = now) ∧
    reports = if q.healthy ≠ p.snapHealthy ∧ now - p.reportedMs ≥ 1000 ∧ taken = true then [⟨p.rsId, q.healthy⟩] else []

theorem reportChange_reports (p : Probe) (now : ℕ) (taken : Bool) :
    Reports now taken p (reportChange p now taken).1 (reportsOf (reportChange p now taken).2) := by
  unfold reportChange
  split
  · rename_i h
    exact ⟨rfl, Or.inr rfl, (if_pos h).symm⟩
  · rename_i h
    exact ⟨rfl, Or.inl rfl, (if_neg h).symm⟩

theorem visit_reports (hp : hc.probes id = some p) (now : ℕ) (taken : ℕ → Bool) :
    ∃ q, (hc.visit now taken id).1.probes id = some q ∧
      Reports now (taken id) p q (reportsOf (hc.visit now taken id).2) := by
  obtain ⟨-, -, he, hea⟩ := expire_eq hc p now
  obtain ⟨-, -, srcPort, isn, seg, hl, hla, -⟩ := launch_eq (hc.expire p now).1 (hc.expire p now).2.1 now
  have hr := reportChange_reports ((hc.expire p now).1.launch (hc.expire p now).2.1 now).2.1 now (taken id)
  have hsame : ((hc.expire p now).1.launch (hc.expire p now).2.1 now).2.1.rsId = p.rsId ∧
      ((hc.expire p now).1.launch (hc.expire p now).2.1 now).2.1.snapHealthy = p.snapHealthy ∧
      ((hc.expire p now).1.launch (hc.expire p now).2.1 now).2.1.reportedMs = p.reportedMs := by
    obtain ⟨hs, hm⟩ := expired_report hc.conf p now
    have hid := expired_rsId hc.conf p now
    rw [hl, he]
    split
    · exact ⟨hid, hs, hm⟩
    · exact ⟨hid, hs, hm⟩
  unfold visit
  simp only [hp]
  refine ⟨_, Function.update_self .., ?_⟩
  have hnone :
      reportsOf ((hc.expire p now).2.2 ++ ((hc.expire p now).1.launch (hc.expire p now).2.1 now).2.2) = [] := by
    rw [reportsOf_append, hea, hla]
    split <;> split <;> rfl
  rw [reportsOf_append, hnone, List.nil_append]
  unfold Reports at hr ⊢
  rwa [hsame.1, hsame.2.1, hsame.2.2] at hr

theorem visit_none (hp : hc.probes id = none) : hc.visit now taken id = (hc, []) := by
  unfold visit
  simp only [hp]

/-- In the loop over the probes, a probe is visited as it was before the loop. -/
theorem visitAll_at : ∀ (order : List ℕ) {hc : HealthChecker}, KeyOk hc → order.Nodup → id ∈ order →
    ∃ hc' : HealthChecker, hc'.probes id = hc.probes id ∧
      (visitAll now taken hc order).1.probes id = (hc'.visit now taken id).1.probes id ∧
      (visitAll now taken hc order).2.filter (·.rsId = id) = (hc'.visit now taken id).2
  | x :: order, hc, h, hn, hid => by
    obtain ⟨hnot, hn⟩ := List.nodup_cons.mp hn
    obtain ⟨hkey, hacts⟩ := h.visit now taken x
    show ∃ hc' : HealthChecker, _ ∧ (visitAll now taken (hc.visit now taken x).1 order).1.probes id = _ ∧
      ((hc.visit now taken x).2 ++ (visitAll now taken (hc.visit now taken x).1 order).2).filter (·.rsId = id) = _
    rw [List.filter_append]
    by_cases hx : id = x
    · subst hx
      refine ⟨hc, rfl, visitAll_of_notMem order hnot, ?_⟩
      rw [visitAll_acts_of_notMem order hkey hnot, List.append_nil,
        List.filter_eq_self.mpr fun a ha => by simpa using hacts a ha]
    · obtain ⟨hc', hp, hq, ha⟩ := visitAll_at order hkey hn ((List.mem_cons.mp hid).resolve_left hx)
      have hnil : (hc.visit now taken x).2.filter (·.rsId = id) = [] := by
        rw [List.filter_eq_nil_iff]
        intro a ha
        rw [hacts a ha, decide_eq_true_eq]
        exact Ne.symm hx
      exact ⟨hc', hp.trans (visit_probes_of_ne hx), hq, by rw [hnil, List.nil_append, ha]⟩

/-- **What a tick reports** about a real server of the snapshot. -/
theorem tick_reports {snap : Snapshot} {order : List ℕ} {rs : RsState} (h : KeyOk hc) (he : hc.conf.enabled = true)
    (hn : (snap.tcpServers.map (·.id)).Nodup) (ho : hc.Orders snap order) (hnodup : order.Nodup)
    (hrs : rs ∈ snap.tcpServers) (now : ℕ) (taken : ℕ → Bool) :
    ∃ q, (hc.tick snap now order taken).1.probes rs.id = some q ∧
      Reports now (taken rs.id) (hc.synced now rs) q
        ((reportsOf (hc.tick snap now order taken).2).filter (·.rsId = rs.id)) := by
  have hid : rs.id ∈ order := (ho rs.id).mpr (Or.inr (List.mem_map_of_mem hrs))
  unfold tick
  rw [if_pos he, filter_reportsOf]
  obtain ⟨hc', hp, hq, ha⟩ := visitAll_at order (h.prepare hn) hnodup hid
  rw [prepare_of_mem hn hrs] at hp
  rw [hq, ha]
  exact visit_reports hp now taken

/-- A tick reports about the real servers of the snapshot. -/
theorem tick_reports_ids {snap : Snapshot} {order : List ℕ} (h : KeyOk hc) (hn : (snap.tcpServers.map (·.id)).Nodup)
    (ho : hc.Orders snap order) (hnodup : order.Nodup) {ev : HealthEvent}
    (hev : ev ∈ reportsOf (hc.tick snap now order taken).2) : ev.rsId ∈ snap.tcpServers.map (·.id) := by
  by_contra hout
  unfold tick at hev
  split at hev
  swap
  · simp [reportsOf] at hev
  have hmem : ev ∈ (reportsOf (visitAll now taken (hc.prepare snap now order) order).2).filter (·.rsId = ev.rsId) :=
    List.mem_filter.mpr ⟨hev, by simp⟩
  rw [filter_reportsOf] at hmem
  by_cases hid : ev.rsId ∈ order
  · obtain ⟨hc', hp, -, ha⟩ := visitAll_at order (h.prepare hn) hnodup hid
    rw [prepare_of_notMem ho hout] at hp
    rw [ha, visit_none hp] at hmem
    simp [reportsOf] at hmem
  · rw [visitAll_acts_of_notMem order (h.prepare hn) hid] at hmem
    simp [reportsOf] at hmem

theorem synced_reportedMs (hc : HealthChecker) (now : ℕ) (rs : RsState) {t : ℕ}
    (h : ∀ p, hc.probes rs.id = some p → p.reportedMs ≤ t) : (hc.synced now rs).reportedMs ≤ t := by
  unfold synced
  cases hp : hc.probes rs.id with
  | none => exact Nat.zero_le t
  | some p => exact h p hp

/-- `q` came from a probe of the same real server that was last reported when `q` was. -/
def ReportedLike (hc : HealthChecker) (id : ℕ) (q : Probe) : Prop :=
  ∃ p, hc.probes id = some p ∧ q.rsId = p.rsId ∧ q.reportedMs = p.reportedMs

theorem ReportedLike.of_set {hc hc' : HealthChecker} {x : ℕ} {p q r : Probe}
    (hq : (hc'.setProbe x (some r)).probes id = some q) (hprobes : hc'.probes = hc.probes)
    (hx : hc.probes x = some p) (hrs : r.rsId = p.rsId) (hms : r.reportedMs = p.reportedMs) :
    hc.ReportedLike id q := by
  have hq : Function.update hc'.probes x (some r) id = some q := hq
  by_cases he : id = x
  · subst he
    rw [Function.update_self, Option.some.injEq] at hq
    subst hq
    exact ⟨p, hx, hrs, hms⟩
  · rw [Function.update_of_ne he, hprobes] at hq
    exact ⟨q, hq, rfl, rfl⟩

/-- An answer does not touch what is reported. -/
theorem onResponse_report (ev : HcResponse) {q : Probe} (hq : (hc.onResponse ev).1.probes id = some q) :
    hc.ReportedLike id q := by
  unfold onResponse at hq
  split at hq
  · exact ⟨q, hq, rfl, rfl⟩
  split at hq
  · exact ⟨q, hq, rfl, rfl⟩
  rename_i p hp
  split at hq
  · exact ⟨q, hq, rfl, rfl⟩
  split at hq
  · exact ⟨q, hq, rfl, rfl⟩
  unfold answer at hq
  simp only at hq
  split at hq
  · exact ReportedLike.of_set hq rfl hp rfl rfl
  split at hq
  · exact ReportedLike.of_set hq rfl hp rfl rfl
  · exact ReportedLike.of_set hq rfl hp rfl rfl

end HealthChecker

end L4Lb
