/-
# What a step does to a probe

`tick` visits each real server of the snapshot once, and a visit changes only
its own probe: a probe that has waited too long is concluded, and the next one
is sent if it is time (`Visit`). What is left of the other probes is removed.
-/
import L4Lb.HealthCheck

namespace L4Lb

namespace Probe

/-- It has waited too long. -/
def timedOut (conf : HealthConf) (p : Probe) (now : ℕ) : Bool :=
  p.inFlight && decide (now - p.sentMs ≥ conf.timeoutMs)

/-- The probe behind the check for that. -/
def expired (conf : HealthConf) (p : Probe) (now : ℕ) : Probe :=
  if p.timedOut conf now then { p with inFlight := false }.result conf false else p

/-- It is time for the next one. -/
def due (p : Probe) (now : ℕ) : Bool := !p.inFlight && decide (now ≥ p.nextMs)

/-- The next one is sent. -/
def sent (p : Probe) (srcPort : ℕ) (isn : UInt32) (now next : ℕ) : Probe :=
  { p with srcPort := srcPort, isn := isn, sentMs := now, inFlight := true, nextMs := next }

def reported (p : Probe) (ms : ℕ) : Probe := { p with reportedMs := ms }

end Probe

/-- The real server that an action is about. -/
def HcAction.rsId : HcAction → ℕ
  | probe id _ | reset id _ | result id _ => id
  | report ev => ev.rsId

/-- The segment is the SYN of a probe of `p` from `srcPort`. -/
def Segment.OfProbe (seg : Segment) (p : Probe) (srcPort : ℕ) (isn : UInt32) : Prop :=
  seg.srcPort = srcPort ∧ seg.seq = isn ∧ seg.dst = p.ip ∧ seg.dstPort = p.port

/-- A visit turns `p` into `q` and does `acts`. -/
def Visit (conf : HealthConf) (now : ℕ) (p q : Probe) (acts : List HcAction) : Prop :=
  ∃ (srcPort : ℕ) (isn : UInt32) (seg : Segment) (ms : ℕ) (reports : List HealthEvent),
    q = (if (p.expired conf now).due now then (p.expired conf now).sent srcPort isn now (now + conf.intervalMs)
      else p.expired conf now).reported ms ∧
    acts = (if p.timedOut conf now then [.result p.rsId false] else []) ++
      (if (p.expired conf now).due now then [.probe p.rsId seg] else []) ++ reports.map .report ∧
    (∀ ev ∈ reports, ev.rsId = p.rsId) ∧ seg.OfProbe p srcPort isn

namespace HealthChecker

variable {hc hc' : HealthChecker} {id : ℕ} {p : Probe} {now : ℕ} {taken : ℕ → Bool}

theorem setProbe_setProbe (hc : HealthChecker) (id : ℕ) (q q' : Option Probe) :
    (hc.setProbe id q).setProbe id q' = hc.setProbe id q' := by
  simp [setProbe]

@[simp] theorem result_rsId (conf : HealthConf) (p : Probe) (ok : Bool) : (p.result conf ok).rsId = p.rsId := by
  cases ok <;> rfl

@[simp] theorem result_inFlight (conf : HealthConf) (p : Probe) (ok : Bool) :
    (p.result conf ok).inFlight = p.inFlight := by
  cases ok <;> rfl

theorem expired_rsId (conf : HealthConf) (p : Probe) (now : ℕ) : (p.expired conf now).rsId = p.rsId := by
  unfold Probe.expired
  split
  · rfl
  · rfl

theorem expired_nextMs (conf : HealthConf) (p : Probe) (now : ℕ) : (p.expired conf now).nextMs = p.nextMs := by
  unfold Probe.expired
  split
  · rfl
  · rfl

theorem expired_address (conf : HealthConf) (p : Probe) (now : ℕ) :
    (p.expired conf now).ip = p.ip ∧ (p.expired conf now).port = p.port := by
  unfold Probe.expired
  split
  · exact ⟨rfl, rfl⟩
  · exact ⟨rfl, rfl⟩

theorem expire_eq (hc : HealthChecker) (p : Probe) (now : ℕ) :
    (hc.expire p now).1.conf = hc.conf ∧ (hc.expire p now).1.probes = hc.probes ∧
    (hc.expire p now).2.1 = p.expired hc.conf now ∧
    (hc.expire p now).2.2 = if p.timedOut hc.conf now then [.result p.rsId false] else [] := by
  unfold expire Probe.expired Probe.timedOut
  by_cases h : p.inFlight = true ∧ now - p.sentMs ≥ hc.conf.timeoutMs
  · rw [if_pos h]
    simp [h, setPort]
  · have h' : (p.inFlight && decide (now - p.sentMs ≥ hc.conf.timeoutMs)) = false := by
      simpa using h
    rw [if_neg h, h']
    exact ⟨rfl, rfl, rfl, rfl⟩

theorem launch_eq (hc : HealthChecker) (p : Probe) (now : ℕ) :
    (hc.launch p now).1.conf = hc.conf ∧ (hc.launch p now).1.probes = hc.probes ∧
    ∃ srcPort isn seg, (hc.launch p now).2.1 =
        (if p.due now then p.sent srcPort isn now (now + hc.conf.intervalMs) else p) ∧
      ((hc.launch p now).2.2 = if p.due now then [.probe p.rsId seg] else []) ∧ seg.OfProbe p srcPort isn := by
  unfold launch Probe.due
  by_cases h : ¬ p.inFlight = true ∧ now ≥ p.nextMs
  · have h' : (!p.inFlight && decide (now ≥ p.nextMs)) = true := by simpa using h
    rw [if_pos h, h']
    exact ⟨rfl, rfl, _, _, _, rfl, rfl, rfl, rfl, rfl, rfl⟩
  · have h' : (!p.inFlight && decide (now ≥ p.nextMs)) = false := by
      rw [← Bool.not_eq_true]
      simpa using h
    rw [if_neg h, h']
    exact ⟨rfl, rfl, 0, 0, ⟨p.mac, 0, p.ip, 0, p.port, 0, 0, 0⟩, rfl, rfl, rfl, rfl, rfl, rfl⟩

theorem reportChange_eq (p : Probe) (now : ℕ) (taken : Bool) : ∃ (ms : ℕ) (reports : List HealthEvent),
    (reportChange p now taken).1 = p.reported ms ∧ (reportChange p now taken).2 = reports.map .report ∧
    ∀ ev ∈ reports, ev.rsId = p.rsId := by
  unfold reportChange
  split
  · exact ⟨now, [⟨p.rsId, p.healthy⟩], rfl, rfl, by simp⟩
  · exact ⟨p.reportedMs, [], rfl, rfl, by simp⟩

theorem visit_conf (hc : HealthChecker) (now : ℕ) (taken : ℕ → Bool) (id : ℕ) :
    (hc.visit now taken id).1.conf = hc.conf := by
  unfold visit
  split
  · rfl
  · rename_i p hp
    exact (launch_eq ..).1.trans (expire_eq ..).1

/-- A loop step leaves the other probes alone. -/
theorem visit_probes_of_ne {x : ℕ} (hx : x ≠ id) : (hc.visit now taken id).1.probes x = hc.probes x := by
  unfold visit
  split
  · rfl
  · show Function.update _ id _ x = _
    rw [Function.update_of_ne hx, (launch_eq ..).2.1, (expire_eq ..).2.1]

/-- **A step of the last loop of `tick`.** -/
theorem visit_spec (hp : hc.probes id = some p) (now : ℕ) (taken : ℕ → Bool) :
    ∃ q, (hc.visit now taken id).1.probes id = some q ∧ Visit hc.conf now p q (hc.visit now taken id).2 := by
  obtain ⟨hconf, -, he, hea⟩ := expire_eq hc p now
  obtain ⟨-, -, srcPort, isn, seg, hl, hla, hseg⟩ := launch_eq (hc.expire p now).1 (hc.expire p now).2.1 now
  obtain ⟨ms, reports, hr, hra, hrep⟩ :=
    reportChange_eq ((hc.expire p now).1.launch (hc.expire p now).2.1 now).2.1 now (taken id)
  have hrs : ((hc.expire p now).1.launch (hc.expire p now).2.1 now).2.1.rsId = p.rsId := by
    rw [hl, he]
    split
    · exact expired_rsId ..
    · exact expired_rsId ..
  unfold visit
  simp only [hp]
  refine ⟨_, Function.update_self .., srcPort, isn, seg, ms, reports, ?_, ?_,
    fun ev hev => (hrep ev hev).trans hrs, ?_⟩
  · rw [hr, hl, he, hconf]
  · rw [hea, hla, hra, he, expired_rsId]
  · rw [he] at hseg
    exact ⟨hseg.1, hseg.2.1, hseg.2.2.1.trans (expired_address ..).1, hseg.2.2.2.trans (expired_address ..).2⟩

/-- The probe of a real server after the first loop of `tick`. -/
def synced (hc : HealthChecker) (now : ℕ) (rs : RsState) : Probe :=
  ((hc.probes rs.id).getD
    { rsId := rs.id, healthy := rs.healthy, nextMs := now + (rs.id * 37 % 2 ^ 32) % hc.conf.intervalMs }).refresh rs

theorem foldl_sync_of_notMem : ∀ (l : List RsState) {hc : HealthChecker}, id ∉ l.map (·.id) →
    (l.foldl (sync now) hc).probes id = hc.probes id
  | [], _, _ => rfl
  | rs :: l, hc, h => by
    rw [List.map_cons, List.mem_cons, not_or] at h
    rw [List.foldl_cons, foldl_sync_of_notMem l h.2]
    exact Function.update_of_ne h.1 ..

theorem foldl_sync_of_mem {rs : RsState} : ∀ (l : List RsState) {hc : HealthChecker}, (l.map (·.id)).Nodup → rs ∈ l →
    (l.foldl (sync now) hc).probes rs.id = some (hc.synced now rs)
  | rs' :: l, hc, hn, h => by
    obtain ⟨hnot, hn⟩ := List.nodup_cons.mp hn
    rw [List.foldl_cons]
    rcases List.mem_cons.mp h with rfl | h
    · rw [foldl_sync_of_notMem l hnot]
      exact Function.update_self ..
    · have hmem : rs.id ∈ l.map (·.id) := List.mem_map_of_mem h
      have hne : rs.id ≠ rs'.id := fun he => hnot (show rs'.id ∈ l.map (·.id) from he ▸ hmem)
      rw [foldl_sync_of_mem l hn h]
      unfold synced
      rw [show (hc.sync now rs').probes rs.id = hc.probes rs.id from Function.update_of_ne hne ..]
      rfl

theorem purge_probes (seen : List ℕ) (hc : HealthChecker) (id x : ℕ) :
    (hc.purge seen id).probes x = if x = id ∧ id ∉ seen then none else hc.probes x := by
  unfold purge
  by_cases hs : id ∈ seen
  · simp [hs]
  · rw [if_neg hs]
    by_cases hx : x = id
    · subst hx
      rw [if_pos ⟨rfl, hs⟩]
      split
      · assumption
      · exact Function.update_self ..
    · rw [if_neg (fun h => hx h.1)]
      split
      · rfl
      · rename_i p hp
        show Function.update _ id _ x = _
        rw [Function.update_of_ne hx]
        split
        · rfl
        · rfl

theorem foldl_purge_probes (seen : List ℕ) : ∀ (order : List ℕ) (hc : HealthChecker) (x : ℕ),
    (order.foldl (purge seen) hc).probes x = if x ∈ order ∧ x ∉ seen then none else hc.probes x
  | [], _, _ => by simp
  | id :: order, hc, x => by
    rw [List.foldl_cons, foldl_purge_probes seen order, purge_probes]
    by_cases hx : x = id
    · subst hx
      by_cases hs : x ∈ seen
      · simp [hs]
      · simp [hs]
    · simp [hx]

/-- The order has the keys of the table and the ids of the real servers. -/
def Orders (hc : HealthChecker) (snap : Snapshot) (order : List ℕ) : Prop :=
  ∀ id, id ∈ order ↔ (hc.probes id).isSome ∨ id ∈ snap.tcpServers.map (·.id)

theorem prepare_of_notMem {snap : Snapshot} {order : List ℕ} (ho : hc.Orders snap order)
    (h : id ∉ snap.tcpServers.map (·.id)) : (hc.prepare snap now order).probes id = none := by
  unfold prepare
  rw [foldl_purge_probes, foldl_sync_of_notMem _ h]
  by_cases hp : hc.probes id = none
  · simp [hp]
  · rw [if_pos ⟨(ho id).mpr (Or.inl (Option.isSome_iff_ne_none.mpr hp)), h⟩]

theorem prepare_of_mem {snap : Snapshot} {order : List ℕ} {rs : RsState} (hn : (snap.tcpServers.map (·.id)).Nodup)
    (h : rs ∈ snap.tcpServers) : (hc.prepare snap now order).probes rs.id = some (hc.synced now rs) := by
  unfold prepare
  rw [foldl_purge_probes, if_neg (fun hx => hx.2 (List.mem_map_of_mem h)), foldl_sync_of_mem _ hn h]

/-! ### All loops together -/

theorem visitAll_conf : ∀ (order : List ℕ) (hc : HealthChecker), (visitAll now taken hc order).1.conf = hc.conf
  | [], _ => rfl
  | id :: order, hc => (visitAll_conf order _).trans (visit_conf hc now taken id)

theorem visitAll_of_notMem : ∀ (order : List ℕ) {hc : HealthChecker}, id ∉ order →
    (visitAll now taken hc order).1.probes id = hc.probes id
  | [], _, _ => rfl
  | x :: order, hc, h => by
    rw [List.mem_cons, not_or] at h
    exact (visitAll_of_notMem order h.2).trans (visit_probes_of_ne h.1)

/-- Each action is about the real server it is done for. -/
def KeyOk (hc : HealthChecker) : Prop := ∀ id p, hc.probes id = some p → p.rsId = id

theorem Visit.acts_rsId {conf : HealthConf} {q : Probe} {acts : List HcAction} (h : Visit conf now p q acts) :
    q.rsId = p.rsId ∧ ∀ a ∈ acts, a.rsId = p.rsId := by
  obtain ⟨srcPort, isn, seg, ms, reports, rfl, rfl, hrep, -⟩ := h
  refine ⟨?_, fun a ha => ?_⟩
  · show (if _ then _ else _ : Probe).rsId = _
    split
    · exact expired_rsId ..
    · exact expired_rsId ..
  · rw [List.mem_append, List.mem_append] at ha
    rcases ha with (ha | ha) | ha
    · split at ha
      · obtain rfl := List.mem_singleton.mp ha
        rfl
      · exact nomatch ha
    · split at ha
      · obtain rfl := List.mem_singleton.mp ha
        rfl
      · exact nomatch ha
    · obtain ⟨ev, hev, rfl⟩ := List.mem_map.mp ha
      exact hrep ev hev

theorem Visit.nextMs {conf : HealthConf} {q : Probe} {acts : List HcAction} (h : Visit conf now p q acts) :
    q.nextMs = p.nextMs ∨ q.nextMs = now + conf.intervalMs := by
  obtain ⟨srcPort, isn, seg, ms, reports, rfl, -⟩ := h
  show (if _ then _ else _ : Probe).nextMs = _ ∨ (if _ then _ else _ : Probe).nextMs = _
  split
  · exact Or.inr rfl
  · exact Or.inl (expired_nextMs ..)

/-- When it is time for the next probe, there is one in flight after the visit. -/
theorem Visit.inFlight {conf : HealthConf} {q : Probe} {acts : List HcAction} (h : Visit conf now p q acts)
    (ht : p.nextMs ≤ now) : q.inFlight = true := by
  obtain ⟨srcPort, isn, seg, ms, reports, rfl, -⟩ := h
  show (if _ then _ else _ : Probe).inFlight = _
  split
  · rfl
  · rename_i hd
    rw [← expired_nextMs conf p now] at ht
    simpa [Probe.due, ht] using hd

theorem KeyOk.visit (h : KeyOk hc) (now : ℕ) (taken : ℕ → Bool) (id : ℕ) :
    KeyOk (hc.visit now taken id).1 ∧ ∀ a ∈ (hc.visit now taken id).2, a.rsId = id := by
  cases hp : hc.probes id with
  | none =>
    unfold HealthChecker.visit
    simp only [hp]
    exact ⟨h, fun a ha => nomatch ha⟩
  | some p =>
    obtain ⟨q, hq, hvisit⟩ := visit_spec hp now taken
    obtain ⟨hrs, hacts⟩ := Visit.acts_rsId hvisit
    rw [h id p hp] at hrs hacts
    refine ⟨fun x p' hp' => ?_, hacts⟩
    by_cases hx : x = id
    · subst hx
      obtain rfl := Option.some.inj (hq.symm.trans hp')
      exact hrs
    · rw [visit_probes_of_ne hx] at hp'
      exact h x p' hp'

theorem visitAll_acts_of_notMem : ∀ (order : List ℕ) {hc : HealthChecker}, KeyOk hc → id ∉ order →
    (visitAll now taken hc order).2.filter (·.rsId = id) = []
  | [], _, _, _ => rfl
  | x :: order, hc, h, hid => by
    rw [List.mem_cons, not_or] at hid
    obtain ⟨hkey, hacts⟩ := h.visit now taken x
    show ((hc.visit now taken x).2 ++ _).filter _ = []
    rw [List.filter_append, visitAll_acts_of_notMem order hkey hid.2, List.append_nil, List.filter_eq_nil_iff]
    intro a ha
    rw [hacts a ha, decide_eq_true_eq]
    exact Ne.symm hid.1

/-- Each real server is visited once. -/
theorem visitAll_spec : ∀ (order : List ℕ) {hc : HealthChecker}, KeyOk hc → order.Nodup → id ∈ order →
    hc.probes id = some p → ∃ q, (visitAll now taken hc order).1.probes id = some q ∧
      Visit hc.conf now p q ((visitAll now taken hc order).2.filter (·.rsId = id))
  | x :: order, hc, h, hn, hid, hp => by
    obtain ⟨hnot, hn⟩ := List.nodup_cons.mp hn
    obtain ⟨hkey, hacts⟩ := h.visit now taken x
    show ∃ q, (visitAll now taken (hc.visit now taken x).1 order).1.probes id = some q ∧
      Visit hc.conf now p q (((hc.visit now taken x).2 ++
        (visitAll now taken (hc.visit now taken x).1 order).2).filter (·.rsId = id))
    rw [List.filter_append]
    by_cases hx : id = x
    · subst hx
      obtain ⟨q, hq, hvisit⟩ := visit_spec hp now taken
      refine ⟨q, (visitAll_of_notMem order hnot).trans hq, ?_⟩
      rw [visitAll_acts_of_notMem order hkey hnot, List.append_nil,
        List.filter_eq_self.mpr fun a ha => by simpa using hacts a ha]
      exact hvisit
    · have hnil : (hc.visit now taken x).2.filter (·.rsId = id) = [] := by
        rw [List.filter_eq_nil_iff]
        intro a ha
        rw [hacts a ha, decide_eq_true_eq]
        exact Ne.symm hx
      rw [hnil, List.nil_append, ← visit_conf hc now taken x]
      refine visitAll_spec order hkey hn ((List.mem_cons.mp hid).resolve_left hx) ?_
      rw [visit_probes_of_ne hx, hp]

theorem KeyOk.prepare {snap : Snapshot} {order : List ℕ} (h : KeyOk hc) (hn : (snap.tcpServers.map (·.id)).Nodup) :
    KeyOk (hc.prepare snap now order) := by
  intro x p hp
  unfold HealthChecker.prepare at hp
  rw [foldl_purge_probes] at hp
  split at hp
  · exact nomatch hp
  by_cases hx : x ∈ snap.tcpServers.map (·.id)
  · obtain ⟨rs, hrs, rfl⟩ := List.mem_map.mp hx
    obtain rfl := Option.some.inj ((foldl_sync_of_mem _ hn hrs).symm.trans hp)
    unfold synced
    cases hq : hc.probes rs.id with
    | none => rfl
    | some q => exact h rs.id q hq
  · rw [foldl_sync_of_notMem _ hx] at hp
    exact h x p hp

theorem foldl_sync_conf : ∀ (l : List RsState) (hc : HealthChecker), (l.foldl (sync now) hc).conf = hc.conf
  | [], _ => rfl
  | rs :: l, hc => foldl_sync_conf l (hc.sync now rs)

theorem foldl_purge_conf (seen : List ℕ) : ∀ (order : List ℕ) (hc : HealthChecker),
    (order.foldl (purge seen) hc).conf = hc.conf
  | [], _ => rfl
  | id :: order, hc => by
    rw [List.foldl_cons, foldl_purge_conf seen order]
    unfold purge
    split
    · rfl
    split
    · rfl
    · show (if _ then _ else _ : HealthChecker).conf = _
      split
      · rfl
      · rfl

theorem tick_conf (hc : HealthChecker) (snap : Snapshot) (now : ℕ) (order : List ℕ) (taken : ℕ → Bool) :
    (hc.tick snap now order taken).1.conf = hc.conf := by
  unfold tick
  split
  · rw [visitAll_conf]
    exact (foldl_purge_conf ..).trans (foldl_sync_conf ..)
  · rfl

/-- **`tick` visits each real server of the snapshot.** -/
theorem tick_of_mem {snap : Snapshot} {order : List ℕ} {rs : RsState} (h : KeyOk hc) (he : hc.conf.enabled = true)
    (hn : (snap.tcpServers.map (·.id)).Nodup) (ho : hc.Orders snap order) (hnodup : order.Nodup)
    (hrs : rs ∈ snap.tcpServers) (now : ℕ) (taken : ℕ → Bool) :
    ∃ q, (hc.tick snap now order taken).1.probes rs.id = some q ∧
      Visit hc.conf now (hc.synced now rs) q ((hc.tick snap now order taken).2.filter (·.rsId = rs.id)) := by
  have hid : rs.id ∈ order := (ho rs.id).mpr (Or.inr (List.mem_map_of_mem hrs))
  have hconf : (hc.prepare snap now order).conf = hc.conf := (foldl_purge_conf ..).trans (foldl_sync_conf ..)
  unfold tick
  rw [if_pos he, ← hconf]
  exact visitAll_spec order (h.prepare hn) hnodup hid (prepare_of_mem hn hrs)

/-- The others have no probe. -/
theorem tick_of_notMem {snap : Snapshot} {order : List ℕ} (he : hc.conf.enabled = true) (ho : hc.Orders snap order)
    (hid : id ∉ snap.tcpServers.map (·.id)) : (hc.tick snap now order taken).1.probes id = none := by
  have hprep : (hc.prepare snap now order).probes id = none := prepare_of_notMem ho hid
  have hvisit : ∀ (order : List ℕ) {hc : HealthChecker}, hc.probes id = none →
      (visitAll now taken hc order).1.probes id = none := by
    intro order
    induction order with
    | nil => exact fun h => h
    | cons x order ih =>
      intro hc h
      refine ih ?_
      by_cases hx : id = x
      · subst hx
        unfold HealthChecker.visit
        simp only [h]
      · rw [visit_probes_of_ne hx, h]
  unfold tick
  rw [if_pos he]
  exact hvisit order hprep

theorem KeyOk.tick {snap : Snapshot} {order : List ℕ} (h : KeyOk hc) (hn : (snap.tcpServers.map (·.id)).Nodup) :
    KeyOk (hc.tick snap now order taken).1 := by
  have hvisit : ∀ (order : List ℕ) {hc : HealthChecker}, KeyOk hc → KeyOk (visitAll now taken hc order).1 := by
    intro order
    induction order with
    | nil => exact fun h => h
    | cons x order ih => exact fun h => ih (h.visit now taken x).1
  unfold HealthChecker.tick
  split
  · exact hvisit order (h.prepare hn)
  · exact h

end HealthChecker

end L4Lb
