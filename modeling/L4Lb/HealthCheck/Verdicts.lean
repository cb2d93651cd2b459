/-
# Verdicts

A probe to a real server that stays configured is concluded by one call of
`result`, unless a stray segment from the probed address comes first: then
`on_response` ends the flight and calls nothing, and the real server stays as
it was.
-/
import L4Lb.HealthCheck.Life

open Checked

namespace L4Lb

namespace Flight

/-- The first verdict. -/
def verdict (conf : HealthConf) (f : Flight) : List MonitorEvent → Option Bool
  | [] => none
  | ev :: evs =>
    match f.effect conf ev with
    | .verdict ok => some ok
    | _ => verdict conf f evs

/-- The first event that is something to the probe. -/
def fate (conf : HealthConf) (f : Flight) : List MonitorEvent → Effect
  | [] => .nothing
  | ev :: evs => if f.effect conf ev = .nothing then fate conf f evs else f.effect conf ev

variable {conf : HealthConf} {f : Flight}

theorem verdict_of_fate {ok : Bool} : ∀ {evs : List MonitorEvent}, f.fate conf evs = .verdict ok →
    f.verdict conf evs = some ok
  | ev :: evs, h => by
    unfold fate at h
    unfold verdict
    split at h
    · rename_i he
      rw [he]
      exact verdict_of_fate h
    · rw [h]

theorem fate_of_late {t : ℕ} {order : List ℕ} {taken : ℕ → Bool} (ht : f.sentMs + conf.timeoutMs ≤ t) :
    ∀ {evs : List MonitorEvent}, .tick t order taken ∈ evs → f.fate conf evs ≠ .nothing
  | ev :: evs, h => by
    unfold fate
    split
    · rename_i he
      rcases List.mem_cons.mp h with rfl | h
      · rw [effect, if_pos (by omega)] at he
        cases he
      · exact fate_of_late ht h
    · assumption

end Flight

/-- The results up to the next probe. -/
def Mark.untilSent : List Mark → List Bool
  | .result ok :: ms => ok :: untilSent ms
  | _ => []

def Mark.isSent : Mark → Bool
  | .sent _ => true
  | .result _ => false

/-! ### Whole lives -/

/-- What is sent in a tick is in flight after it, and no result follows it. -/
theorem Life.sent {conf : HealthConf} {t : ℕ} {order : List ℕ} {taken : ℕ → Bool} {seg : Segment}
    {ms ms' : List Mark} {o o' : Option Flight}
    (h : Life conf (.tick t order taken) o (ms ++ .sent seg :: ms') o') :
    o' = some (seg.flight t) ∧ ms' = [] := by
  generalize hm : ms ++ .sent seg :: ms' = m at h
  cases h with
  | idle => simp at hm
  | fly he => simp at hm
  | lose he => simp at hm
  | conclude he => simp [List.append_eq_cons_iff] at hm
  | send seg' =>
    obtain ⟨-, rfl, rfl⟩ : ms = [] ∧ seg = seg' ∧ ms' = [] := by
      simpa [List.append_eq_cons_iff] using hm
    exact ⟨rfl, rfl⟩
  | resend seg' he =>
    obtain ⟨ms0, -, hm⟩ : ∃ ms0, ms = .result false :: ms0 ∧ [.sent seg'] = ms0 ++ .sent seg :: ms' := by
      simpa [List.append_eq_cons_iff] using hm
    obtain ⟨-, rfl, rfl⟩ : ms0 = [] ∧ seg = seg' ∧ ms' = [] := by
      simpa [List.append_eq_cons_iff] using hm.symm
    exact ⟨rfl, rfl⟩

/-- A life, step by step; every event is one that `P` admits for the probe in
flight. -/
inductive Lives (conf : HealthConf) (P : Flight → MonitorEvent → Prop) :
    Option Flight → List (MonitorEvent × List Mark) → Option Flight → Prop
  | nil (o : Option Flight) : Lives conf P o [] o
  | cons {o o' o'' : Option Flight} {ev : MonitorEvent} {ms : List Mark} {σ : List (MonitorEvent × List Mark)}
      (hP : ∀ f, o = some f → P f ev) (hl : Life conf ev o ms o') (h : Lives conf P o' σ o'') :
      Lives conf P o ((ev, ms) :: σ) o''

namespace Lives

variable {conf : HealthConf} {P : Flight → MonitorEvent → Prop} {o o' : Option Flight}
  {σ : List (MonitorEvent × List Mark)}

/-- Without a probe in flight there is no result before the next one. -/
theorem untilSent_idle (h : Lives conf P none σ o') : Mark.untilSent (σ.flatMap Prod.snd) = [] := by
  generalize ho : none = o at h
  induction h with
  | nil => rfl
  | cons _ hl _ ih =>
    subst ho
    cases hl with
    | idle => exact ih rfl
    | send seg => rfl

/-- **The first event that is something to the probe decides its result.** -/
theorem untilSent_eq {f : Flight} (h : Lives conf P (some f) σ o') :
    Mark.untilSent (σ.flatMap Prod.snd) =
      match f.fate conf (σ.map Prod.fst) with
      | .verdict ok => [ok]
      | _ => [] := by
  generalize ho : some f = o at h
  induction h with
  | nil => rfl
  | cons _ hl hrest ih =>
    subst ho
    rw [List.map_cons, Flight.fate, List.flatMap_cons]
    cases hl with
    | fly he =>
      rw [if_pos he]
      exact ih rfl
    | conclude he =>
      rw [if_neg (by simp [he]), he]
      exact congrArg (_ :: ·) (untilSent_idle hrest)
    | lose he =>
      rw [if_neg (by simp [he]), he]
      exact untilSent_idle hrest
    | resend seg he =>
      rw [if_neg (by simp [he]), he]
      rfl

/-- **The failures in a row are the probes sent**, those in flight apart, if no
probe is answered or lost. -/
theorem streak_eq (hP : ∀ f ev, P f ev → f.effect conf ev = .nothing ∨ f.effect conf ev = .verdict false)
    (h : Lives conf P o σ o') : ∀ n, (σ.flatMap Prod.snd).foldl Mark.streak n + (if o'.isSome then 1 else 0) =
      n + (σ.flatMap Prod.snd).countP Mark.isSent + if o.isSome then 1 else 0 := by
  induction h with
  | nil => exact fun n => rfl
  | cons hp hl _ ih =>
    intro n
    rw [List.flatMap_cons, List.foldl_append, List.countP_append, ih]
    cases hl with
    | idle => simp
    | fly he => simp
    | conclude he =>
      rcases hP _ _ (hp _ rfl) with h | h
      · exact nomatch he.symm.trans h
      · obtain rfl := Effect.verdict.inj (he.symm.trans h)
        simp [Mark.streak, Mark.isSent]
        omega
    | lose he =>
      rcases hP _ _ (hp _ rfl) with h | h
      · exact nomatch he.symm.trans h
      · exact nomatch he.symm.trans h
    | send seg =>
      simp [Mark.streak, Mark.isSent]
      omega
    | resend seg he =>
      simp [Mark.streak, Mark.isSent]
      omega

end Lives

/-! ### The health checker -/

theorem HealthChecker.Visit.address {conf : HealthConf} {now : ℕ} {p q : Probe} {acts : List HcAction}
    (h : Visit conf now p q acts) : q.ip = p.ip ∧ q.port = p.port := by
  obtain ⟨srcPort, isn, seg, ms, reports, rfl, -⟩ := h
  show (if _ then _ else _ : Probe).ip = _ ∧ (if _ then _ else _ : Probe).port = _
  split
  · exact expired_address ..
  · exact expired_address ..

namespace Monitor

variable {H : HashFns} {cfg : LbConfig} {s s' : Monitor} {id : ℕ} {ev : MonitorEvent} {acts : List HcAction}

/-- There are no more real servers than ports. -/
def Fits (s : Monitor) : MonitorEvent → Prop
  | .tick .. => s.tcpIds.length ≤ HealthChecker.kHcPorts
  | _ => True

/-- The real server is in the snapshot whenever it is looked at. -/
def Stays (id : ℕ) (s : Monitor) : MonitorEvent → Prop
  | .tick .. => id ∈ s.tcpIds
  | _ => True

/-- The real server has failed `n` times in a row. -/
def Failing (cfg : LbConfig) (id n : ℕ) (s : Monitor) : Prop :=
  (∀ p, s.hc.probes id = some p → p.Down cfg.health n) ∧ (s.hc.probes id = none → n = 0)

/-- The probes go to the addresses that the ids stand for. -/
structure Good (H : HashFns) (cfg : LbConfig) (s : Monitor) : Prop where
  inv : Inv H cfg s
  conf : s.hc.conf = cfg.health
  off : cfg.health.enabled = false → ∀ id, s.hc.probes id = none
  counts : ∀ id p, s.hc.probes id = some p → p.Down cfg.health 0
  logged : ∃ log, SnapshotManager.Logged H cfg s.mgr log ∧
    ∀ id p, s.hc.probes id = some p → ∃ e ∈ log, e.id = id ∧ e.ip = p.ip ∧ e.port = p.port

theorem Fits.hasRoom (h : s.Fits ev) : s.HasRoom ev := by
  cases ev with
  | command c => trivial
  | tick now order taken => exact (List.length_filter_le ..).trans h
  | response now ev => trivial

theorem Good.boot (hc : Config.Valid cfg) (h : boot H cfg = .ok s) : Good H cfg s := by
  have hinv := Inv.boot hc h
  obtain ⟨mgr, hi, h⟩ := bind_eq_ok.mp h
  obtain rfl := Except.ok.inj h
  exact ⟨hinv, rfl, fun _ _ => rfl, fun _ _ hp => (nomatch hp), _, .init hc hi, fun _ _ hp => (nomatch hp)⟩

theorem Good.failing_zero (h : Good H cfg s) (id : ℕ) : s.Failing cfg id 0 := ⟨h.counts id, fun _ => rfl⟩

/-- The current address of a real server is the one its id stands for. -/
theorem Good.entry_mem (h : Good H cfg s) {log : List RsEntry} (hlog : SnapshotManager.Logged H cfg s.mgr log)
    {snap : Snapshot} (hcur : s.mgr.cur = some snap) {rs : RsState} (hrs : rs ∈ snap.tcpServers) :
    rs.entry ∈ log := by
  obtain ⟨snap', hcur', hb⟩ := h.inv.running.cur
  obtain rfl := Option.some.inj (hcur.symm.trans hcur')
  obtain ⟨svc, hsvc, hmem⟩ := List.mem_flatMap.mp (List.mem_filter.mp hrs).1
  obtain ⟨-, -, hentry⟩ := hlog.cur snap hcur rs.id rs (hb.rs_mem hsvc hmem)
  exact hentry

/-- The probe of a real server, after the first loop of `tick`. -/
theorem Good.synced (hconf : cfg.health.InRange) (h : Good H cfg s) {snap : Snapshot} (hcur : s.mgr.cur = some snap)
    {rs : RsState} (hrs : rs ∈ snap.tcpServers) (now : ℕ) :
    (s.hc.synced now rs).rsId = rs.id ∧ (s.hc.synced now rs).flight = s.hc.flightOf rs.id ∧
      ∀ n, s.Failing cfg rs.id n → (s.hc.synced now rs).Down cfg.health n := by
  unfold HealthChecker.synced
  cases hp : s.hc.probes rs.id with
  | none =>
    refine ⟨rfl, ?_, fun n hn _ => ?_⟩
    · rw [HealthChecker.flightOf, hp]
      rfl
    · rw [hn.2 hp]
      exact ⟨le_rfl, hconf.fall.1⟩
  | some p =>
    refine ⟨h.inv.hc.key rs.id p hp, ?_, fun n hn => hn.1 p hp⟩
    obtain ⟨log, hlog, hprobes⟩ := h.logged
    obtain ⟨e, he, hid, hip, hport⟩ := hprobes rs.id p hp
    obtain rfl : e = rs.entry := hlog.eq_of_id he (h.entry_mem hlog hcur hrs) hid
    rw [HealthChecker.flightOf_of hp]
    show (if p.inFlight = true then some (Flight.mk p.srcPort rs.ip rs.port p.isn p.sentMs) else none) = _
    rw [show rs.ip = p.ip from hip, show rs.port = p.port from hport]
    rfl

theorem Good.orders (h : Good H cfg s) {snap : Snapshot} (hcur : s.mgr.cur = some snap) {now : ℕ} {order : List ℕ}
    {taken : ℕ → Bool} (hv : s.Valid (.tick now order taken)) :
    (snap.tcpServers.map (·.id)).Nodup ∧ s.hc.Orders snap order ∧ order.Nodup ∧
      s.tcpIds = snap.tcpServers.map (·.id) := by
  obtain ⟨snap', hcur', hb⟩ := h.inv.running.cur
  obtain rfl := Option.some.inj (hcur.symm.trans hcur')
  have htcp : s.tcpIds = snap.tcpServers.map (·.id) := by
    unfold tcpIds
    rw [hcur]
    rfl
  obtain ⟨-, hnodup, ho⟩ := hv
  rw [htcp] at ho
  exact ⟨tcpIds_nodup hb, ho, hnodup, htcp⟩

/-- **A tick is a step of the life** of each real server's probe. -/
theorem Good.tick_of_mem (hconf : cfg.health.InRange) (h : Good H cfg s) (he : cfg.health.enabled = true)
    {snap : Snapshot} (hcur : s.mgr.cur = some snap) {now : ℕ} {order : List ℕ} {taken : ℕ → Bool}
    (hv : s.Valid (.tick now order taken)) {rs : RsState} (hrs : rs ∈ snap.tcpServers) :
    ∃ q, (s.hc.tick snap now order taken).1.probes rs.id = some q ∧ q.ip = rs.ip ∧ q.port = rs.port ∧
      Life cfg.health (.tick now order taken) (s.hc.flightOf rs.id) (marks rs.id (s.hc.tick snap now order taken).2)
        q.flight ∧
      ∀ n, s.Failing cfg rs.id n →
        q.Down cfg.health ((marks rs.id (s.hc.tick snap now order taken).2).foldl Mark.streak n) := by
  obtain ⟨hn, ho, hnodup, -⟩ := h.orders hcur hv
  obtain ⟨q, hq, hvisit⟩ := HealthChecker.tick_of_mem h.inv.hc.key (h.conf ▸ he) hn ho hnodup hrs now taken
  obtain ⟨hid, hflight, hdown⟩ := h.synced hconf hcur hrs now
  rw [h.conf] at hvisit
  have hlife := HealthChecker.Visit.life order taken hvisit
  have hcount := fun n hf => HealthChecker.Visit.down hconf hvisit (hdown n hf)
  rw [hid, marks_filter] at hlife hcount
  rw [hflight] at hlife
  obtain ⟨hip, hport⟩ := HealthChecker.Visit.address hvisit
  exact ⟨q, hq, hip, hport, hlife, hcount⟩

/-- A probe that is there after a response was there before. -/
theorem Good.response_of_some (hconf : cfg.health.InRange) (h : Good H cfg s) {ev : HcResponse} {q : Probe}
    (hq : (s.hc.onResponse ev).1.probes id = some q) :
    ∃ p, s.hc.probes id = some p ∧ q.ip = p.ip ∧ q.port = p.port ∧
      ∀ n, s.Failing cfg id n → q.Down cfg.health ((marks id (s.hc.onResponse ev).2).foldl Mark.streak n) := by
  cases hp : s.hc.probes id with
  | none => cases (HealthChecker.onResponse_none hp).1.symm.trans hq
  | some p =>
    have hdown : ∀ n, s.Failing cfg id n → q.ip = p.ip ∧ q.port = p.port ∧
        q.Down cfg.health ((marks id (s.hc.onResponse ev).2).foldl Mark.streak n) := by
      intro n hn
      obtain ⟨q', hq', hip, hport, hd⟩ := HealthChecker.onResponse_down (h.conf ▸ hconf) hp (h.conf ▸ hn.1 p hp)
      obtain rfl := Option.some.inj (hq'.symm.trans hq)
      exact ⟨hip, hport, h.conf ▸ hd⟩
    obtain ⟨hip, hport, -⟩ := hdown 0 (h.failing_zero id)
    exact ⟨p, rfl, hip, hport, fun n hn => (hdown n hn).2.2⟩

theorem Good.step (hc : Config.Valid cfg) (hconf : cfg.health.InRange) (h : Good H cfg s) (hv : s.Valid ev)
    (hfits : s.Fits ev) (hs : s.step H ev = .ok (s', acts)) : Good H cfg s' := by
  have hinv := h.inv.step hc hv hfits.hasRoom hs
  obtain ⟨log, hlog, hprobes⟩ := h.logged
  obtain ⟨snap, hcur, -⟩ := h.inv.running.cur
  cases ev with
  | command c =>
    obtain ⟨mgr, hr, -⟩ := SnapshotManager.Command.run_returns hc h.inv.running c
    simp only [Monitor.step, hr] at hs
    obtain rfl := (Prod.mk.inj (Except.ok.inj hs)).1
    refine ⟨hinv, h.conf, h.off, h.counts, _, hlog.run hc hr, fun id p hp => ?_⟩
    obtain ⟨e, he, haddr⟩ := hprobes id p hp
    exact ⟨e, List.mem_append_left _ he, haddr⟩
  | tick now order taken =>
    simp only [Monitor.step, hcur] at hs
    obtain rfl := (Prod.mk.inj (Except.ok.inj hs)).1
    have hconf' : (s.hc.tick snap now order taken).1.conf = cfg.health :=
      (HealthChecker.tick_conf ..).trans h.conf
    cases he : cfg.health.enabled with
    | false =>
      have hoff : s.hc.tick snap now order taken = (s.hc, []) := if_neg (by simp [h.conf, he])
      rw [hoff] at hinv ⊢
      exact ⟨hinv, h.conf, h.off, h.counts, log, hlog, hprobes⟩
    | true =>
      obtain ⟨hn, ho, -, -⟩ := h.orders hcur hv
      have hmem : ∀ id p, (s.hc.tick snap now order taken).1.probes id = some p → ∃ rs ∈ snap.tcpServers,
          rs.id = id ∧ p.ip = rs.ip ∧ p.port = rs.port ∧ ∃ n, p.Down cfg.health n := by
        intro id p hp
        by_cases hid : id ∈ snap.tcpServers.map (·.id)
        · obtain ⟨rs, hrs, rfl⟩ := List.mem_map.mp hid
          obtain ⟨q, hq, hip, hport, -, hcount⟩ := h.tick_of_mem hconf he hcur hv hrs
          obtain rfl := Option.some.inj (hq.symm.trans hp)
          exact ⟨rs, hrs, rfl, hip, hport, _, hcount 0 (h.failing_zero rs.id)⟩
        · cases (HealthChecker.tick_of_notMem (h.conf ▸ he) ho hid).symm.trans hp
      refine ⟨hinv, hconf', fun hoff => ?_, fun id p hp => ?_, log, hlog, fun id p hp => ?_⟩
      · cases he.symm.trans hoff
      · obtain ⟨-, -, -, -, -, n, hd⟩ := hmem id p hp
        exact hd.zero
      · obtain ⟨rs, hrs, rfl, hip, hport, -⟩ := hmem id p hp
        exact ⟨rs.entry, h.entry_mem hlog hcur hrs, rfl, hip.symm, hport.symm⟩
  | response now ev =>
    obtain rfl := (Prod.mk.inj (Except.ok.inj hs)).1
    refine ⟨hinv, (HealthChecker.onResponse_conf ..).trans h.conf, fun hoff id => ?_, fun id q hq => ?_, log, hlog,
      fun id q hq => ?_⟩
    · exact (HealthChecker.onResponse_none (h.off hoff id)).1
    · obtain ⟨-, -, -, -, hd⟩ := h.response_of_some hconf hq
      exact (hd 0 (h.failing_zero id)).zero
    · obtain ⟨p, hp, hip, hport, -⟩ := h.response_of_some hconf hq
      obtain ⟨e, he, hid, heip, heport⟩ := hprobes id p hp
      exact ⟨e, he, hid, heip.trans hip.symm, heport.trans hport.symm⟩

/-- **A step is a step of the probe's life**, and the failures in a row are
counted. -/
theorem Good.life (hconf : cfg.health.InRange) (h : Good H cfg s) (hv : s.Valid ev) (hstays : s.Stays id ev)
    (hs : s.step H ev = .ok (s', acts)) :
    Life cfg.health ev (s.hc.flightOf id) (marks id acts) (s'.hc.flightOf id) ∧
      ∀ n, s.Failing cfg id n → s'.Failing cfg id ((marks id acts).foldl Mark.streak n) := by
  obtain ⟨snap, hcur, -⟩ := h.inv.running.cur
  cases ev with
  | command c =>
    obtain ⟨mgr, -, hs⟩ := bind_eq_ok.mp hs
    obtain ⟨rfl, rfl⟩ := Prod.mk.inj (Except.ok.inj hs)
    exact ⟨HealthChecker.Life.still fun f hf => rfl, fun n hn => hn⟩
  | tick now order taken =>
    simp only [Monitor.step, hcur] at hs
    obtain ⟨rfl, rfl⟩ := Prod.mk.inj (Except.ok.inj hs)
    cases he : cfg.health.enabled with
    | false =>
      have hoff : s.hc.tick snap now order taken = (s.hc, []) := if_neg (by simp [h.conf, he])
      rw [hoff]
      refine ⟨HealthChecker.Life.still fun f hf => ?_, fun n hn => hn⟩
      rw [HealthChecker.flightOf, h.off he] at hf
      cases hf
    | true =>
      obtain ⟨-, -, -, htcp⟩ := h.orders hcur hv
      have hid : id ∈ s.tcpIds := hstays
      rw [htcp] at hid
      obtain ⟨rs, hrs, rfl⟩ := List.mem_map.mp hid
      obtain ⟨q, hq, -, -, hlife, hcount⟩ := h.tick_of_mem hconf he hcur hv hrs
      refine ⟨?_, fun n hn => ⟨fun p hp => ?_, fun hnone => ?_⟩⟩
      · rw [HealthChecker.flightOf_of hq]
        exact hlife
      · obtain rfl := Option.some.inj (hq.symm.trans hp)
        exact hcount n hn
      · cases hq.symm.trans hnone
  | response now ev =>
    obtain ⟨rfl, rfl⟩ := Prod.mk.inj (Except.ok.inj hs)
    refine ⟨h.conf ▸ HealthChecker.onResponse_life h.inv.hc ev now id, fun n hn => ⟨fun q hq => ?_, fun hnone => ?_⟩⟩
    · obtain ⟨-, -, -, -, hd⟩ := h.response_of_some hconf hq
      exact hd n hn
    · cases hp : s.hc.probes id with
      | none =>
        rw [(HealthChecker.onResponse_none hp).2]
        exact hn.2 hp
      | some p =>
        obtain ⟨q', hq', -⟩ := HealthChecker.onResponse_down (h.conf ▸ hconf) hp (h.conf ▸ hn.1 p hp)
        cases hq'.symm.trans hnone

/-! ### Runs -/

/-- The marks of a run. -/
def lifeOf (id : ℕ) (τ : List (MonitorEvent × List HcAction)) : List (MonitorEvent × List Mark) :=
  τ.map fun x => (x.1, marks id x.2)

theorem lifeOf_events (id : ℕ) (τ : List (MonitorEvent × List HcAction)) :
    (lifeOf id τ).map Prod.fst = τ.map Prod.fst := by
  simp [lifeOf]

theorem lifeOf_marks (id : ℕ) : ∀ τ : List (MonitorEvent × List HcAction),
    (lifeOf id τ).flatMap Prod.snd = marks id (τ.flatMap Prod.snd)
  | [] => rfl
  | x :: τ => by
    rw [List.flatMap_cons, marks_append, ← lifeOf_marks id τ]
    rfl

/-- **A run is a life of the probe.** -/
theorem Good.steps (hc : Config.Valid cfg) (hconf : cfg.health.InRange) {P : Flight → MonitorEvent → Prop}
    {τ : List (MonitorEvent × List HcAction)}
    (hτ : Steps H (fun s ev => s.Valid ev ∧ s.Fits ev ∧ s.Stays id ev ∧ ∀ f, s.hc.flightOf id = some f → P f ev) s τ s')
    (h : Good H cfg s) : Lives cfg.health P (s.hc.flightOf id) (lifeOf id τ) (s'.hc.flightOf id) ∧
      ∀ n, s.Failing cfg id n → s'.Failing cfg id ((marks id (τ.flatMap Prod.snd)).foldl Mark.streak n) := by
  induction hτ with
  | nil => exact ⟨.nil _, fun n hn => hn⟩
  | cons ha hs _ ih =>
    obtain ⟨hv, hfits, hstays, hP⟩ := ha
    obtain ⟨hlife, hfail⟩ := h.life hconf hv hstays hs
    obtain ⟨hlives, hrest⟩ := ih (h.step hc hconf hv hfits hs)
    refine ⟨.cons hP hlife hlives, fun n hn => ?_⟩
    rw [List.flatMap_cons, marks_append, List.foldl_append]
    exact hrest _ (hfail n hn)

theorem Good.reach (hc : Config.Valid cfg) (hconf : cfg.health.InRange)
    (h : Reach H cfg (fun s ev => s.Valid ev ∧ s.Fits ev) s) : Good H cfg s := by
  obtain ⟨s0, τ, hb, hτ⟩ := h
  have h0 := Good.boot hc hb
  clear hb
  induction hτ with
  | nil => exact h0
  | cons ha hs _ ih => exact ih (h0.step hc hconf ha.1 ha.2 hs)

theorem Steps.mono {allowed allowed' : Monitor → MonitorEvent → Prop} (h : ∀ s ev, allowed s ev → allowed' s ev)
    {τ : List (MonitorEvent × List HcAction)} (hτ : Steps H allowed s τ s') : Steps H allowed' s τ s' := by
  induction hτ with
  | nil s => exact .nil s
  | cons ha hs _ ih => exact .cons (h _ _ ha) hs ih

/-- The real server's probe is neither answered by the event nor lost to it. -/
def Unanswered (cfg : LbConfig) (id : ℕ) (s : Monitor) (ev : MonitorEvent) : Prop :=
  ∀ f, s.hc.flightOf id = some f → f.effect cfg.health ev = .nothing ∨ f.effect cfg.health ev = .verdict false

/-- **The results of a probe**, from the tick that sends it on. -/
theorem Good.untilSent (hc : Config.Valid cfg) (hconf : cfg.health.InRange) (h : Good H cfg s)
    {τ : List (MonitorEvent × List HcAction)} {t : ℕ} {order : List ℕ} {taken : ℕ → Bool}
    {pre post : List HcAction} {seg : Segment}
    (hrun : Steps H (fun s ev => s.Valid ev ∧ s.Fits ev ∧ s.Stays id ev) s
      ((.tick t order taken, pre ++ .probe id seg :: post) :: τ) s') :
    Mark.untilSent (marks id (post ++ τ.flatMap Prod.snd)) =
      match (seg.flight t).fate cfg.health (τ.map Prod.fst) with
      | .verdict ok => [ok]
      | _ => [] := by
  cases hrun with
  | cons ha hs hrest =>
    obtain ⟨hv, hfits, hstays⟩ := ha
    obtain ⟨hlife, -⟩ := h.life hconf hv hstays hs
    have hmarks : marks id (pre ++ .probe id seg :: post) = marks id pre ++ .sent seg :: marks id post := by
      rw [marks_append]
      simp [marks, HcAction.mark]
    rw [hmarks] at hlife
    obtain ⟨hflight, hpost⟩ := hlife.sent
    obtain ⟨hlives, -⟩ := (h.step hc hconf hv hfits hs).steps hc hconf (P := fun _ _ => True)
      (hrest.mono fun s ev ha => ⟨ha.1, ha.2.1, ha.2.2, fun _ _ => trivial⟩)
    rw [hflight] at hlives
    rw [marks_append, hpost, List.nil_append, ← lifeOf_marks, ← lifeOf_events id τ]
    exact hlives.untilSent_eq

/-- **Probes are concluded.** A probe to a real server that stays configured has
one result by the time the timeout has been seen, its verdict, if and only if
no stray segment comes before it. A real server whose probes are not answered
is down after `fall` of them. -/
theorem probes_concluded (hcfg : Config.Accepted cfg) (hconf : cfg.health.InRange)
    (hr : Reach H cfg (fun s ev => s.Valid ev ∧ s.Fits ev) s) (id : ℕ) {τ : List (MonitorEvent × List HcAction)} :
    (∀ t order taken pre seg post,
      Steps H (fun s ev => s.Valid ev ∧ s.Fits ev ∧ s.Stays id ev) s
        ((.tick t order taken, pre ++ .probe id seg :: post) :: τ) s' →
      (∃ t' order' taken', .tick t' order' taken' ∈ τ.map Prod.fst ∧ t + cfg.health.timeoutMs ≤ t') →
      ((∃ ok, (seg.flight t).verdict cfg.health (τ.map Prod.fst) = some ok ∧
          Mark.untilSent (marks id (post ++ τ.flatMap Prod.snd)) = [ok]) ↔
        (seg.flight t).fate cfg.health (τ.map Prod.fst) ≠ .stray)) ∧
    (Steps H (fun s ev => s.Valid ev ∧ s.Fits ev ∧ s.Stays id ev ∧ s.Unanswered cfg id ev) s τ s' →
      ∀ p, s'.hc.probes id = some p →
        cfg.health.fall + (if p.inFlight then 1 else 0) ≤ (marks id (τ.flatMap Prod.snd)).countP Mark.isSent →
        p.healthy = false) := by
  have hgood := Good.reach hcfg.valid hconf hr
  refine ⟨fun t order taken pre seg post hrun hlate => ?_, fun hrun p hp hsent => ?_⟩
  · obtain ⟨t', order', taken', hmem, ht⟩ := hlate
    have hne := Flight.fate_of_late (f := seg.flight t) ht hmem
    rw [hgood.untilSent hcfg.valid hconf hrun]
    cases hf : (seg.flight t).fate cfg.health (τ.map Prod.fst) with
    | nothing => exact absurd hf hne
    | stray => simp
    | verdict ok => exact ⟨fun _ => Effect.noConfusion, fun _ => ⟨ok, Flight.verdict_of_fate hf, rfl⟩⟩
  · obtain ⟨hlives, hfail⟩ := hgood.steps hcfg.valid hconf hrun
    have hcount := hlives.streak_eq (fun f ev h => h) 0
    rw [lifeOf_marks, HealthChecker.flightOf_of hp] at hcount
    have hflight : p.flight.isSome = p.inFlight := by
      unfold Probe.flight
      split
      · rename_i hf
        exact hf.symm
      · rename_i hf
        simpa using hf
    rw [hflight] at hcount
    have hdown := (hfail 0 ⟨hgood.counts id, fun _ => rfl⟩).1 p hp
    by_contra hup
    obtain ⟨hle, hlt⟩ := hdown (by simpa using hup)
    omega

/-! ### A probe that is lost -/

/-- The probes are gone through in the order of the snapshot. -/
def Plain (s : Monitor) : MonitorEvent → Prop
  | .command _ => False
  | .tick now order _ => s.now ≤ now ∧ order = s.tcpIds ∧ order.Nodup
  | .response now _ => s.now ≤ now

instance decidablePlain (s : Monitor) : (ev : MonitorEvent) → Decidable (s.Plain ev)
  | .command _ => inferInstanceAs (Decidable False)
  | .tick _ _ _ => inferInstanceAs (Decidable (_ ∧ _))
  | .response _ _ => inferInstanceAs (Decidable (_ ≤ _))

def run (H : HashFns) : List MonitorEvent → Monitor → Option (Monitor × List (MonitorEvent × List HcAction))
  | [], s => some (s, [])
  | ev :: evs, s =>
    if s.Plain ev then
      match s.step H ev with
      | .ok (s1, acts) => (run H evs s1).map fun r => (r.1, (ev, acts) :: r.2)
      | .error _ => none
    else none

/-- The real servers of the snapshot are checked, and no others. -/
structure Keyed (s : Monitor) : Prop where
  on : s.hc.conf.enabled = true
  mem : ∀ id, s.hc.probes id ≠ none → id ∈ s.tcpIds

theorem Keyed.valid (h : s.Keyed) (hp : s.Plain ev) : s.Valid ev := by
  cases ev with
  | command c => trivial
  | tick now order taken =>
    obtain ⟨hnow, rfl, hn⟩ := hp
    refine ⟨hnow, hn, fun id => ⟨Or.inr, fun hid => hid.elim (fun hs => h.mem id ?_) fun hid => hid⟩⟩
    exact Option.isSome_iff_ne_none.mp hs
  | response now ev => exact hp

theorem Keyed.step (h : s.Keyed) (hp : s.Plain ev) (hs : s.step H ev = .ok (s', acts)) :
    s'.Keyed ∧ s'.mgr = s.mgr := by
  cases ev with
  | command c => exact hp.elim
  | tick now order taken =>
    have hv := h.valid hp
    cases hcur : s.mgr.cur with
    | none =>
      simp only [Monitor.step, hcur] at hs
      cases hs
    | some snap =>
      have htcp : s.tcpIds = snap.tcpServers.map (·.id) := by
        unfold tcpIds
        rw [hcur]
        rfl
      simp only [Monitor.step, hcur] at hs
      obtain rfl := (Prod.mk.inj (Except.ok.inj hs)).1
      refine ⟨⟨(HealthChecker.tick_conf ..).symm ▸ h.on, fun id hid => ?_⟩, rfl⟩
      show id ∈ s.tcpIds
      by_contra hn
      obtain ⟨-, -, ho⟩ := hv
      rw [htcp] at hn ho
      exact hid (HealthChecker.tick_of_notMem h.on ho hn)
  | response now ev =>
    obtain rfl := (Prod.mk.inj (Except.ok.inj hs)).1
    refine ⟨⟨(HealthChecker.onResponse_conf ..).symm ▸ h.on, fun id hid => h.mem id fun hn => hid ?_⟩, rfl⟩
    exact (HealthChecker.onResponse_none hn).1

theorem steps_of_run {allowed : Monitor → MonitorEvent → Prop} : ∀ {evs : List MonitorEvent} {s s' : Monitor}
    {τ : List (MonitorEvent × List HcAction)}, run H evs s = some (s', τ) → s.Keyed →
    (∀ s1 ev, s1.mgr = s.mgr → s1.Valid ev → ev ∈ evs → allowed s1 ev) → Steps H allowed s τ s'
  | [], s, _, τ, h, _, _ => by
    obtain ⟨rfl, rfl⟩ := Prod.mk.inj (Option.some.inj h)
    exact .nil s
  | ev :: evs, s, _, τ, h, hk, ha => by
    unfold run at h
    split at h
    · rename_i hp
      split at h
      · rename_i s1 acts hs
        obtain ⟨⟨s2, σ⟩, hr, he⟩ := Option.map_eq_some_iff.mp h
        obtain ⟨rfl, rfl⟩ := Prod.mk.inj he
        obtain ⟨hk1, hm⟩ := hk.step hp hs
        refine .cons (ha s ev rfl (hk.valid hp) List.mem_cons_self) hs (steps_of_run hr hk1 fun s3 ev' hs3 hv hev => ?_)
        exact ha s3 ev' (hs3.trans hm) hv (List.mem_cons_of_mem _ hev)
      · exact nomatch h
    · exact nomatch h

theorem run_events : ∀ {evs : List MonitorEvent} {s s' : Monitor} {τ : List (MonitorEvent × List HcAction)},
    run H evs s = some (s', τ) → τ.map Prod.fst = evs
  | [], s, _, τ, h => by
    obtain ⟨rfl, rfl⟩ := Prod.mk.inj (Option.some.inj h)
    rfl
  | ev :: evs, s, _, τ, h => by
    unfold run at h
    split at h
    · split at h
      · obtain ⟨⟨s2, σ⟩, hr, he⟩ := Option.map_eq_some_iff.mp h
        obtain ⟨rfl, rfl⟩ := Prod.mk.inj he
        rw [List.map_cons, run_events hr]
      · exact nomatch h
    · exact nomatch h

/-- Two web servers are checked. -/
theorem exists_run (evs : List MonitorEvent) {P : Monitor × List (MonitorEvent × List HcAction) → Bool}
    (h : ((boot demo.H (webConfig 1 2)).toOption.bind (run demo.H evs)).any P = true) :
    ∃ s0 s τ, boot demo.H (webConfig 1 2) = .ok s0 ∧ τ.map Prod.fst = evs ∧ P (s, τ) = true ∧
      Steps demo.H (fun s ev => s.Valid ev ∧ s.Fits ev ∧ s.Stays 2 ev ∧ ev ∈ evs) s0 τ s := by
  have hids : (boot demo.H (webConfig 1 2)).toOption.map tcpIds = some [1, 2] := by decide +kernel
  cases hb : boot demo.H (webConfig 1 2) with
  | error e =>
    rw [hb] at h
    exact nomatch h
  | ok s0 =>
    rw [hb] at h hids
    obtain ⟨mgr, -, hs0⟩ := bind_eq_ok.mp hb
    obtain rfl := Except.ok.inj hs0
    cases hr : run demo.H evs _ with
    | none => exact nomatch (congrArg (Option.any P) hr).symm.trans h
    | some r =>
      refine ⟨_, r.1, r.2, rfl, run_events hr, (congrArg (Option.any P) hr).symm.trans h,
        steps_of_run hr ⟨rfl, fun id hid => absurd rfl hid⟩ fun s1 ev hm hv hev => ⟨hv, ?_⟩⟩
      have hids1 : s1.tcpIds = [1, 2] := by
        rw [tcpIds, hm]
        exact Option.some.inj hids
      cases ev with
      | command c => exact ⟨trivial, trivial, hev⟩
      | response now ev => exact ⟨trivial, trivial, hev⟩
      | tick now order taken =>
        refine ⟨?_, ?_, hev⟩
        · show s1.tcpIds.length ≤ _
          rw [hids1]
          decide
        · show 2 ∈ s1.tcpIds
          rw [hids1]
          decide

/-- A plain ACK from the second server, to the port its probe came from. -/
def plainAck : HcResponse where
  ip := 0x0101000A
  port := UInt16.ofNat (kHcPortMin + 1)
  aux := 80
  tcpFlags := TCP_ACK
  seq := 0
  ack := 0

/-- **The probe is lost**: it was sent once, it is not in flight, and there is no
result, three seconds later. -/
theorem probe_lost : ∃ s0 s τ seg, boot demo.H (webConfig 1 2) = .ok s0 ∧
    Steps demo.H (fun s ev => s.Valid ev ∧ s.Fits ev ∧ s.Stays 2 ev) s0 τ s ∧
    τ.map Prod.fst = [.tick 0 [1, 2] fun _ => false, .tick 5000 [1, 2] fun _ => false, .response 5100 plainAck,
      .tick 8000 [1, 2] fun _ => false] ∧
    marks 2 (τ.flatMap Prod.snd) = [.sent seg] ∧ s.hc.flightOf 2 = none := by
  obtain ⟨s0, s, τ, hb, hevs, hP, hsteps⟩ := exists_run
    [.tick 0 [1, 2] fun _ => false, .tick 5000 [1, 2] fun _ => false, .response 5100 plainAck,
      .tick 8000 [1, 2] fun _ => false]
    (P := fun r => (marks 2 (r.2.flatMap Prod.snd)).map Mark.isSent = [true] ∧ (r.1.hc.flightOf 2).isNone)
    (by decide +kernel)
  obtain ⟨hmarks, hidle⟩ := of_decide_eq_true hP
  obtain ⟨m, hm, hsent⟩ := List.map_eq_singleton_iff.mp hmarks
  cases m with
  | result ok => exact nomatch hsent
  | sent seg =>
    exact ⟨s0, s, τ, seg, hb, hsteps.mono fun _ _ ha => ⟨ha.1, ha.2.1, ha.2.2.1⟩, hevs, hm,
      Option.isNone_iff_eq_none.mp hidle⟩

theorem exists_probe {seg : Segment} (h : .sent seg ∈ marks id acts) :
    ∃ pre post, acts = pre ++ .probe id seg :: post := by
  obtain ⟨a, ha, hm⟩ := List.mem_filterMap.mp h
  have hprobe : a = .probe id seg := by
    unfold HcAction.mark at hm
    split at hm
    · split at hm
      · rename_i he
        rw [he, Mark.sent.inj (Option.some.inj hm)]
      · exact nomatch hm
    · split at hm
      · exact nomatch hm
      · exact nomatch hm
    · exact nomatch hm
  exact hprobe ▸ List.append_of_mem ha

theorem webConfig_inRange : (webConfig 1 2).health.InRange := ⟨by decide, by decide, by decide, by decide⟩

theorem probes_concluded_web :
    (∃ s s' τ t order taken pre seg post,
      Reach demo.H (webConfig 1 2) (fun s ev => s.Valid ev ∧ s.Fits ev) s ∧
      Steps demo.H (fun s ev => s.Valid ev ∧ s.Fits ev ∧ s.Stays 2 ev) s
        ((.tick t order taken, pre ++ .probe 2 seg :: post) :: τ) s' ∧
      ∃ ok, (seg.flight t).verdict (webConfig 1 2).health (τ.map Prod.fst) = some ok ∧
        Mark.untilSent (marks 2 (post ++ τ.flatMap Prod.snd)) = [ok]) ∧
    ∃ s s' τ p, Reach demo.H (webConfig 1 2) (fun s ev => s.Valid ev ∧ s.Fits ev) s ∧
      Steps demo.H (fun s ev => s.Valid ev ∧ s.Fits ev ∧ s.Stays 2 ev ∧ s.Unanswered (webConfig 1 2) 2 ev) s τ s' ∧
      s'.hc.probes 2 = some p ∧ p.healthy = false := by
  constructor
  · obtain ⟨s0, s, τ, hb, hevs, hP, hsteps⟩ := exists_run
      [.tick 0 [1, 2] fun _ => false, .tick 5000 [1, 2] fun _ => false, .tick 8000 [1, 2] fun _ => false]
      (P := fun r => (r.2[1]?).map (fun x => (marks 2 x.2).map Mark.isSent) = some [true]) (by decide +kernel)
    cases hsteps with
    | nil => exact nomatch hevs
    | @cons _ s1 _ ev0 acts0 τ1 ha0 hs0 hrest =>
      have hevs1 := (List.cons.inj hevs).2
      cases hrest with
      | nil => exact nomatch hevs1
      | @cons _ s2 _ ev1 acts1 τ2 ha1 hs1 hrest =>
        obtain ⟨rfl, hlast⟩ := List.cons.inj hevs1
        have hmarks : (marks 2 acts1).map Mark.isSent = [true] := Option.some.inj (of_decide_eq_true hP)
        obtain ⟨m, hm, hsent⟩ := List.map_eq_singleton_iff.mp hmarks
        cases m with
        | result ok => exact nomatch hsent
        | sent seg =>
          obtain ⟨pre, post, rfl⟩ := exists_probe (hm ▸ List.mem_singleton_self _)
          have hreach : Reach demo.H (webConfig 1 2) (fun s ev => s.Valid ev ∧ s.Fits ev) s1 :=
            ⟨s0, _, hb, .cons ⟨ha0.1, ha0.2.1⟩ hs0 (.nil s1)⟩
          have hrun : Steps demo.H (fun s ev => s.Valid ev ∧ s.Fits ev ∧ s.Stays 2 ev) s1 _ s :=
            .cons ⟨ha1.1, ha1.2.1, ha1.2.2.1⟩ hs1 (hrest.mono fun _ _ ha => ⟨ha.1, ha.2.1, ha.2.2.1⟩)
          have hconcluded := (probes_concluded webConfig_accepted webConfig_inRange hreach 2).1 _ _ _ _ _ _ hrun
            ⟨8000, _, _, hlast ▸ List.mem_singleton_self _, by decide⟩
          refine ⟨s1, s, τ2, _, _, _, pre, seg, post, hreach, hrun, hconcluded.mpr ?_⟩
          rw [hlast]
          exact fun h => nomatch h
  · obtain ⟨s0, s, τ, hb, hevs, hP, hsteps⟩ := exists_run
      ([0, 5000, 10000, 15000, 20000].map fun t => .tick t [1, 2] fun _ => false)
      (P := fun r => (r.1.hc.probes 2).any fun p =>
        decide ((webConfig 1 2).health.fall + (if p.inFlight then 1 else 0) ≤
          (marks 2 (r.2.flatMap Prod.snd)).countP Mark.isSent)) (by decide +kernel)
    obtain ⟨p, hp, hsent⟩ := (Option.any_eq_true _ _).mp hP
    have hreach : Reach demo.H (webConfig 1 2) (fun s ev => s.Valid ev ∧ s.Fits ev) s0 := ⟨s0, [], hb, .nil s0⟩
    have hrun : Steps demo.H (fun s ev => s.Valid ev ∧ s.Fits ev ∧ s.Stays 2 ev ∧ s.Unanswered (webConfig 1 2) 2 ev)
        s0 τ s := by
      refine hsteps.mono fun s ev ha => ⟨ha.1, ha.2.1, ha.2.2.1, fun f _ => ?_⟩
      obtain ⟨t, -, rfl⟩ := List.mem_map.mp ha.2.2.2
      by_cases hout : t - f.sentMs ≥ (webConfig 1 2).health.timeoutMs
      · exact Or.inr (if_pos hout)
      · exact Or.inl (if_neg hout)
    exact ⟨s0, s, τ, p, hreach, hrun, hp,
      (probes_concluded webConfig_accepted webConfig_inRange hreach 2).2 hrun p hp (of_decide_eq_true hsent)⟩

end Monitor

end L4Lb
