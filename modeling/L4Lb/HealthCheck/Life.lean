/-
# The life of a probe

What an event is to a probe in flight (`Flight.effect`): a SYN-ACK that
acknowledges it and a RST are its verdicts, and a tick after the timeout is
one; another segment from the probed address is a stray. `Life` is what a step
does to the probe of one real server, with what is sent and what `result` is
called with (`marks`). A stray segment ends the flight without a verdict.
-/
import L4Lb.HealthCheck.Ports

open Checked

namespace L4Lb

/-- A probe in flight. -/
structure Flight where
  srcPort : ℕ
  ip : IPv4Addr
  port : UInt16
  isn : UInt32
  sentMs : ℕ
  deriving DecidableEq

/-- The flight that the segment begins. -/
def Segment.flight (seg : Segment) (now : ℕ) : Flight := ⟨seg.srcPort, seg.dst, seg.dstPort, seg.seq, now⟩

def Probe.flight (p : Probe) : Option Flight :=
  if p.inFlight then some ⟨p.srcPort, p.ip, p.port, p.isn, p.sentMs⟩ else none

inductive Effect
  | nothing
  | verdict (ok : Bool)
  /-- neither a SYN-ACK nor a RST -/
  | stray
  deriving DecidableEq

namespace Flight

/-- The segment comes from the probed address to the probe's port. -/
def Hears (f : Flight) (ev : HcResponse) : Prop := ev.port.toNat = f.srcPort ∧ ev.ip = f.ip ∧ ev.aux = f.port

instance decidableHears (f : Flight) (ev : HcResponse) : Decidable (f.Hears ev) := by
  unfold Hears
  infer_instance

/-- What the event is to the probe. -/
def effect (conf : HealthConf) (f : Flight) : MonitorEvent → Effect
  | .command _ => .nothing
  | .tick now _ _ => if now - f.sentMs ≥ conf.timeoutMs then .verdict false else .nothing
  | .response _ ev =>
    if ¬ f.Hears ev then .nothing
    else if HealthChecker.isSynAck ev.tcpFlags then if ev.ack = f.isn + 1 then .verdict true else .nothing
    else if hasFlag ev.tcpFlags TCP_RST then .verdict false
    else .stray

theorem effect_of_not_hears {conf : HealthConf} {f : Flight} {now : ℕ} {ev : HcResponse} (h : ¬ f.Hears ev) :
    f.effect conf (.response now ev) = .nothing := if_pos h

end Flight

/-! ### What is done for a real server -/

inductive Mark
  | sent (seg : Segment)
  | result (ok : Bool)

def HcAction.mark (id : ℕ) : HcAction → Option Mark
  | .probe i seg => if i = id then some (.sent seg) else none
  | .result i ok => if i = id then some (.result ok) else none
  | _ => none

/-- The probes and results of the real server `id`, in order. -/
def marks (id : ℕ) (acts : List HcAction) : List Mark := acts.filterMap (HcAction.mark id)

theorem marks_append (id : ℕ) (acts acts' : List HcAction) :
    marks id (acts ++ acts') = marks id acts ++ marks id acts' :=
  List.filterMap_append

theorem HcAction.mark_of_ne {id : ℕ} : ∀ {a : HcAction}, a.rsId ≠ id → a.mark id = none
  | .probe _ _, h => if_neg h
  | .result _ _, h => if_neg h
  | .reset _ _, _ => rfl
  | .report _, _ => rfl

theorem marks_filter (id : ℕ) (acts : List HcAction) : marks id (acts.filter (·.rsId = id)) = marks id acts := by
  unfold marks
  rw [List.filterMap_filter]
  refine List.filterMap_congr fun a _ => ?_
  by_cases h : a.rsId = id
  · simp [h]
  · simp [h, HcAction.mark_of_ne h]

theorem marks_of_ne {id : ℕ} {acts : List HcAction} (h : ∀ a ∈ acts, a.rsId ≠ id) : marks id acts = [] :=
  List.filterMap_eq_nil_iff.mpr fun a ha => HcAction.mark_of_ne (h a ha)

theorem marks_result (id : ℕ) (ok : Bool) : marks id [.result id ok] = [.result ok] := by
  simp [marks, HcAction.mark]

theorem marks_probe (id : ℕ) (seg : Segment) : marks id [.probe id seg] = [.sent seg] := by
  simp [marks, HcAction.mark]

theorem marks_reports (id : ℕ) (reports : List HealthEvent) : marks id (reports.map .report) = [] := by
  simp [marks, HcAction.mark]

/-- A step of a probe's life. -/
inductive Life (conf : HealthConf) : MonitorEvent → Option Flight → List Mark → Option Flight → Prop
  | idle {ev : MonitorEvent} : Life conf ev none [] none
  | fly {ev : MonitorEvent} {f : Flight} (he : f.effect conf ev = .nothing) : Life conf ev (some f) [] (some f)
  | conclude {ev : MonitorEvent} {f : Flight} {ok : Bool} (he : f.effect conf ev = .verdict ok) :
      Life conf ev (some f) [.result ok] none
  | lose {ev : MonitorEvent} {f : Flight} (he : f.effect conf ev = .stray) : Life conf ev (some f) [] none
  | send {now : ℕ} {order : List ℕ} {taken : ℕ → Bool} (seg : Segment) :
      Life conf (.tick now order taken) none [.sent seg] (some (seg.flight now))
  | resend {now : ℕ} {order : List ℕ} {taken : ℕ → Bool} {f : Flight} (seg : Segment)
      (he : f.effect conf (.tick now order taken) = .verdict false) :
      Life conf (.tick now order taken) (some f) [.result false, .sent seg] (some (seg.flight now))

/-- The number of failures in a row, after a probe or a result. -/
def Mark.streak (n : ℕ) : Mark → ℕ
  | .sent _ => n
  | .result true => 0
  | .result false => n + 1

/-- The ranges in which `Config::build` reads the values. -/
structure HealthConf.InRange (conf : HealthConf) : Prop where
  interval : 0 < conf.intervalMs
  timeout : 10 ≤ conf.timeoutMs ∧ conf.timeoutMs ≤ 60000
  fall : 1 ≤ conf.fall ∧ conf.fall ≤ 100
  rise : 1 ≤ conf.rise ∧ conf.rise ≤ 100

/-- A real server that is up has failed `n` times in a row, and less often than
`fall`. -/
def Probe.Down (conf : HealthConf) (n : ℕ) (p : Probe) : Prop := p.healthy = true → n ≤ p.fail ∧ p.fail < conf.fall

theorem Probe.Down.zero {conf : HealthConf} {n : ℕ} {p : Probe} (h : p.Down conf n) : p.Down conf 0 :=
  fun hup => ⟨Nat.zero_le _, (h hup).2⟩

theorem Probe.Down.result {conf : HealthConf} (hconf : conf.InRange) {n : ℕ} {p : Probe} (h : p.Down conf n)
    (ok : Bool) : (p.result conf ok).Down conf (Mark.streak n (.result ok)) := by
  have hfall := hconf.fall
  cases ok with
  | true => exact fun _ => ⟨le_rfl, hfall.1⟩
  | false =>
    intro hup
    simp only [Probe.result, Bool.and_eq_true, Bool.not_eq_true', decide_eq_false_iff_not, ge_iff_le, not_le] at hup ⊢
    obtain ⟨hn, hlt⟩ := h hup.1
    rw [Nat.mod_eq_of_lt (by omega)] at hup ⊢
    exact ⟨Nat.succ_le_succ hn, hup.2⟩

/-! ### The steps -/

namespace HealthChecker

variable {hc hc' : HealthChecker} {conf : HealthConf} {id now : ℕ} {p q : Probe} {acts : List HcAction}

/-- The probe in flight to a real server. -/
def flightOf (hc : HealthChecker) (id : ℕ) : Option Flight := (hc.probes id).bind Probe.flight

theorem flight_expired (conf : HealthConf) (p : Probe) (now : ℕ) :
    (p.expired conf now).flight = if p.timedOut conf now then none else p.flight := by
  unfold Probe.expired
  split
  · exact if_neg (by rw [result_inFlight]; simp)
  · rfl

theorem effect_tick (conf : HealthConf) (now : ℕ) (order : List ℕ) (taken : ℕ → Bool) {f : Flight}
    (hf : p.flight = some f) :
    f.effect conf (.tick now order taken) = if p.timedOut conf now then .verdict false else .nothing := by
  unfold Probe.flight at hf
  split at hf
  · rename_i hfly
    obtain rfl := Option.some.inj hf
    simp only [Flight.effect, Probe.timedOut, hfly, Bool.true_and, decide_eq_true_eq]
  · exact nomatch hf

theorem not_timedOut_of_idle (hf : p.flight = none) : p.timedOut conf now = false := by
  unfold Probe.flight at hf
  split at hf
  · exact nomatch hf
  · rename_i hfly
    simp [Probe.timedOut, hfly]

theorem due_idle (h : p.due now = true) : p.flight = none := by
  simp only [Probe.due, Bool.and_eq_true, Bool.not_eq_true'] at h
  exact if_neg (by simp [h.1])

theorem flight_sent {seg : Segment} (hip : seg.dst = p.ip) (hport : seg.dstPort = p.port) (next ms : ℕ) :
    (((p.expired conf now).sent seg.srcPort seg.seq now next).reported ms).flight = some (seg.flight now) := by
  show some (Flight.mk _ (p.expired conf now).ip (p.expired conf now).port _ _) = _
  rw [(expired_address ..).1, (expired_address ..).2, ← hip, ← hport]
  rfl

/-- **A visit is a step of the probe's life.** -/
theorem Visit.life (order : List ℕ) (taken : ℕ → Bool) (h : Visit conf now p q acts) :
    Life conf (.tick now order taken) p.flight (marks p.rsId acts) q.flight := by
  obtain ⟨srcPort, isn, seg, ms, reports, rfl, rfl, -, rfl, rfl, hip, hport⟩ := h
  have hexp := flight_expired conf p now
  rw [marks_append, marks_append, marks_reports, List.append_nil]
  cases hf : p.flight with
  | none =>
    rw [not_timedOut_of_idle hf, hf] at hexp
    rw [not_timedOut_of_idle hf]
    by_cases hdue : (p.expired conf now).due now = true
    · rw [if_pos hdue, if_pos hdue, marks_probe, flight_sent hip hport]
      exact .send seg
    · rw [if_neg hdue, if_neg hdue]
      show Life _ _ none [] (p.expired conf now).flight
      rw [hexp]
      exact .idle
  | some f =>
    have heff := effect_tick conf now order taken hf
    by_cases hout : p.timedOut conf now = true
    · rw [if_pos hout] at heff
      rw [if_pos hout, marks_result]
      by_cases hdue : (p.expired conf now).due now = true
      · rw [if_pos hdue, if_pos hdue, marks_probe, flight_sent hip hport]
        exact .resend seg heff
      · rw [if_neg hdue, if_neg hdue]
        rw [if_pos hout] at hexp
        show Life _ _ (some f) [.result false] (p.expired conf now).flight
        rw [hexp]
        exact .conclude heff
    · rw [if_neg hout, hf] at hexp
      rw [if_neg hout] at heff
      have hdue : ¬ (p.expired conf now).due now = true := fun hd => nomatch (due_idle hd).symm.trans hexp
      rw [if_neg hout, if_neg hdue, if_neg hdue]
      show Life _ _ (some f) [] (p.expired conf now).flight
      rw [hexp]
      exact .fly heff

/-- The failures in a row are counted. -/
theorem Visit.down (hconf : conf.InRange) (h : Visit conf now p q acts) {n : ℕ} (hd : p.Down conf n) :
    q.Down conf ((marks p.rsId acts).foldl Mark.streak n) := by
  obtain ⟨srcPort, isn, seg, ms, reports, rfl, rfl, -⟩ := h
  have hexp : (p.expired conf now).Down conf
      ((marks p.rsId (if p.timedOut conf now then [.result p.rsId false] else [])).foldl Mark.streak n) := by
    unfold Probe.expired
    by_cases hout : p.timedOut conf now = true
    · rw [if_pos hout, if_pos hout, marks_result]
      have hd' : Probe.Down conf n { p with inFlight := false } := hd
      exact hd'.result hconf false
    · rw [if_neg hout, if_neg hout]
      exact hd
  rw [marks_append, marks_append, marks_reports, List.append_nil, List.foldl_append]
  by_cases hdue : (p.expired conf now).due now = true
  · rw [if_pos hdue, if_pos hdue, marks_probe]
    exact hexp
  · rw [if_neg hdue, if_neg hdue]
    exact hexp

theorem flightOf_of (hp : hc.probes id = some p) : hc.flightOf id = p.flight := by
  rw [flightOf, hp, Option.bind_some]

theorem flight_of_inFlight (h : p.inFlight = true) :
    p.flight = some ⟨p.srcPort, p.ip, p.port, p.isn, p.sentMs⟩ := if_pos h

theorem flightOf_eq_some {f : Flight} (h : hc.flightOf id = some f) : ∃ p, hc.probes id = some p ∧ p.inFlight = true ∧
    f = ⟨p.srcPort, p.ip, p.port, p.isn, p.sentMs⟩ := by
  obtain ⟨p, hp, hf⟩ := Option.bind_eq_some_iff.mp h
  unfold Probe.flight at hf
  split at hf
  · rename_i hfly
    exact ⟨p, hp, hfly, (Option.some.inj hf).symm⟩
  · exact nomatch hf

/-- A step that the probe does not take part in. -/
theorem Life.still {ev : MonitorEvent} {o : Option Flight} (h : ∀ f, o = some f → f.effect conf ev = .nothing) :
    Life conf ev o [] o := by
  cases o with
  | none => exact .idle
  | some f => exact .fly (h f rfl)

theorem answer_of_ne (hc : HealthChecker) {x : ℕ} (hx : id ≠ x) (p : Probe) (ev : HcResponse) :
    (hc.answer x p ev).1.probes id = hc.probes id ∧ ∀ a ∈ (hc.answer x p ev).2, a.rsId = x := by
  unfold answer
  simp only
  split
  · refine ⟨Function.update_of_ne hx .., fun a ha => ?_⟩
    rcases List.mem_cons.mp ha with rfl | ha
    · rfl
    · obtain rfl := List.mem_singleton.mp ha
      rfl
  split
  · refine ⟨Function.update_of_ne hx .., fun a ha => ?_⟩
    obtain rfl := List.mem_singleton.mp ha
    rfl
  · exact ⟨Function.update_of_ne hx .., fun a ha => nomatch ha⟩

/-- The flight is over, and a SYN-ACK or a RST is its result. -/
theorem answer_self (hc : HealthChecker) (id : ℕ) (p : Probe) (ev : HcResponse) :
    (hc.answer id p ev).1.flightOf id = none ∧
    marks id (hc.answer id p ev).2 = if isSynAck ev.tcpFlags then [.result true]
      else if hasFlag ev.tcpFlags TCP_RST then [.result false] else [] := by
  have hland : ∀ (hc : HealthChecker) {q : Probe}, q.inFlight = false → (hc.setProbe id (some q)).flightOf id = none :=
    fun hc q hq => (flightOf_of (Function.update_self ..)).trans (if_neg (by simp [hq]))
  unfold answer
  simp only
  split
  · exact ⟨hland _ (result_inFlight ..), marks_result id true⟩
  split
  · exact ⟨hland _ (result_inFlight ..), marks_result ..⟩
  · exact ⟨hland _ rfl, rfl⟩

theorem onResponse_of_ne {ev : HcResponse} (hne : hc.byPort ev.port.toNat ≠ some id) :
    (hc.onResponse ev).1.probes id = hc.probes id ∧ marks id (hc.onResponse ev).2 = [] := by
  unfold onResponse
  cases hb : hc.byPort ev.port.toNat with
  | none => exact ⟨rfl, rfl⟩
  | some x =>
    have hx : id ≠ x := by
      rintro rfl
      exact hne hb
    simp only
    cases hp : hc.probes x with
    | none => exact ⟨rfl, rfl⟩
    | some p =>
      simp only
      split
      · exact ⟨rfl, rfl⟩
      split
      · exact ⟨rfl, rfl⟩
      · obtain ⟨hprobes, hacts⟩ := answer_of_ne hc hx p ev
        exact ⟨hprobes, marks_of_ne fun a ha => hacts a ha ▸ hx.symm⟩

/-- **A response is a step of every probe's life.** -/
theorem onResponse_life (h : Inv hc) (ev : HcResponse) (now id : ℕ) :
    Life hc.conf (.response now ev) (hc.flightOf id) (marks id (hc.onResponse ev).2)
      ((hc.onResponse ev).1.flightOf id) := by
  by_cases hb : hc.byPort ev.port.toNat = some id
  · obtain ⟨p, hp, hfly, hsrc⟩ := portOf_eq_some.mp ((h.inverse _ _).mpr hb)
    have hflight : hc.flightOf id = some ⟨p.srcPort, p.ip, p.port, p.isn, p.sentMs⟩ :=
      (flightOf_of hp).trans (flight_of_inFlight hfly)
    unfold onResponse
    simp only [hb, hp, hfly, not_true_eq_false, false_or]
    rw [hflight]
    by_cases haddr : ev.ip ≠ p.ip ∨ ev.aux ≠ p.port
    · rw [if_pos haddr, hflight]
      exact .fly (Flight.effect_of_not_hears fun hh => haddr.elim (fun hn => hn hh.2.1) fun hn => hn hh.2.2)
    have hhears : Flight.Hears ⟨p.srcPort, p.ip, p.port, p.isn, p.sentMs⟩ ev := by
      push Not at haddr
      exact ⟨hsrc.symm, haddr⟩
    rw [if_neg haddr]
    by_cases hstale : isSynAck ev.tcpFlags = true ∧ ev.ack ≠ p.isn + 1
    · rw [if_pos hstale, hflight]
      refine .fly ?_
      rw [Flight.effect, if_neg (not_not_intro hhears), if_pos hstale.1, if_neg hstale.2]
    obtain ⟨hland, hmarks⟩ := answer_self hc id p ev
    rw [if_neg hstale, hland, hmarks]
    by_cases hsyn : isSynAck ev.tcpFlags = true
    · have hack : ev.ack = p.isn + 1 := by_contra fun hn => hstale ⟨hsyn, hn⟩
      rw [if_pos hsyn]
      refine .conclude ?_
      rw [Flight.effect, if_neg (not_not_intro hhears), if_pos hsyn, if_pos hack]
    rw [if_neg hsyn]
    by_cases hrst : hasFlag ev.tcpFlags TCP_RST = true
    · rw [if_pos hrst]
      refine .conclude ?_
      rw [Flight.effect, if_neg (not_not_intro hhears), if_neg hsyn, if_pos hrst]
    · rw [if_neg hrst]
      refine .lose ?_
      rw [Flight.effect, if_neg (not_not_intro hhears), if_neg hsyn, if_neg hrst]
  · obtain ⟨hprobes, hmarks⟩ := onResponse_of_ne hb
    rw [hmarks, flightOf, flightOf, hprobes]
    refine Life.still fun f hf => Flight.effect_of_not_hears fun hh => hb ?_
    obtain ⟨p, hp, hfly, rfl⟩ := flightOf_eq_some hf
    exact (h.inverse _ _).mp (portOf_eq_some.mpr ⟨p, hp, hfly, hh.1.symm⟩)

/-- The failures in a row are counted. -/
theorem onResponse_down (hconf : hc.conf.InRange) {ev : HcResponse} {n : ℕ} (hp : hc.probes id = some p)
    (hd : p.Down hc.conf n) : ∃ q, (hc.onResponse ev).1.probes id = some q ∧ q.ip = p.ip ∧ q.port = p.port ∧
      q.Down hc.conf ((marks id (hc.onResponse ev).2).foldl Mark.streak n) := by
  by_cases hb : hc.byPort ev.port.toNat = some id
  · unfold onResponse
    simp only [hb, hp]
    split
    · exact ⟨p, hp, rfl, rfl, hd⟩
    split
    · exact ⟨p, hp, rfl, rfl, hd⟩
    rw [(answer_self hc id p ev).2]
    have hd' : Probe.Down hc.conf n { p with inFlight := false } := hd
    unfold answer
    simp only
    split
    · exact ⟨_, Function.update_self .., rfl, rfl, hd'.result hconf true⟩
    split
    · exact ⟨_, Function.update_self .., rfl, rfl, hd'.result hconf false⟩
    · exact ⟨_, Function.update_self .., rfl, rfl, hd'⟩
  · obtain ⟨hprobes, hmarks⟩ := onResponse_of_ne hb
    rw [hprobes, hmarks]
    exact ⟨p, hp, rfl, rfl, hd⟩

theorem onResponse_none {ev : HcResponse} (hp : hc.probes id = none) :
    (hc.onResponse ev).1.probes id = none ∧ marks id (hc.onResponse ev).2 = [] := by
  by_cases hb : hc.byPort ev.port.toNat = some id
  · unfold onResponse
    simp only [hb, hp]
    exact ⟨trivial, rfl⟩
  · exact hp ▸ onResponse_of_ne hb

theorem onResponse_conf (hc : HealthChecker) (ev : HcResponse) : (hc.onResponse ev).1.conf = hc.conf := by
  unfold onResponse answer
  repeat' split
  all_goals rfl

end HealthChecker

end L4Lb
