/-
# The source ports of the probes

The ports of the probes in flight and `by_port_` are inverse to each other
(`HealthChecker.Inv`). What changes them keeps them so: an expired probe and an
answered one give their port back, a removed real server too, and `send_probe`
takes a free port. If there is none, it does not: the probe keeps the port it
had, 0 at first, and overwrites the entry. With at most as many probes in
flight or due as there are ports, a free one is found. In any case an entry names
the probe in flight that has the port (`HealthChecker.Owns`).
-/
import L4Lb.HealthCheck.Probes
import L4Lb.Lib.PartialInverse
import L4Lb.Snapshot.Desired
import L4Lb.World.Owners

open Checked PartialInverse Probing

namespace L4Lb

/-- The port of a probe in flight. -/
def Probe.flightPort (p : Probe) : Option ℕ := if p.inFlight then some p.srcPort else none

theorem Probe.flightPort_eq_some {p : Probe} {port : ℕ} :
    p.flightPort = some port ↔ p.inFlight = true ∧ p.srcPort = port := by
  unfold flightPort
  split
  · rename_i h
    simp [h]
  · rename_i h
    simp [h]

namespace HealthChecker

variable {hc hc' : HealthChecker} {id port : ℕ} {p p' : Probe} {q : Option Probe} {now : ℕ} {taken : ℕ → Bool}

/-- `by_port_` is a bijection between the probes in flight and their ports. -/
structure PortBijection (hc : HealthChecker) : Prop where
  range : ∀ id p, hc.probes id = some p → p.inFlight = true → kHcPortMin ≤ p.srcPort ∧ p.srcPort ≤ kHcPortMax
  entry : ∀ id p, hc.probes id = some p → p.inFlight = true → hc.byPort p.srcPort = some p.rsId
  distinct : ∀ id id' p p', hc.probes id = some p → hc.probes id' = some p' → p.inFlight = true →
    p'.inFlight = true → p.srcPort = p'.srcPort → id = id'
  only : ∀ port id, hc.byPort port = some id → ∃ p, hc.probes id = some p ∧ p.inFlight = true ∧ p.srcPort = port

/-- The port of the probe in flight to a real server. -/
def portOf (hc : HealthChecker) (id : ℕ) : Option ℕ := (hc.probes id).bind Probe.flightPort

theorem portOf_eq_some : hc.portOf id = some port ↔
    ∃ p, hc.probes id = some p ∧ p.inFlight = true ∧ p.srcPort = port := by
  simp [portOf, Option.bind_eq_some_iff, Probe.flightPort_eq_some]

/-- An entry of `by_port_` names the probe in flight that has the port. -/
structure Owns (hc : HealthChecker) : Prop where
  key : ∀ id p, hc.probes id = some p → p.rsId = id
  entry : ∀ port id, hc.byPort port = some id → hc.portOf id = some port

/-- The ports of the probes in flight lie in their range, and `by_port_` looks
them up. -/
structure Inv (hc : HealthChecker) : Prop where
  key : ∀ id p, hc.probes id = some p → p.rsId = id
  next : kHcPortMin ≤ hc.nextPort ∧ hc.nextPort ≤ kHcPortMax
  range : ∀ id port, hc.portOf id = some port → kHcPortMin ≤ port ∧ port ≤ kHcPortMax
  inverse : Inverse hc.portOf hc.byPort

theorem Inv.bijection (h : Inv hc) : PortBijection hc := by
  refine ⟨fun id p hp hf => ?_, fun id p hp hf => ?_, fun id id' p p' hp hp' hf hf' he => ?_, fun port id hb => ?_⟩
  · exact h.range id _ (portOf_eq_some.mpr ⟨p, hp, hf, rfl⟩)
  · rw [h.key id p hp]
    exact (h.inverse _ _).mp (portOf_eq_some.mpr ⟨p, hp, hf, rfl⟩)
  · exact h.inverse.inj (portOf_eq_some.mpr ⟨p, hp, hf, he⟩) (portOf_eq_some.mpr ⟨p', hp', hf', rfl⟩)
  · exact portOf_eq_some.mp ((h.inverse _ _).mpr hb)

theorem Inv.init (conf : HealthConf) (srcIp : IPv4Addr) : Inv { conf := conf, srcIp := srcIp } :=
  ⟨fun _ _ h => (nomatch h), show kHcPortMin ≤ kHcPortMin ∧ kHcPortMin ≤ kHcPortMax by decide,
    fun _ _ h => (nomatch h), Inverse.empty⟩

/-- An invariant of the ports: it lasts when a probe is replaced and keeps its port,
and when the probe gives its port back. -/
structure PortRule (I : HealthChecker → Prop) : Prop where
  owns : ∀ {hc}, I hc → Owns hc
  keep : ∀ {hc id q}, I hc → q.bind Probe.flightPort = hc.portOf id → (∀ p, q = some p → p.rsId = id) →
    I (hc.setProbe id q)
  land : ∀ {hc id port q}, I hc → hc.portOf id = some port → q.bind Probe.flightPort = none →
    (∀ p, q = some p → p.rsId = id) → I ((hc.setPort port none).setProbe id q)

theorem portOf_put (hprobes : hc'.probes = Function.update hc.probes id q) :
    hc'.portOf = Function.update hc.portOf id (q.bind Probe.flightPort) := by
  funext x
  by_cases hx : x = id
  · subst hx
    simp [portOf, hprobes]
  · simp [portOf, hprobes, hx]

theorem key_put (h : ∀ x p, hc.probes x = some p → p.rsId = x)
    (hprobes : hc'.probes = Function.update hc.probes id q) (hkey : ∀ p, q = some p → p.rsId = id) :
    ∀ x p, hc'.probes x = some p → p.rsId = x := by
  intro x p hp
  rw [hprobes] at hp
  by_cases hx : x = id
  · subst hx
    rw [Function.update_self] at hp
    exact hkey p hp
  · rw [Function.update_of_ne hx] at hp
    exact h x p hp

/-- One probe is replaced, with its entry. -/
theorem Inv.put (h : Inv hc) (hprobes : hc'.probes = Function.update hc.probes id q)
    (hkey : ∀ p, q = some p → p.rsId = id) (hnext : kHcPortMin ≤ hc'.nextPort ∧ hc'.nextPort ≤ kHcPortMax)
    (hrange : ∀ port, q.bind Probe.flightPort = some port → kHcPortMin ≤ port ∧ port ≤ kHcPortMax)
    (hinv : Inverse (Function.update hc.portOf id (q.bind Probe.flightPort)) hc'.byPort) : Inv hc' := by
  have hport := portOf_put hprobes
  refine ⟨key_put h.key hprobes hkey, hnext, fun x port hx => ?_, hport ▸ hinv⟩
  rw [hport] at hx
  by_cases hxi : x = id
  · subst hxi
    rw [Function.update_self] at hx
    exact hrange port hx
  · rw [Function.update_of_ne hxi] at hx
    exact h.range x port hx

theorem inv_rule : PortRule Inv where
  owns h := ⟨h.key, fun port id => (h.inverse id port).mpr⟩
  keep {hc id q} h hq hkey := by
    refine h.put rfl hkey h.next (fun port hp => h.range id port (hq ▸ hp)) ?_
    rw [hq, Function.update_eq_self]
    exact h.inverse
  land {hc id port q} h hp hq hkey := by
    refine h.put rfl hkey h.next (fun port' hp' => nomatch hq.symm.trans hp') ?_
    rw [hq]
    exact h.inverse.erase hp

/-- It takes a free port. -/
theorem Inv.fly (h : Inv hc) (hid : hc.portOf id = none) (hfree : hc.byPort port = none)
    (hrange : kHcPortMin ≤ port ∧ port ≤ kHcPortMax) (hp : p.flightPort = some port)
    (hprobes : hc'.probes = Function.update hc.probes id (some p)) (hkey : p.rsId = id)
    (hby : hc'.byPort = Function.update hc.byPort port (some id))
    (hnext : kHcPortMin ≤ hc'.nextPort ∧ hc'.nextPort ≤ kHcPortMax) : Inv hc' := by
  refine h.put hprobes (fun p' he => Option.some.inj he ▸ hkey) hnext (fun port' he => ?_) ?_
  · obtain rfl := Option.some.inj (hp.symm.trans he)
    exact hrange
  · rw [hby, Option.bind_some, hp]
    exact h.inverse.insert hid hfree

/-- One probe is replaced, and no other gets an entry. -/
theorem Owns.put (h : Owns hc) (hprobes : hc'.probes = Function.update hc.probes id q)
    (hkey : ∀ p, q = some p → p.rsId = id)
    (hby : ∀ port x, hc'.byPort port = some x → if x = id then q.bind Probe.flightPort = some port
      else hc.byPort port = some x) : Owns hc' := by
  refine ⟨key_put h.key hprobes hkey, fun port x hx => ?_⟩
  have hx' := hby port x hx
  rw [portOf_put hprobes]
  by_cases hxi : x = id
  · subst hxi
    rw [if_pos rfl] at hx'
    rwa [Function.update_self]
  · rw [if_neg hxi] at hx'
    rw [Function.update_of_ne hxi]
    exact h.entry port x hx'

theorem owns_rule : PortRule Owns where
  owns h := h
  keep {hc id q} h hq hkey := by
    refine h.put rfl hkey fun port x hx => ?_
    split
    · rename_i hxi
      rw [hq, ← hxi]
      exact h.entry port x hx
    · exact hx
  land {hc id port q} h hp hq hkey := by
    refine h.put rfl hkey fun port' x hx => ?_
    change Function.update hc.byPort port none port' = some x at hx
    by_cases hport : port' = port
    · rw [hport, Function.update_self] at hx
      cases hx
    · rw [Function.update_of_ne hport] at hx
      rw [if_neg]
      · exact hx
      · rintro rfl
        exact hport (Option.some.inj ((h.entry port' x hx).symm.trans hp))

/-! ### The free port -/

theorem card_ports : (Finset.Icc kHcPortMin kHcPortMax).card = kHcPorts := by
  rw [Nat.card_Icc]
  rfl

theorem portAfter_range (h : kHcPortMin ≤ port ∧ port ≤ kHcPortMax) :
    kHcPortMin ≤ portAfter port ∧ portAfter port ≤ kHcPortMax := by
  unfold portAfter
  split
  · decide
  · omega

/-- The loop probes the ports as a ring. -/
theorem pickPort_eq (byPort : ℕ → Option ℕ) : ∀ (tries i : ℕ), i < kHcPorts →
    (pickPort byPort tries (kHcPortMin + i)).2 =
      (probe kHcPorts (fun i => (byPort (kHcPortMin + i)).isNone) tries i).map (kHcPortMin + ·)
  | 0, _, _ => rfl
  | tries + 1, i, hi => by
    unfold pickPort probe
    by_cases hfree : (byPort (kHcPortMin + i)).isNone = true
    · rw [if_pos hfree, if_pos hfree]
      rfl
    · rw [if_neg hfree, if_neg hfree]
      have hafter : portAfter (kHcPortMin + i) = kHcPortMin + (i + 1) % kHcPorts := by
        unfold portAfter
        by_cases hlast : i + 1 = kHcPorts
        · rw [if_pos (by unfold kHcPorts at hlast; unfold kHcPortMin kHcPortMax at *; omega), hlast, Nat.mod_self]
          rfl
        · rw [if_neg (by unfold kHcPorts at *; unfold kHcPortMin kHcPortMax at *; omega),
            Nat.mod_eq_of_lt (by omega)]
          rfl
      rw [hafter]
      exact pickPort_eq byPort tries _ (Nat.mod_lt _ (by decide))

theorem pickPort_next (byPort : ℕ → Option ℕ) : ∀ (tries : ℕ) {port : ℕ}, kHcPortMin ≤ port ∧ port ≤ kHcPortMax →
    kHcPortMin ≤ (pickPort byPort tries port).1 ∧ (pickPort byPort tries port).1 ≤ kHcPortMax
  | 0, _, h => h
  | tries + 1, port, h => by
    unfold pickPort
    split
    · exact portAfter_range h
    · exact pickPort_next byPort tries (portAfter_range h)

/-- A free port is found if there is one. -/
theorem pickPort_free {byPort : ℕ → Option ℕ} {start : ℕ} (hs : kHcPortMin ≤ start ∧ start ≤ kHcPortMax)
    (hfree : ∃ port ∈ Finset.Icc kHcPortMin kHcPortMax, byPort port = none) :
    ∃ port, (pickPort byPort kHcPorts start).2 = some port ∧ (kHcPortMin ≤ port ∧ port ≤ kHcPortMax) ∧
      byPort port = none := by
  obtain ⟨port, hport, hnone⟩ := hfree
  rw [Finset.mem_Icc] at hport
  have hlt : ∀ x, kHcPortMin ≤ x ∧ x ≤ kHcPortMax → x - kHcPortMin < kHcPorts := by
    intro x hx
    unfold kHcPorts
    omega
  obtain ⟨r, hr, hrlt, hrfree⟩ := probe_returns (fun i => (byPort (kHcPortMin + i)).isNone) (hlt start hs)
    (hlt port hport) (by rw [Nat.add_sub_cancel' hport.1, hnone]; rfl)
  refine ⟨kHcPortMin + r, ?_, ⟨Nat.le_add_right _ _, ?_⟩, by simpa using hrfree⟩
  · have := pickPort_eq byPort kHcPorts (start - kHcPortMin) (hlt start hs)
    rw [Nat.add_sub_cancel' hs.1, hr] at this
    exact this
  · unfold kHcPorts at hrlt
    unfold kHcPortMin kHcPortMax at *
    omega

/-! ### The loops of `tick` -/

theorem portOf_of (hp : hc.probes id = some p) : hc.portOf id = p.flightPort := by
  rw [portOf, hp, Option.bind_some]

theorem flightPort_of_not (h : p.inFlight = false) : p.flightPort = none := if_neg (by simp [h])

section Rule

variable {I : HealthChecker → Prop}

theorem PortRule.expire (hI : PortRule I) (h : I hc) (hp : hc.probes id = some p) (now : ℕ) :
    I ((hc.expire p now).1.setProbe id (some (hc.expire p now).2.1)) := by
  unfold HealthChecker.expire
  split
  · rename_i he
    refine hI.land h (portOf_of hp ▸ Probe.flightPort_eq_some.mpr ⟨he.1, rfl⟩) ?_ ?_
    · exact flightPort_of_not (result_inFlight ..)
    · intro p' hp'
      obtain rfl := Option.some.inj hp'
      rw [result_rsId]
      exact (hI.owns h).key id p hp
  · refine hI.keep h (portOf_of hp).symm fun p' hp' => ?_
    exact Option.some.inj hp' ▸ (hI.owns h).key id p hp

theorem reportChange_flightPort (p : Probe) (now : ℕ) (taken : Bool) :
    (reportChange p now taken).1.flightPort = p.flightPort ∧ (reportChange p now taken).1.rsId = p.rsId := by
  unfold reportChange
  split
  · exact ⟨rfl, rfl⟩
  · exact ⟨rfl, rfl⟩

/-- The body of the last loop, up to the launch. -/
theorem PortRule.visit (hI : PortRule I) (h : I hc) (hlaunch : ∀ p, hc.probes id = some p →
      I ((hc.expire p now).1.setProbe id (some (hc.expire p now).2.1)) →
      I (((hc.expire p now).1.launch (hc.expire p now).2.1 now).1.setProbe id
        (some ((hc.expire p now).1.launch (hc.expire p now).2.1 now).2.1))) :
    I (hc.visit now taken id).1 := by
  unfold HealthChecker.visit
  cases hp : hc.probes id with
  | none => exact h
  | some p =>
    have h2 := hlaunch p hp (hI.expire h hp now)
    have hself := Function.update_self id (some ((hc.expire p now).1.launch (hc.expire p now).2.1 now).2.1)
      ((hc.expire p now).1.launch (hc.expire p now).2.1 now).1.probes
    obtain ⟨hport, hkey⟩ := reportChange_flightPort
      ((hc.expire p now).1.launch (hc.expire p now).2.1 now).2.1 now (taken id)
    show I (HealthChecker.setProbe _ id (some _))
    rw [← setProbe_setProbe]
    refine hI.keep h2 ?_ fun p' he => ?_
    · rw [portOf_of hself]
      exact hport
    · obtain rfl := Option.some.inj he
      exact hkey.trans ((hI.owns h2).key id _ hself)

theorem PortRule.sync (hI : PortRule I) (h : I hc) (now : ℕ) (rs : RsState) : I (hc.sync now rs) := by
  refine hI.keep h ?_ fun p' he => ?_
  · cases hp : hc.probes rs.id with
    | none => simp [portOf, hp, Probe.refresh, Probe.flightPort]
    | some p => simp [portOf, hp, Probe.refresh, Probe.flightPort]
  · obtain rfl := Option.some.inj he
    cases hp : hc.probes rs.id with
    | none => rfl
    | some p => exact (hI.owns h).key rs.id p hp

theorem PortRule.purge (hI : PortRule I) (h : I hc) (seen : List ℕ) (id : ℕ) : I (hc.purge seen id) := by
  unfold HealthChecker.purge
  split
  · exact h
  · cases hp : hc.probes id with
    | none => exact h
    | some p =>
      show I (HealthChecker.setProbe (if p.inFlight = true then hc.setPort p.srcPort none else hc) id none)
      have hkey : ∀ p' : Probe, none = some p' → p'.rsId = id := fun _ he => nomatch he
      by_cases hf : p.inFlight = true
      · rw [if_pos hf]
        exact hI.land h (portOf_of hp ▸ Probe.flightPort_eq_some.mpr ⟨hf, rfl⟩) rfl hkey
      · rw [if_neg hf]
        refine hI.keep h ?_ hkey
        rw [portOf_of hp, flightPort_of_not (by simpa using hf)]
        rfl

theorem PortRule.prepare (hI : PortRule I) (h : I hc) (snap : Snapshot) (now : ℕ) (order : List ℕ) :
    I (hc.prepare snap now order) := by
  have hsync : ∀ (l : List RsState) {hc : HealthChecker}, I hc → I (l.foldl (HealthChecker.sync now) hc) := by
    intro l
    induction l with
    | nil => exact fun h => h
    | cons rs l ih => exact fun h => ih (hI.sync h now rs)
  have hpurge : ∀ (seen order : List ℕ) {hc : HealthChecker}, I hc →
      I (order.foldl (HealthChecker.purge seen) hc) := by
    intro seen order
    induction order with
    | nil => exact fun h => h
    | cons id order ih => exact fun h => ih (hI.purge h seen id)
  exact hpurge _ order (hsync _ h)

theorem PortRule.onResponse (hI : PortRule I) (h : I hc) (ev : HcResponse) : I (hc.onResponse ev).1 := by
  unfold HealthChecker.onResponse
  cases hb : hc.byPort ev.port.toNat with
  | none => exact h
  | some id =>
    have hport := (hI.owns h).entry _ _ hb
    obtain ⟨p, hp, hf, hsrc⟩ := portOf_eq_some.mp hport
    simp only [hp]
    have hkey : ∀ {p' : Probe}, p'.rsId = p.rsId → ∀ p'', some p' = some p'' → p''.rsId = id := by
      rintro p' he p'' he'
      obtain rfl := Option.some.inj he'
      exact he.trans ((hI.owns h).key id p hp)
    split
    · exact h
    split
    · exact h
    unfold HealthChecker.answer
    simp only
    split
    · exact hI.land h hport (flightPort_of_not (result_inFlight ..)) (hkey (result_rsId ..))
    split
    · exact hI.land h hport (flightPort_of_not (result_inFlight ..)) (hkey (result_rsId ..))
    · exact hI.land h hport (flightPort_of_not rfl) (hkey rfl)

end Rule

/-! An entry names the probe that has the port, whatever `send_probe` finds. -/

theorem Owns.launch (h : Owns (hc.setProbe id (some p))) (now : ℕ) :
    Owns ((hc.launch p now).1.setProbe id (some (hc.launch p now).2.1)) := by
  have hp : (hc.setProbe id (some p)).probes id = some p := Function.update_self ..
  unfold HealthChecker.launch
  split
  · rename_i hl
    have hkey := h.key id p hp
    have hidle : (hc.setProbe id (some p)).portOf id = none := by
      rw [portOf_of hp, flightPort_of_not (by simpa using hl.1)]
    refine h.put (Function.update_idem _ _ _).symm (fun p' he => Option.some.inj he ▸ hkey) fun port x hx => ?_
    change Function.update hc.byPort (hc.sendProbe p now).2.srcPort (some p.rsId) port = some x at hx
    by_cases hport : port = (hc.sendProbe p now).2.srcPort
    · rw [hport, Function.update_self, hkey] at hx
      rw [if_pos (Option.some.inj hx).symm]
      exact Probe.flightPort_eq_some.mpr ⟨rfl, hport.symm⟩
    · rw [Function.update_of_ne hport] at hx
      rw [if_neg]
      · exact hx
      · rintro rfl
        exact nomatch hidle.symm.trans (h.entry port x hx)
  · exact h

theorem Owns.tick (h : Owns hc) (snap : Snapshot) (now : ℕ) (order : List ℕ) (taken : ℕ → Bool) :
    Owns (hc.tick snap now order taken).1 := by
  have hvisit : ∀ (l : List ℕ) {hc : HealthChecker}, Owns hc → Owns (visitAll now taken hc l).1 := by
    intro l
    induction l with
    | nil => exact fun h => h
    | cons id l ih => exact fun h => ih (owns_rule.visit h fun p _ h1 => h1.launch now)
  unfold HealthChecker.tick
  split
  · exact hvisit order (owns_rule.prepare h snap now order)
  · exact h

/-! ### The last loop of `tick`, with free ports -/

theorem Inv.launch (h : Inv (hc.setProbe id (some p))) (now : ℕ)
    (hfree : p.inFlight = false → now ≥ p.nextMs → ∃ port ∈ Finset.Icc kHcPortMin kHcPortMax, hc.byPort port = none) :
    Inv ((hc.launch p now).1.setProbe id (some (hc.launch p now).2.1)) := by
  have hp : (hc.setProbe id (some p)).probes id = some p := Function.update_self ..
  unfold HealthChecker.launch
  split
  · rename_i hl
    have hidle : p.inFlight = false := by simpa using hl.1
    obtain ⟨port, hpick, hrange, hnone⟩ := pickPort_free h.next (hfree hidle hl.2)
    have hkey := h.key id p hp
    have hsrc : (pickPort hc.byPort kHcPorts hc.nextPort).2.getD p.srcPort = port := by
      rw [show hc.nextPort = (hc.setProbe id (some p)).nextPort from rfl, hpick]
      rfl
    have hsent : ((hc.sendProbe p now).2.waitUntil (now + hc.conf.intervalMs)).flightPort = some port :=
      Probe.flightPort_eq_some.mpr ⟨rfl, hsrc⟩
    have hidle' : (hc.setProbe id (some p)).portOf id = none := by rw [portOf_of hp, flightPort_of_not hidle]
    refine h.fly hidle' hnone hrange hsent ?_ hkey ?_ ?_
    · exact (Function.update_idem _ _ _).symm
    · show Function.update hc.byPort _ (some p.rsId) = Function.update hc.byPort port (some id)
      rw [hkey, hsrc]
    · exact pickPort_next hc.byPort kHcPorts h.next
  · exact h

/-- A probe that is in flight after the step was so before it, or was due. -/
theorem visit_portOf (h : (hc.visit now taken id).1.portOf id ≠ none) :
    hc.portOf id ≠ none ∨ ∃ p, hc.probes id = some p ∧ now ≥ p.nextMs := by
  unfold HealthChecker.visit at h
  cases hp : hc.probes id with
  | none =>
    simp only [hp] at h
    exact Or.inl h
  | some p =>
    simp only [hp] at h
    by_cases hdue : now ≥ p.nextMs
    · exact Or.inr ⟨p, rfl, hdue⟩
    left
    intro hnone
    rw [portOf_of hp] at hnone
    have hidle : p.inFlight = false := by
      by_contra hf
      exact nomatch (if_pos (by simpa using hf) : p.flightPort = some p.srcPort).symm.trans hnone
    have he : hc.expire p now = (hc, p, []) := if_neg (by simp [hidle])
    have hl : hc.launch p now = (hc, p, []) := if_neg (by simp [hdue])
    simp only [he, hl] at h
    refine h ?_
    rw [portOf_of (Function.update_self ..), (reportChange_flightPort p now (taken id)).1, hnone]

/-- **The last loop of `tick` keeps the ports in order**, if `ids` has the real
servers with a probe in flight or due and is not larger than the range. -/
theorem visitAll_inv {ids : Finset ℕ} (hcard : ids.card ≤ kHcPorts) : ∀ (order : List ℕ) {hc : HealthChecker},
    Inv hc → order.Nodup → (∀ x, hc.portOf x ≠ none → x ∈ ids) →
    (∀ x ∈ order, ∀ p, hc.probes x = some p → now ≥ p.nextMs → x ∈ ids) → Inv (visitAll now taken hc order).1
  | [], _, h, _, _, _ => h
  | id :: rest, hc, h, hnodup, hfly, hdue => by
    obtain ⟨hid, hrest⟩ := List.nodup_cons.mp hnodup
    have hvisit : Inv (hc.visit now taken id).1 := by
      refine inv_rule.visit h fun p hp h1 => h1.launch now fun hidle hd => ?_
      have hnext : (hc.expire p now).2.1.nextMs = p.nextMs := by rw [(expire_eq ..).2.2.1, expired_nextMs]
      -- the others in flight are fewer than the ports
      refine h1.inverse.exists_free (t := ids.erase id) (fun x port hx => ?_) ?_
      · have hne : x ≠ id := by
          rintro rfl
          rw [portOf_of (Function.update_self ..), flightPort_of_not hidle] at hx
          exact nomatch hx
        refine Finset.mem_erase.mpr ⟨hne, hfly x ?_⟩
        have hsame : ((hc.expire p now).1.setProbe id (some (hc.expire p now).2.1)).probes x = hc.probes x := by
          show Function.update _ id _ x = _
          rw [Function.update_of_ne hne]
          unfold HealthChecker.expire
          split
          · rfl
          · rfl
        rw [portOf, ← hsame]
        exact fun hn => nomatch hx.symm.trans hn
      · have hmem : id ∈ ids := hdue id List.mem_cons_self p hp (hnext ▸ hd)
        have hpos := Finset.card_pos.mpr ⟨id, hmem⟩
        rw [Finset.card_erase_of_mem hmem, card_ports]
        omega
    refine visitAll_inv hcard rest hvisit hrest (fun x hx => ?_) fun x hx p hp hd => ?_
    · by_cases hxi : x = id
      · subst hxi
        rcases visit_portOf hx with hb | ⟨p, hp, hd⟩
        · exact hfly x hb
        · exact hdue x List.mem_cons_self p hp hd
      · rw [portOf, visit_probes_of_ne hxi] at hx
        exact hfly x hx
    · have hne : x ≠ id := by
        rintro rfl
        exact hid hx
      rw [visit_probes_of_ne hne] at hp
      exact hdue x (List.mem_cons_of_mem _ hx) p hp hd

/-! ### The real servers of the snapshot -/

/-- The real server has a probe in flight or due. -/
def wants (hc : HealthChecker) (now id : ℕ) : Bool :=
  match hc.probes id with
  | some p => p.inFlight || decide (now ≥ p.nextMs)
  | none => decide ((id * 37 % 2 ^ 32) % hc.conf.intervalMs = 0)

theorem wants_of_synced {rs : RsState} (h : (hc.synced now rs).inFlight = true ∨ now ≥ (hc.synced now rs).nextMs) :
    hc.wants now rs.id = true := by
  unfold wants
  cases hp : hc.probes rs.id with
  | none =>
    simp only [synced, hp, Option.getD_none, Probe.refresh] at h
    simp only [decide_eq_true_eq]
    rcases h with h | h
    · exact nomatch h
    · omega
  | some p =>
    simp only [synced, hp, Option.getD_some, Probe.refresh] at h
    simpa using h

theorem Inv.tick (h : Inv hc) {snap : Snapshot} {order : List ℕ} (hn : (snap.tcpServers.map (·.id)).Nodup)
    (ho : hc.Orders snap order) (hnodup : order.Nodup)
    (hroom : ((snap.tcpServers.map (·.id)).filter (hc.wants now)).length ≤ kHcPorts) :
    Inv (hc.tick snap now order taken).1 := by
  unfold HealthChecker.tick
  split
  · have hprep : Inv (hc.prepare snap now order) := inv_rule.prepare h snap now order
    have hwants : ∀ x p, (hc.prepare snap now order).probes x = some p → p.inFlight = true ∨ now ≥ p.nextMs →
        x ∈ ((snap.tcpServers.map (·.id)).filter (hc.wants now)).toFinset := by
      intro x p hp hw
      by_cases hx : x ∈ snap.tcpServers.map (·.id)
      · obtain ⟨rs, hrs, rfl⟩ := List.mem_map.mp hx
        obtain rfl := Option.some.inj ((prepare_of_mem hn hrs).symm.trans hp)
        exact List.mem_toFinset.mpr (List.mem_filter.mpr ⟨hx, wants_of_synced hw⟩)
      · exact nomatch (prepare_of_notMem ho hx).symm.trans hp
    refine visitAll_inv ((List.toFinset_card_le _).trans hroom) order hprep hnodup (fun x hx => ?_)
      fun x _ p hp hd => hwants x p hp (Or.inr hd)
    obtain ⟨port, hport⟩ := Option.ne_none_iff_exists'.mp hx
    obtain ⟨p, hp, hf, -⟩ := portOf_eq_some.mp hport
    exact hwants x p hp (Or.inl hf)
  · exact h

/-- As many probes are in flight as there are ports, at most. -/
theorem PortBijection.card_le (h : hc.PortBijection) {f : Finset ℕ}
    (hf : ∀ id ∈ f, ∃ p, hc.probes id = some p ∧ p.inFlight = true) : f.card ≤ kHcPorts := by
  rw [← card_ports]
  refine card_le_of_inj (f := hc.portOf) (fun {a a' b} ha ha' => ?_) fun id hid => ?_
  · obtain ⟨p, hp, hf, he⟩ := portOf_eq_some.mp ha
    obtain ⟨p', hp', hf', he'⟩ := portOf_eq_some.mp ha'
    exact h.distinct a a' p p' hp hp' hf hf' (he.trans he'.symm)
  · obtain ⟨p, hp, hfly⟩ := hf id hid
    exact ⟨p.srcPort, Finset.mem_Icc.mpr (h.range id p hp hfly), portOf_eq_some.mpr ⟨p, hp, hfly, rfl⟩⟩

end HealthChecker

namespace Monitor

variable {H : HashFns} {cfg : LbConfig} {s s' : Monitor}

/-- Of the real servers of TCP services, no more have a probe in flight or due
than there are ports. -/
def HasRoom (s : Monitor) : MonitorEvent → Prop
  | .tick now _ _ => (s.tcpIds.filter (s.hc.wants now)).length ≤ HealthChecker.kHcPorts
  | _ => True

/-- A snapshot is published, and the ports are in order. -/
structure Inv (H : HashFns) (cfg : LbConfig) (s : Monitor) : Prop where
  running : SnapshotManager.Running H cfg s.mgr
  hc : s.hc.Inv

theorem tcpIds_nodup {snap : Snapshot} (hb : snap.Built H cfg) : (snap.tcpServers.map (·.id)).Nodup :=
  hb.ids_nodup.sublist (List.filter_sublist.map _)

theorem Inv.step (hc : Config.Valid cfg) (h : Inv H cfg s) {ev : MonitorEvent} {acts : List HcAction}
    (hv : s.Valid ev) (hroom : s.HasRoom ev) (hs : s.step H ev = .ok (s', acts)) : Inv H cfg s' := by
  obtain ⟨snap, hcur, hb⟩ := h.running.cur
  cases ev with
  | command c =>
    obtain ⟨mgr, hr, hrun⟩ := SnapshotManager.Command.run_returns hc h.running c
    simp only [Monitor.step, hr] at hs
    obtain rfl := (Prod.mk.inj (Except.ok.inj hs)).1
    exact ⟨hrun, h.hc⟩
  | tick now order taken =>
    obtain ⟨-, hnodup, ho⟩ := hv
    simp only [Monitor.step, hcur] at hs
    obtain rfl := (Prod.mk.inj (Except.ok.inj hs)).1
    have htcp : s.tcpIds = snap.tcpServers.map (·.id) := by
      unfold tcpIds
      rw [hcur]
      rfl
    simp only [HasRoom, htcp] at hroom
    simp only [htcp] at ho
    exact ⟨h.running, h.hc.tick (tcpIds_nodup hb) ho hnodup hroom⟩
  | response now ev =>
    obtain rfl := (Prod.mk.inj (Except.ok.inj hs)).1
    exact ⟨h.running, HealthChecker.inv_rule.onResponse h.hc ev⟩

theorem Inv.boot (hc : Config.Valid cfg) (h : boot H cfg = .ok s) : Inv H cfg s := by
  obtain ⟨mgr, hi, h⟩ := bind_eq_ok.mp h
  obtain rfl := Except.ok.inj h
  obtain ⟨m, hm, hrun, -⟩ := SnapshotManager.init_returns (H := H) hc
  obtain rfl := Except.ok.inj (hm.symm.trans hi)
  exact ⟨hrun, HealthChecker.Inv.init ..⟩

theorem Inv.steps (hc : Config.Valid cfg) {τ : List (MonitorEvent × List HcAction)}
    (hτ : Steps H (fun s ev => s.Valid ev ∧ s.HasRoom ev) s τ s') (h : Inv H cfg s) : Inv H cfg s' := by
  induction hτ with
  | nil => exact h
  | cons ha hs _ ih => exact ih (h.step hc ha.1 ha.2 hs)

/-- **The ports of the probes are in order** in every state that steps with room
reach. -/
theorem ports_bijective (hcfg : Config.Accepted cfg)
    (h : Reach H cfg (fun s ev => s.Valid ev ∧ s.HasRoom ev) s) : s.hc.PortBijection := by
  obtain ⟨s0, τ, hb, hτ⟩ := h
  exact ((Inv.boot hcfg.valid hb).steps hcfg.valid hτ).hc.bijection

/-! ### More probes than ports -/

/-- Web services with some real servers each. -/
def webConfig (services servers : ℕ) : LbConfig where
  maxSessions := 1024
  localIps := [0x0A01000A]
  hcSrc := 0x0A01000A
  health := { enabled := true }
  services := (List.range services).map fun i => {
    name := "web", vip := 0x0200000A, port := UInt16.ofNat (80 + i), proto := 6,
    rs := (List.range servers).map fun k => { ip := UInt32.ofNat (0x0A + 2 ^ 16 * (i + 1) + 2 ^ 24 * k), port := 80 } }

theorem webConfig_proto (m n : ℕ) : ∀ sc ∈ (webConfig m n).services, sc.proto = 6 := by
  intro sc hsc
  obtain ⟨i, -, rfl⟩ := List.mem_map.mp hsc
  rfl

theorem webConfig_accepted : Config.Accepted (webConfig 1 2) := ⟨webConfig 1 2, by decide, by decide, rfl⟩

set_option maxRecDepth 20000 in
theorem crowded_accepted : Config.Accepted (webConfig 4 251) := ⟨webConfig 4 251, by decide, by decide, rfl⟩

/-- In a snapshot of TCP services only, every real server is checked. -/
theorem tcpServers_eq {snap : Snapshot} {mgr : SnapshotManager} (hb : snap.Built H cfg) (hs : snap.Shows mgr)
    (htcp : ∀ sc ∈ cfg.services, sc.proto = 6) : snap.tcpServers = snap.services.flatMap (·.rs) := by
  refine List.filter_eq_self.mpr fun rs hrs => ?_
  obtain ⟨svc, hsvc, hrs⟩ := List.mem_flatMap.mp hrs
  obtain ⟨i, hi⟩ := List.mem_iff_getElem?.mp hsvc
  have hidx : rs.svcIdx = i := by
    have h := congrArg (·[i]?) hs.services
    simp only [List.getElem?_map, List.getElem?_mapIdx, hi, Option.map_some] at h
    obtain ⟨ds, -, hds⟩ := Option.map_eq_some_iff.mp h.symm
    rw [← hds] at hrs
    obtain ⟨d, -, rfl⟩ := List.mem_map.mp hrs
    rfl
  have hproto : svc.proto = 6 := by
    have h : svc.key ∈ cfg.services.map fun c => (c.vip, bswap16 c.port, c.proto) :=
      hb.keys ▸ List.mem_map_of_mem hsvc
    obtain ⟨sc, hsc, he⟩ := List.mem_map.mp h
    exact (congrArg (·.2.2) he).symm.trans (htcp sc hsc)
  rw [hidx, hi]
  simpa using hproto

theorem Steps.tick {allowed : Monitor → MonitorEvent → Prop} {τ : List (MonitorEvent × List HcAction)}
    {snap : Snapshot} (t : ℕ) (order : List ℕ) (taken : ℕ → Bool) (hcur : s.mgr.cur = some snap)
    (ha : allowed s (.tick t order taken))
    (h : Steps H allowed { s with hc := (s.hc.tick snap t order taken).1, now := t } τ s') :
    Steps H allowed s ((.tick t order taken, (s.hc.tick snap t order taken).2) :: τ) s' := by
  refine .cons ha ?_ h
  simp only [Monitor.step, hcur]

theorem valid_tick {snap : Snapshot} {t : ℕ} {order : List ℕ} {taken : ℕ → Bool} (hcur : s.mgr.cur = some snap)
    (ht : s.now ≤ t) (hn : order.Nodup) (ho : s.hc.Orders snap order) : s.Valid (.tick t order taken) := by
  refine ⟨ht, hn, ?_⟩
  unfold tcpIds
  rw [hcur]
  exact ho

/-- The first two ticks, an interval apart, leave a probe in flight to every
real server. -/
theorem steps_inFlight {allowed : Monitor → MonitorEvent → Prop} {snap : Snapshot}
    (h0 : s.hc.probes = fun _ => none) (hnow : s.now = 0) (he : s.hc.conf.enabled = true)
    (hpos : 0 < s.hc.conf.intervalMs) (hcur : s.mgr.cur = some snap) (hn : (snap.tcpServers.map (·.id)).Nodup)
    (ha : ∀ s' ev, s'.mgr = s.mgr → s'.Valid ev → allowed s' ev) :
    ∃ τ s', Steps H allowed s τ s' ∧
      ∀ id ∈ snap.tcpServers.map (·.id), ∃ p, s'.hc.probes id = some p ∧ p.inFlight = true := by
  let ids := snap.tcpServers.map (·.id)
  let free : ℕ → Bool := fun _ => false
  let hc1 := (s.hc.tick snap 0 ids free).1
  have hkey0 : s.hc.KeyOk := fun id p h => nomatch (congrFun h0 id).symm.trans h
  have ho0 : s.hc.Orders snap ids := fun id => by
    rw [h0]
    exact ⟨Or.inr, fun h => h.elim (fun h => nomatch h) fun h => h⟩
  have hconf1 : hc1.conf = s.hc.conf := HealthChecker.tick_conf ..
  have hkey1 : hc1.KeyOk := hkey0.tick hn
  have ho1 : hc1.Orders snap ids := by
    refine fun id => ⟨Or.inr, fun h => h.elim (fun h => ?_) fun h => h⟩
    by_contra hid
    rw [show hc1.probes id = none from HealthChecker.tick_of_notMem he ho0 hid] at h
    exact nomatch h
  refine ⟨_, _, Steps.tick 0 ids free hcur (ha _ _ rfl (valid_tick hcur hnow.le hn ho0)) <|
    Steps.tick s.hc.conf.intervalMs ids free hcur (ha _ _ rfl (valid_tick hcur (Nat.zero_le _) hn ho1)) (.nil _),
    fun id hid => ?_⟩
  obtain ⟨rs, hrs, rfl⟩ := List.mem_map.mp hid
  obtain ⟨q1, hq1, hv1⟩ := HealthChecker.tick_of_mem hkey0 he hn ho0 hn hrs 0 free
  obtain ⟨q2, hq2, hv2⟩ := HealthChecker.tick_of_mem hkey1 (hconf1 ▸ he) hn ho1 hn hrs s.hc.conf.intervalMs free
  have hnext : q1.nextMs ≤ s.hc.conf.intervalMs := by
    rcases HealthChecker.Visit.nextMs hv1 with h | h
    · rw [h, HealthChecker.synced, h0]
      have hlt := Nat.mod_lt (rs.id * 37 % 2 ^ 32) hpos
      show 0 + (rs.id * 37 % 2 ^ 32) % s.hc.conf.intervalMs ≤ _
      omega
    · rw [h]
      omega
  refine ⟨q2, hq2, HealthChecker.Visit.inFlight hv2 ?_⟩
  rw [HealthChecker.synced, show hc1.probes rs.id = some q1 from hq1]
  exact hnext

theorem exists_inFlight (allowed : Monitor → MonitorEvent → Prop) (hcfg : Config.Accepted cfg)
    (he : cfg.health.enabled = true) (hpos : 0 < cfg.health.intervalMs) (hproto : ∀ sc ∈ cfg.services, sc.proto = 6)
    (ha : ∀ s ev, s.tcpIds = List.range' 1 cfg.rsTotal → s.Valid ev → allowed s ev) :
    ∃ s, Reach H cfg allowed s ∧
      ∀ id, 1 ≤ id → id ≤ cfg.rsTotal → ∃ p, s.hc.probes id = some p ∧ p.inFlight = true := by
  obtain ⟨mgr, hinit, hrun, hids⟩ := SnapshotManager.init_returns (H := H) hcfg.valid
  obtain ⟨mgr', hinit', -, -, -, snap, hcur, hshows⟩ :=
    SnapshotManager.publish_shows (H := H) hcfg.valid (SnapshotManager.ok_start hcfg.valid)
  obtain rfl : mgr = mgr' := Except.ok.inj (hinit.symm.trans hinit')
  obtain ⟨snap', hcur', hb⟩ := hrun.cur
  obtain rfl := Option.some.inj (hcur.symm.trans hcur')
  have htcp : snap.tcpServers.map (·.id) = List.range' 1 cfg.rsTotal := by
    rw [tcpServers_eq hb hshows hproto]
    exact hids snap hcur
  obtain ⟨τ, s, hτ, hfly⟩ := steps_inFlight (H := H) (s := { mgr, hc := { conf := cfg.health, srcIp := cfg.hcSrc } })
    rfl rfl he hpos hcur (tcpIds_nodup hb) fun s ev hs hv => ha s ev (by rw [tcpIds, hs, hcur]; exact htcp) hv
  refine ⟨s, ⟨_, τ, ?_, hτ⟩, fun id h1 h2 => hfly id (htcp ▸ List.mem_range'_1.mpr ⟨h1, by omega⟩)⟩
  unfold boot
  rw [hinit]
  rfl

theorem ports_bijective_web : ∃ s, Reach demo.H (webConfig 1 2) (fun s ev => s.Valid ev ∧ s.HasRoom ev) s ∧
    (∃ p, s.hc.probes 2 = some p ∧ p.inFlight = true) ∧ s.hc.PortBijection := by
  have hroom : ∀ s : Monitor, ∀ ev, s.tcpIds = List.range' 1 (webConfig 1 2).rsTotal → s.Valid ev → s.HasRoom ev := by
    intro s ev hs hv
    cases ev with
    | command c => trivial
    | response now ev => trivial
    | tick now order taken =>
      refine (List.length_filter_le ..).trans ?_
      rw [hs]
      decide
  obtain ⟨s, hs, hfly⟩ := exists_inFlight (H := demo.H) (fun s ev => s.Valid ev ∧ s.HasRoom ev) webConfig_accepted
    rfl (by decide) (webConfig_proto 1 2) fun s ev h hv => ⟨hv, hroom s ev h hv⟩
  exact ⟨s, hs, hfly 2 (by decide) (by decide), ports_bijective webConfig_accepted hs⟩

/-- **1004 real servers have a probe in flight**, and there are 1000 ports. -/
theorem ports_clash : ∃ s, Reach demo.H (webConfig 4 251) Valid s ∧
    (∀ id, 1 ≤ id → id ≤ 1004 → ∃ p, s.hc.probes id = some p ∧ p.inFlight = true) ∧ ¬ s.hc.PortBijection := by
  have htotal : (webConfig 4 251).rsTotal = 1004 := by decide +kernel
  obtain ⟨s, hs, hfly⟩ := exists_inFlight (H := demo.H) Valid crowded_accepted rfl (by decide)
    (webConfig_proto 4 251) fun s ev _ hv => hv
  rw [htotal] at hfly
  refine ⟨s, hs, hfly, fun h => ?_⟩
  have hcard := h.card_le (f := Finset.Icc 1 1004) fun id hid =>
    hfly id (Finset.mem_Icc.mp hid).1 (Finset.mem_Icc.mp hid).2
  rw [Nat.card_Icc] at hcard
  exact absurd hcard (by decide)

end Monitor

end L4Lb
