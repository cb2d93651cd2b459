/-
# What a loaded configuration is like

Whatever is in the file: if `load` accepts it, all options are in their ranges, no
phase of a connection lasts longer than an established one, the services are TCP or
UDP with proper ports and weights, and the configuration is one that `validate` has
accepted, which is what the rest of the development assumes. If `load` refuses it,
there is a line in the log that says why (`Config.load_sound`).
-/
import L4Lb.Config.Load
import L4Lb.HealthCheck.Life

open Checked

namespace L4Lb

/-- The ranges of the timeouts: no phase lasts longer than an established connection. -/
structure TimeoutConf.InRange (t : TimeoutConf) : Prop where
  established : 1 ≤ t.tcpEstablished ∧ t.tcpEstablished ≤ 86400
  udp : 1 ≤ t.udp ∧ t.udp ≤ 86400
  phases : ∀ n ∈ [t.tcpSyn, t.tcpFin, t.tcpTimewait, t.tcpClose], 1 ≤ n ∧ n ≤ t.tcpEstablished

structure ServiceConf.WellFormed (svc : ServiceConf) : Prop where
  port : svc.port ≠ 0
  proto : svc.proto = 6 ∨ svc.proto = 17
  rs : ∀ r ∈ svc.rs, r.port ≠ 0 ∧ r.weight ≤ 65535

namespace Config

/-- All options are in their ranges. -/
structure FileConfig.InRange (c : FileConfig) : Prop where
  maxSessions : 1024 ≤ c.maxSessions ∧ c.maxSessions ≤ 2 ^ 26
  timeouts : c.timeouts.InRange
  health : c.health.InRange
  interval : c.health.intervalMs ≤ 3600000
  logMaxSizeMb : 1 ≤ c.logMaxSizeMb ∧ c.logMaxSizeMb ≤ 10240
  logMaxFiles : 1 ≤ c.logMaxFiles ∧ c.logMaxFiles ≤ 100
  statsInterval : 1 ≤ c.statsInterval ∧ c.statsInterval ≤ 3600
  services : ∀ svc ∈ c.services, svc.WellFormed

/-- A function that logs something whenever it fails. -/
abbrev Reported {α : Type} (x : Except (List String) α) (Q : α → Prop) : Prop := Avoids (· = []) x Q

theorem reported_logged {α : Type} {x : Except String α} {Q : α → Prop} (h : Ensures x Q) : Reported (logged x) Q := by
  cases x with
  | error e => exact .error (List.cons_ne_nil e [])
  | ok a => exact .ok (h a rfl)

/-! ### Values -/

theorem getU32_range (name : List Char) (sec : Section) (key : String) (out minVal maxVal : ℕ) :
    Ensures (getU32 name sec key out minVal maxVal) fun n =>
      (get sec key "" = [] ∧ n = out) ∨ (get sec key "" ≠ [] ∧ minVal ≤ n ∧ n ≤ maxVal) := by
  intro n h
  unfold getU32 at h
  simp only at h
  split at h
  · rename_i hnone
    exact Or.inl ⟨hnone, (Except.ok.inj h).symm⟩
  · rename_i hsome
    split at h
    · simp at h
    · rename_i hgood
      simp only [not_or, not_lt] at hgood
      rw [← Except.ok.inj h]
      exact Or.inr ⟨hsome, hgood.2.2.2⟩

/-- A value that was in range before. -/
theorem readU32_range (s : Sections) (name key : String) {out minVal maxVal : ℕ}
    (hout : minVal ≤ out ∧ out ≤ maxVal) :
    Ensures (readU32 s name key out minVal maxVal) fun n => minVal ≤ n ∧ n ≤ maxVal := by
  refine Ensures.mono (getU32_range _ _ _ _ _ _) fun n hn => ?_
  rcases hn with ⟨-, rfl⟩ | ⟨-, hn⟩
  · exact hout
  · exact hn

/-- `session_timeout`, which may be missing. -/
theorem readTimeout_legacy (s : Sections) :
    Ensures (readTimeout s "session_timeout" 0) fun n => n ≠ 0 → 1 ≤ n ∧ n ≤ 86400 := by
  refine Ensures.mono (getU32_range _ _ _ _ _ _) fun n hn h0 => ?_
  rcases hn with ⟨-, rfl⟩ | ⟨-, hn⟩
  · exact absurd rfl h0
  · exact hn

/-- Each timeout by itself is in range. -/
structure Bounded (t : TimeoutConf) : Prop where
  syn : 1 ≤ t.tcpSyn ∧ t.tcpSyn ≤ 86400
  established : 1 ≤ t.tcpEstablished ∧ t.tcpEstablished ≤ 86400
  fin : 1 ≤ t.tcpFin ∧ t.tcpFin ≤ 86400
  timewait : 1 ≤ t.tcpTimewait ∧ t.tcpTimewait ≤ 86400
  close : 1 ≤ t.tcpClose ∧ t.tcpClose ≤ 86400
  udp : 1 ≤ t.udp ∧ t.udp ≤ 86400

theorem Bounded.withLegacyTimeout {t : TimeoutConf} (h : Bounded t) {n : ℕ} (hn : n ≠ 0 → 1 ≤ n ∧ n ≤ 86400) :
    Bounded (Config.withLegacyTimeout t n) := by
  unfold Config.withLegacyTimeout
  split
  · rename_i h0
    exact ⟨h.syn, hn h0, h.fin, h.timewait, h.close, hn h0⟩
  · exact h

theorem parseTimeouts_inRange (s : Sections) {t : TimeoutConf} (ht : Bounded t) :
    Ensures (parseTimeouts s t) TimeoutConf.InRange := by
  refine (readTimeout_legacy s).bind fun legacy hlegacy => ?_
  have h := ht.withLegacyTimeout hlegacy
  refine (readU32_range s "global" _ h.syn).bind fun tcpSyn h1 => ?_
  refine (readU32_range s "global" _ h.established).bind fun tcpEstablished h2 => ?_
  refine (readU32_range s "global" _ h.fin).bind fun tcpFin h3 => ?_
  refine (readU32_range s "global" _ h.timewait).bind fun tcpTimewait h4 => ?_
  refine (readU32_range s "global" _ h.close).bind fun tcpClose h5 => ?_
  refine (readU32_range s "global" _ h.udp).bind fun udp h6 => .ok ⟨h2, h6, ?_⟩
  simp only [List.mem_cons, List.not_mem_nil, or_false, forall_eq_or_imp, forall_eq]
  omega

theorem buildGlobal_inRange (s : Sections) : Ensures (buildGlobal s {}) fun c =>
    (1024 ≤ c.maxSessions ∧ c.maxSessions ≤ 2 ^ 26) ∧ c.timeouts.InRange ∧ c.health = {} ∧
      (1 ≤ c.logMaxSizeMb ∧ c.logMaxSizeMb ≤ 10240) ∧ (1 ≤ c.logMaxFiles ∧ c.logMaxFiles ≤ 100) ∧
      (1 ≤ c.statsInterval ∧ c.statsInterval ≤ 3600) := by
  refine .after fun mode => .after fun steering => .after fun dataplane => ?_
  refine (readU32_range s "global" _ (by decide)).bind fun maxSessions h1 => ?_
  refine .after fun toa => .after fun strip => ?_
  refine (readU32_range s "global" _ (by decide)).bind fun logMaxSizeMb h2 => ?_
  refine (readU32_range s "global" _ (by decide)).bind fun logMaxFiles h3 => ?_
  refine .after fun logStderr => ?_
  refine (readU32_range s "global" _ (by decide)).bind fun statsInterval h4 => ?_
  have ht : Bounded {} := ⟨by decide, by decide, by decide, by decide, by decide, by decide⟩
  exact (parseTimeouts_inRange s ht).bind fun timeouts h5 => .ok ⟨h1, h5, rfl, h2, h3, h4⟩

/-- `[network]` leaves the other options alone. -/
theorem buildNetwork_frame (s : Sections) (c : FileConfig) : Ensures (buildNetwork s c) fun c' =>
    c'.maxSessions = c.maxSessions ∧ c'.timeouts = c.timeouts ∧ c'.health = c.health ∧
      c'.logMaxSizeMb = c.logMaxSizeMb ∧ c'.logMaxFiles = c.logMaxFiles ∧ c'.statsInterval = c.statsInterval := by
  refine .after fun vipMac => .after fun netmask => .after fun gateway => .after fun hcSrc => .after fun localIps => ?_
  exact .ok ⟨rfl, rfl, rfl, rfl, rfl, rfl⟩

/-- The interval is in seconds in the file, and in milliseconds afterwards. -/
theorem buildHealth_inRange (s : Sections) :
    Ensures (buildHealth s {}) fun h => h.InRange ∧ h.intervalMs ≤ 3600000 := by
  refine .after fun enabled => ?_
  refine Ensures.bind (getU32_range _ _ _ _ _ _) fun interval h1 => ?_
  refine (readU32_range s "healthcheck" _ (by decide)).bind fun timeoutMs h2 => ?_
  refine (readU32_range s "healthcheck" _ (by decide)).bind fun fall h3 => ?_
  refine (readU32_range s "healthcheck" _ (by decide)).bind fun rise h4 => .ok ?_
  rcases h1 with ⟨hno, h1⟩ | ⟨hgiven, h1⟩
  · rw [if_neg (not_not.mpr hno), h1]
    exact ⟨⟨Nat.succ_pos _, h2, h3, h4⟩, show 5000 ≤ 3600000 by decide⟩
  · rw [if_pos hgiven]
    refine ⟨⟨?_, h2, h3, h4⟩, ?_⟩
    · show 0 < interval * 1000
      omega
    · show interval * 1000 ≤ 3600000
      omega

/-! ### Services -/

theorem ofNat_ne_zero {n : ℕ} (h0 : n ≠ 0) (hle : n ≤ 65535) : UInt16.ofNat n ≠ 0 := by
  intro he
  have h := congrArg UInt16.toNat he
  rw [UInt16.toNat_ofNat_of_lt' (show n < 2 ^ 16 by omega)] at h
  exact h0 h

theorem rsPort_range (key : String) (part : List Char) : Ensures (rsPort key part) fun n => n ≠ 0 ∧ n ≤ 65535 :=
  .unless fun h => ⟨fun h0 => h (Or.inr (Or.inl h0)), not_lt.mp fun hlt => h (Or.inr (Or.inr hlt))⟩

theorem rsWeight_range (key : String) (part : List Char) : Ensures (rsWeight key part) fun n => n ≤ 65535 :=
  .unless fun h => not_lt.mp fun hlt => h (Or.inr hlt)

theorem parseRs_range (key : String) (value : List Char) :
    Ensures (parseRs key value) fun r => r.port ≠ 0 ∧ r.weight ≤ 65535 := by
  unfold parseRs
  refine .ite .error (.after fun ip => ?_)
  refine (rsPort_range key _).bind fun port hport => ?_
  have hport' := ofNat_ne_zero hport.1 hport.2
  -- the weight and the MAC may be missing
  refine .ite ((rsWeight_range key _).bind fun weight hw => ?_)
    (Ensures.bind (P := (· ≤ 65535)) (.ok (by decide)) fun weight hw => ?_)
  · exact .ite (.after fun mac => .ok ⟨hport', hw⟩) (.after fun mac => .ok ⟨hport', hw⟩)
  · exact .ite (.after fun mac => .ok ⟨hport', hw⟩) (.after fun mac => .ok ⟨hport', hw⟩)

theorem parsePort_reported (name : List Char) (sec : Section) :
    Reported (parsePort name sec) fun n => n ≠ 0 ∧ n ≤ 65535 := by
  unfold parsePort
  simp only
  cases h : getU32 name sec "port" 0 1 65535 with
  | error e => exact .error (List.cons_ne_nil _ _)
  | ok n =>
    refine .ite (fun _ => .error (List.cons_ne_nil _ _)) fun h0 => .ok ⟨h0, ?_⟩
    rcases getU32_range name sec "port" 0 1 65535 n h with ⟨-, rfl⟩ | ⟨-, -, hle⟩
    · exact absurd rfl h0
    · exact hle

theorem parseProto_reported (name : List Char) (sec : Section) :
    Reported (parseProto name sec) fun p => p = 6 ∨ p = 17 :=
  .ite (fun _ => .ok (Or.inl rfl)) fun _ =>
    .ite (fun _ => .ok (Or.inr rfl)) fun _ => .error (List.cons_ne_nil _ _)

theorem parseScheduler_reported (name : List Char) (sec : Section) :
    Reported (parseScheduler name sec) fun _ => True :=
  .ite (fun _ => .ok trivial) fun _ => .ite (fun _ => .ok trivial) fun _ => .error (List.cons_ne_nil _ _)

theorem parseService_reported (name : List Char) (sec : Section) :
    Reported (parseService name sec) ServiceConf.WellFormed := by
  refine (reported_logged (Q := fun _ => True) fun _ _ => trivial).bind fun vip _ => ?_
  refine (parsePort_reported name sec).bind fun port hport => ?_
  refine (parseProto_reported name sec).bind fun proto hproto => ?_
  refine (parseScheduler_reported name sec).bind fun sched _ => ?_
  refine (Avoids.mapM _ fun kv _ => reported_logged (parseRs_range _ kv.2)).bind fun rs hrs => ?_
  exact .ok ⟨ofNat_ne_zero hport.1 hport.2, hproto, hrs⟩

theorem parseServices_reported (s : Sections) :
    Reported (parseServices s) fun services => ∀ svc ∈ services, svc.WellFormed :=
  .mapM _ fun sec _ => parseService_reported sec.1 sec.2

theorem legacyPort_range (part : List Char) : Ensures (legacyPort part) fun n => n ≠ 0 ∧ n ≤ 65535 :=
  .unless fun h => ⟨fun h0 => h (Or.inr (Or.inl h0)), not_lt.mp fun hlt => h (Or.inr (Or.inr hlt))⟩

theorem legacyServices_wellFormed {vip : IPv4Addr} {rs : List RsConf}
    (hrs : ∀ r ∈ rs, r.port ≠ 0 ∧ r.weight ≤ 65535) (part : List Char) :
    Ensures (legacyServices vip rs part) fun services => ∀ svc ∈ services, svc.WellFormed := by
  refine (legacyPort_range part).bind fun port hport => .ok fun svc hsvc => ?_
  obtain ⟨proto, hproto, rfl⟩ := List.mem_map.mp hsvc
  have hproto : proto = 6 ∨ proto = 17 := by simpa using hproto
  exact ⟨ofNat_ne_zero hport.1 hport.2, hproto, hrs⟩

theorem parseLegacyRs_range (s : Sections) (n : ℕ) :
    Ensures (parseLegacyRs s n) fun r => ∀ r' ∈ r, r'.port ≠ 0 ∧ r'.weight ≤ 65535 := by
  refine .ite (.ok fun r' h => by cases h) ((parseRs_range _ _).bind fun r hr => .ok fun r' h => ?_)
  obtain rfl := Option.some.inj h
  exact hr

theorem parseLegacyServices_wellFormed (s : Sections) :
    Ensures (parseLegacyServices s) fun services => ∀ svc ∈ services, svc.WellFormed := by
  refine .after fun vip => .after fun count => ?_
  refine (Ensures.mapM _ fun n _ => parseLegacyRs_range s n).bind fun rs hrs => ?_
  have hrs' : ∀ r ∈ rs.filterMap fun r => r, r.port ≠ 0 ∧ r.weight ≤ 65535 := by
    intro r hr
    obtain ⟨r', hr', he⟩ := List.mem_filterMap.mp hr
    exact hrs r' hr' r he
  refine (Ensures.mapM _ fun part _ => legacyServices_wellFormed hrs' part).bind fun services hs => .ok ?_
  intro svc hsvc
  obtain ⟨l, hl, hmem⟩ := List.mem_flatten.mp hsvc
  exact hs l hl svc hmem

/-! ### The file -/

theorem readLine_reported (filename : String) (r : Reader) (line : List Char) (lineNum : ℕ) :
    Reported (readLine filename r line lineNum) fun _ => True := by
  unfold readLine
  simp only
  split
  · exact .ok trivial
  · exact .ok trivial
  · exact .ok trivial
  · exact .ite (fun _ => .ok trivial) fun _ => .error (List.cons_ne_nil _ _)
  · exact .ite (fun _ => .error (List.cons_ne_nil _ _)) fun _ => .ok trivial

theorem parseFile_reported (filename : String) (lines : List (List Char)) :
    Reported (parseFile filename lines) fun _ => True := by
  have hfold : Reported ((lines.zipIdx 1).foldlM (fun r l => readLine filename r l.1 l.2) {}) fun _ => True :=
    .foldlM (fun r l _ => readLine_reported filename r l.1 l.2) _ trivial
  exact hfold.bind fun r _ => .ok trivial

/-- **What `build` gives is in range**, and when it fails it logs why. -/
theorem build_reported (s : Sections) : Reported (build s) FileConfig.InRange := by
  refine (reported_logged (buildGlobal_inRange s)).bind fun c hc => ?_
  refine (reported_logged (buildNetwork_frame s c)).bind fun c' hc' => ?_
  obtain ⟨e1, e2, e3, e4, e5, e6⟩ := hc'
  obtain ⟨h1, h2, h3, h4, h5, h6⟩ := hc
  rw [e3, h3]
  refine (reported_logged (buildHealth_inRange s)).bind fun health hhealth => ?_
  have hrange : ∀ {services : List ServiceConf} {controlSocket : List Char}, (∀ svc ∈ services, svc.WellFormed) →
      FileConfig.InRange { c' with health := health, controlSocket := controlSocket, services := services } := by
    intro services controlSocket hs
    exact ⟨e1.symm ▸ h1, e2.symm ▸ h2, hhealth.1, hhealth.2, e4.symm ▸ h4, e5.symm ▸ h5, e6.symm ▸ h6, hs⟩
  refine .ite (fun _ => ?_) fun _ => ?_
  · exact (parseServices_reported s).bind fun services hs => .ok (hrange hs)
  · exact (reported_logged (parseLegacyServices_wellFormed s)).bind fun services hs => .ok (hrange hs)

/-- `validate` only fills in the local addresses and the source of the probes. -/
theorem validate_frame {c c' : LbConfig} (h : validate c = .ok c') :
    c' = { c with localIps := c'.localIps, hcSrc := c'.hcSrc } := by
  unfold validate at h
  simp only [bind, Except.bind, throw, throwThe, MonadExceptOf.throw, pure, Except.pure] at h
  repeat' split at h
  all_goals first
    | (simp at h; done)
    | (obtain rfl := Except.ok.inj h; rfl)

/-- **Whatever is in the file**: a configuration that `load` gives is in range and is
one that `validate` has accepted, and when `load` fails it has logged why. -/
theorem load_sound (filename : String) (file : Option (List Char)) :
    Reported (load filename file) fun c => Accepted c.toLbConfig ∧ c.InRange := by
  refine (reported_logged (Q := fun _ => True) fun _ _ => trivial).bind fun content _ => ?_
  refine (parseFile_reported filename _).bind fun sections _ => ?_
  refine (build_reported sections).bind fun c hc => ?_
  refine (reported_logged (Q := fun lb => validate c.toLbConfig = .ok lb) fun _ h => h).bind fun lb hlb => .ok ?_
  refine ⟨⟨c.toLbConfig, hc.maxSessions.1, hc.maxSessions.2, hlb⟩, ?_⟩
  rw [validate_frame hlb]
  exact ⟨hc.maxSessions, hc.timeouts, hc.health, hc.interval, hc.logMaxSizeMb, hc.logMaxFiles, hc.statsInterval,
    hc.services⟩

end Config

end L4Lb
