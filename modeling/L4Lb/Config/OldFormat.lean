/-
# The old format of the services

A file without a section `[service.*]` has its services in `[vip]` and
`[realserver]`: every port of `[vip] ports` is a TCP and a UDP service, and all of them
have the same real servers. Here this is followed from the file to the packets:
whatever commands the operator gives, a snapshot has a service for an address, a port
and a protocol just if the address is the VIP of the file, the port is one of those
listed, and the protocol is TCP or UDP (`Config.old_format_served_iff`).
-/
import L4Lb.Config.Loaded
import L4Lb.Config.Services
import L4Lb.Snapshot.Answers

open Checked

namespace L4Lb
namespace Config

/-- The results of a `mapM`. -/
theorem mem_mapM {ε α β : Type} {f : α → Except ε β} {l : List α} {l' : List β} (h : l.mapM f = .ok l') {b : β} :
    b ∈ l' ↔ ∃ a ∈ l, f a = .ok b := by
  have hall := mapM_eq_ok h
  clear h
  induction hall with
  | nil => simp
  | cons hab _ ih =>
    simp only [List.mem_cons, exists_eq_or_imp, hab, Except.ok.injEq, ih]
    exact or_congr_left eq_comm

/-- The VIP of the old format. -/
def legacyVip (s : Sections) : Option IPv4Addr := parseIpv4 (get (sectionOf s "vip") "ip" "")

/-- The services of the old format: two for each port, with the same real servers. -/
theorem parseLegacyServices_mem {s : Sections} {services : List ServiceConf}
    (h : parseLegacyServices s = .ok services) :
    ∃ vip rs, legacyVip s = some vip ∧ ∀ svc, svc ∈ services ↔ ∃ part ∈ legacyPorts s, ∃ port,
      legacyPort part = .ok port ∧ ∃ proto ∈ [6, 17], svc = legacyService vip rs part port proto := by
  obtain ⟨vip, hvip, h⟩ := bind_eq_ok.mp h
  obtain ⟨count, -, h⟩ := bind_eq_ok.mp h
  obtain ⟨rs, -, h⟩ := bind_eq_ok.mp h
  obtain ⟨ls, hls, h⟩ := bind_eq_ok.mp h
  obtain rfl := Except.ok.inj h
  refine ⟨vip, rs.filterMap fun r => r, ?_, fun svc => ?_⟩
  · unfold legacyVip
    cases hp : parseIpv4 (get (sectionOf s "vip") "ip" "") with
    | none =>
      rw [hp] at hvip
      cases hvip
    | some vip' =>
      rw [hp] at hvip
      exact congrArg some (Except.ok.inj hvip)
  rw [List.mem_flatten]
  constructor
  · rintro ⟨l, hl, hsvc⟩
    obtain ⟨part, hpart, hl⟩ := (mem_mapM hls).mp hl
    obtain ⟨port, hport, hl⟩ := bind_eq_ok.mp hl
    obtain rfl := Except.ok.inj hl
    obtain ⟨proto, hproto, rfl⟩ := List.mem_map.mp hsvc
    exact ⟨part, hpart, port, hport, proto, hproto, rfl⟩
  · rintro ⟨part, hpart, port, hport, proto, hproto, rfl⟩
    refine ⟨[6, 17].map (legacyService vip (rs.filterMap fun r => r) part port), (mem_mapM hls).mpr ⟨part, hpart, ?_⟩,
      List.mem_map_of_mem hproto⟩
    unfold legacyServices
    rw [hport]
    rfl

theorem logged_eq_ok {α : Type} {x : Except String α} {a : α} : logged x = .ok a ↔ x = .ok a := by
  cases x with
  | error e => simp [logged, Except.mapError]
  | ok b => simp [logged, Except.mapError]

/-- The services that `build` takes from a file of the old format. -/
theorem build_old_format {s : Sections} {c : FileConfig} (hold : serviceSections s = []) (h : build s = .ok c) :
    parseLegacyServices s = .ok c.services := by
  obtain ⟨c1, -, h⟩ := bind_eq_ok.mp h
  obtain ⟨c2, -, h⟩ := bind_eq_ok.mp h
  obtain ⟨health, -, h⟩ := bind_eq_ok.mp h
  rw [if_neg (not_not.mpr hold)] at h
  obtain ⟨services, hs, h⟩ := bind_eq_ok.mp h
  obtain rfl := Except.ok.inj h
  exact logged_eq_ok.mp hs

theorem load_eq_ok {filename : String} {content : List Char} {c : FileConfig}
    (h : load filename (some content) = .ok c) : ∃ s c0, parseFile filename (getlineParts '\n' content) = .ok s ∧
      build s = .ok c0 ∧ validate c0.toLbConfig = .ok c.toLbConfig := by
  obtain ⟨content', hcontent, h⟩ := bind_eq_ok.mp h
  obtain rfl := Except.ok.inj hcontent
  obtain ⟨s, hs, h⟩ := bind_eq_ok.mp h
  obtain ⟨c0, hb, h⟩ := bind_eq_ok.mp h
  obtain ⟨lb, hv, h⟩ := bind_eq_ok.mp h
  obtain rfl := Except.ok.inj h
  exact ⟨s, c0, hs, hb, logged_eq_ok.mp hv⟩

variable {H : HashFns} {filename : String} {content : List Char} {s : Sections} {c : FileConfig} {snap : Snapshot}

/-- **What a file of the old format serves.** The file has no section `[service.*]`
and is loaded. In every snapshot that is published afterwards, under any commands,
`find_service` finds a service for an address, a port and a protocol if and only if
the address is the VIP of the file, the port is in its list, and the protocol is TCP or
UDP. All services have been loaded with the same real servers. -/
theorem old_format_served_iff (hfile : parseFile filename (getlineParts '\n' content) = .ok s)
    (hold : serviceSections s = []) (h : load filename (some content) = .ok c) (hp : snap.Published H c.toLbConfig) :
    (∃ rs, ∀ svc ∈ c.services, svc.rs = rs) ∧ ∀ ip portBe proto,
      (∃ svc, snap.findService H ip portBe proto = .ok (some svc)) ↔
        legacyVip s = some ip ∧
        (∃ part ∈ legacyPorts s, ∃ port, legacyPort part = .ok port ∧ portBe = bswap16 (UInt16.ofNat port)) ∧
        (proto = 6 ∨ proto = 17) := by
  obtain ⟨s', c0, hs', hb, hv⟩ := load_eq_ok h
  obtain rfl := Except.ok.inj (hs'.symm.trans hfile)
  have hacc : Accepted c.toLbConfig := ((load_sound filename (some content)).2 c h).1
  have hservices : c.services = c0.services := by rw [validate_frame hv]
  obtain ⟨vip, rs, hvip, hmem⟩ := parseLegacyServices_mem (build_old_format hold hb)
  have hbuilt := hp.built hacc.valid
  rw [← hservices] at hmem
  refine ⟨⟨rs, fun svc hsvc => ?_⟩, fun ip portBe proto => ?_⟩
  · obtain ⟨part, -, port, -, proto, -, rfl⟩ := (hmem svc).mp hsvc
    rfl
  have hfound : (∃ svc, snap.findService H ip portBe proto = .ok (some svc)) ↔
      ∃ svc ∈ snap.services, svc.key = (ip, portBe, proto) := by
    constructor
    · rintro ⟨svc, hsvc⟩
      rw [hbuilt.findService, Except.ok.injEq] at hsvc
      exact ⟨svc, List.mem_of_find?_eq_some hsvc, by simpa using List.find?_some hsvc⟩
    · rintro ⟨svc, hsvc, hkey⟩
      exact ⟨svc, (hbuilt.findService_of_key hacc.valid hsvc hkey).1⟩
  rw [hfound, hbuilt.exists_service, hvip, Option.some.injEq]
  constructor
  · rintro ⟨sc, hsc, hkey⟩
    obtain ⟨part, hpart, port, hport, proto', hproto, rfl⟩ := (hmem sc).mp hsc
    obtain ⟨rfl, rfl, rfl⟩ : vip = ip ∧ bswap16 (UInt16.ofNat port) = portBe ∧ proto' = proto := by
      simpa [legacyService] using hkey
    exact ⟨rfl, ⟨part, hpart, port, hport, rfl⟩, by simpa using hproto⟩
  · rintro ⟨rfl, ⟨part, hpart, port, hport, rfl⟩, hproto⟩
    exact ⟨legacyService vip rs part port proto,
      (hmem _).mpr ⟨part, hpart, port, hport, proto, by simpa using hproto, rfl⟩, rfl⟩

/-- Two ports of 10.0.0.1, and one real server. -/
def oldFile : List Char :=
  ("[vip]\nip = 10.0.0.1\nports = 80, 53\n\n" ++
    "[realserver]\ncount = 2\nserver2 = 10.0.1.2:8080:5  # the first is gone\n").toList

/-- DNS over UDP is served. -/
theorem old_format_served_dns : ∃ (s : Sections) (c : FileConfig) (snap : Snapshot),
    parseFile "lb.conf" (getlineParts '\n' oldFile) = .ok s ∧
    serviceSections s = [] ∧ load "lb.conf" (some oldFile) = .ok c ∧ snap.Published flatHash c.toLbConfig ∧
    c.services.map (·.name) = ["tcp-80", "udp-80", "tcp-53", "udp-53"] ∧
    ∃ svc, snap.findService flatHash 0x0100000A (bswap16 53) 17 = .ok (some svc) := by
  obtain ⟨s, hs, hold, hvip, hport, c, hc, hnames, mgr, hmgr, snap, hcur⟩ :
      Returns (parseFile "lb.conf" (getlineParts '\n' oldFile)) fun s => serviceSections s = [] ∧
        legacyVip s = some 0x0100000A ∧ (∃ part ∈ legacyPorts s, legacyPort part = .ok 53) ∧
        Returns (load "lb.conf" (some oldFile)) fun c =>
          c.services.map (·.name) = ["tcp-80", "udp-80", "tcp-53", "udp-53"] ∧
          Returns (SnapshotManager.init flatHash c.toLbConfig) fun mgr => ∃ snap ∈ mgr.cur, True := by decide +kernel
  have hp : snap.Published flatHash c.toLbConfig := ⟨mgr, _, .init hmgr, hcur.1⟩
  obtain ⟨part, hpart, hport⟩ := hport
  exact ⟨s, c, snap, hs, hold, hc, hp, hnames,
    ((old_format_served_iff hs hold hc hp).2 _ _ _).mpr ⟨hvip, ⟨part, hpart, 53, hport, rfl⟩, Or.inr rfl⟩⟩

end Config
end L4Lb
