/-
# What the lookups of a snapshot answer

A worker asks its snapshot four questions about a packet: is the address a VIP,
a local address of FULLNAT, one of the load balancer's own, and which service
has this key. Each answer comes from a table with linear probing. For every
snapshot the manager publishes and any hash functions the searches end, and
`find_service` finds the service of the configuration with the key, or none
(`findService_unique`). The address sets use 0.0.0.0 for an empty cell, so they
answer as the configuration says for every address but this one, which they
always hold to be there (`addressesRight_iff`).
-/
import L4Lb.Snapshot.Desired

open Checked

namespace L4Lb

/-- The manager has built and published the snapshot at some time. -/
def Snapshot.Published (H : HashFns) (cfg : LbConfig) (snap : Snapshot) : Prop :=
  ∃ mgr log, SnapshotManager.History H cfg mgr log ∧ mgr.cur = some snap

theorem Snapshot.Published.built {H : HashFns} {cfg : LbConfig} {snap : Snapshot} (hc : Config.Valid cfg)
    (h : Snapshot.Published H cfg snap) : snap.Built H cfg := by
  obtain ⟨mgr, log, hist, hcur⟩ := h
  obtain ⟨snap', hcur', hb⟩ := (hist.logged hc).running.cur
  rwa [Option.some.inj (hcur.symm.trans hcur')]

/-- The first snapshot of the demo. -/
theorem exists_published {P : Snapshot → Prop} (h : Returns (SnapshotManager.init flatHash demoConfig) fun mgr =>
    ∃ snap, mgr.cur = some snap ∧ P snap) :
    ∃ snap, Snapshot.Published flatHash demoConfig snap ∧ P snap := by
  obtain ⟨mgr, hm, snap, hcur, hP⟩ := h
  exact ⟨snap, ⟨mgr, _, .init hm, hcur⟩, hP⟩

namespace Snapshot

variable {H : HashFns} {cfg : LbConfig} {snap : Snapshot}

/-! ### Services -/

theorem Built.keys_nodup (hc : Config.Valid cfg) (hb : snap.Built H cfg) : (snap.services.map (·.key)).Nodup := by
  rw [hb.keys]
  exact hc.wireKeys_nodup

/-- A service is found under its key, and it is the only one with it. -/
theorem Built.findService_of_key (hc : Config.Valid cfg) (hb : snap.Built H cfg) {svc : Service}
    (hsvc : svc ∈ snap.services) {vip : IPv4Addr} {portBe : Port} {proto : UInt8}
    (hkey : svc.key = (vip, portBe, proto)) :
    snap.findService H vip portBe proto = .ok (some svc) ∧
      ∀ svc' ∈ snap.services, svc'.key = (vip, portBe, proto) → svc' = svc := by
  have honly : ∀ svc' ∈ snap.services, svc'.key = (vip, portBe, proto) → svc' = svc := fun svc' hsvc' hkey' =>
    List.inj_on_of_nodup_map (hb.keys_nodup hc) hsvc' hsvc (hkey'.trans hkey.symm)
  refine ⟨?_, honly⟩
  obtain ⟨svc', hfind⟩ : ∃ svc', snap.services.find? (fun s => s.key = (vip, portBe, proto)) = some svc' := by
    rw [← Option.isSome_iff_exists, List.find?_isSome]
    exact ⟨svc, hsvc, by simpa using hkey⟩
  rw [hb.findService, hfind, honly svc' (List.mem_of_find?_eq_some hfind) (by simpa using List.find?_some hfind)]

/-- The services are those of the configuration. -/
theorem Built.exists_service (hb : snap.Built H cfg) (vip : IPv4Addr) (portBe : Port) (proto : UInt8) :
    (∃ svc ∈ snap.services, svc.key = (vip, portBe, proto)) ↔
      ∃ c ∈ cfg.services, (c.vip, bswap16 c.port, c.proto) = (vip, portBe, proto) := by
  have h := congrArg (fun l : List (IPv4Addr × Port × UInt8) => (vip, portBe, proto) ∈ l) hb.keys
  simpa only [List.mem_map, eq_iff_iff] using h

/-- **`find_service` finds the service with the key.** In every published
snapshot, for every address, port and protocol and any hash functions, its
probe loop ends. A service of the snapshot with the key is the only one, and
is what it returns; it returns `nullptr` if there is none; and there is one
just if the configuration has it. -/
theorem findService_unique (hcfg : Config.Accepted cfg) (hp : Published H cfg snap) (vip : IPv4Addr) (portBe : Port)
    (proto : UInt8) :
    (∀ svc ∈ snap.services, svc.key = (vip, portBe, proto) →
      snap.findService H vip portBe proto = .ok (some svc) ∧
      ∀ svc' ∈ snap.services, svc'.key = (vip, portBe, proto) → svc' = svc) ∧
    ((∀ svc ∈ snap.services, svc.key ≠ (vip, portBe, proto)) → snap.findService H vip portBe proto = .ok none) ∧
    ((∃ svc ∈ snap.services, svc.key = (vip, portBe, proto)) ↔
      ∃ c ∈ cfg.services, (c.vip, bswap16 c.port, c.proto) = (vip, portBe, proto)) := by
  have hb := hp.built hcfg.valid
  refine ⟨fun svc hsvc hkey => hb.findService_of_key hcfg.valid hsvc hkey, fun hno => ?_,
    hb.exists_service vip portBe proto⟩
  rw [hb.findService, List.find?_eq_none.mpr fun svc hsvc => by simpa using hno svc hsvc]

/-- The demo with a second service on its address, for TCP. -/
def twoServices : LbConfig :=
  { demoConfig with services := demoConfig.services.flatMap fun s => [s, { s with name := "dns-tcp", proto := 6 }] }

theorem twoServices_accepted : Config.Accepted twoServices := ⟨twoServices, by decide, by decide, rfl⟩

/-- All keys have the same hash, so the second service is in the cell behind the first
one, and the search for a third key goes past both. -/
theorem findService_unique_collision : ∃ snap, Published flatHash twoServices snap ∧
    (∀ proto ∈ [17, 6], ∃ svc ∈ snap.services, svc.key = (0x0200000A, 0x3500, proto) ∧
      snap.findService flatHash 0x0200000A 0x3500 proto = .ok (some svc)) ∧
    snap.findService flatHash 0x0200000A 0x3600 17 = .ok none := by
  have hinit : Returns (SnapshotManager.init flatHash twoServices) fun mgr => ∃ snap, mgr.cur = some snap ∧
      snap.services.map (·.key) = [(0x0200000A, 0x3500, 17), (0x0200000A, 0x3500, 6)] := by decide +kernel
  obtain ⟨mgr, hm, snap, hcur, hkeys⟩ := hinit
  have hp : Published flatHash twoServices snap := ⟨mgr, _, .init hm, hcur⟩
  refine ⟨snap, hp, fun proto hproto => ?_, ?_⟩
  · have hmem : (0x0200000A, 0x3500, proto) ∈ snap.services.map (·.key) := by
      rw [hkeys]
      simpa using hproto
    obtain ⟨svc, hsvc, hkey⟩ := List.mem_map.mp hmem
    exact ⟨svc, hsvc, hkey, ((findService_unique twoServices_accepted hp _ _ _).1 svc hsvc hkey).1⟩
  · refine (findService_unique twoServices_accepted hp _ _ _).2.1 fun svc' hsvc' hkey' => ?_
    have hm := List.mem_map_of_mem (f := Service.key) hsvc'
    rw [hkeys, hkey'] at hm
    simp at hm

/-! ### Addresses -/

/-- The addresses of the VIPs. -/
def IsVipOf (cfg : LbConfig) (ip : IPv4Addr) : Prop := ip ∈ cfg.services.map (·.vip)

/-- The local addresses, which FULLNAT has. -/
def IsLipOf (cfg : LbConfig) (ip : IPv4Addr) : Prop := cfg.mode = .nat ∧ ip ∈ cfg.localIps

/-- The load balancer's own addresses. -/
def IsOwnOf (cfg : LbConfig) (ip : IPv4Addr) : Prop :=
  IsVipOf cfg ip ∨ IsLipOf cfg ip ∨ (cfg.hcSrc ≠ 0 ∧ ip = cfg.hcSrc)

instance (cfg : LbConfig) (ip : IPv4Addr) : Decidable (IsVipOf cfg ip) := by unfold IsVipOf; infer_instance
instance (cfg : LbConfig) (ip : IPv4Addr) : Decidable (IsLipOf cfg ip) := by unfold IsLipOf; infer_instance
instance (cfg : LbConfig) (ip : IPv4Addr) : Decidable (IsOwnOf cfg ip) := by unfold IsOwnOf; infer_instance

/-- The three questions about an address are answered as the configuration says. -/
structure AddressesRight (H : HashFns) (cfg : LbConfig) (snap : Snapshot) (ip : IPv4Addr) : Prop where
  isVip : snap.isVip H ip = .ok (decide (IsVipOf cfg ip))
  isLip : snap.isLip H ip = .ok (decide (IsLipOf cfg ip))
  isLocal : snap.isLocal H ip = .ok (decide (IsOwnOf cfg ip))

theorem Built.mem_localIps (hb : snap.Built H cfg) (ip : IPv4Addr) : ip ∈ snap.localIps ↔ IsLipOf cfg ip := by
  rw [hb.localIps, IsLipOf]
  split
  · rename_i hm
    simp [hm]
  · rename_i hm
    simp [hm]

theorem Built.isVip_eq (hb : snap.Built H cfg) (ip : IPv4Addr) :
    snap.isVip H ip = .ok (decide (ip = 0 ∨ IsVipOf cfg ip)) := hb.isVip ip

theorem Built.isLip_eq (hb : snap.Built H cfg) (ip : IPv4Addr) :
    snap.isLip H ip = .ok (decide (ip = 0 ∨ IsLipOf cfg ip)) := by
  rw [hb.isLip]
  congr 1
  rw [decide_eq_decide, hb.mem_localIps]

/-- A source of the health checks that is not set, 0, adds nothing. -/
theorem Built.isLocal_eq (hb : snap.Built H cfg) (ip : IPv4Addr) :
    snap.isLocal H ip = .ok (decide (ip = 0 ∨ IsOwnOf cfg ip)) := by
  rw [hb.isLocal]
  congr 1
  rw [decide_eq_decide, List.mem_append, List.mem_append, List.mem_singleton, hb.mem_localIps, IsOwnOf, IsVipOf]
  constructor
  · rintro (h0 | (hv | hl) | hh)
    · exact Or.inl h0
    · exact Or.inr (Or.inl hv)
    · exact Or.inr (Or.inr (Or.inl hl))
    · by_cases h0 : cfg.hcSrc = 0
      · exact Or.inl (hh.trans h0)
      · exact Or.inr (Or.inr (Or.inr ⟨h0, hh⟩))
  · rintro (h0 | hv | hl | ⟨-, hh⟩)
    · exact Or.inl h0
    · exact Or.inr (Or.inl (Or.inl hv))
    · exact Or.inr (Or.inl (Or.inr hl))
    · exact Or.inr (Or.inr hh)

/-- **The address sets answer right, but for 0.0.0.0.** In every published
snapshot and for every address the probe loops end; and the answers are those
of the configuration exactly if the address is not 0.0.0.0, or is a VIP and a
local address of FULLNAT at once. -/
theorem addressesRight_iff (hcfg : Config.Accepted cfg) (hp : Published H cfg snap) (ip : IPv4Addr) :
    (∃ vip lip own, snap.isVip H ip = .ok vip ∧ snap.isLip H ip = .ok lip ∧ snap.isLocal H ip = .ok own) ∧
    (AddressesRight H cfg snap ip ↔ ip ≠ 0 ∨ (IsVipOf cfg ip ∧ IsLipOf cfg ip)) := by
  have hb := hp.built hcfg.valid
  refine ⟨⟨_, _, _, hb.isVip_eq ip, hb.isLip_eq ip, hb.isLocal_eq ip⟩, fun h => ?_, fun h => ?_⟩
  · by_cases h0 : ip = 0
    · refine Or.inr ⟨?_, ?_⟩
      · have := h.isVip
        rw [hb.isVip_eq] at this
        simpa [h0] using this
      · have := h.isLip
        rw [hb.isLip_eq] at this
        simpa [h0] using this
    · exact Or.inl h0
  · rcases h with h0 | ⟨hv, hl⟩
    · refine ⟨?_, ?_, ?_⟩
      · rw [hb.isVip_eq]
        simp [h0]
      · rw [hb.isLip_eq]
        simp [h0]
      · rw [hb.isLocal_eq]
        simp [h0]
    · have ho : IsOwnOf cfg ip := Or.inl hv
      refine ⟨?_, ?_, ?_⟩
      · rw [hb.isVip_eq]
        simp [hv]
      · rw [hb.isLip_eq]
        simp [hl]
      · rw [hb.isLocal_eq]
        simp [ho]

theorem addressesRight_iff_demo : ∃ snap, Published flatHash demoConfig snap ∧
    AddressesRight flatHash demoConfig snap 0x0200000A := by
  obtain ⟨snap, hp, -⟩ := exists_published (P := fun _ => True) (by decide +kernel)
  exact ⟨snap, hp, (addressesRight_iff demoConfig_accepted hp 0x0200000A).2.mpr (Or.inl (by decide))⟩

/-- 0.0.0.0 is no address of the demo, and is found in all three sets. -/
theorem zero_always_found : ∃ snap, Published flatHash demoConfig snap ∧
    ¬ IsVipOf demoConfig 0 ∧ ¬ IsLipOf demoConfig 0 ∧ ¬ IsOwnOf demoConfig 0 ∧
    snap.isVip flatHash 0 = .ok true ∧ snap.isLip flatHash 0 = .ok true ∧ snap.isLocal flatHash 0 = .ok true ∧
    ¬ AddressesRight flatHash demoConfig snap 0 := by
  obtain ⟨snap, hp, hv, hl, ho⟩ := exists_published (P := fun snap =>
    snap.isVip flatHash 0 = .ok true ∧ snap.isLip flatHash 0 = .ok true ∧ snap.isLocal flatHash 0 = .ok true)
    (by decide +kernel)
  refine ⟨snap, hp, by decide, by decide, by decide, hv, hl, ho, fun h => ?_⟩
  have := h.isVip.symm.trans hv
  simp [show ¬ IsVipOf demoConfig 0 by decide] at this

end Snapshot
end L4Lb
