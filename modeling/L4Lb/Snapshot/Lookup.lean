/-
# The lookup tables of a snapshot

`index` fills the tables of a snapshot by linear probing; they never fill up,
as there are 512 cells for at most 64 services and 129 addresses. So for any
hash functions every search ends, and the tables answer as the lists they were
built from (`setHas_eq`, `findService_eq`). An address set has one exception:
0 is the mark of an empty cell, and `set_has` says that 0 is there.
-/
import L4Lb.Snapshot

open Checked Probing

namespace L4Lb
namespace Snapshot

variable {H : HashFns}

/-! ### Address sets -/

/-- The cells of an address set. -/
def addrCells (set : ℕ → IPv4Addr) (i : ℕ) : Option IPv4Addr := if set i = 0 then none else some (set i)

/-- The set holds the addresses `l`. -/
def HoldsAddrs (H : HashFns) (set : ℕ → IPv4Addr) (l : List IPv4Addr) : Prop :=
  Holds kAddrSlots id (fun ip => addrHash H ip % kAddrSlots) (addrCells set) l

theorem addrHash_lt (H : HashFns) (ip : IPv4Addr) : addrHash H ip % kAddrSlots < kAddrSlots :=
  Nat.mod_lt _ (by decide)

theorem holdsAddrs_empty : HoldsAddrs H (fun _ => 0) [] := Holds.empty

theorem addrCells_eq_some {set : ℕ → IPv4Addr} {i : ℕ} {ip : IPv4Addr} (hip : ip ≠ 0) :
    addrCells set i = some ip ↔ set i = ip := by
  unfold addrCells
  split
  · rename_i h0
    rw [h0]
    simp [hip.symm]
  · simp

theorem addrCells_update (set : ℕ → IPv4Addr) (i : ℕ) {ip : IPv4Addr} (hip : ip ≠ 0) :
    addrCells (Function.update set i ip) = Function.update (addrCells set) i (some ip) := by
  funext j
  by_cases hj : j = i
  · subst hj; simp [addrCells, hip]
  · simp [addrCells, Function.update_of_ne hj]

/-- The search for an address, as the search for a key. -/
theorem stop_eq (set : ℕ → IPv4Addr) (ip : IPv4Addr) :
    (fun i => set i == ip || set i == 0) = fun i => (addrCells set i).all fun b => id b = ip := by
  funext i
  by_cases h0 : set i = 0
  · simp [addrCells, h0]
  · simp [addrCells, h0, beq_eq_decide]

theorem empty_eq (set : ℕ → IPv4Addr) : (fun i => set i == 0) = fun i => (addrCells set i).isNone := by
  funext i
  by_cases h0 : set i = 0
  · simp [addrCells, h0]
  · simp [addrCells, h0]

section

variable {set : ℕ → IPv4Addr} {l : List IPv4Addr} (h : HoldsAddrs H set l) (hl : l.length < kAddrSlots)

include h hl

theorem setHas_eq (ip : IPv4Addr) : setHas H set ip = .ok (decide (ip = 0 ∨ ip ∈ l)) := by
  unfold setHas
  by_cases hip : ip = 0
  · obtain ⟨j, hj, hempty⟩ := Holds.exists_empty h hl
    have hj0 : set j = 0 := by
      by_contra hne
      simp [addrCells, hne] at hempty
    obtain ⟨i, hi, -, hstop⟩ := probe_returns (fun i => set i == ip || set i == 0) (addrHash_lt H ip) hj
      (by simp [hj0])
    rw [hi]
    subst hip
    simpa using hstop
  · obtain ⟨i, hi, -, hfound, hnone⟩ := Holds.find h (addrHash_lt H) hl ip
    rw [stop_eq set ip, hi]
    by_cases hmem : ip ∈ l
    · have := (addrCells_eq_some hip).mp (hfound ip hmem rfl)
      simp [this, hmem]
    · have hc := hnone (by simpa using hmem)
      have hne : set i ≠ ip := fun he => by rw [(addrCells_eq_some hip).mpr he] at hc; simp at hc
      simp [hne, hmem, hip]

theorem setAdd_returns (ip : IPv4Addr) : Returns (setAdd H set ip) fun set' => ∃ l',
    HoldsAddrs H set' l' ∧ l'.length ≤ l.length + 1 ∧ ∀ x, x ∈ l' ↔ x ∈ l ∨ (x = ip ∧ x ≠ 0) := by
  unfold setAdd
  by_cases hip : ip = 0
  · rw [if_pos hip]
    refine .ok ⟨l, h, by omega, fun x => ⟨Or.inl, ?_⟩⟩
    rintro (hx | ⟨rfl, hx⟩)
    · exact hx
    · exact absurd hip hx
  rw [if_neg hip, setHas_eq h hl]
  simp only [ok_bind]
  by_cases hmem : ip ∈ l
  · rw [if_pos (by simp [hmem])]
    refine .ok ⟨l, h, by omega, fun x => ⟨Or.inl, ?_⟩⟩
    rintro (hx | ⟨rfl, -⟩)
    · exact hx
    · exact hmem
  · rw [if_neg (by simp [hmem, hip])]
    obtain ⟨i, hi, -, hins⟩ := Holds.insert h (addrHash_lt H) hl (show id ip ∉ l.map id by simpa using hmem)
    rw [empty_eq]
    simp only [id_eq] at hi
    rw [hi]
    refine .ok ⟨ip :: l, ?_, by simp, fun x => ?_⟩
    · unfold HoldsAddrs
      rw [addrCells_update set i hip]
      exact hins
    · simp only [List.mem_cons]
      constructor
      · rintro (rfl | hx)
        · exact Or.inr ⟨rfl, hip⟩
        · exact Or.inl hx
      · rintro (hx | ⟨hx, -⟩)
        · exact Or.inr hx
        · exact Or.inl hx

end

/-- A list of addresses goes into a set that has room for it. -/
theorem setAddAll_returns : ∀ (ips : List IPv4Addr) {set : ℕ → IPv4Addr} {l : List IPv4Addr},
    HoldsAddrs H set l → l.length + ips.length < kAddrSlots →
    Returns (ips.foldlM (setAdd H) set) fun set' => ∃ l',
      HoldsAddrs H set' l' ∧ l'.length < kAddrSlots ∧ ∀ x, x ∈ l' ↔ x ∈ l ∨ (x ∈ ips ∧ x ≠ 0)
  | [], set, l, h, hl => .ok ⟨l, h, by simpa using hl, by simp⟩
  | ip :: rest, set, l, h, hl => by
    rw [List.length_cons] at hl
    rw [List.foldlM_cons]
    refine Returns.bind (setAdd_returns h (by omega) ip) ?_
    rintro set1 ⟨l1, h1, hl1, hm1⟩
    refine (setAddAll_returns rest h1 (by omega)).mono ?_
    rintro set2 ⟨l2, h2, hl2, hm2⟩
    refine ⟨l2, h2, hl2, fun x => ?_⟩
    rw [hm2, hm1, List.mem_cons]
    tauto

/-- What a set filled from a list answers. -/
theorem setHas_of_addAll {ips : List IPv4Addr} (hl : ips.length < kAddrSlots) :
    Returns (ips.foldlM (setAdd H) fun _ => 0) fun set =>
      ∀ ip, setHas H set ip = .ok (decide (ip = 0 ∨ ip ∈ ips)) := by
  refine (setAddAll_returns ips holdsAddrs_empty (by simpa using hl)).mono ?_
  rintro set ⟨l, h, hlen, hm⟩ ip
  rw [setHas_eq h hlen]
  congr 1
  rw [decide_eq_decide, hm]
  by_cases hip : ip = 0
  · simp [hip]
  · simp [hip]

/-! ### Services -/

/-- The key of the service at a position. -/
def keyAt (services : List Service) (i : ℕ) : Option (IPv4Addr × Port × UInt8) := (services[i]?).map (·.key)

/-- The cell at which the search for a key starts. -/
def svcHome (H : HashFns) : Option (IPv4Addr × Port × UInt8) → ℕ
  | some (vip, portBe, proto) => svcHash H vip portBe proto % kSvcSlots
  | none => 0

/-- The table holds the positions `l` of `services`. -/
def HoldsServices (H : HashFns) (services : List Service) (slots : ℕ → Option ℕ) (l : List ℕ) : Prop :=
  Holds kSvcSlots (keyAt services) (svcHome H) slots l

theorem svcHome_lt (H : HashFns) (k : Option (IPv4Addr × Port × UInt8)) : svcHome H k < kSvcSlots := by
  cases k with
  | none => exact Nat.zero_lt_succ _
  | some k => exact Nat.mod_lt _ (by decide)

theorem keyAt_inj {services : List Service} (hk : (services.map (·.key)).Nodup) {i j : ℕ}
    (hi : i < services.length) (h : keyAt services i = keyAt services j) : i = j := by
  have hne := List.nodup_iff_getElem?_ne_getElem?.mp hk
  simp only [List.getElem?_map, List.length_map] at hne
  unfold keyAt at h
  have hj : j < services.length := by
    by_contra hj
    rw [List.getElem?_eq_none (not_lt.mp hj), List.getElem?_eq_getElem hi] at h
    simp at h
  rcases lt_trichotomy i j with hij | hij | hij
  · exact absurd h (hne i j hij hj)
  · exact hij
  · exact absurd h.symm (hne j i hij hi)

section

variable {services : List Service} (hidx : ∀ (i : ℕ) (s : Service), services[i]? = some s → s.idx = i)
  (hk : (services.map (·.key)).Nodup) (hlen : services.length < kSvcSlots)

include hidx hk hlen

/-- The loop of `index`, with the services `done` in the table. -/
theorem indexServices_loop : ∀ (rest done : List Service) {slots : ℕ → Option ℕ} {l : List ℕ},
    services = done ++ rest → HoldsServices H services slots l → l.length = done.length →
    (∀ i, i ∈ l ↔ i < done.length) →
    Returns (indexServices H rest slots) fun slots' => ∃ l',
      HoldsServices H services slots' l' ∧ l'.length < kSvcSlots ∧ ∀ i, i ∈ l' ↔ i < services.length
  | [], done, slots, l, he, h, hl, hm => by
    rw [List.append_nil] at he
    subst he
    exact .ok ⟨l, h, by omega, hm⟩
  | s :: rest, done, slots, l, he, h, hl, hm => by
    have hlt : done.length < services.length := by rw [he]; simp
    have hs : services[done.length]? = some s := by rw [he]; simp
    have hnew : keyAt services done.length ∉ l.map (keyAt services) := fun hmem => by
      obtain ⟨i, hi, hki⟩ := List.mem_map.mp hmem
      have := (hm i).mp hi
      have := keyAt_inj hk (by omega) hki
      omega
    obtain ⟨i, hi, -, hins⟩ := Holds.insert h (svcHome_lt H) (by omega) hnew
    have hhome : svcHome H (keyAt services done.length) = svcHash H s.vip s.portBe s.proto % kSvcSlots := by
      rw [keyAt, hs]
      rfl
    unfold indexServices
    rw [← hhome, hi, hidx _ _ hs]
    refine indexServices_loop rest (done ++ [s]) (by rw [he]; simp) hins (by simp [hl]) fun j => ?_
    rw [List.mem_cons, hm, List.length_append, List.length_singleton]
    omega

theorem indexServices_returns : Returns (indexServices H services fun _ => none) fun slots => ∃ l,
    HoldsServices H services slots l ∧ l.length < kSvcSlots ∧ ∀ i, i ∈ l ↔ i < services.length :=
  indexServices_loop hidx hk hlen services [] rfl Holds.empty rfl (by simp)

end

/-- In a table that holds all services, `find_service` finds the one with the
key. -/
theorem findService_eq {snap : Snapshot} {l : List ℕ} (h : HoldsServices H snap.services snap.svcSlots l)
    (hl : l.length < kSvcSlots) (hm : ∀ i, i ∈ l ↔ i < snap.services.length)
    (vip : IPv4Addr) (portBe : Port) (proto : UInt8) :
    snap.findService H vip portBe proto =
      .ok (snap.services.find? fun s => s.key = (vip, portBe, proto)) := by
  have hstop : ∀ i, i < kSvcSlots →
      (snap.svcSlots i).all (cellMatches snap.services vip portBe proto) =
        (snap.svcSlots i).all fun b => keyAt snap.services b = some (vip, portBe, proto) := by
    intro i hi
    cases hc : snap.svcSlots i with
    | none => rfl
    | some b =>
      have hb := (hm b).mp ((h.mem b).mpr ⟨i, hi, hc⟩)
      simp only [Option.all_some, cellMatches, keyAt, List.getElem?_eq_getElem hb, Option.map_some]
      rw [Bool.eq_iff_iff]
      simp [Service.key, and_assoc]
  obtain ⟨i, hi, hiN, hfound, hnone⟩ := Holds.find h (svcHome_lt H) hl (some (vip, portBe, proto))
  rw [← probe_congr hstop _ (svcHome_lt H _)] at hi
  change probe _ _ _ (svcHash H vip portBe proto % kSvcSlots) = _ at hi
  unfold findService
  simp only [hi]
  cases hf : snap.services.find? fun s => s.key = (vip, portBe, proto) with
  | none =>
    have hno : some (vip, portBe, proto) ∉ l.map (keyAt snap.services) := fun hmem => by
      obtain ⟨j, -, hj⟩ := List.mem_map.mp hmem
      obtain ⟨s, hs, hkey⟩ := Option.map_eq_some_iff.mp hj
      have := List.find?_eq_none.mp hf s (List.mem_of_getElem? hs)
      simp [hkey] at this
    simp only [hnone hno]
  | some s =>
    obtain ⟨j, hj, hget⟩ := List.getElem_of_mem (List.mem_of_find?_eq_some hf)
    have hget? : snap.services[j]? = some s := by rw [List.getElem?_eq_getElem hj, hget]
    have hkey : s.key = (vip, portBe, proto) := by simpa using List.find?_some hf
    have hcell := hfound j ((hm j).mpr hj) (by rw [keyAt, hget?, Option.map_some, hkey])
    simp only [hcell, hget?]

end Snapshot
end L4Lb
