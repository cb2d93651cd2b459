/-
# The real servers of a service, from the file

A section `[service.*]` names its real servers with keys `serverN` and `rsN`.
`parse_services` puts their values into a map under the number N and then goes
through the map. So the real servers come in the order of N, and each is the
parse of the value of one key. But two keys with one number, such as `server1` and
`rs1`, `server1` and `server01` or `server1` and `server1a`, give one real server:
the later key in the order of the bytes takes the place of the other, without a
word. Every key has its real server precisely if no two keys have one number
(`parseServices_lists_iff`).
-/
import L4Lb.Config.Parse
import L4Lb.Lib.Checked
import Mathlib.Data.List.Dedup
import Mathlib.Data.List.Forall2
import Mathlib.Data.List.Sort

open Checked

namespace L4Lb
namespace Config

/-- The number of a key `serverN` or `rsN`. -/
def serverNumber (key : List Char) : Option ℕ := numberAfter "server".toList key <|> numberAfter "rs".toList key

/-- The real servers of a section: number and value of each key, in the order of
the keys. -/
def serverKeys (sec : Section) : List (ℕ × List Char) :=
  sec.toList.filterMap fun kv => (serverNumber kv.1).map (·, kv.2)

/-- The list of real servers has one for each key of the section, in the order of
the numbers, and each is the parse of the value. -/
def Lists (name : List Char) (sec : Section) (rs : List RsConf) : Prop :=
  ∃ keys, keys.Perm (serverKeys sec) ∧ keys.Pairwise (fun a b => a.1 ≤ b.1) ∧
    List.Forall₂ (fun kv r => parseRs (serverName name kv.1) kv.2 = .ok r) keys rs

/-! ### Maps made from lists -/

section OrderedMap

variable {β : Type} {l : List (ℕ × β)}

theorem ofList_keys_perm (l : List (ℕ × β)) : (Std.TreeMap.ofList l).keys.Perm (l.map Prod.fst).dedup := by
  rw [List.perm_ext_iff_of_nodup Std.TreeMap.nodup_keys (List.nodup_dedup _)]
  intro n
  rw [Std.TreeMap.mem_keys, Std.TreeMap.mem_ofList, List.contains_iff_mem, List.mem_dedup]

theorem toList_sorted (m : Std.TreeMap ℕ β) : m.toList.Pairwise fun a b => a.1 < b.1 :=
  Std.TreeMap.ordered_keys_toList.imp fun h => Nat.compare_eq_lt.mp h

/-- Nothing is lost if no two keys are equal, -/
theorem toList_ofList_perm (h : (l.map Prod.fst).Nodup) : (Std.TreeMap.ofList l).toList.Perm l := by
  have hdistinct : l.Pairwise fun a b => ¬ compare a.1 b.1 = .eq :=
    (List.pairwise_map.mp h).imp fun hne he => hne (compare_eq_iff_eq.mp he)
  have hmem : ∀ kv ∈ l, kv ∈ (Std.TreeMap.ofList l).toList := fun kv hkv =>
    Std.TreeMap.mem_toList_iff_getElem?_eq_some.mpr
      (Std.TreeMap.getElem?_ofList_of_mem (compare_eq_iff_eq.mpr rfl) hdistinct hkv)
  refine (List.Subperm.perm_of_length_le (List.subperm_of_subset (List.Nodup.of_map _ h) hmem) ?_).symm
  rw [Std.TreeMap.length_toList]
  exact Std.TreeMap.size_ofList_le

/-- and only then. -/
theorem nodup_of_toList_ofList_perm (h : (Std.TreeMap.ofList l).toList.length = l.length) :
    (l.map Prod.fst).Nodup := by
  have hlen : (l.map Prod.fst).dedup.length = (l.map Prod.fst).length := by
    rw [← (ofList_keys_perm l).length_eq, ← Std.TreeMap.map_fst_toList_eq_keys, List.length_map, h, List.length_map]
  rw [← List.dedup_eq_self]
  exact (List.dedup_sublist _).eq_of_length hlen

end OrderedMap

theorem mapM_eq_ok {ε α β : Type} {f : α → Except ε β} : ∀ {l : List α} {l' : List β},
    l.mapM f = .ok l' → List.Forall₂ (fun a b => f a = .ok b) l l'
  | [], l', h => by
    obtain rfl := Except.ok.inj h
    exact .nil
  | a :: l, l', h => by
    rw [List.mapM_cons] at h
    obtain ⟨b, hb, h⟩ := bind_eq_ok.mp h
    obtain ⟨bs, hbs, h⟩ := bind_eq_ok.mp h
    obtain rfl := Except.ok.inj h
    exact .cons hb (mapM_eq_ok hbs)

/-! ### The map of the numbers -/

/-- A key has one of the two prefixes at most. -/
theorem numberAfter_rs_none {key : List Char} {n : ℕ} (h : numberAfter "server".toList key = some n) :
    numberAfter "rs".toList key = none := by
  unfold numberAfter at h ⊢
  split at h
  · rename_i hserver
    obtain ⟨rest, rfl⟩ := hserver.1
    refine if_neg fun hrs => ?_
    obtain ⟨rest', h'⟩ := hrs.1
    exact absurd (congrArg List.head? h') (by simp)
  · cases h

/-- Both loops over the keys together insert each key under its number. -/
theorem servers_eq (sec : Section) : servers sec = Std.TreeMap.ofList (serverKeys sec) := by
  rw [Std.TreeMap.ofList_eq_insertMany_empty]
  unfold servers serverKeys
  generalize sec.toList = l
  generalize (∅ : Std.TreeMap ℕ (List Char)) = m
  induction l generalizing m with
  | nil => rfl
  | cons kv l ih =>
    rw [List.foldl_cons, ih, List.filterMap_cons]
    unfold serverNumber
    simp only [List.foldl_cons, List.foldl_nil]
    cases hs : numberAfter "server".toList kv.1 with
    | some n =>
      rw [numberAfter_rs_none hs]
      exact Std.TreeMap.insertMany_cons.symm
    | none =>
      cases numberAfter "rs".toList kv.1 with
      | none => rfl
      | some n => exact Std.TreeMap.insertMany_cons.symm

/-! ### The services -/

theorem parseService_rs {name : List Char} {sec : Section} {svc : ServiceConf} (h : parseService name sec = .ok svc) :
    svc.name = String.ofList (name.drop 8) ∧
    List.Forall₂ (fun kv r => parseRs (serverName name kv.1) kv.2 = .ok r) (servers sec).toList svc.rs := by
  obtain ⟨vip, -, h⟩ := bind_eq_ok.mp h
  obtain ⟨port, -, h⟩ := bind_eq_ok.mp h
  obtain ⟨proto, -, h⟩ := bind_eq_ok.mp h
  obtain ⟨sched, -, h⟩ := bind_eq_ok.mp h
  obtain ⟨rs, hrs, h⟩ := bind_eq_ok.mp h
  obtain rfl := Except.ok.inj h
  refine ⟨rfl, (mapM_eq_ok hrs).imp fun kv r hr => ?_⟩
  cases hp : parseRs (serverName name kv.1) kv.2 with
  | error e => simp [hp, Except.mapError] at hr
  | ok r' => simpa [hp, Except.mapError] using hr

theorem lists_iff {name : List Char} {sec : Section} {rs : List RsConf}
    (h : List.Forall₂ (fun kv r => parseRs (serverName name kv.1) kv.2 = .ok r) (servers sec).toList rs) :
    Lists name sec rs ↔ ((serverKeys sec).map (·.1)).Nodup := by
  rw [servers_eq] at h
  constructor
  · intro hl
    obtain ⟨keys, hperm, -, hkeys⟩ := hl
    refine nodup_of_toList_ofList_perm ?_
    rw [h.length_eq, ← hkeys.length_eq, hperm.length_eq]
  · intro hn
    exact ⟨_, toList_ofList_perm hn, (toList_sorted _).imp Nat.le_of_lt, h⟩

/-- **No real server is dropped precisely if no two keys have one number.** If
`parse_services` succeeds, there is a service for each section `[service.*]`, and
its list of real servers has one for each key `serverN` or `rsN` of the section, in
the order of N, each the parse of its value, if and only if the numbers of these
keys are pairwise different. -/
theorem parseServices_lists_iff {sections : Sections} {services : List ServiceConf}
    (h : parseServices sections = .ok services) :
    List.Forall₂ (fun sec svc => svc.name = String.ofList (sec.1.drop 8) ∧
        (Lists sec.1 sec.2 svc.rs ↔ ((serverKeys sec.2).map (·.1)).Nodup))
      (serviceSections sections) services :=
  (mapM_eq_ok h).imp fun _ _ hsvc => ⟨(parseService_rs hsvc).1, lists_iff (parseService_rs hsvc).2⟩

/-- A file with one service 10.0.0.1:80 and these lines for its real servers. -/
def serviceFile (lines : List String) : List (List Char) :=
  (["[service.web]", "vip = 10.0.0.1", "port = 80"] ++ lines).map String.toList

/-- Two real servers, in the order of their numbers. -/
theorem parseServices_lists_two : ∃ sections services sec svc,
    parseFile "l4lb.conf" (serviceFile ["server10 = 10.0.0.12:8080", "rs2 = 10.0.0.11:8080:10"]) = .ok sections ∧
    parseServices sections = .ok services ∧ serviceSections sections = [sec] ∧ services = [svc] ∧
    svc.rs = [{ ip := 0x0B00000A, port := 8080, weight := 10 }, { ip := 0x0C00000A, port := 8080 }] ∧
    Lists sec.1 sec.2 svc.rs := by
  have h : Returns (parseFile "l4lb.conf" (serviceFile ["server10 = 10.0.0.12:8080", "rs2 = 10.0.0.11:8080:10"]))
      fun sections => (∀ sec ∈ serviceSections sections, ((serverKeys sec.2).map (·.1)).Nodup) ∧
        (serviceSections sections).length = 1 ∧
        Returns (parseServices sections) fun services => services.map (·.rs) =
          [[{ ip := 0x0B00000A, port := 8080, weight := 10 }, { ip := 0x0C00000A, port := 8080 }]] := by
    decide +kernel
  obtain ⟨sections, hfile, hnodup, hone, services, hs, hrs⟩ := h
  obtain ⟨sec, hsec⟩ := List.length_eq_one_iff.mp hone
  have hall := parseServices_lists_iff hs
  rw [hsec] at hall
  cases hall with
  | cons hsvc hnil =>
    cases hnil
    rename_i svc
    refine ⟨sections, [svc], sec, svc, hfile, hs, hsec, rfl, by simpa using hrs, hsvc.2.mpr (hnodup sec ?_)⟩
    rw [hsec]
    exact List.mem_singleton_self sec

/-- The keys `server1` and `rs1` give one real server, and nothing is reported. -/
theorem parseServices_drops_rs : ∃ sections services sec svc,
    parseFile "l4lb.conf" (serviceFile ["server1 = 10.0.0.11:8080", "rs1 = 10.0.0.12:8080"]) = .ok sections ∧
    parseServices sections = .ok services ∧ serviceSections sections = [sec] ∧ services = [svc] ∧
    (serverKeys sec.2).length = 2 ∧ svc.rs = [{ ip := 0x0B00000A, port := 8080 }] ∧
    ¬ Lists sec.1 sec.2 svc.rs := by
  have h : Returns (parseFile "l4lb.conf" (serviceFile ["server1 = 10.0.0.11:8080", "rs1 = 10.0.0.12:8080"]))
      fun sections => (serviceSections sections).map (fun sec => (serverKeys sec.2).length) = [2] ∧
        Returns (parseServices sections) fun services =>
          services.map (·.rs) = [[{ ip := 0x0B00000A, port := 8080 }]] := by
    decide +kernel
  obtain ⟨sections, hfile, hkeys, services, hs, hrs⟩ := h
  obtain ⟨sec, hsec, hlen⟩ := List.map_eq_singleton_iff.mp hkeys
  obtain ⟨svc, rfl, hsvc⟩ := List.map_eq_singleton_iff.mp hrs
  refine ⟨sections, [svc], sec, svc, hfile, hs, hsec, rfl, hlen, hsvc, fun hl => ?_⟩
  obtain ⟨keys, hperm, -, hall⟩ := hl
  have h2 := hperm.length_eq
  rw [hall.length_eq, hlen, hsvc] at h2
  simp at h2

end Config
end L4Lb
