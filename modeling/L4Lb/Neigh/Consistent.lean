/-
# The neighbour table is consistent

The hash, the records and the counter agree after any sequence of calls, also
when the hash refuses a key. A static address keeps the MAC that was stored at
the start: `learn` leaves it alone and `age` does not erase it. If the hash was
full when the address was to be stored, it is full of static addresses, so
`hint` does not store it later with another MAC.
-/
import Mathlib.Data.Set.Card
import L4Lb.Neigh

namespace L4Lb

/-! ### The values of the hash -/

theorem macWord_lt (mac : MacAddr) : macWord mac < 2 ^ 48 := by
  have := mac[0].toNat_lt
  have := mac[1].toNat_lt
  have := mac[2].toNat_lt
  have := mac[3].toNat_lt
  have := mac[4].toNat_lt
  have := mac[5].toNat_lt
  unfold macWord
  omega

theorem pack_eq (mac : MacAddr) : pack mac = 2 ^ 63 + macWord mac := by
  have h := Nat.two_pow_add_eq_or_of_lt (i := 63) (b := macWord mac)
    ((macWord_lt mac).trans (Nat.pow_lt_pow_right (by decide) (by decide))) 1
  rw [mul_one] at h
  rw [pack, kValidBit, Nat.or_comm, ← h]

theorem pack_valid (mac : MacAddr) : pack mac &&& kValidBit ≠ 0 := by
  intro h
  have hbit := congrArg (Nat.testBit · 63) h
  simp only [pack, kValidBit, Nat.testBit_and, Nat.testBit_or, Nat.testBit_two_pow_self, Bool.or_true,
    Nat.zero_testBit] at hbit
  exact nomatch hbit

theorem unpack_pack (mac : MacAddr) : unpack (pack mac) = mac := by
  have h0 := mac[0].toNat_lt
  have h1 := mac[1].toNat_lt
  have h2 := mac[2].toNat_lt
  have h3 := mac[3].toNat_lt
  have h4 := mac[4].toNat_lt
  have h5 := mac[5].toNat_lt
  ext i hi
  rw [unpack, Vector.getElem_ofFn, pack_eq, macWord]
  rw [UInt8.toNat_ofNat']
  rcases i with _ | _ | _ | _ | _ | _ | i
  all_goals simp only [zero_add, Nat.reduceAdd, Nat.reduceMul, Nat.reducePow] at *
  all_goals omega

namespace NeighTable

variable {t t' t'' : NeighTable} {ip x : IPv4Addr} {mac : MacAddr} {now : ℕ} {room : Bool} {m : NeighMeta}

/-! ### The hash, the records and the counter -/

/-- The hash has the addresses that are valid by their records, and `count_` of
them. -/
structure Ok (t : NeighTable) : Prop where
  packed : ∀ ip v, t.hash.lookupData ip = some v → ∃ mac, v = pack mac
  valid : ∀ ip, t.valid ip = (t.hash.lookupData ip).isSome
  count : t.count = t.hash.count
  entries : t.hash.entries = kCapacity
  le : t.hash.count ≤ kCapacity

theorem Ok.init : Ok init := by
  have hnone : ∀ ip, NeighTable.init.hash.lookupData ip = none := RteHash.laws.lookup_create _
  have hcount : NeighTable.init.hash.count = 0 := RteHash.laws.count_create _
  refine ⟨fun ip v h => ?_, fun ip => ?_, hcount.symm, RteHash.laws.entries_create _, hcount ▸ Nat.zero_le _⟩
  · rw [hnone] at h
    cases h
  · rw [hnone]
    rfl

theorem Ok.lookup_eq (h : Ok t) (ip : IPv4Addr) : t.lookup ip = (t.hash.lookupData ip).map unpack := by
  unfold lookup
  cases hv : t.hash.lookupData ip with
  | none => rfl
  | some v =>
    obtain ⟨mac, rfl⟩ := h.packed ip v hv
    exact if_neg (pack_valid mac)

theorem Ok.isSome_lookup (h : Ok t) (ip : IPv4Addr) : (t.lookup ip).isSome = t.valid ip := by
  rw [h.lookup_eq, h.valid, Option.isSome_map]

theorem metaAt_setMeta (t : NeighTable) (ip x : IPv4Addr) (m : NeighMeta) :
    (t.setMeta ip m).metaAt x = if x = ip then m else t.metaAt x := by
  unfold metaAt setMeta
  by_cases hx : x = ip
  · subst hx
    simp
  · simp [hx]

/-- What tells two records of an address apart, for the workers. -/
def SameEntry (m m' : NeighMeta) : Prop :=
  m'.isStatic = m.isStatic ∧ m'.valid = m.valid ∧ (m.valid = true → m'.confirmed = m.confirmed)

/-- Only what is not in the hash, and the times of the requests, may change. -/
structure Alike (t t' : NeighTable) : Prop where
  hash : t'.hash = t.hash
  count : t'.count = t.count
  changes : t'.changes = t.changes
  metas : ∀ x, SameEntry (t.metaAt x) (t'.metaAt x)

theorem Alike.refl (t : NeighTable) : Alike t t := ⟨rfl, rfl, rfl, fun _ => ⟨rfl, rfl, fun _ => rfl⟩⟩

theorem Alike.trans (h : Alike t t') (h' : Alike t' t'') : Alike t t'' := by
  refine ⟨h'.hash.trans h.hash, h'.count.trans h.count, h'.changes.trans h.changes, fun x => ?_⟩
  obtain ⟨hs, hv, hc⟩ := h.metas x
  obtain ⟨hs', hv', hc'⟩ := h'.metas x
  exact ⟨hs'.trans hs, hv'.trans hv, fun hx => (hc' (hv.trans hx)).trans (hc hx)⟩

theorem Alike.lookup (h : Alike t t') (ip : IPv4Addr) : t'.lookup ip = t.lookup ip := by
  unfold NeighTable.lookup
  rw [h.hash]

theorem Alike.ok (h : Alike t t') (ht : Ok t) : Ok t' := by
  refine ⟨h.hash ▸ ht.packed, fun ip => ?_, ?_, h.hash ▸ ht.entries, h.hash ▸ ht.le⟩
  · rw [h.hash, ← ht.valid ip]
    exact (h.metas ip).2.1
  · rw [h.count, h.hash, ht.count]

theorem Alike.setMeta (h : SameEntry (t.metaAt ip) m) : Alike t (t.setMeta ip m) := by
  refine ⟨rfl, rfl, rfl, fun x => ?_⟩
  rw [metaAt_setMeta]
  split
  · rename_i hx
    exact hx ▸ h
  · exact ⟨rfl, rfl, fun _ => rfl⟩

theorem Alike.foldl {f : NeighTable → IPv4Addr → NeighTable} (hf : ∀ t ip, Alike t (f t ip)) :
    ∀ (l : List IPv4Addr) (t : NeighTable), Alike t (l.foldl f t)
  | [], t => .refl t
  | ip :: l, t => (hf t ip).trans (Alike.foldl hf l (f t ip))

theorem Alike.wantRequest (t : NeighTable) (ip : IPv4Addr) (now : ℕ) : Alike t (t.wantRequest ip now).1 := by
  unfold NeighTable.wantRequest
  simp only
  split
  · exact .setMeta ⟨rfl, rfl, fun _ => rfl⟩
  · exact .setMeta ⟨rfl, rfl, fun _ => rfl⟩

theorem Alike.forget (now : ℕ) (t : NeighTable) (ip : IPv4Addr) : Alike t (forget now t ip) := by
  unfold NeighTable.forget
  cases hm : t.metas ip with
  | none => exact .refl t
  | some m =>
    simp only
    split
    · rename_i hf
      simp only [Bool.and_eq_true, Bool.not_eq_true', decide_eq_true_eq] at hf
      refine ⟨rfl, rfl, rfl, fun x => ?_⟩
      by_cases hx : x = ip
      · subst hx
        have hold : t.metaAt x = m := by rw [metaAt, hm, Option.getD_some]
        have hnew : metaAt { t with metas := Function.update t.metas x none } x = {} := by
          simp [metaAt]
        rw [hold, hnew]
        exact ⟨hf.1.2.symm, hf.1.1.symm, fun hv => nomatch hf.1.1.symm.trans hv⟩
      · have hsame : metaAt { t with metas := Function.update t.metas ip none } x = t.metaAt x := by
          simp [metaAt, hx]
        rw [hsame]
        exact ⟨rfl, rfl, fun _ => rfl⟩
    · exact .refl t

/-! ### `store` and `erase` -/

/-- The hash takes the key. -/
def takes (t : NeighTable) (ip : IPv4Addr) (room : Bool) : Bool :=
  (t.lookup ip).isSome || (room && decide (t.count < kCapacity))

theorem store_of_not_takes (h : Ok t) (hn : t.takes ip room = false) : t.store ip mac room = t := by
  simp only [takes, Bool.or_eq_false_iff, Bool.and_eq_false_iff, decide_eq_false_iff_not] at hn
  have hnone : (t.hash.lookupData ip).isSome = false := by rw [← h.valid, ← h.isSome_lookup, hn.1]
  have hadd : t.addKeyData ip mac room = none := by
    unfold addKeyData
    rw [hnone, Bool.false_or]
    split
    · rename_i hroom
      rw [← Option.not_isSome_iff_eq_none, RteHash.laws.add_isSome, hnone, h.entries, ← h.count]
      simpa [hroom] using hn.2
    · rfl
  unfold store
  rw [hadd]

theorem addKeyData_of_takes (h : Ok t) (ht : t.takes ip room = true) (mac : MacAddr) :
    ∃ hash, t.addKeyData ip mac room = some hash ∧ t.hash.addKeyData ip (pack mac) = some hash ∧
      ((t.hash.lookupData ip).isSome = true ∨ t.hash.count < kCapacity) := by
  simp only [takes, Bool.or_eq_true, Bool.and_eq_true, decide_eq_true_eq] at ht
  rw [h.isSome_lookup, h.valid, h.count] at ht
  have hcond : (t.hash.lookupData ip).isSome = true ∨ t.hash.count < t.hash.entries :=
    h.entries ▸ ht.imp_right And.right
  obtain ⟨hash, hadd⟩ := Option.isSome_iff_exists.mp ((RteHash.laws.add_isSome t.hash ip (pack mac)).mpr hcond)
  refine ⟨_, ?_, hadd, ht.imp_right And.right⟩
  rw [addKeyData, if_pos, hadd]
  rw [Bool.or_eq_true]
  exact ht.imp_right And.left

/-- The table with the MAC of one address written. -/
structure Stored (t : NeighTable) (ip : IPv4Addr) (mac : MacAddr) (t' : NeighTable) : Prop where
  ok : Ok t'
  lookup : ∀ x, t'.lookup x = if x = ip then some mac else t.lookup x
  metaAt : ∀ x, t'.metaAt x = if x = ip then { t.metaAt ip with valid := true } else t.metaAt x
  changes : t'.changes = t.changes + 1

theorem stored_of_takes (h : Ok t) (ht : t.takes ip room = true) (mac : MacAddr) :
    Stored t ip mac (t.store ip mac room) := by
  obtain ⟨hash, hadd, hadd', hle⟩ := addKeyData_of_takes h ht mac
  have hlook := RteHash.laws.lookup_add hadd'
  have hcount := RteHash.laws.count_add hadd'
  unfold store
  rw [hadd]
  have hok : Ok { t.setMeta ip { t.metaAt ip with valid := true } with
      hash := hash, count := if t.valid ip then t.count else t.count + 1, changes := t.changes + 1 } := by
    refine ⟨fun x v hv => ?_, fun x => ?_, ?_, (RteHash.laws.entries_add hadd').trans h.entries, ?_⟩
    · rw [hlook x] at hv
      split at hv
      · exact ⟨mac, (Option.some.inj hv).symm⟩
      · exact h.packed x v hv
    · show ((t.setMeta ip { t.metaAt ip with valid := true }).metaAt x).valid = (hash.lookupData x).isSome
      rw [metaAt_setMeta, hlook]
      split
      · rfl
      · exact h.valid x
    · show (if t.valid ip = true then t.count else t.count + 1) = hash.count
      rw [h.valid, h.count]
      split at hcount
      · rename_i hv
        rw [if_pos hv]
        omega
      · rename_i hv
        rw [if_neg hv]
        omega
    · show hash.count ≤ kCapacity
      have := h.le
      split at hcount
      · omega
      · rename_i hv
        rcases hle with hle | hle
        · exact absurd hle hv
        · omega
  refine ⟨hok, fun x => ?_, fun x => metaAt_setMeta t ip x _, rfl⟩
  rw [hok.lookup_eq, h.lookup_eq]
  show (hash.lookupData x).map unpack = _
  rw [hlook]
  split
  · rw [Option.map_some, unpack_pack]
  · rfl

theorem metaAt_erase (t : NeighTable) (ip x : IPv4Addr) :
    (t.erase ip).metaAt x = if x = ip then {} else t.metaAt x := by
  unfold metaAt erase
  by_cases hx : x = ip
  · subst hx
    simp
  · simp [hx]

theorem Ok.erase (h : Ok t) (ip : IPv4Addr) : Ok (t.erase ip) := by
  have hlook : ∀ x, (t.erase ip).hash.lookupData x = if x = ip then none else t.hash.lookupData x :=
    fun x => RteHash.laws.lookup_del t.hash ip x
  have hcount := RteHash.laws.count_del t.hash ip
  refine ⟨fun x v hv => ?_, fun x => ?_, ?_, (RteHash.laws.entries_del _ _).trans h.entries, ?_⟩
  · rw [hlook] at hv
    split at hv
    · cases hv
    · exact h.packed x v hv
  · unfold NeighTable.valid
    rw [metaAt_erase, hlook]
    split
    · rfl
    · exact h.valid x
  · show (if t.valid ip = true then t.count - 1 else t.count) = (t.hash.delKey ip).count
    rw [h.valid, h.count]
    split at hcount
    · rename_i hv
      rw [if_pos hv]
      omega
    · rename_i hv
      rw [if_neg hv]
      omega
  · show (t.hash.delKey ip).count ≤ kCapacity
    have := h.le
    omega

theorem Ok.lookup_erase (h : Ok t) (ip x : IPv4Addr) :
    (t.erase ip).lookup x = if x = ip then none else t.lookup x := by
  rw [(h.erase ip).lookup_eq, h.lookup_eq]
  show ((t.hash.delKey ip).lookupData x).map unpack = _
  rw [RteHash.laws.lookup_del]
  split
  · rfl
  · rfl

theorem foldl_erase : ∀ (l : List IPv4Addr) {t : NeighTable}, Ok t →
    Ok (l.foldl erase t) ∧ (∀ x, (l.foldl erase t).lookup x = if x ∈ l then none else t.lookup x) ∧
      ∀ x, (l.foldl erase t).metaAt x = if x ∈ l then {} else t.metaAt x
  | [], _, h => ⟨h, fun _ => by simp, fun _ => by simp⟩
  | ip :: l, t, h => by
    obtain ⟨hok, hlook, hmeta⟩ := foldl_erase l (h.erase ip)
    refine ⟨hok, fun x => ?_, fun x => ?_⟩
    · rw [List.foldl_cons, hlook, h.lookup_erase]
      by_cases hx : x = ip
      · simp [hx]
      · simp [hx]
    · rw [List.foldl_cons, hmeta, metaAt_erase]
      by_cases hx : x = ip
      · simp [hx]
      · simp [hx]

/-! ### The calls -/

/-- What a call does: every change of an entry is counted, and a static address
keeps its MAC if it has one, or if the table is half full. -/
structure Acts (t t' : NeighTable) : Prop where
  ok : Ok t'
  isStatic : ∀ x, t'.isStatic x = t.isStatic x
  le : t.changes ≤ t'.changes
  same : t'.changes = t.changes → ∀ x, t'.lookup x = t.lookup x
  keeps : ∀ x, t.isStatic x = true → t.valid x = true ∨ kCapacity / 2 ≤ t.count → t'.lookup x = t.lookup x

theorem Acts.refl (h : Ok t) : Acts t t := ⟨h, fun _ => rfl, le_rfl, fun _ _ => rfl, fun _ _ _ => rfl⟩

theorem Alike.acts (h : Alike t t') (ht : Ok t) : Acts t t' :=
  ⟨h.ok ht, fun x => (h.metas x).1, h.changes.ge, fun _ => h.lookup, fun x _ _ => h.lookup x⟩

theorem isStatic_confirm (t : NeighTable) (ip : IPv4Addr) (now : ℕ) (x : IPv4Addr) :
    (t.confirm ip now).isStatic x = t.isStatic x := by
  unfold isStatic confirm
  rw [metaAt_setMeta]
  split
  · rename_i hx
    rw [hx]
  · rfl

theorem valid_confirm (t : NeighTable) (ip : IPv4Addr) (now : ℕ) (x : IPv4Addr) :
    (t.confirm ip now).valid x = t.valid x := by
  unfold valid confirm
  rw [metaAt_setMeta]
  split
  · rename_i hx
    rw [hx]
  · rfl

theorem Acts.confirm (h : Acts t t') (ip : IPv4Addr) (now : ℕ) : Acts t (t'.confirm ip now) := by
  refine ⟨⟨h.ok.packed, fun x => ?_, h.ok.count, h.ok.entries, h.ok.le⟩, fun x => ?_, h.le, h.same, h.keeps⟩
  · rw [valid_confirm]
    exact h.ok.valid x
  · rw [isStatic_confirm, h.isStatic]

theorem isStatic_store (h : Ok t) (ip : IPv4Addr) (mac : MacAddr) (room : Bool) (x : IPv4Addr) :
    (t.store ip mac room).isStatic x = t.isStatic x := by
  cases ht : t.takes ip room with
  | false => rw [store_of_not_takes h ht]
  | true =>
    unfold isStatic
    rw [(stored_of_takes h ht mac).metaAt]
    split
    · rename_i hx
      rw [hx]
    · rfl

theorem Acts.store (h : Ok t) (hkeeps : t.isStatic ip = true → ¬ (t.valid ip = true ∨ kCapacity / 2 ≤ t.count))
    (mac : MacAddr) (room : Bool) : Acts t (t.store ip mac room) := by
  cases ht : t.takes ip room with
  | false =>
    rw [store_of_not_takes h ht]
    exact .refl h
  | true =>
    have hs := stored_of_takes h ht mac
    refine ⟨hs.ok, isStatic_store h ip mac room, by rw [hs.changes]; omega, fun he => ?_, fun x hx hk => ?_⟩
    · rw [hs.changes] at he
      omega
    · rw [hs.lookup, if_neg]
      rintro rfl
      exact hkeeps hx hk

theorem Acts.learn (h : Ok t) (ip : IPv4Addr) (mac : MacAddr) (solicited : Bool) (now : ℕ) (room : Bool) :
    Acts t (t.learn ip mac solicited now room) := by
  unfold NeighTable.learn
  split
  · exact .refl h
  rename_i hns
  split
  · exact .refl h
  refine Acts.confirm ?_ ip now
  split
  · exact .refl h
  · exact .store h (fun hs => absurd hs hns) mac room

theorem Acts.hint (h : Ok t) (ip : IPv4Addr) (mac : MacAddr) (now : ℕ) (room : Bool) :
    Acts t (t.hint ip mac now room) := by
  unfold NeighTable.hint
  split
  · exact .refl h
  rename_i hv
  split
  · exact .refl h
  rename_i hc
  exact (Acts.store h (fun _ hk => hk.elim hv hc) mac room).confirm ip now

/-- `age` erases the dead entries and leaves the others alike. -/
theorem age_alike (t : NeighTable) (now : ℕ) (order : List IPv4Addr) :
    Alike ((order.filter (t.dead now)).foldl erase t) (t.age now order).1 := by
  refine .trans (.foldl (fun t ip => ?_) _ _) (.foldl (Alike.forget now) _ _)
  exact .setMeta ⟨rfl, rfl, fun _ => rfl⟩

theorem dead_isStatic (h : t.dead now ip = true) : t.isStatic ip = false := by
  simp only [dead, Bool.and_eq_true, Bool.not_eq_true'] at h
  exact h.1.1

theorem changes_foldl_erase : ∀ (l : List IPv4Addr) (t : NeighTable),
    (l.foldl erase t).changes = t.changes + l.length
  | [], _ => rfl
  | ip :: l, t => by
    rw [List.foldl_cons, changes_foldl_erase l, List.length_cons]
    show t.changes + 1 + _ = _
    omega

theorem Acts.age (h : Ok t) (now : ℕ) (order : List IPv4Addr) : Acts t (t.age now order).1 := by
  obtain ⟨hok, hlook, hmeta⟩ := foldl_erase (order.filter (t.dead now)) h
  have ha := age_alike t now order
  have hchanges := changes_foldl_erase (order.filter (t.dead now)) t
  refine ⟨ha.ok hok, fun x => ?_, by rw [ha.changes, hchanges]; omega, fun he x => ?_, fun x hx _ => ?_⟩
  · refine (ha.metas x).1.trans ?_
    rw [hmeta]
    split
    · rename_i hd
      exact (dead_isStatic (List.mem_filter.mp hd).2).symm
    · rfl
  · rw [ha.changes, hchanges] at he
    have hnil : order.filter (t.dead now) = [] := List.eq_nil_of_length_eq_zero (by omega)
    rw [ha.lookup, hlook, hnil, if_neg List.not_mem_nil]
  · rw [ha.lookup, hlook, if_neg]
    intro hd
    exact nomatch hx.symm.trans (dead_isStatic (List.mem_filter.mp hd).2)

/-- **What every call does.** -/
theorem apply_acts (h : Ok t) (op : NeighOp) : Acts t (t.apply op) := by
  cases op with
  | learn ip mac solicited now room => exact .learn h ip mac solicited now room
  | hint ip mac now room => exact .hint h ip mac now room
  | wantRequest ip now => exact (Alike.wantRequest t ip now).acts h
  | age now order => exact .age h now order

/-! ### The start -/

/-- With the addresses of one in the other, there are no fewer of them. -/
theorem Ok.count_le (h : Ok t) (h' : Ok t') (hsub : ∀ x, t.lookup x ≠ none → t'.lookup x ≠ none) :
    t.count ≤ t'.count := by
  obtain ⟨s, hs, hc⟩ := RteHash.laws.keys t'.hash
  rw [h.count, h'.count, ← hc]
  refine RteHash.laws.count_le_card fun x hx => ?_
  rw [hs, ← h'.valid, ← h'.isSome_lookup, Option.isSome_iff_ne_none]
  refine hsub x ?_
  rwa [← Option.isSome_iff_ne_none, h.isSome_lookup, h.valid]

/-- The MAC of an address in the configuration; the last one counts. -/
def configured (statics : List StaticNeigh) (ip : IPv4Addr) : Option MacAddr :=
  (statics.reverse.find? (·.ip = ip)).map (·.mac)

theorem configured_append (l : List StaticNeigh) (s : StaticNeigh) (ip : IPv4Addr) :
    configured (l ++ [s]) ip = if s.ip = ip then some s.mac else configured l ip := by
  unfold configured
  rw [List.reverse_append, List.reverse_singleton, List.singleton_append, List.find?_cons]
  by_cases h : s.ip = ip
  · simp [h]
  · simp [h]

/-- The table after the static addresses of the list. -/
structure Started (l : List StaticNeigh) (t : NeighTable) : Prop where
  ok : Ok t
  isStatic : ∀ x, t.isStatic x = true ↔ x ∈ l.map (·.ip)
  only : ∀ x, t.lookup x ≠ none → t.isStatic x = true
  lookup : ∀ x, t.lookup x ≠ none → t.lookup x = configured l x
  full : (∀ s ∈ l, s.room = true) → ∀ x ∈ l.map (·.ip), t.lookup x = none → t.count = kCapacity

theorem isStatic_addStatic (h : Ok t) (ip : IPv4Addr) (mac : MacAddr) (room : Bool) (x : IPv4Addr) :
    (t.addStatic ip mac room).isStatic x = true ↔ x = ip ∨ t.isStatic x = true := by
  rw [← isStatic_store h ip mac room x]
  unfold isStatic addStatic
  rw [metaAt_setMeta]
  split
  · rename_i hx
    exact ⟨fun _ => .inl hx, fun _ => rfl⟩
  · rename_i hx
    exact ⟨.inr, fun hs => hs.resolve_left hx⟩

theorem Ok.addStatic (h : Ok t) (ip : IPv4Addr) (mac : MacAddr) (room : Bool) : Ok (t.addStatic ip mac room) := by
  have hs : Ok (t.store ip mac room) := by
    cases ht : t.takes ip room with
    | false => rwa [store_of_not_takes h ht]
    | true => exact (stored_of_takes h ht mac).ok
  refine ⟨hs.packed, fun x => ?_, hs.count, hs.entries, hs.le⟩
  refine Eq.trans ?_ (hs.valid x)
  unfold NeighTable.valid NeighTable.addStatic
  rw [metaAt_setMeta]
  split
  · rename_i hx
    rw [hx]
  · rfl

/-- The MAC is in the table afterwards, unless the hash refuses the address. -/
theorem lookup_addStatic (h : Ok t) (ip : IPv4Addr) (mac : MacAddr) (room : Bool) :
    (∀ x, (t.addStatic ip mac room).lookup x = if x = ip then some mac else t.lookup x) ∨
      (t.addStatic ip mac room).lookup = t.lookup ∧ t.lookup ip = none ∧
        (room = true → (t.addStatic ip mac room).count = kCapacity) := by
  cases ht : t.takes ip room with
  | true => exact .inl (stored_of_takes h ht mac).lookup
  | false =>
    refine .inr ⟨?_, ?_, ?_⟩
    · show (t.store ip mac room).lookup = t.lookup
      rw [store_of_not_takes h ht]
    · simp only [takes, Bool.or_eq_false_iff] at ht
      exact Option.not_isSome_iff_eq_none.mp (Bool.eq_false_iff.mp ht.1)
    · rintro rfl
      show (t.store ip mac true).count = kCapacity
      rw [store_of_not_takes h ht]
      simp only [takes, Bool.or_eq_false_iff, Bool.true_and, decide_eq_false_iff_not] at ht
      have hle := h.le
      rw [← h.count] at hle
      omega

theorem Started.addStatic {l : List StaticNeigh} (h : Started l t) (s : StaticNeigh) :
    Started (l ++ [s]) (t.addStatic s.ip s.mac s.room) := by
  have hok := h.ok.addStatic s.ip s.mac s.room
  have hstatic := isStatic_addStatic h.ok s.ip s.mac s.room
  have hlook := lookup_addStatic h.ok s.ip s.mac s.room
  have hmem : ∀ x, x ∈ (l ++ [s]).map (·.ip) ↔ x = s.ip ∨ x ∈ l.map (·.ip) := by
    intro x
    rw [List.map_append, List.mem_append, or_comm, List.map_singleton, List.mem_singleton]
  refine ⟨hok, fun x => by rw [hstatic, h.isStatic, hmem], fun x hx => (hstatic x).mpr ?_, fun x hx => ?_,
    fun hroom x hx hnone => ?_⟩
  · rcases hlook with hl | ⟨hl, -, -⟩
    · rw [hl] at hx
      by_cases hxs : x = s.ip
      · exact .inl hxs
      · rw [if_neg hxs] at hx
        exact .inr (h.only x hx)
    · rw [hl] at hx
      exact .inr (h.only x hx)
  · rw [configured_append]
    rcases hlook with hl | ⟨hl, hrefused, -⟩
    · rw [hl] at hx ⊢
      by_cases hxs : x = s.ip
      · rw [if_pos hxs, if_pos hxs.symm]
      · rw [if_neg hxs] at hx ⊢
        rw [if_neg (Ne.symm hxs)]
        exact h.lookup x hx
    · rw [hl] at hx ⊢
      have hxs : s.ip ≠ x := fun he => hx (he ▸ hrefused)
      rw [if_neg hxs]
      exact h.lookup x hx
  · rcases hlook with hl | ⟨-, -, hc⟩
    · -- no address goes, so a full table stays full
      have hsub : ∀ y, t.lookup y ≠ none → (t.addStatic s.ip s.mac s.room).lookup y ≠ none := by
        intro y hy
        rw [hl]
        split
        · exact Option.some_ne_none _
        · exact hy
      have hxs : x ≠ s.ip := by
        rintro rfl
        rw [hl, if_pos rfl] at hnone
        cases hnone
      rw [hl, if_neg hxs] at hnone
      have hfull := h.full (fun s' hs' => hroom s' (List.mem_append_left _ hs')) x
        (((hmem x).mp hx).resolve_left hxs) hnone
      have hle := h.ok.count_le hok hsub
      have hle' := hok.le
      rw [← hok.count] at hle'
      omega
    · exact hc (hroom s (List.mem_append_right _ List.mem_cons_self))

theorem startUp_spec (statics : List StaticNeigh) : Started statics (startUp statics) := by
  induction statics using List.reverseRecOn with
  | nil =>
    have hnone : ∀ x, init.lookup x = none := fun x => by rw [Ok.init.lookup_eq, init, RteHash.laws.lookup_create]; rfl
    refine ⟨.init, fun x => ?_, fun x h => absurd (hnone x) h, fun x h => absurd rfl h, fun _ x h => nomatch h⟩
    simp [startUp, isStatic, metaAt, init]
  | append_singleton l s ih =>
    unfold startUp at ih ⊢
    rw [List.foldl_append]
    exact ih.addStatic s

/-! ### Every run -/

/-- A static address has the entry it had at the start: one that was stored
keeps it, and one that was not gets none if the hash was full. -/
structure Kept (statics : List StaticNeigh) (t : NeighTable) : Prop where
  ok : Ok t
  isStatic : ∀ x, t.isStatic x = true ↔ x ∈ statics.map (·.ip)
  stored : ∀ x, (startUp statics).lookup x ≠ none → t.lookup x = (startUp statics).lookup x
  refused : (∀ s ∈ statics, s.room = true) → ∀ x ∈ statics.map (·.ip), (startUp statics).lookup x = none →
    t.lookup x = none

theorem Kept.step {statics : List StaticNeigh} (h : Kept statics t) (ha : Acts t t') : Kept statics t' := by
  have h0 := startUp_spec statics
  refine ⟨ha.ok, fun x => by rw [ha.isStatic, h.isStatic], fun x hx => ?_, fun hroom x hx hnone => ?_⟩
  · have hv : t.valid x = true := by
      rw [← h.ok.isSome_lookup, h.stored x hx]
      exact Option.isSome_iff_ne_none.mpr hx
    rw [← h.stored x hx]
    exact ha.keeps x ((h.isStatic x).mpr ((h0.isStatic x).mp (h0.only x hx))) (.inl hv)
  · -- the table was full at the start, of addresses that stay
    have hc := h0.full hroom x hx hnone
    have hle : (startUp statics).count ≤ t.count := h0.ok.count_le h.ok fun y hy => by
      rwa [h.stored y hy]
    have hhalf : kCapacity / 2 ≤ t.count := by
      unfold kCapacity at *
      omega
    exact (ha.keeps x ((h.isStatic x).mpr hx) (.inr hhalf)).trans (h.refused hroom x hx hnone)

theorem Reach.kept {statics : List StaticNeigh} (h : Reach statics t now) : Kept statics t := by
  induction h with
  | start =>
    have h0 := startUp_spec statics
    exact ⟨h0.ok, h0.isStatic, fun _ _ => rfl, fun _ _ _ hnone => hnone⟩
  | call op _ _ ih => exact ih.step (apply_acts ih.ok op)

/-! ### The times of the records -/

/-- No address was confirmed after `n`. -/
def Dated (n : ℕ) (t : NeighTable) : Prop := ∀ x, (t.metaAt x).confirmed ≤ n

namespace Dated

variable {n n' : ℕ}

theorem mono (h : Dated n t) (hn : n ≤ n') : Dated n' t := fun x => (h x).trans hn

theorem setMeta (h : Dated n t) (hm : m.confirmed ≤ n) : Dated n (t.setMeta ip m) := by
  intro x
  rw [metaAt_setMeta]
  split
  · exact hm
  · exact h x

theorem store (h : Dated n t) (ip : IPv4Addr) (mac : MacAddr) (room : Bool) : Dated n (t.store ip mac room) := by
  have hmeta : Dated n (t.setMeta ip { t.metaAt ip with valid := true }) := h.setMeta (h ip)
  unfold NeighTable.store
  split
  · exact h
  · exact hmeta

theorem addStatic (h : Dated n t) (ip : IPv4Addr) (mac : MacAddr) (room : Bool) :
    Dated n (t.addStatic ip mac room) :=
  (h.store ip mac room).setMeta (h.store ip mac room ip)

theorem erase (h : Dated n t) (ip : IPv4Addr) : Dated n (t.erase ip) := by
  intro x
  rw [metaAt_erase]
  split
  · exact Nat.zero_le n
  · exact h x

theorem forget (h : Dated n t) (now : ℕ) (ip : IPv4Addr) : Dated n (forget now t ip) := by
  unfold NeighTable.forget
  split
  · exact h
  · split
    · exact h.erase ip
    · exact h

theorem foldl {α : Type} {f : NeighTable → α → NeighTable} (hf : ∀ t a, Dated n t → Dated n (f t a)) :
    ∀ (l : List α) {t : NeighTable}, Dated n t → Dated n (l.foldl f t)
  | [], _, h => h
  | a :: l, t, h => Dated.foldl hf l (hf t a h)

theorem startUp (statics : List StaticNeigh) : Dated 0 (startUp statics) :=
  .foldl (fun _ s h => h.addStatic s.ip s.mac s.room) statics fun _ => le_rfl

theorem confirm (h : Dated now t) (ip : IPv4Addr) : Dated now (t.confirm ip now) := h.setMeta le_rfl

theorem apply (h : Dated n t) (op : NeighOp) (hn : n ≤ op.now) : Dated op.now (t.apply op) := by
  replace h := h.mono hn
  cases op with
  | learn ip mac solicited now room =>
    show Dated now (t.learn ip mac solicited now room)
    unfold NeighTable.learn
    split
    · exact h
    split
    · exact h
    refine Dated.confirm ?_ ip
    split
    · exact h
    · exact h.store ip mac room
  | hint ip mac now room =>
    show Dated now (t.hint ip mac now room)
    unfold NeighTable.hint
    split
    · exact h
    split
    · exact h
    · exact (h.store ip mac room).confirm ip
  | wantRequest ip now =>
    show Dated now (t.wantRequest ip now).1
    unfold NeighTable.wantRequest
    simp only
    split
    · exact h.setMeta (h ip)
    · exact h.setMeta (h ip)
  | age now order =>
    refine .foldl (fun t ip h => h.forget now ip) _
      (.foldl (fun t ip h => ?_) _ (.foldl (fun t ip h => h.erase ip) _ h))
    exact h.setMeta (h ip)

end Dated

theorem Valid.mono {now' : ℕ} {op : NeighOp} (h : t.Valid now op) (hle : now' ≤ now) : t.Valid now' op := by
  cases op with
  | learn ip mac solicited now'' room => exact hle.trans h
  | hint ip mac now'' room => exact hle.trans h
  | wantRequest ip now'' => exact hle.trans h
  | age now'' order => exact ⟨hle.trans h.1, h.2⟩

theorem Valid.le {op : NeighOp} (h : t.Valid now op) : now ≤ op.now := by
  cases op with
  | learn ip mac solicited now' room => exact h
  | hint ip mac now' room => exact h
  | wantRequest ip now' => exact h
  | age now' order => exact h.1

theorem Reach.dated {statics : List StaticNeigh} (h : Reach statics t now) : Dated now t := by
  induction h with
  | start => exact .startUp statics
  | call op _ hv ih => exact ih.apply op hv.le

theorem Ok.count_eq_ncard (h : Ok t) : t.count = Set.ncard {ip | t.valid ip = true} := by
  obtain ⟨s, hs, hc⟩ := RteHash.laws.keys t.hash
  have hset : {ip | t.valid ip = true} = ↑s := by
    ext ip
    rw [Set.mem_ofPred_eq, h.valid, Finset.mem_coe, hs]
  rw [hset, Set.ncard_coe_finset, hc, h.count]

/-- What `age` leaves was confirmed in the last `kReachableSec` seconds. -/
theorem Ok.fresh_of_age (h : Ok t) {order : List IPv4Addr} (ho : t.Orders order)
    (hv : (t.age now order).1.valid ip = true) (hs : (t.age now order).1.isStatic ip = false) :
    sub64 now ((t.age now order).1.metaAt ip).confirmed < kReachableSec := by
  obtain ⟨-, -, hmeta⟩ := foldl_erase (order.filter (t.dead now)) h
  obtain ⟨hstatic, hvalid, hconfirmed⟩ := (age_alike t now order).metas ip
  unfold NeighTable.valid at hv
  unfold NeighTable.isStatic at hs
  rw [hmeta] at hstatic hvalid hconfirmed
  split at hvalid
  · rw [hvalid] at hv
    exact nomatch hv
  · rename_i hdead
    rw [if_neg hdead] at hstatic hconfirmed
    rw [hvalid] at hv
    rw [hstatic] at hs
    rw [hconfirmed hv]
    have hmem : ip ∈ order := by
      rw [ho.2]
      unfold metaAt at hv
      cases hm : t.metas ip with
      | none => rw [hm] at hv; exact nomatch hv
      | some m => rfl
    have hnot : t.dead now ip ≠ true := fun hd => hdead (List.mem_filter.mpr ⟨hmem, hd⟩)
    simp only [dead, NeighTable.isStatic, NeighTable.valid, hs, hv, Bool.not_false, Bool.true_and, ne_eq,
      decide_eq_true_eq] at hnot
    exact not_le.mp hnot

/-- `store` adds only its address. -/
theorem eq_of_store_new (h : Ok t) (hx : t.lookup x = none) (hnew : (t.store ip mac room).lookup x ≠ none) :
    x = ip := by
  cases ht : t.takes ip room with
  | false =>
    rw [store_of_not_takes h ht] at hnew
    exact absurd hx hnew
  | true =>
    rw [(stored_of_takes h ht mac).lookup] at hnew
    by_contra hne
    rw [if_neg hne] at hnew
    exact hnew hx

theorem room_of_hint (hx : t.lookup x = none) (hnew : (t.hint ip mac now room).lookup x ≠ none) :
    t.count < kCapacity / 2 := by
  unfold hint at hnew
  split at hnew
  · exact absurd hx hnew
  split at hnew
  · exact absurd hx hnew
  · rename_i hc
    exact not_le.mp hc

theorem room_of_learn (h : Ok t) (hx : t.lookup x = none)
    (hnew : (t.learn ip mac false now room).lookup x ≠ none) : t.count < kCapacity / 2 := by
  unfold learn at hnew
  split at hnew
  · exact absurd hx hnew
  split at hnew
  · exact absurd hx hnew
  rename_i hc
  split at hnew
  · exact absurd hx hnew
  · obtain rfl := eq_of_store_new h hx hnew
    have hv : t.valid x = false := by rw [← h.isSome_lookup, hx, Option.isSome_none]
    rw [hv] at hc
    by_contra hle
    exact hc ⟨rfl, rfl, not_lt.mp hle⟩

/-- **The table is consistent.** After any calls the workers find the addresses
that are valid by their records, and `count_` of them. A static address whose
MAC was stored at the start has it for ever; if it was not stored because the
hash was full, then it never has another one. After `age` every other address
was confirmed less than `kReachableSec` seconds ago, and a hint or an
unsolicited reply adds an address only to a table that is less than half full. -/
theorem table_consistent {statics : List StaticNeigh} (h : Reach statics t now) :
    (∀ ip, (t.lookup ip).isSome = true ↔ t.valid ip = true) ∧
    t.count = Set.ncard {ip | t.valid ip = true} ∧
    (∀ ip ∈ statics.map (·.ip), t.isStatic ip = true ∧
      ((startUp statics).lookup ip ≠ none → t.lookup ip = configured statics ip) ∧
      ((∀ s ∈ statics, s.room = true) → (startUp statics).lookup ip = none →
        t.lookup ip = none ∧ (startUp statics).count = kCapacity)) ∧
    (∀ now' order, t.Valid now (.age now' order) → ∀ ip, (t.age now' order).1.valid ip = true →
      (t.age now' order).1.isStatic ip = false → ((t.age now' order).1.metaAt ip).confirmed ≤ now' ∧
        sub64 now' ((t.age now' order).1.metaAt ip).confirmed < kReachableSec) ∧
    (∀ ip mac now' room x, t.lookup x = none →
      (t.hint ip mac now' room).lookup x ≠ none ∨ (t.learn ip mac false now' room).lookup x ≠ none →
      t.count < kCapacity / 2) := by
  have h0 := startUp_spec statics
  have hk := h.kept
  refine ⟨fun ip => by rw [hk.ok.isSome_lookup], hk.ok.count_eq_ncard,
    fun ip hip => ⟨(hk.isStatic ip).mpr hip, fun hs => ?_, fun hroom hnone => ?_⟩,
    fun now' order hv ip hvalid hstatic => ⟨?_, hk.ok.fresh_of_age hv.2 hvalid hstatic⟩,
    fun ip mac now' room x hx hnew => ?_⟩
  · rw [hk.stored ip hs]
    exact h0.lookup ip hs
  · exact ⟨hk.refused hroom ip hip hnone, h0.full hroom ip hip hnone⟩
  · exact h.dated.apply (.age now' order) hv.1 ip
  · rcases hnew with hnew | hnew
    · exact room_of_hint hx hnew
    · exact room_of_learn hk.ok hx hnew

/-- One real server with a MAC. -/
def oneStatic : List StaticNeigh := [⟨0x0a00020b, #v[0x02, 0, 0, 0, 0, 0x0b], true⟩]

/-- A hint adds an address, and a reply with another MAC for the static one
changes nothing. -/
theorem table_consistent_one : ∃ t, Reach oneStatic t 20 ∧ Set.ncard {ip | t.valid ip = true} = 2 ∧
    t.lookup 0x0a00020b = some #v[0x02, 0, 0, 0, 0, 0x0b] := by
  have h1 := (Reach.start : Reach oneStatic _ _).call (.hint 0x0a000207 #v[0x02, 0, 0, 0, 0, 0x07] 10 true)
    (Nat.zero_le 10)
  have h2 := h1.call (.learn 0x0a00020b #v[0x02, 0, 0, 0, 0, 0x66] true 20 true)
    (show 10 ≤ 20 from by decide)
  obtain ⟨-, hcount, hstatic, -⟩ := table_consistent h2
  refine ⟨_, h2, hcount.symm.trans (by decide +kernel), ?_⟩
  exact (hstatic 0x0a00020b (by decide)).2.1 (by decide +kernel)

end NeighTable

end L4Lb
