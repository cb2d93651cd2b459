/-
# The session table stays consistent

Four structures have to stay in step: the free stack, the session array with
the `kFree` mark in `wheel_prev`, the timer lists, and the hash with its one or
two keys per session. `Sound t N L` says that the first three do, for a table
whose live sessions are `L` and whose linked sessions are `N`; the two differ
only inside an operation. It asks the lists to fit together locally
(`IList.Wf`), not that every session is on the list of its head, so it also
survives the second `wheel_unlink` that `expire` makes when it removes a
session it has popped already. `Good t N L` adds the hash (`Keys`), which none of
the others reads: it takes that a new session has new keys.
-/
import L4Lb.Session.Links
import Mathlib.Data.Finset.Card
import Mathlib.Data.Finset.Range

open Function

namespace L4Lb
namespace SessionTable

/-- The largest `max_sessions` the configuration admits. -/
def kMaxSessions : ℕ := 2 ^ 26

/-- The free stack, the marks and the timer lists belong to the live sessions
`L`, of which `N` are linked. -/
structure Sound (t : SessionTable) (N L : Set ℕ) : Prop where
  capacity_le : t.capacity ≤ kMaxSessions
  lt_capacity : ∀ i ∈ L, i < t.capacity
  free_nodup : t.freeStack.Nodup
  free_mem : ∀ i, i ∈ t.freeStack ↔ i < t.capacity ∧ i ∉ L
  wf : t.links.Wf kNil N
  sub : N ⊆ L
  mark : ∀ i, i < t.capacity → (i ∈ L ↔ (t.sessions i).wheelPrev ≠ kFree)

/-- The hash belongs to the live sessions `L`. -/
structure Keys (t : SessionTable) (L : Set ℕ) : Prop where
  lookup_iff : ∀ k i, t.lookup k = some i ↔ i ∈ L ∧ (t.sessions i).HasKey k
  entries : t.hash.entries = t.capacity * 2 + t.capacity / 2

/-- The whole table belongs to the live sessions `L`, of which `N` are linked. -/
structure Good (t : SessionTable) (N L : Set ℕ) : Prop extends Sound t N L where
  keys : Keys t L

variable {t t' : SessionTable} {N N' L : Set ℕ} {x : ℕ}

theorem Sound.ne_nil (h : Sound t N L) (hx : x ∈ L) : x ≠ kNil := by
  have := h.lt_capacity x hx
  have := h.capacity_le
  unfold kMaxSessions kNil at *
  omega

theorem Sound.ne_free (h : Sound t N L) (hx : x ∈ L) : x ≠ kFree := by
  have := h.lt_capacity x hx
  have := h.capacity_le
  unfold kMaxSessions kFree at *
  omega

theorem Sound.live_iff (h : Sound t N L) : ∀ i, t.Live i ↔ i ∈ L := by
  intro i
  constructor
  · rintro ⟨hi, hp⟩; exact (h.mark i hi).mpr hp
  · intro hi
    have hlt := h.lt_capacity i hi
    exact ⟨hlt, (h.mark i hlt).mp hi⟩

theorem Sound.live_eq (h : Sound t N L) : {i | t.Live i} = L := Set.ext h.live_iff

theorem Sound.finite (h : Sound t N L) : N.Finite :=
  (Set.finite_lt_nat t.capacity).subset fun i hi => h.lt_capacity i (h.sub hi)

/-- The hash is not looked at. -/
theorem Sound.withHash (h : Sound t N L) (hash : RteHash FiveTuple ℕ) : Sound { t with hash := hash } N L :=
  ⟨h.capacity_le, h.lt_capacity, h.free_nodup, h.free_mem, h.wf, h.sub, h.mark⟩

/-- The keys do not see the timer lists. -/
theorem Keys.of_sameBut (h : Keys t L) (hs : SameBut t t') : Keys t' L := by
  refine ⟨fun k i => ?_, ?_⟩
  · rw [Session.hasKey_of_core (hs.core i), ← h.lookup_iff]
    unfold lookup
    rw [hs.hash]
  · rw [hs.capacity, hs.hash]; exact h.entries

/-- A step that only moves sessions between the lists, and marks none free,
keeps the table sound. -/
theorem Sound.of_links (h : Sound t N L) (hs : SameBut t t') (hw : t'.links.Wf kNil N') (hN : N' ⊆ L)
    (ho : ∀ i, i ∉ N' → t'.links.prev i = t.links.prev i ∨ (i ∈ L ∧ t'.links.prev i = kNil)) :
    Sound t' N' L := by
  refine ⟨hs.capacity ▸ h.capacity_le, hs.capacity ▸ h.lt_capacity, hs.freeStack ▸ h.free_nodup, ?_,
    hw, hN, fun i hi => ?_⟩
  · rw [hs.capacity, hs.freeStack]; exact h.free_mem
  rw [hs.capacity] at hi
  change i ∈ L ↔ t'.links.prev i ≠ kFree
  by_cases hiN : i ∈ N'
  · refine ⟨fun _ hf => ?_, fun _ => hN hiN⟩
    obtain ⟨h1, -⟩ := hw.prev_ok i hiN (by rw [hf]; decide)
    exact h.ne_free (hN h1) hf
  · rcases ho i hiN with he | ⟨hiL, he⟩
    · rw [he]; exact h.mark i hi
    · rw [he]; exact ⟨fun _ => by decide, fun _ => hiL⟩

theorem Sound.wheelUnlink (h : Sound t N L) (hx : x ∈ N) : Sound (t.wheelUnlink x) (N \ {x}) L := by
  have hl := links_wheelUnlink t x
  refine h.of_links (sameBut_wheelUnlink t x) (hl ▸ h.wf.unlink hx) (fun i hi => h.sub hi.1) ?_
  intro i hi
  rw [hl]
  by_cases hix : i = x
  · subst hix
    exact Or.inr ⟨h.sub hx, IList.unlink_prev_self _ _⟩
  · exact Or.inl (h.wf.unlink_prev_of_notMem hx fun hiN => hi ⟨hiN, hix⟩)

theorem Sound.wheelLink (h : Sound t N L) (hx : x ∈ L) (hxN : x ∉ N) (tick : ℕ) :
    Sound (t.wheelLink x tick) (insert x N) L := by
  have hl := links_wheelLink t x tick
  refine h.of_links (sameBut_wheelLink t x tick) (hl ▸ h.wf.push hxN (h.ne_nil hx) _)
    (Set.insert_subset hx h.sub) ?_
  intro i hi
  obtain ⟨hix, hiN⟩ := not_or.mp hi
  rw [hl]
  exact Or.inl (h.wf.push_prev_of_notMem _ hiN hix)

/-- The popped session is on no list, and has no neighbours. -/
theorem Sound.pendingPop (h : Sound t N L) (hp : t.pending ≠ kNil) :
    Sound t.pendingPop.1 (N \ {t.pending}) L ∧ t.pending ∈ N ∧
      (t.pendingPop.1.sessions t.pending).wheelPrev = kNil ∧
      (t.pendingPop.1.sessions t.pending).wheelNext = kNil := by
  have hl := links_pendingPop t
  have hx : t.pending ∈ N := (h.wf.head_ok none hp).1
  have hprev : (t.pendingPop.1.sessions t.pending).wheelPrev = kNil := by
    change t.pendingPop.1.links.prev t.pending = kNil
    rw [hl]; exact IList.unlink_prev_self _ _
  have hnext : (t.pendingPop.1.sessions t.pending).wheelNext = kNil := by
    change t.pendingPop.1.links.next t.pending = kNil
    rw [hl]; exact IList.unlink_next_self _ _
  refine ⟨h.of_links (sameBut_pendingPop t) ?_ (fun i hi => h.sub hi.1) ?_, hx, hprev, hnext⟩
  · rw [hl]
    refine (h.wf.unlink hx).congr (fun _ _ => rfl) (fun _ _ => rfl) (fun y hy => ?_) rfl
    exact update_of_ne hy.2 ..
  · intro i hi
    by_cases hix : i = t.pending
    · exact Or.inr ⟨hix ▸ h.sub hx, hix ▸ hprev⟩
    · rw [hl]
      exact Or.inl (h.wf.unlink_prev_of_notMem hx fun hiN => hi ⟨hiN, hix⟩)

/-! ### `takeSlot` -/

theorem Sound.chain_length (h : Sound t N L) {c : List ℕ} {k : Option ℕ}
    (hc : IList.IsChain t.links.next kNil (t.links.head k) c) (hnd : c.Nodup) :
    c.length ≤ t.capacity := by
  have hsub : c ⊆ List.range t.capacity := fun i hi =>
    List.mem_range.mpr (h.lt_capacity i (h.sub (h.wf.head_chain_mem hc i hi).1))
  simpa using (hnd.subperm hsub).length_le

/-- `takeSlot` returns, and moves the list of the current slot to `pending`. -/
theorem Sound.takeSlot (h : Sound t N L) : ∃ t' c,
    t.takeSlot = some t' ∧ Sound t' N L ∧
      IList.IsChain t.links.next kNil (t.links.head (some (t.curTick % kWheelSlots))) c ∧ c.Nodup ∧
      t'.links = (t.links.clear kNil (some (t.curTick % kWheelSlots))).pushAll kNil none c ∧
      t'.curTick = (t.curTick + 1) % 2 ^ 64 ∧ SameBut t { t' with curTick := t.curTick } ∧
      ∀ i, (t'.sessions i).slotTick = (t.sessions i).slotTick := by
  obtain ⟨c, hc, hnd⟩ := h.wf.exists_chain h.finite (some (t.curTick % kWheelSlots))
  have hl := links_setHead t (t.curTick % kWheelSlots)
  have hc' : IList.IsChain (t.setHead (some (t.curTick % kWheelSlots)) kNil).links.next kNil
      (t.slots (t.curTick % kWheelSlots)) c := by
    rw [hl]; exact hc
  obtain ⟨u, hu, hs, hul, hst⟩ := drainSlot_spec hc' hnd (Nat.lt_succ_of_le (h.chain_length hc hnd))
  rw [hl] at hul
  have hs' : SameBut t u := (SameBut.refl t).setHead _ _ |>.trans hs
  have hg : Sound u N L := by
    refine h.of_links hs' (hul ▸ h.wf.move_chain hc hnd none) h.sub fun i hi => Or.inl ?_
    rw [hul]
    exact h.wf.move_chain_prev hc hnd none hi
  refine ⟨{ u with curTick := (t.curTick + 1) % 2 ^ 64 }, c, ?_,
    ⟨hg.capacity_le, hg.lt_capacity, hg.free_nodup, hg.free_mem, hg.wf, hg.sub, hg.mark⟩,
    hc, hnd, hul, rfl, ⟨hs'.hash, hs'.freeStack, hs'.capacity, rfl, hs'.core⟩, ?_⟩
  · unfold SessionTable.takeSlot
    simp only [hu, Option.map_some, hs'.curTick]
  · intro i
    rw [hst, setHead_sessions]

/-! ### `remove` -/

/-- `wheel_unlink` does not read the hash. -/
theorem wheelUnlink_hash (t : SessionTable) (hash : RteHash FiveTuple ℕ) (idx : ℕ) :
    ({ t with hash := hash } : SessionTable).wheelUnlink idx = { t.wheelUnlink idx with hash := hash } := by
  have hk : ({ t with hash := hash } : SessionTable).listOf idx = t.listOf idx := rfl
  unfold wheelUnlink
  simp only [hk]
  cases t.listOf idx <;> split <;> split <;> rfl

/-- The hash without the keys of a session. -/
def delKeys (hash : RteHash FiveTuple ℕ) (s : Session) : RteHash FiveTuple ℕ :=
  if s.fullnat then (hash.delKey s.client).delKey s.server else hash.delKey s.client

theorem lookupData_delKeys (hash : RteHash FiveTuple ℕ) (s : Session) (k : FiveTuple) :
    (delKeys hash s).lookupData k = if s.HasKey k then none else hash.lookupData k := by
  unfold delKeys Session.HasKey
  split
  · rename_i hf
    rw [RteHash.laws.lookup_del, RteHash.laws.lookup_del]
    by_cases h1 : k = s.server <;> by_cases h2 : k = s.client <;> simp [h1, h2, hf]
  · rename_i hf
    rw [RteHash.laws.lookup_del]
    simp [hf]

theorem remove_eq (t : SessionTable) (idx : ℕ) : t.remove idx =
    { (t.wheelUnlink idx).modify idx fun s => { s with wheelPrev := kFree } with
      hash := delKeys t.hash (t.sessions idx)
      freeStack := idx :: t.freeStack } := by
  unfold remove
  simp only [wheelUnlink_hash]
  change { (t.wheelUnlink idx).modify idx fun s => { s with wheelPrev := kFree } with
    hash := delKeys t.hash (t.sessions idx), freeStack := idx :: (t.wheelUnlink idx).freeStack } = _
  rw [(sameBut_wheelUnlink t idx).freeStack]

theorem remove_core (t : SessionTable) (x i : ℕ) : ((t.remove x).sessions i).core = (t.sessions i).core := by
  have h : SameBut t ((t.wheelUnlink x).modify x fun s => { s with wheelPrev := kFree }) := by
    refine .modify (sameBut_wheelUnlink t x) x ?_
    intro s; rfl
  rw [remove_eq]
  exact h.core i

/-- `wheel_unlink` of a session that is on no list clears the head of the
list its `slot_tick` names. -/
theorem Sound.wheelUnlink_isolated (h : Sound t N L)
    (hp : (t.sessions x).wheelPrev = kNil) (hn : (t.sessions x).wheelNext = kNil) :
    Sound (t.wheelUnlink x) N L := by
  have hl := links_wheelUnlink t x
  rw [IList.unlink_isolated hp hn] at hl
  refine h.of_links (sameBut_wheelUnlink t x) (hl ▸ h.wf.clear _) h.sub fun i _ => Or.inl ?_
  rw [hl]
  rfl

/-- A session that is on no list may be written to. -/
theorem wf_modify (h : t.links.Wf kNil N) (hx : x ∉ N) (f : Session → Session) : (t.modify x f).links.Wf kNil N := by
  have hne : ∀ i ∈ N, i ≠ x := fun i hi e => hx (e ▸ hi)
  refine h.congr ?_ ?_ ?_ ?_
  · intro i hi; simp [links, sessions_modify, hne i hi]
  · intro i hi; simp [links, sessions_modify, hne i hi]
  · intro i hi; simp [links, listOf, sessions_modify, hne i hi]
  · funext k; cases k <;> rfl

/-- Marking a session that is on no list free releases it. -/
theorem Sound.release (h : Sound t N L) (hx : x ∈ L) (hxN : x ∉ N) :
    Sound { t.modify x fun s => { s with wheelPrev := kFree } with freeStack := x :: t.freeStack } N
      (L \ {x}) := by
  refine ⟨h.capacity_le, fun i hi => h.lt_capacity i hi.1, ?_, fun i => ?_, ?_,
    fun i hi => ⟨h.sub hi, fun e => hxN (e ▸ hi)⟩, fun i hi => ?_⟩
  · exact List.nodup_cons.mpr ⟨fun hm => ((h.free_mem x).mp hm).2 hx, h.free_nodup⟩
  · change i ∈ x :: t.freeStack ↔ i < t.capacity ∧ _
    rw [List.mem_cons, h.free_mem]
    by_cases hix : i = x
    · subst hix; simp [h.lt_capacity i hx]
    · simp [hix]
  · exact wf_modify h.wf hxN fun s => { s with wheelPrev := kFree }
  · have := h.mark i hi
    by_cases hix : i = x
    · simp [hix, sessions_modify]
    · simp [hix, sessions_modify, this]

theorem Sound.remove (h : Sound t N L) (hx : x ∈ L)
    (hlink : x ∈ N ∨ (t.sessions x).wheelPrev = kNil ∧ (t.sessions x).wheelNext = kNil) :
    Sound (t.remove x) (N \ {x}) (L \ {x}) := by
  have hu : Sound (t.wheelUnlink x) (N \ {x}) L := by
    by_cases hxN : x ∈ N
    · exact h.wheelUnlink hxN
    · obtain ⟨hp, hn⟩ := hlink.resolve_left hxN
      rw [Set.sdiff_singleton_eq_self hxN]
      exact h.wheelUnlink_isolated hp hn
  have hr := (hu.release hx (by simp)).withHash (delKeys t.hash (t.sessions x))
  rw [(sameBut_wheelUnlink t x).freeStack] at hr
  rw [remove_eq]
  exact hr

/-- The keys of the session leave the hash with it. -/
theorem Keys.remove (h : Keys t L) (hx : x ∈ L) : Keys (t.remove x) (L \ {x}) := by
  have hhash : (t.remove x).hash = delKeys t.hash (t.sessions x) := by rw [remove_eq]
  refine ⟨fun k i => ?_, ?_⟩
  · unfold lookup
    rw [hhash, lookupData_delKeys, Session.hasKey_of_core (remove_core t x i)]
    have hi := h.lookup_iff k i
    have hx' := (h.lookup_iff k x).mpr
    unfold lookup at hi hx'
    by_cases hk : (t.sessions x).HasKey k
    · -- `k` led to `x`, so no other session has it
      simp only [hk, ↓reduceIte, reduceCtorEq, false_iff, Set.mem_sdiff, Set.mem_singleton_iff]
      rintro ⟨⟨hiL, hix⟩, hik⟩
      have h1 := hi.mpr ⟨hiL, hik⟩
      rw [hx' ⟨hx, hk⟩] at h1
      exact hix (Option.some.inj h1).symm
    · simp only [hk, ↓reduceIte, hi, Set.mem_sdiff, Set.mem_singleton_iff]
      constructor
      · rintro ⟨hiL, hik⟩
        exact ⟨⟨hiL, fun e => hk (e ▸ hik)⟩, hik⟩
      · rintro ⟨⟨hiL, -⟩, hik⟩
        exact ⟨hiL, hik⟩
  · have hcap : (t.remove x).capacity = t.capacity := by
      rw [remove_eq]; exact (sameBut_wheelUnlink t x).capacity
    rw [hhash, hcap]
    unfold delKeys
    split <;> simp only [RteHash.laws.entries_del, h.entries]

theorem Good.remove (h : Good t L L) (hx : x ∈ L) : Good (t.remove x) (L \ {x}) (L \ {x}) :=
  ⟨h.toSound.remove hx (Or.inl hx), h.keys.remove hx⟩

/-! ### `create` -/

/-- A session as `create` fills it in. -/
def newSession (client : FiveTuple) (server : Option FiveTuple) (nowTick timeout : ℕ) : Session :=
  match server with
  | none => { client := client, createdTick := nowTick, expireTick := deadline nowTick timeout }
  | some server =>
    { client := client, server := server, flags := SF_FULLNAT,
      createdTick := nowTick, expireTick := deadline nowTick timeout }

/-- The hash with the keys of a new session. -/
def addKeys (hash : RteHash FiveTuple ℕ) (client : FiveTuple) (server : Option FiveTuple) (idx : ℕ) :
    Option (RteHash FiveTuple ℕ) :=
  (hash.addKeyData client idx).bind fun hash =>
    match server with
    | none => some hash
    | some server => hash.addKeyData server idx

theorem create_eq {client : FiveTuple} {server : Option FiveTuple} {idx : ℕ} {rest : List ℕ}
    {hash : RteHash FiveTuple ℕ} (hf : t.freeStack = idx :: rest)
    (hh : addKeys t.hash client server idx = some hash) (nowTick timeout : ℕ) :
    t.create client server nowTick timeout =
      ((({ t with hash := hash, freeStack := rest } : SessionTable).modify idx fun _ =>
        newSession client server nowTick timeout).wheelLink idx (deadline nowTick timeout), some idx) := by
  unfold addKeys at hh
  unfold SessionTable.create
  obtain ⟨h1, he1, he2⟩ := Option.bind_eq_some_iff.mp hh
  cases server with
  | none =>
    obtain rfl := Option.some.inj he2
    simp only [hf, he1]
    rfl
  | some s =>
    simp only at he2
    simp only [hf, he1, he2]
    rfl

/-- Whatever the keys: `create` fails and changes the hash at most, or it links
the session on top of the free stack. -/
theorem create_outcome (t : SessionTable) (client : FiveTuple) (server : Option FiveTuple) (now timeout : ℕ) :
    (∃ hash, t.create client server now timeout = ({ t with hash := hash }, none)) ∨
    ∃ idx rest hash, t.freeStack = idx :: rest ∧ t.create client server now timeout =
      ((({ t with hash := hash, freeStack := rest } : SessionTable).modify idx fun _ =>
        newSession client server now timeout).wheelLink idx (deadline now timeout), some idx) := by
  by_cases hf : t.freeStack = []
  · have he : t.create client server now timeout = (t, none) := by simp only [SessionTable.create, hf]
    exact Or.inl ⟨t.hash, he⟩
  obtain ⟨idx, rest, hf⟩ := List.exists_cons_of_ne_nil hf
  cases hh : addKeys t.hash client server idx with
  | some hash => exact Or.inr ⟨idx, rest, hash, hf, create_eq hf hh now timeout⟩
  | none =>
    refine Or.inl ?_
    unfold addKeys at hh
    cases h1 : t.hash.addKeyData client idx with
    | none =>
      have he : t.create client server now timeout = (t, none) := by simp only [SessionTable.create, hf, h1]
      exact ⟨t.hash, he⟩
    | some hash =>
      rw [h1] at hh
      cases server with
      | none => cases hh
      | some s =>
        have h2 : hash.addKeyData s idx = none := hh
        have he : t.create client (some s) now timeout = ({ t with hash := hash.delKey client }, none) := by
          simp only [SessionTable.create, hf, h1, h2]
        exact ⟨_, he⟩

theorem lookupData_addKeys {h h' : RteHash FiveTuple ℕ} {client : FiveTuple}
    {server : Option FiveTuple} {idx : ℕ} (hh : addKeys h client server idx = some h') (k : FiveTuple) :
    h'.lookupData k = if k = client ∨ server = some k then some idx else h.lookupData k := by
  unfold addKeys at hh
  obtain ⟨h1, he1, he2⟩ := Option.bind_eq_some_iff.mp hh
  have hl := RteHash.laws.lookup_add he1 k
  cases server with
  | none =>
    obtain rfl := Option.some.inj he2
    simp [hl]
  | some s =>
    rw [RteHash.laws.lookup_add he2, hl]
    by_cases h1 : k = s <;> by_cases h2 : k = client <;> simp [h1, h2, eq_comm]

theorem entries_addKeys {h h' : RteHash FiveTuple ℕ} {client : FiveTuple}
    {server : Option FiveTuple} {idx : ℕ} (hh : addKeys h client server idx = some h') :
    h'.entries = h.entries := by
  unfold addKeys at hh
  obtain ⟨h1, he1, he2⟩ := Option.bind_eq_some_iff.mp hh
  have hl := RteHash.laws.entries_add he1
  cases server with
  | none => obtain rfl := Option.some.inj he2; exact hl
  | some s => rw [RteHash.laws.entries_add he2, hl]

theorem addKeys_isSome {h : RteHash FiveTuple ℕ} (hc : h.count + 1 < h.entries) (client : FiveTuple)
    (server : Option FiveTuple) (idx : ℕ) : (addKeys h client server idx).isSome := by
  unfold addKeys
  obtain ⟨h1, he1⟩ := Option.isSome_iff_exists.mp
    ((RteHash.laws.add_isSome h client idx).mpr (Or.inr (by omega)))
  rw [he1]
  cases server with
  | none => rfl
  | some s =>
    have h2 := RteHash.laws.count_add he1
    have h3 := RteHash.laws.entries_add he1
    exact (RteHash.laws.add_isSome h1 s idx).mpr (Or.inr (by omega))

/-- The live sessions are counted by `active`. -/
theorem Sound.active_eq (h : Sound t N L) :
    ((Finset.range t.capacity).filter fun i => i ∉ t.freeStack).card = t.active := by
  have hsub : t.freeStack.toFinset ⊆ Finset.range t.capacity := fun i hi => by
    have := (h.free_mem i).mp (List.mem_toFinset.mp hi)
    simpa using this.1
  have hset : ((Finset.range t.capacity).filter fun i => i ∉ t.freeStack) =
      Finset.range t.capacity \ t.freeStack.toFinset := by
    ext i; simp
  rw [hset, Finset.card_sdiff_of_subset hsub, Finset.card_range, List.toFinset_card_of_nodup h.free_nodup]
  rfl

/-- A session has at most two keys. -/
theorem Good.count_le (h : Good t N L) : t.hash.count ≤ 2 * t.active := by
  let live := (Finset.range t.capacity).filter fun i => i ∉ t.freeStack
  let keys := live.image (fun i => (t.sessions i).client) ∪ live.image (fun i => (t.sessions i).server)
  have hsub : ∀ k, (t.hash.lookupData k).isSome → k ∈ keys := by
    intro k hk
    obtain ⟨i, hi⟩ := Option.isSome_iff_exists.mp hk
    obtain ⟨hiL, hik⟩ := (h.keys.lookup_iff k i).mp hi
    have hlive : i ∈ live := by
      simp [live, h.free_mem, h.lt_capacity i hiL, hiL]
    rcases hik with rfl | ⟨-, rfl⟩
    · exact Finset.mem_union_left _ (Finset.mem_image_of_mem _ hlive)
    · exact Finset.mem_union_right _ (Finset.mem_image_of_mem (fun i => (t.sessions i).server) hlive)
  calc t.hash.count
      ≤ keys.card := RteHash.laws.count_le_card hsub
    _ ≤ live.card + live.card :=
        (Finset.card_union_le _ _).trans (Nat.add_le_add Finset.card_image_le Finset.card_image_le)
    _ = 2 * t.active := by rw [h.active_eq]; omega

theorem newSession_hasKey (client : FiveTuple) (server : Option FiveTuple) (now timeout : ℕ)
    (k : FiveTuple) :
    (newSession client server now timeout).HasKey k ↔ k = client ∨ server = some k := by
  cases server with
  | none => simp [newSession, Session.HasKey, Session.fullnat, hasFlag]
  | some s =>
    have : hasFlag SF_FULLNAT SF_FULLNAT = true := by decide
    simp [newSession, Session.HasKey, Session.fullnat, this, eq_comm]

/-- The table of `create` before the new session is linked. -/
theorem Sound.alloc (h : Sound t L L) {idx : ℕ} {rest : List ℕ} (hf : t.freeStack = idx :: rest)
    (hash : RteHash FiveTuple ℕ) (client : FiveTuple) (server : Option FiveTuple) (now timeout : ℕ) :
    idx ∉ L ∧ Sound (({ t with hash := hash, freeStack := rest } : SessionTable).modify idx fun _ =>
      newSession client server now timeout) L (insert idx L) := by
  have hidx := (h.free_mem idx).mp (by rw [hf]; simp)
  have hnd := h.free_nodup
  rw [hf] at hnd
  obtain ⟨hir, hnd⟩ := List.nodup_cons.mp hnd
  refine ⟨hidx.2, h.capacity_le, ?_, hnd, fun i => ?_, ?_, fun i hi => Or.inr hi, fun i hi => ?_⟩
  · rintro i (rfl | hi)
    · exact hidx.1
    · exact h.lt_capacity i hi
  · have hm := h.free_mem i
    rw [hf, List.mem_cons] at hm
    change i ∈ rest ↔ i < t.capacity ∧ ¬ (i = idx ∨ i ∈ L)
    by_cases hi : i = idx
    · subst hi; simp [hir]
    · simpa [hi] using hm
  · exact wf_modify h.wf hidx.2 fun _ => newSession client server now timeout
  · have := h.mark i hi
    rw [sessions_modify]
    by_cases hix : i = idx
    · subst hix
      cases server <;> simp [newSession, kFree]
    · simpa [hix] using this

theorem Keys.alloc (h : Keys t L) {client : FiveTuple} {server : Option FiveTuple} {idx : ℕ}
    {hash : RteHash FiveTuple ℕ} (hc : t.lookup client = none)
    (hs : ∀ s, server = some s → t.lookup s = none) (hidx : idx ∉ L)
    (hh : addKeys t.hash client server idx = some hash) (rest : List ℕ) (now timeout : ℕ) :
    Keys (({ t with hash := hash, freeStack := rest } : SessionTable).modify idx fun _ =>
      newSession client server now timeout) (insert idx L) := by
  refine ⟨fun k i => ?_, ?_⟩
  · change hash.lookupData k = some i ↔ _
    rw [lookupData_addKeys hh, sessions_modify]
    by_cases hk : k = client ∨ server = some k
    · have hnone : t.lookup k = none := by
        rcases hk with rfl | hk
        · exact hc
        · exact hs k hk
      simp only [hk, ↓reduceIte, Option.some.injEq, Set.mem_insert_iff]
      by_cases hi : i = idx
      · subst hi; simp [newSession_hasKey, hk]
      · simp only [hi, ↓reduceIte, false_or, ← h.lookup_iff, hnone, reduceCtorEq, iff_false]
        exact Ne.symm hi
    · simp only [hk, ↓reduceIte, Set.mem_insert_iff]
      have hl : t.hash.lookupData k = some i ↔ _ := h.lookup_iff k i
      by_cases hi : i = idx
      · subst hi
        simp only [↓reduceIte, newSession_hasKey, hk, and_false, iff_false]
        exact fun he => hidx (hl.mp he).1
      · simpa [hi] using hl
  · rw [modify_hash]
    exact (entries_addKeys hh).trans h.entries

theorem Sound.free_le (h : Sound t N L) : t.freeStack.length ≤ t.capacity := by
  have hsub : t.freeStack ⊆ List.range t.capacity := fun i hi =>
    List.mem_range.mpr ((h.free_mem i).mp hi).1
  simpa using (h.free_nodup.subperm hsub).length_le

/-- While a session is free the hash has room for its keys. -/
theorem Good.addKeys_isSome (h : Good t L L) (hf : t.freeStack ≠ []) (client : FiveTuple)
    (server : Option FiveTuple) (idx : ℕ) : (addKeys t.hash client server idx).isSome := by
  have hcount := h.count_le
  have hlen := h.free_le
  have hpos := List.length_pos_iff.mpr hf
  refine SessionTable.addKeys_isSome ?_ client server idx
  rw [h.keys.entries]
  unfold active at hcount
  omega

/-- `create` fails only on a full table, and otherwise links a new session. -/
theorem Good.create (h : Good t L L) {client : FiveTuple} {server : Option FiveTuple}
    (hc : t.lookup client = none) (hs : ∀ s, server = some s → t.lookup s = none) (now timeout : ℕ) :
    (t.freeStack = [] ∧ t.create client server now timeout = (t, none)) ∨
    ∃ idx rest hash u, t.freeStack = idx :: rest ∧ idx ∉ L ∧ Good u L (insert idx L) ∧
      u = ({ t with hash := hash, freeStack := rest } : SessionTable).modify idx (fun _ =>
        newSession client server now timeout) ∧
      t.create client server now timeout = (u.wheelLink idx (deadline now timeout), some idx) := by
  cases hf : t.freeStack with
  | nil => exact Or.inl ⟨rfl, by simp [SessionTable.create, hf]⟩
  | cons idx rest =>
    obtain ⟨hash, hh⟩ := Option.isSome_iff_exists.mp
      (h.addKeys_isSome (by rw [hf]; exact List.cons_ne_nil _ _) client server idx)
    obtain ⟨hidx, hg⟩ := h.toSound.alloc hf hash client server now timeout
    exact Or.inr ⟨idx, rest, hash, _, rfl, hidx, ⟨hg, h.keys.alloc hc hs hidx hh rest now timeout⟩, rfl,
      create_eq hf hh now timeout⟩

/-! ### `touch`, and the writes of the packet path -/

theorem links_modify {f : Session → Session} (hf : Session.SameInTable (t.sessions x) (f (t.sessions x))) :
    (t.modify x f).links = t.links := by
  obtain ⟨-, -, -, h1, h2, h3, h4⟩ := hf
  have hk : (t.modify x f).listOf = t.listOf := by
    funext i
    simp only [listOf, sessions_modify]
    by_cases hi : i = x
    · simp [hi, h1, h4]
    · simp [hi]
  ext i
  · simp only [links, sessions_modify]
    by_cases hi : i = x
    · simp [hi, h3]
    · simp [hi]
  · simp only [links, sessions_modify]
    by_cases hi : i = x
    · simp [hi, h2]
    · simp [hi]
  · simp [links]
  · simp [links, hk]

theorem Sound.modify (h : Sound t N L) {f : Session → Session}
    (hf : Session.SameInTable (t.sessions x) (f (t.sessions x))) : Sound (t.modify x f) N L := by
  refine ⟨h.capacity_le, h.lt_capacity, h.free_nodup, h.free_mem, links_modify hf ▸ h.wf, h.sub, fun i hi => ?_⟩
  obtain ⟨-, -, -, -, hprev, -, -⟩ := hf
  rw [h.mark i hi, sessions_modify]
  by_cases hix : i = x
  · simp [hix, hprev]
  · simp [hix]

theorem Keys.modify (h : Keys t L) {f : Session → Session}
    (hf : Session.SameInTable (t.sessions x) (f (t.sessions x))) : Keys (t.modify x f) L := by
  obtain ⟨h1, h2, h3, -, -, -, -⟩ := hf
  refine ⟨fun k i => ?_, h.entries⟩
  change t.lookup k = some i ↔ _
  rw [h.lookup_iff, sessions_modify]
  by_cases hi : i = x
  · simp [hi, Session.HasKey, h1, h2, h3]
  · simp [hi]

theorem Good.modify (h : Good t N L) {f : Session → Session}
    (hf : Session.SameInTable (t.sessions x) (f (t.sessions x))) : Good (t.modify x f) N L :=
  ⟨h.toSound.modify hf, h.keys.modify hf⟩

theorem Good.wheelLink (h : Good t N L) (hx : x ∈ L) (hxN : x ∉ N) (tick : ℕ) :
    Good (t.wheelLink x tick) (insert x N) L :=
  ⟨h.toSound.wheelLink hx hxN tick, h.keys.of_sameBut (sameBut_wheelLink t x tick)⟩

theorem Good.relink (h : Good t L L) (hx : x ∈ L) (tick : ℕ) :
    Good ((t.wheelUnlink x).wheelLink x tick) L L := by
  have h1 := (h.toSound.wheelUnlink hx).wheelLink hx (by simp) tick
  rw [Set.insert_sdiff_singleton, Set.insert_eq_self.mpr hx] at h1
  exact ⟨h1, h.keys.of_sameBut ((sameBut_wheelUnlink t x).trans (sameBut_wheelLink _ x tick))⟩

/-- `touch` relinks a session whose deadline moves forward, and then writes
the deadline. -/
theorem Good.touch (h : Good t L L) (hx : x ∈ L) (now timeout : ℕ) : Good (t.touch x now timeout) L L := by
  unfold SessionTable.touch
  simp only
  split
  · exact (h.relink hx _).modify ⟨rfl, rfl, rfl, rfl, rfl, rfl, rfl⟩
  · exact h.modify ⟨rfl, rfl, rfl, rfl, rfl, rfl, rfl⟩

theorem sound_init {capacity : ℕ} (hcap : capacity ≤ kMaxSessions) (nowTick : ℕ) :
    Sound (init capacity nowTick) ∅ ∅ := by
  refine ⟨hcap, by simp, List.nodup_range, by simp [init], ?_, by simp, ?_⟩
  · refine ⟨by simp, by simp, by simp, fun k hk => ?_⟩
    cases k <;> exact absurd rfl hk
  · intro i hi
    have hi' : i < capacity := hi
    simp [init, hi', kFree]

theorem good_init {capacity : ℕ} (hcap : capacity ≤ kMaxSessions) (nowTick : ℕ) :
    Good (init capacity nowTick) ∅ ∅ := by
  refine ⟨sound_init hcap nowTick, by simp [init, lookup, RteHash.laws.lookup_create], ?_⟩
  simp only [init, RteHash.laws.entries_create]
  unfold kMaxSessions at hcap
  omega

end SessionTable
end L4Lb
