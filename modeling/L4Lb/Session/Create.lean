/-
# `create`: its contract, and taking it back

The comment at `SessionTable::create` says that it returns `nullptr` when the
table is full or a key is in use. `CreateContract` states that, for any table.
`rte_hash_add_key_data` overwrites the value of a key that is there, so the
second half is kept only by callers that ask `key_in_use` first: the contract
holds exactly where no key is bound yet, or nothing is free
(`createContract_iff`).

The packet path makes a session before it knows whether the packet can be
sent, and removes it again if not. `Beside t i t'`: `t'` is `t` with a session
at `i` beside the others. `create` gives such a table, the writes to the new
session and its `touch` keep it one, and `remove` gives `t` back
(`Beside.remove`).
-/
import L4Lb.Session.Steps

namespace L4Lb
namespace SessionTable

variable {t t' u : SessionTable} {i : ℕ} {client : FiveTuple} {server : Option FiveTuple} {now timeout : ℕ}

/-! ### The contract -/

/-- A live session is found under the key. -/
def Bound (t : SessionTable) (k : FiveTuple) : Prop := ∃ i, t.lookup k = some i ∧ t.Live i

/-- One of the keys of a new session is bound. -/
def Conflict (t : SessionTable) (client : FiveTuple) (server : Option FiveTuple) : Prop :=
  t.Bound client ∨ ∃ s, server = some s ∧ t.Bound s

/-- What the comment at `create` promises. -/
structure CreateContract (t : SessionTable) (client : FiveTuple) (server : Option FiveTuple)
    (now timeout : ℕ) : Prop where
  refuse : t.freeStack = [] ∨ t.Conflict client server →
    (t.create client server now timeout).2 = none ∧
    (∀ k, (t.create client server now timeout).1.lookup k = t.lookup k) ∧
    (t.create client server now timeout).1.freeStack = t.freeStack ∧
    (t.create client server now timeout).1.links = t.links
  keep : ∀ k i, t.lookup k = some i → t.Live i → (t.create client server now timeout).1.lookup k = some i
  make : ¬ (t.freeStack = [] ∨ t.Conflict client server) → ∃ i,
    (t.create client server now timeout).2 = some i ∧
    t.freeStack = i :: (t.create client server now timeout).1.freeStack ∧
    (t.create client server now timeout).1.lookup client = some i ∧
    ∀ s, server = some s → (t.create client server now timeout).1.lookup s = some i

theorem create_full (hf : t.freeStack = []) : t.create client server now timeout = (t, none) := by
  simp [SessionTable.create, hf]

/-- With a free session, and a hash that takes its keys, `create` makes one
and binds the keys to it, whatever they were bound to. -/
theorem create_free {rest : List ℕ} (hf : t.freeStack = i :: rest)
    (hadd : (addKeys t.hash client server i).isSome) (now timeout : ℕ) :
    (t.create client server now timeout).2 = some i ∧
    (t.create client server now timeout).1.freeStack = rest ∧
    ∀ k, (t.create client server now timeout).1.lookup k =
      if k = client ∨ server = some k then some i else t.lookup k := by
  obtain ⟨hash, hh⟩ := Option.isSome_iff_exists.mp hadd
  have hs := sameBut_wheelLink (({ t with hash := hash, freeStack := rest } : SessionTable).modify i fun _ =>
    newSession client server now timeout) i (deadline now timeout)
  rw [create_eq hf hh now timeout]
  refine ⟨rfl, hs.freeStack, fun k => ?_⟩
  unfold lookup
  rw [hs.hash, modify_hash]
  exact lookupData_addKeys hh k

/-- **`create` keeps its contract exactly where no key is in use.** On every
table on which `rte_hash_add_key_data` succeeds: if nothing is free it
returns `nullptr` and changes nothing; otherwise it makes a session, and that
is right only if no live session is found under the keys. -/
theorem createContract_iff (t : SessionTable) (client : FiveTuple) (server : Option FiveTuple) (now timeout : ℕ)
    (hadd : ∀ i ∈ t.freeStack, (addKeys t.hash client server i).isSome) :
    CreateContract t client server now timeout ↔ t.freeStack = [] ∨ ¬ t.Conflict client server := by
  cases hf : t.freeStack with
  | nil =>
    have he : t.create client server now timeout = (t, none) := create_full hf
    refine ⟨fun _ => Or.inl rfl, fun _ => ⟨fun _ => ?_, fun k i hk _ => ?_, fun hn => ?_⟩⟩
    · rw [he]
      exact ⟨rfl, fun _ => rfl, rfl, rfl⟩
    · rwa [he]
    · exact absurd (Or.inl hf) hn
  | cons i rest =>
    obtain ⟨hmade, hfree, hlook⟩ := create_free hf (hadd i (by simp [hf])) now timeout
    constructor
    · intro h
      refine Or.inr fun hc => ?_
      rw [(h.refuse (Or.inr hc)).1] at hmade
      simp at hmade
    · intro hno
      have hno : ¬ t.Conflict client server := hno.resolve_left (by simp)
      refine ⟨fun hr => ?_, fun k j hk hj => ?_, fun _ => ⟨i, hmade, by rw [hfree, hf], ?_, fun s hs => ?_⟩⟩
      · exact absurd (hr.resolve_left (by simp [hf])) hno
      · have hother : ¬ (k = client ∨ server = some k) := by
          rintro (rfl | hs)
          · exact hno (Or.inl ⟨j, hk, hj⟩)
          · exact hno (Or.inr ⟨k, hs, j, hk, hj⟩)
        rw [hlook, if_neg hother, hk]
      · rw [hlook, if_pos (Or.inl rfl)]
      · rw [hlook, if_pos (Or.inr hs)]

theorem createContract_iff_oneSession :
    CreateContract oneSession ⟨9, 2, 3, 4, 6⟩ none 1 5 ∧ oneSession.freeStack = [1] := by
  refine ⟨(createContract_iff oneSession ⟨9, 2, 3, 4, 6⟩ none 1 5 ?_).mpr (Or.inr ?_), rfl⟩
  · intro i _
    exact (reach_oneSession.fit (by decide)).addKeys_isSome (by decide) _ _ i
  · rintro (⟨i, hi, -⟩ | ⟨s, hs, -⟩)
    · rw [show oneSession.lookup ⟨9, 2, 3, 4, 6⟩ = none from rfl] at hi
      simp at hi
    · simp at hs

/-- The client key of the one session of a table is given away: the session
stays live and is not found any more. -/
theorem create_takes_key : Reach 2 1 oneSession ∧ oneSession.Live 0 ∧
    oneSession.lookup ⟨1, 2, 3, 4, 6⟩ = some 0 ∧
    (oneSession.create ⟨1, 2, 3, 4, 6⟩ none 1 5).2 = some 1 ∧
    (oneSession.create ⟨1, 2, 3, 4, 6⟩ none 1 5).1.Live 0 ∧
    (oneSession.create ⟨1, 2, 3, 4, 6⟩ none 1 5).1.lookup ⟨1, 2, 3, 4, 6⟩ = some 1 ∧
    ¬ CreateContract oneSession ⟨1, 2, 3, 4, 6⟩ none 1 5 := by
  have hkey : oneSession.lookup ⟨1, 2, 3, 4, 6⟩ = some 0 := rfl
  have hlive : oneSession.Live 0 := by decide
  refine ⟨reach_oneSession, hlive, hkey, rfl, by decide, rfl, fun h => ?_⟩
  have := h.keep _ 0 hkey hlive
  simp [show (oneSession.create ⟨1, 2, 3, 4, 6⟩ none 1 5).1.lookup ⟨1, 2, 3, 4, 6⟩ = some 1 from rfl] at this

/-! ### Taking a new session back -/

/-- The table is as before: the live sessions with all they hold, what is
found under every key, the free stack and the timer lists. What a free
session of the array holds is not part of it. -/
structure SameTable (t t' : SessionTable) : Prop where
  live : ∀ i, t'.Live i ↔ t.Live i
  sessions : ∀ i, t.Live i → t'.sessions i = t.sessions i
  lookup : ∀ k, t'.lookup k = t.lookup k
  active : t'.active = t.active
  freeStack : t'.freeStack = t.freeStack
  head : t'.head = t.head
  curTick : t'.curTick = t.curTick

theorem SameTable.refl (t : SessionTable) : SameTable t t :=
  ⟨fun _ => Iff.rfl, fun _ _ => rfl, fun _ => rfl, rfl, rfl, rfl, rfl⟩

/-- `t'` is `t` with a session at `i` beside the others. -/
structure Beside (t : SessionTable) (i : ℕ) (t' : SessionTable) : Prop where
  fit : Fit t'
  live : t'.Live i
  fresh : ¬ t.Live i
  freeStack : t.freeStack = i :: t'.freeStack
  capacity : t'.capacity = t.capacity
  curTick : t'.curTick = t.curTick
  keys : ∀ k, (t'.sessions i).HasKey k → t.lookup k = none
  lookup : ∀ k, ¬ (t'.sessions i).HasKey k → t'.lookup k = t.lookup k
  core : ∀ j, j ≠ i → (t'.sessions j).core = (t.sessions j).core
  slotTick : ∀ j, j ≠ i → (t'.sessions j).slotTick = (t.sessions j).slotTick
  links : IList.SameOff i t.links (t'.links.unlink kNil i)

/-- A step on the new session alone. -/
theorem Beside.step (h : Beside t i t') (hfit : Fit u) (hlive : u.Live i) (hs : SameBut t' u)
    (hslot : ∀ j, j ≠ i → (u.sessions j).slotTick = (t'.sessions j).slotTick)
    (hl : IList.SameOff i (t'.links.unlink kNil i) (u.links.unlink kNil i)) : Beside t i u where
  fit := hfit
  live := hlive
  fresh := h.fresh
  freeStack := by rw [hs.freeStack, h.freeStack]
  capacity := hs.capacity.trans h.capacity
  curTick := hs.curTick.trans h.curTick
  keys k hk := h.keys k ((Session.hasKey_of_core (hs.core i) k).mp hk)
  lookup k hk := by
    rw [← h.lookup k fun hk' => hk ((Session.hasKey_of_core (hs.core i) k).mpr hk')]
    unfold SessionTable.lookup
    rw [hs.hash]
  core j hj := (hs.core j).trans (h.core j hj)
  slotTick j hj := (hslot j hj).trans (h.slotTick j hj)
  links := h.links.trans hl

/-- A write to the new session that leaves the table's own fields alone. -/
theorem Beside.modify (h : Beside t i t') {f : Session → Session}
    (hf : (t'.sessions i).SameInTable (f (t'.sessions i))) : Beside t i (t'.modify i f) := by
  have hother : ∀ j, j ≠ i → (t'.modify i f).sessions j = t'.sessions j := fun j hj => by
    rw [sessions_modify, if_neg hj]
  have hkeys : ∀ k, ((t'.modify i f).sessions i).HasKey k ↔ (t'.sessions i).HasKey k := fun k => by
    rw [sessions_modify, if_pos rfl]
    unfold Session.HasKey
    rw [hf.1, hf.2.1, hf.2.2.1]
  refine ⟨(h.fit.modify hf).fit, (live_modify hf i).mpr h.live, h.fresh, h.freeStack, h.capacity, h.curTick,
    fun k hk => h.keys k ((hkeys k).mp hk), fun k hk => h.lookup k fun hk' => hk ((hkeys k).mpr hk'),
    fun j hj => ?_, fun j hj => ?_, ?_⟩
  · rw [hother j hj, h.core j hj]
  · rw [hother j hj, h.slotTick j hj]
  · rw [links_modify hf]
    exact h.links

theorem Beside.wf_unlink (h : Beside t i t') :
    (t'.links.unlink kNil i).Wf kNil ({j | t'.Live j} \ {i}) := h.fit.wf.unlink h.live

theorem Beside.touch (h : Beside t i t') (now timeout : ℕ) : Beside t i (t'.touch i now timeout) := by
  unfold SessionTable.touch
  simp only
  split
  · have hg := h.fit.relink h.live (deadline now timeout)
    have hmoved : Beside t i ((t'.wheelUnlink i).wheelLink i (deadline now timeout)) := by
      refine h.step hg.fit ((hg.live_iff i).mpr h.live)
        ((sameBut_wheelUnlink t' i).trans (sameBut_wheelLink _ i _)) (fun j hj => ?_) ?_
      · rw [slotTick_wheelLink, if_neg hj, slotTick_wheelUnlink]
      · rw [links_wheelLink, links_wheelUnlink]
        exact h.wf_unlink.unlink_push (by simp) _
    exact hmoved.modify ⟨rfl, rfl, rfl, rfl, rfl, rfl, rfl⟩
  · exact h.modify ⟨rfl, rfl, rfl, rfl, rfl, rfl, rfl⟩

/-- `create` puts the new session beside the others. -/
theorem Fit.create_beside (h : Fit t) (hc : t.lookup client = none)
    (hs : ∀ s, server = some s → t.lookup s = none) (now timeout : ℕ)
    (hmade : (t.create client server now timeout).2 = some i) :
    Beside t i (t.create client server now timeout).1 := by
  rcases Good.create h hc hs now timeout with ⟨-, he⟩ | ⟨idx, rest, hash, u, hf, hidx, hu, hudef, he⟩
  · rw [he] at hmade
    simp at hmade
  obtain rfl : idx = i := by
    rw [he] at hmade
    exact Option.some.inj hmade
  obtain ⟨-, hfree, hlook⟩ := create_free hf (h.addKeys_isSome (by simp [hf]) client server idx) now timeout
  rw [he] at hfree hlook ⊢
  have hgood := hu.wheelLink (Set.mem_insert _ _) hidx (deadline now timeout)
  have hsame := sameBut_wheelLink u idx (deadline now timeout)
  have hother : ∀ j, j ≠ idx → u.sessions j = t.sessions j := fun j hj => by
    rw [hudef, sessions_modify, if_neg hj]
  have hkeys : ∀ k, ((u.wheelLink idx (deadline now timeout)).sessions idx).HasKey k ↔
      k = client ∨ server = some k := fun k => by
    rw [Session.hasKey_of_core (hsame.core idx), hudef, sessions_modify, if_pos rfl, newSession_hasKey]
  have hu_links : IList.SameOff idx t.links u.links := by
    refine ⟨fun j hj => ?_, fun j hj => ?_, fun j hj => ?_, ?_⟩
    · exact congrArg Session.wheelNext (hother j hj)
    · exact congrArg Session.wheelPrev (hother j hj)
    · change u.listOf j = t.listOf j
      unfold listOf
      rw [hother j hj]
    · rw [hudef]
      exact modify_head _ _ _
  refine ⟨hgood.fit, (hgood.live_iff idx).mpr (Set.mem_insert _ _), hidx, by rw [hfree, hf], ?_, ?_,
    fun k hk => ?_, fun k hk => ?_, fun j hj => ?_, fun j hj => ?_, ?_⟩
  · rw [hsame.capacity, hudef]
    rfl
  · rw [hsame.curTick, hudef]
    rfl
  · rcases (hkeys k).mp hk with rfl | hk
    · exact hc
    · exact hs k hk
  · rw [hlook, if_neg fun hk' => hk ((hkeys k).mpr hk')]
  · rw [hsame.core, hother j hj]
  · rw [slotTick_wheelLink, if_neg hj, hother j hj]
  · rw [links_wheelLink]
    exact hu_links.trans (hu.wf.unlink_push hidx _)

/-- **`remove` takes `create` back**, and what was done to the new session in
between. -/
theorem Beside.remove (h : Beside t i t') : SameTable t (t'.remove i) := by
  have hlinks := links_wheelUnlink t' i
  have hsess : ∀ j, j ≠ i → (t'.remove i).sessions j = t.sessions j := fun j hj => by
    have he : (t'.remove i).sessions j = (t'.wheelUnlink i).sessions j := by
      rw [remove_eq]
      exact Function.update_of_ne hj ..
    have hkey : (t'.wheelUnlink i).listOf j = t.listOf j := by
      have := h.links.key j hj
      rwa [← hlinks] at this
    have hslot : ((t'.wheelUnlink i).sessions j).slotTick = (t.sessions j).slotTick := by
      rw [slotTick_wheelUnlink, h.slotTick j hj]
    rw [he]
    refine Session.eq_of_core (((sameBut_wheelUnlink t' i).core j).trans (h.core j hj)) hslot ?_ ?_ ?_
    · have := h.links.prev j hj
      rwa [← hlinks] at this
    · have := h.links.next j hj
      rwa [← hlinks] at this
    · unfold listOf at hkey
      rw [hslot] at hkey
      revert hkey
      cases ((t'.wheelUnlink i).sessions j).inPending <;> cases (t.sessions j).inPending <;> simp
  have hcap : (t'.remove i).capacity = t.capacity := by
    rw [remove_eq]
    exact ((sameBut_wheelUnlink t' i).capacity).trans h.capacity
  have hfree : (t'.remove i).freeStack = t.freeStack := by rw [remove_eq, h.freeStack]
  refine ⟨fun j => ?_, fun j hj => hsess j fun e => h.fresh (e ▸ hj), fun k => ?_, ?_, hfree, ?_, ?_⟩
  · by_cases hj : j = i
    · subst hj
      have hgone : ¬ (t'.remove j).Live j := fun hl => ((h.fit.live_remove h.live j).mp hl).2 rfl
      exact iff_of_false hgone h.fresh
    · unfold Live
      rw [hcap, hsess j hj]
  · have hk : (t'.remove i).lookup k = if (t'.sessions i).HasKey k then none else t'.lookup k := by
      rw [remove_eq]
      exact lookupData_delKeys _ _ _
    rw [hk]
    split
    · exact (h.keys k ‹_›).symm
    · exact h.lookup k ‹_›
  · unfold active
    rw [hcap, hfree]
  · have hh : (t'.remove i).head = (t'.wheelUnlink i).head := by
      rw [remove_eq]
      funext k
      cases k <;> rfl
    rw [hh]
    have := h.links.head
    rwa [← hlinks] at this
  · rw [remove_eq]
    exact ((sameBut_wheelUnlink t' i).curTick).trans h.curTick

end SessionTable
end L4Lb
