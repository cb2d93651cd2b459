/-
# When every live session is on its timer list

`expire` pops a session off `pending`, which unlinks it, and then calls
`remove`, which unlinks it once more. The second `wheel_unlink` finds
`wheel_prev = kNil` and writes `kNil` to the head of the wheel slot the
session came from. A session that is in that slot by then is dropped from the
wheel (`expire_drops_session`). It is there if `expire` has just put it back
(its deadline is a whole number of turns of the wheel later), or if it was
linked while `pending` was left over from a call that ran out of budget.

`ExpireSafe` rules this out, on the table before the call. In a run whose
`expire` calls all meet it, every live session is on exactly one timer list,
the one its fields name, and a call that does not run out of budget leaves no
session whose deadline has passed (`run_linked`).
-/
import L4Lb.Session.Expire

open Function

namespace L4Lb
namespace SessionTable

variable {t t' : SessionTable} {N L : Set ℕ} {x : ℕ}

/-- Every live session is on the timer list its fields name, once, and on no
other. -/
def Linked (t : SessionTable) : Prop :=
  ∀ i, t.Live i → ∀ k, (t.timerList k).count i = if k = t.listOf i then 1 else 0

/-! ### The timer lists as chains -/

theorem Sound.timerList_eq (h : Sound t N L) {k : Option ℕ} {c : List ℕ}
    (hc : IList.IsChain t.links.next kNil (t.links.head k) c) (hnd : c.Nodup) : t.timerList k = c :=
  hc.walk_eq (h.chain_length hc hnd)

theorem Sound.timerList_chain (h : Sound t N L) (k : Option ℕ) :
    IList.IsChain t.links.next kNil (t.links.head k) (t.timerList k) ∧ (t.timerList k).Nodup := by
  obtain ⟨c, hc, hnd⟩ := h.wf.exists_chain h.finite k
  rw [h.timerList_eq hc hnd]
  exact ⟨hc, hnd⟩

theorem Sound.mem_timerList (h : Sound t N L) {k : Option ℕ} {i : ℕ} (hi : i ∈ t.timerList k) :
    i ∈ N ∧ t.listOf i = k :=
  h.wf.head_chain_mem (h.timerList_chain k).1 i hi

theorem timerList_none_of_nil (hp : t.pending = kNil) : t.timerList none = [] := by
  unfold timerList
  cases t.capacity <;> simp [IList.walk, head, hp]

/-- The table is sound, every live session is on the list its fields name, and
those on the wheel are in a slot that is still to come, no later than their
deadline. -/
structure Wheel (t : SessionTable) (L : Set ℕ) : Prop where
  sound : Sound t L L
  attached : IList.Attached kNil t.links L
  ahead : ∀ i ∈ L, ∀ s, t.listOf i = some s →
    t.curTick ≤ (t.sessions i).slotTick ∧ (t.sessions i).slotTick ≤ (t.sessions i).expireTick

theorem Wheel.mem_timerList (h : Wheel t L) {i : ℕ} (hi : i ∈ L) : i ∈ t.timerList (t.listOf i) :=
  h.attached.mem_chain hi rfl (h.sound.timerList_chain _).1

theorem Wheel.linked (h : Wheel t L) : Linked t := by
  intro i hi k
  have hiL := (h.sound.live_iff i).mp hi
  split
  · rename_i hk
    rw [hk]
    exact List.count_eq_one_of_mem (h.sound.timerList_chain _).2 (h.mem_timerList hiL)
  · rename_i hk
    refine List.count_eq_zero.mpr fun hm => hk ?_
    exact (h.sound.mem_timerList hm).2.symm

theorem listOf_some {i s : ℕ} (h : t.listOf i = some s) : s = (t.sessions i).slotTick % kWheelSlots := by
  unfold listOf at h
  split at h
  · simp at h
  · exact (Option.some.inj h).symm

/-! ### What `expire` must not find -/

/-- `x`, removed, does not drop `y`, put back before it. -/
def Keeps (t : SessionTable) (now : ℕ) (y x : ℕ) : Prop :=
  (t.sessions x).expireTick ≤ now → now < (t.sessions y).expireTick →
    (t.sessions y).expireTick % kWheelSlots ≠ (t.sessions x).slotTick % kWheelSlots

instance (t : SessionTable) (now y x : ℕ) : Decidable (Keeps t now y x) := by
  unfold Keeps; infer_instance

/-- Before `expire now`: the slots the due sessions on `pending` came from are
empty; and no session on `pending`, or in a slot that the call reaches, is
put back in the slot of a due session that is processed after it. A slot is
processed from its end. -/
structure ExpireSafe (t : SessionTable) (now : ℕ) : Prop where
  empty : ∀ x ∈ t.timerList none, (t.sessions x).expireTick ≤ now →
    t.slots ((t.sessions x).slotTick % kWheelSlots) = kNil
  pending : (t.timerList none).Pairwise (Keeps t now)
  slot : ∀ τ ≤ now, t.curTick ≤ τ →
    (t.timerList (some (τ % kWheelSlots))).reverse.Pairwise (Keeps t now)

/-- `Keeps` sees the deadlines, and the slots of the due sessions. -/
theorem Keeps.congr {now y x : ℕ} (h : Keeps t now y x)
    (hc : ∀ i, (t'.sessions i).core = (t.sessions i).core)
    (hs : (t.sessions x).expireTick ≤ now → (t'.sessions x).slotTick = (t.sessions x).slotTick) :
    Keeps t' now y x := by
  have hex := Session.expireTick_of_core (hc x)
  have hey := Session.expireTick_of_core (hc y)
  intro hx hy
  rw [hex] at hx
  rw [hey] at hy ⊢
  rw [hs hx]
  exact h hx hy

/-! ### Popping a session -/

/-- What `pending_pop` leaves: the popped session, off its list, and the rest
of the table as it was. -/
theorem Wheel.pop (h : Wheel t L) (hp : t.pending ≠ kNil) :
    IList.Attached kNil t.pendingPop.1.links (L \ {t.pending}) ∧
    (∀ k, t.pendingPop.1.timerList k = (t.timerList k).erase t.pending) ∧
    (t.timerList none).head? = some t.pending ∧ t.pendingPop.1.slots = t.slots := by
  have hl := links_pendingPop t
  have hg := h.sound
  obtain ⟨hg', hx, -, -⟩ := hg.pendingPop hp
  obtain ⟨-, hprev, hkey⟩ := hg.wf.head_ok none hp
  refine ⟨?_, fun k => ?_, ?_, ?_⟩
  · refine (h.attached.unlink hg.wf hg.finite hx).congr (hg.wf.unlink hx) ?_ ?_ ?_
    · intro y _; rw [hl]
    · intro y hy; rw [hl]; exact update_of_ne hy.2 ..
    · rw [hl]
  · obtain ⟨hc, hnd⟩ := hg.timerList_chain k
    refine hg'.timerList_eq ?_ (hnd.erase _)
    rw [hl]
    exact h.attached.unlink_chain hg.wf hx hc hnd
  · obtain ⟨hc, -⟩ := hg.timerList_chain none
    cases hlist : t.timerList none with
    | nil => rw [hlist] at hc; exact absurd hc hp
    | cons y c => rw [hlist] at hc; simp [← hc.1]; rfl
  · have hh : t.pendingPop.1.links.head = update t.links.head none (t.links.next t.pending) := by
      rw [hl]
      change (if t.links.prev (t.links.head none) = kNil then
        update t.links.head (t.links.key (t.links.head none)) (t.links.next (t.links.head none))
        else t.links.head) = _
      rw [if_pos hprev, hkey]
      rfl
    funext s
    exact congrFun hh (some s)

theorem ExpireSafe.of_sublist {now : ℕ} (h : ExpireSafe t now)
    (hc : ∀ i, (t'.sessions i).core = (t.sessions i).core)
    (hs : ∀ i, (t'.sessions i).slotTick = (t.sessions i).slotTick) (hslots : t'.slots = t.slots)
    (hcur : t'.curTick = t.curTick) (hsub : ∀ k, (t'.timerList k).Sublist (t.timerList k)) :
    ExpireSafe t' now where
  empty x hx hd := by
    rw [Session.expireTick_of_core (hc x)] at hd
    rw [hslots, hs]
    exact h.empty x ((hsub none).subset hx) hd
  pending := (h.pending.sublist (hsub none)).imp fun hk => hk.congr hc fun _ => hs _
  slot τ hτ hle := by
    rw [hcur] at hle
    exact ((h.slot τ hτ hle).sublist (hsub _).reverse).imp fun hk => hk.congr hc fun _ => hs _

theorem Wheel.pending_mem (h : Wheel t L) (hp : t.pending ≠ kNil) : t.pending ∈ t.timerList none :=
  List.mem_of_head? (h.pop hp).2.2.1

theorem links_remove (t : SessionTable) (x : ℕ) : (t.remove x).links =
    { t.links.unlink kNil x with prev := update (t.links.unlink kNil x).prev x kFree } := by
  rw [remove_eq, ← links_wheelUnlink]
  ext i
  · simp only [links, sessions_modify]
    by_cases hi : i = x
    · simp [hi]
    · simp [hi]
  · simp only [links, sessions_modify, update_apply]
    by_cases hi : i = x
    · simp [hi]
    · simp [hi]
  · cases i <;> rfl
  · simp only [links, listOf, sessions_modify]
    by_cases hi : i = x
    · simp [hi]
    · simp [hi]

/-- The second `wheel_unlink` does nothing if the slot it clears is empty. -/
theorem links_pop_remove (h : Sound t N L) (hp : t.pending ≠ kNil)
    (hslot : t.pendingPop.1.slots ((t.sessions t.pending).slotTick % kWheelSlots) = kNil) :
    (t.pendingPop.1.remove t.pending).links =
      { t.pendingPop.1.links with prev := update t.pendingPop.1.links.prev t.pending kFree } := by
  obtain ⟨-, -, hprev, hnext⟩ := h.pendingPop hp
  have hkey : t.pendingPop.1.links.key t.pending =
      some ((t.sessions t.pending).slotTick % kWheelSlots) := by
    rw [links_pendingPop]; exact update_self ..
  have hclear : t.pendingPop.1.links.clear kNil (some ((t.sessions t.pending).slotTick % kWheelSlots)) =
      t.pendingPop.1.links := IList.clear_eq_self hslot
  rw [links_remove, IList.unlink_isolated hprev hnext, hkey, hclear]

theorem slotTick_remove (t : SessionTable) (x i : ℕ) :
    ((t.remove x).sessions i).slotTick = (t.sessions i).slotTick := by
  rw [remove_eq, ← slotTick_wheelUnlink t x i]
  simp only [sessions_modify]
  split
  · rename_i e; rw [e]
  · rfl

theorem Wheel.pop_remove {now : ℕ} (h : Wheel t L) (hsafe : ExpireSafe t now) (hp : t.pending ≠ kNil)
    (hd : (t.sessions t.pending).expireTick ≤ now) :
    Wheel (t.pendingPop.1.remove t.pending) (L \ {t.pending}) ∧
      ExpireSafe (t.pendingPop.1.remove t.pending) now := by
  have hs := sameBut_pendingPop t
  obtain ⟨hatt, hlist, -, hslots⟩ := h.pop hp
  obtain ⟨hx, hg⟩ := h.sound.pop_remove hp
  have hl := links_pop_remove h.sound hp (by rw [hslots]; exact hsafe.empty _ (h.pending_mem hp) hd)
  have hcap : (t.pendingPop.1.remove t.pending).capacity = t.pendingPop.1.capacity := by
    rw [remove_eq]; exact (sameBut_wheelUnlink _ _).capacity
  have hcur : (t.pendingPop.1.remove t.pending).curTick = t.curTick := by
    rw [remove_eq]; exact (sameBut_wheelUnlink _ _).curTick.trans hs.curTick
  have hlist' : ∀ k, (t.pendingPop.1.remove t.pending).timerList k = t.pendingPop.1.timerList k := by
    intro k
    change IList.walk (t.pendingPop.1.remove t.pending).links.next kNil _
      ((t.pendingPop.1.remove t.pending).links.head k) = _
    rw [hl, hcap]
    rfl
  have hst : ∀ i, ((t.pendingPop.1.remove t.pending).sessions i).slotTick = (t.sessions i).slotTick := by
    intro i; rw [slotTick_remove, slotTick_pendingPop]
  have hcore : ∀ i, ((t.pendingPop.1.remove t.pending).sessions i).core = (t.sessions i).core := by
    intro i; rw [remove_core, hs.core]
  refine ⟨⟨hg, ?_, ?_⟩, hsafe.of_sublist hcore hst ?_ hcur ?_⟩
  · refine hatt.congr (h.sound.pendingPop hp).1.wf ?_ ?_ ?_ <;> (try intro y _) <;> rw [hl]
  · intro i hi s hsi
    have hkey : (t.pendingPop.1.remove t.pending).listOf i = t.listOf i := by
      change (t.pendingPop.1.remove t.pending).links.key i = _
      rw [hl, links_pendingPop]
      exact update_of_ne hi.2 ..
    rw [hkey] at hsi
    rw [hst, hcur, Session.expireTick_of_core (hcore i)]
    exact h.ahead i hi.1 s hsi
  · funext s
    rw [← hslots]
    change (t.pendingPop.1.remove t.pending).links.head (some s) = _
    rw [hl]
    rfl
  · intro k
    rw [hlist', hlist]
    exact List.erase_sublist

theorem timerList_wheelLink (h : Sound t N L) (hx : x ∈ L) (hxN : x ∉ N) (tick : ℕ) (k : Option ℕ) :
    (t.wheelLink x tick).timerList k =
      if k = some (t.slotFor tick % kWheelSlots) then x :: t.timerList k else t.timerList k := by
  have hl := links_wheelLink t x tick
  have hg := h.wheelLink hx hxN tick
  obtain ⟨hc, hnd⟩ := h.timerList_chain k
  have hxc : x ∉ t.timerList k := fun hm => hxN (h.mem_timerList hm).1
  split
  · rename_i hk
    subst hk
    refine hg.timerList_eq ?_ (List.nodup_cons.mpr ⟨hxc, hnd⟩)
    rw [hl]
    exact hc.push_self hxc (h.ne_nil hx)
  · rename_i hk
    refine hg.timerList_eq ?_ hnd
    rw [hl]
    exact hc.push_other hxc hk

theorem slots_wheelLink (t : SessionTable) (x tick s : ℕ) :
    (t.wheelLink x tick).slots s = if s = t.slotFor tick % kWheelSlots then x else t.slots s := by
  have hl := congrFun (congrArg IList.head (links_wheelLink t x tick)) (some s)
  change (t.wheelLink x tick).slots s =
    update t.links.head (some (t.slotFor tick % kWheelSlots)) x (some s) at hl
  rw [hl, update_apply]
  simp only [Option.some.injEq]
  rfl

theorem listOf_wheelLink (t : SessionTable) (x tick i : ℕ) : (t.wheelLink x tick).listOf i =
    if i = x then some (t.slotFor tick % kWheelSlots) else t.listOf i := by
  have hl := congrFun (congrArg IList.key (links_wheelLink t x tick)) i
  change (t.wheelLink x tick).listOf i = update t.listOf x _ i at hl
  rw [hl, update_apply]

theorem slotFor_eq {tick : ℕ} (h : t.curTick ≤ tick) : t.slotFor tick = tick := by
  unfold slotFor
  rw [if_neg (not_lt.mpr h)]

/-- Linking the one session that is on no list, no later than its deadline. -/
theorem Wheel.of_wheelLink {tick : ℕ} (hg : Sound t N L) (hx : x ∈ L) (hxN : x ∉ N) (hNL : insert x N = L)
    (ha : IList.Attached kNil t.links N) (hah : ∀ i ∈ N, ∀ s, t.listOf i = some s →
      t.curTick ≤ (t.sessions i).slotTick ∧ (t.sessions i).slotTick ≤ (t.sessions i).expireTick)
    (hcur : t.curTick ≤ tick) (hexp : tick ≤ (t.sessions x).expireTick) :
    Wheel (t.wheelLink x tick) L := by
  have hs := sameBut_wheelLink t x tick
  refine ⟨?_, ?_, ?_⟩
  · have := hg.wheelLink hx hxN tick
    rwa [hNL] at this
  · have := ha.push hg.wf hg.finite hxN (hg.ne_nil hx) (some (t.slotFor tick % kWheelSlots))
    rw [hNL] at this
    rw [links_wheelLink]
    exact this
  · intro i hi s hsi
    rw [hs.curTick, slotTick_wheelLink, Session.expireTick_of_core (hs.core i)]
    rw [← hNL] at hi
    by_cases hix : i = x
    · rw [if_pos hix, slotFor_eq hcur, hix]
      exact ⟨hcur, hexp⟩
    · rw [if_neg hix]
      rw [listOf_wheelLink, if_neg hix] at hsi
      exact hah i (hi.resolve_left hix) s hsi

theorem Wheel.pop_wheelLink {now : ℕ} (h : Wheel t L) (hsafe : ExpireSafe t now)
    (hp : t.pending ≠ kNil) (hcur : t.curTick ≤ now + 1) (hd : now < (t.sessions t.pending).expireTick) :
    Wheel (t.pendingPop.1.wheelLink t.pending (t.sessions t.pending).expireTick) L ∧
      ExpireSafe (t.pendingPop.1.wheelLink t.pending (t.sessions t.pending).expireTick) now := by
  have hs := sameBut_pendingPop t
  have hs' := hs.trans (sameBut_wheelLink t.pendingPop.1 t.pending (t.sessions t.pending).expireTick)
  obtain ⟨hatt, hlist, hhead, hslots⟩ := h.pop hp
  obtain ⟨hg, hx, -, -⟩ := h.sound.pendingPop hp
  have hxN : t.pending ∉ L \ {t.pending} := by simp
  have hslot : t.pendingPop.1.slotFor (t.sessions t.pending).expireTick = (t.sessions t.pending).expireTick :=
    slotFor_eq (by rw [hs.curTick]; omega)
  have hst : ∀ i, i ≠ t.pending →
      ((t.pendingPop.1.wheelLink t.pending (t.sessions t.pending).expireTick).sessions i).slotTick =
        (t.sessions i).slotTick := by
    intro i hi
    rw [slotTick_wheelLink, if_neg hi, slotTick_pendingPop]
  have hdue : ∀ i, (t.sessions i).expireTick ≤ now → i ≠ t.pending := by
    rintro i hi rfl; omega
  have hkeep : ∀ {a b}, Keeps t now a b →
      Keeps (t.pendingPop.1.wheelLink t.pending (t.sessions t.pending).expireTick) now a b :=
    fun hk => hk.congr hs'.core fun hb => hst _ (hdue _ hb)
  have hl := timerList_wheelLink hg hx hxN (t.sessions t.pending).expireTick
  rw [hslot] at hl
  refine ⟨Wheel.of_wheelLink hg hx hxN ?_ hatt ?_ ?_ ?_, ?_, ?_, ?_⟩
  · rw [Set.insert_sdiff_singleton, Set.insert_eq_self.mpr hx]
  · intro i hi s hsi
    have hkey : t.pendingPop.1.listOf i = t.listOf i := by
      change t.pendingPop.1.links.key i = _
      rw [links_pendingPop]
      exact update_of_ne hi.2 ..
    rw [hs.curTick, slotTick_pendingPop, Session.expireTick_of_core (hs.core i)]
    exact h.ahead i hi.1 s (hkey ▸ hsi)
  · rw [hs.curTick]; omega
  · rw [Session.expireTick_of_core (hs.core _)]
  · -- the session put back is not in the slot of a due one: `Keeps`
    intro x hxl hxd
    rw [hl none, if_neg (by simp), hlist] at hxl
    rw [Session.expireTick_of_core (hs'.core x)] at hxd
    rw [hst x (hdue x hxd), slots_wheelLink, hslot, hslots]
    cases hc : t.timerList none with
    | nil => rw [hc] at hhead; simp at hhead
    | cons y c =>
      have hy : y = t.pending := by rw [hc] at hhead; simpa using hhead
      have hpw := hsafe.pending
      rw [hc, List.pairwise_cons] at hpw
      rw [hc, hy, List.erase_cons_head] at hxl
      have hne := hpw.1 x hxl hxd (by rw [hy]; exact hd)
      rw [hy] at hne
      rw [if_neg (Ne.symm hne)]
      exact hsafe.empty x (by rw [hc]; simp [hxl]) hxd
  · rw [hl none, if_neg (by simp), hlist]
    exact (hsafe.pending.sublist List.erase_sublist).imp hkeep
  · intro τ hτ hle
    rw [hs'.curTick] at hle
    have hold := ((hsafe.slot τ hτ hle).sublist
      (List.erase_sublist (a := t.pending)).reverse).imp hkeep
    rw [hl, hlist]
    split
    · rw [List.reverse_cons, List.pairwise_append]
      refine ⟨hold, List.pairwise_singleton _ _, fun a _ b hb hbd => ?_⟩
      rw [List.mem_singleton.mp hb, Session.expireTick_of_core (hs'.core _)] at hbd
      omega
    · exact hold

/-- The timer lists after a slot has been taken: its sessions are on `pending`,
in reverse. -/
theorem Sound.timerList_take {c : List ℕ} (h : Sound t L L) (hg : Sound t' L L) (hp : t.pending = kNil)
    (hc : IList.IsChain t.links.next kNil (t.links.head (some (t.curTick % kWheelSlots))) c) (hnd : c.Nodup)
    (hl : t'.links = (t.links.clear kNil (some (t.curTick % kWheelSlots))).pushAll kNil none c) :
    t'.timerList none = c.reverse ∧
      ∀ s, t'.timerList (some s) = if s = t.curTick % kWheelSlots then [] else t.timerList (some s) := by
  have hmem := h.wf.head_chain_mem hc
  constructor
  · refine hg.timerList_eq ?_ (List.nodup_reverse.mpr hnd)
    have h0 : IList.IsChain (t.links.clear kNil (some (t.curTick % kWheelSlots))).next kNil
        ((t.links.clear kNil (some (t.curTick % kWheelSlots))).head none) [] := hp
    have h1 := h0.pushAll_self hnd fun x hx => ⟨by simp, h.wf.ne_nil (hmem x hx).1⟩
    rw [hl]
    simpa using h1
  · intro s
    obtain ⟨hcs, hnds⟩ := h.timerList_chain (some s)
    split
    · rename_i he
      refine hg.timerList_eq ?_ List.nodup_nil
      have h0 : IList.IsChain (t.links.clear kNil (some (t.curTick % kWheelSlots))).next kNil
          ((t.links.clear kNil (some (t.curTick % kWheelSlots))).head (some s)) [] := by
        rw [he]; exact update_self ..
      rw [hl]
      exact IList.IsChain.pushAll_other (by simp) h0 (by simp)
    · rename_i he
      refine hg.timerList_eq ?_ hnds
      have h0 : IList.IsChain (t.links.clear kNil (some (t.curTick % kWheelSlots))).next kNil
          ((t.links.clear kNil (some (t.curTick % kWheelSlots))).head (some s)) (t.timerList (some s)) := by
        simpa [IList.clear, he] using hcs
      rw [hl]
      refine IList.IsChain.pushAll_other (by simp) h0 fun y hy hm => he ?_
      have h1 := (hmem y hy).2
      rw [show t.links.key y = t.listOf y from rfl, (h.mem_timerList hm).2] at h1
      exact Option.some.inj h1

theorem Wheel.take {now : ℕ} (h : Wheel t L) (hsafe : ExpireSafe t now) (hp : t.pending = kNil)
    (hcur : t.curTick ≤ now) (hnow : now < 2 ^ 64 - 1) :
    ∃ t', t.takeSlot = some t' ∧ t'.curTick = t.curTick + 1 ∧ Wheel t' L ∧ ExpireSafe t' now := by
  obtain ⟨t', c, ht', hg, hc, hnd, hl, hcur', hs, hst⟩ := h.sound.takeSlot
  have hcur'' : t'.curTick = t.curTick + 1 := by
    rw [hcur', Nat.mod_eq_of_lt (by omega)]
  have hcore : ∀ i, (t'.sessions i).core = (t.sessions i).core := hs.core
  have hmem := h.sound.wf.head_chain_mem hc
  have hlc := h.sound.timerList_eq hc hnd
  obtain ⟨hnone, hslot⟩ := h.sound.timerList_take hg hp hc hnd hl
  have hkeep : ∀ {a b}, Keeps t now a b → Keeps t' now a b := fun hk => hk.congr hcore fun _ => hst _
  refine ⟨t', ht', hcur'', ⟨hg, ?_, ?_⟩, ?_, ?_, ?_⟩
  · rw [hl]
    exact h.attached.move_chain h.sound.wf h.sound.finite hc hnd none
  · intro i hi s hsi
    rw [hcur'', hst, Session.expireTick_of_core (hcore i)]
    have hkey : t'.listOf i = if i ∈ c then none else t.listOf i := by
      change t'.links.key i = _
      rw [hl, IList.pushAll_key]
      rfl
    rw [hkey] at hsi
    split at hsi
    · simp at hsi
    · rename_i hic
      obtain ⟨h1, h2⟩ := h.ahead i hi s hsi
      refine ⟨?_, h2⟩
      -- what was due in this very slot is on `pending` now
      have hne : (t.sessions i).slotTick ≠ t.curTick := fun he => by
        refine hic (h.attached.mem_chain hi ?_ hc)
        rw [show t.links.key i = t.listOf i from rfl, hsi, listOf_some hsi, he]
      omega
  · intro x hx _
    rw [hnone, List.mem_reverse] at hx
    have h1 : (t.sessions x).slotTick % kWheelSlots = t.curTick % kWheelSlots :=
      (listOf_some (hmem x hx).2).symm
    rw [hst, h1]
    change t'.links.head (some _) = _
    rw [hl, IList.pushAll_head_other (by simp)]
    exact update_self ..
  · rw [hnone, ← hlc]
    exact (hsafe.slot t.curTick hcur le_rfl).imp hkeep
  · intro τ hτ hle
    rw [hslot]
    split
    · simp
    · exact (hsafe.slot τ hτ (by omega)).imp hkeep

/-- `expire`, called safely, returns and keeps the wheel in order; and if it does
not run out of budget, no session that is left is due. -/
theorem Wheel.expire {now : ℕ} (h : Wheel t L) (hsafe : ExpireSafe t now)
    (hcur : t.curTick ≤ now + 1) (hnow : now < 2 ^ 64 - 1) :
    ∃ r L', t.expire now = some r ∧ Wheel r.table L' ∧ r.table.curTick ≤ now + 1 ∧
      (r.budget ≠ 0 → ∀ i ∈ L', now < (r.table.sessions i).expireTick) := by
  let P (r : ExpireResult) : Prop :=
    ∃ L, Wheel r.table L ∧ ExpireSafe r.table now ∧ r.table.curTick ≤ now + 1
  have htick (r : ExpireResult) : (r.table.pendingPop.1.sessions r.table.pending).expireTick =
      (r.table.sessions r.table.pending).expireTick :=
    Session.expireTick_of_core ((sameBut_pendingPop r.table).core _)
  have hloop := @expireLoop_rule now P
    (fun r hP _ hp hc => by
      obtain ⟨L, hw, hs, -⟩ := hP
      obtain ⟨t', ht', hc', hw', hs'⟩ := hw.take hs hp hc hnow
      refine ⟨t', ht', ?_, L, hw', hs', ?_⟩
      · rw [hc', Nat.mod_eq_of_lt (by omega)]
      · change t'.curTick ≤ now + 1
        omega)
    (fun r hP _ hp hd => by
      obtain ⟨L, hw, hs, hc⟩ := hP
      rw [htick] at hd
      obtain ⟨hw', hs'⟩ := hw.pop_remove hs hp hd
      refine ⟨_, hw', hs', ?_⟩
      rw [remove_eq]
      exact ((sameBut_wheelUnlink _ _).curTick.trans (sameBut_pendingPop _).curTick).trans_le hc)
    (fun r hP _ hp hd => by
      obtain ⟨L, hw, hs, hc⟩ := hP
      rw [htick] at hd ⊢
      obtain ⟨hw', hs'⟩ := hw.pop_wheelLink hs hp hc (not_le.mp hd)
      refine ⟨L, hw', hs', ?_⟩
      exact ((sameBut_wheelLink _ _ _).curTick.trans (sameBut_pendingPop _).curTick).trans_le hc)
    (kExpireBudget + (now + 1 - t.curTick) + 1) ⟨t, 0, kExpireBudget⟩ ⟨L, h, hsafe, hcur⟩
  obtain ⟨r, hr⟩ := Option.isSome_iff_exists.mp (hloop.2 hnow (Nat.lt_succ_self _))
  obtain ⟨⟨L', hw, -, hc⟩, hend⟩ := hloop.1 r hr
  refine ⟨r, L', hr, hw, hc, fun hb i hi => ?_⟩
  obtain ⟨hp, hgt⟩ := hend.resolve_left hb
  -- nothing is pending, so the session is in a slot to come
  cases hk : r.table.listOf i with
  | none =>
    have hm := hw.mem_timerList hi
    rw [hk, timerList_none_of_nil hp] at hm
    simp at hm
  | some s =>
    obtain ⟨h1, h2⟩ := hw.ahead i hi s hk
    omega

/-! ### The other operations -/

theorem Wheel.modify {f : Session → Session} (h : Wheel t L)
    (hf : Session.SameInTable (t.sessions x) (f (t.sessions x)))
    (hexp : ∀ s, t.listOf x = some s → (t.sessions x).slotTick ≤ (f (t.sessions x)).expireTick) :
    Wheel (t.modify x f) L := by
  have hl := links_modify hf
  refine ⟨h.sound.modify hf, hl ▸ h.attached, fun i hi s hsi => ?_⟩
  have hsi' : t.listOf i = some s := by
    rw [← hsi]; exact (congrFun (congrArg IList.key hl) i).symm
  obtain ⟨h1, h2⟩ := h.ahead i hi s hsi'
  rw [modify_curTick, sessions_modify]
  by_cases hix : i = x
  · subst hix
    obtain ⟨-, -, -, hst, -⟩ := hf
    simp only [↓reduceIte, hst]
    exact ⟨h1, hexp s hsi'⟩
  · simp only [hix, ↓reduceIte]
    exact ⟨h1, h2⟩

/-- A table without the session `x`, on which the rest is in order. -/
theorem Wheel.wheelUnlink_ahead (h : Wheel t L) : ∀ i ∈ L \ {x}, ∀ s,
    (t.wheelUnlink x).listOf i = some s →
      (t.wheelUnlink x).curTick ≤ ((t.wheelUnlink x).sessions i).slotTick ∧
        ((t.wheelUnlink x).sessions i).slotTick ≤ ((t.wheelUnlink x).sessions i).expireTick := by
  intro i hi s hsi
  have hs := sameBut_wheelUnlink t x
  rw [hs.curTick, slotTick_wheelUnlink, Session.expireTick_of_core (hs.core i)]
  exact h.ahead i hi.1 s ((congrFun (congrArg IList.key (links_wheelUnlink t x)) i).symm.trans hsi)

theorem Wheel.touch (h : Wheel t L) (hx : x ∈ L) {now timeout : ℕ}
    (hcur : t.curTick ≤ deadline now timeout) : Wheel (t.touch x now timeout) L := by
  unfold SessionTable.touch
  simp only
  have hs := sameBut_wheelUnlink t x
  split
  · rename_i hlt
    obtain ⟨hlt, hpend⟩ := hlt
    have hkey : t.listOf x = some ((t.sessions x).slotTick % kWheelSlots) := by
      unfold listOf
      rw [if_neg (by simpa using hpend)]
    obtain ⟨-, hle⟩ := h.ahead x hx _ hkey
    have hatt : IList.Attached kNil (t.wheelUnlink x).links (L \ {x}) := by
      rw [links_wheelUnlink]; exact h.attached.unlink h.sound.wf h.sound.finite hx
    have hw : Wheel ((t.wheelUnlink x).wheelLink x (deadline now timeout)) L := .of_wheelLink
      (h.sound.wheelUnlink hx) hx (by simp)
      (by rw [Set.insert_sdiff_singleton, Set.insert_eq_self.mpr hx]) hatt h.wheelUnlink_ahead
      (by rw [hs.curTick]; exact hcur) (by rw [Session.expireTick_of_core (hs.core x)]; omega)
    refine hw.modify ⟨rfl, rfl, rfl, rfl, rfl, rfl, rfl⟩ fun s _ => ?_
    rw [slotTick_wheelLink, if_pos rfl, slotFor_eq (by rw [hs.curTick]; exact hcur)]
  · rename_i hlt
    refine h.modify ⟨rfl, rfl, rfl, rfl, rfl, rfl, rfl⟩ fun s hsx => ?_
    have hpend : (t.sessions x).inPending = false := by
      unfold listOf at hsx
      by_contra hne
      simp [hne] at hsx
    simp only [hpend, Bool.not_false, and_true, not_lt] at hlt
    exact hlt

theorem Wheel.remove (h : Wheel t L) (hx : x ∈ L) : Wheel (t.remove x) (L \ {x}) := by
  have hl := links_remove t x
  refine ⟨h.sound.remove hx (Or.inl hx), ?_, ?_⟩
  · have ha := h.attached.unlink h.sound.wf h.sound.finite hx
    refine ha.congr (h.sound.wf.unlink hx) ?_ ?_ ?_ <;> (try intro y _) <;> rw [hl]
  · intro i hi s hsi
    have hkey : (t.remove x).listOf i = t.listOf i := by
      change (t.remove x).links.key i = _
      rw [hl]
      rfl
    have hcur : (t.remove x).curTick = t.curTick := by
      rw [remove_eq]; exact (sameBut_wheelUnlink t x).curTick
    rw [hcur, slotTick_remove, Session.expireTick_of_core (remove_core t x i)]
    exact h.ahead i hi.1 s (hkey ▸ hsi)

theorem Wheel.create (h : Wheel t L) (client : FiveTuple) (server : Option FiveTuple) (now timeout : ℕ)
    (hcur : t.curTick ≤ deadline now timeout) :
    ∃ L', Wheel (t.create client server now timeout).1 L' ∧
      (t.create client server now timeout).1.curTick = t.curTick := by
  rcases create_outcome t client server now timeout with ⟨hash, he⟩ | ⟨idx, rest, hash, hf, he⟩
  · rw [he]
    exact ⟨L, ⟨h.sound.withHash hash, h.attached, h.ahead⟩, rfl⟩
  obtain ⟨hidx, hu⟩ := h.sound.alloc hf hash client server now timeout
  have hne : ∀ i ∈ L, i ≠ idx := fun i hi e => hidx (e ▸ hi)
  rw [he]
  refine ⟨insert idx L, ?_, (sameBut_wheelLink _ _ _).curTick⟩
  refine Wheel.of_wheelLink hu (Set.mem_insert _ _) hidx rfl ?_ ?_ hcur ?_
  · refine h.attached.congr h.sound.wf ?_ ?_ ?_
    · intro i hi; simp [links, sessions_modify, hne i hi]
    · intro i hi; simp [links, listOf, sessions_modify, hne i hi]
    · funext k; cases k <;> rfl
  · intro i hi s hsi
    simp only [listOf, sessions_modify, hne i hi, ↓reduceIte] at hsi
    rw [sessions_modify, if_neg (hne i hi)]
    exact h.ahead i hi s hsi
  · rw [sessions_modify, if_pos rfl]
    cases server <;> rfl

theorem wheel_init {capacity : ℕ} (hcap : capacity ≤ kMaxSessions) (tick : ℕ) :
    Wheel (init capacity tick) ∅ :=
  ⟨sound_init hcap tick, by intro i hi; simp at hi, by intro i hi; simp at hi⟩

/-! ### Runs -/

/-- The longest timeout the configuration admits, in seconds. -/
def kMaxTimeout : ℕ := 86400

/-- The last tick whose deadlines fit in 64 bits. -/
def kMaxTick : ℕ := 2 ^ 64 - 86402

/-- The clock of an operation: it does not go back from `last`, and the
timeouts are ones the configuration admits. -/
def Op.Timed (last now : ℕ) : Op → Prop
  | .create _ _ nowTick timeout =>
      nowTick = now ∧ last ≤ now ∧ now ≤ kMaxTick ∧ 1 ≤ timeout ∧ timeout ≤ kMaxTimeout
  | .touch _ nowTick timeout =>
      nowTick = now ∧ last ≤ now ∧ now ≤ kMaxTick ∧ 1 ≤ timeout ∧ timeout ≤ kMaxTimeout
  | .expire nowTick => nowTick = now ∧ last ≤ now ∧ now ≤ kMaxTick
  | .remove _ => now = last
  | .write _ _ => now = last

/-- An `expire` that drops no session. -/
def Op.Safe (t : SessionTable) : Op → Prop
  | .expire now => ExpireSafe t now
  | _ => True

/-- The sessions an operation is called on are live. The keys of a new session
may be in use. -/
def Op.OnLive (t : SessionTable) : Op → Prop
  | .create _ _ _ _ => True
  | .remove i => t.Live i
  | .touch i _ _ => t.Live i
  | .expire _ => True
  | .write i f => t.Live i ∧ Session.SameInTable (t.sessions i) (f (t.sessions i)) ∧
      (f (t.sessions i)).expireTick = (t.sessions i).expireTick

/-- Runs whose steps all meet `ok`: the time of the last one, and the table. -/
inductive Run (ok : SessionTable → Op → Prop) (capacity tick : ℕ) : ℕ → SessionTable → Prop where
  | init : Run ok capacity tick tick (init capacity tick)
  | step {last now : ℕ} {t t' : SessionTable} (op : Op) : Run ok capacity tick last t → op.OnLive t →
      op.Timed last now → ok t op → op.run t = some t' → Run ok capacity tick now t'

theorem lt_deadline {now timeout : ℕ} (hn : now ≤ kMaxTick) (h1 : 1 ≤ timeout)
    (h2 : timeout ≤ kMaxTimeout) : now + 1 < deadline now timeout := by
  unfold deadline kMaxTick kMaxTimeout at *
  rw [if_pos (by omega), Nat.mod_eq_of_lt (by omega)]
  omega

theorem Wheel.step {last now : ℕ} {op : Op} (h : Wheel t L) (hcur : t.curTick ≤ last + 1)
    (ha : op.OnLive t) (ht : op.Timed last now) (hs : op.Safe t) (hr : op.run t = some t') :
    ∃ L', Wheel t' L' ∧ t'.curTick ≤ now + 1 := by
  cases op with
  | create client server n timeout =>
    obtain rfl := Option.some.inj hr
    obtain ⟨rfl, hle, hmax, h1, h2⟩ := ht
    have := lt_deadline hmax h1 h2
    obtain ⟨L', hw, hc⟩ := h.create client server n timeout (by omega)
    exact ⟨L', hw, by rw [hc]; omega⟩
  | remove i =>
    obtain rfl := Option.some.inj hr
    refine ⟨_, h.remove ((h.sound.live_iff i).mp ha), ?_⟩
    rw [remove_eq, show now = last from ht]
    exact (sameBut_wheelUnlink t i).curTick.trans_le hcur
  | touch i n timeout =>
    obtain rfl := Option.some.inj hr
    obtain ⟨rfl, hle, hmax, h1, h2⟩ := ht
    have := lt_deadline hmax h1 h2
    refine ⟨L, h.touch ((h.sound.live_iff i).mp ha) (by omega), ?_⟩
    have hc : (t.touch i n timeout).curTick = t.curTick := by
      unfold SessionTable.touch
      simp only [modify_curTick]
      split
      · exact ((sameBut_wheelUnlink t i).trans (sameBut_wheelLink _ _ _)).curTick
      · rfl
    rw [hc]
    omega
  | expire n =>
    obtain ⟨r, he, rfl⟩ := Option.map_eq_some_iff.mp hr
    obtain ⟨rfl, hle, hmax⟩ := ht
    have hn : n < 2 ^ 64 - 1 := by unfold kMaxTick at hmax; omega
    obtain ⟨r', L', he', hw, hc, -⟩ := h.expire hs (by omega) hn
    obtain rfl : r' = r := Option.some.inj (he'.symm.trans he)
    exact ⟨L', hw, hc⟩
  | write i f =>
    obtain rfl := Option.some.inj hr
    obtain ⟨hi, hf, hexp⟩ := ha
    refine ⟨L, h.modify hf fun s hsi => ?_, ?_⟩
    · rw [hexp]
      exact (h.ahead i ((h.sound.live_iff i).mp hi) s hsi).2
    · rw [show now = last from ht]
      exact hcur

theorem Run.wheel {capacity tick last : ℕ} (hcap : capacity ≤ kMaxSessions)
    (h : Run Op.Safe capacity tick last t) : ∃ L, Wheel t L ∧ t.curTick ≤ last + 1 := by
  induction h with
  | init => exact ⟨∅, wheel_init hcap tick, Nat.le_succ tick⟩
  | step op _ ha ht hs hr ih =>
    obtain ⟨L, hw, hc⟩ := ih
    exact hw.step hc ha ht hs hr

/-- **No session is lost from the wheel in a safe run.** In every table it
leads to, each live session is on exactly one timer list, the one its fields
name; and an `expire` that is safe returns and, if it does not run out of
budget, leaves no live session whose deadline has passed. -/
theorem run_linked {capacity tick last : ℕ} (hcap : capacity ≤ kMaxSessions)
    (h : Run Op.Safe capacity tick last t) :
    Linked t ∧ ∀ now, last ≤ now → now ≤ kMaxTick → ExpireSafe t now → ∃ r, t.expire now = some r ∧
      (0 < r.budget → ∀ i, r.table.Live i → now < (r.table.sessions i).expireTick) := by
  obtain ⟨L, hw, hc⟩ := h.wheel hcap
  refine ⟨hw.linked, fun now hle hmax hsafe => ?_⟩
  have hn : now < 2 ^ 64 - 1 := by unfold kMaxTick at hmax; omega
  obtain ⟨r, L', hr, hw', -, hdue⟩ := hw.expire hsafe (by omega) hn
  exact ⟨r, hr, fun hb i hi => hdue (by omega) i ((hw'.sound.live_iff i).mp hi)⟩

instance (t : SessionTable) (now : ℕ) : Decidable (ExpireSafe t now) :=
  decidable_of_iff
    ((∀ x ∈ t.timerList none, (t.sessions x).expireTick ≤ now →
        t.slots ((t.sessions x).slotTick % kWheelSlots) = kNil) ∧
      (t.timerList none).Pairwise (Keeps t now) ∧
      ∀ τ ≤ now, t.curTick ≤ τ →
        (t.timerList (some (τ % kWheelSlots))).reverse.Pairwise (Keeps t now))
    ⟨fun ⟨h1, h2, h3⟩ => ⟨h1, h2, h3⟩, fun h => ⟨h.1, h.2, h.3⟩⟩

/-- Two sessions of one client tuple in slot 7 of the wheel: session 0 is due at
tick 7, session 1 at tick 4103, a turn of the wheel later. -/
def nextTurn : SessionTable :=
  (((init 2 1).create ⟨1, 2, 3, 4, 6⟩ none 1 5).1.create ⟨1, 2, 3, 4, 6⟩ none 1 4101).1

/-- `expire 7` removes session 0 first, and then puts session 1 back. -/
theorem run_linked_nextTurn : nextTurn.timerList (some 7) = [1, 0] ∧ Linked nextTurn ∧
    ∃ r, nextTurn.expire 7 = some r ∧ r.budget = 4094 ∧ ¬ r.table.Live 0 ∧ r.table.Live 1 ∧
      7 < (r.table.sessions 1).expireTick ∧ r.table.timerList (some 7) = [1] ∧ Linked r.table := by
  have hrun : Run Op.Safe 2 1 1 nextTurn :=
    .step (.create ⟨1, 2, 3, 4, 6⟩ none 1 4101) (.step (.create ⟨1, 2, 3, 4, 6⟩ none 1 5) .init
      trivial ⟨rfl, le_rfl, by decide, by decide, by decide⟩ trivial rfl)
      trivial ⟨rfl, le_rfl, by decide, by decide, by decide⟩ trivial rfl
  have hsafe : ExpireSafe nextTurn 7 := by decide +kernel
  obtain ⟨h1, h2⟩ := run_linked (by decide) hrun
  obtain ⟨r, hr, hdue⟩ := h2 7 (by decide) (by decide) hsafe
  have heval : (nextTurn.expire 7).map (fun r => (r.budget, decide (r.table.Live 0), decide (r.table.Live 1),
      r.table.timerList (some 7))) = some (4094, false, true, [1]) := by decide +kernel
  rw [hr, Option.map_some] at heval
  simp only [Option.some.injEq, Prod.mk.injEq, decide_eq_true_eq, decide_eq_false_iff_not] at heval
  obtain ⟨hb, hgone, hlive, hlist⟩ := heval
  have hnext : Run Op.Safe 2 1 7 r.table :=
    .step (.expire 7) hrun trivial ⟨rfl, by decide, by decide⟩ hsafe (by simp [Op.run, hr])
  exact ⟨by decide +kernel, h1, r, hr, hb, hgone, hlive, hdue (by omega) 1 hlive, hlist,
    (run_linked (by decide) hnext).1⟩

/-- Two sessions in slot 7 of the wheel: session 0 is due at tick 4103, a turn
of the wheel after session 1, which is due at tick 7. -/
def twoTurns : SessionTable :=
  (((init 2 1).create ⟨1, 2, 3, 4, 6⟩ none 1 4101).1.create ⟨1, 2, 5, 4, 6⟩ none 1 5).1

theorem reach_twoTurns : Reach 2 1 twoTurns :=
  .step (.create ⟨1, 2, 5, 4, 6⟩ none 1 5) (.step (.create ⟨1, 2, 3, 4, 6⟩ none 1 4101) .init
    ⟨rfl, by simp⟩ rfl) ⟨rfl, by simp⟩ rfl

/-- `expire 7` puts session 0 back in slot 7, removes session 1 and thereby
clears slot 7: session 0 is live and on no list. -/
theorem expire_drops_session :
    ∃ t, Run (fun _ _ => True) 2 1 7 t ∧ t.Live 0 ∧ (∀ k, 0 ∉ t.timerList k) ∧ ¬ Linked t := by
  have h1 : Run (fun _ _ => True) 2 1 1 twoTurns :=
    .step (.create ⟨1, 2, 5, 4, 6⟩ none 1 5) (.step (.create ⟨1, 2, 3, 4, 6⟩ none 1 4101) .init
      trivial ⟨rfl, le_rfl, by decide, by decide, by decide⟩ trivial rfl)
      trivial ⟨rfl, le_rfl, by decide, by decide, by decide⟩ trivial rfl
  have hrun : (twoTurns.expire 7).map (fun r => (decide (r.table.Live 0), r.table.listOf 0,
      r.table.timerList (some 7))) = some (true, some 7, []) := by decide +kernel
  obtain ⟨r, hr, he⟩ := Option.map_eq_some_iff.mp hrun
  simp only [Prod.mk.injEq, decide_eq_true_eq] at he
  obtain ⟨hlive, hkey, hlist⟩ := he
  have hop : (Op.expire 7).run twoTurns = some r.table := by simp [Op.run, hr]
  have h2 : Run (fun _ _ => True) 2 1 7 r.table :=
    .step (.expire 7) h1 trivial ⟨rfl, by decide, by decide⟩ trivial hop
  have hfit : Fit r.table := (reach_twoTurns.step (.expire 7) trivial hop).fit (by decide)
  refine ⟨r.table, h2, hlive, fun k hm => ?_, fun hl => ?_⟩
  · have hk := hfit.mem_timerList hm
    rw [hkey] at hk
    rw [← hk.2, hlist] at hm
    simp at hm
  · have := hl 0 hlive (some 7)
    simp [hkey, hlist] at this

end SessionTable
end L4Lb
