/-
# The timer lists of the session table are intrusive lists

`links` reads the timer lists off a table: list `none` is `pending`, list
`some s` the list of wheel slot `s`. `wheel_link`, `wheel_unlink`,
`pending_push` and `pending_pop` are the operations of `Lib/IntrusiveList` on
it, and touch nothing of a session but its place on the lists (`core`).
-/
import L4Lb.Session

open Function

namespace L4Lb

/-- A session without its place on the timer lists. -/
def Session.core (s : Session) : Session :=
  { s with slotTick := 0, wheelPrev := 0, wheelNext := 0, inPending := false }

theorem Session.expireTick_of_core {s s' : Session} (h : s'.core = s.core) :
    s'.expireTick = s.expireTick := by
  simpa [Session.core] using congrArg Session.expireTick h

/-- A session with the same contents and the same place on the lists. -/
theorem Session.eq_of_core {s s' : Session} (hc : s'.core = s.core) (hslot : s'.slotTick = s.slotTick)
    (hprev : s'.wheelPrev = s.wheelPrev) (hnext : s'.wheelNext = s.wheelNext)
    (hpend : s'.inPending = s.inPending) : s' = s := by
  cases s
  cases s'
  simp only [Session.core, Session.mk.injEq] at hc hslot hprev hnext hpend ⊢
  simp_all

theorem Session.keys_of_core {s s' : Session} (h : s'.core = s.core) :
    s'.client = s.client ∧ s'.server = s.server ∧ s'.flags = s.flags := by
  refine ⟨?_, ?_, ?_⟩
  · simpa [Session.core] using congrArg Session.client h
  · simpa [Session.core] using congrArg Session.server h
  · simpa [Session.core] using congrArg Session.flags h

theorem Session.hasKey_of_core {s s' : Session} (h : s'.core = s.core) (k : FiveTuple) :
    s'.HasKey k ↔ s.HasKey k := by
  obtain ⟨h1, h2, h3⟩ := Session.keys_of_core h
  unfold Session.HasKey Session.fullnat
  rw [h1, h2, h3]

/-- The fields of a session that the table itself keeps. -/
def Session.SameInTable (s s' : Session) : Prop :=
  s'.client = s.client ∧ s'.server = s.server ∧ s'.fullnat = s.fullnat ∧ s'.slotTick = s.slotTick ∧
    s'.wheelPrev = s.wheelPrev ∧ s'.wheelNext = s.wheelNext ∧ s'.inPending = s.inPending

namespace SessionTable

/-- The timer lists of a table. -/
def links (t : SessionTable) : IList (Option ℕ) ℕ where
  next i := (t.sessions i).wheelNext
  prev i := (t.sessions i).wheelPrev
  head := t.head
  key := t.listOf

/-- The slot `wheel_link` puts a session of deadline `tick` in. -/
def slotFor (t : SessionTable) (tick : ℕ) : ℕ :=
  if tick < t.curTick then t.curTick else tick

theorem sessions_modify (t : SessionTable) (i j : ℕ) (f : Session → Session) :
    (t.modify i f).sessions j = if j = i then f (t.sessions i) else t.sessions j := by
  simp [modify, update_apply]

@[simp] theorem modify_hash (t : SessionTable) (i : ℕ) (f) : (t.modify i f).hash = t.hash := rfl
@[simp] theorem modify_curTick (t : SessionTable) (i : ℕ) (f) :
    (t.modify i f).curTick = t.curTick := rfl
@[simp] theorem modify_head (t : SessionTable) (i : ℕ) (f) : (t.modify i f).head = t.head := by
  funext k; cases k <;> rfl

@[simp] theorem setHead_hash (t : SessionTable) (k) (i : ℕ) : (t.setHead k i).hash = t.hash := by
  cases k <;> rfl
@[simp] theorem setHead_freeStack (t : SessionTable) (k) (i : ℕ) :
    (t.setHead k i).freeStack = t.freeStack := by
  cases k <;> rfl
@[simp] theorem setHead_capacity (t : SessionTable) (k) (i : ℕ) :
    (t.setHead k i).capacity = t.capacity := by
  cases k <;> rfl
@[simp] theorem setHead_curTick (t : SessionTable) (k) (i : ℕ) :
    (t.setHead k i).curTick = t.curTick := by
  cases k <;> rfl
@[simp] theorem setHead_sessions (t : SessionTable) (k) (i : ℕ) :
    (t.setHead k i).sessions = t.sessions := by
  cases k <;> rfl
@[simp] theorem setHead_head (t : SessionTable) (k) (i : ℕ) :
    (t.setHead k i).head = update t.head k i := by
  funext k'
  cases k <;> cases k' <;> simp [setHead, head, update_apply]

/-- What `wheel_unlink`, `wheel_link`, `pending_push` and `pending_pop` leave
alone. -/
structure SameBut (t t' : SessionTable) : Prop where
  hash : t'.hash = t.hash
  freeStack : t'.freeStack = t.freeStack
  capacity : t'.capacity = t.capacity
  curTick : t'.curTick = t.curTick
  core : ∀ i, (t'.sessions i).core = (t.sessions i).core

theorem SameBut.refl (t : SessionTable) : SameBut t t := ⟨rfl, rfl, rfl, rfl, fun _ => rfl⟩

theorem SameBut.trans {a b c : SessionTable} (h : SameBut a b) (h' : SameBut b c) : SameBut a c :=
  ⟨h'.hash.trans h.hash, h'.freeStack.trans h.freeStack, h'.capacity.trans h.capacity,
    h'.curTick.trans h.curTick, fun i => (h'.core i).trans (h.core i)⟩

theorem SameBut.modify {t u : SessionTable} (h : SameBut t u) (i : ℕ) {f : Session → Session}
    (hf : ∀ s, (f s).core = s.core) : SameBut t (u.modify i f) := by
  refine ⟨h.hash, h.freeStack, h.capacity, h.curTick, fun j => ?_⟩
  rw [sessions_modify]
  split
  · rename_i e; rw [hf, ← e, h.core]
  · exact h.core j

theorem SameBut.setHead {t u : SessionTable} (h : SameBut t u) (k) (i : ℕ) :
    SameBut t (u.setHead k i) :=
  ⟨by simp [h.hash], by simp [h.freeStack], by simp [h.capacity], by simp [h.curTick],
    fun j => by simp [h.core j]⟩

theorem SameBut.ite {t a b : SessionTable} {c : Prop} {_ : Decidable c} (ha : SameBut t a)
    (hb : SameBut t b) : SameBut t (if c then a else b) := by
  split
  · exact ha
  · exact hb

theorem sameBut_wheelUnlink (t : SessionTable) (idx : ℕ) : SameBut t (t.wheelUnlink idx) := by
  have h0 := SameBut.refl t
  unfold wheelUnlink
  refine .modify (.ite (.modify (.ite (.modify h0 _ ?_) (h0.setHead _ _)) _ ?_)
    (.ite (.modify h0 _ ?_) (h0.setHead _ _))) _ ?_ <;> (intro s; rfl)

theorem sameBut_wheelLink (t : SessionTable) (idx tick : ℕ) : SameBut t (t.wheelLink idx tick) := by
  have h0 := SameBut.refl t
  unfold wheelLink
  refine .setHead (.ite (.modify (.modify h0 _ ?_) _ ?_) (.modify h0 _ ?_)) _ _ <;> (intro s; rfl)

theorem sameBut_pendingPush (t : SessionTable) (idx : ℕ) : SameBut t (t.pendingPush idx) := by
  have h0 := SameBut.refl t
  unfold pendingPush
  refine .setHead (.ite (.modify (.modify h0 _ ?_) _ ?_) (.modify h0 _ ?_)) none _ <;> (intro s; rfl)

theorem pendingPop_fst (t : SessionTable) : t.pendingPop.1 =
    (t.wheelUnlink t.pending).modify t.pending fun s => { s with inPending := false } := rfl

theorem sameBut_pendingPop (t : SessionTable) : SameBut t t.pendingPop.1 := by
  rw [pendingPop_fst]
  refine .modify (sameBut_wheelUnlink t t.pending) _ ?_
  intro s; rfl

/-! ### The operations on the lists -/

theorem links_wheelUnlink (t : SessionTable) (idx : ℕ) :
    (t.wheelUnlink idx).links = t.links.unlink kNil idx := by
  unfold wheelUnlink
  simp only
  split <;> split <;> rename_i hp hn <;> simp only [ne_eq, not_not] at hp hn <;>
    ext i <;>
    simp only [links, IList.unlink, sessions_modify, listOf, modify_head, setHead_head, setHead_sessions,
      update_apply, hp, hn] <;>
    grind

theorem slotTick_wheelUnlink (t : SessionTable) (idx i : ℕ) :
    ((t.wheelUnlink idx).sessions i).slotTick = (t.sessions i).slotTick := by
  unfold wheelUnlink
  simp only
  split <;> split <;> simp only [sessions_modify, setHead_sessions] <;> grind

theorem links_wheelLink (t : SessionTable) (idx tick : ℕ) :
    (t.wheelLink idx tick).links = t.links.push kNil (some (t.slotFor tick % kWheelSlots)) idx := by
  unfold wheelLink
  simp only [sessions_modify, ↓reduceIte]
  change _ = IList.push kNil t.links (some ((if tick < t.curTick then t.curTick else tick) % kWheelSlots)) idx
  generalize (if tick < t.curTick then t.curTick else tick) = tk
  split <;> rename_i hn <;> simp only [ne_eq, not_not] at hn <;>
    ext i <;>
    simp only [links, IList.push, sessions_modify, listOf, modify_head, setHead_head, setHead_sessions,
      update_apply, head, hn] <;>
    grind

theorem links_pendingPush (t : SessionTable) (idx : ℕ) :
    (t.pendingPush idx).links = t.links.push kNil none idx := by
  unfold pendingPush
  simp only
  change (setHead _ none idx).links = _
  split <;> rename_i hn <;> simp only [ne_eq, not_not] at hn <;>
    ext i <;>
    simp only [links, IList.push, sessions_modify, listOf, modify_head, setHead_head, setHead_sessions,
      update_apply, head, hn] <;>
    grind

/-- `pending_pop` unlinks; the session popped then counts as one of its old
slot again. -/
theorem links_pendingPop (t : SessionTable) : t.pendingPop.1.links =
    { t.links.unlink kNil t.pending with
      key := update t.listOf t.pending (some ((t.sessions t.pending).slotTick % kWheelSlots)) } := by
  have h := links_wheelUnlink t t.pending
  have hslot : ((t.wheelUnlink t.pending).sessions t.pending).slotTick = (t.sessions t.pending).slotTick :=
    slotTick_wheelUnlink t t.pending t.pending
  have hk : (t.wheelUnlink t.pending).listOf = t.listOf := congrArg IList.key h
  rw [← h, pendingPop_fst]
  ext i
  · simp only [links, sessions_modify]
    split
    · rename_i e; rw [e]
    · rfl
  · simp only [links, sessions_modify]
    split
    · rename_i e; rw [e]
    · rfl
  · simp only [links, modify_head]
  · simp only [links, ← hk, update_apply, ← hslot]
    simp only [listOf, sessions_modify]
    split
    · simp
    · rfl

theorem slotTick_pendingPush (t : SessionTable) (idx i : ℕ) :
    ((t.pendingPush idx).sessions i).slotTick = (t.sessions i).slotTick := by
  unfold pendingPush
  simp only
  split <;> simp only [sessions_modify] <;> grind

theorem slotTick_pendingPop (t : SessionTable) (i : ℕ) :
    (t.pendingPop.1.sessions i).slotTick = (t.sessions i).slotTick := by
  rw [pendingPop_fst, sessions_modify]
  split
  · rename_i e; subst e; exact slotTick_wheelUnlink t _ _
  · exact slotTick_wheelUnlink t _ _

theorem slotTick_wheelLink (t : SessionTable) (idx tick i : ℕ) :
    ((t.wheelLink idx tick).sessions i).slotTick =
      if i = idx then t.slotFor tick else (t.sessions i).slotTick := by
  unfold wheelLink
  simp only [sessions_modify, ↓reduceIte, setHead_sessions]
  change _ = if i = idx then (if tick < t.curTick then t.curTick else tick) else _
  generalize (if tick < t.curTick then t.curTick else tick) = tk
  split <;> simp only [sessions_modify] <;> grind

/-! ### Taking a slot off the wheel -/

/-- The inner loop of `expire` follows the chain from `head` and pushes each
node on `pending`. Its fuel is enough for every chain that is shorter. -/
theorem drainSlot_spec : ∀ {c : List ℕ} {fuel h : ℕ} {t : SessionTable},
    IList.IsChain t.links.next kNil h c → c.Nodup → c.length < fuel →
    ∃ t', drainSlot fuel t h = some t' ∧ SameBut t t' ∧ t'.links = t.links.pushAll kNil none c ∧
      ∀ i, (t'.sessions i).slotTick = (t.sessions i).slotTick
  | [], fuel + 1, h, t, hc, _, _ => by
    refine ⟨t, ?_, .refl t, rfl, fun _ => rfl⟩
    simp [drainSlot, show h = kNil from hc]
  | x :: c, fuel + 1, h, t, hxc, hnd, hf => by
    obtain ⟨rfl, hx, hc⟩ := hxc
    obtain ⟨hxc, hnd⟩ := List.nodup_cons.mp hnd
    have hl := links_pendingPush t h
    have hc' : IList.IsChain (t.pendingPush h).links.next kNil (t.sessions h).wheelNext c := by
      rw [hl]; exact hc.push hxc none
    obtain ⟨t', h1, h2, h3, h4⟩ := drainSlot_spec hc' hnd (by simpa using hf)
    refine ⟨t', ?_, (sameBut_pendingPush t h).trans h2, ?_, ?_⟩
    · simp [drainSlot, hx, h1]
    · rw [h3, hl]; rfl
    · intro i; rw [h4, slotTick_pendingPush]

theorem links_setHead (t : SessionTable) (slot : ℕ) :
    (t.setHead (some slot) kNil).links = t.links.clear kNil (some slot) := by
  simp only [links, setHead_sessions, setHead_head, IList.clear]
  rfl

end SessionTable
end L4Lb
