/-
# Expiry, and runs of the session table

The loop of `expire` takes slots off the wheel and pops the sessions of the
slot one by one. `expireLoop_rule` is the rule for it: what the three kinds of
turn keep holds at the end, and the end comes. With `Good` for the invariant
it gives what `expire` releases (`expire_spec`), and with the lemmas of
`Session/Consistent` what holds in every table a run leads to
(`reach_consistent`).
-/
import L4Lb.Session.Consistent

namespace L4Lb
namespace SessionTable

variable {t t' : SessionTable} {N L : Set ℕ} {x : ℕ}

/-! ### The loop of `expire` -/

theorem expireLoop_pop {now fuel : ℕ} {r : ExpireResult} (hb : r.budget ≠ 0)
    (hp : r.table.pending ≠ kNil) : expireLoop now (fuel + 1) r =
      if (r.table.pendingPop.1.sessions r.table.pending).expireTick ≤ now then
        expireLoop now fuel ⟨r.table.pendingPop.1.remove r.table.pending, r.removed + 1, r.budget - 1⟩
      else expireLoop now fuel ⟨r.table.pendingPop.1.wheelLink r.table.pending
        (r.table.pendingPop.1.sessions r.table.pending).expireTick, r.removed, r.budget - 1⟩ := by
  conv_lhs => unfold expireLoop
  simp only [hb, hp, ↓reduceIte]
  rfl

/-- The rule of the loop of `expire`. An invariant that taking a slot,
removing a popped session and relinking one keep holds when the loop ends;
and it ends, since each turn uses up budget or a tick. -/
theorem expireLoop_rule {now : ℕ} {P : ExpireResult → Prop}
    (take : ∀ r, P r → r.budget ≠ 0 → r.table.pending = kNil → r.table.curTick ≤ now →
      ∃ t', r.table.takeSlot = some t' ∧ t'.curTick = (r.table.curTick + 1) % 2 ^ 64 ∧
        P { r with table := t' })
    (free : ∀ r, P r → r.budget ≠ 0 → r.table.pending ≠ kNil →
      (r.table.pendingPop.1.sessions r.table.pending).expireTick ≤ now →
      P ⟨r.table.pendingPop.1.remove r.table.pending, r.removed + 1, r.budget - 1⟩)
    (keep : ∀ r, P r → r.budget ≠ 0 → r.table.pending ≠ kNil →
      ¬ (r.table.pendingPop.1.sessions r.table.pending).expireTick ≤ now →
      P ⟨r.table.pendingPop.1.wheelLink r.table.pending
          (r.table.pendingPop.1.sessions r.table.pending).expireTick, r.removed, r.budget - 1⟩) :
    ∀ (fuel : ℕ) (r : ExpireResult), P r →
      (∀ r', expireLoop now fuel r = some r' →
        P r' ∧ (r'.budget = 0 ∨ r'.table.pending = kNil ∧ now < r'.table.curTick)) ∧
      (now < 2 ^ 64 - 1 → r.budget + (now + 1 - r.table.curTick) < fuel → (expireLoop now fuel r).isSome)
  | 0, r, _ => ⟨by simp [expireLoop], by omega⟩
  | fuel + 1, r, hP => by
    by_cases hb : r.budget = 0
    · simp [expireLoop, hb, hP]
    by_cases hp : r.table.pending = kNil
    · unfold expireLoop
      simp only [hb, hp, ↓reduceIte]
      by_cases hc : r.table.curTick > now
      · simp only [hc, ↓reduceIte, Option.some.injEq, Option.isSome_some, implies_true, and_true]
        rintro r' rfl
        exact ⟨hP, Or.inr ⟨hp, hc⟩⟩
      · obtain ⟨t', ht', hcur, hP'⟩ := take r hP hb hp (not_lt.mp hc)
        obtain ⟨ih1, ih2⟩ := expireLoop_rule take free keep fuel _ hP'
        simp only [hc, ↓reduceIte, ht', Option.bind_some]
        refine ⟨ih1, fun hn hm => ih2 hn ?_⟩
        have : (r.table.curTick + 1) % 2 ^ 64 = r.table.curTick + 1 := Nat.mod_eq_of_lt (by omega)
        simp only [hcur, this]
        omega
    · have hpop := (sameBut_pendingPop r.table).curTick
      rw [expireLoop_pop hb hp]
      by_cases hd : (r.table.pendingPop.1.sessions r.table.pending).expireTick ≤ now
      · obtain ⟨ih1, ih2⟩ := expireLoop_rule take free keep fuel _ (free r hP hb hp hd)
        simp only [hd, ↓reduceIte]
        refine ⟨ih1, fun hn hm => ih2 hn ?_⟩
        have hcur : (r.table.pendingPop.1.remove r.table.pending).curTick = r.table.curTick := by
          rw [remove_eq, ← hpop]
          exact (sameBut_wheelUnlink _ _).curTick
        simp only [hcur]
        omega
      · obtain ⟨ih1, ih2⟩ := expireLoop_rule take free keep fuel _ (keep r hP hb hp hd)
        simp only [hd, ↓reduceIte]
        refine ⟨ih1, fun hn hm => ih2 hn ?_⟩
        simp only [(sameBut_wheelLink _ _ _).curTick, hpop]
        omega

theorem Sound.pop_remove (h : Sound t L L) (hp : t.pending ≠ kNil) : t.pending ∈ L ∧
    Sound (t.pendingPop.1.remove t.pending) (L \ {t.pending}) (L \ {t.pending}) := by
  obtain ⟨hg, hx, hprev, hnext⟩ := h.pendingPop hp
  have hr := hg.remove hx (Or.inr ⟨hprev, hnext⟩)
  rw [sdiff_idem] at hr
  exact ⟨hx, hr⟩

theorem Good.pop_remove (h : Good t L L) (hp : t.pending ≠ kNil) : t.pending ∈ L ∧
    Good (t.pendingPop.1.remove t.pending) (L \ {t.pending}) (L \ {t.pending}) := by
  obtain ⟨hx, hr⟩ := h.toSound.pop_remove hp
  exact ⟨hx, hr, (h.keys.of_sameBut (sameBut_pendingPop t)).remove hx⟩

theorem Good.pop_wheelLink (h : Good t L L) (hp : t.pending ≠ kNil) (tick : ℕ) :
    Good (t.pendingPop.1.wheelLink t.pending tick) L L := by
  obtain ⟨hg, hx, -, -⟩ := h.pendingPop hp
  have hl := hg.wheelLink hx (by simp) tick
  rw [Set.insert_sdiff_singleton, Set.insert_eq_self.mpr hx] at hl
  exact ⟨hl, h.keys.of_sameBut ((sameBut_pendingPop t).trans (sameBut_wheelLink _ _ tick))⟩

/-- What `expire` has done when it has released the sessions `out`: they were
live, they were due, and nothing else has happened to the sessions but moves
on the timer lists. -/
structure Expired (t : SessionTable) (now : ℕ) (out : List ℕ) (r : ExpireResult) : Prop where
  freeStack : r.table.freeStack = out ++ t.freeStack
  nodup : out.Nodup
  removed : r.removed = out.length
  due : ∀ i ∈ out, t.Live i ∧ (t.sessions i).expireTick ≤ now
  live : ∀ i, r.table.Live i ↔ t.Live i ∧ i ∉ out
  core : ∀ i, (r.table.sessions i).core = (t.sessions i).core

theorem Expired.init (t : SessionTable) (now budget : ℕ) : Expired t now [] ⟨t, 0, budget⟩ :=
  ⟨rfl, List.nodup_nil, rfl, by simp, by simp, fun _ => rfl⟩

/-- Expired, and the table is good. -/
def Expiring (t : SessionTable) (now : ℕ) (r : ExpireResult) : Prop :=
  ∃ out L, Good r.table L L ∧ Expired t now out r

theorem Expiring.take {now : ℕ} {r : ExpireResult} (h : Expiring t now r) :
    ∃ t', r.table.takeSlot = some t' ∧ t'.curTick = (r.table.curTick + 1) % 2 ^ 64 ∧
      Expiring t now { r with table := t' } := by
  obtain ⟨out, L, hg, he⟩ := h
  obtain ⟨t', -, ht', hsound, -, -, -, hcur, hs, -⟩ := hg.takeSlot
  have hkeys := hg.keys.of_sameBut hs
  have hg' : Good t' L L := ⟨hsound, hkeys.lookup_iff, hkeys.entries⟩
  refine ⟨t', ht', hcur, out, L, hg', ⟨?_, he.nodup, he.removed, he.due, fun i => ?_, fun i => ?_⟩⟩
  · exact hs.freeStack.trans he.freeStack
  · rw [← he.live, hg'.live_iff, hg.live_iff]
  · exact (hs.core i).trans (he.core i)

theorem Expiring.free {now : ℕ} {r : ExpireResult} (h : Expiring t now r) (hp : r.table.pending ≠ kNil)
    (hd : (r.table.pendingPop.1.sessions r.table.pending).expireTick ≤ now) :
    Expiring t now ⟨r.table.pendingPop.1.remove r.table.pending, r.removed + 1, r.budget - 1⟩ := by
  obtain ⟨out, L, hg, he⟩ := h
  have hs := sameBut_pendingPop r.table
  obtain ⟨hx, hg'⟩ := hg.pop_remove hp
  have hxl := (he.live _).mp ((hg.live_iff _).mpr hx)
  refine ⟨r.table.pending :: out, _, hg', ⟨?_, ?_, ?_, ?_, fun i => ?_, fun i => ?_⟩⟩
  · rw [remove_eq]
    simp [hs.freeStack, he.freeStack]
  · exact List.nodup_cons.mpr ⟨hxl.2, he.nodup⟩
  · simp [he.removed]
  · intro i hi
    rcases List.mem_cons.mp hi with rfl | hi
    · refine ⟨hxl.1, ?_⟩
      rwa [← Session.expireTick_of_core (he.core _), ← Session.expireTick_of_core (hs.core _)]
    · exact he.due i hi
  · rw [hg'.live_iff, Set.mem_sdiff, ← hg.live_iff, he.live, List.mem_cons, Set.mem_singleton_iff]
    tauto
  · rw [remove_core, hs.core, he.core]

theorem Expiring.keep {now : ℕ} {r : ExpireResult} (h : Expiring t now r) (hp : r.table.pending ≠ kNil) :
    Expiring t now ⟨r.table.pendingPop.1.wheelLink r.table.pending
      (r.table.pendingPop.1.sessions r.table.pending).expireTick, r.removed, r.budget - 1⟩ := by
  obtain ⟨out, L, hg, he⟩ := h
  have hs := (sameBut_pendingPop r.table).trans (sameBut_wheelLink _ r.table.pending
    (r.table.pendingPop.1.sessions r.table.pending).expireTick)
  have hg' := hg.pop_wheelLink hp (r.table.pendingPop.1.sessions r.table.pending).expireTick
  refine ⟨out, L, hg', ⟨?_, he.nodup, he.removed, he.due, fun i => ?_, fun i => ?_⟩⟩
  · exact hs.freeStack.trans he.freeStack
  · rw [← he.live, hg'.live_iff, hg.live_iff]
  · exact (hs.core i).trans (he.core i)

/-- `expire` returns for every `now` below the largest 64-bit value, and
releases sessions that were live and due, each once. -/
theorem expire_spec (h : Good t L L) (now : ℕ) :
    (∀ r, t.expire now = some r → Expiring t now r ∧
      (r.budget = 0 ∨ r.table.pending = kNil ∧ now < r.table.curTick)) ∧
    (now < 2 ^ 64 - 1 → (t.expire now).isSome) := by
  have h0 : Expiring t now ⟨t, 0, kExpireBudget⟩ := ⟨[], L, h, Expired.init t now _⟩
  obtain ⟨h1, h2⟩ := expireLoop_rule (fun r hr _ _ _ => hr.take) (fun r hr _ hp hd => hr.free hp hd)
    (fun r hr _ hp _ => hr.keep hp) (kExpireBudget + (now + 1 - t.curTick) + 1) _ h0
  exact ⟨h1, fun hn => h2 hn (Nat.lt_succ_self _)⟩

/-! ### Runs -/

/-- The operations on a table. `write` stands for what the packet path writes
to a session through its pointer. -/
inductive Op where
  | create (client : FiveTuple) (server : Option FiveTuple) (nowTick timeout : ℕ)
  | remove (i : ℕ)
  | touch (i nowTick timeout : ℕ)
  | expire (nowTick : ℕ)
  | write (i : ℕ) (f : Session → Session)

/-- The table after an operation; `none` if it does not return. -/
def Op.run (t : SessionTable) : Op → Option SessionTable
  | .create client server now timeout => some (t.create client server now timeout).1
  | .remove i => some (t.remove i)
  | .touch i now timeout => some (t.touch i now timeout)
  | .expire now => (t.expire now).map (·.table)
  | .write i f => some (t.modify i f)

/-- What the callers of the table keep to: new keys for a new session, and
live sessions otherwise. -/
def Op.Allowed (t : SessionTable) : Op → Prop
  | .create client server _ _ => t.lookup client = none ∧
      ∀ s, server = some s → t.lookup s = none ∧ s ≠ client
  | .remove i => t.Live i
  | .touch i _ _ => t.Live i
  | .expire _ => True
  | .write i f => t.Live i ∧ Session.SameInTable (t.sessions i) (f (t.sessions i)) ∧
      (f (t.sessions i)).expireTick = (t.sessions i).expireTick

/-- The tables that runs of the operations lead to. -/
inductive Reach (capacity tick : ℕ) : SessionTable → Prop where
  | init : Reach capacity tick (init capacity tick)
  | step {t t' : SessionTable} (op : Op) : Reach capacity tick t → op.Allowed t →
      op.run t = some t' → Reach capacity tick t'

/-- The table is good for the sessions that are live in it. -/
def Fit (t : SessionTable) : Prop := Good t {i | t.Live i} {i | t.Live i}

theorem Good.fit (h : Good t L L) : Fit t := by
  unfold Fit
  rwa [h.live_eq]

theorem Fit.step {op : Op} (h : Fit t) (ha : op.Allowed t) (hr : op.run t = some t') : Fit t' := by
  cases op with
  | create client server now timeout =>
    obtain rfl := Option.some.inj hr
    rcases h.create ha.1 (fun s hs => (ha.2 s hs).1) now timeout with
      ⟨-, he⟩ | ⟨idx, rest, hash, u, -, hidx, hu, -, he⟩
    · rw [he]; exact h
    · rw [he]; exact (hu.wheelLink (Set.mem_insert _ _) hidx _).fit
  | remove i =>
    obtain rfl := Option.some.inj hr
    exact (h.remove ha).fit
  | touch i now timeout =>
    obtain rfl := Option.some.inj hr
    exact (h.touch ha now timeout).fit
  | expire now =>
    obtain ⟨r, he, rfl⟩ := Option.map_eq_some_iff.mp hr
    obtain ⟨⟨-, L, hg, -⟩, -⟩ := (expire_spec h now).1 r he
    exact hg.fit
  | write i f =>
    obtain rfl := Option.some.inj hr
    exact (h.modify ha.2.1).fit

theorem Reach.fit {capacity tick : ℕ} (hcap : capacity ≤ kMaxSessions) (h : Reach capacity tick t) :
    Fit t := by
  induction h with
  | init => exact (good_init hcap tick).fit
  | step op _ ha hr ih => exact ih.step ha hr

/-- What the four structures of the table have to agree on. -/
structure Consistent (t : SessionTable) : Prop where
  free_nodup : t.freeStack.Nodup
  free_iff : ∀ i, i ∈ t.freeStack ↔ i < t.capacity ∧ ¬ t.Live i
  active_eq : t.active = ((Finset.range t.capacity).filter t.Live).card
  lookup_iff : ∀ k i, t.lookup k = some i ↔ t.Live i ∧ (t.sessions i).HasKey k

theorem Fit.consistent (h : Fit t) : Consistent t := by
  refine ⟨h.free_nodup, h.free_mem, ?_, h.keys.lookup_iff⟩
  rw [← h.active_eq]
  congr 1
  ext i
  have := h.free_mem i
  simp only [Set.mem_ofPred_eq] at this
  simp only [Finset.mem_filter, Finset.mem_range, this]
  tauto

/-- **The session table stays consistent.** In every table that a run of the
operations leads to: the free stack is the non-live sessions, each once;
`active` counts the live ones; `lookup` finds a live session by its keys and
nothing else; `remove` releases a session that is not on the free stack; and
`expire` returns and releases live sessions whose deadline has passed, each
once, and no others. -/
theorem reach_consistent {capacity tick : ℕ} (hcap : capacity ≤ kMaxSessions)
    (h : Reach capacity tick t) :
    Consistent t ∧
    (∀ i, t.Live i → i ∉ t.freeStack ∧ (t.remove i).freeStack = i :: t.freeStack) ∧
    (∀ now r, t.expire now = some r → ∃ out, Expired t now out r) ∧
    ∀ now, now < 2 ^ 64 - 1 → (t.expire now).isSome := by
  have hf := h.fit hcap
  refine ⟨hf.consistent, fun i hi => ⟨fun hm => ?_, by rw [remove_eq]⟩, fun now r hr => ?_,
    fun now hn => (expire_spec hf now).2 hn⟩
  · exact ((hf.free_mem i).mp hm).2 hi
  · obtain ⟨⟨out, L, -, he⟩, -⟩ := (expire_spec hf now).1 r hr
    exact ⟨out, he⟩

/-- A table of two sessions, with one FULLNAT session in it. -/
def oneSession : SessionTable :=
  ((init 2 1).create ⟨1, 2, 3, 4, 6⟩ (some ⟨5, 6, 7, 8, 6⟩) 1 5).1

theorem reach_oneSession : Reach 2 1 oneSession := by
  refine .step (.create ⟨1, 2, 3, 4, 6⟩ (some ⟨5, 6, 7, 8, 6⟩) 1 5) .init ⟨rfl, ?_⟩ rfl
  rintro s ⟨rfl⟩
  exact ⟨rfl, by decide⟩

/-- The table with a second FULLNAT session, of an hour. -/
def twoSessions : SessionTable :=
  (oneSession.create ⟨2, 2, 3, 4, 6⟩ (some ⟨5, 6, 7, 9, 6⟩) 1 3600).1

/-- Session 0 is released at tick 7, and session 1 is still found by its keys. -/
theorem reach_consistent_twoSessions : Consistent twoSessions ∧ twoSessions.active = 2 ∧
    twoSessions.lookup ⟨5, 6, 7, 8, 6⟩ = some 0 ∧ twoSessions.lookup ⟨5, 6, 7, 9, 6⟩ = some 1 ∧
    (twoSessions.remove 1).freeStack = [1] ∧
    ∃ r, twoSessions.expire 7 = some r ∧ Expired twoSessions 7 [0] r ∧ Consistent r.table ∧
      r.table.lookup ⟨5, 6, 7, 8, 6⟩ = none ∧ r.table.lookup ⟨5, 6, 7, 9, 6⟩ = some 1 := by
  have hreach : Reach 2 1 twoSessions := by
    refine .step (.create ⟨2, 2, 3, 4, 6⟩ (some ⟨5, 6, 7, 9, 6⟩) 1 3600) reach_oneSession ⟨rfl, ?_⟩ rfl
    rintro s ⟨rfl⟩
    exact ⟨rfl, by decide⟩
  obtain ⟨h1, h2, h3, h4⟩ := reach_consistent (by decide) hreach
  obtain ⟨r, hr⟩ := Option.isSome_iff_exists.mp (h4 7 (by decide))
  obtain ⟨out, hout⟩ := h3 7 r hr
  have hnext : Reach 2 1 r.table := .step (.expire 7) hreach trivial (by rw [Op.run, hr]; rfl)
  have heval : (twoSessions.expire 7).map (fun r => (r.table.freeStack, r.table.lookup ⟨5, 6, 7, 8, 6⟩,
      r.table.lookup ⟨5, 6, 7, 9, 6⟩)) = some ([0], none, some 1) := by decide +kernel
  rw [hr, Option.map_some] at heval
  simp only [Option.some.injEq, Prod.mk.injEq] at heval
  obtain ⟨hfree, hgone, hkept⟩ := heval
  obtain rfl : out = [0] := by
    have := hout.freeStack
    rwa [hfree, show twoSessions.freeStack = [] from rfl, List.append_nil, eq_comm] at this
  exact ⟨h1, rfl, rfl, rfl, (h2 1 (by decide)).2, r, hr, hout, (reach_consistent (by decide) hnext).1, hgone, hkept⟩

end SessionTable
end L4Lb
