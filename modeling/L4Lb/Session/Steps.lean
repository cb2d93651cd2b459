/-
# What the callers do to the sessions

A packet makes a few calls on the session table. `TableStep New t t'` says
what a sequence of such calls has done: the table stays fit and reachable, and
every session live afterwards was live before with the same identity, or is
new and its identity satisfies `New`. Identity is what stays as long as a
session lives: its keys, its real server and its service.
-/
import L4Lb.Session.Expire

namespace L4Lb

/-- What stays as long as a session lives. -/
structure SessionId where
  client : FiveTuple
  server : FiveTuple
  fullnat : Bool
  rsId : ℕ
  svcIdx : ℕ
  deriving DecidableEq

def Session.ident (s : Session) : SessionId := ⟨s.client, s.server, s.fullnat, s.rsId, s.svcIdx⟩

theorem Session.ident_of_core {s s' : Session} (h : s'.core = s.core) : s'.ident = s.ident := by
  have hi : ∀ s : Session, s.core.ident = s.ident := fun _ => rfl
  rw [← hi s', h, hi s]

theorem Session.hasKey_of_ident {s s' : Session} (h : s'.ident = s.ident) (k : FiveTuple) :
    s'.HasKey k ↔ s.HasKey k := by
  obtain ⟨h1, h2, h3, -, -⟩ := SessionId.mk.inj h
  unfold Session.HasKey
  rw [h1, h2, h3]

namespace SessionTable

variable {t t' t'' : SessionTable} {New : SessionId → Prop} {i : ℕ}

theorem Fit.lookup_iff (h : Fit t) (k : FiveTuple) (i : ℕ) :
    t.lookup k = some i ↔ t.Live i ∧ (t.sessions i).HasKey k := h.consistent.lookup_iff k i

structure TableStep (New : SessionId → Prop) (t t' : SessionTable) : Prop where
  fit : Fit t'
  reach : ∀ {capacity tick : ℕ}, Reach capacity tick t → Reach capacity tick t'
  live : ∀ i, t'.Live i → (t.Live i ∧ (t'.sessions i).ident = (t.sessions i).ident) ∨ New (t'.sessions i).ident

namespace TableStep

theorem refl (h : Fit t) : TableStep New t t := ⟨h, id, fun _ hi => Or.inl ⟨hi, rfl⟩⟩

theorem trans (h : TableStep New t t') (h' : TableStep New t' t'') : TableStep New t t'' := by
  refine ⟨h'.fit, fun hr => h'.reach (h.reach hr), fun i hi => ?_⟩
  rcases h'.live i hi with ⟨hi', he⟩ | hn
  · rcases h.live i hi' with ⟨hi, he'⟩ | hn
    · exact Or.inl ⟨hi, he.trans he'⟩
    · exact Or.inr (he ▸ hn)
  · exact Or.inr hn

theorem mono {New' : SessionId → Prop} (h : TableStep New t t') (hn : ∀ s, New s → New' s) :
    TableStep New' t t' :=
  ⟨h.fit, h.reach, fun i hi => (h.live i hi).imp_right (hn _)⟩

/-- A session whose keys stay in the table is found as before. -/
theorem lookup_eq (h : TableStep New t t') (hf : Fit t) {k : FiveTuple} (hi : t.lookup k = some i)
    (hl : t'.Live i) (he : (t'.sessions i).ident = (t.sessions i).ident) : t'.lookup k = some i := by
  rw [h.fit.lookup_iff, Session.hasKey_of_ident he]
  exact ⟨hl, ((hf.lookup_iff k i).mp hi).2⟩

/-- The step of one allowed operation. -/
theorem of_op (op : Op) (h : Fit t) (ha : op.Allowed t) (hr : op.run t = some t')
    (hl : ∀ i, t'.Live i →
      (t.Live i ∧ (t'.sessions i).ident = (t.sessions i).ident) ∨ New (t'.sessions i).ident) :
    TableStep New t t' :=
  ⟨h.step ha hr, fun hreach => .step op hreach ha hr, hl⟩

end TableStep

/-! ### The operations -/

theorem Fit.live_remove (h : Fit t) (hi : t.Live i) (j : ℕ) : (t.remove i).Live j ↔ t.Live j ∧ j ≠ i := by
  rw [(h.remove hi).live_iff]
  rfl

theorem TableStep.remove (h : Fit t) (hi : t.Live i) : TableStep New t (t.remove i) := by
  refine .of_op (.remove i) h hi rfl fun j hj => Or.inl ⟨((h.live_remove hi j).mp hj).1, ?_⟩
  exact Session.ident_of_core (remove_core t i j)

theorem Fit.live_touch (h : Fit t) (hi : t.Live i) (now timeout j : ℕ) :
    (t.touch i now timeout).Live j ↔ t.Live j := by
  rw [(h.touch hi now timeout).live_iff]
  rfl

/-- `touch` keeps whatever does not depend on the timer. -/
theorem touch_same {α : Type} (φ : Session → α) (hcore : ∀ {s s' : Session}, s'.core = s.core → φ s' = φ s)
    (hexp : ∀ (s : Session) (e : ℕ), φ { s with expireTick := e } = φ s) (t : SessionTable) (i now timeout j : ℕ) :
    φ ((t.touch i now timeout).sessions j) = φ (t.sessions j) := by
  have hmod : ∀ u : SessionTable,
      φ ((u.modify i fun s => { s with expireTick := deadline now timeout }).sessions j) = φ (u.sessions j) := by
    intro u
    rw [sessions_modify]
    split
    · rename_i e
      rw [e, hexp]
    · rfl
  unfold touch
  simp only
  rw [hmod]
  split
  · exact hcore (((sameBut_wheelUnlink t i).trans (sameBut_wheelLink _ i _)).core j)
  · rfl

theorem touch_ident (t : SessionTable) (i now timeout j : ℕ) :
    ((t.touch i now timeout).sessions j).ident = (t.sessions j).ident :=
  touch_same Session.ident Session.ident_of_core (fun _ _ => rfl) t i now timeout j

theorem TableStep.touch (h : Fit t) (hi : t.Live i) (now timeout : ℕ) :
    TableStep New t (t.touch i now timeout) := by
  refine .of_op (.touch i now timeout) h hi rfl fun j hj => Or.inl ⟨?_, touch_ident t i now timeout j⟩
  exact (h.live_touch hi now timeout j).mp hj

/-- A write of the packet path: it leaves the table's own fields and the
identity alone. -/
def Quiet (f : Session → Session) : Prop :=
  ∀ s : Session, s.SameInTable (f s) ∧ (f s).expireTick = s.expireTick ∧ (f s).ident = s.ident

theorem live_modify {f : Session → Session} (hf : (t.sessions i).SameInTable (f (t.sessions i))) (j : ℕ) :
    (t.modify i f).Live j ↔ t.Live j := by
  obtain ⟨-, -, -, -, h, -, -⟩ := hf
  unfold Live
  rw [sessions_modify]
  split
  · rename_i e; rw [e, h]; rfl
  · rfl

theorem TableStep.modify (h : Fit t) (hi : t.Live i) {f : Session → Session} (hf : Quiet f) :
    TableStep New t (t.modify i f) := by
  obtain ⟨h1, h2, h3⟩ := hf (t.sessions i)
  refine .of_op (.write i f) h ⟨hi, h1, h2⟩ rfl fun j hj => Or.inl ⟨(live_modify h1 j).mp hj, ?_⟩
  rw [sessions_modify]
  split
  · rename_i e; rw [e, h3]
  · rfl

theorem TableStep.expire (h : Fit t) {now : ℕ} {r : ExpireResult} (hr : t.expire now = some r) :
    TableStep New t r.table := by
  obtain ⟨⟨out, -, -, he⟩, -⟩ := (expire_spec h now).1 r hr
  refine .of_op (.expire now) h trivial (by rw [Op.run, hr]; rfl) fun i hi => Or.inl ⟨?_, ?_⟩
  · exact ((he.live i).mp hi).1
  · exact Session.ident_of_core (he.core i)

/-- A session has been created at `i`. -/
structure Created (t t' : SessionTable) (i : ℕ) (client : FiveTuple) (server : Option FiveTuple) : Prop where
  fit : Fit t'
  reach : ∀ {capacity tick : ℕ}, Reach capacity tick t → Reach capacity tick t'
  fresh : ¬ t.Live i
  live : ∀ j, t'.Live j ↔ j = i ∨ t.Live j
  others : ∀ j, j ≠ i → (t'.sessions j).ident = (t.sessions j).ident
  client_eq : (t'.sessions i).client = client
  server_eq : ∀ s, server = some s → (t'.sessions i).server = s
  flags_eq : (t'.sessions i).flags = if server.isSome then SF_FULLNAT else 0

/-- `create` makes a session or leaves the table as it is. -/
theorem Fit.create (h : Fit t) {client : FiveTuple} {server : Option FiveTuple} (hc : t.lookup client = none)
    (hs : ∀ s, server = some s → t.lookup s = none ∧ s ≠ client) (now timeout : ℕ) :
    t.create client server now timeout = (t, none) ∨
    ∃ i, (t.create client server now timeout).2 = some i ∧
      Created t (t.create client server now timeout).1 i client server := by
  have ha : (Op.create client server now timeout).Allowed t := ⟨hc, hs⟩
  rcases Good.create h hc (fun s hs' => (hs s hs').1) now timeout with
    ⟨-, he⟩ | ⟨idx, rest, hash, u, -, hidx, hu, hudef, he⟩
  · exact Or.inl he
  right
  have hgood := hu.wheelLink (Set.mem_insert _ _) hidx (deadline now timeout)
  have hsess : ∀ j, ((u.wheelLink idx (deadline now timeout)).sessions j).core = (u.sessions j).core :=
    (sameBut_wheelLink u idx (deadline now timeout)).core
  have hnew : u.sessions idx = newSession client server now timeout := by
    rw [hudef, sessions_modify, if_pos rfl]
  obtain ⟨hk1, hk2, hk3⟩ := Session.keys_of_core (hsess idx)
  rw [hnew] at hk1 hk2 hk3
  refine ⟨idx, by rw [he], ?_⟩
  have hstep : Fit (t.create client server now timeout).1 := h.step ha rfl
  rw [he] at hstep ⊢
  refine ⟨hstep, fun hr => ?_, fun hl => hidx hl, fun j => ?_, fun j hj => ?_, ?_, ?_, ?_⟩
  · refine .step (.create client server now timeout) hr ha ?_
    rw [Op.run, he]
  · rw [hgood.live_iff]
    rfl
  · rw [Session.ident_of_core (hsess j), hudef, sessions_modify, if_neg hj]
  · refine hk1.trans ?_
    cases server <;> rfl
  · rintro s rfl
    exact hk2
  · rw [hk3]
    cases server <;> rfl

/-- The new session with its identity completed. -/
theorem Created.modify (New : SessionId → Prop) {client : FiveTuple} {server : Option FiveTuple}
    (h : Created t t' i client server) {f : Session → Session}
    (hf : ∀ s : Session, s.SameInTable (f s) ∧ (f s).expireTick = s.expireTick)
    (hn : New (f (t'.sessions i)).ident) : TableStep New t (t'.modify i f) := by
  have hi : t'.Live i := (h.live i).mpr (Or.inl rfl)
  obtain ⟨h1, h2⟩ := hf (t'.sessions i)
  have ha : (Op.write i f).Allowed t' := ⟨hi, h1, h2⟩
  refine ⟨h.fit.step ha rfl, fun hr => .step (.write i f) (h.reach hr) ha rfl, fun j hj => ?_⟩
  rw [live_modify h1, h.live] at hj
  rw [sessions_modify]
  by_cases hji : j = i
  · rw [if_pos hji]
    exact Or.inr hn
  · rw [if_neg hji]
    exact Or.inl ⟨hj.resolve_left hji, h.others j hji⟩

end SessionTable
end L4Lb
