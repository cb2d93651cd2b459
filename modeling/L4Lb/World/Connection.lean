/-
# The connections of a worker

`handle_inbound` and `handle_return` work on a session through its pointer, in
the middle of much else: the table is searched, an old session closed, a new one
made, next hops are looked up and the packet is rewritten. What of this the
connection of one client tuple sees is small. Here it is shown to be what
`TcpState/Connection.lean` says: a packet that the worker handles on a tuple does
to its session what `Conn.next` does, and leaves the sessions of other tuples
alone (`inboundAtOwner_conns`, `returnAtOwner_conns`).
-/
import L4Lb.Processor.Icmp
import L4Lb.TcpState.Connection
import L4Lb.World.Rollback

open Checked

namespace L4Lb

/-- The connection of a session. -/
def Session.conn (s : Session) : Conn := ⟨s.state, s.finSeen, s.expireTick⟩

/-- The connection of a client tuple. -/
def WorkerCtx.conn (w : WorkerCtx) (client : FiveTuple) : Option Conn :=
  (w.sessions.lookup client).map fun i => (w.session i).conn

/-- The keys lead to the same sessions, with the same connections. -/
structure SameConns (w w' : WorkerCtx) : Prop where
  lookup : ∀ k, w'.sessions.lookup k = w.sessions.lookup k
  session : ∀ i, (w'.session i).conn = (w.session i).conn

namespace SameConns

variable {w w' w'' : WorkerCtx}

theorem refl (w : WorkerCtx) : SameConns w w := ⟨fun _ => rfl, fun _ => rfl⟩

theorem trans (h : SameConns w w') (h' : SameConns w' w'') : SameConns w w'' :=
  ⟨fun k => (h'.lookup k).trans (h.lookup k), fun i => (h'.session i).trans (h.session i)⟩

theorem of_sessions (h : w'.sessions = w.sessions) : SameConns w w' := by
  refine ⟨fun k => by rw [h], fun i => ?_⟩
  unfold WorkerCtx.session
  rw [h]

theorem of_same (h : SameSessions w w') : SameConns w w' := of_sessions h.sessions

theorem conn_eq (h : SameConns w w') (k : FiveTuple) : w'.conn k = w.conn k := by
  unfold WorkerCtx.conn
  rw [h.lookup]
  cases w.sessions.lookup k with
  | none => rfl
  | some i => exact congrArg some (h.session i)

theorem setSession (w : WorkerCtx) (i : ℕ) {f : Session → Session} (hf : ∀ s, (f s).conn = s.conn) :
    SameConns w (w.setSession i f) := by
  refine ⟨fun _ => rfl, fun j => ?_⟩
  unfold WorkerCtx.session WorkerCtx.setSession
  rw [SessionTable.sessions_modify]
  split
  · rename_i e
    rw [hf, e]
  · rfl

theorem resolveRsMac (dp : Dataplane) (view : NeighView) (w : WorkerCtx) (i : ℕ) (rs : RsState) :
    SameConns w (resolveRsMac dp view w i rs).1 := by
  unfold L4Lb.resolveRsMac
  split
  · exact .refl w
  · refine SameConns.trans ?_ (.of_same (.post (w.setSession i _) _))
    exact .setSession w i fun _ => rfl

theorem resolveClientMac (dp : Dataplane) (view : NeighView) (w : WorkerCtx) (i : ℕ) :
    SameConns w (resolveClientMac dp view w i).1 := by
  refine SameConns.trans ?_ (.of_same (.post (w.setSession i _) _))
  exact .setSession w i fun _ => rfl

end SameConns

/-! ### `update_state` -/

theorem Session.conn_of_core {s s' : Session} (h : s'.core = s.core) : s'.conn = s.conn := by
  have hc : ∀ s : Session, s.core.conn = s.conn := fun _ => rfl
  rw [← hc, h, hc]

theorem SessionTable.touch_conn (t : SessionTable) (i now timeout j : ℕ) :
    ((t.touch i now timeout).sessions j).conn =
      if j = i then ⟨(t.sessions i).state, (t.sessions i).finSeen, deadline now timeout⟩ else (t.sessions j).conn := by
  -- the session is moved to another slot, or not
  have key : ∀ u : SessionTable, SameBut t u →
      ((u.modify i fun s => { s with expireTick := deadline now timeout }).sessions j).conn =
        if j = i then ⟨(t.sessions i).state, (t.sessions i).finSeen, deadline now timeout⟩
        else (t.sessions j).conn := by
    intro u hu
    have hc := fun j => Session.conn_of_core (hu.core j)
    rw [sessions_modify]
    split
    · show (⟨(u.sessions i).conn.state, (u.sessions i).conn.finSeen, _⟩ : Conn) = _
      rw [hc]
      rfl
    · exact hc j
  unfold touch
  simp only
  split
  · exact key _ ((sameBut_wheelUnlink t i).trans (sameBut_wheelLink _ i _))
  · exact key t (.refl t)

theorem SessionTable.touch_hash (t : SessionTable) (i now timeout : ℕ) : (t.touch i now timeout).hash = t.hash := by
  unfold touch
  simp only
  split
  · exact ((sameBut_wheelUnlink t i).trans (sameBut_wheelLink _ i _)).hash
  · rfl

theorem updateState_lookup (dp : Dataplane) (w : WorkerCtx) (i : ℕ) (flags : UInt8) (dir : Dir) (k : FiveTuple) :
    (updateState dp w i flags dir).sessions.lookup k = w.sessions.lookup k :=
  congrArg (RteHash.lookupData · k) (SessionTable.touch_hash _ i _ _)

theorem updateState_conn {dp : Dataplane} {w : WorkerCtx} {k : FiveTuple} {i : ℕ}
    (hi : w.sessions.lookup k = some i) (flags : UInt8) (dir : Dir) :
    (updateState dp w i flags dir).conn k =
      some ((w.session i).conn.advance dp.cfg.timeouts ⟨dir, flags, w.nowTick⟩) := by
  have hadv : ((w.session i).advance flags dir).state = (tcpNextState (w.session i).state flags dir
        (w.session i).finSeen).1 ∧
      ((w.session i).advance flags dir).finSeen = (tcpNextState (w.session i).state flags dir
        (w.session i).finSeen).2 := by
    unfold Session.advance
    split
    · rename_i hu
      simp [hu, tcpNextState]
    · exact ⟨rfl, rfl⟩
  have hat : (w.setSession i (·.advance flags dir)).session i = (w.session i).advance flags dir := by
    unfold WorkerCtx.session WorkerCtx.setSession
    rw [SessionTable.sessions_modify, if_pos rfl]
  have hconn := SessionTable.touch_conn (w.setSession i (·.advance flags dir)).sessions i w.nowTick
    (stateTimeout ((w.setSession i (·.advance flags dir)).session i).state dp.cfg.timeouts) i
  rw [if_pos rfl] at hconn
  unfold WorkerCtx.conn
  rw [updateState_lookup, hi, Option.map_some]
  congr 1
  refine Eq.trans hconn ?_
  show (⟨((w.setSession i (·.advance flags dir)).session i).state,
    ((w.setSession i (·.advance flags dir)).session i).finSeen, SessionTable.deadline w.nowTick
      (stateTimeout ((w.setSession i (·.advance flags dir)).session i).state dp.cfg.timeouts)⟩ : Conn) = _
  rw [hat, hadv.1, hadv.2]
  rfl

/-! ### The sessions of other tuples -/

/-- What is found under `k` is left alone. -/
structure Spares (k : FiveTuple) (w w' : WorkerCtx) : Prop where
  lookup : w'.sessions.lookup k = w.sessions.lookup k
  session : ∀ j, w.sessions.lookup k = some j → (w'.session j).conn = (w.session j).conn

namespace Spares

variable {k : FiveTuple} {w w' w'' : WorkerCtx} {i : ℕ}

theorem of_conns (h : SameConns w w') : Spares k w w' := ⟨h.lookup k, fun j _ => h.session j⟩

theorem trans (h : Spares k w w') (h' : Spares k w' w'') : Spares k w w'' :=
  ⟨h'.lookup.trans h.lookup, fun j hj => (h'.session j (h.lookup.trans hj)).trans (h.session j hj)⟩

theorem conn_eq (h : Spares k w w') : w'.conn k = w.conn k := by
  unfold WorkerCtx.conn
  rw [h.lookup]
  cases hj : w.sessions.lookup k with
  | none => rfl
  | some j => exact congrArg some (h.session j hj)

theorem updateState (dp : Dataplane) (hi : w.sessions.lookup k ≠ some i) (flags : UInt8) (dir : Dir) :
    Spares k w (updateState dp w i flags dir) := by
  refine ⟨updateState_lookup dp w i flags dir k, fun j hj => ?_⟩
  have hne : j ≠ i := fun e => hi (e ▸ hj)
  refine (SessionTable.touch_conn (w.setSession i (·.advance flags dir)).sessions i _ _ j).trans ?_
  rw [if_neg hne]
  unfold WorkerCtx.setSession
  rw [SessionTable.sessions_modify, if_neg hne]
  rfl

theorem closeSession (h : w.Has i) (hi : w.sessions.lookup k ≠ some i) : Spares k w (closeSession w i) := by
  have hs : WorkerStep (fun _ => False) w (L4Lb.closeSession w i) := closeSession_step h
  have hcore := SessionTable.remove_core w.sessions i
  refine ⟨Option.ext fun j => ?_, fun j _ => Session.conn_of_core (hcore j)⟩
  rw [hs.fit.lookup_iff, h.fit.lookup_iff]
  constructor
  · rintro ⟨hl, hk⟩
    exact ⟨((h.fit.live_remove h.live j).mp hl).1, (Session.hasKey_of_core (hcore j) k).mp hk⟩
  · rintro ⟨hl, hk⟩
    refine ⟨(h.fit.live_remove h.live j).mpr ⟨hl, ?_⟩, (Session.hasKey_of_core (hcore j) k).mpr hk⟩
    rintro rfl
    exact hi ((h.fit.lookup_iff k j).mpr ⟨hl, hk⟩)

/-- A session is put beside the others, under other keys. -/
theorem of_beside (hf : SessionTable.Fit w.sessions) (h : SessionTable.Beside w.sessions i w'.sessions)
    (hk : ¬ (w'.session i).HasKey k) : Spares k w w' := by
  refine ⟨h.lookup k hk, fun j hj => Session.conn_of_core (h.core j ?_)⟩
  rintro rfl
  exact h.fresh ((hf.lookup_iff k j).mp hj).1

end Spares

/-! ### New sessions -/

section Handlers

variable {dp : Dataplane} {view : NeighView} {snap : Snapshot} {w : WorkerCtx} {m : Mbuf} {p : PacketMeta}
  {k : FiveTuple} {i : ℕ} {rs : RsState}

theorem SessionTable.create_finSeen {t : SessionTable} {client : FiveTuple} {server : Option FiveTuple}
    {now timeout : ℕ} (h : (t.create client server now timeout).2 = some i) :
    ((t.create client server now timeout).1.sessions i).finSeen = 0 := by
  -- the session is written, then linked
  have hlink : ∀ (u : SessionTable) (s : Session) (tick : ℕ), s.finSeen = 0 →
      (((u.modify i fun _ => s).wheelLink i tick).sessions i).finSeen = 0 := by
    intro u s tick hs
    have hc := congrArg Conn.finSeen (Session.conn_of_core ((sameBut_wheelLink (u.modify i fun _ => s) i tick).core i))
    rw [sessions_modify, if_pos rfl] at hc
    exact hc.trans hs
  unfold create at h ⊢
  cases hf : t.freeStack with
  | nil => simp [hf] at h
  | cons idx rest =>
    simp only [hf] at h ⊢
    cases hc : t.hash.addKeyData client idx with
    | none => simp [hc] at h
    | some hash =>
      simp only [hc] at h ⊢
      cases server with
      | none =>
        obtain rfl : idx = i := by simpa using h
        exact hlink _ _ _ rfl
      | some server =>
        simp only at h ⊢
        cases hs : hash.addKeyData server idx with
        | none => simp [hs] at h
        | some hash' =>
          simp only [hs] at h ⊢
          obtain rfl : idx = i := by simpa using h
          exact hlink _ _ _ rfl

theorem createSession_finSeen (client : FiveTuple) (rs : RsState) (timeout : ℕ) :
    Ensures (createSession dp w snap client rs timeout) fun x => ∀ i, x.2 = .ok i → (x.1.session i).finSeen = 0 := by
  refine (createSession_call client rs timeout).mono fun x hx i hi => ?_
  cases hx with
  | refused cursors => cases hi
  | full cursors hfree hcall => cases hi
  | made cursors rr hfree hcall =>
    obtain rfl := Except.ok.inj hi
    have hfin := SessionTable.create_finSeen (congrArg Prod.snd hcall)
    rw [hcall] at hfin
    exact hfin

/-- A new TCP session has seen no segment. -/
theorem newSession_conn (svc : Service) {tuple : FiveTuple} (htcp : tuple.protocol = 6) :
    Ensures (newSession dp w snap svc tuple m) fun x => ∀ i, x.2 = .ok i →
      (x.1.session i).state = .none ∧ (x.1.session i).finSeen = 0 := by
  unfold newSession
  simp only [pure_eq_ok, throw_eq_error]
  generalize svc.sched.pick dp.H tuple (w.cursors svc.idx) = picked
  rcases picked with ⟨_ | c, cursor⟩
  · exact .ok fun _ h => by simp at h
  simp only
  cases svc.rs[c]? with
  | none => exact .error
  | some rs =>
    refine Ensures.bind (createSession_finSeen tuple rs _) ?_
    rintro ⟨w1, _ | i⟩ h1
    · exact .ok fun _ h => by simp at h
    refine .after fun srcMac => ?_
    refine Ensures.bind (ensures_addRs _) fun w2 h2 => ?_
    have hat : ∀ w3, SameSessions w2 w3 → ∀ j, Except.ok (ε := Stat) i = .ok j →
        (w3.session j).state = .none ∧ (w3.session j).finSeen = 0 := by
      intro w3 h3 j hj
      obtain rfl : i = j := by simpa using hj
      have hs : w3.session i = (w1.session i).assigned rs svc srcMac (decide (tuple.protocol = 6))
          (decide (snap.mode = .nat) && decide (tuple.protocol = 6) && dp.cfg.toa) := by
        rw [h3.session, h2.session]
        unfold WorkerCtx.session WorkerCtx.count WorkerCtx.addStat WorkerCtx.setSession
        rw [SessionTable.sessions_modify, if_pos rfl]
      rw [hs]
      exact ⟨by simp [Session.assigned, htcp], h1 i rfl⟩
    exact .ite (.ok (hat _ (.post w2 _))) (.ok (hat _ (.refl w2)))

/-! ### `handle_inbound` -/

theorem SameConns.advanced (dp : Dataplane) (view : NeighView) (w : WorkerCtx) (m : Mbuf) (p : PacketMeta) (i : ℕ)
    (rs : RsState) : SameConns (updateState dp w i p.tcpFlags .clientToRs) (advanced dp view w m p i rs) := by
  refine SameConns.trans ?_ (.resolveRsMac dp view _ i rs)
  exact .setSession _ i fun _ => rfl

theorem Keeps.advanced (dp : Dataplane) (view : NeighView) (w : WorkerCtx) (m : Mbuf) (p : PacketMeta) (i : ℕ)
    (rs : RsState) : Keeps i w (advanced dp view w m p i rs) := by
  refine (Keeps.updateState dp w i p.tcpFlags .clientToRs).trans (Keeps.trans (.setSession _ i fun s => ?_)
    (.resolveRsMac dp view _ i rs))
  exact ⟨⟨rfl, rfl, rfl, rfl, rfl, rfl, rfl⟩, rfl, rfl⟩

/-- The packet advances the session; if the session was made for it and the
packet is dropped, the session goes. -/
theorem forwardInbound_conns (i : ℕ) (rs : RsState) (isNew : Bool) :
    Ensures (forwardInbound dp view w snap m p i rs isNew) fun o =>
      SameConns (updateState dp w i p.tcpFlags .clientToRs) o.1 ∨ isNew = true ∧ ∃ w1,
        SameConns (updateState dp w i p.tcpFlags .clientToRs) w1 ∧ Keeps i w w1 ∧ o.1 = closeSession w1 i := by
  refine (forwardInbound_call i rs isNew).mono fun o ho => ?_
  have h1 := SameConns.advanced dp view w m p i rs
  cases ho with
  | dropped m' hr =>
    cases isNew with
    | false => exact Or.inl h1
    | true => exact Or.inr ⟨rfl, _, h1, .advanced dp view w m p i rs, rfl⟩
  | sent out m' hc =>
    have h2 := (countFwdIn_avoids (counterSafe_none _) m').2 _ hc
    exact Or.inl (h1.trans (.of_same ((SameSessions.countOutcome _ out).trans h2)))

theorem forwardInbound_spares {isNew : Bool} (hi : w.Has i) (hk : w.sessions.lookup k ≠ some i) :
    Ensures (forwardInbound dp view w snap m p i rs isNew) fun o => Spares k w o.1 := by
  have h1 : Spares k w (updateState dp w i p.tcpFlags .clientToRs) := .updateState dp hk _ _
  refine (forwardInbound_conns i rs isNew).mono fun o ho => ?_
  rcases ho with h | ⟨-, w1, h, hkeep, he⟩
  · exact h1.trans (.of_conns h)
  · have h2 := h1.trans (.of_conns h)
    rw [he]
    exact h2.trans (.closeSession (hkeep.has hi) (h2.lookup ▸ hk))

/-- What a packet that opens a session has done to the connections, where
there was none. -/
structure OpenedConns (dp : Dataplane) (snap : Snapshot) (w : WorkerCtx) (p : PacketMeta) (o : Outcome) : Prop where
  others : ∀ k, k ≠ p.toFiveTuple → (snap.mode = .nat → NoReturn snap k) → Spares k w o.1
  own : p.ipProtocol = 6 → o.1.conn p.toFiveTuple = some (Conn.fresh.advance dp.cfg.timeouts
      ⟨.clientToRs, p.tcpFlags, w.nowTick⟩) ∨ o.1.conn p.toFiveTuple = none

theorem Conn.advance_congr {tm : TimeoutConf} {c c' : Conn} (hs : c.state = c'.state) (hf : c.finSeen = c'.finSeen)
    (s : TcpSegment) : c.advance tm s = c'.advance tm s := by
  unfold Conn.advance
  rw [hs, hf]

theorem WorkerCtx.conn_of_none (h : w.sessions.lookup k = none) : w.conn k = none := by
  rw [WorkerCtx.conn, h]
  rfl

/-- The keys of a new session are its own. -/
theorem Fresh.not_hasKey {svc : Service} {client : FiveTuple} {idx : ℕ} {s : Session}
    (h : Fresh dp snap svc client idx s.ident) (hk : k ≠ client) (hnr : snap.mode = .nat → NoReturn snap k) :
    ¬ s.HasKey k := by
  rintro (rfl | ⟨hf, rfl⟩)
  · exact hk h.client_eq
  · obtain ⟨-, -, r, -, -, hs⟩ := h.rs
    have hok := hs hf
    exact hnr (h.fullnat.mp hf) ⟨hok.lip, hok.range⟩

theorem OpenedConns.failed {svc : Service} {w1 : WorkerCtx} {e : Stat} (hf : SessionTable.Fit w.sessions)
    (hnone : w.sessions.lookup p.toFiveTuple = none)
    (hn : newSession dp w snap svc p.toFiveTuple m = .ok (w1, .error e)) :
    OpenedConns dp snap w p (w1, m, .drop e) := by
  have hs : SameConns w w1 := .of_sessions ((newSession_beside hf hnone _ hn).failed e rfl)
  exact ⟨fun k _ _ => .of_conns hs, fun _ => Or.inr ((hs.conn_eq _).trans (WorkerCtx.conn_of_none hnone))⟩

theorem OpenedConns.opened {svc : Service} {w1 : WorkerCtx} {o : Outcome} (ha : Admits dp snap w p.toFiveTuple)
    (hnone : w.sessions.lookup p.toFiveTuple = none) (hsvc : svc ∈ snap.services) (hlen : 14 ≤ m.dataLen)
    (hn : newSession dp w snap svc p.toFiveTuple m = .ok (w1, .ok i))
    (ho : forwardInbound dp view w1 snap m p i rs true = .ok o) : OpenedConns dp snap w p o := by
  have hm : MadeNew dp snap svc w p.toFiveTuple (w1, .ok i) :=
    (newSession_avoids (snap.safe_none dp) hsvc hlen).2 _ hn
  have hb := (newSession_beside ha.fit hnone _ hn).made i rfl
  obtain ⟨-, hhas, hf⟩ := hm.made ha hnone i rfl
  have hown : w1.sessions.lookup p.toFiveTuple = some i :=
    (hhas.fit.lookup_iff _ i).mpr ⟨hhas.live, Or.inl hf.client_eq.symm⟩
  refine ⟨fun k hk hnr => ?_, fun htcp => ?_⟩
  · have hkey : ¬ (w1.session i).HasKey k := hf.not_hasKey hk hnr
    have hne : w1.sessions.lookup k ≠ some i := fun he => hkey ((hhas.fit.lookup_iff k i).mp he).2
    exact (Spares.of_beside ha.fit hb hkey).trans (forwardInbound_spares hhas hne o ho)
  · have htuple : p.toFiveTuple.protocol = 6 := htcp
    obtain ⟨hstate, hfin⟩ := newSession_conn svc htuple _ hn i rfl
    have hconn : (updateState dp w1 i p.tcpFlags .clientToRs).conn p.toFiveTuple =
        some (Conn.fresh.advance dp.cfg.timeouts ⟨.clientToRs, p.tcpFlags, w.nowTick⟩) := by
      rw [updateState_conn hown, show w1.nowTick = w.nowTick from hm.nowTick]
      exact congrArg some (Conn.advance_congr hstate hfin _)
    rcases forwardInbound_conns i rs true o ho with h | ⟨-, w2, h, hkeep, he⟩
    · exact Or.inl ((h.conn_eq _).trans hconn)
    · refine Or.inr (WorkerCtx.conn_of_none ?_)
      rw [he]
      exact lookup_closeSession (hkeep.has hhas) (hkeep.lookup hhas.fit hown)

/-- The real server of the session under `k` may be used. -/
def RsUsable (snap : Snapshot) (w : WorkerCtx) (k : FiveTuple) : Prop :=
  ∀ i ∈ w.sessions.lookup k, ∃ r ∈ snap.rs (w.session i).rsId, r.usable = true

instance (snap : Snapshot) (w : WorkerCtx) (k : FiveTuple) : Decidable (RsUsable snap w k) := by
  unfold RsUsable
  infer_instance

/-- What a packet of a client has done to the connections. Its own has made a
step, or there is none because the SYN was dropped. -/
structure InboundConns (dp : Dataplane) (snap : Snapshot) (w : WorkerCtx) (p : PacketMeta) (o : Outcome) : Prop where
  others : ∀ k, k ≠ p.toFiveTuple → (snap.mode = .nat → NoReturn snap k) →
    (∀ i, w.sessions.lookup p.toFiveTuple = some i → w.sessions.lookup k ≠ some i) → Spares k w o.1
  own : p.ipProtocol = 6 → RsUsable snap w p.toFiveTuple →
    o.1.conn p.toFiveTuple = Conn.next dp.cfg.timeouts (w.conn p.toFiveTuple)
      ⟨.clientToRs, p.tcpFlags, w.nowTick⟩ ∨ opensConnection p = true ∧ o.1.conn p.toFiveTuple = none

theorem opensConnection_eq (htcp : p.ipProtocol = 6) (tick : ℕ) :
    opensConnection p = TcpSegment.opens ⟨.clientToRs, p.tcpFlags, tick⟩ := by
  simp [opensConnection, TcpSegment.opens, htcp]

theorem InboundConns.of_same {w1 : WorkerCtx} {o : Outcome} (hs : SameSessions w w1)
    (h : InboundConns dp snap w1 p o) : InboundConns dp snap w p o := by
  have hc := SameConns.of_same hs
  refine ⟨fun k hk hnr hne => (Spares.of_conns hc).trans (h.others k hk hnr ?_), fun htcp hu => ?_⟩
  · rw [hs.sessions]
    exact hne
  · rw [← hc.conn_eq, ← hs.nowTick]
    refine h.own htcp fun i hi => ?_
    rw [hs.session]
    exact hu i (hs.sessions ▸ hi)

/-- A packet on the session that has been found. -/
theorem foundInbound_conns {r : RsState} (ha : Admits dp snap w p.toFiveTuple)
    (hi : w.sessions.lookup p.toFiveTuple = some i) (he : ¬ Ends snap (w.session i) (opensConnection p)) :
    Ensures (forwardInbound dp view w snap m p i r false) (InboundConns dp snap w p) := by
  intro o ho
  refine ⟨fun k _ _ hne => forwardInbound_spares (ha.has hi) (hne i hi) o ho, fun htcp _ => Or.inl ?_⟩
  have h := (forwardInbound_conns i r false o ho).resolve_right (by simp)
  have hreuse : (TcpSegment.opens ⟨.clientToRs, p.tcpFlags, w.nowTick⟩ && tcpStateReusable (w.session i).state) =
      false := by
    rw [← opensConnection_eq htcp, Bool.and_eq_false_iff, ← Bool.not_eq_true, ← Bool.not_eq_true]
    exact not_and_or.mp fun hb => he (Or.inr hb)
  rw [h.conn_eq, updateState_conn hi, WorkerCtx.conn, hi, Option.map_some, Conn.next]
  rw [show (w.session i).conn.state = (w.session i).state from rfl, hreuse]
  rfl

/-- What the search leaves when it hands no session on: there was none, or the
packet has ended it. -/
structure Cleared (dp : Dataplane) (snap : Snapshot) (w : WorkerCtx) (p : PacketMeta) (w1 : WorkerCtx) : Prop where
  admits : Admits dp snap w1 p.toFiveTuple
  nowTick : w1.nowTick = w.nowTick
  none : w1.sessions.lookup p.toFiveTuple = none
  spares : ∀ k, (∀ i, w.sessions.lookup p.toFiveTuple = some i → w.sessions.lookup k ≠ some i) → Spares k w w1
  ends : ∀ i, w.sessions.lookup p.toFiveTuple = some i → Ends snap (w.session i) (opensConnection p)

theorem Cleared.closed (ha : Admits dp snap w p.toFiveTuple) (hi : w.sessions.lookup p.toFiveTuple = some i)
    (he : Ends snap (w.session i) (opensConnection p)) : Cleared dp snap w p (closeSession w i) := by
  have hhas := ha.has hi
  refine ⟨ha.step (closeSession_step hhas : WorkerStep (fun _ => False) w _), rfl, lookup_closeSession hhas hi,
    fun k hne => .closeSession hhas (hne i hi), fun j hj => ?_⟩
  exact Option.some.inj (hi.symm.trans hj) ▸ he

/-- The session that is found, or why there is none. -/
theorem findInbound_conns {w1 : WorkerCtx} {found : Found} (ha : Admits dp snap w p.toFiveTuple)
    (hf : findInbound w snap p.toFiveTuple (p.ipProtocol == 6) (opensConnection p) = (w1, found)) :
    (∃ i r, found = .session i r ∧ w1 = w ∧ w.sessions.lookup p.toFiveTuple = some i ∧
      ¬ Ends snap (w.session i) (opensConnection p)) ∨ (∀ i r, found ≠ .session i r) ∧ Cleared dp snap w p w1 := by
  rcases findInbound_cases w snap p.toFiveTuple (p.ipProtocol == 6) (opensConnection p) with
    ⟨i, r, hi, -, -, he, h⟩ | ⟨hnone, h⟩ | ⟨i, hi, he, h | ⟨reason, -, h⟩⟩
  · obtain ⟨rfl, rfl⟩ := Prod.mk.inj (h.symm.trans hf)
    exact Or.inl ⟨i, r, rfl, rfl, hi, he⟩
  · obtain ⟨rfl, rfl⟩ := Prod.mk.inj (h.symm.trans hf)
    exact Or.inr ⟨by simp, ha, rfl, hnone, fun k _ => .of_conns (.refl w), fun j hj => by simp [hnone] at hj⟩
  · obtain ⟨rfl, rfl⟩ := Prod.mk.inj (h.symm.trans hf)
    exact Or.inr ⟨by simp, .closed ha hi he⟩
  · obtain ⟨rfl, rfl⟩ := Prod.mk.inj (h.symm.trans hf)
    exact Or.inr ⟨by simp, .closed ha hi he⟩

theorem findInbound_cleared {w1 : WorkerCtx} {found : Found} (ha : Admits dp snap w p.toFiveTuple)
    (hf : findInbound w snap p.toFiveTuple (p.ipProtocol == 6) (opensConnection p) = (w1, found))
    (hno : ∀ i r, found ≠ .session i r) : Cleared dp snap w p w1 := by
  rcases findInbound_conns ha hf with ⟨i, r, he, -⟩ | ⟨-, h⟩
  · exact absurd he (hno i r)
  · exact h

/-- If its real server may be used, only a SYN ends a session. -/
theorem Cleared.reusable {w1 : WorkerCtx} (h : Cleared dp snap w p w1) (hu : RsUsable snap w p.toFiveTuple)
    (hi : w.sessions.lookup p.toFiveTuple = some i) :
    opensConnection p = true ∧ tcpStateReusable (w.session i).state = true := by
  obtain ⟨r, hr, hru⟩ := hu i hi
  rcases h.ends i hi with hd | hd
  · rw [hd r hr] at hru
    cases hru
  · exact hd

/-- A session is opened where none was found, or the old one was closed. -/
theorem Cleared.opened {w1 : WorkerCtx} {o : Outcome} (hc : Cleared dp snap w p w1)
    (hopen : ¬ (p.ipProtocol = 6 ∧ opensConnection p = false)) (h : OpenedConns dp snap w1 p o) :
    InboundConns dp snap w p o := by
  refine ⟨fun k hk hnr hne => (hc.spares k hne).trans (h.others k hk hnr), fun htcp hu => ?_⟩
  have hsyn : opensConnection p = true := by simpa [htcp] using hopen
  rcases h.own htcp with hown | hown
  · left
    rw [hown, hc.nowTick]
    have hopens : TcpSegment.opens ⟨.clientToRs, p.tcpFlags, w.nowTick⟩ = true := by
      rw [← opensConnection_eq htcp, hsyn]
    unfold WorkerCtx.conn
    cases hi : w.sessions.lookup p.toFiveTuple with
    | none => simp [Conn.next, hopens]
    | some i =>
      have hreuse : tcpStateReusable (w.session i).conn.state = true := (hc.reusable hu hi).2
      simp [Conn.next, hopens, hreuse]
  · exact Or.inr ⟨hsyn, hown⟩

/-- A packet without a session that opens none. -/
theorem Cleared.refused {w1 : WorkerCtx} {reason : Stat} (hc : Cleared dp snap w p w1)
    (hopen : opensConnection p = false) (m1 : Mbuf) : InboundConns dp snap w p (w1, m1, .drop reason) := by
  refine ⟨fun k _ _ hne => hc.spares k hne, fun htcp hu => Or.inl ?_⟩
  have hno : TcpSegment.opens ⟨.clientToRs, p.tcpFlags, w.nowTick⟩ = false := by
    rw [← opensConnection_eq htcp, hopen]
  rw [WorkerCtx.conn_of_none hc.none]
  cases hi : w.sessions.lookup p.toFiveTuple with
  | none => simp [WorkerCtx.conn_of_none hi, Conn.next, hno]
  | some i =>
    have hsyn := (hc.reusable hu hi).1
    rw [hopen] at hsyn
    cases hsyn

/-- Only a segment that opens no connection is dropped with the session. -/
theorem findInbound_drop {tuple : FiveTuple} {tcp syn : Bool} {reason : Stat}
    (h : (findInbound w snap tuple tcp syn).2 = .drop reason) : syn = false := by
  unfold findInbound at h
  split at h
  · cases h
  simp only at h
  split at h
  · cases h
  · cases syn with
    | false => rfl
    | true => simp at h

theorem inboundAtOwner_conns {svc : Service} (ha : Admits dp snap w p.toFiveTuple) (hsvc : svc ∈ snap.services)
    (hlen : 14 ≤ m.dataLen) (redirected : Bool) :
    Ensures (inboundAtOwner dp view w snap svc m p redirected) (InboundConns dp snap w p) := by
  refine (inboundAtOwner_call svc redirected).mono fun o ho => ?_
  have hsame : SameSessions w (rssChecked dp w m p redirected) := .ite (.rssCheck dp w m _) (.refl w)
  generalize rssChecked dp w m p redirected = w0 at hsame ho
  have ha0 : Admits dp snap w0 p.toFiveTuple := ha.step (hsame.step ha.fit : WorkerStep (fun _ => False) w w0)
  refine InboundConns.of_same hsame ?_
  cases ho with
  | dropped hf => exact (findInbound_cleared ha0 hf (by simp)).refused (findInbound_drop (congrArg Prod.snd hf)) m
  | found hf ho =>
    rcases findInbound_conns ha0 hf with ⟨i, r, he, rfl, hi, hno⟩ | ⟨hno, -⟩
    · obtain ⟨rfl, rfl⟩ := Found.session.inj he
      exact foundInbound_conns ha0 hi hno o ho
    · exact absurd rfl (hno _ _)
  | refused hf hs => exact (findInbound_cleared ha0 hf (by simp)).refused hs.2 m
  | failed hf hs hn =>
    have hc := findInbound_cleared ha0 hf (by simp)
    exact hc.opened hs (.failed hc.admits.fit hc.none hn)
  | opened hf hs hn hr ho =>
    have hc := findInbound_cleared ha0 hf (by simp)
    exact hc.opened hs (.opened hc.admits hc.none hsvc hlen hn ho)

/-! ### `handle_return` and `handle_icmp_error` -/

/-- What a packet of a real server has done to the connections. -/
structure ReturnConns (dp : Dataplane) (snap : Snapshot) (w : WorkerCtx) (p : PacketMeta) (o : Outcome) : Prop where
  others : ∀ k, SessionTable.Fit w.sessions →
    (∀ i, w.sessions.lookup p.toFiveTuple = some i → w.sessions.lookup k ≠ some i) → Spares k w o.1
  own : ∀ k i, w.sessions.lookup k = some i → w.sessions.lookup p.toFiveTuple = some i →
    ReturnsTo snap p.toFiveTuple (w.session i) →
      o.1.conn k = some ((w.session i).conn.advance dp.cfg.timeouts ⟨.rsToClient, p.tcpFlags, w.nowTick⟩)

/-- Whatever becomes of the packet, the session has made its step. -/
theorem ReturnConns.of_conns {o : Outcome} (hi : w.sessions.lookup p.toFiveTuple = some i)
    (h : SameConns (updateState dp w i p.tcpFlags .rsToClient) o.1) : ReturnConns dp snap w p o := by
  refine ⟨fun k _ hne => (Spares.updateState dp (hne i hi) _ _).trans (.of_conns h), fun k j hk hj _ => ?_⟩
  obtain rfl : i = j := Option.some.inj (hi.symm.trans hj)
  rw [h.conn_eq, updateState_conn hk]

theorem returnAtOwner_conns : Ensures (returnAtOwner dp view w snap m p) (ReturnConns dp snap w p) := by
  refine returnAtOwner_call.mono fun o ho => ?_
  have h1 : ∀ i, SameConns (updateState dp w i p.tcpFlags .rsToClient) (answered dp view w m p i) := by
    intro i
    refine SameConns.trans ?_ (.resolveClientMac dp view _ i)
    exact .setSession _ i fun _ => rfl
  cases ho with
  | unknown hno => exact ⟨fun k _ _ => .of_conns (.refl w), fun k i _ hi hr => absurd hr (hno i hi)⟩
  | @down i hi hno =>
    refine ⟨fun k hf hne => .closeSession ⟨hf, ((hf.lookup_iff _ i).mp hi).1⟩ (hne i hi), fun k j _ hj hr => ?_⟩
    exact absurd hr (Option.some.inj (hi.symm.trans hj) ▸ hno)
  | dropped m' hi hr => exact .of_conns hi (h1 _)
  | sent m' hi hc =>
    exact .of_conns hi ((h1 _).trans (.of_same ((countFwdOut_avoids (counterSafe_none _) m').2 _ hc)))

theorem SameConns.resolves (dp : Dataplane) (view : NeighView) (w : WorkerCtx) :
    Resolves dp view w (SameConns w) :=
  ⟨.refl w, .resolveClientMac dp view w, .resolveRsMac dp view w, fun w' h => h.trans (.of_same (.count w' _))⟩

theorem icmpToClient_conns (info : IcmpErrorInfo) :
    Ensures (icmpToClient dp view w m p info) fun o => SameConns w o.1 :=
  ((SameConns.resolves dp view w).icmpToClient info).mono fun _ ho => ho.worker

theorem icmpToServer_conns (info : IcmpErrorInfo) :
    Ensures (icmpToServer dp view w snap m p info) fun o => SameConns w o.1 :=
  ((SameConns.resolves dp view w).icmpToServer info).mono fun _ ho => ho.worker

end Handlers

end L4Lb
