/-
# The life of a session

A session is made for the first packet of a client, and from then on the load
balancer goes by it: the real server that was picked, the ports, the state of the
connection. Weights and health change meanwhile, snapshots are replaced and other
clients come and go. Here is what can become of the session in a run: it stays
where and what it is, its connection makes the steps of its own segments and no
others, and it ends for one of three reasons. Its real server may not be used any
more when a segment of either side comes, a SYN of the client comes when the
connection is over, or the clock passes a deadline that its last segment has set
(`World.session_lasts`).
-/
import L4Lb.World.Handshake
import L4Lb.World.Lineage

open Checked

namespace L4Lb

open SessionTable (Fit)

/-- The session of a client tuple: who it is, and its connection. -/
def WorkerCtx.entry (w : WorkerCtx) (client : FiveTuple) : Option (SessionId × Conn) :=
  (w.sessions.lookup client).map fun j => ((w.session j).ident, (w.session j).conn)

/-- The connection after some segments. -/
def Conn.advances (tm : TimeoutConf) (c : Conn) (segs : List TcpSegment) : Conn := segs.foldl (Conn.advance tm) c

/-- The deadline is the one of the last segment, by the state it has led to. -/
theorem Conn.advances_expireTick {tm : TimeoutConf} {c : Conn} {segs : List TcpSegment} {s : TcpSegment}
    (h : segs.getLast? = some s) : (c.advances tm segs).expireTick =
      SessionTable.deadline s.tick (stateTimeout (c.advances tm segs).state tm) := by
  obtain ⟨pre, rfl⟩ := List.getLast?_eq_some_iff.mp h
  rw [Conn.advances, List.foldl_append]
  rfl

/-- The segment ends the session: the real server may not be used any more, or
the segment is a SYN and the connection is over. -/
def Ended (snap : Snapshot) (s : Session) (seg : TcpSegment) : Prop :=
  Ends snap s (decide (s.client.protocol = 6) && seg.opens)

section Worker

variable {dp : Dataplane} {view : NeighView} {snap : Snapshot} {w w' : WorkerCtx} {m : Mbuf} {p : PacketMeta}
  {k : FiveTuple} {i j : ℕ} {o : Outcome} {d : SessionId} {c : Conn}

theorem WorkerCtx.entry_eq_some : w.entry k = some (d, c) ↔
    ∃ j, w.sessions.lookup k = some j ∧ (w.session j).ident = d ∧ (w.session j).conn = c := by
  simp [entry]

theorem SameSessions.entry_eq (h : SameSessions w w') (k : FiveTuple) : w'.entry k = w.entry k := by
  unfold WorkerCtx.entry WorkerCtx.session
  rw [h.sessions]

/-- The session under a key is still the one it was, if nothing new has the key. -/
theorem SessionTable.TableStep.entry_of_conn {New : SessionId → Prop} {c' : Conn}
    (hs : SessionTable.TableStep New w.sessions w'.sessions) (hf : Fit w.sessions)
    (hn : ∀ j, (w'.session j).HasKey k → ¬ New (w'.session j).ident)
    (hj : w.sessions.lookup k = some j) (hc : w'.conn k = some c') :
    w'.entry k = some ((w.session j).ident, c') := by
  obtain ⟨j', hj', hc'⟩ := Option.map_eq_some_iff.mp hc
  obtain ⟨hl, hk⟩ := (hs.fit.lookup_iff k j').mp hj'
  rcases hs.live j' hl with ⟨hl', hid⟩ | hnew
  · have hold : w.sessions.lookup k = some j' :=
      (hf.lookup_iff k j').mpr ⟨hl', (Session.hasKey_of_ident hid k).mp hk⟩
    obtain rfl := Option.some.inj (hj.symm.trans hold)
    exact WorkerCtx.entry_eq_some.mpr ⟨j, hj', hid, hc'⟩
  · exact absurd hnew (hn j' hk)

theorem WorkerCtx.conn_of_lookup (hj : w.sessions.lookup k = some j) : w.conn k = some (w.session j).conn := by
  rw [WorkerCtx.conn, hj]
  rfl

/-! ### The packet handlers -/

theorem Keeps.forwardInbound (i : ℕ) (rs : RsState) :
    Ensures (forwardInbound dp view w snap m p i rs false) fun o => Keeps i w o.1 := by
  refine (forwardInbound_call i rs false).mono fun o ho => ?_
  have h := Keeps.advanced dp view w m p i rs
  cases ho with
  | dropped m' hr => exact h
  | sent out m' hc =>
    refine h.trans (SameSessions.keeps ?_ i)
    exact (SameSessions.countOutcome _ out).trans ((countFwdIn_avoids (counterSafe_none _) m').2 _ hc)

/-- A packet of the client on a session that goes on. -/
theorem inboundAtOwner_entry {svc : Service} (ha : Admits dp snap w p.toFiveTuple)
    (hj : w.sessions.lookup p.toFiveTuple = some j) (hno : ¬ Ends snap (w.session j) (opensConnection p))
    (redirected : Bool) : Ensures (inboundAtOwner dp view w snap svc m p redirected) fun o =>
      o.1.entry p.toFiveTuple = some ((w.session j).ident,
        (w.session j).conn.advance dp.cfg.timeouts ⟨.clientToRs, p.tcpFlags, w.nowTick⟩) := by
  refine (inboundAtOwner_call svc redirected).mono fun o ho => ?_
  have hsame : SameSessions w (rssChecked dp w m p redirected) := .ite (.rssCheck dp w m _) (.refl w)
  generalize rssChecked dp w m p redirected = w0 at hsame ho
  have ha0 : Admits dp snap w0 p.toFiveTuple := ha.step (hsame.step ha.fit : WorkerStep (fun _ => False) w w0)
  rw [← hsame.sessions] at hj
  rw [← hsame.session] at hno ⊢
  rw [← hsame.nowTick]
  have hends : ∀ w1, Cleared dp snap w0 p w1 → False := fun w1 hc => hno (hc.ends j hj)
  cases ho with
  | dropped hf => exact (hends _ (findInbound_cleared ha0 hf (by simp))).elim
  | refused hf hs => exact (hends _ (findInbound_cleared ha0 hf (by simp))).elim
  | failed hf hs hn => exact (hends _ (findInbound_cleared ha0 hf (by simp))).elim
  | opened hf hs hn hr ho => exact (hends _ (findInbound_cleared ha0 hf (by simp))).elim
  | found hf ho =>
    rcases findInbound_conns ha0 hf with ⟨i, r, he, rfl, hi, -⟩ | ⟨hno', -⟩
    · obtain ⟨rfl, rfl⟩ := Found.session.inj he
      obtain rfl := Option.some.inj (hj.symm.trans hi)
      have hk := Keeps.forwardInbound j _ o ho
      have hc := ((forwardInbound_conns j _ false o ho).resolve_right (by simp)).conn_eq p.toFiveTuple
      rw [updateState_conn hj, WorkerCtx.conn_of_lookup (hk.lookup ha0.fit hj)] at hc
      exact WorkerCtx.entry_eq_some.mpr ⟨j, hk.lookup ha0.fit hj, hk.ident, Option.some.inj hc⟩
    · exact absurd rfl (hno' _ _)

/-- What a frame has done to the session `j`: a step of its connection, if the frame
is one of its segments, or its end. -/
def Lasted (dp : Dataplane) (snap : Snapshot) (w : WorkerCtx) (j : ℕ) (seg : Option TcpSegment) (o : Outcome) : Prop :=
  o.1.entry (w.session j).client =
      some ((w.session j).ident, (w.session j).conn.advances dp.cfg.timeouts seg.toList) ∨
    ∃ s ∈ seg, Ended snap (w.session j) s

theorem Lasted.of_same {w1 : WorkerCtx} {seg : Option TcpSegment} (h : SameSessions w w1)
    (hl : Lasted dp snap w1 j seg o) : Lasted dp snap w j seg o := by
  unfold Lasted at hl ⊢
  rwa [h.session] at hl

/-- The frame is none of the session's. -/
theorem Lasted.spared {New : SessionId → Prop} (hs : WorkerStep New w o.1) (hf : Fit w.sessions)
    (hj : w.sessions.lookup (w.session j).client = some j)
    (hn : ∀ j', (o.1.session j').HasKey (w.session j).client → ¬ New (o.1.session j').ident)
    (hc : o.1.conn (w.session j).client = w.conn (w.session j).client) : Lasted dp snap w j none o := by
  left
  refine hs.table.entry_of_conn hf hn hj ?_
  rw [hc, WorkerCtx.conn_of_lookup hj]
  rfl

theorem Lasted.inbound {svc : Service} {redirected : Bool} (hb : snap.Built dp.H dp.cfg) (hw : WorkerOk dp i w)
    (hl : w.sessions.Live j) (hp : pathOf dp snap m = .ok (.inbound p svc))
    (ht : (Path.inbound p svc).Taken dp snap m) (hd : InboundPost dp snap svc w m p o)
    (ho : inboundAtOwner dp view w snap svc m p redirected = .ok o) :
    Lasted dp snap w j (segmentOf dp snap w (w.session j).client m) o := by
  have ha := hb.admits hw ht
  have hj : w.sessions.lookup (w.session j).client = some j := (hw.fit.lookup_iff _ j).mpr ⟨hl, Or.inl rfl⟩
  simp only [segmentOf, hp]
  by_cases hc : p.toFiveTuple = (w.session j).client
  · rw [if_pos hc]
    have hsyn : (decide ((w.session j).client.protocol = 6) && TcpSegment.opens ⟨.clientToRs, p.tcpFlags, w.nowTick⟩) =
        opensConnection p := by
      rw [← hc]
      by_cases htcp : p.ipProtocol = 6
      · simp [opensConnection_eq htcp w.nowTick, PacketMeta.toFiveTuple, htcp]
      · simp [opensConnection, PacketMeta.toFiveTuple, htcp]
    by_cases he : Ends snap (w.session j) (opensConnection p)
    · exact Or.inr ⟨_, rfl, by rw [Ended, hsyn]; exact he⟩
    · left
      have h := inboundAtOwner_entry ha (hc ▸ hj) he redirected o ho
      rwa [hc] at h
  · rw [if_neg hc]
    have hnr : snap.mode = .nat → NoReturn snap (w.session j).client := by
      rintro hm ⟨hlip, hr⟩
      rw [hb.mode] at hm
      rw [hb.localIps, if_pos hm] at hlip
      exact (hw.live j hl).noReturn ⟨hm, Or.inr ⟨hm, hlip⟩, hr⟩
    refine .spared (hd.step ha) hw.fit hj (fun j' hk hf => ?_) ?_
    · exact hf.not_hasKey (Ne.symm hc) hnr hk
    · have hlen := ht.1.headers_le
      have h := inboundAtOwner_conns ha (Snapshot.findService_mem ht.2.2.2.2) (by omega) redirected o ho
      refine (h.others _ (Ne.symm hc) hnr fun i' hi' he => hc ?_).conn_eq
      obtain rfl := Option.some.inj (hj.symm.trans he)
      exact (hw.client_eq hi' (hb.noReturn ht)).symm

theorem Lasted.fromServer (hb : snap.Built dp.H dp.cfg) (hw : WorkerOk dp i w) (hl : w.sessions.Live j)
    (hp : pathOf dp snap m = .ok (.fromServer p)) (ht : (Path.fromServer p).Taken dp snap m)
    (hs : WorkerStep (fun _ => False) w o.1) (ho : returnAtOwner dp view w snap m p = .ok o) :
    Lasted dp snap w j (segmentOf dp snap w (w.session j).client m) o := by
  have hj : w.sessions.lookup (w.session j).client = some j := (hw.fit.lookup_iff _ j).mpr ⟨hl, Or.inl rfl⟩
  have hconns := returnAtOwner_conns o ho
  simp only [segmentOf, hp, hj, Option.any_some, Bool.and_eq_true, beq_iff_eq]
  by_cases hserver : (w.session j).fullnat = true ∧ (w.session j).server = p.toFiveTuple
  · rw [if_pos hserver]
    have hback : w.sessions.lookup p.toFiveTuple = some j :=
      (hw.fit.lookup_iff _ j).mpr ⟨hl, Or.inr ⟨hserver.1, hserver.2.symm⟩⟩
    by_cases hu : ∃ r, snap.rs (w.session j).rsId = some r ∧ r.usable = true
    · left
      exact hs.table.entry_of_conn hw.fit (fun _ _ => id) hj (hconns.own _ j hj hback ⟨hserver.1, hserver.2, hu⟩)
    · refine Or.inr ⟨_, rfl, Or.inl fun r hr => ?_⟩
      exact Bool.eq_false_of_not_eq_true fun ht => hu ⟨r, hr, ht⟩
  · rw [if_neg hserver]
    refine .spared hs hw.fit hj (fun _ _ => id) (hconns.others _ hw.fit fun j' hj' he => hserver ?_).conn_eq
    obtain rfl := Option.some.inj (hj.symm.trans he)
    obtain ⟨b, hr, hret⟩ := hb.isReturn_iff p
    rw [ht.2.2] at hr
    exact hw.server_eq hj' (hret.mp (Except.ok.inj hr).symm)

/-- **A frame at the owner of a session** takes it one segment further, leaves it
as it is, or ends it. -/
theorem processPacket_entry {redirected : Bool} (hb : snap.Built dp.H dp.cfg) (hw : WorkerOk dp i w)
    (hl : w.sessions.Live j) (ho : processPacket dp view w snap m redirected = .ok o) :
    Lasted dp snap w j (segmentOf dp snap w (w.session j).client m) o := by
  obtain ⟨path, hp, ht⟩ := hb.pathOf_returns m
  have hok := hw.live j hl
  have hj : w.sessions.lookup (w.session j).client = some j := (hw.fit.lookup_iff _ j).mpr ⟨hl, Or.inl rfl⟩
  have same : ∀ w', SameSessions w w' → o.1 = w' → segmentOf dp snap w (w.session j).client m = none →
      Lasted dp snap w j (segmentOf dp snap w (w.session j).client m) o := by
    rintro w' hs rfl hseg
    rw [hseg]
    exact .spared (hs.step hw.fit : WorkerStep (fun _ => False) w o.1) hw.fit hj (fun _ _ => id)
      ((SameConns.of_same hs).conn_eq _)
  cases hn : path.owner dp with
  | none =>
    cases path with
    | rest =>
      have hdone := (processPacket_processed ho hp).result.resolve_right (by simp [hn])
      exact same _ (Untouched.same hdone.2) rfl (by simp only [segmentOf, hp])
    | _ => cases hn
  | some n =>
    obtain ⟨w1, hs, he⟩ := processPacket_path view w redirected hp hn
    rw [he, Path.run] at ho
    have hw1 := hw.same hs
    by_cases hne : n ≠ w1.idx
    · rw [if_pos hne] at ho
      have hseg := segmentOf_eq_none hw hok.owner hp hn (hw1.idx ▸ hne)
      exact same w1 hs (congrArg Prod.fst (Except.ok.inj ho).symm) hseg
    rw [if_neg hne] at ho
    have hl1 : w1.sessions.Live j := hs.sessions ▸ hl
    have hdone : path.Done dp snap w1 m o :=
      (Path.atOwner_avoids ht (snap.safe_none dp) (fun _ _ _ => False.elim) redirected).2 o ho
    rw [← segmentOf_same hs, ← hs.session]
    refine Lasted.of_same hs ?_
    have hj1 : w1.sessions.lookup (w1.session j).client = some j := (hw1.fit.lookup_iff _ j).mpr ⟨hl1, Or.inl rfl⟩
    cases path with
    | inbound p svc => exact .inbound hb hw1 hl1 hp ht hdone ho
    | fromServer p => exact .fromServer hb hw1 hl1 hp ht (OnSession.step hdone hw1.fit) ho
    | errorToClient p info =>
      simp only [segmentOf, hp]
      exact .spared (OnSession.step hdone hw1.fit) hw1.fit hj1 (fun _ _ => id)
        ((icmpToClient_conns info o ho).conn_eq _)
    | errorToServer p info =>
      simp only [segmentOf, hp]
      exact .spared (OnSession.step hdone hw1.fit) hw1.fit hj1 (fun _ _ => id)
        ((icmpToServer_conns info o ho).conn_eq _)
    | rest => cases hn

end Worker

/-! ### Runs -/

namespace World

/-- The session of a client tuple, at its owner. -/
def entry (dp : Dataplane) (client : FiveTuple) (W : World) : Option (SessionId × Conn) :=
  (W.workers (dp.ownerOf client)).entry client

/-- The step ends the session of a client tuple: a segment does, or the clock. -/
def EndedBy (dp : Dataplane) (client : FiveTuple) (W : World) (ev : Event) : Prop :=
  ∃ j, (W.workers (dp.ownerOf client)).sessions.lookup client = some j ∧
    ((∃ s ∈ W.segments dp client ev,
        Ended (W.snaps (dp.ownerOf client)) ((W.workers (dp.ownerOf client)).session j) s) ∨
      ∃ tsc, ev = .readClock (dp.ownerOf client) tsc ∧
        ((W.workers (dp.ownerOf client)).session j).expireTick ≤ (dp.clock.now tsc).tick.toNat)

variable {dp : Dataplane} {W W' : World} {i : ℕ} {w : WorkerCtx} {d : SessionId} {c : Conn}

/-- The session in the table, at the worker it belongs to. -/
theorem entry_live (hinv : Inv dp W) (he : W.entry dp d.client = some (d, c)) :
    ∃ j, (W.workers (dp.ownerOf d.client)).sessions.lookup d.client = some j ∧
      (W.workers (dp.ownerOf d.client)).sessions.Live j ∧
      ((W.workers (dp.ownerOf d.client)).session j).ident = d ∧
      ((W.workers (dp.ownerOf d.client)).session j).conn = c := by
  obtain ⟨j, hj, hid, hc⟩ := WorkerCtx.entry_eq_some.mp he
  have hlt : dp.ownerOf d.client < dp.steering.n := Steering.fwdOwner_lt _
  exact ⟨j, hj, (((hinv.workers _ hlt).fit.lookup_iff _ j).mp hj).1, hid, hc⟩

/-- A worker takes a frame. -/
theorem handle_entry {view : NeighView} {m : Mbuf} {redirected : Bool} (hinv : Inv dp W)
    (hs : SameSessions (W.workers i) w) (he : W.entry dp d.client = some (d, c))
    (h : W.handle dp view i w m redirected = .ok W') {segs : List TcpSegment}
    (hsegs : segs = if i = dp.ownerOf d.client then
      (segmentOf dp (W.snaps i) (W.workers i) d.client m).toList else []) :
    W'.entry dp d.client = some (d, c.advances dp.cfg.timeouts segs) ∨
      ∃ j, (W.workers (dp.ownerOf d.client)).sessions.lookup d.client = some j ∧
        ∃ s ∈ segs, Ended (W.snaps (dp.ownerOf d.client)) ((W.workers (dp.ownerOf d.client)).session j) s := by
  obtain ⟨o, ho, h⟩ := bind_eq_ok.mp h
  obtain rfl := Except.ok.inj h
  by_cases hown : i = dp.ownerOf d.client
  · subst hown
    rw [if_pos rfl] at hsegs
    obtain ⟨j, hj, hl, hid, hc⟩ := entry_live hinv he
    have hlt : dp.ownerOf d.client < dp.steering.n := Steering.fwdOwner_lt _
    have hclient : ((W.workers (dp.ownerOf d.client)).session j).client = d.client := congrArg SessionId.client hid
    have hlast := Lasted.of_same hs (processPacket_entry (hinv.snaps _) ((hinv.workers _ hlt).same hs)
      (hs.sessions ▸ hl) ho)
    rw [segmentOf_same hs, hs.session] at hlast
    unfold Lasted at hlast
    rw [hclient, hid, hc] at hlast
    rcases hlast with hlast | ⟨s, hmem, hends⟩
    · left
      unfold entry
      rw [(finish_same W _ o).entry_eq, hlast, hsegs]
    · exact Or.inr ⟨j, hj, s, hsegs ▸ Option.mem_toList.mpr hmem, hends⟩
  · left
    rw [hsegs, if_neg hown]
    unfold entry
    rw [finish_other (Ne.symm hown)]
    exact he

/-- A session that is not due stays, as it is. -/
theorem readClock_entry {tsc : UInt64} {w' : WorkerCtx} {k : FiveTuple} {j : ℕ} (hf : Fit w.sessions)
    (hj : w.sessions.lookup k = some j) (hd : (dp.clock.now tsc).tick.toNat < (w.session j).expireTick)
    (h : w.readClock dp tsc = .ok w') : w'.entry k = some ((w.session j).ident, (w.session j).conn) := by
  have hdue : ∀ j' ∈ w.sessions.lookup k, (dp.clock.now tsc).tick.toNat < (w.session j').expireTick := by
    intro j' hj'
    obtain rfl := Option.some.inj (hj.symm.trans hj')
    exact hd
  have hconn := readClock_conn hf hdue h
  rw [WorkerCtx.conn_of_lookup hj] at hconn
  unfold WorkerCtx.readClock at h
  simp only at h
  cases he : w.sessions.expire (dp.clock.now tsc).tick.toNat with
  | none => simp [he] at h
  | some r =>
    rw [he] at h
    obtain rfl := Except.ok.inj h
    have ht : SessionTable.TableStep (fun _ => False) w.sessions r.table := .expire hf he
    exact ht.entry_of_conn hf (fun _ _ => id) hj hconn

/-- **A step of the load balancer** keeps a session, with what its segments make of
it, or ends it. -/
theorem step_entry {ev : Event} (hinv : Inv dp W) (hv : ev.Valid dp.steering.n)
    (he : W.entry dp d.client = some (d, c)) (h : W.step dp ev = .ok W') :
    W'.entry dp d.client = some (d, c.advances dp.cfg.timeouts (W.segments dp d.client ev)) ∨
      W.EndedBy dp d.client ev := by
  have stays : W'.entry dp d.client = W.entry dp d.client → W.segments dp d.client ev = [] →
      W'.entry dp d.client = some (d, c.advances dp.cfg.timeouts (W.segments dp d.client ev)) ∨
        W.EndedBy dp d.client ev := by
    intro hsame hsegs
    left
    rw [hsame, he, hsegs]
    rfl
  cases ev with
  | receive i m view =>
    rcases handle_entry hinv (sameSessions_received dp _ m) he h rfl with hk | ⟨j, hj, hs⟩
    · exact Or.inl hk
    · exact Or.inr ⟨j, hj, Or.inl hs⟩
  | takeRedirected i view =>
    simp only [World.step] at h
    cases hring : W.rings i with
    | nil =>
      rw [hring] at h
      exact stays (congrArg (entry dp d.client) (Except.ok.inj h).symm) (by simp only [segments, hring])
    | cons m rest =>
      rw [hring] at h
      have hsegs : W.segments dp d.client (.takeRedirected i view) = if i = dp.ownerOf d.client then
          (segmentOf dp (W.snaps i) (W.workers i) d.client m).toList else [] := by simp only [segments, hring]
      rcases handle_entry (W := { W with rings := Function.update W.rings i rest }) (hinv.popRing hring) (.count _ _) he
        h hsegs with hk | ⟨j, hj, hs⟩
      · exact Or.inl hk
      · exact Or.inr ⟨j, hj, Or.inl hs⟩
  | turn i =>
    refine stays ?_ rfl
    unfold step at h
    simp only at h
    split at h
    · cases h
    split at h
    · exact congrArg (entry dp d.client) (Except.ok.inj h).symm
    · obtain rfl := Except.ok.inj h
      by_cases hi : dp.ownerOf d.client = i
      · unfold entry
        rw [hi]
        exact (congrArg (fun w : WorkerCtx => w.entry d.client) (setWorker_self W i _)).trans rfl
      · exact congrArg (fun w : WorkerCtx => w.entry d.client) (setWorker_other W _ hi)
  | readClock i tsc =>
    obtain ⟨w1, hw, h⟩ := bind_eq_ok.mp h
    obtain rfl := Except.ok.inj h
    by_cases hi : i = dp.ownerOf d.client
    · subst hi
      obtain ⟨j, hj, -, hid, hc⟩ := entry_live hinv he
      by_cases hdue : ((W.workers (dp.ownerOf d.client)).session j).expireTick ≤ (dp.clock.now tsc).tick.toNat
      · exact Or.inr ⟨j, hj, Or.inr ⟨tsc, rfl, hdue⟩⟩
      · left
        unfold entry
        rw [setWorker_self, readClock_entry (hinv.workers _ hv).fit hj (not_le.mp hdue) hw, hid, hc]
        rfl
    · refine stays ?_ rfl
      unfold entry
      rw [setWorker_other W _ (Ne.symm hi)]
  | command cmd =>
    obtain ⟨mgr, -, h⟩ := bind_eq_ok.mp h
    obtain rfl := Except.ok.inj h
    exact stays rfl rfl

/-- **How long a session lasts.** Take a session in any state the load balancer can
be in, and any run from there, with any traffic and any commands. Then after the
run the session is found under its client tuple, with the same real server and the
same ports, and its connection has made the steps of its own segments. Or up to some
step of the run this was so, and that step ended it: its real server could not be
used any more when a segment of either side came, a SYN of the client came when the
connection was over, or the clock passed the deadline, which is the one that its last
segment has set by the state it led to. -/
theorem session_lasts (hcfg : Config.Accepted dp.cfg) {evs : List Event} (h : Reach dp W)
    (hv : ∀ ev ∈ evs, ev.Valid dp.steering.n) (he : W.entry dp d.client = some (d, c))
    (hr : W.run dp evs = .ok W') :
    W'.entry dp d.client = some (d, c.advances dp.cfg.timeouts (W.history dp d.client evs)) ∨
      ∃ pre ev post W1 c1, evs = pre ++ ev :: post ∧ W.run dp pre = .ok W1 ∧
        c1 = c.advances dp.cfg.timeouts (W.history dp d.client pre) ∧ W1.entry dp d.client = some (d, c1) ∧
        W1.EndedBy dp d.client ev ∧ ∀ s, (W.history dp d.client pre).getLast? = some s →
          c1.expireTick = SessionTable.deadline s.tick (stateTimeout c1.state dp.cfg.timeouts) := by
  induction evs generalizing W c with
  | nil => exact Or.inl (Except.ok.inj hr ▸ he)
  | cons ev evs ih =>
    unfold World.run at hr
    rw [List.foldlM_cons] at hr
    obtain ⟨W1, h1, hr⟩ := bind_eq_ok.mp hr
    have hvalid := hv ev List.mem_cons_self
    have hhist : ∀ evs', W.history dp d.client (ev :: evs') =
        W.segments dp d.client ev ++ W1.history dp d.client evs' := fun evs' => by simp only [history, h1]
    have hadv : ∀ evs', c.advances dp.cfg.timeouts (W.history dp d.client (ev :: evs')) =
        (c.advances dp.cfg.timeouts (W.segments dp d.client ev)).advances dp.cfg.timeouts
          (W1.history dp d.client evs') := fun evs' => by rw [hhist, Conn.advances, List.foldl_append]; rfl
    rcases step_entry (reach_inv hcfg h) hvalid he h1 with hstep | hend
    · rcases ih (.step ev h hvalid h1) (fun e hm => hv e (List.mem_cons_of_mem _ hm)) hstep hr with hk |
        ⟨pre, ev', post, W2, c2, rfl, hr2, hc2, he2, hend2, -⟩
      · exact Or.inl (hadv evs ▸ hk)
      · refine Or.inr ⟨ev :: pre, ev', post, W2, c2, rfl, ?_, hc2.trans (hadv pre).symm, he2, hend2, fun s hs => ?_⟩
        · unfold World.run
          rw [List.foldlM_cons, h1]
          exact hr2
        · rw [hc2, ← hadv pre]
          exact Conn.advances_expireTick hs
    · exact Or.inr ⟨[], ev, evs, W, c, rfl, rfl, rfl, he, hend, fun s hs => by simp [history] at hs⟩

/-- The real server of a session is to have no new connections. The next query of
the client is still the session's, and the clock ends it when a minute has passed
since. -/
theorem session_lasts_query : ∃ W W1 W' d c, Reach demo W ∧ d.client = queryTuple ∧ d.rsId = 1 ∧
    W.entry demo d.client = some (d, c) ∧ (∃ r ∈ (W.snaps 0).rs 1, r.weight = 0) ∧
    W.run demo [.receive 0 queryFrame noNeigh] = .ok W1 ∧
    W1.entry demo d.client = some (d, c.advances demo.cfg.timeouts
      (W.history demo d.client [.receive 0 queryFrame noNeigh])) ∧
    W1.EndedBy demo d.client (.readClock 0 70000) ∧
    W.run demo [.receive 0 queryFrame noNeigh, .readClock 0 70000] = .ok W' ∧ W'.entry demo d.client = none := by
  obtain ⟨W, h, ⟨⟨d, c⟩, he, hd, hrs⟩, hdrained, hudp, W', hr, hgone⟩ := exists_reach demo
    [.receive 0 queryFrame noNeigh, .command (.setWeight 1 0), .command .publish, .turn 0]
    (P := fun W => (∃ x ∈ W.entry demo queryTuple, x.1.client = queryTuple ∧ x.1.rsId = 1) ∧
      (∃ r ∈ (W.snaps 0).rs 1, r.weight = 0 ∧ r.usable = true) ∧ queryTuple.protocol = 17 ∧
      Returns (W.run demo [.receive 0 queryFrame noNeigh, .readClock 0 70000]) fun W' =>
        W'.entry demo queryTuple = none) (by decide) (by decide +kernel)
  simp only at hd hrs
  rw [← hd] at he hgone hudp
  obtain ⟨r, hr1, hweight, husable⟩ := hdrained
  have hown : demo.ownerOf d.client = 0 := by rw [hd]; decide +kernel
  rcases session_lasts demo_accepted h (by decide) he hr with hk |
    ⟨pre, ev, post, W1, c1, hevs, hpre, rfl, he1, hend, -⟩
  · rw [hgone] at hk
    cases hk
  match pre, hevs with
  | [], hevs =>
    -- the query does not end it: the real server may be used, and UDP has no SYN
    obtain rfl := Except.ok.inj hpre
    obtain ⟨rfl, -⟩ := List.cons.inj hevs
    obtain ⟨j, hj, ⟨s, -, hends⟩ | ⟨_, hev, -⟩⟩ := hend
    · obtain ⟨j', hj', hid, -⟩ := WorkerCtx.entry_eq_some.mp he
      obtain rfl := Option.some.inj (hj.symm.trans hj')
      rcases hends with hno | ⟨hsyn, -⟩
      · rw [show ((W.workers (demo.ownerOf d.client)).session j).rsId = 1 from (congrArg SessionId.rsId hid).trans hrs,
          hown] at hno
        rw [hno r hr1] at husable
        cases husable
      · rw [show ((W.workers (demo.ownerOf d.client)).session j).client = d.client from congrArg SessionId.client hid,
          hudp] at hsyn
        cases hsyn
    · cases hev
  | [_], hevs =>
    obtain ⟨rfl, htail⟩ := List.cons.inj hevs
    obtain ⟨rfl, -⟩ := List.cons.inj htail
    exact ⟨W, W1, W', d, c, h, hd, hrs, he, ⟨r, hr1, hweight⟩, hpre, he1, hend, hr, hgone⟩
  | _ :: _ :: _, hevs => simp at hevs

end World

end L4Lb
