/-
# The handshake

A client opens a connection with a SYN, and acknowledges what the real server
answers. However the load balancer is run, its session of the client tuple
follows `TcpState/Connection.lean`: `World.history` reads the segments of the
tuple off a run, whatever else happens in it, and the run takes the session
where `Conn.run` takes it (`run_conn`).

So after a SYN and an ACK of the client the session is ESTABLISHED, with the
deadline of an established connection, if the SYN starts anew. A session in
FIN_WAIT is neither closed by a SYN nor does it forget the FIN: a client that
opens its next connection from the same port then keeps the timeout of the old
one, until that has run out (`handshake_establishes`, `handshake_reused_port`).
-/
import L4Lb.World.Connection

open Checked

namespace L4Lb

open SessionTable (Fit)

/-! ### The segments of a tuple -/

/-- The segment that a frame is to the session of `client`, if it is one: a
packet of the client, or of the real server on the session's other side. -/
def segmentOf (dp : Dataplane) (snap : Snapshot) (w : WorkerCtx) (client : FiveTuple) (m : Mbuf) : Option TcpSegment :=
  match pathOf dp snap m with
  | .ok (.inbound p _) => if p.toFiveTuple = client then some ⟨.clientToRs, p.tcpFlags, w.nowTick⟩ else none
  | .ok (.fromServer p) =>
    if (w.sessions.lookup client).any fun j => (w.session j).fullnat && (w.session j).server == p.toFiveTuple then
      some ⟨.rsToClient, p.tcpFlags, w.nowTick⟩
    else none
  | _ => none

section Worker

variable {dp : Dataplane} {view : NeighView} {snap : Snapshot} {w w' : WorkerCtx} {m : Mbuf} {p : PacketMeta}
  {client k : FiveTuple} {i j : ℕ} {o : Outcome}

theorem segmentOf_same (h : SameSessions w w') : segmentOf dp snap w' client m = segmentOf dp snap w client m := by
  unfold segmentOf WorkerCtx.session
  rw [h.nowTick, h.sessions]

/-- A tuple with packets of a client is no return tuple. -/
theorem segmentOf_noReturn {s : TcpSegment} (hb : snap.Built dp.H dp.cfg) (hs : s ∈ segmentOf dp snap w client m)
    (hd : s.dir = .clientToRs) : ¬ dp.cfg.ReturnTo client.dstIp client.dstPort := by
  obtain ⟨path, hp, ht⟩ := hb.pathOf_returns m
  unfold segmentOf at hs
  rw [hp] at hs
  cases path with
  | inbound p svc =>
    obtain ⟨rfl, -⟩ := Option.ite_none_right_eq_some.mp hs
    exact hb.noReturn ht
  | fromServer p =>
    obtain ⟨-, hs⟩ := Option.ite_none_right_eq_some.mp hs
    obtain rfl := Option.some.inj hs
    cases hd
  | errorToClient p info => cases hs
  | errorToServer p info => cases hs
  | rest => cases hs

/-- What is found under a key that is no return key is a session of that client. -/
theorem WorkerOk.client_eq (hw : WorkerOk dp i w) (hj : w.sessions.lookup k = some j)
    (hnr : ¬ dp.cfg.ReturnTo k.dstIp k.dstPort) : (w.session j).client = k := by
  obtain ⟨hl, hk⟩ := (hw.fit.lookup_iff k j).mp hj
  rcases hk with rfl | ⟨hf, rfl⟩
  · rfl
  · exact absurd ((hw.live j hl).returnTo hf) hnr

/-- What is found under a return key is a session with that server key. -/
theorem WorkerOk.server_eq (hw : WorkerOk dp i w) (hj : w.sessions.lookup k = some j)
    (hr : dp.cfg.ReturnTo k.dstIp k.dstPort) : (w.session j).fullnat = true ∧ (w.session j).server = k := by
  obtain ⟨hl, hk⟩ := (hw.fit.lookup_iff k j).mp hj
  rcases hk with rfl | ⟨hf, rfl⟩
  · exact absurd hr (hw.live j hl).noReturn
  · exact ⟨hf, rfl⟩

/-- The connection has made the steps of the segments, or there is none
because a SYN among them was dropped. -/
def Follows (dp : Dataplane) (c c' : Option Conn) (segs : List TcpSegment) : Prop :=
  c' = Conn.run dp.cfg.timeouts c segs ∨ (∃ s ∈ segs, s.opens = true) ∧ c' = none

theorem Follows.nil {c c' : Option Conn} (h : c' = c) : Follows dp c c' [] := Or.inl h

theorem Follows.inbound {svc : Service} (hb : snap.Built dp.H dp.cfg) (hw : WorkerOk dp i w)
    (htcp : client.protocol = 6) (hnr : ¬ dp.cfg.ReturnTo client.dstIp client.dstPort) (hu : RsUsable snap w client)
    (hp : pathOf dp snap m = .ok (.inbound p svc)) (ht : (Path.inbound p svc).Taken dp snap m)
    (h : InboundConns dp snap w p o) :
    Follows dp (w.conn client) (o.1.conn client) (segmentOf dp snap w client m).toList := by
  simp only [segmentOf, hp]
  by_cases hc : p.toFiveTuple = client
  · subst hc
    rw [if_pos rfl, Option.toList_some]
    refine (h.own htcp hu).imp_right fun ⟨hopen, hnone⟩ => ⟨⟨_, List.mem_singleton_self _, ?_⟩, hnone⟩
    rw [← opensConnection_eq htcp, hopen]
  · rw [if_neg hc]
    have hnr' : snap.mode = .nat → NoReturn snap client := by
      rintro hm ⟨hl, hr⟩
      rw [hb.mode] at hm
      rw [hb.localIps, if_pos hm] at hl
      exact hnr ⟨hm, Or.inr ⟨hm, hl⟩, hr⟩
    refine .nil (h.others client (Ne.symm hc) hnr' fun j hj hj' => hc ?_).conn_eq
    rw [← hw.client_eq hj (hb.noReturn ht), ← hw.client_eq hj' hnr]

theorem Follows.fromServer (hb : snap.Built dp.H dp.cfg) (hw : WorkerOk dp i w) (hu : RsUsable snap w client)
    (hp : pathOf dp snap m = .ok (.fromServer p)) (ht : (Path.fromServer p).Taken dp snap m)
    (h : ReturnConns dp snap w p o) :
    Follows dp (w.conn client) (o.1.conn client) (segmentOf dp snap w client m).toList := by
  simp only [segmentOf, hp]
  cases hj : w.sessions.lookup client with
  | none => exact .nil (h.others client hw.fit fun j _ => by simp [hj]).conn_eq
  | some j =>
    simp only [Option.any_some, Bool.and_eq_true, beq_iff_eq]
    by_cases hs : (w.session j).fullnat = true ∧ (w.session j).server = p.toFiveTuple
    · rw [if_pos hs, Option.toList_some]
      have hlive := ((hw.fit.lookup_iff _ j).mp hj).1
      have hback : w.sessions.lookup p.toFiveTuple = some j :=
        (hw.fit.lookup_iff _ j).mpr ⟨hlive, Or.inr ⟨hs.1, hs.2.symm⟩⟩
      left
      rw [h.own client j hj hback ⟨hs.1, hs.2, hu j hj⟩, WorkerCtx.conn, hj]
      rfl
    · rw [if_neg hs]
      refine .nil (h.others client hw.fit fun j' hj' he => hs ?_).conn_eq
      obtain rfl : j = j' := Option.some.inj (hj.symm.trans he)
      obtain ⟨b, hr, hret⟩ := hb.isReturn_iff p
      rw [ht.2.2] at hr
      exact hw.server_eq hj' (hret.mp (Except.ok.inj hr).symm)

/-- A frame that belongs to another worker is no segment. -/
theorem segmentOf_eq_none {path : Path} {n : ℕ} (hw : WorkerOk dp i w) (hown : dp.steering.fwdOwner dp.H client = i)
    (hp : pathOf dp snap m = .ok path) (hn : path.owner dp = some n) (hne : n ≠ i) :
    segmentOf dp snap w client m = none := by
  unfold segmentOf
  rw [hp]
  cases path with
  | inbound p svc =>
    refine if_neg fun hc => hne ?_
    rw [← Option.some.inj hn, hc, hown]
  | fromServer p =>
    refine if_neg fun hs => hne ?_
    simp only [Option.any_eq_true, Bool.and_eq_true, beq_iff_eq] at hs
    obtain ⟨j, hj, hs⟩ := hs
    rw [← Option.some.inj hn, ← hs.2]
    exact (hw.live j ((hw.fit.lookup_iff _ j).mp hj).1).serverOwner hs.1
  | errorToClient p info => rfl
  | errorToServer p info => rfl
  | rest => rfl

/-- **A frame at the owner of a client tuple** takes the session of the tuple
one segment further, or leaves it as it is. -/
theorem processPacket_conn {redirected : Bool} (hb : snap.Built dp.H dp.cfg) (hw : WorkerOk dp i w)
    (hown : dp.steering.fwdOwner dp.H client = i) (htcp : client.protocol = 6)
    (hnr : ¬ dp.cfg.ReturnTo client.dstIp client.dstPort) (hu : RsUsable snap w client)
    (ho : processPacket dp view w snap m redirected = .ok o) :
    Follows dp (w.conn client) (o.1.conn client) (segmentOf dp snap w client m).toList := by
  obtain ⟨path, hp, ht⟩ := hb.pathOf_returns m
  cases hn : path.owner dp with
  | none =>
    cases path with
    | rest =>
      have hdone := (processPacket_processed ho hp).result.resolve_right (by simp [hn])
      simp only [segmentOf, hp]
      exact .nil ((SameConns.of_same (Untouched.same hdone.2)).conn_eq client)
    | _ => cases hn
  | some n =>
    obtain ⟨w1, hs, he⟩ := processPacket_path view w redirected hp hn
    rw [he, Path.run] at ho
    have hw1 := hw.same hs
    have hu1 : RsUsable snap w1 client := fun j hj => by
      rw [hs.session]
      exact hu j (hs.sessions ▸ hj)
    rw [← (SameConns.of_same hs).conn_eq, ← segmentOf_same hs]
    by_cases hne : n ≠ w1.idx
    · rw [if_pos hne] at ho
      rw [segmentOf_eq_none hw1 hown hp hn (hw1.idx ▸ hne)]
      exact .nil (congrArg (fun o : Outcome => o.1.conn client) (Except.ok.inj ho).symm)
    · rw [if_neg hne] at ho
      cases path with
      | inbound p svc =>
        have hlen := ht.1.headers_le
        exact .inbound hb hw1 htcp hnr hu1 hp ht (inboundAtOwner_conns (hb.admits hw1 ht)
          (Snapshot.findService_mem ht.2.2.2.2) (by omega) redirected o ho)
      | fromServer p => exact .fromServer hb hw1 hu1 hp ht (returnAtOwner_conns o ho)
      | errorToClient p info =>
        simp only [segmentOf, hp]
        exact .nil ((icmpToClient_conns info o ho).conn_eq client)
      | errorToServer p info =>
        simp only [segmentOf, hp]
        exact .nil ((icmpToServer_conns info o ho).conn_eq client)
      | rest => cases hn

end Worker

/-! ### Runs -/

/-- The worker a client tuple belongs to. -/
def Dataplane.ownerOf (dp : Dataplane) (client : FiveTuple) : ℕ := dp.steering.fwdOwner dp.H client

namespace World

section Runs

variable (dp : Dataplane) (client : FiveTuple)

/-- The connection of a client tuple, at its owner. -/
def conn (W : World) : Option Conn := (W.workers (dp.ownerOf client)).conn client

/-- The segment of the tuple that its owner handles in a step. -/
def segments (W : World) : Event → List TcpSegment
  | .receive i m _ =>
    if i = dp.ownerOf client then (segmentOf dp (W.snaps i) (W.workers i) client m).toList else []
  | .takeRedirected i _ =>
    match W.rings i with
    | [] => []
    | m :: _ => if i = dp.ownerOf client then (segmentOf dp (W.snaps i) (W.workers i) client m).toList else []
  | .turn _ | .readClock _ _ | .command _ => []

/-- The segments of the tuple in a run. -/
def history (W : World) : List Event → List TcpSegment
  | [] => []
  | ev :: evs =>
    W.segments dp client ev ++
      match W.step dp ev with
      | .ok W' => W'.history evs
      | .error _ => []

/-- The real server of the session may be used, and the session does not run out. -/
def Calm (W : World) : Event → Prop
  | .receive i _ _ | .takeRedirected i _ => i = dp.ownerOf client → RsUsable (W.snaps i) (W.workers i) client
  | .readClock i tsc => i = dp.ownerOf client → ∀ j ∈ (W.workers i).sessions.lookup client,
      (dp.clock.now tsc).tick.toNat < ((W.workers i).session j).expireTick
  | .turn _ | .command _ => True

instance (W : World) (ev : Event) : Decidable (W.Calm dp client ev) :=
  have hrs (i : ℕ) : Decidable (i = dp.ownerOf client → RsUsable (W.snaps i) (W.workers i) client) := inferInstance
  ev.casesOn (fun i _ _ => hrs i) (fun i _ => hrs i) (fun _ => isTrue trivial)
    (fun _ _ => inferInstanceAs (Decidable (_ → ∀ _ ∈ _, _ < _))) fun _ => isTrue trivial

/-- Every step of a run is calm, and a SYN of the client has a session after it:
it was not dropped for want of a next hop, a port or room in the table. -/
def Undisturbed (W : World) : List Event → Prop
  | [] => True
  | ev :: evs => W.Calm dp client ev ∧
      match W.step dp ev with
      | .ok W' =>
        ((∃ s ∈ W.segments dp client ev, s.opens = true) → (W'.conn dp client).isSome = true) ∧ W'.Undisturbed evs
      | .error _ => True

instance decidableUndisturbed : ∀ (W : World) (evs : List Event), Decidable (W.Undisturbed dp client evs)
  | _, [] => isTrue trivial
  | W, ev :: evs => by
    unfold Undisturbed
    have := fun W' => decidableUndisturbed W' evs
    cases W.step dp ev <;> infer_instance

end Runs

variable {dp : Dataplane} {client : FiveTuple} {W W' : World} {i : ℕ} {w : WorkerCtx}

/-- A worker takes a frame. -/
theorem handle_conn {view : NeighView} {m : Mbuf} {redirected : Bool} (hinv : Inv dp W) (hi : i < dp.steering.n)
    (hs : SameSessions (W.workers i) w) (htcp : client.protocol = 6)
    (hnr : ¬ dp.cfg.ReturnTo client.dstIp client.dstPort)
    (hu : i = dp.ownerOf client → RsUsable (W.snaps i) (W.workers i) client)
    (h : W.handle dp view i w m redirected = .ok W') :
    Follows dp (W.conn dp client) (W'.conn dp client)
      (if i = dp.ownerOf client then (segmentOf dp (W.snaps i) (W.workers i) client m).toList else []) := by
  obtain ⟨o, ho, h⟩ := bind_eq_ok.mp h
  obtain rfl := Except.ok.inj h
  by_cases hown : i = dp.ownerOf client
  · rw [if_pos hown]
    have hu' : RsUsable (W.snaps i) w client := fun j hj => by
      rw [hs.session]
      exact hu hown j (hs.sessions ▸ hj)
    have hf := processPacket_conn (hinv.snaps i) ((hinv.workers i hi).same hs) hown.symm htcp hnr hu' ho
    rw [segmentOf_same hs, (SameConns.of_same hs).conn_eq] at hf
    unfold conn
    rw [← hown, (SameConns.of_same (finish_same W i o)).conn_eq]
    exact hf
  · rw [if_neg hown]
    refine .nil ?_
    unfold conn
    rw [finish_other (Ne.symm hown)]

/-- A session that is not due stays, as it is. -/
theorem readClock_conn {tsc : UInt64} {w' : WorkerCtx} (hf : Fit w.sessions)
    (hd : ∀ j ∈ w.sessions.lookup client, (dp.clock.now tsc).tick.toNat < (w.session j).expireTick)
    (h : w.readClock dp tsc = .ok w') : w'.conn client = w.conn client := by
  unfold WorkerCtx.readClock at h
  simp only at h
  cases he : w.sessions.expire (dp.clock.now tsc).tick.toNat with
  | none => simp [he] at h
  | some r =>
    rw [he] at h
    obtain rfl := Except.ok.inj h
    obtain ⟨out, L, hgood, hex⟩ := ((SessionTable.expire_spec hf _).1 r he).1
    have hcore := hex.core
    have hlook : r.table.lookup client = w.sessions.lookup client := by
      refine Option.ext fun j => ?_
      rw [hgood.fit.lookup_iff, hf.lookup_iff, hex.live, Session.hasKey_of_core (hcore j)]
      constructor
      · rintro ⟨⟨hl, -⟩, hk⟩
        exact ⟨hl, hk⟩
      · rintro ⟨hl, hk⟩
        refine ⟨⟨hl, fun hout => ?_⟩, hk⟩
        exact absurd (hd j ((hf.lookup_iff client j).mpr ⟨hl, hk⟩)) (not_lt.mpr (hex.due j hout).2)
    exact Spares.conn_eq ⟨hlook, fun j _ => Session.conn_of_core (hcore j)⟩

/-- **A step of the load balancer** takes the session of a client tuple one
segment further, or leaves it as it is. -/
theorem step_conn {ev : Event} (hinv : Inv dp W) (hv : ev.Valid dp.steering.n) (htcp : client.protocol = 6)
    (hnr : ¬ dp.cfg.ReturnTo client.dstIp client.dstPort) (hc : W.Calm dp client ev) (h : W.step dp ev = .ok W') :
    Follows dp (W.conn dp client) (W'.conn dp client) (W.segments dp client ev) := by
  cases ev with
  | receive i m view => exact handle_conn hinv hv (sameSessions_received dp _ m) htcp hnr hc h
  | takeRedirected i view =>
    unfold step at h
    unfold segments
    cases hring : W.rings i with
    | nil =>
      simp only [hring] at h ⊢
      exact .nil (congrArg (conn dp client) (Except.ok.inj h).symm)
    | cons m rest =>
      simp only [hring] at h ⊢
      exact handle_conn (W := { W with rings := Function.update W.rings i rest }) (hinv.popRing hring) hv (.count _ _)
        htcp hnr hc h
  | turn i =>
    refine .nil ?_
    unfold step at h
    simp only at h
    split at h
    · cases h
    split at h
    · exact congrArg (conn dp client) (Except.ok.inj h).symm
    · obtain rfl := Except.ok.inj h
      by_cases hi : dp.ownerOf client = i
      · unfold conn
        rw [hi]
        exact (congrArg (fun w : WorkerCtx => w.conn client) (setWorker_self W i _)).trans rfl
      · exact congrArg (fun w : WorkerCtx => w.conn client) (setWorker_other W _ hi)
  | readClock i tsc =>
    refine .nil ?_
    obtain ⟨w1, hw, h⟩ := bind_eq_ok.mp h
    obtain rfl := Except.ok.inj h
    unfold conn
    by_cases hi : dp.ownerOf client = i
    · rw [hi, setWorker_self]
      exact readClock_conn (hinv.workers i hv).fit (hc hi.symm) hw
    · rw [setWorker_other W _ hi]
  | command c =>
    obtain ⟨mgr, -, h⟩ := bind_eq_ok.mp h
    obtain rfl := Except.ok.inj h
    exact .nil rfl

/-- An undisturbed run takes the session where its segments take it. -/
theorem run_conn (hcfg : Config.Accepted dp.cfg) {evs : List Event} (h : Reach dp W)
    (hv : ∀ ev ∈ evs, ev.Valid dp.steering.n) (htcp : client.protocol = 6)
    (hnr : ¬ dp.cfg.ReturnTo client.dstIp client.dstPort) (hun : W.Undisturbed dp client evs)
    (hr : W.run dp evs = .ok W') :
    W'.conn dp client = Conn.run dp.cfg.timeouts (W.conn dp client) (W.history dp client evs) := by
  induction evs generalizing W with
  | nil => exact congrArg (conn dp client) (Except.ok.inj hr).symm
  | cons ev evs ih =>
    unfold World.run at hr
    rw [List.foldlM_cons] at hr
    obtain ⟨W1, h1, hr⟩ := bind_eq_ok.mp hr
    obtain ⟨hc, hrest⟩ := hun
    simp only [h1] at hrest
    have hvalid := hv ev List.mem_cons_self
    have hstep := step_conn (reach_inv hcfg h) hvalid htcp hnr hc h1
    have hnext : W1.conn dp client =
        Conn.run dp.cfg.timeouts (W.conn dp client) (W.segments dp client ev) := by
      rcases hstep with hs | ⟨hopen, hnone⟩
      · exact hs
      · have hsome := hrest.1 hopen
        simp [hnone] at hsome
    rw [ih (.step ev h hvalid h1) (fun e he => hv e (List.mem_cons_of_mem _ he)) hrest.2 hr, hnext]
    simp only [history, h1, Conn.run, List.foldl_append]

theorem segments_noReturn {ev : Event} {s : TcpSegment} (hinv : Inv dp W) (hs : s ∈ W.segments dp client ev)
    (hd : s.dir = .clientToRs) : ¬ dp.cfg.ReturnTo client.dstIp client.dstPort := by
  have hframe : ∀ i m, s ∈ (if i = dp.ownerOf client then
      (segmentOf dp (W.snaps i) (W.workers i) client m).toList else []) →
      ¬ dp.cfg.ReturnTo client.dstIp client.dstPort := by
    intro i m hm
    split at hm
    · exact segmentOf_noReturn (hinv.snaps i) (Option.mem_toList.mp hm) hd
    · simp at hm
  cases ev with
  | receive i m view => exact hframe i m hs
  | takeRedirected i view =>
    unfold segments at hs
    cases hring : W.rings i with
    | nil => simp [hring] at hs
    | cons m rest =>
      simp only [hring] at hs
      exact hframe i m hs
  | turn i => simp [segments] at hs
  | readClock i tsc => simp [segments] at hs
  | command c => simp [segments] at hs

theorem history_noReturn (hcfg : Config.Accepted dp.cfg) {evs : List Event} {s : TcpSegment} (h : Reach dp W)
    (hv : ∀ ev ∈ evs, ev.Valid dp.steering.n) (hs : s ∈ W.history dp client evs) (hd : s.dir = .clientToRs) :
    ¬ dp.cfg.ReturnTo client.dstIp client.dstPort := by
  induction evs generalizing W with
  | nil => simp [history] at hs
  | cons ev evs ih =>
    unfold history at hs
    rcases List.mem_append.mp hs with hs | hs
    · exact segments_noReturn (reach_inv hcfg h) hs hd
    · split at hs
      · rename_i W1 h1
        exact ih (.step ev h (hv ev List.mem_cons_self) h1) (fun e he => hv e (List.mem_cons_of_mem _ he)) hs
      · simp at hs

/-- **When a handshake leads to ESTABLISHED.** For every run of the load
balancer from any state it can be in, in which the tuple of a client is not
disturbed: let its segments be a SYN of the client and then segments without
FIN and RST, one of them an ACK of the client. If the SYN starts anew, the
session is established after the run, with the deadline of an established one
from its last segment on. If no further SYN comes, it is so only then. -/
theorem handshake_establishes (hcfg : Config.Accepted dp.cfg) {evs : List Event} (h : Reach dp W)
    (hv : ∀ ev ∈ evs, ev.Valid dp.steering.n) (htcp : client.protocol = 6) (hun : W.Undisturbed dp client evs)
    (hr : W.run dp evs = .ok W') {syn : TcpSegment} {segs : List TcpSegment}
    (hh : W.history dp client evs = syn :: segs) (hsyn : syn.opens = true) (he : ∀ s ∈ segs, s.ends = false)
    (ha : ∃ s ∈ segs, s.acks = true) :
    (Conn.StartsAnew (W.conn dp client) syn → Conn.Established dp.cfg.timeouts (W'.conn dp client) segs) ∧
    ((∀ s ∈ segs, s.opens = false) →
      (Conn.Established dp.cfg.timeouts (W'.conn dp client) segs ↔ Conn.StartsAnew (W.conn dp client) syn)) := by
  have hnr := history_noReturn hcfg h hv (hh ▸ List.mem_cons_self) (TcpSegment.opens_flags hsyn).1
  rw [run_conn hcfg h hv htcp hnr hun hr, hh]
  exact Conn.run_handshake hsyn he ha

end World

/-! ### A port that is used again -/

/-- The demo with a TCP service, in DR mode. -/
def drConfig : LbConfig :=
  { demoConfig with
    mode := .dr
    services := [{
      name := "web", vip := 0x0200000A, port := 80, proto := 6,
      rs := [{ ip := 0x0101000A, port := 80, mac := plainMac }] }] }

def drDemo : Dataplane := { demo with cfg := drConfig }

theorem drDemo_accepted : Config.Accepted drDemo.cfg := ⟨drConfig, by decide, by decide, rfl⟩

/-- A segment from 10.0.0.1:1234 to 10.0.0.2:80. -/
def tcpFrame (flags : UInt8) : Mbuf :=
  Mbuf.ofBytes
    [2, 0, 0, 0, 0, 1, 2, 0, 0, 0, 0, 2, 8, 0,
      69, 0, 0, 40, 0, 1, 0, 0, 64, 6, 102, 205, 10, 0, 0, 1, 10, 0, 0, 2,
      4, 210, 0, 80, 0, 0, 0, 1, 0, 0, 0, 0, 80, flags, 255, 255, 0, 0, 0, 0]
    8 (by simp)

def tcpTuple : FiveTuple := (metaOf (tcpFrame TCP_SYN)).toFiveTuple

/-- A worker gets segments of the client with these flags. -/
def clientSends (flags : List UInt8) : List Event := flags.map fun f => .receive 0 (tcpFrame f) noNeigh

/-- The first connection of a client gets its timeout. -/
theorem World.handshake_establishes_first : ∃ W W', World.Reach drDemo W ∧ W.conn drDemo tcpTuple = none ∧
    W.run drDemo (clientSends [TCP_SYN, TCP_ACK]) = .ok W' ∧
    Conn.Established drDemo.cfg.timeouts (W'.conn drDemo tcpTuple) [⟨.clientToRs, TCP_ACK, 1⟩] := by
  obtain ⟨W, h, hnone, hun, hh, W', hr, -⟩ := World.exists_reach drDemo []
    (P := fun W => W.conn drDemo tcpTuple = none ∧ W.Undisturbed drDemo tcpTuple (clientSends [TCP_SYN, TCP_ACK]) ∧
      W.history drDemo tcpTuple (clientSends [TCP_SYN, TCP_ACK]) =
        [⟨.clientToRs, TCP_SYN, 1⟩, ⟨.clientToRs, TCP_ACK, 1⟩] ∧
      Returns (W.run drDemo (clientSends [TCP_SYN, TCP_ACK])) fun _ => True)
    (by decide) (by decide +kernel)
  have hall := World.handshake_establishes drDemo_accepted h (by decide) (by decide +kernel) hun hr hh (by decide)
    (by decide) (by decide)
  exact ⟨W, W', h, hnone, hr, hall.1 (hnone ▸ by decide)⟩

/-- A client opens its next connection from the port of one it has sent a FIN
on: the new connection is in FIN_WAIT, with the timeout of that state. -/
theorem World.handshake_reused_port : ∃ W W', World.Reach drDemo W ∧
    W.Undisturbed drDemo tcpTuple (clientSends [TCP_SYN, TCP_ACK]) ∧
    W.run drDemo (clientSends [TCP_SYN, TCP_ACK]) = .ok W' ∧
    W.history drDemo tcpTuple (clientSends [TCP_SYN, TCP_ACK]) =
      [⟨.clientToRs, TCP_SYN, 1⟩, ⟨.clientToRs, TCP_ACK, 1⟩] ∧
    W'.conn drDemo tcpTuple = some ⟨.finWait, 1, SessionTable.deadline 1 drDemo.cfg.timeouts.tcpFin⟩ ∧
    ¬ Conn.Established drDemo.cfg.timeouts (W'.conn drDemo tcpTuple) [⟨.clientToRs, TCP_ACK, 1⟩] := by
  obtain ⟨W, h, hun, hh, W', hr, hconn⟩ := World.exists_reach drDemo
    (clientSends [TCP_SYN, TCP_ACK, TCP_FIN ||| TCP_ACK])
    (P := fun W => W.Undisturbed drDemo tcpTuple (clientSends [TCP_SYN, TCP_ACK]) ∧
      W.history drDemo tcpTuple (clientSends [TCP_SYN, TCP_ACK]) =
        [⟨.clientToRs, TCP_SYN, 1⟩, ⟨.clientToRs, TCP_ACK, 1⟩] ∧
      Returns (W.run drDemo (clientSends [TCP_SYN, TCP_ACK])) fun W' => W'.conn drDemo tcpTuple =
        some ⟨.finWait, 1, SessionTable.deadline 1 drDemo.cfg.timeouts.tcpFin⟩)
    (by decide) (by decide +kernel)
  refine ⟨W, W', h, hun, hr, hh, hconn, ?_⟩
  rintro ⟨c, last, hc, -, hs, -⟩
  rw [hconn] at hc
  obtain rfl := Option.some.inj hc
  cases hs

end L4Lb
