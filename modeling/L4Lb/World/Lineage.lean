/-
# Sessions and the ids of their real servers

A session keeps the id of the real server it was made for, and the snapshots
change under it. No id ever goes to a second real server
(`SnapshotManager.History`), so whatever snapshot is looked at later, the id
stands for the server the session was made for, or for none; and a health
event that comes late is about the server that was checked, or about none.
-/
import L4Lb.Snapshot.Desired
import L4Lb.World.Owners

open Checked

namespace L4Lb

/-- The identity of a session that worker `i` has made with the snapshot. -/
def MadeFrom (dp : Dataplane) (snap : Snapshot) (i : ℕ) (d : SessionId) : Prop :=
  ∃ svc ∈ snap.services, ∃ client, Fresh dp snap svc client i d

section Worker

variable {dp : Dataplane} {view : NeighView} {snap : Snapshot} {w : WorkerCtx} {m : Mbuf} {i : ℕ}

theorem Path.Done.step {path : Path} {o : Outcome} (hb : snap.Built dp.H dp.cfg) (hw : WorkerOk dp i w)
    (ht : path.Taken dp snap m) (h : path.Done dp snap w m o) : WorkerStep (MadeFrom dp snap i) w o.1 := by
  cases path with
  | inbound p svc =>
    refine (InboundPost.step h (hb.admits hw ht)).mono fun d hd => ?_
    rw [hw.idx] at hd
    exact ⟨svc, Snapshot.findService_mem ht.2.2.2.2, p.toFiveTuple, hd⟩
  | fromServer p => exact (OnSession.step h hw.fit).mono fun _ => False.elim
  | errorToClient p info => exact (OnSession.step h hw.fit).mono fun _ => False.elim
  | errorToServer p info => exact (OnSession.step h hw.fit).mono fun _ => False.elim
  | rest => exact (Untouched.same h).step hw.fit

/-- What a packet does to the sessions of the worker. -/
theorem processPacket_step {redirected : Bool} {o : Outcome} (hb : snap.Built dp.H dp.cfg) (hw : WorkerOk dp i w)
    (ho : processPacket dp view w snap m redirected = .ok o) : WorkerStep (MadeFrom dp snap i) w o.1 := by
  obtain ⟨path, hp, -⟩ := hb.pathOf_returns m
  have h := processPacket_processed ho hp
  rcases h.result with ⟨-, hd⟩ | ⟨k, -, -, hs, -⟩
  · exact hd.step hb hw h.taken
  · exact hs.step hw.fit

end Worker

namespace World

variable {dp : Dataplane} {W W' W'' : World}

/-! ### What a step does -/

/-- Each session of the worker `i` was there before, or is made with the
snapshot of the worker. -/
def Sessions (dp : Dataplane) (snap : Snapshot) (i : ℕ) (w w' : WorkerCtx) : Prop :=
  ∀ j, w'.sessions.Live j → (w.sessions.Live j ∧ (w'.session j).ident = (w.session j).ident) ∨
    MadeFrom dp snap i (w'.session j).ident

/-- What a step can change. -/
structure Moves (dp : Dataplane) (W W' : World) : Prop where
  mgr : W'.mgr = W.mgr ∨ ∃ c : SnapshotManager.Command, c.run dp.H W.mgr = .ok W'.mgr
  snaps : ∀ i, W'.snaps i = W.snaps i ∨ W.mgr.cur = some (W'.snaps i)
  sessions : ∀ i, i < dp.steering.n → Sessions dp (W.snaps i) i (W.workers i) (W'.workers i)

theorem Sessions.refl {snap : Snapshot} {i : ℕ} (w : WorkerCtx) : Sessions dp snap i w w :=
  fun _ hj => Or.inl ⟨hj, rfl⟩

theorem Sessions.of_same {snap : Snapshot} {i : ℕ} {w w1 w2 : WorkerCtx} (h1 : w1.sessions = w.sessions)
    (h : Sessions dp snap i w1 w2) : Sessions dp snap i w w2 := by
  intro j hj
  rw [← h1, show w.session j = w1.session j by unfold WorkerCtx.session; rw [h1]]
  exact h j hj

theorem Moves.setWorker {i : ℕ} {w : WorkerCtx} (rings : ℕ → List Mbuf)
    (h : Sessions dp (W.snaps i) i (W.workers i) w) : Moves dp W { W.setWorker i w with rings := rings } := by
  refine ⟨Or.inl rfl, fun _ => Or.inl rfl, fun k hk => ?_⟩
  show Sessions dp (W.snaps k) k (W.workers k) (Function.update W.workers i w k)
  by_cases hki : k = i
  · subst hki
    rwa [Function.update_self]
  · rw [Function.update_of_ne hki]
    exact .refl _

theorem Moves.handle {i : ℕ} {w : WorkerCtx} {m : Mbuf} {view : NeighView} {redirected : Bool}
    (rings : ℕ → List Mbuf) (hinv : Inv dp W) (hi : i < dp.steering.n) (hsame : SameSessions (W.workers i) w)
    (hs : { W with rings := rings }.handle dp view i w m redirected = .ok W') : Moves dp W W' := by
  unfold World.handle at hs
  obtain ⟨o, ho, hs⟩ := bind_eq_ok.mp hs
  obtain rfl := Except.ok.inj hs
  have hstep := processPacket_step (hinv.snaps i) ((hinv.workers i hi).same hsame) ho
  have hsess : ∀ {w' : WorkerCtx}, w'.sessions = o.1.sessions → Sessions dp (W.snaps i) i (W.workers i) w' := by
    intro w' he
    refine .of_same hsame.sessions fun j hj => ?_
    rw [show w'.session j = o.1.session j by unfold WorkerCtx.session; rw [he]]
    exact hstep.table.live j (he ▸ hj)
  obtain ⟨w', m', r⟩ := o
  cases r with
  | send => exact .setWorker _ (hsess rfl)
  | consumed => exact .setWorker _ (hsess rfl)
  | drop reason => exact .setWorker _ (hsess rfl)
  | redirect k =>
    simp only [World.finish]
    split
    · exact .setWorker _ (hsess rfl)
    · exact .setWorker _ (hsess rfl)

/-- **Every step** keeps the sessions or makes them with the snapshot that
the worker has. -/
theorem step_moves {ev : Event} (hinv : Inv dp W) (hv : ev.Valid dp.steering.n) (hs : W.step dp ev = .ok W') :
    Moves dp W W' := by
  cases ev with
  | receive i m view => exact .handle W.rings hinv hv (sameSessions_received dp _ m) hs
  | takeRedirected i view =>
    simp only [World.step] at hs
    cases hring : W.rings i with
    | nil =>
      rw [hring] at hs
      obtain rfl := Except.ok.inj hs
      exact ⟨Or.inl rfl, fun _ => Or.inl rfl, fun _ _ => .refl _⟩
    | cons m rest =>
      rw [hring] at hs
      exact .handle _ hinv hv (.count _ _) hs
  | turn i =>
    obtain ⟨snap, hcur, -⟩ := hinv.running.cur
    simp only [World.step, hcur] at hs
    split at hs
    · obtain rfl := Except.ok.inj hs
      exact ⟨Or.inl rfl, fun _ => Or.inl rfl, fun _ _ => .refl _⟩
    · obtain rfl := Except.ok.inj hs
      have hsess : Sessions dp (W.snaps i) i (W.workers i)
          { W.workers i with cursors := fun _ => Scheduler.firstCursor i } := fun _ hj => Or.inl ⟨hj, rfl⟩
      refine ⟨Or.inl rfl, fun k => ?_, (Moves.setWorker W.rings hsess).sessions⟩
      show Function.update W.snaps i snap k = _ ∨ W.mgr.cur = some (Function.update W.snaps i snap k)
      by_cases hk : k = i
      · subst hk
        rw [Function.update_self]
        exact Or.inr hcur
      · rw [Function.update_of_ne hk]
        exact Or.inl rfl
  | readClock i tsc =>
    obtain ⟨w', hw', hs⟩ := bind_eq_ok.mp hs
    obtain rfl := Except.ok.inj hs
    refine .setWorker W.rings ?_
    unfold WorkerCtx.readClock at hw'
    simp only at hw'
    cases he : (W.workers i).sessions.expire (dp.clock.now tsc).tick.toNat with
    | none => simp [he] at hw'
    | some r =>
      rw [he] at hw'
      obtain rfl := Except.ok.inj hw'
      have ht : SessionTable.TableStep (MadeFrom dp (W.snaps i) i) (W.workers i).sessions r.table :=
        .expire (hinv.workers i hv).fit he
      exact ht.live
  | command c =>
    obtain ⟨mgr, hm, hs⟩ := bind_eq_ok.mp hs
    obtain rfl := Except.ok.inj hs
    exact ⟨Or.inr ⟨c, hm⟩, fun _ => Or.inl rfl, fun _ _ => .refl _⟩

/-! ### Whole runs -/

def Next (dp : Dataplane) (W W' : World) : Prop := ∃ ev : Event, ev.Valid dp.steering.n ∧ W.step dp ev = .ok W'

/-- `W'` is `W` or a later state. -/
def Later (dp : Dataplane) : World → World → Prop := Relation.ReflTransGen (Next dp)

theorem Reach.later (h : Reach dp W) (hl : Later dp W W') : Reach dp W' := by
  induction hl with
  | refl => exact h
  | tail _ hn ih =>
    obtain ⟨ev, hv, hs⟩ := hn
    exact .step ev ih hv hs

/-- The snapshot is published or in use. -/
def Shown (W : World) (snap : Snapshot) : Prop := W.mgr.cur = some snap ∨ ∃ i, W.snaps i = snap

/-- All snapshots have their ids from the log. -/
structure Logged (dp : Dataplane) (W : World) (log : List RsEntry) : Prop where
  history : SnapshotManager.History dp.H dp.cfg W.mgr log
  shown : ∀ snap, W.Shown snap → snap.Logged log

theorem Logged.step {log : List RsEntry} (hcfg : Config.Accepted dp.cfg) (h : Logged dp W log) (hm : Moves dp W W') :
    ∃ log', log ⊆ log' ∧ Logged dp W' log' := by
  obtain ⟨log', hsub, hist⟩ : ∃ log', log ⊆ log' ∧ SnapshotManager.History dp.H dp.cfg W'.mgr log' := by
    rcases hm.mgr with he | ⟨c, hc⟩
    · exact ⟨log, List.Subset.refl _, he ▸ h.history⟩
    · exact ⟨_, List.subset_append_left .., .run c h.history hc⟩
  refine ⟨log', hsub, hist, fun snap hs => ?_⟩
  rcases hs with hcur | ⟨i, rfl⟩
  · exact (hist.logged hcfg.valid).cur snap hcur
  · rcases hm.snaps i with he | hcur
    · exact (h.shown _ (Or.inr ⟨i, he.symm⟩)).mono hsub
    · exact (h.shown _ (Or.inl hcur)).mono hsub

theorem Logged.later {log : List RsEntry} (hcfg : Config.Accepted dp.cfg) (hr : Reach dp W) (h : Logged dp W log)
    (hl : Later dp W W') : ∃ log', log ⊆ log' ∧ Logged dp W' log' := by
  induction hl with
  | refl => exact ⟨log, List.Subset.refl _, h⟩
  | tail hl hn ih =>
    obtain ⟨log1, hsub1, h1⟩ := ih
    obtain ⟨ev, hv, hs⟩ := hn
    obtain ⟨log2, hsub2, h2⟩ := h1.step hcfg (step_moves (reach_inv hcfg (hr.later hl)) hv hs)
    exact ⟨log2, List.Subset.trans hsub1 hsub2, h2⟩

theorem boot_eq_ok (h : boot dp = .ok W) : ∃ mgr snap, SnapshotManager.init dp.H dp.cfg = .ok mgr ∧
    mgr.cur = some snap ∧ W = ⟨mgr, fun _ => snap, fun i => WorkerCtx.init dp.cfg dp.steering.n i, fun _ => []⟩ := by
  unfold boot at h
  obtain ⟨mgr, hm, h⟩ := bind_eq_ok.mp h
  cases hcur : mgr.cur with
  | none => simp [hcur] at h
  | some snap =>
    rw [hcur] at h
    exact ⟨mgr, snap, hm, hcur, (Except.ok.inj h).symm⟩

theorem reach_logged (hcfg : Config.Accepted dp.cfg) (h : Reach dp W) : ∃ log, Logged dp W log := by
  induction h with
  | boot hb =>
    obtain ⟨mgr, snap, hm, hcur, rfl⟩ := boot_eq_ok hb
    have hist := SnapshotManager.History.init hm
    refine ⟨_, hist, fun snap' hs => (hist.logged hcfg.valid).cur snap' ?_⟩
    rcases hs with hs | ⟨i, rfl⟩
    · exact hs
    · exact hcur
  | step ev h hv hs ih =>
    obtain ⟨log, hl⟩ := ih
    obtain ⟨log', -, hl'⟩ := hl.step hcfg (step_moves (reach_inv hcfg h) hv hs)
    exact ⟨log', hl'⟩

/-- Every session has been made in some step. -/
theorem reach_born (hcfg : Config.Accepted dp.cfg) (h : Reach dp W) {i : ℕ} (hi : i < dp.steering.n) {j : ℕ}
    (hj : (W.workers i).sessions.Live j) :
    ∃ W0 W1, Reach dp W0 ∧ Next dp W0 W1 ∧ Later dp W1 W ∧ (W1.workers i).sessions.Live j ∧
      ((W1.workers i).session j).ident = ((W.workers i).session j).ident ∧
      MadeFrom dp (W0.snaps i) i ((W.workers i).session j).ident := by
  induction h with
  | boot hb =>
    obtain ⟨mgr, snap, -, -, rfl⟩ := boot_eq_ok hb
    exact absurd hj (not_live_init dp.cfg dp.steering.n i j)
  | @step W W' ev h hv hs ih =>
    rcases (step_moves (reach_inv hcfg h) hv hs).sessions i hi j hj with ⟨hl, he⟩ | hm
    · obtain ⟨W0, W1, h0, h1, hlater, hlive, hid, hmade⟩ := ih hl
      exact ⟨W0, W1, h0, h1, hlater.tail ⟨ev, hv, hs⟩, hlive, hid.trans he.symm, he ▸ hmade⟩
    · exact ⟨W, W', h, ⟨ev, hv, hs⟩, .refl, hj, rfl, hm⟩

/-- The id of `r` stands for `r`, wherever it stands for a real server. -/
structure StandsFor (W : World) (r : RsState) : Prop where
  shown : ∀ snap, W.Shown snap → ∀ r', snap.rs r.id = some r' → r'.entry = r.entry
  desired : ∀ i d, W.mgr.Desires i d → d.id = r.id → (SnapshotManager.rsState i d).entry = r.entry

theorem Logged.standsFor {log : List RsEntry} (hcfg : Config.Accepted dp.cfg) (h : Logged dp W log) {r : RsState}
    (hr : r.entry ∈ log) : W.StandsFor r := by
  have hlog := h.history.logged hcfg.valid
  refine ⟨fun snap hs r' hr' => ?_, fun i d hd hid => ?_⟩
  · obtain ⟨hid, -, hmem⟩ := h.shown snap hs _ r' hr'
    exact hlog.eq_of_id hmem hr hid
  · exact hlog.eq_of_id (hlog.states _ (SnapshotManager.mem_states.mpr ⟨i, d, hd, rfl⟩)) hr hid

/-- A real server in a snapshot keeps its id for itself. -/
theorem shown_standsFor (hcfg : Config.Accepted dp.cfg) (h : Reach dp W) {snap : Snapshot} (hs : W.Shown snap)
    {id : ℕ} {r : RsState} (hr : snap.rs id = some r) (hl : Later dp W W') : W'.StandsFor r := by
  obtain ⟨log, hlog⟩ := reach_logged hcfg h
  obtain ⟨log', hsub, hlog'⟩ := hlog.later hcfg h hl
  exact hlog'.standsFor hcfg (hsub (hlog.shown snap hs id r hr).2.2)

/-- The session with the identity `d` is made for the real server `r`. -/
structure MadeFor (dp : Dataplane) (snap : Snapshot) (i : ℕ) (d : SessionId) (r : RsState) : Prop where
  fresh : MadeFrom dp snap i d
  rs : snap.rs d.rsId = some r
  server : d.fullnat = true → d.server.srcIp = r.ip ∧ d.server.srcPort = bswap16 r.port

theorem madeFor_of_madeFrom (hinv : Inv dp W) {log : List RsEntry} (hlog : Logged dp W log) {i : ℕ} {d : SessionId}
    (h : MadeFrom dp (W.snaps i) i d) : ∃ r, MadeFor dp (W.snaps i) i d r := by
  obtain ⟨svc, hsvc, client, hf⟩ := id h
  obtain ⟨k, -, r, hk, hid, hserver⟩ := hf.rs
  have hr : (W.snaps i).rs d.rsId = some r := hid ▸ (hinv.snaps i).rs_mem hsvc (List.mem_of_getElem? hk)
  refine ⟨r, h, hr, fun hfull => ⟨(hserver hfull).srcIp, ?_⟩⟩
  rw [(hserver hfull).srcPort]
  exact (hlog.shown _ (Or.inr ⟨i, rfl⟩) _ r hr).2.1

/-- **Ids stand for one real server.** Ids are assigned in increasing order,
and what is published is what is wanted. A session is made for a real server
of the worker's snapshot, and in every later state the id it keeps stands for
that server or for none; and so does the id of a health event, which changes
the health of that server alone. -/
theorem ids_stand (hcfg : Config.Accepted dp.cfg) :
    (Returns (SnapshotManager.init dp.H dp.cfg) fun mgr => ∃ snap, mgr.cur = some snap ∧ snap.Shows mgr) ∧
    (∀ mgr log, SnapshotManager.History dp.H dp.cfg mgr log →
      (log.map (·.id)).Pairwise (· < ·) ∧
      (∀ i d, mgr.Desires i d → (⟨d.id, i, d.conf.ip, d.conf.port⟩ : RsEntry) ∈ log) ∧
      Returns (mgr.publish dp.H) fun mgr' => mgr'.services = mgr.services ∧
        ∃ snap, mgr'.cur = some snap ∧ snap.Shows mgr') ∧
    (∀ W, Reach dp W → ∀ i, i < dp.steering.n → ∀ j, (W.workers i).sessions.Live j →
      ∃ W0 W1 r, Reach dp W0 ∧ Next dp W0 W1 ∧ Later dp W1 W ∧ (W1.workers i).sessions.Live j ∧
        ((W1.workers i).session j).ident = ((W.workers i).session j).ident ∧
        MadeFor dp (W0.snaps i) i ((W.workers i).session j).ident r ∧ ∀ W', Later dp W W' → W'.StandsFor r) ∧
    ∀ W, Reach dp W → ∀ snap, W.Shown snap → ∀ id r, snap.rs id = some r → ∀ W', Later dp W W' →
      W'.StandsFor r ∧ r.id = id ∧ ∀ healthy i d, (W'.mgr.setHealth id healthy).Desires i d ↔
        ∃ d0, W'.mgr.Desires i d0 ∧ d = if d0.id = id then { d0 with healthy := healthy } else d0 := by
  refine ⟨?_, fun mgr log h => ?_, fun W h i hi j hj => ?_, fun W h snap hs id r hr W' hl => ?_⟩
  · refine (SnapshotManager.publish_shows hcfg.valid (SnapshotManager.ok_start hcfg.valid)).mono ?_
    exact fun mgr hm => hm.2.2.2
  · have hlog := h.logged hcfg.valid
    refine ⟨hlog.sorted, fun i d hd => ?_, ?_⟩
    · exact hlog.states _ (SnapshotManager.mem_states.mpr ⟨i, d, hd, rfl⟩)
    · exact (SnapshotManager.publish_shows hcfg.valid hlog.running.ok).mono fun mgr' hm => ⟨hm.1, hm.2.2.2⟩
  · obtain ⟨W0, W1, h0, h1, hlater, hlive, hid, hmade⟩ := reach_born hcfg h hi hj
    obtain ⟨log, hlog⟩ := reach_logged hcfg h0
    obtain ⟨r, hr⟩ := madeFor_of_madeFrom (reach_inv hcfg h0) hlog hmade
    refine ⟨W0, W1, r, h0, h1, hlater, hlive, hid, hr, fun W' hl => ?_⟩
    exact shown_standsFor hcfg h0 (Or.inr ⟨i, rfl⟩) hr.rs ((hlater.head h1).trans hl)
  · obtain ⟨log, hlog⟩ := reach_logged hcfg h
    have hinv' := reach_inv hcfg (h.later hl)
    refine ⟨shown_standsFor hcfg h hs hr hl, (hlog.shown snap hs id r hr).1, fun healthy i d => ?_⟩
    exact SnapshotManager.desires_setHealth hinv'.running.ok.ids_nodup id healthy i d

/-- The first real server of the demo is deleted and added again: it has
another id, and the session that was made for it finds no real server. -/
theorem ids_stand_demo : ∃ W, Reach demo W ∧ (W.workers 0).sessions.Live 0 ∧
    (∃ (W0 : World) (r : RsState), MadeFor demo (W0.snaps 0) 0 ((W.workers 0).session 0).ident r ∧ W.StandsFor r) ∧
    ((W.snaps 0).rs ((W.workers 0).session 0).rsId).isNone = true := by
  obtain ⟨W, h, hl, hnone⟩ := exists_reach demo
    [.receive 0 queryFrame noNeigh, .command (.delRs 1), .command (.addRs 0 { ip := 0x0101000A, port := 53 }),
      .command .publish, .turn 0]
    (P := fun W => (W.workers 0).sessions.Live 0 ∧
      ((W.snaps 0).rs ((W.workers 0).session 0).rsId).isNone = true) (by decide) (by decide +kernel)
  obtain ⟨-, -, hsess, -⟩ := ids_stand demo_accepted
  obtain ⟨W0, -, r, -, -, -, -, -, hmade, hstands⟩ := hsess W h 0 (by decide) 0 hl
  exact ⟨W, h, hl, ⟨W0, r, hmade, hstands W .refl⟩, hnone⟩

end World

end L4Lb
