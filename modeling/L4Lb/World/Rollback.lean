/-
# A dropped packet leaves no session behind

`handle_inbound` makes a session before it knows the next hop and before the
rewrite has checked the TTL. If the packet is then dropped the session is
removed again, and the table is as it was: the live sessions with all they
hold, what is found under every key, the free stack and the timer lists. The
argument follows the packet with `SessionTable.Beside`: from `create` to the
verdict the table is the old one with the new session beside the others.
-/
import L4Lb.Session.Create
import L4Lb.World.Owners

open Checked

namespace L4Lb

open SessionTable (Fit Beside SameTable)

section Rollback

variable {dp : Dataplane} {view : NeighView} {snap : Snapshot} {w : WorkerCtx} {m : Mbuf} {p : PacketMeta}
  {t : SessionTable} {i : ℕ} {client : FiveTuple} {rs : RsState}

theorem SessionTable.Beside.setSession (h : Beside t i w.sessions) {f : Session → Session}
    (hf : ∀ s, Session.SameInTable s (f s)) : Beside t i (w.setSession i f).sessions := h.modify (hf _)

/-! ### Making the session -/

/-- A session has been put beside those of `t`, or there is none and `t` is
as it was. -/
structure PutBeside (t : SessionTable) (x : WorkerCtx × Except Stat ℕ) : Prop where
  failed : ∀ e, x.2 = .error e → x.1.sessions = t
  made : ∀ i, x.2 = .ok i → Beside t i x.1.sessions

theorem PutBeside.refused {fail : Stat} (h : w.sessions = t) : PutBeside t (w, .error fail) :=
  ⟨fun _ _ => h, fun _ he => by simp at he⟩

theorem PutBeside.put (h : Beside t i w.sessions) : PutBeside t (w, .ok i) := by
  refine ⟨fun _ he => by simp at he, fun j hj => ?_⟩
  obtain rfl : i = j := by simpa using hj
  exact h

/-- `create` with keys that are not in use. -/
theorem create_cases (h : Fit t) (server : Option FiveTuple) (hc : t.lookup client = none)
    (hs : ∀ s, server = some s → t.lookup s = none) (now timeout : ℕ) :
    t.create client server now timeout = (t, none) ∨
    ∃ i, (t.create client server now timeout).2 = some i ∧
      Beside t i (t.create client server now timeout).1 := by
  cases hmade : (t.create client server now timeout).2 with
  | some i => exact Or.inr ⟨i, rfl, h.create_beside hc hs now timeout hmade⟩
  | none =>
    rcases SessionTable.Good.create h hc hs now timeout with ⟨-, he⟩ | ⟨_, _, _, _, -, -, -, -, he⟩
    · exact Or.inl he
    · rw [he] at hmade
      simp at hmade

theorem createSession_beside (h : Fit w.sessions) (hc : w.sessions.lookup client = none) (timeout : ℕ) :
    Ensures (createSession dp w snap client rs timeout) (PutBeside w.sessions) := by
  refine (createSession_call client rs timeout).mono fun x hx => ?_
  cases hx with
  | refused cursors => exact .refused rfl
  | @full server t cursors hfree hcall =>
    have hcr := create_cases h server hc hfree w.nowTick timeout
    rw [hcall] at hcr
    rcases hcr with he | ⟨i, he, -⟩
    · exact .refused (congrArg Prod.fst he)
    · cases he
  | @made server t i cursors rr hfree hcall =>
    have hcr := create_cases h server hc hfree w.nowTick timeout
    rw [hcall] at hcr
    rcases hcr with he | ⟨j, he, hb⟩
    · cases he
    · obtain rfl := Option.some.inj he
      exact .put hb

theorem counterSafe_none (id : ℕ) : CounterSafe (fun _ => False) id := False.elim

theorem ensures_addRs {id : ℕ} (f : RsCounters → RsCounters) : Ensures (w.addRs id f) (SameSessions w) :=
  (addRs_avoids (counterSafe_none id) f).2

theorem newSession_beside {svc : Service} (h : Fit w.sessions) (hc : w.sessions.lookup client = none) :
    Ensures (newSession dp w snap svc client m) (PutBeside w.sessions) := by
  unfold newSession
  simp only [pure_eq_ok, throw_eq_error]
  generalize svc.sched.pick dp.H client (w.cursors svc.idx) = picked
  rcases picked with ⟨_ | k, cursor⟩
  · exact .ok (.refused rfl)
  simp only
  cases svc.rs[k]? with
  | none => exact .error
  | some rs =>
    refine Ensures.bind (createSession_beside (w := { w with cursors := Function.update w.cursors svc.idx cursor })
      h hc _) ?_
    rintro ⟨w1, _ | i⟩ hput
    · exact .ok (.refused (hput.failed _ rfl))
    refine .after fun srcMac => ?_
    refine Ensures.bind (ensures_addRs _) fun w2 h2 => ?_
    have hb : Beside w.sessions i w2.sessions := by
      rw [h2.sessions]
      exact (hput.made i rfl).setSession fun s => (assigned_sameInTable s ..).1
    exact .ite (.ok (.put hb)) (.ok (.put hb))

/-! ### The packet on the new session -/

theorem SessionTable.Beside.advanced (h : Beside t i w.sessions) (dp : Dataplane) (view : NeighView) (m : Mbuf)
    (p : PacketMeta) (rs : RsState) : Beside t i (advanced dp view w m p i rs).sessions := by
  have h1 : Beside t i (updateState dp w i p.tcpFlags .clientToRs).sessions :=
    (h.setSession fun s => (quiet_advance _ _ s).1).touch _ _
  unfold L4Lb.advanced L4Lb.resolveRsMac
  split
  · refine h1.setSession fun s => ?_
    exact ⟨rfl, rfl, rfl, rfl, rfl, rfl, rfl⟩
  · refine SessionTable.Beside.setSession (f := fun s => { s with rsMac := _, rsMacGen := _ })
      (h1.setSession fun s => ?_) fun s => ?_
    · exact ⟨rfl, rfl, rfl, rfl, rfl, rfl, rfl⟩
    · exact ⟨rfl, rfl, rfl, rfl, rfl, rfl, rfl⟩

/-- The packet that made the session is dropped: the session goes with it. -/
theorem forwardInbound_takesBack (h : Beside t i w.sessions) :
    Ensures (forwardInbound dp view w snap m p i rs true) fun o =>
      ∀ reason, o.2.2 = .drop reason → SameTable t o.1.sessions := by
  refine (forwardInbound_call i rs true).mono fun o ho reason hd => ?_
  cases ho with
  | dropped m' hr => exact (h.advanced dp view m p rs).remove
  | sent out m' hc => cases hd

/-- **A dropped packet leaves no session behind.** For every worker, snapshot
and packet from a client without a session: if `handle_inbound` drops the
packet, the session table is as before. -/
theorem handleInbound_drop_sameTable {svc : Service} {redirected : Bool} {o : Outcome} {reason : Stat}
    (hfit : Fit w.sessions) (hnone : w.sessions.lookup p.toFiveTuple = none)
    (h : handleInbound dp view w snap svc m p redirected = .ok o) (hd : o.2.2 = .drop reason) :
    SameTable w.sessions o.1.sessions := by
  unfold handleInbound at h
  simp only at h
  split at h
  · exact Except.ok.inj h ▸ .refl _
  -- the comparison of the RSS hashes counts, and nothing else
  have hcall := inboundAtOwner_call svc redirected o h
  have hsame : SameSessions w (rssChecked dp w m p redirected) := .ite (.rssCheck dp w m _) (.refl w)
  generalize rssChecked dp w m p redirected = w0 at hsame hcall
  rw [← hsame.sessions] at hfit hnone ⊢
  have hfind : findInbound w0 snap p.toFiveTuple (p.ipProtocol == 6) (opensConnection p) = (w0, .none) := by
    unfold findInbound
    rw [hnone]
  cases hcall with
  | dropped hf => cases hfind.symm.trans hf
  | found hf ho => cases hfind.symm.trans hf
  | refused hf hs =>
    obtain ⟨rfl, -⟩ := Prod.mk.inj (hfind.symm.trans hf)
    exact .refl _
  | failed hf hs hn =>
    obtain ⟨rfl, -⟩ := Prod.mk.inj (hfind.symm.trans hf)
    exact (newSession_beside hfit hnone _ hn).failed _ rfl ▸ .refl _
  | opened hf hs hn hr ho =>
    obtain ⟨rfl, -⟩ := Prod.mk.inj (hfind.symm.trans hf)
    exact forwardInbound_takesBack ((newSession_beside hfit hnone _ hn).made _ rfl) o ho reason hd

end Rollback

/-- A query for a real server that has no MAC, at a worker without sessions:
a session is made, counted and taken back. -/
theorem handleInbound_drop_sameTable_plain : ∃ W, World.Reach plainDemo W ∧ ∃ svc ∈ (W.snaps 0).services,
    ∃ o, handleInbound plainDemo noNeigh (W.workers 0) (W.snaps 0) svc queryFrame (metaOf queryFrame) false = .ok o ∧
      o.2.2 = .drop .dropNoNeigh ∧ o.1.stats .sessNew = 1 ∧ o.1.stats .sessClosed = 1 ∧
      SameTable (W.workers 0).sessions o.1.sessions := by
  obtain ⟨W, h, svc, hsvc, hnone, o, ho, hd, hnew, hclosed⟩ := World.exists_reach plainDemo []
    (P := fun W => ∃ svc ∈ (W.snaps 0).services, (W.workers 0).sessions.lookup queryTuple = none ∧
      Returns (handleInbound plainDemo noNeigh (W.workers 0) (W.snaps 0) svc queryFrame (metaOf queryFrame) false)
        fun o => o.2.2 = .drop .dropNoNeigh ∧ o.1.stats .sessNew = 1 ∧ o.1.stats .sessClosed = 1)
    (by decide) (by decide +kernel)
  have hfit := ((World.reach_inv plainDemo_accepted h).workers 0 (by decide)).fit
  exact ⟨W, h, svc, hsvc, o, ho, hd, hnew, hclosed, handleInbound_drop_sameTable hfit hnone ho hd⟩

end L4Lb
