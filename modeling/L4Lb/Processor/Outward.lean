/-
# What the others see of a worker

A worker keeps two things for others: the counters of the real servers, which the
control thread reads, and the events it passes on to the master.

Whatever the packet, the snapshot and the state of the worker, `process_packet`
writes to the counters of a real server only to add to them (`processPacket_grows`).
Three places do, for a packet in each direction and for a new session; the rest of
the packet path does not touch them.

To the master goes what only the master handles: who has sent ARP, which next hop
is missing, which MAC a client on the link has, and what has come back for a health
check. Every event is about the frame in hand. The addresses and the MAC of an event
are those in the frame, each with the MAC that stands beside it, and the answer to a
health check is a TCP segment to the address and the port range of the checks
(`processPacket_posts`).

Both are read off the paths of the packet (`processPacket_onPath`), with one lemma
for the work of the owner on each (`Outward`). These lemmas are about any property
of events that the requests for next hops have.
-/
import L4Lb.Processor.Ledger

open Checked

namespace L4Lb

/-! ### The counters -/

/-- No counter of a real server goes back. -/
def Grows (w w' : WorkerCtx) : Prop := ∀ id (a : Account), a.ofRs (w.rsStats id) ≤ a.ofRs (w'.rsStats id)

namespace Grows

variable {w w' w'' : WorkerCtx}

theorem of_eq (h : w'.rsStats = w.rsStats) : Grows w w' := fun id a => by rw [h]

theorem refl (w : WorkerCtx) : Grows w w := of_eq rfl

theorem trans (h : Grows w w') (h' : Grows w' w'') : Grows w w'' := fun id a => (h id a).trans (h' id a)

theorem ite {c : Prop} {_ : Decidable c} {a b : WorkerCtx} (ha : Grows w a) (hb : Grows w b) :
    Grows w (if c then a else b) := by
  split
  · exact ha
  · exact hb

end Grows

/-! ### Posting -/

/-- The events of `w'` are those of `w` and others with `P`. -/
def Posts (P : MasterEvent → Prop) (w w' : WorkerCtx) : Prop :=
  ∃ evs, w'.events = w.events ++ evs ∧ ∀ ev ∈ evs, P ev

namespace Posts

variable {P : MasterEvent → Prop} {w w' w'' : WorkerCtx}

theorem of_eq (h : w'.events = w.events) : Posts P w w' := ⟨[], by rw [h, List.append_nil], by simp⟩

theorem trans (h : Posts P w w') (h' : Posts P w' w'') : Posts P w w'' := by
  obtain ⟨evs, he, hP⟩ := h
  obtain ⟨evs', he', hP'⟩ := h'
  refine ⟨evs ++ evs', by rw [he', he, List.append_assoc], fun ev hev => ?_⟩
  rcases List.mem_append.mp hev with hev | hev
  · exact hP ev hev
  · exact hP' ev hev

end Posts

/-! ### Both at once -/

/-- The counters have grown, and the new events have `P`. -/
structure Outward (P : MasterEvent → Prop) (w w' : WorkerCtx) : Prop where
  grows : Grows w w'
  posts : Posts P w w'

namespace Outward

variable {P : MasterEvent → Prop} {w w' w'' : WorkerCtx}

theorem of_eq (hr : w'.rsStats = w.rsStats) (he : w'.events = w.events) : Outward P w w' := ⟨.of_eq hr, .of_eq he⟩

theorem refl (w : WorkerCtx) : Outward P w w := of_eq rfl rfl

theorem trans (h : Outward P w w') (h' : Outward P w' w'') : Outward P w w'' :=
  ⟨h.grows.trans h'.grows, h.posts.trans h'.posts⟩

theorem after (h : Outward P w' w'') (hr : w'.rsStats = w.rsStats) (he : w'.events = w.events) : Outward P w w'' :=
  (of_eq hr he).trans h

theorem ite {c : Prop} {_ : Decidable c} {a b : WorkerCtx} (ha : Outward P w a) (hb : Outward P w b) :
    Outward P w (if c then a else b) := by
  split
  · exact ha
  · exact hb

theorem post {evs : List MasterEvent} (w : WorkerCtx) (h : ∀ ev ∈ evs, P ev) : Outward P w (w.post evs) :=
  ⟨.of_eq rfl, evs, rfl, h⟩

theorem addRs (w : WorkerCtx) (id : ℕ) {g : RsCounters → RsCounters}
    (hg : ∀ (a : Account) c, a.ofRs c ≤ a.ofRs (g c)) : Ensures (w.addRs id g) (Outward P w) := by
  unfold WorkerCtx.addRs
  refine .ite (.ok ⟨fun k a => ?_, .of_eq rfl⟩) .error
  show a.ofRs (w.rsStats k) ≤ a.ofRs (Function.update w.rsStats id (g (w.rsStats id)) k)
  by_cases hk : k = id
  · subst hk
    rw [Function.update_self]
    exact hg a _
  · rw [Function.update_of_ne hk]

theorem countFwdIn (w : WorkerCtx) (i : ℕ) (m : Mbuf) : Ensures (countFwdIn w i m) (Outward P w) := by
  unfold L4Lb.countFwdIn
  refine (addRs _ _ fun a c => ?_).mono fun w' h => h.after rfl rfl
  cases a <;> simp [Account.ofRs]

theorem countFwdOut (w : WorkerCtx) (i : ℕ) (m : Mbuf) : Ensures (countFwdOut w i m) (Outward P w) := by
  unfold L4Lb.countFwdOut
  refine (addRs _ _ fun a c => ?_).mono fun w' h => h.after rfl rfl
  cases a <;> simp [Account.ofRs]

theorem rssCheck (dp : Dataplane) (w : WorkerCtx) (m : Mbuf) (t : FiveTuple) : Outward P w (rssCheck dp w m t) :=
  .ite (.of_eq rfl rfl) (.ite (.of_eq rfl rfl) (.refl w))

theorem countOutcome (w : WorkerCtx) (out : RewriteOutcome) : Outward P w (countOutcome w out) := by
  have step : ∀ (b : Bool) (w : WorkerCtx) (s : Stat), Outward P w (if b then w.count s else w) :=
    fun b w s => .ite (.of_eq rfl rfl) (.refl w)
  exact ((step _ w _).trans (step _ _ _)).trans (step _ _ _)

end Outward

section Handlers

variable {dp : Dataplane} {view : NeighView} {snap : Snapshot} {w : WorkerCtx} {m : Mbuf} {p : PacketMeta}
  {P : MasterEvent → Prop}

theorem findInbound_outward (w : WorkerCtx) (snap : Snapshot) (tuple : FiveTuple) (tcp syn : Bool) :
    Outward P w (findInbound w snap tuple tcp syn).1 := by
  unfold findInbound
  split
  · exact .of_eq rfl rfl
  simp only
  split
  · exact .of_eq rfl rfl
  · exact .of_eq rfl rfl

/-- A session is made: the client's MAC is a hint, if the client is on the link. -/
theorem newSession_outward (svc : Service) (tuple : FiveTuple) (m : Mbuf)
    (hhint : ∀ mac, m.loadMac 6 = .ok mac → dp.route.onLink tuple.srcIp = true → P (.neighHint tuple.srcIp mac)) :
    Ensures (newSession dp w snap svc tuple m) fun x => Outward P w x.1 := by
  unfold newSession
  simp only [pure_eq_ok, throw_eq_error]
  split
  · exact .ok (.of_eq rfl rfl)
  split
  · exact .error
  refine .bind (createSession_call tuple _ _) ?_
  intro ⟨w1, made⟩ hcall
  have h1 : Outward P w w1 := by cases hcall <;> exact .of_eq rfl rfl
  cases made with
  | error e => exact .ok h1
  | ok i =>
    refine .named fun srcMac hmac => .bind (Outward.addRs (P := P) _ _ fun a c => ?_) fun w3 h3 => ?_
    · cases a <;> simp [Account.ofRs]
    have h := h1.trans (h3.after rfl rfl)
    refine .branch (fun hc => .ok (h.trans (.post _ ?_))) fun _ => .ok h
    rw [Bool.and_eq_true] at hc
    simpa using hhint srcMac hmac hc.2

section Resolving

variable (hmiss : ∀ ip, ip ≠ 0 → P (.neighMiss ip))

include hmiss

/-- Only a next hop is asked for. -/
theorem resolveMac_events (view : NeighView) (hop : IPv4Addr) (cache : MacAddr) (gen : ℕ) (fallback : MacAddr) :
    ∀ ev ∈ (resolveMac view hop cache gen fallback).events, P ev := by
  unfold resolveMac
  split
  · simp
  split
  · simp
  · by_cases h0 : hop = 0
    · simp [h0]
    · simpa [h0] using hmiss hop h0

theorem Outward.resolveRsMac (w : WorkerCtx) (i : ℕ) (rs : RsState) : Outward P w (resolveRsMac dp view w i rs).1 := by
  unfold L4Lb.resolveRsMac
  split
  · exact .refl w
  · exact Outward.after (.post _ (resolveMac_events hmiss _ _ _ _ _)) rfl rfl

theorem Outward.resolveClientMac (w : WorkerCtx) (i : ℕ) : Outward P w (resolveClientMac dp view w i).1 :=
  Outward.after (.post _ (resolveMac_events hmiss _ _ _ _ _)) rfl rfl

theorem forwardInbound_outward (i : ℕ) (rs : RsState) (isNew : Bool) :
    Ensures (forwardInbound dp view w snap m p i rs isNew) fun o => Outward P w o.1 := by
  refine (forwardInbound_call i rs isNew).mono fun o ho => ?_
  have h1 : Outward P w (advanced dp view w m p i rs) := by
    refine .trans ?_ (.resolveRsMac hmiss _ i rs)
    exact .of_eq rfl rfl
  cases ho with
  | dropped m' hr => exact h1.trans (.ite (.of_eq rfl rfl) (.refl _))
  | sent out m' hc => exact (h1.trans (.countOutcome _ _)).trans (Outward.countFwdIn _ i m' _ hc)

theorem inboundAtOwner_outward (svc : Service) (redirected : Bool)
    (hhint : ∀ mac, m.loadMac 6 = .ok mac → dp.route.onLink p.srcIp = true → P (.neighHint p.srcIp mac)) :
    Ensures (inboundAtOwner dp view w snap svc m p redirected) fun o => Outward P w o.1 := by
  refine (inboundAtOwner_call svc redirected).mono fun o ho => ?_
  have h0 : Outward P w (rssChecked dp w m p redirected) := .ite (.rssCheck dp w m _) (.refl w)
  generalize rssChecked dp w m p redirected = w0 at h0 ho
  have h1 : ∀ {w1 : WorkerCtx} {found : Found},
      findInbound w0 snap p.toFiveTuple (p.ipProtocol == 6) (opensConnection p) = (w1, found) → Outward P w w1 := by
    intro w1 found hf
    have hfind := findInbound_outward (P := P) w0 snap p.toFiveTuple (p.ipProtocol == 6) (opensConnection p)
    rw [hf] at hfind
    exact h0.trans hfind
  cases ho with
  | dropped hf => exact h1 hf
  | found hf ho => exact (h1 hf).trans (forwardInbound_outward hmiss _ _ false o ho)
  | refused hf hs => exact h1 hf
  | failed hf hs hn => exact (h1 hf).trans (newSession_outward svc _ m hhint _ hn)
  | opened hf hs hn hr ho =>
    exact ((h1 hf).trans (newSession_outward svc _ m hhint _ hn)).trans (forwardInbound_outward hmiss _ _ true o ho)

theorem returnAtOwner_outward : Ensures (returnAtOwner dp view w snap m p) fun o => Outward P w o.1 := by
  have h1 : ∀ i, Outward P w (answered dp view w m p i) := fun i => .after (.resolveClientMac hmiss _ i) rfl rfl
  refine returnAtOwner_call.mono fun o ho => ?_
  cases ho with
  | unknown hno => exact .refl w
  | down hi hno => exact .of_eq rfl rfl
  | dropped m' hi hr => exact h1 _
  | sent m' hi hc => exact (h1 _).trans (Outward.countFwdOut _ _ m' _ hc)

theorem Outward.resolves (w : WorkerCtx) : Resolves dp view w (Outward P w) :=
  ⟨.refl w, .resolveClientMac hmiss w, .resolveRsMac hmiss w, fun _ h => h.trans (.of_eq rfl rfl)⟩

end Resolving

end Handlers

/-! ### The frame in hand -/

section Tells

theorem Mbuf.loadMac_ensures (m : Mbuf) (off : ℕ) : Ensures (m.loadMac off) (· = m.getMac off) := by
  unfold loadMac
  exact .after fun _ => .ok rfl

theorem Aside.outward {P : MasterEvent → Prop} {w w' : WorkerCtx} (h : Aside P w w') : Outward P w w' := by
  induction h with
  | refl => exact .refl w
  | count _ _ ih => exact ih.trans (.of_eq rfl rfl)
  | post _ hev ih => exact ih.trans (.post _ (by simpa using hev))

theorem processPacket_outward (dp : Dataplane) (view : NeighView) (w : WorkerCtx) (snap : Snapshot) (m : Mbuf)
    (redirected : Bool) :
    Ensures (processPacket dp view w snap m redirected) fun o => Outward (MasterEvent.Tells dp snap m) w o.1 := by
  have hmiss : ∀ ip, ip ≠ 0 → (MasterEvent.neighMiss ip).Tells dp snap m := fun ip h => h
  refine (processPacket_onPath (snap.safe_none dp).toLookupSafe view w m redirected).ensures
    (fun _ o ho => ho.aside.outward) fun path k w' _ _ hfrom ha => ?_
  refine Ensures.mono ?_ fun o ho => ha.outward.trans ho
  refine .ite (.ok (.refl w')) ?_
  cases path with
  | inbound p svc =>
    refine inboundAtOwner_outward hmiss svc redirected fun mac hmac hlink => ?_
    exact ⟨⟨p, hfrom p svc rfl, rfl⟩, (m.loadMac_ensures 6 mac hmac).symm, hlink⟩
  | fromServer p => exact returnAtOwner_outward hmiss
  | errorToClient p info => exact ((Outward.resolves hmiss w').icmpToClient info).mono fun o ho => ho.worker
  | errorToServer p info => exact ((Outward.resolves hmiss w').icmpToServer info).mono fun o ho => ho.worker
  | rest => exact .ok (.refl w')

/-- **`process_packet` only adds to the counters of the real servers.** -/
theorem processPacket_grows (dp : Dataplane) (view : NeighView) (w : WorkerCtx) (snap : Snapshot) (m : Mbuf)
    (redirected : Bool) : Ensures (processPacket dp view w snap m redirected) fun o => Grows w o.1 :=
  (processPacket_outward dp view w snap m redirected).mono fun _ h => h.grows

/-- **Every event says what is in the frame.** -/
theorem processPacket_posts (dp : Dataplane) (view : NeighView) (w : WorkerCtx) (snap : Snapshot) (m : Mbuf)
    (redirected : Bool) :
    Ensures (processPacket dp view w snap m redirected) fun o => Posts (MasterEvent.Tells dp snap m) w o.1 :=
  (processPacket_outward dp view w snap m redirected).mono fun _ h => h.posts

end Tells

end L4Lb
