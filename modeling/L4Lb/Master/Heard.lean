/-
# What the master knows comes from frames

The workers tell the master what they see in the frames, the master writes it to
the neighbour table and gives it to the health checker. Frames are passed from
worker to worker, events wait in a ring and in a burst, and the table ages
meanwhile. In every state of the system a MAC in the table is one of the
configuration, or a frame that was received has introduced it: as the sender of
ARP for one of our addresses, or as the source of a packet from the link, with this
address beside this MAC (`System.neigh_from_frames`). No event and no entry mixes
two frames.

`Heard` runs the system with the frames received so far.
-/
import L4Lb.Master.Arp
import L4Lb.Processor.Outward

open Checked

namespace L4Lb

/-! ### The table -/

namespace NeighTable

variable {t t' : NeighTable} {ip x : IPv4Addr} {mac v : MacAddr} {now : ℕ} {room : Bool}

theorem lookup_of_store (h : Ok t) (hl : (t.store ip mac room).lookup x = some v) :
    t.lookup x = some v ∨ x = ip ∧ v = mac := by
  cases ht : t.takes ip room with
  | false =>
    rw [store_of_not_takes h ht] at hl
    exact .inl hl
  | true =>
    rw [(stored_of_takes h ht mac).lookup] at hl
    split at hl
    · exact .inr ⟨‹_›, (Option.some.inj hl).symm⟩
    · exact .inl hl

/-- What is in the table after `learn` was there, or is what was learned. -/
theorem lookup_of_learn (h : Ok t) {solicited : Bool} (hl : (t.learn ip mac solicited now room).lookup x = some v) :
    t.lookup x = some v ∨ x = ip ∧ v = mac := by
  unfold learn at hl
  split at hl
  · exact .inl hl
  split at hl
  · exact .inl hl
  change (if t.valid ip = true ∧ t.lookup ip = some mac then t else t.store ip mac room).lookup x = some v at hl
  split at hl
  · exact .inl hl
  · exact lookup_of_store h hl

theorem lookup_of_hint (h : Ok t) (hl : (t.hint ip mac now room).lookup x = some v) :
    t.lookup x = some v ∨ x = ip ∧ v = mac := by
  unfold hint at hl
  split at hl
  · exact .inl hl
  split at hl
  · exact .inl hl
  · exact lookup_of_store h hl

theorem lookup_of_age (h : Ok t) {order : List IPv4Addr} (hl : (t.age now order).1.lookup x = some v) :
    t.lookup x = some v := by
  rw [(age_alike t now order).lookup, (foldl_erase _ h).2.1] at hl
  split at hl
  · cases hl
  · exact hl

/-- The table has lost entries at most. -/
def Thins (t t' : NeighTable) : Prop := Ok t → Ok t' ∧ ∀ x v, t'.lookup x = some v → t.lookup x = some v

theorem Thins.refl (t : NeighTable) : Thins t t := fun h => ⟨h, fun _ _ hl => hl⟩

theorem Thins.trans {t'' : NeighTable} (h : Thins t t') (h' : Thins t' t'') : Thins t t'' := by
  intro hok
  obtain ⟨hok', hsub⟩ := h hok
  obtain ⟨hok'', hsub'⟩ := h' hok'
  exact ⟨hok'', fun x v hl => hsub x v (hsub' x v hl)⟩

theorem Thins.wantRequest (t : NeighTable) (ip : IPv4Addr) (now : ℕ) : Thins t (t.wantRequest ip now).1 := by
  have ha := Alike.wantRequest t ip now
  exact fun h => ⟨ha.ok h, fun x v hl => by rwa [ha.lookup] at hl⟩

theorem Thins.age (t : NeighTable) (now : ℕ) (order : List IPv4Addr) : Thins t (t.age now order).1 :=
  fun h => ⟨(Acts.age h now order).ok, fun _ _ hl => lookup_of_age h hl⟩

end NeighTable

/-! ### The workers -/

/-- The frame introduces `ip` with `mac`: it is ARP from there for one of our
addresses, or a packet from there, which is on the link. -/
def Introduces (dp : Dataplane) (m : Mbuf) (ip : IPv4Addr) (mac : MacAddr) : Prop :=
  (∃ snap : Snapshot, snap.Built dp.H dp.cfg ∧ (ArpFrom dp snap m 1 ip mac ∨ ArpFrom dp snap m 2 ip mac)) ∨
    ∃ p, PacketFrom dp m p ∧ p.srcIp = ip ∧ m.getMac 6 = mac ∧ dp.route.onLink ip = true

/-- The event brings the MAC of an address. -/
def MasterEvent.Brings (ip : IPv4Addr) (mac : MacAddr) (ev : MasterEvent) : Prop :=
  ev = .arpForUs ip mac ∨ ev = .arpReply ip mac ∨ ev = .neighHint ip mac

theorem MasterEvent.Tells.introduces {dp : Dataplane} {snap : Snapshot} {m : Mbuf} {ev : MasterEvent}
    {ip : IPv4Addr} {mac : MacAddr} (h : ev.Tells dp snap m) (hsnap : snap.Built dp.H dp.cfg)
    (hev : ev.Brings ip mac) : Introduces dp m ip mac := by
  rcases hev with rfl | rfl | rfl
  · exact .inl ⟨snap, hsnap, .inl h.1⟩
  · exact .inl ⟨snap, hsnap, .inr h⟩
  · obtain ⟨⟨p, hp, hip⟩, hmac, hlink⟩ := h
    exact .inr ⟨p, hp, hip, hmac, hlink⟩

namespace World

variable {dp : Dataplane} {W W' : World} {i : ℕ} {m : Mbuf}

theorem finish_events (W : World) (i : ℕ) (o : Outcome) : ((W.finish dp i o).workers i).events = o.1.events := by
  obtain ⟨w, m, r⟩ := o
  unfold finish
  cases r with
  | send => simp [setWorker]
  | drop e => simp [setWorker, WorkerCtx.count, WorkerCtx.addStat]
  | consumed => simp [setWorker]
  | redirect k =>
    simp only
    split
    · simp [setWorker, WorkerCtx.count, WorkerCtx.addStat]
    · simp [setWorker, WorkerCtx.count, WorkerCtx.addStat]

/-- The events of a frame that worker `i` handles. -/
theorem handle_events {view : NeighView} {w : WorkerCtx} {redirected : Bool}
    (hs : W.handle dp view i w m redirected = .ok W') :
    ∃ evs, (W'.workers i).events = w.events ++ evs ∧ ∀ ev ∈ evs, ev.Tells dp (W.snaps i) m := by
  unfold handle at hs
  obtain ⟨o, ho, hs⟩ := bind_eq_ok.mp hs
  obtain rfl := Except.ok.inj hs
  obtain ⟨evs, he, hev⟩ := processPacket_posts dp view w (W.snaps i) m redirected o ho
  exact ⟨evs, (finish_events W i o).trans he, hev⟩

/-- The frame of a step: a new one, or the oldest of a redirect ring. -/
def Handles (W : World) (i : ℕ) (m : Mbuf) (ev : Event) : Prop :=
  (∃ view, ev = .receive i m view) ∨ m ∈ W.rings i

/-- **What a step posts** is what a worker has seen in its frame. -/
theorem posted_tells {ev : Event} (hs : W.step dp ev = .ok W') :
    ∀ e ∈ W.posted W' ev, ∃ i m, W.Handles i m ev ∧ e.Tells dp (W.snaps i) m := by
  have hdrop : ∀ {i m evs}, (W'.workers i).events = (W.workers i).events ++ evs →
      (∀ e ∈ evs, e.Tells dp (W.snaps i) m) →
      ∀ e ∈ (W'.workers i).events.drop (W.workers i).events.length, e.Tells dp (W.snaps i) m := by
    intro i m evs he hev e hmem
    rw [he, List.drop_left] at hmem
    exact hev e hmem
  cases ev with
  | receive i m view =>
    obtain ⟨evs, he, hev⟩ := handle_events hs
    have he : (W'.workers i).events = (W.workers i).events ++ evs := by
      rw [he]
      unfold WorkerCtx.received
      split <;> rfl
    exact fun e hmem => ⟨i, m, .inl ⟨view, rfl⟩, hdrop he hev e hmem⟩
  | takeRedirected i view =>
    simp only [step] at hs
    split at hs
    · rename_i hnil
      obtain rfl := Except.ok.inj hs
      intro e hmem
      simp [posted, Event.worker] at hmem
    · rename_i m rest hring
      obtain ⟨evs, he, hev⟩ := handle_events hs
      refine fun e hmem => ⟨i, m, .inr ?_, hdrop he hev e hmem⟩
      rw [hring]
      exact List.mem_cons_self
  | turn i => simp [posted, Event.worker]
  | readClock i tsc => simp [posted, Event.worker]
  | command c => simp [posted, Event.worker]

/-- A frame in a redirect ring was there, or was received just now. -/
theorem mem_rings_finish {o : Outcome} {k : ℕ} {m' : Mbuf} (hr : ∀ j, o.2.2 = .redirect j → o.2.1 = m)
    (hm : m' ∈ (W.finish dp i o).rings k) : m' = m ∨ m' ∈ W.rings k := by
  obtain ⟨w, m1, r⟩ := o
  unfold finish at hm
  cases r with
  | send => exact .inr hm
  | drop e => exact .inr hm
  | consumed => exact .inr hm
  | redirect j =>
    simp only at hm
    split at hm
    · by_cases hk : k = j
      · subst hk
        simp only [Function.update_self] at hm
        rcases List.mem_append.mp hm with hm | hm
        · exact .inr hm
        · exact .inl ((List.mem_singleton.mp hm).trans (hr k rfl))
      · simp only [Function.update_of_ne hk] at hm
        exact .inr hm
    · exact .inr hm

theorem mem_rings_handle {view : NeighView} {w : WorkerCtx} {redirected : Bool} {k : ℕ} {m' : Mbuf}
    (hb : (W.snaps i).Built dp.H dp.cfg) (hw : WorkerOk dp i w) (hs : W.handle dp view i w m redirected = .ok W')
    (hm : m' ∈ W'.rings k) : m' = m ∨ m' ∈ W.rings k := by
  unfold handle at hs
  obtain ⟨o, ho, hs⟩ := bind_eq_ok.mp hs
  obtain rfl := Except.ok.inj hs
  exact mem_rings_finish (fun j hj => ((processPacket_keeps hb hw ho).2 j hj).1) hm

theorem step_rings {ev : Event} (hinv : Inv dp W) (hv : ev.Valid dp.steering.n) (hs : W.step dp ev = .ok W')
    {k : ℕ} (hm : m ∈ W'.rings k) : (∃ i, W.Handles i m ev) ∨ m ∈ W.rings k := by
  cases ev with
  | receive i m' view =>
    have hw : WorkerOk dp i ((W.workers i).received dp m') :=
      (hinv.workers i hv).same (sameSessions_received dp _ m')
    rcases mem_rings_handle (hinv.snaps i) hw hs hm with rfl | hm
    · exact .inl ⟨i, .inl ⟨view, rfl⟩⟩
    · exact .inr hm
  | takeRedirected i view =>
    simp only [step] at hs
    split at hs
    · obtain rfl := Except.ok.inj hs
      exact .inr hm
    · rename_i m' rest hring
      have hw : WorkerOk dp i ((W.workers i).count .redirectIn) := (hinv.workers i hv).same (.count _ _)
      have hpop := hinv.popRing hring
      rcases mem_rings_handle (hpop.snaps i) hw hs hm with rfl | hm
      · refine .inl ⟨i, .inr ?_⟩
        rw [hring]
        exact List.mem_cons_self
      · by_cases hk : k = i
        · subst hk
          simp only [Function.update_self] at hm
          refine .inr ?_
          rw [hring]
          exact List.mem_cons_of_mem _ hm
        · simp only [Function.update_of_ne hk] at hm
          exact .inr hm
  | turn i =>
    simp only [step] at hs
    split at hs
    · cases hs
    split at hs
    · obtain rfl := Except.ok.inj hs
      exact .inr hm
    · obtain rfl := Except.ok.inj hs
      exact .inr hm
  | readClock i tsc =>
    obtain ⟨w, -, hs⟩ := bind_eq_ok.mp hs
    obtain rfl := Except.ok.inj hs
    exact .inr hm
  | command c =>
    obtain ⟨mgr, -, hs⟩ := bind_eq_ok.mp hs
    obtain rfl := Except.ok.inj hs
    exact .inr hm

end World

/-! ### The master -/

namespace System

open NeighTable (Thins)

variable {dp : Dataplane} {s s' s'' : System} {alloc : IPv4Addr → Bool} {room : IPv4Addr → Bool} {frames : List Mbuf}

/-- The master has asked for neighbours and aged the table. -/
structure Quiet (s s' : System) : Prop where
  world : s'.net.world = s.net.world
  ring : s'.ring = s.ring
  burst : s'.burst = s.burst
  hc : s'.hc = s.hc
  thins : Thins s.neigh s'.neigh

namespace Quiet

theorem refl (s : System) : Quiet s s := ⟨rfl, rfl, rfl, rfl, .refl _⟩

theorem trans (h : Quiet s s') (h' : Quiet s' s'') : Quiet s s'' :=
  ⟨h'.world.trans h.world, h'.ring.trans h.ring, h'.burst.trans h.burst, h'.hc.trans h.hc, h.thins.trans h'.thins⟩

theorem setNeigh {t : NeighTable} (h : Thins s.neigh t) : Quiet s (s.setNeigh t) := ⟨rfl, rfl, rfl, rfl, h⟩

theorem of_asks (h : Asks s s') : Quiet s s' := by
  induction h with
  | refl => exact .refl s
  | sent target _ ih => exact ih.trans ⟨rfl, rfl, rfl, rfl, .refl _⟩
  | wanted ip _ ih => exact ih.trans (.setNeigh (.wantRequest _ _ _))

theorem garp (alloc : IPv4Addr → Bool) (snap : Snapshot) (s : System) : Quiet s (s.garp alloc snap) := by
  refine iteInduction (motive := Quiet s) (fun _ => ?_) fun _ => .refl s
  have h := of_asks (.foldl (.sendArp alloc) snap.garpAddrs s)
  exact ⟨h.world, h.ring, h.burst, h.hc, h.thins⟩

theorem refresh (order : List IPv4Addr) (alloc : IPv4Addr → Bool) (snap : Snapshot) (s : System) :
    Quiet s (s.refresh dp order alloc snap) := by
  unfold System.refresh
  split
  · have h1 : Quiet s (s.setNeigh (s.neigh.age s.nowTick order).1) := .setNeigh (.age _ _ _)
    have hsent := Asks.foldl (.sendArp alloc) (s.neigh.age s.nowTick order).2
    have h := h1.trans (.of_asks ((hsent _).trans (.preresolve dp alloc snap _)))
    exact ⟨h.world, h.ring, h.burst, h.hc, h.thins⟩
  · exact .refl s

end Quiet

/-- The checker after an event. -/
def hcAfter (hc : HealthChecker) : MasterEvent → HealthChecker
  | .hcResp ip port aux tcpFlags seq ack => (hc.onResponse ⟨ip, port, aux, tcpFlags, seq, ack⟩).1
  | _ => hc

/-- What the master does with an event: the table gets what the event brings at
most, and the checker gets the answers. -/
structure Dispatched (s s' : System) (ev : MasterEvent) : Prop where
  world : s'.net.world = s.net.world
  ring : s'.ring = s.ring
  burst : s'.burst = s.burst
  hc : s'.hc = hcAfter s.hc ev
  lookup : NeighTable.Ok s.neigh → ∀ x v, s'.neigh.lookup x = some v → s.neigh.lookup x = some v ∨ ev.Brings x v

theorem dispatched (dp : Dataplane) (room : Bool) (alloc : IPv4Addr → Bool) (s : System) (ev : MasterEvent) :
    Dispatched s (s.dispatch dp room alloc ev) ev := by
  cases ev with
  | arpForUs ip mac =>
    refine ⟨rfl, rfl, rfl, rfl, fun hok x v hl => ?_⟩
    rcases NeighTable.lookup_of_learn hok hl with hl | ⟨rfl, rfl⟩
    · exact .inl hl
    · exact .inr (.inl rfl)
  | arpReply ip mac =>
    refine ⟨rfl, rfl, rfl, rfl, fun hok x v hl => ?_⟩
    rcases NeighTable.lookup_of_learn hok hl with hl | ⟨rfl, rfl⟩
    · exact .inl hl
    · exact .inr (.inr (.inl rfl))
  | neighHint ip mac =>
    refine ⟨rfl, rfl, rfl, rfl, fun hok x v hl => ?_⟩
    rcases NeighTable.lookup_of_hint hok hl with hl | ⟨rfl, rfl⟩
    · exact .inl hl
    · exact .inr (.inr (.inr rfl))
  | neighMiss ip =>
    have h := Quiet.of_asks (.requestNeigh alloc s ip)
    exact ⟨h.world, h.ring, h.burst, h.hc, fun hok x v hl => .inl ((h.thins hok).2 x v hl)⟩
  | hcResp ip port aux tcpFlags seq ack =>
    have h := Quiet.of_asks (.foldl (.transmit dp alloc) (s.hc.onResponse ⟨ip, port, aux, tcpFlags, seq, ack⟩).2
      { s with hc := (s.hc.onResponse ⟨ip, port, aux, tcpFlags, seq, ack⟩).1 })
    exact ⟨h.world, h.ring, h.burst, h.hc, fun hok x v hl => .inl ((h.thins hok).2 x v hl)⟩

/-- The checker ticks, or it is not yet time. -/
theorem check_quiet (probes : List ℕ) (taken : ℕ → Bool) (alloc : IPv4Addr → Bool) (snap : Snapshot) (s : System) :
    Quiet s (s.check dp probes taken alloc snap) ∨
      Quiet { s with hc := (s.hc.tick snap s.nowMs probes taken).1 } (s.check dp probes taken alloc snap) := by
  unfold check
  split
  · have h := Quiet.of_asks (.foldl (.transmit dp alloc) (s.hc.tick snap s.nowMs probes taken).2
      { s with hc := (s.hc.tick snap s.nowMs probes taken).1, timers := { s.timers with hcMs := s.nowMs } })
    exact .inr ⟨h.world, h.ring, h.burst, h.hc, h.thins⟩
  · exact .inl (.refl s)

/-! ### The frames of a run -/

end System

/-- The frames that come in from outside in a step. -/
def SystemEvent.frames : SystemEvent → List Mbuf
  | .work (.receive _ m _) => [m]
  | _ => []

namespace System

open NeighTable (Thins)

variable {dp : Dataplane} {s s' : System} {room : IPv4Addr → Bool} {frames : List Mbuf}

/-- The states of the system, with the frames received on the way. -/
inductive Heard (dp : Dataplane) (room : IPv4Addr → Bool) : List Mbuf → System → Prop
  | boot {s : System} (h : boot dp room = .ok s) : Heard dp room [] s
  | step {frames : List Mbuf} {s s' : System} (ev : SystemEvent) (h : Heard dp room frames s) (hv : s.Valid dp ev)
      (hs : s.step dp ev = .ok s') : Heard dp room (frames ++ ev.frames) s'

theorem Heard.reach (h : Heard dp room frames s) : Reach dp room s := by
  induction h with
  | boot hb => exact .boot hb
  | step ev _ hv hs ih => exact .step ev ih hv hs

/-- One of the frames says so. -/
def Told (dp : Dataplane) (frames : List Mbuf) (ev : MasterEvent) : Prop :=
  ∃ m ∈ frames, ∃ snap : Snapshot, snap.Built dp.H dp.cfg ∧ ev.Tells dp snap m

/-- Where a MAC of the table comes from. -/
def Known (dp : Dataplane) (room : IPv4Addr → Bool) (frames : List Mbuf) (ip : IPv4Addr) (mac : MacAddr) : Prop :=
  NeighTable.configured (staticsOf dp.cfg room) ip = some mac ∨ ∃ m ∈ frames, Introduces dp m ip mac

theorem Told.mono {ev : MasterEvent} (h : Told dp frames ev) (more : List Mbuf) : Told dp (frames ++ more) ev := by
  obtain ⟨m, hm, hsnap⟩ := h
  exact ⟨m, List.mem_append_left _ hm, hsnap⟩

theorem Known.mono {ip : IPv4Addr} {mac : MacAddr} (h : Known dp room frames ip mac) (more : List Mbuf) :
    Known dp room (frames ++ more) ip mac := by
  refine h.imp_right fun ⟨m, hm, hi⟩ => ⟨m, List.mem_append_left _ hm, hi⟩

/-- Whatever waits for the master, and whatever it has written to the table, is
from the frames. -/
structure Informed (dp : Dataplane) (room : IPv4Addr → Bool) (frames : List Mbuf) (s : System) : Prop where
  rings : ∀ i, ∀ m ∈ s.net.world.rings i, m ∈ frames
  ring : ∀ ev ∈ s.ring, Told dp frames ev
  burst : ∀ ev ∈ s.burst, Told dp frames ev
  neigh : ∀ ip mac, s.neigh.lookup ip = some mac → Known dp room frames ip mac

theorem Informed.boot (hb : boot dp room = .ok s) : Informed dp room [] s := by
  obtain ⟨W, hW, hb⟩ := bind_eq_ok.mp hb
  obtain rfl := Except.ok.inj hb
  have hrings : W.rings = fun _ => [] := by
    obtain ⟨mgr, -, hW⟩ := bind_eq_ok.mp hW
    cases hcur : mgr.cur with
    | none =>
      rw [hcur] at hW
      cases hW
    | some snap =>
      rw [hcur] at hW
      obtain rfl := Except.ok.inj hW
      rfl
  refine ⟨fun i m hm => ?_, by simp, by simp, fun ip mac hl => .inl ?_⟩
  · change m ∈ W.rings i at hm
    simp [hrings] at hm
  · have h0 := NeighTable.startUp_spec (staticsOf dp.cfg room)
    change (NeighTable.startUp (staticsOf dp.cfg room)).lookup ip = some mac at hl
    rw [← h0.lookup ip (by rw [hl]; exact Option.some_ne_none _), hl]

theorem Informed.quiet (h : Informed dp room frames s) (hok : NeighTable.Ok s.neigh) (hq : Quiet s s') :
    Informed dp room frames s' := by
  refine ⟨?_, ?_, ?_, fun ip mac hl => h.neigh ip mac ((hq.thins hok).2 ip mac hl)⟩
  · rw [hq.world]
    exact h.rings
  · rw [hq.ring]
    exact h.ring
  · rw [hq.burst]
    exact h.burst

/-- A worker's step: what it posts is from its frame, which was received. -/
theorem Informed.work (hinv : World.Inv dp s.net.world) (h : Informed dp room frames s) {ev : Event}
    (hv : ev.Valid dp.steering.n) (hs : s.step dp (.work ev) = .ok s') :
    Informed dp room (frames ++ (SystemEvent.work ev).frames) s' := by
  obtain ⟨W', hW, hs⟩ := bind_eq_ok.mp hs
  obtain rfl := Except.ok.inj hs
  have hframe : ∀ {i m}, s.net.world.Handles i m (ev.seeing s.neigh.view) →
      m ∈ frames ++ (SystemEvent.work ev).frames := by
    intro i m hm
    rcases hm with ⟨view, hev⟩ | hm
    · cases ev <;> simp only [Event.seeing, reduceCtorEq] at hev
      obtain ⟨rfl, rfl, -⟩ := Event.receive.inj hev
      exact List.mem_append_right _ List.mem_cons_self
    · exact List.mem_append_left _ (h.rings i m hm)
  have hposted : s.net.world.posted W' ev = s.net.world.posted W' (ev.seeing s.neigh.view) := by
    cases ev <;> rfl
  refine ⟨fun i m hm => ?_, fun e he => ?_, fun e he => (h.burst e he).mono _,
    fun ip mac hl => (h.neigh ip mac hl).mono _⟩
  · rcases World.step_rings hinv (Event.valid_seeing hv _) hW hm with ⟨j, hj⟩ | hm
    · exact hframe hj
    · exact List.mem_append_left _ (h.rings i m hm)
  · rcases List.mem_append.mp (List.mem_of_mem_take he) with he | he
    · exact (h.ring e he).mono _
    · rw [hposted] at he
      obtain ⟨i, m, hm, ht⟩ := World.posted_tells hW e he
      exact ⟨m, hframe hm, _, hinv.snaps i, ht⟩

theorem Informed.step {ev : SystemEvent} (hinv : World.Inv dp s.net.world) (hok : NeighTable.Ok s.neigh)
    (h : Informed dp room frames s) (hv : s.Valid dp ev) (hs : s.step dp ev = .ok s') :
    Informed dp room (frames ++ ev.frames) s' := by
  -- the master receives no frames
  have hmaster : Informed dp room frames s' → Informed dp room (frames ++ []) s' := by
    rw [List.append_nil]
    exact id
  cases ev with
  | work ev => exact h.work hinv hv hs
  | wake ms =>
    obtain rfl := Except.ok.inj hs
    apply hmaster
    exact ⟨h.rings, h.ring, h.burst, h.neigh⟩
  | fetch =>
    apply hmaster
    simp only [System.step] at hs
    split at hs
    · obtain rfl := Except.ok.inj hs
      exact ⟨h.rings, fun e he => h.ring e (List.mem_of_mem_drop he), fun e he => h.ring e (List.mem_of_mem_take he),
        h.neigh⟩
    · exact Except.ok.inj hs ▸ h
  | dispatch r alloc =>
    apply hmaster
    simp only [System.step] at hs
    cases hb : s.burst with
    | nil =>
      rw [hb] at hs
      exact Except.ok.inj hs ▸ h
    | cons e rest =>
      rw [hb] at hs
      obtain rfl := Except.ok.inj hs
      have hd := dispatched dp r alloc { s with burst := rest } e
      have htold : Told dp frames e := h.burst e (hb ▸ List.mem_cons_self)
      refine ⟨?_, ?_, ?_, fun ip mac hl => ?_⟩
      · rw [hd.world]
        exact h.rings
      · rw [hd.ring]
        exact h.ring
      · rw [hd.burst]
        exact fun e' he' => h.burst e' (hb ▸ List.mem_cons_of_mem _ he')
      · rcases hd.lookup hok ip mac hl with hl | hbrings
        · exact h.neigh ip mac hl
        · obtain ⟨m, hm, snap, hsnap, ht⟩ := htold
          exact .inr ⟨m, hm, ht.introduces hsnap hbrings⟩
  | garp alloc =>
    obtain ⟨snap, -, hs⟩ := bind_eq_ok.mp hs
    obtain rfl := Except.ok.inj hs
    apply hmaster
    exact h.quiet hok (.garp alloc snap s)
  | check probes taken alloc =>
    obtain ⟨snap, -, hs⟩ := bind_eq_ok.mp hs
    obtain rfl := Except.ok.inj hs
    apply hmaster
    rcases check_quiet probes taken alloc snap s with hq | hq
    · exact h.quiet hok hq
    · have h' : Informed dp room frames { s with hc := (s.hc.tick snap s.nowMs probes taken).1 } :=
        ⟨h.rings, h.ring, h.burst, h.neigh⟩
      exact h'.quiet hok hq
  | refresh order alloc =>
    obtain ⟨snap, -, hs⟩ := bind_eq_ok.mp hs
    obtain rfl := Except.ok.inj hs
    apply hmaster
    exact h.quiet hok (.refresh order alloc snap s)

theorem Reach.inv (hcfg : Config.Accepted dp.cfg) (h : Reach dp room s) : World.Inv dp s.net.world :=
  World.reach_inv hcfg h.net.world

theorem Reach.ok (h : Reach dp room s) : NeighTable.Ok s.neigh := by
  obtain ⟨now, -, hr⟩ := h.neigh
  exact hr.kept.ok

theorem Heard.informed (hcfg : Config.Accepted dp.cfg) (h : Heard dp room frames s) :
    Informed dp room frames s := by
  induction h with
  | boot hb => exact .boot hb
  | step ev h hv hs ih => exact ih.step (h.reach.inv hcfg) h.reach.ok hv hs

/-- **Where the neighbours come from.** Whatever the workers have received, in
whatever order they and the master have worked: a MAC that the table has for an
address stands in the configuration, or beside this address in a frame that was
received. -/
theorem neigh_from_frames (hcfg : Config.Accepted dp.cfg) (h : Heard dp room frames s) {ip : IPv4Addr} {mac : MacAddr}
    (hl : s.neigh.lookup ip = some mac) :
    NeighTable.configured (staticsOf dp.cfg room) ip = some mac ∨ ∃ m ∈ frames, Introduces dp m ip mac :=
  (h.informed hcfg).neigh ip mac hl

/-- The event is valid. The order of a refresh is not looked at: it fails. -/
def validEvent (dp : Dataplane) (s : System) : SystemEvent → Bool
  | .work ev => decide (ev.Valid dp.steering.n)
  | .wake ms => decide (s.nowMs ≤ ms)
  | .refresh _ _ => false
  | _ => true

theorem valid_of_validEvent {ev : SystemEvent} (h : s.validEvent dp ev = true) : s.Valid dp ev := by
  cases ev with
  | work ev => simpa [validEvent, Valid] using h
  | wake ms => simpa [validEvent, Valid] using h
  | refresh order alloc => cases h
  | fetch | dispatch | garp | check => trivial

/-- The run is one of valid events. -/
def validRun (dp : Dataplane) : System → List SystemEvent → Bool
  | _, [] => true
  | s, ev :: evs =>
    s.validEvent dp ev &&
      match s.step dp ev with
      | .ok s' => s'.validRun dp evs
      | .error _ => false

theorem validRun_cons {ev : SystemEvent} {evs : List SystemEvent} (h : s.validRun dp (ev :: evs) = true)
    (hs : s.step dp ev = .ok s') : s.Valid dp ev ∧ s'.validRun dp evs = true := by
  rw [validRun, hs, Bool.and_eq_true] at h
  exact ⟨valid_of_validEvent h.1, h.2⟩

theorem Heard.run {evs : List SystemEvent} (h : Heard dp room frames s) (hv : s.validRun dp evs = true)
    (hr : s.run dp evs = .ok s') : Heard dp room (frames ++ evs.flatMap (·.frames)) s' := by
  induction evs generalizing s frames with
  | nil =>
    rw [List.flatMap_nil, List.append_nil]
    exact Except.ok.inj hr ▸ h
  | cons ev evs ih =>
    unfold System.run at hr
    rw [List.foldlM_cons] at hr
    obtain ⟨s1, h1, hr⟩ := bind_eq_ok.mp hr
    obtain ⟨hvalid, hv⟩ := validRun_cons hv h1
    rw [List.flatMap_cons, ← List.append_assoc]
    exact ih (.step ev h hvalid h1) hv hr

/-- A state that a run from the start leads to, with its frames. -/
theorem exists_heard (dp : Dataplane) (room : IPv4Addr → Bool) (evs : List SystemEvent) {P : System → Prop}
    (hv : Returns (System.boot dp room) fun s => s.validRun dp evs = true)
    (h : Returns (System.boot dp room >>= fun s => s.run dp evs) P) :
    ∃ s, Heard dp room (evs.flatMap (·.frames)) s ∧ P s := by
  obtain ⟨s, hs, hP⟩ := h
  obtain ⟨s0, h0, hr⟩ := bind_eq_ok.mp hs
  obtain ⟨s1, h1, hv⟩ := hv
  obtain rfl := Except.ok.inj (h0.symm.trans h1)
  exact ⟨s, Heard.run (.boot h0) hv hr, hP⟩

/-- One ARP reply, and the MAC that it brings. -/
theorem neigh_from_frames_reply : ∃ s, Heard demo (fun _ => true) [replyFrame 77 strangeMac] s ∧
    s.neigh.lookup 0x4D01000A = some strangeMac ∧
    (NeighTable.configured (staticsOf demo.cfg fun _ => true) 0x4D01000A = some strangeMac ∨
      ∃ m ∈ [replyFrame 77 strangeMac], Introduces demo m 0x4D01000A strangeMac) := by
  obtain ⟨s, hs, hl⟩ := exists_heard demo (fun _ => true)
    [.work (.receive 0 (replyFrame 77 strangeMac) noNeigh), .fetch, handleNext]
    (P := fun s => s.neigh.lookup 0x4D01000A = some strangeMac)
    (by decide +kernel) (by decide +kernel)
  exact ⟨s, hs, hl, neigh_from_frames demo_accepted hs hl⟩

end System

end L4Lb
