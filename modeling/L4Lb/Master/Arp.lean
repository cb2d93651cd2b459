/-
# What the master learns from ARP replies

The master changes the neighbour table only by its calls, at the time of its
clock, so what holds after any calls (`NeighTable.Reach`, `Net.Reach`) holds in
every state of the system. `neigh.h` says that of the ARP replies only the
answers to requests of this host are learned. `drain_master_events` does not
keep to it: it passes every reply to `learn` as solicited, and neither it nor
`handle_arp` asks whether the address was requested.
-/
import L4Lb.Master
import L4Lb.Neigh.Consistent
import L4Lb.World.Owners

open Checked

namespace L4Lb

namespace NeighTable

variable {t t' : NeighTable} {now : ℕ}

/-- A call at `now`. -/
def Call (now : ℕ) (t t' : NeighTable) : Prop := ∃ op : NeighOp, op.now = now ∧ t.Valid now op ∧ t' = t.apply op

/-- Any calls at `now`. -/
def Calls (now : ℕ) : NeighTable → NeighTable → Prop := Relation.ReflTransGen (Call now)

theorem Calls.single (op : NeighOp) (hn : op.now = now) (hv : t.Valid now op) : Calls now t (t.apply op) :=
  Relation.ReflTransGen.single ⟨op, hn, hv, rfl⟩

theorem Reach.calls {statics : List StaticNeigh} {now0 : ℕ} (hr : Reach statics t now0) (hle : now0 ≤ now)
    (h : Calls now t t') : ∃ now1, now1 ≤ now ∧ Reach statics t' now1 := by
  induction h with
  | refl => exact ⟨now0, hle, hr⟩
  | @tail t1 t2 _ hc ih =>
    obtain ⟨now1, hle1, hr1⟩ := ih
    obtain ⟨op, hn, hv, rfl⟩ := hc
    exact ⟨op.now, hn.le, hr1.call op (hv.mono hle1)⟩

/-- A solicited reply writes the MAC, unless the address is static or the hash
does not take it. -/
theorem lookup_learn (h : Ok t) (ip : IPv4Addr) (mac : MacAddr) (now : ℕ) (room : Bool) (x : IPv4Addr) :
    (t.learn ip mac true now room).lookup x =
      if x = ip ∧ t.isStatic ip = false ∧ t.takes ip room = true then some mac else t.lookup x := by
  unfold learn
  cases hs : t.isStatic ip with
  | true => simp
  | false =>
    simp only [Bool.not_true, Bool.false_eq_true, false_and, if_false, true_and]
    show (if t.valid ip = true ∧ t.lookup ip = some mac then t else t.store ip mac room).lookup x = _
    split
    · rename_i hm
      split
      · rename_i hx
        rw [hx.1, hm.2]
      · rfl
    · cases ht : t.takes ip room with
      | false => simp [store_of_not_takes h ht]
      | true => simp [(stored_of_takes h ht mac).lookup]

/-- It changes the table unless the table has the MAC already. -/
theorem learn_changes_iff (h : Ok t) (ip : IPv4Addr) (mac : MacAddr) (now : ℕ) (room : Bool) :
    (∃ x, (t.learn ip mac true now room).lookup x ≠ t.lookup x) ↔
      t.isStatic ip = false ∧ t.lookup ip ≠ some mac ∧ t.takes ip room = true := by
  constructor
  · rintro ⟨x, hx⟩
    rw [lookup_learn h] at hx
    split at hx
    · rename_i hc
      obtain ⟨rfl, hs, ht⟩ := hc
      exact ⟨hs, Ne.symm hx, ht⟩
    · exact absurd rfl hx
  · rintro ⟨hs, hm, ht⟩
    refine ⟨ip, ?_⟩
    rw [lookup_learn h, if_pos ⟨rfl, hs, ht⟩]
    exact Ne.symm hm

end NeighTable

namespace System

open NeighTable (Calls)

variable {dp : Dataplane} {s s' s'' : System} {alloc : IPv4Addr → Bool} {room : IPv4Addr → Bool}

/-! ### Requests -/

/-- The master has asked for neighbours: it has sent requests and marked the time in
their entries, and nothing else has changed. -/
inductive Asks (s : System) : System → Prop where
  | refl : Asks s s
  | sent {s' : System} (target : IPv4Addr) : Asks s s' → Asks s { s' with requested := s'.requested ++ [target] }
  | wanted {s' : System} (ip : IPv4Addr) : Asks s s' → Asks s (s'.setNeigh (s'.neigh.wantRequest ip s'.nowTick).1)

namespace Asks

theorem trans (h : Asks s s') (h' : Asks s' s'') : Asks s s'' := by
  induction h' with
  | refl => exact h
  | sent target _ ih => exact .sent target ih
  | wanted ip _ ih => exact .wanted ip ih

theorem foldl {α : Type} {f : System → α → System} (hf : ∀ s a, Asks s (f s a)) :
    ∀ (l : List α) (s : System), Asks s (l.foldl f s)
  | [], _ => .refl
  | a :: l, s => (hf s a).trans (foldl hf l (f s a))

theorem ite {c : Prop} {_ : Decidable c} (h : Asks s s') (h' : Asks s s'') : Asks s (if c then s' else s'') := by
  split
  · exact h
  · exact h'

theorem sendArp (alloc : IPv4Addr → Bool) (s : System) (target : IPv4Addr) : Asks s (s.sendArp alloc target) :=
  .ite (.sent target .refl) .refl

theorem requestNeigh (alloc : IPv4Addr → Bool) (s : System) (ip : IPv4Addr) : Asks s (s.requestNeigh alloc ip) := by
  have h : Asks s (s.setNeigh (s.neigh.wantRequest ip s.nowTick).1) := .wanted ip .refl
  exact .ite .refl (.ite (h.trans (.sendArp alloc _ ip)) h)

theorem ensure (alloc : IPv4Addr → Bool) (s : System) (ip : IPv4Addr) : Asks s (s.ensure alloc ip) :=
  .ite (.requestNeigh alloc s ip) .refl

theorem transmit (dp : Dataplane) (alloc : IPv4Addr → Bool) (s : System) (act : HcAction) :
    Asks s (s.transmit dp alloc act) := by
  cases act with
  | probe id seg => exact .ite (.ensure alloc s _) .refl
  | reset id seg => exact .ite (.ensure alloc s _) .refl
  | result id ok => exact .refl
  | report ev => exact .refl

theorem preresolve (dp : Dataplane) (alloc : IPv4Addr → Bool) (snap : Snapshot) (s : System) :
    Asks s (s.preresolve dp alloc snap) := by
  refine .trans (.ite (.ensure alloc s _) .refl) (.foldl (fun s rs => ?_) _ _)
  exact .ite (.ensure alloc s _) .refl

end Asks

/-! ### The master's part -/

/-- The master has called the table and sent requests. -/
structure Serves (s s' : System) : Prop where
  world : s'.net.world = s.net.world
  nowMs : s'.nowMs = s.nowMs
  calls : Calls s.nowTick s.neigh s'.neigh
  requested : s.requested ⊆ s'.requested

namespace Serves

theorem refl (s : System) : Serves s s := ⟨rfl, rfl, .refl, List.Subset.refl _⟩

theorem trans (h : Serves s s') (h' : Serves s' s'') : Serves s s'' := by
  have ht : s'.nowTick = s.nowTick := by
    unfold nowTick
    rw [h.nowMs]
  exact ⟨h'.world.trans h.world, h'.nowMs.trans h.nowMs, h.calls.trans (ht ▸ h'.calls),
    List.Subset.trans h.requested h'.requested⟩

/-- A change of what only the master uses. -/
theorem of_same (h : Serves s s') (hnet : s''.net = s'.net) (hnow : s''.nowMs = s'.nowMs)
    (hreq : s''.requested = s'.requested) : Serves s s'' := by
  refine h.trans ⟨by rw [hnet], hnow, ?_, hreq ▸ List.Subset.refl _⟩
  unfold neigh
  rw [hnet]
  exact .refl

theorem after (h : Serves s' s'') (hnet : s'.net = s.net) (hnow : s'.nowMs = s.nowMs)
    (hreq : s'.requested = s.requested) : Serves s s'' :=
  ((refl s).of_same hnet hnow hreq).trans h

theorem setNeigh {t : NeighTable} (h : Calls s.nowTick s.neigh t) : Serves s (s.setNeigh t) :=
  ⟨rfl, rfl, h, List.Subset.refl _⟩

/-- Asking for a neighbour is a call of `want_request`. -/
theorem of_asks (h : Asks s s') : Serves s s' := by
  induction h with
  | refl => exact .refl s
  | sent target _ ih => exact ih.trans ⟨rfl, rfl, .refl, List.subset_append_left _ _⟩
  | wanted ip _ ih => exact ih.trans (.setNeigh (.single (.wantRequest ip _) rfl le_rfl))

theorem dispatch (room : Bool) (alloc : IPv4Addr → Bool) (s : System) (ev : MasterEvent) :
    Serves s (s.dispatch dp room alloc ev) := by
  cases ev with
  | arpForUs ip mac => exact .setNeigh (.single (.learn ip mac false s.nowTick room) rfl le_rfl)
  | arpReply ip mac => exact .setNeigh (.single (.learn ip mac true s.nowTick room) rfl le_rfl)
  | neighHint ip mac => exact .setNeigh (.single (.hint ip mac s.nowTick room) rfl le_rfl)
  | neighMiss ip => exact .of_asks (.requestNeigh alloc s ip)
  | hcResp ip port aux tcpFlags seq ack =>
    exact (of_asks (.foldl (.transmit dp alloc) _ _)).after rfl rfl rfl

theorem garp (alloc : IPv4Addr → Bool) (snap : Snapshot) (s : System) : Serves s (s.garp alloc snap) := by
  refine iteInduction (motive := Serves s) (fun _ => ?_) fun _ => .refl s
  exact (of_asks (.foldl (.sendArp alloc) snap.garpAddrs s)).of_same rfl rfl rfl

theorem check (probes : List ℕ) (taken : ℕ → Bool) (alloc : IPv4Addr → Bool) (snap : Snapshot) (s : System) :
    Serves s (s.check dp probes taken alloc snap) := by
  unfold System.check
  split
  · exact (of_asks (.foldl (.transmit dp alloc) _ _)).after rfl rfl rfl
  · exact .refl s

theorem refresh {order : List IPv4Addr} (ho : s.neigh.Orders order) (alloc : IPv4Addr → Bool) (snap : Snapshot) :
    Serves s (s.refresh dp order alloc snap) := by
  unfold System.refresh
  split
  · have h : Serves s (s.setNeigh (s.neigh.age s.nowTick order).1) :=
      .setNeigh (.single (.age s.nowTick order) rfl ⟨le_rfl, ho⟩)
    have hsent := Asks.foldl (.sendArp alloc) (s.neigh.age s.nowTick order).2
    exact (h.trans (.of_asks ((hsent _).trans (.preresolve dp alloc snap _)))).of_same rfl rfl rfl
  · exact .refl s

end Serves

/-- What a step does: a worker's step, the clock, or work of the master. -/
theorem step_serves {ev : SystemEvent} (hv : s.Valid dp ev) (hs : s.step dp ev = .ok s') :
    (∃ ev0 : Event, ev0.Valid dp.steering.n ∧ s.net.world.step dp (ev0.seeing s.neigh.view) = .ok s'.net.world ∧
      s'.neigh = s.neigh ∧ s'.nowMs = s.nowMs ∧ s'.requested = s.requested) ∨
    (s'.net = s.net ∧ s.nowMs ≤ s'.nowMs ∧ s'.requested = s.requested) ∨ Serves s s' := by
  cases ev with
  | work ev =>
    obtain ⟨W', hW, hs⟩ := bind_eq_ok.mp hs
    obtain rfl := Except.ok.inj hs
    exact .inl ⟨ev, hv, hW, rfl, rfl, rfl⟩
  | wake ms =>
    obtain rfl := Except.ok.inj hs
    exact .inr (.inl ⟨rfl, hv, rfl⟩)
  | fetch =>
    simp only [step] at hs
    split at hs
    · obtain rfl := Except.ok.inj hs
      exact .inr (.inl ⟨rfl, le_rfl, rfl⟩)
    · obtain rfl := Except.ok.inj hs
      exact .inr (.inl ⟨rfl, le_rfl, rfl⟩)
  | dispatch room alloc =>
    simp only [step] at hs
    cases hb : s.burst with
    | nil =>
      rw [hb] at hs
      obtain rfl := Except.ok.inj hs
      exact .inr (.inl ⟨rfl, le_rfl, rfl⟩)
    | cons ev rest =>
      rw [hb] at hs
      obtain rfl := Except.ok.inj hs
      exact .inr (.inr ((Serves.dispatch room alloc _ ev).after rfl rfl rfl))
  | garp alloc =>
    obtain ⟨snap, -, hs⟩ := bind_eq_ok.mp hs
    obtain rfl := Except.ok.inj hs
    exact .inr (.inr (.garp alloc snap s))
  | check probes taken alloc =>
    obtain ⟨snap, -, hs⟩ := bind_eq_ok.mp hs
    obtain rfl := Except.ok.inj hs
    exact .inr (.inr (.check probes taken alloc snap s))
  | refresh order alloc =>
    obtain ⟨snap, -, hs⟩ := bind_eq_ok.mp hs
    obtain rfl := Except.ok.inj hs
    exact .inr (.inr (.refresh hv alloc snap))

/-! ### Every run -/

/-- The table of the system comes from calls at times that do not go back. -/
theorem Reach.neigh (h : Reach dp room s) :
    ∃ now, now ≤ s.nowTick ∧ NeighTable.Reach (staticsOf dp.cfg room) s.neigh now := by
  induction h with
  | boot hb =>
    obtain ⟨W, -, hb⟩ := bind_eq_ok.mp hb
    obtain rfl := Except.ok.inj hb
    exact ⟨0, Nat.zero_le _, .start⟩
  | @step s s' ev _ hv hs ih =>
    obtain ⟨now, hle, hr⟩ := ih
    rcases step_serves hv hs with ⟨ev0, -, -, hn, hm, -⟩ | ⟨hnet, hm, -⟩ | hserves
    · refine ⟨now, hle.trans ?_, hn ▸ hr⟩
      unfold nowTick
      rw [hm]
    · refine ⟨now, hle.trans ?_, ?_⟩
      · unfold nowTick
        omega
      · unfold System.neigh
        rw [hnet]
        exact hr
    · obtain ⟨now1, hle1, hr1⟩ := hr.calls hle hserves.calls
      refine ⟨now1, hle1.trans ?_, hr1⟩
      unfold nowTick
      rw [hserves.nowMs]

/-- The workers and the table are in a state that packets and calls lead to. -/
theorem Reach.net (h : Reach dp room s) : Net.Reach dp (staticsOf dp.cfg room) s.net := by
  induction h with
  | boot hb =>
    obtain ⟨W, hW, hb⟩ := bind_eq_ok.mp hb
    obtain rfl := Except.ok.inj hb
    exact .boot hW
  | @step s s' ev _ hv hs ih =>
    rcases step_serves hv hs with ⟨ev0, hv0, hW, hn, -, -⟩ | ⟨hnet, -, -⟩ | hserves
    · have hnet : s'.net = ⟨s'.net.world, s.net.neigh⟩ := by
        rw [← show s'.net.neigh = s.net.neigh from hn]
      rw [hnet]
      exact .work ev0 ih hv0 hW
    · exact hnet ▸ ih
    · have hcalls : ∀ {t : NeighTable}, Calls s.nowTick s.neigh t →
          Net.Reach dp (staticsOf dp.cfg room) ⟨s.net.world, t⟩ := by
        intro t ht
        induction ht with
        | refl => exact ih
        | tail _ hc ih' =>
          obtain ⟨op, -, -, rfl⟩ := hc
          exact .call op ih'
      have hnet : s'.net = ⟨s.net.world, s'.neigh⟩ := by
        rw [← hserves.world]
        rfl
      rw [hnet]
      exact hcalls hserves.calls

/-- **When a reply is learned without a request.** In every state of the
system, an ARP reply that the master handles leaves the table alone or is for an
address that was requested, exactly if the address was requested or is static,
or the table has this MAC for it already, or the hash does not take it. -/
theorem reply_learned_iff (h : Reach dp room s) {ip : IPv4Addr} {mac : MacAddr} {rest : List MasterEvent}
    (hb : s.burst = .arpReply ip mac :: rest) {r : Bool} (hs : s.step dp (.dispatch r alloc) = .ok s') :
    ((∃ x, s'.neigh.lookup x ≠ s.neigh.lookup x) → ip ∈ s.requested) ↔
      ip ∈ s.requested ∨ s.neigh.isStatic ip = true ∨ s.neigh.lookup ip = some mac ∨
        s.neigh.lookup ip = none ∧ (r = false ∨ NeighTable.kCapacity ≤ s.neigh.count) := by
  obtain ⟨now, -, hr⟩ := h.neigh
  have hiff := NeighTable.learn_changes_iff hr.kept.ok ip mac s.nowTick r
  have hs' : s'.neigh = s.neigh.learn ip mac true s.nowTick r := by
    simp only [step, hb] at hs
    obtain rfl := Except.ok.inj hs
    rfl
  have htakes : s.neigh.takes ip r = false ↔
      s.neigh.lookup ip = none ∧ (r = false ∨ NeighTable.kCapacity ≤ s.neigh.count) := by
    cases r with
    | false => simp [NeighTable.takes]
    | true => simp [NeighTable.takes]
  rw [hs', hiff, ← htakes]
  by_cases hreq : ip ∈ s.requested
  · exact ⟨fun _ => .inl hreq, fun _ _ => hreq⟩
  · rw [or_iff_right hreq]
    constructor
    · intro hn
      by_contra hc
      rw [not_or, not_or, Bool.not_eq_true, Bool.not_eq_false] at hc
      exact hreq (hn hc)
    · rintro (hst | hl | ht) ⟨hst', hl', ht'⟩
      · cases hst.symm.trans hst'
      · exact absurd hl hl'
      · cases ht.symm.trans ht'

/-! ### Two runs -/

/-- The state after a run. -/
def run (dp : Dataplane) (s : System) (evs : List SystemEvent) : Except Fault System := evs.foldlM (step dp) s

theorem Reach.run {evs : List SystemEvent} (h : Reach dp room s) (hv : ∀ ev ∈ evs, ∀ s : System, s.Valid dp ev)
    (hr : s.run dp evs = .ok s') : Reach dp room s' := by
  induction evs generalizing s with
  | nil => exact Except.ok.inj hr ▸ h
  | cons ev evs ih =>
    unfold System.run at hr
    rw [List.foldlM_cons] at hr
    obtain ⟨s1, h1, hr⟩ := bind_eq_ok.mp hr
    exact ih (.step ev h (hv ev List.mem_cons_self s) h1) (fun e he => hv e (List.mem_cons_of_mem _ he)) hr

/-- A state that a run from the start leads to. -/
theorem exists_reach (dp : Dataplane) (room : IPv4Addr → Bool) (evs : List SystemEvent) {P : System → Prop}
    (hv : ∀ ev ∈ evs, ∀ s : System, s.Valid dp ev)
    (h : Returns (System.boot dp room >>= fun s => s.run dp evs) P) : ∃ s, Reach dp room s ∧ P s := by
  obtain ⟨s, hs, hP⟩ := h
  obtain ⟨s0, h0, hr⟩ := bind_eq_ok.mp hs
  exact ⟨s, Reach.run (.boot h0) hv hr, hP⟩

/-- An ARP reply to 10.0.1.10 that says that 10.0.1.`host` has the MAC. -/
def replyFrame (host : UInt8) (mac : MacAddr) : Mbuf :=
  Mbuf.ofBytes
    ([2, 0, 0, 0, 0, 1] ++ mac.toList ++ [8, 6, 0, 1, 8, 0, 6, 4, 0, 2] ++ mac.toList ++ [10, 0, 1, host] ++
      [2, 0, 0, 0, 0, 1, 10, 0, 1, 10])
    8 (by simp)

/-- The MAC of a host that nobody has asked for. -/
def strangeMac : MacAddr := #v[2, 0, 0, 0, 0, 0x66]

/-- The master handles the next event; the hash and the pool have room. -/
def handleNext : SystemEvent := .dispatch true fun _ => true

/-- Two replies for 10.0.1.77, and no request sent at all: the first makes an
entry, the second rewrites it. -/
theorem unsolicited_learned : ∃ s0 s1 s2 : System, Reach demo (fun _ => true) s0 ∧
    s0.step demo handleNext = .ok s1 ∧ s1.step demo handleNext = .ok s2 ∧
    s0.burst = [.arpReply 0x4D01000A strangeMac, .arpReply 0x4D01000A plainMac] ∧ s2.requested = [] ∧
    s0.neigh.lookup 0x4D01000A = none ∧ s1.neigh.lookup 0x4D01000A = some strangeMac ∧
    s2.neigh.lookup 0x4D01000A = some plainMac := by
  obtain ⟨s0, h0, hb, hreq, hl, hs, ht⟩ := exists_reach demo (fun _ => true)
    [.work (.receive 0 (replyFrame 77 strangeMac) noNeigh), .work (.receive 1 (replyFrame 77 plainMac) noNeigh), .fetch]
    (P := fun s => s.burst = [.arpReply 0x4D01000A strangeMac, .arpReply 0x4D01000A plainMac] ∧ s.requested = [] ∧
      s.neigh.lookup 0x4D01000A = none ∧ s.neigh.isStatic 0x4D01000A = false ∧ s.neigh.takes 0x4D01000A true = true)
    (by simp [Valid, Event.Valid, demo, Steering.initSw]) (by decide +kernel)
  obtain ⟨now, -, hr⟩ := h0.neigh
  let s1 := { s0 with burst := [.arpReply 0x4D01000A plainMac] }.dispatch demo true (fun _ => true)
    (.arpReply 0x4D01000A strangeMac)
  let s2 := { s1 with burst := [] }.dispatch demo true (fun _ => true) (.arpReply 0x4D01000A plainMac)
  have h1 : s0.step demo handleNext = .ok s1 := by simp only [step, handleNext, hb, s1]
  have ha : NeighTable.Acts s0.neigh s1.neigh := .learn hr.kept.ok _ _ _ _ _
  have hl1 : s1.neigh.lookup 0x4D01000A = some strangeMac :=
    (NeighTable.lookup_learn hr.kept.ok _ _ _ _ _).trans (if_pos ⟨rfl, hs, ht⟩)
  have ht1 : s1.neigh.takes 0x4D01000A true = true := by
    rw [NeighTable.takes, hl1, Option.isSome_some, Bool.true_or]
  have hl2 : s2.neigh.lookup 0x4D01000A = some plainMac :=
    (NeighTable.lookup_learn ha.ok _ _ _ _ _).trans (if_pos ⟨rfl, (ha.isStatic _).trans hs, ht1⟩)
  exact ⟨s0, s1, s2, h0, h1, rfl, hb, hreq, hl, hl1, hl2⟩

/-- A query makes the master ask for the real server, and its reply is
learned. -/
theorem reply_learned_asked : ∃ s s' : System, Reach plainDemo (fun _ => true) s ∧
    s.step plainDemo handleNext = .ok s' ∧ s.requested = [0x0101000A] ∧
    s'.neigh.lookup 0x0101000A = some plainMac ∧
    ((∃ x, s'.neigh.lookup x ≠ s.neigh.lookup x) → (0x0101000A : IPv4Addr) ∈ s.requested) := by
  obtain ⟨s, h, s', h', hb, hreq, hl⟩ := exists_reach plainDemo (fun _ => true)
    [.work (.receive 0 queryFrame noNeigh), .fetch, handleNext, handleNext,
      .work (.receive 1 (replyFrame 1 plainMac) noNeigh), .fetch]
    (P := fun s => Returns (s.step plainDemo handleNext) fun s' =>
      s.burst = [.arpReply 0x0101000A plainMac] ∧ s.requested = [0x0101000A] ∧
      s'.neigh.lookup 0x0101000A = some plainMac)
    (by simp [Valid, Event.Valid, handleNext, plainDemo, demo, Steering.initSw]) (by decide +kernel)
  refine ⟨s, s', h, h', hreq, hl, (reply_learned_iff h hb h').mpr (.inl ?_)⟩
  rw [hreq]
  exact List.mem_singleton_self _

end System

end L4Lb
