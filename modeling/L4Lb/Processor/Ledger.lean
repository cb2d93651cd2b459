/-
# The counters of sessions and of forwarding

A worker counts a packet that it forwards twice: in its own counters, and in
those of the real server of the session. It counts sessions three times: as
they are made, for the worker and for the real server, and as slots taken off
the free stack. Here these accounts are compared as in double-entry bookkeeping:
the `drift` of a worker is by how much each pair of them is apart, and nothing
that `process_packet` does changes it, whatever the packet, the snapshot and the
state of the worker (`processPacket_booked`). A forwarded packet is counted with
the length it has when it is sent.
-/
import L4Lb.Processor.Icmp
import L4Lb.Processor.Paths
import L4Lb.Session.Expire

open Checked

namespace L4Lb

/-! ### Slots in use -/

namespace SessionTable

/-- `active`, without the bound at 0. -/
def inUse (t : SessionTable) : ℤ := (t.capacity : ℤ) - t.freeStack.length

variable {t t' : SessionTable}

theorem SameBut.inUse (h : SameBut t t') : t'.inUse = t.inUse := by
  rw [SessionTable.inUse, h.capacity, h.freeStack]
  rfl

theorem remove_inUse (t : SessionTable) (i : ℕ) : (t.remove i).inUse = t.inUse - 1 := by
  have hcap : (t.remove i).capacity = t.capacity := by
    rw [remove_eq]
    exact (sameBut_wheelUnlink t i).capacity
  have hfree : (t.remove i).freeStack = i :: t.freeStack := by rw [remove_eq]
  rw [inUse, inUse, hcap, hfree, List.length_cons]
  push_cast
  ring

theorem touch_inUse (t : SessionTable) (i now timeout : ℕ) : (t.touch i now timeout).inUse = t.inUse := by
  unfold touch
  simp only
  split
  · exact ((sameBut_wheelUnlink t i).trans (sameBut_wheelLink _ i _)).inUse
  · rfl

theorem create_inUse (t : SessionTable) (client : FiveTuple) (server : Option FiveTuple) (now timeout : ℕ) :
    (t.create client server now timeout).1.inUse =
      t.inUse + if (t.create client server now timeout).2.isSome then 1 else 0 := by
  cases hf : t.freeStack with
  | nil => simp [create, hf]
  | cons i rest =>
    cases hh : addKeys t.hash client server i with
    | none =>
      -- one of the keys does not fit in the hash
      have hc : (t.create client server now timeout).2 = none ∧
          (t.create client server now timeout).1.inUse = t.inUse := by
        unfold addKeys at hh
        unfold create
        cases h1 : t.hash.addKeyData client i with
        | none => simp [hf, h1]
        | some hash =>
          rw [h1] at hh
          cases server with
          | none => cases hh
          | some key =>
            simp only [Option.bind_some] at hh
            simp only [hf, h1, hh]
            exact ⟨trivial, by rw [inUse, inUse, hf]⟩
      rw [hc.1, hc.2]
      simp
    | some hash =>
      rw [create_eq hf hh, (sameBut_wheelLink _ _ _).inUse]
      show (t.capacity : ℤ) - rest.length = t.capacity - t.freeStack.length + 1
      rw [hf, List.length_cons]
      push_cast
      ring

theorem drainSlot_sameBut {fuel head : ℕ} (h : drainSlot fuel t head = some t') : SameBut t t' := by
  induction fuel generalizing t head with
  | zero => cases h
  | succ fuel ih =>
    unfold drainSlot at h
    split at h
    · exact Option.some.inj h ▸ .refl t
    · exact (sameBut_pendingPush t head).trans (ih h)

theorem takeSlot_inUse (h : t.takeSlot = some t') : t'.inUse = t.inUse := by
  obtain ⟨t1, h1, rfl⟩ := Option.map_eq_some_iff.mp h
  exact (((SameBut.refl t).setHead _ _).trans (drainSlot_sameBut h1)).inUse

/-- What `expire` removes leaves its slot. -/
theorem expireLoop_inUse {now fuel : ℕ} {r r' : ExpireResult} (h : expireLoop now fuel r = some r') :
    r'.table.inUse + r'.removed = r.table.inUse + r.removed := by
  induction fuel generalizing r with
  | zero => cases h
  | succ fuel ih =>
    by_cases hb : r.budget = 0
    · rw [expireLoop, if_pos hb] at h
      rw [Option.some.inj h]
    by_cases hp : r.table.pending = kNil
    · rw [expireLoop, if_neg hb, if_pos hp] at h
      split at h
      · rw [Option.some.inj h]
      · obtain ⟨t1, h1, h⟩ := Option.bind_eq_some_iff.mp h
        rw [ih h, takeSlot_inUse h1]
    · rw [expireLoop_pop hb hp] at h
      split at h
      · rw [ih h, remove_inUse, (sameBut_pendingPop r.table).inUse]
        push_cast
        ring
      · rw [ih h, (sameBut_wheelLink _ _ _).inUse, (sameBut_pendingPop r.table).inUse]

end SessionTable

/-! ### The accounts of a worker -/

/-- What a worker counts for itself and for the real servers. -/
inductive Account
  | conns
  | pktsIn
  | bytesIn
  | pktsOut
  | bytesOut
  deriving DecidableEq

/-- The account of one real server. -/
def Account.ofRs : Account → RsCounters → ℕ
  | conns => (·.conns)
  | pktsIn => (·.pktsIn)
  | bytesIn => (·.bytesIn)
  | pktsOut => (·.pktsOut)
  | bytesOut => (·.bytesOut)

/-- The counters behind the accounts. -/
def Stat.booked : List Stat := [.sessNew, .sessExpired, .sessClosed, .fwdIn, .fwdOut]

namespace WorkerCtx

/-- The account of the worker itself. -/
def own (w : WorkerCtx) : Account → ℕ
  | .conns => w.stats .sessNew
  | .pktsIn => w.stats .fwdIn
  | .bytesIn => w.bytes .fwdIn
  | .pktsOut => w.stats .fwdOut
  | .bytesOut => w.bytes .fwdOut

/-- A counter of the real servers, summed over them. -/
def rsSum (w : WorkerCtx) (f : RsCounters → ℕ) : ℕ := ∑ id ∈ Finset.range kMaxRsCounters, f (w.rsStats id)

/-- By how much the real servers are ahead of the worker. -/
def drift (w : WorkerCtx) (a : Account) : ℤ := (w.rsSum a.ofRs : ℤ) - w.own a

/-- By how much the slots in use are ahead of the counters of sessions. -/
def slotDrift (w : WorkerCtx) : ℤ :=
  w.sessions.inUse - ((w.stats .sessNew : ℤ) - w.stats .sessExpired - w.stats .sessClosed)

/-- The packets and bytes that were forwarded in a direction. -/
def forwarded (w : WorkerCtx) : Dir → ℕ × ℕ
  | .clientToRs => (w.own .pktsIn, w.own .bytesIn)
  | .rsToClient => (w.own .pktsOut, w.own .bytesOut)

end WorkerCtx

/-- No packet is forwarded, and no account gets out of balance. -/
structure Kept (w w' : WorkerCtx) : Prop where
  slots : w'.slotDrift = w.slotDrift
  drift : w'.drift = w.drift
  forwarded : w'.forwarded = w.forwarded

namespace Kept

variable {w w' w'' : WorkerCtx}

theorem refl (w : WorkerCtx) : Kept w w := ⟨rfl, rfl, rfl⟩

theorem trans (h : Kept w w') (h' : Kept w' w'') : Kept w w'' :=
  ⟨h'.slots.trans h.slots, h'.drift.trans h.drift, h'.forwarded.trans h.forwarded⟩

theorem ite {c : Prop} {_ : Decidable c} {a b : WorkerCtx} (ha : Kept w a) (hb : Kept w b) :
    Kept w (if c then a else b) := by
  split
  · exact ha
  · exact hb

theorem count (w : WorkerCtx) {s : Stat} (hs : s ∉ Stat.booked) : Kept w (w.count s) := by
  have hst : ∀ s' ∈ Stat.booked, (w.count s).stats s' = w.stats s' := by
    intro s' hs'
    refine Function.update_of_ne ?_ _ _
    rintro rfl
    exact hs hs'
  simp only [Stat.booked, List.forall_mem_cons] at hst
  obtain ⟨hnew, hexp, hclosed, hin, hout, -⟩ := hst
  have hown : (w.count s).own = w.own := funext fun a => by
    cases a
    · exact hnew
    · exact hin
    · rfl
    · exact hout
    · rfl
  refine ⟨?_, ?_, ?_⟩
  · rw [WorkerCtx.slotDrift, hnew, hexp, hclosed]
    rfl
  · funext a
    rw [WorkerCtx.drift, hown]
    rfl
  · funext d
    cases d <;> simp only [WorkerCtx.forwarded, hown]

theorem of_eq (hs : w'.sessions.inUse = w.sessions.inUse) (hst : w'.stats = w.stats) (hb : w'.bytes = w.bytes)
    (hr : w'.rsStats = w.rsStats) : Kept w w' := by
  have hown : w'.own = w.own := funext fun a => by cases a <;> simp only [WorkerCtx.own, hst, hb]
  refine ⟨?_, ?_, ?_⟩
  · rw [WorkerCtx.slotDrift, WorkerCtx.slotDrift, hs, hst]
  · funext a
    rw [WorkerCtx.drift, WorkerCtx.drift, WorkerCtx.rsSum, WorkerCtx.rsSum, hr, hown]
  · funext d
    cases d <;> simp only [WorkerCtx.forwarded, hown]

theorem setSession (w : WorkerCtx) (i : ℕ) (f : Session → Session) : Kept w (w.setSession i f) := ⟨rfl, rfl, rfl⟩

theorem post (w : WorkerCtx) (evs : List MasterEvent) : Kept w (w.post evs) := ⟨rfl, rfl, rfl⟩

theorem updateState (dp : Dataplane) (w : WorkerCtx) (i : ℕ) (flags : UInt8) (dir : Dir) :
    Kept w (updateState dp w i flags dir) :=
  of_eq (SessionTable.touch_inUse _ _ _ _) rfl rfl rfl

/-- A slot is given back, and a session counted as closed. -/
theorem closeSession (w : WorkerCtx) (i : ℕ) : Kept w (closeSession w i) := by
  refine ⟨?_, rfl, rfl⟩
  show (w.sessions.remove i).inUse - ((w.stats .sessNew : ℤ) - w.stats .sessExpired - (w.stats .sessClosed + 1 : ℕ)) =
    w.slotDrift
  rw [SessionTable.remove_inUse, WorkerCtx.slotDrift]
  push_cast
  ring

theorem rssCheck (dp : Dataplane) (w : WorkerCtx) (m : Mbuf) (t : FiveTuple) : Kept w (rssCheck dp w m t) := by
  unfold L4Lb.rssCheck
  exact .ite (.count w (by decide)) (.ite (.count w (by decide)) (.refl w))

theorem countOutcome (w : WorkerCtx) (out : RewriteOutcome) : Kept w (countOutcome w out) := by
  have step : ∀ (b : Bool) (w : WorkerCtx) {s : Stat}, s ∉ Stat.booked → Kept w (if b then w.count s else w) :=
    fun b w s hs => .ite (.count w hs) (.refl w)
  exact ((step _ w (by decide)).trans (step _ _ (by decide))).trans (step _ _ (by decide))

theorem resolveRsMac (dp : Dataplane) (view : NeighView) (w : WorkerCtx) (i : ℕ) (rs : RsState) :
    Kept w (resolveRsMac dp view w i rs).1 := by
  unfold L4Lb.resolveRsMac
  split
  · exact .refl w
  · exact ⟨rfl, rfl, rfl⟩

theorem resolveClientMac (dp : Dataplane) (view : NeighView) (w : WorkerCtx) (i : ℕ) :
    Kept w (resolveClientMac dp view w i).1 := ⟨rfl, rfl, rfl⟩

end Kept

/-! ### Double entry -/

/-- A worker that counts `δ` in its own accounts, and then the same for the
real server `id`, stays in balance. -/
theorem addRs_drift (w w1 : WorkerCtx) (δ : Account → ℕ) (hr : w1.rsStats = w.rsStats)
    (hown : ∀ a, w1.own a = w.own a + δ a) (id : ℕ) {g : RsCounters → RsCounters}
    (hg : ∀ a c, Account.ofRs a (g c) = a.ofRs c + δ a) :
    Ensures (w1.addRs id g) fun w' => w'.drift = w.drift ∧ w'.own = w1.own ∧ w'.slotDrift = w1.slotDrift := by
  unfold WorkerCtx.addRs
  split
  · rename_i hid
    refine .ok ⟨funext fun a => ?_, rfl, rfl⟩
    have hmem : id ∈ Finset.range kMaxRsCounters := Finset.mem_range.mpr hid
    have hsum : ∑ k ∈ Finset.range kMaxRsCounters, a.ofRs (Function.update w1.rsStats id (g (w1.rsStats id)) k) =
        w.rsSum a.ofRs + δ a := by
      have hcomp : (fun k => a.ofRs (Function.update w1.rsStats id (g (w1.rsStats id)) k)) =
          Function.update (fun k => a.ofRs (w1.rsStats k)) id (a.ofRs (g (w1.rsStats id))) :=
        Function.comp_update a.ofRs w1.rsStats id _
      rw [hcomp, Finset.sum_update_of_mem hmem, hg, hr, WorkerCtx.rsSum,
        ← Finset.sum_sdiff (Finset.singleton_subset_iff.mpr hmem), Finset.sum_singleton]
      ring
    show ((∑ k ∈ Finset.range kMaxRsCounters, a.ofRs (Function.update w1.rsStats id (g (w1.rsStats id)) k) : ℕ) : ℤ) -
      w1.own a = w.rsSum a.ofRs - w.own a
    rw [hsum, hown]
    push_cast
    ring
  · exact .error

/-- `x` is forwarded, and no account gets out of balance. -/
structure Entered (x : Dir → ℕ × ℕ) (w w' : WorkerCtx) : Prop where
  slots : w'.slotDrift = w.slotDrift
  drift : w'.drift = w.drift
  forwarded : w'.forwarded = w.forwarded + x

theorem Kept.entered {w w' : WorkerCtx} (h : Kept w w') : Entered 0 w w' :=
  ⟨h.slots, h.drift, by rw [h.forwarded, add_zero]⟩

theorem Entered.after {x : Dir → ℕ × ℕ} {w w' w'' : WorkerCtx} (h' : Entered x w' w'') (h : Kept w w') :
    Entered x w w'' :=
  ⟨h'.slots.trans h.slots, h'.drift.trans h.drift, by rw [h'.forwarded, h.forwarded]⟩

/-- What a packet adds to the accounts. -/
def Dir.entry : Dir → ℕ → Account → ℕ
  | .clientToRs, _, .pktsIn => 1
  | .clientToRs, len, .bytesIn => len
  | .rsToClient, _, .pktsOut => 1
  | .rsToClient, len, .bytesOut => len
  | _, _, _ => 0

theorem forwarded_entry {w w' : WorkerCtx} {d : Dir} {len : ℕ} (h : ∀ a, w'.own a = w.own a + d.entry len a) :
    w'.forwarded = w.forwarded + Pi.single d (1, len) := by
  funext d'
  cases d <;> cases d' <;> simp [WorkerCtx.forwarded, h, Dir.entry]

/-- The packet is counted in the worker's own accounts, and then for the real
server. -/
theorem addRs_entered {w w1 : WorkerCtx} {d : Dir} {len : ℕ} (hr : w1.rsStats = w.rsStats)
    (hs : w1.slotDrift = w.slotDrift) (hown : ∀ a, w1.own a = w.own a + d.entry len a) (id : ℕ)
    {g : RsCounters → RsCounters} (hg : ∀ a c, Account.ofRs a (g c) = a.ofRs c + d.entry len a) :
    Ensures (w1.addRs id g) (Entered (Pi.single d (1, len)) w) := by
  refine (addRs_drift w w1 (d.entry len) hr hown id hg).mono fun w' h => ?_
  obtain ⟨hdrift, hown', hslots⟩ := h
  exact ⟨hslots.trans hs, hdrift, forwarded_entry fun a => hown' ▸ hown a⟩

theorem countFwdIn_entered (w : WorkerCtx) (i : ℕ) (m : Mbuf) :
    Ensures (countFwdIn w i m) (Entered (Pi.single .clientToRs (1, m.pktLen)) w) := by
  unfold countFwdIn
  simp only
  refine addRs_entered ?_ ?_ (fun a => ?_) _ fun a c => ?_
  · rfl
  · rfl
  · cases a <;> rfl
  · cases a <;> rfl

theorem countFwdOut_entered (w : WorkerCtx) (i : ℕ) (m : Mbuf) :
    Ensures (countFwdOut w i m) (Entered (Pi.single .rsToClient (1, m.pktLen)) w) := by
  unfold countFwdOut
  simp only
  refine addRs_entered ?_ ?_ (fun a => ?_) _ fun a c => ?_
  · rfl
  · rfl
  · cases a <;> rfl
  · cases a <;> rfl

/-! ### The handlers -/

/-- What a verdict forwards, if the handler forwards in direction `d`. -/
def sentBy (d : Option Dir) (o : Outcome) : Dir → ℕ × ℕ :=
  if o.2.2 = .send then d.elim 0 fun d => Pi.single d (1, o.2.1.pktLen) else 0

/-- The accounts stay in balance, and a packet that is sent in direction `d` is
counted with the length it is sent with. -/
def Booked (d : Option Dir) (w : WorkerCtx) (o : Outcome) : Prop := Entered (sentBy d o) w o.1

namespace Booked

variable {d : Option Dir} {w w' : WorkerCtx} {m : Mbuf} {o : Outcome}

theorem kept (h : Kept w w') {r : Result} (hr : r ≠ .send) : Booked d w (w', m, r) := by
  unfold Booked sentBy
  rw [if_neg hr]
  exact h.entered

theorem dropped (h : Kept w w') (e : Stat) : Booked d w (w', m, .drop e) := kept h (by simp)

theorem sent {d : Dir} (h : Entered (Pi.single d (1, m.pktLen)) w w') : Booked (some d) w (w', m, .send) := h

theorem none (h : Kept w o.1) : Booked none w o := by
  unfold Booked sentBy
  rw [Option.elim_none, ite_self]
  exact h.entered

theorem notOwner (w : WorkerCtx) (redirected : Bool) (k : ℕ) : Booked d w (w, m, notOwner redirected k) := by
  refine kept (.refl w) ?_
  cases redirected <;> simp [L4Lb.notOwner]

theorem after (h' : Booked d w' o) (h : Kept w w') : Booked d w o := Entered.after h' h

end Booked

section Handlers

variable {dp : Dataplane} {view : NeighView} {snap : Snapshot} {w : WorkerCtx} {m : Mbuf} {p : PacketMeta}

/-- A slot is taken that is not yet counted. -/
structure Took (w w' : WorkerCtx) : Prop where
  slots : w'.slotDrift = w.slotDrift + 1
  rsStats : w'.rsStats = w.rsStats
  own : w'.own = w.own

/-- A function that makes a session takes a slot for it. -/
structure MadeBooked (w : WorkerCtx) (x : WorkerCtx × Except Stat ℕ) : Prop where
  refused : ∀ e, x.2 = .error e → Kept w x.1
  made : ∀ i, x.2 = .ok i → Took w x.1

theorem MadeBooked.error {w' : WorkerCtx} (h : Kept w w') (e : Stat) : MadeBooked w (w', .error e) :=
  ⟨fun _ _ => h, fun _ h' => by simp at h'⟩

theorem MadeBooked.ok {w' : WorkerCtx} (h : Took w w') (i : ℕ) : MadeBooked w (w', .ok i) :=
  ⟨fun _ h' => (by simp at h'), fun _ _ => h⟩

theorem Took.of_eq {w' : WorkerCtx} (hs : w'.sessions.inUse = w.sessions.inUse + 1) (hst : w'.stats = w.stats)
    (hb : w'.bytes = w.bytes) (hr : w'.rsStats = w.rsStats) : Took w w' := by
  refine ⟨?_, hr, funext fun a => by cases a <;> simp only [WorkerCtx.own, hst, hb]⟩
  rw [WorkerCtx.slotDrift, WorkerCtx.slotDrift, hs, hst]
  ring

theorem createSession_booked (client : FiveTuple) (rs : RsState) (timeout : ℕ) :
    Ensures (createSession dp w snap client rs timeout) (MadeBooked w) := by
  refine (createSession_call client rs timeout).mono fun x hx => ?_
  cases hx with
  | refused cursors =>
    refine .error ?_ _
    exact .of_eq rfl rfl rfl rfl
  | @full server t cursors hfree hcall =>
    have hi := SessionTable.create_inUse w.sessions client server w.nowTick timeout
    rw [hcall] at hi
    refine .error ?_ _
    exact .of_eq (hi.trans (add_zero _)) rfl rfl rfl
  | @made server t i cursors rr hfree hcall =>
    have hi := SessionTable.create_inUse w.sessions client server w.nowTick timeout
    rw [hcall] at hi
    refine .ok ?_ i
    exact .of_eq hi rfl rfl rfl

/-- The slot of a new session is counted, for the worker and for the real
server. -/
theorem newSession_booked (svc : Service) (tuple : FiveTuple) (m : Mbuf) :
    Ensures (newSession dp w snap svc tuple m) fun x => Kept w x.1 := by
  unfold newSession
  simp only [pure_eq_ok, throw_eq_error]
  split
  · exact .ok ⟨rfl, rfl, rfl⟩
  split
  · exact .error
  refine .bind (createSession_booked tuple _ _) ?_
  rintro ⟨w1, made⟩ h1
  cases made with
  | error e =>
    have h := h1.refused e rfl
    exact .ok ⟨h.slots, h.drift, h.forwarded⟩
  | ok i =>
    obtain ⟨hslots, hrs, hown⟩ := h1.made i rfl
    refine .after fun srcMac => ?_
    generalize hw2 : (WorkerCtx.setSession w1 i _).count .sessNew = w2
    have hown2 : ∀ a, w2.own a = w.own a + Pi.single (M := fun _ => ℕ) Account.conns 1 a := by
      intro a
      rw [← hw2, ← show w1.own a = w.own a from congrFun hown a]
      cases a <;> rfl
    have hslots2 : w2.slotDrift = w.slotDrift := by
      have h : w1.slotDrift = w.slotDrift + 1 := hslots
      rw [← hw2, eq_sub_of_add_eq h.symm]
      show w1.sessions.inUse - (((w1.stats .sessNew + 1 : ℕ) : ℤ) - w1.stats .sessExpired - w1.stats .sessClosed) = _
      rw [WorkerCtx.slotDrift]
      push_cast
      ring
    refine .bind (addRs_drift w w2 _ ?_ hown2 _ ?_) ?_
    · rw [← hw2]
      exact hrs
    · intro a c
      cases a <;> rfl
    · intro w3 h3
      obtain ⟨hdrift, hown3, hslots3⟩ := h3
      have hk : Kept w w3 := by
        refine ⟨hslots3.trans hslots2, hdrift, funext fun d => ?_⟩
        cases d <;> simp [WorkerCtx.forwarded, hown3, hown2]
      exact .ite (.ok (hk.trans (.post w3 _))) (.ok hk)

theorem Kept.advanced (dp : Dataplane) (view : NeighView) (w : WorkerCtx) (m : Mbuf) (p : PacketMeta) (i : ℕ)
    (rs : RsState) : Kept w (advanced dp view w m p i rs) :=
  ((Kept.updateState dp w i _ _).trans (.setSession _ _ _)).trans (.resolveRsMac dp view _ i rs)

theorem forwardInbound_booked (i : ℕ) (rs : RsState) (isNew : Bool) :
    Ensures (forwardInbound dp view w snap m p i rs isNew) (Booked (some .clientToRs) w) := by
  refine (forwardInbound_call i rs isNew).mono fun o ho => ?_
  have h1 := Kept.advanced dp view w m p i rs
  cases ho with
  | dropped m' hr => exact .dropped (.ite (h1.trans (.closeSession _ _)) h1) _
  | sent out m' hc => exact .sent ((countFwdIn_entered _ i m' _ hc).after (h1.trans (.countOutcome _ _)))

theorem findInbound_kept (w : WorkerCtx) (snap : Snapshot) (tuple : FiveTuple) (tcp syn : Bool) :
    Kept w (findInbound w snap tuple tcp syn).1 := by
  unfold findInbound
  split
  · exact .refl w
  simp only
  split
  · exact .refl w
  · exact .closeSession w _

theorem inboundAtOwner_booked (svc : Service) (redirected : Bool) :
    Ensures (inboundAtOwner dp view w snap svc m p redirected) (Booked (some .clientToRs) w) := by
  refine (inboundAtOwner_call svc redirected).mono fun o ho => ?_
  have h0 : Kept w (rssChecked dp w m p redirected) := .ite (.rssCheck dp w m _) (.refl w)
  generalize rssChecked dp w m p redirected = w0 at h0 ho
  have h1 : ∀ {w1 : WorkerCtx} {found : Found},
      findInbound w0 snap p.toFiveTuple (p.ipProtocol == 6) (opensConnection p) = (w1, found) → Kept w w1 := by
    intro w1 found hf
    have hfind := findInbound_kept w0 snap p.toFiveTuple (p.ipProtocol == 6) (opensConnection p)
    rw [hf] at hfind
    exact h0.trans hfind
  cases ho with
  | dropped hf => exact .dropped (h1 hf) _
  | found hf ho => exact (forwardInbound_booked _ _ false o ho).after (h1 hf)
  | refused hf hs => exact .dropped (h1 hf) _
  | failed hf hs hn => exact .dropped ((h1 hf).trans (newSession_booked svc _ m _ hn)) _
  | opened hf hs hn hr ho =>
    exact (forwardInbound_booked _ _ true o ho).after ((h1 hf).trans (newSession_booked svc _ m _ hn))

theorem returnAtOwner_booked : Ensures (returnAtOwner dp view w snap m p) (Booked (some .rsToClient) w) := by
  refine returnAtOwner_call.mono fun o ho => ?_
  have h1 : ∀ i, Kept w (answered dp view w m p i) := fun i =>
    ((Kept.updateState dp w i _ _).trans (.setSession _ _ _)).trans (.resolveClientMac dp view _ i)
  cases ho with
  | unknown hno => exact .dropped (.refl w) _
  | down hi hno => exact .dropped (.closeSession w _) _
  | dropped m' hi hr => exact .dropped (h1 _) _
  | sent m' hi hc => exact .sent ((countFwdOut_entered _ _ m' _ hc).after (h1 _))

theorem Kept.resolves (dp : Dataplane) (view : NeighView) (w : WorkerCtx) : Resolves dp view w (Kept w) :=
  ⟨.refl w, .resolveClientMac dp view w, .resolveRsMac dp view w, fun _ h => h.trans (.count _ (by decide))⟩

theorem Aside.kept {P : MasterEvent → Prop} {w' : WorkerCtx} (h : Aside P w w') : Kept w w' := by
  have hbooks : ∀ s ∈ Stat.arrivals, s ∉ Stat.booked := by decide
  induction h with
  | refl => exact .refl w
  | count _ hs ih => exact ih.trans (.count _ (hbooks _ hs))
  | post _ _ ih => exact ih.trans (.post _ _)

/-! ### The paths -/

/-- The direction a path forwards in. -/
def Path.dir : Path → Option Dir
  | inbound _ _ => some .clientToRs
  | fromServer _ => some .rsToClient
  | errorToClient _ _ | errorToServer _ _ | rest => none

/-- **`process_packet` keeps the accounts in balance**, for every worker,
snapshot and frame, and counts what it forwards. -/
theorem processPacket_booked {path : Path} (hp : pathOf dp snap m = .ok path) (view : NeighView) (w : WorkerCtx)
    (redirected : Bool) : Ensures (processPacket dp view w snap m redirected) (Booked path.dir w) := by
  refine (processPacket_onPath (snap.safe_none dp).toLookupSafe view w m redirected).ensures (fun hrest o ho => ?_)
    fun path' k w' hp' _ _ ha => ?_
  · obtain rfl := Except.ok.inj (hp.symm.trans hrest)
    exact .none ho.aside.kept
  obtain rfl := Except.ok.inj (hp.symm.trans hp')
  refine Ensures.mono ?_ fun o ho => Booked.after ho ha.kept
  refine .ite (.ok (.notOwner ..)) ?_
  cases path with
  | inbound p svc => exact inboundAtOwner_booked svc redirected
  | fromServer p => exact returnAtOwner_booked
  | errorToClient p info => exact ((Kept.resolves dp view w').icmpToClient info).mono fun o ho => .none ho.worker
  | errorToServer p info => exact ((Kept.resolves dp view w').icmpToServer info).mono fun o ho => .none ho.worker
  | rest => exact .ok (.none (.refl w'))

end Handlers

end L4Lb
