/-
# What a packet does to a worker's sessions

For every part of the packet path: which faults it cannot have, and what it
has done to the session table when it returns. The faults are a parameter
`bad`; `Snapshot.Safe` and `WorkerCtx.Safe` say what keeps them away, so that
the bounds of the frame (for any snapshot and any worker), the bounds of the
RS counters and the absence of every fault are cases of the same lemmas.

Each of the larger parts also has a list of the ways it can go (`ForwardCall`,
`CreateCall`, `InboundCall`, `ReturnCall`), from which the counters and the
connections are read off elsewhere.
-/
import L4Lb.Processor
import L4Lb.Session.Steps
import L4Lb.Scheduler.Built
import L4Lb.Forward.Valid

open Checked

namespace L4Lb

open SessionTable (Fit TableStep Quiet Created)

/-! ### Steps of a worker -/

/-- What the packet path does to a worker, with new sessions that satisfy `New`. -/
structure WorkerStep (New : SessionId → Prop) (w w' : WorkerCtx) : Prop where
  idx : w'.idx = w.idx
  nowTick : w'.nowTick = w.nowTick
  table : TableStep New w.sessions w'.sessions

namespace WorkerStep

variable {New : SessionId → Prop} {w w' w'' : WorkerCtx} {i : ℕ}

theorem refl (h : Fit w.sessions) : WorkerStep New w w := ⟨rfl, rfl, .refl h⟩

theorem trans (h : WorkerStep New w w') (h' : WorkerStep New w' w'') : WorkerStep New w w'' :=
  ⟨h'.idx.trans h.idx, h'.nowTick.trans h.nowTick, h.table.trans h'.table⟩

theorem mono {New' : SessionId → Prop} (h : WorkerStep New w w') (hn : ∀ s, New s → New' s) :
    WorkerStep New' w w' := ⟨h.idx, h.nowTick, h.table.mono hn⟩

theorem fit (h : WorkerStep New w w') : Fit w'.sessions := h.table.fit

end WorkerStep

/-- The worker with its counters, cursors and events changed. -/
structure SameSessions (w w' : WorkerCtx) : Prop where
  idx : w'.idx = w.idx
  nowTick : w'.nowTick = w.nowTick
  sessions : w'.sessions = w.sessions

namespace SameSessions

variable {New : SessionId → Prop} {w w' w'' : WorkerCtx}

theorem refl (w : WorkerCtx) : SameSessions w w := ⟨rfl, rfl, rfl⟩

theorem trans (h : SameSessions w w') (h' : SameSessions w' w'') : SameSessions w w'' :=
  ⟨h'.idx.trans h.idx, h'.nowTick.trans h.nowTick, h'.sessions.trans h.sessions⟩

theorem count (w : WorkerCtx) (s : Stat) : SameSessions w (w.count s) := ⟨rfl, rfl, rfl⟩

theorem post (w : WorkerCtx) (evs : List MasterEvent) : SameSessions w (w.post evs) := ⟨rfl, rfl, rfl⟩

theorem ite {c : Prop} {_ : Decidable c} {a b : WorkerCtx} (ha : SameSessions w a) (hb : SameSessions w b) :
    SameSessions w (if c then a else b) := by
  split
  · exact ha
  · exact hb

theorem session (h : SameSessions w w') (i : ℕ) : w'.session i = w.session i := by
  unfold WorkerCtx.session
  rw [h.sessions]

theorem step (h : SameSessions w w') (hf : Fit w.sessions) : WorkerStep New w w' := by
  refine ⟨h.idx, h.nowTick, ?_⟩
  rw [h.sessions]
  exact .refl hf

theorem rssCheck (dp : Dataplane) (w : WorkerCtx) (m : Mbuf) (t : FiveTuple) :
    SameSessions w (rssCheck dp w m t) := by
  unfold L4Lb.rssCheck
  exact .ite (.count w _) (.ite (.count w _) (.refl w))

theorem countOutcome (w : WorkerCtx) (out : RewriteOutcome) : SameSessions w (countOutcome w out) := by
  unfold L4Lb.countOutcome
  refine .ite (.trans (.ite (.trans (.ite (.count w _) (.refl w)) (.count _ _)) (.ite (.count w _) (.refl w)))
    (.count _ _)) (.ite (.trans (.ite (.count w _) (.refl w)) (.count _ _)) (.ite (.count w _) (.refl w)))

end SameSessions

/-- The session at `i` is live in a table that is fit. -/
structure WorkerCtx.Has (w : WorkerCtx) (i : ℕ) : Prop where
  fit : Fit w.sessions
  live : w.sessions.Live i

/-- `w'` comes from `w` by work on the session at `i`, which stays. -/
structure Keeps (i : ℕ) (w w' : WorkerCtx) : Prop where
  ident : (w'.session i).ident = (w.session i).ident
  step : w.Has i → WorkerStep (fun _ => False) w w' ∧ w'.sessions.Live i

section Keeps

variable {dp : Dataplane} {view : NeighView} {w w' w'' : WorkerCtx} {i : ℕ}

theorem Keeps.has (h : Keeps i w w') (hw : w.Has i) : w'.Has i := ⟨(h.step hw).1.fit, (h.step hw).2⟩

/-- The session is found as before. -/
theorem Keeps.lookup {k : FiveTuple} (h : Keeps i w w') (hf : Fit w.sessions)
    (hi : w.sessions.lookup k = some i) : w'.sessions.lookup k = some i := by
  obtain ⟨hs, hl⟩ := h.step ⟨hf, ((hf.lookup_iff k i).mp hi).1⟩
  exact hs.table.lookup_eq hf hi hl h.ident

theorem Keeps.trans (h : Keeps i w w') (h' : Keeps i w' w'') : Keeps i w w'' := by
  refine ⟨h'.ident.trans h.ident, fun hw => ?_⟩
  obtain ⟨h1, -⟩ := h.step hw
  obtain ⟨h2, hl⟩ := h'.step (h.has hw)
  exact ⟨h1.trans h2, hl⟩

theorem SameSessions.keeps (h : SameSessions w w') (i : ℕ) : Keeps i w w' := by
  refine ⟨by rw [h.session], fun hw => ⟨h.step hw.fit, ?_⟩⟩
  rw [h.sessions]
  exact hw.live

theorem Keeps.setSession (w : WorkerCtx) (i : ℕ) {f : Session → Session} (hf : Quiet f) :
    Keeps i w (w.setSession i f) := by
  refine ⟨?_, fun hw => ⟨⟨rfl, rfl, .modify hw.fit hw.live hf⟩, ?_⟩⟩
  · unfold WorkerCtx.session WorkerCtx.setSession
    rw [SessionTable.sessions_modify, if_pos rfl]
    exact (hf _).2.2
  · exact (SessionTable.live_modify (hf (w.session i)).1 i).mpr hw.live

theorem Keeps.touch (w : WorkerCtx) (i timeout : ℕ) :
    Keeps i w { w with sessions := w.sessions.touch i w.nowTick timeout } :=
  ⟨SessionTable.touch_ident w.sessions i w.nowTick timeout i, fun hw =>
    ⟨⟨rfl, rfl, .touch hw.fit hw.live _ _⟩, (hw.fit.live_touch hw.live _ _ i).mpr hw.live⟩⟩

/-! ### The writes to a session -/

theorem quiet_advance (flags : UInt8) (dir : Dir) : Quiet (·.advance flags dir) := by
  intro s
  simp only [Session.advance]
  split
  · exact ⟨⟨rfl, rfl, rfl, rfl, rfl, rfl, rfl⟩, rfl, rfl⟩
  · exact ⟨⟨rfl, rfl, rfl, rfl, rfl, rfl, rfl⟩, rfl, rfl⟩

theorem Keeps.updateState (dp : Dataplane) (w : WorkerCtx) (i : ℕ) (flags : UInt8) (dir : Dir) :
    Keeps i w (updateState dp w i flags dir) :=
  (Keeps.setSession w i (quiet_advance flags dir)).trans (.touch _ i _)

theorem hasFlag_and_compl (flags : UInt8) :
    hasFlag (flags &&& ~~~SF_TOA_PENDING) SF_FULLNAT = hasFlag flags SF_FULLNAT := by
  unfold hasFlag
  rw [UInt8.and_assoc]
  rfl

theorem hasFlag_or (flags : UInt8) :
    hasFlag (flags ||| SF_TOA_PENDING) SF_FULLNAT = hasFlag flags SF_FULLNAT := by
  have h : (flags ||| SF_TOA_PENDING) &&& SF_FULLNAT = flags &&& SF_FULLNAT := by
    apply UInt8.toBitVec_inj.mp
    rw [UInt8.toBitVec_and, UInt8.toBitVec_or, UInt8.toBitVec_and, BitVec.and_or_distrib_right]
    exact BitVec.or_zero
  rw [hasFlag, h, hasFlag]

theorem quiet_returned (flags : UInt8) (len : ℕ) : Quiet (·.returned flags len) := by
  intro s
  have hf : (s.returned flags len).fullnat = s.fullnat := by
    unfold Session.returned Session.fullnat
    simp only
    split
    · exact hasFlag_and_compl s.flags
    · rfl
  refine ⟨⟨rfl, rfl, hf, rfl, rfl, rfl, rfl⟩, rfl, ?_⟩
  unfold Session.ident
  rw [hf]
  rfl

theorem Keeps.resolveRsMac (dp : Dataplane) (view : NeighView) (w : WorkerCtx) (i : ℕ) (rs : RsState) :
    Keeps i w (resolveRsMac dp view w i rs).1 := by
  unfold L4Lb.resolveRsMac
  split
  · exact (SameSessions.refl w).keeps i
  · refine (Keeps.setSession w i fun s => ?_).trans ((SameSessions.post _ _).keeps i)
    exact ⟨⟨rfl, rfl, rfl, rfl, rfl, rfl, rfl⟩, rfl, rfl⟩

theorem Keeps.resolveClientMac (dp : Dataplane) (view : NeighView) (w : WorkerCtx) (i : ℕ) :
    Keeps i w (resolveClientMac dp view w i).1 := by
  refine (Keeps.setSession w i fun s => ?_).trans ((SameSessions.post _ _).keeps i)
  exact ⟨⟨rfl, rfl, rfl, rfl, rfl, rfl, rfl⟩, rfl, rfl⟩

theorem closeSession_step {New : SessionId → Prop} (h : w.Has i) : WorkerStep New w (closeSession w i) :=
  ⟨rfl, rfl, .remove h.fit h.live⟩

end Keeps

/-! ### Forwarding on a session -/

section Forward

variable {bad : Fault → Prop} {dp : Dataplane} {view : NeighView} {snap : Snapshot} {w : WorkerCtx} {i : ℕ}
  {m : Mbuf} {p : PacketMeta}

/-- The counters of the real server `id` may be written. -/
def CounterSafe (bad : Fault → Prop) (id : ℕ) : Prop := bad (.index id kMaxRsCounters) → id < kMaxRsCounters

theorem addRs_avoids {id : ℕ} (h : CounterSafe bad id) (f : RsCounters → RsCounters) :
    Avoids bad (w.addRs id f) (SameSessions w) := by
  unfold WorkerCtx.addRs
  split
  · exact .ok ⟨rfl, rfl, rfl⟩
  · rename_i hlt
    exact .error fun hb => hlt (h hb)

theorem countFwdIn_avoids (h : CounterSafe bad (w.session i).rsId) (m : Mbuf) :
    Avoids bad (countFwdIn w i m) (SameSessions w) := by
  unfold countFwdIn
  refine (addRs_avoids h _).mono fun w' hs => ?_
  exact ⟨hs.idx, hs.nowTick, hs.sessions⟩

theorem countFwdOut_avoids (h : CounterSafe bad (w.session i).rsId) (m : Mbuf) :
    Avoids bad (countFwdOut w i m) (SameSessions w) := by
  unfold countFwdOut
  refine (addRs_avoids h _).mono fun w' hs => ?_
  exact ⟨hs.idx, hs.nowTick, hs.sessions⟩

/-- The worker when `handle_inbound` has advanced the session at `i` and asked
for the next hop. -/
def advanced (dp : Dataplane) (view : NeighView) (w : WorkerCtx) (m : Mbuf) (p : PacketMeta) (i : ℕ)
    (rs : RsState) : WorkerCtx :=
  (resolveRsMac dp view ((updateState dp w i p.tcpFlags .clientToRs).setSession i fun s =>
    { s with pktsIn := s.pktsIn + 1, bytesIn := s.bytesIn + m.pktLen }) i rs).1

/-- What `handle_inbound` does from there on: the packet is dropped, with the
session if that is new, or counted and sent. -/
inductive ForwardCall (w : WorkerCtx) (i : ℕ) (isNew : Bool) : Outcome → Prop
  | dropped {reason : Stat} (m : Mbuf) (hr : reason = .dropNoNeigh ∨ reason = .dropTtl) :
      ForwardCall w i isNew (if isNew then closeSession w i else w, m, .drop reason)
  | sent {w' : WorkerCtx} (out : RewriteOutcome) (m : Mbuf) (h : countFwdIn (countOutcome w out) i m = .ok w') :
      ForwardCall w i isNew (w', m, .send)

theorem forwardInbound_call (i : ℕ) (rs : RsState) (isNew : Bool) :
    Ensures (forwardInbound dp view w snap m p i rs isNew) (ForwardCall (advanced dp view w m p i rs) i isNew) := by
  unfold forwardInbound advanced
  simp only [pure_eq_ok]
  generalize resolveRsMac dp view _ i rs = res
  rcases res with ⟨w1, _ | mac⟩
  · exact .ok (.dropped m (Or.inl rfl))
  -- what is counted is the frame as it is sent
  have hcount : ∀ (out : RewriteOutcome) (m' : Mbuf), Ensures (countFwdIn (countOutcome w1 out) i m') fun w' =>
      ForwardCall w1 i isNew (w', m', .send) := fun out m' w' h => .sent out m' h
  refine .ite (.after fun m' => ?_) (.after fun r => .ite (.ok (.dropped _ (Or.inr rfl))) ?_)
  · exact .bind (hcount {} m') fun w' h => .ok h
  · exact .bind (hcount _ _) fun w' h => .ok h

/-- The reasons to drop a packet at its owner. -/
def Stat.ofSession : Stat → Bool
  | .dropNoSession | .dropRsDown | .dropNoRs | .dropNoPort | .dropTableFull | .dropNoNeigh | .dropTtl => true
  | _ => false

/-- The packet is dropped, for a reason that is about its session. -/
def Result.Dropped (r : Result) : Prop := ∃ reason : Stat, reason.ofSession = true ∧ r = .drop reason

theorem Result.Dropped.ne_send {r : Result} (h : r.Dropped) : r ≠ .send := by
  obtain ⟨reason, -, rfl⟩ := h
  simp

theorem Result.Dropped.ne_redirect {r : Result} (h : r.Dropped) (k : ℕ) : r ≠ .redirect k := by
  obtain ⟨reason, -, rfl⟩ := h
  simp

/-- What comes of a packet on the session at `i`: it is sent, with the session
kept and a frame that satisfies `P`, or it is dropped. -/
structure Forwarded (i : ℕ) (w : WorkerCtx) (P : Mbuf → Prop) (o : Outcome) : Prop where
  step : w.Has i → WorkerStep (fun _ => False) w o.1
  verdict : (o.2.2 = .send ∧ Keeps i w o.1 ∧ P o.2.1) ∨ o.2.2.Dropped

theorem Forwarded.dropped {w' : WorkerCtx} {reason : Stat} (h : Keeps i w w') (P : Mbuf → Prop) (m : Mbuf)
    (hr : reason.ofSession = true) : Forwarded i w P (w', m, .drop reason) :=
  ⟨fun hw => (h.step hw).1, Or.inr ⟨reason, hr, rfl⟩⟩

/-- A dropped packet takes the session with it that was made for it. -/
theorem Forwarded.dropped_new {w' : WorkerCtx} {reason : Stat} (h : Keeps i w w') (P : Mbuf → Prop) (m : Mbuf)
    (hr : reason.ofSession = true) (isNew : Bool) :
    Forwarded i w P (if isNew then closeSession w' i else w', m, .drop reason) := by
  refine ⟨fun hw => ?_, Or.inr ⟨reason, hr, rfl⟩⟩
  obtain ⟨hs, -⟩ := h.step hw
  show WorkerStep _ w (if isNew then closeSession w' i else w')
  split
  · exact hs.trans (closeSession_step (h.has hw))
  · exact hs

theorem Forwarded.sent {w' : WorkerCtx} (h : Keeps i w w') {P : Mbuf → Prop} {m : Mbuf} (hP : P m) :
    Forwarded i w P (w', m, .send) := ⟨fun hw => (h.step hw).1, Or.inl ⟨rfl, h, hP⟩⟩

/-- The frame carries the tuple `t`, of the packet's protocol. -/
def Carries (p : PacketMeta) (t : FiveTuple) (m' : Mbuf) : Prop :=
  tupleAt m' 14 p.l4Offset = { t with protocol := p.ipProtocol }

/-- The frame is the received one but for its MAC addresses. -/
def Relayed (m m' : Mbuf) : Prop := m'.dataLen = m.dataLen ∧ ∀ k, 12 ≤ k → m'.byte k = m.byte k

/-- The Ethernet and IPv4 headers are in the frame. -/
theorem Parsed.headers_le (h : Parsed m p) : 34 ≤ m.dataLen := by
  have hihl := h.ihl
  have hl4 := h.l4
  have hle := h.l4_le
  have htot := h.total_le
  omega

theorem relayed_drRewrite (h : Parsed m p) (srcMac dstMac : MacAddr) :
    Returns (drRewrite m srcMac dstMac) (Relayed m) := by
  have hlen := h.headers_le
  rw [drRewrite_eq (by omega)]
  refine .ok ⟨rfl, fun k hk => ?_⟩
  show ((m.setMac 0 dstMac).setMac 6 srcMac).byte k = _
  rw [Mbuf.byte_setMac_of _ (by omega), Mbuf.byte_setMac_of _ (by omega)]

theorem carries_natRewrite (h : Parsed m p) (hproto : p.ipProtocol = 6 ∨ p.ipProtocol = 17) (rw : NatRewrite)
    (opt : NatOptions) : Returns (natRewrite m p rw opt) fun r =>
      r.1 = .ok → tupleAt r.2.1 14 p.l4Offset = rw.tuple p.ipProtocol := by
  refine (natRewrite_returns h hproto rw opt).mono fun r hr hok => ?_
  obtain ⟨m1, c, hre⟩ := hr.2 hok
  exact hre.tupleAt hproto

/-- What `handle_inbound` sends. -/
def SentToServer (snap : Snapshot) (s : Session) (m : Mbuf) (p : PacketMeta) (m' : Mbuf) : Prop :=
  if snap.mode = .dr then Relayed m m' else Carries p s.server.reverse m'

theorem forwardInbound_avoids (h : Parsed m p) (hproto : p.ipProtocol = 6 ∨ p.ipProtocol = 17)
    (hc : CounterSafe bad (w.session i).rsId) (rs : RsState) (isNew : Bool) :
    Avoids bad (forwardInbound dp view w snap m p i rs isNew)
      (Forwarded i w (SentToServer snap (w.session i) m p)) := by
  have hk1 := Keeps.updateState dp w i p.tcpFlags .clientToRs
  unfold forwardInbound
  simp only
  generalize L4Lb.updateState dp w i p.tcpFlags .clientToRs = w1 at hk1 ⊢
  have hk2 : Keeps i w (w1.setSession i fun s =>
      { s with pktsIn := s.pktsIn + 1, bytesIn := s.bytesIn + m.pktLen }) :=
    hk1.trans (.setSession w1 i fun s => ⟨⟨rfl, rfl, rfl, rfl, rfl, rfl, rfl⟩, rfl, rfl⟩)
  generalize w1.setSession i (fun s =>
    { s with pktsIn := s.pktsIn + 1, bytesIn := s.bytesIn + m.pktLen }) = w2 at hk2 ⊢
  have hk3 := hk2.trans (Keeps.resolveRsMac dp view w2 i rs)
  generalize L4Lb.resolveRsMac dp view w2 i rs = res at hk3 ⊢
  rcases res with ⟨w3, _ | mac⟩
  · exact .ok (.dropped_new hk3 _ _ rfl _)
  · simp only at hk3 ⊢
    have hrs : (w3.session i).rsId = (w.session i).rsId := congrArg SessionId.rsId hk3.ident
    have hserver : (w3.session i).server = (w.session i).server := congrArg SessionId.server hk3.ident
    by_cases hdr : snap.mode = .dr
    · rw [if_pos hdr]
      refine Avoids.bind (relayed_drRewrite h dp.localMac mac).avoids fun m' hm' => ?_
      refine Avoids.bind (countFwdIn_avoids (by rw [hrs]; exact hc) m') fun w4 h4 => ?_
      exact .ok (.sent (hk3.trans (h4.keeps i)) (by rw [SentToServer, if_pos hdr]; exact hm'))
    · rw [if_neg hdr]
      refine Avoids.bind (carries_natRewrite h hproto _ _).avoids ?_
      rintro ⟨res, m', p', out⟩ hm'
      simp only at hm' ⊢
      split
      · exact .ok (.dropped_new hk3 _ _ rfl _)
      · rename_i hok
        have hout := SameSessions.countOutcome w3 out
        refine Avoids.bind (countFwdIn_avoids (by rw [hout.session, hrs]; exact hc) m') fun w4 h4 => ?_
        refine .ok (.sent (hk3.trans ((hout.trans h4).keeps i)) ?_)
        rw [SentToServer, if_neg hdr, Carries, hm' (not_not.mp hok), ← hserver]
        rfl

end Forward

/-! ### Ports of new sessions -/

section Ports

/-- The candidates stay inside the range of SNAT ports. -/
theorem natPort_eq {idx step k : ℕ} (hk : k < (kNatPortMax - kNatPortMin + 1) / step) :
    natPort idx step k = kNatPortMin + k * step +
      (if step > 1 then (idx + step - kNatPortMin % step) % step else 0) ∧
    kNatPortMin ≤ natPort idx step k ∧ natPort idx step k ≤ kNatPortMax := by
  have hstep : 0 < step := by
    by_contra h0
    rw [Nat.eq_zero_of_not_pos h0, Nat.div_zero] at hk
    omega
  have hoff : (if step > 1 then (idx + step - kNatPortMin % step) % step else 0) < step := by
    split
    · exact Nat.mod_lt _ hstep
    · exact hstep
  have hle : (k + 1) * step ≤ kNatPortMax - kNatPortMin + 1 :=
    (Nat.mul_le_mul_right step hk).trans (Nat.div_mul_le_self _ _)
  rw [Nat.add_mul, Nat.one_mul] at hle
  unfold natPort
  unfold kNatPortMax kNatPortMin at *
  rw [Nat.mod_eq_of_lt (by omega)]
  omega

/-- Where the port decides about the owner, the candidates are the worker's own. -/
theorem natPort_mod {idx step k : ℕ} (hidx : idx < step) (hk : k < (kNatPortMax - kNatPortMin + 1) / step) :
    natPort idx step k % step = idx := by
  rw [(natPort_eq hk).1]
  by_cases h1 : step > 1
  · rw [if_pos h1, Nat.add_mod_mod]
    have hr : kNatPortMin % step < step := Nat.mod_lt _ (by omega)
    have hq := Nat.div_add_mod kNatPortMin step
    have he : kNatPortMin + k * step + (idx + step - kNatPortMin % step) =
        idx + step * (kNatPortMin / step + k + 1) := by
      rw [Nat.mul_add, Nat.mul_add, Nat.mul_comm step k]
      omega
    rw [he, Nat.add_mul_mod_self_left, Nat.mod_eq_of_lt hidx]
  · obtain rfl : step = 1 := by omega
    omega

/-- The server tuples worker `idx` may give to a session of `rs`. -/
structure ServerOk (dp : Dataplane) (snap : Snapshot) (idx : ℕ) (rs : RsState) (proto : UInt8)
    (server : FiveTuple) : Prop where
  srcIp : server.srcIp = rs.ip
  srcPort : server.srcPort = rs.portBe
  lip : server.dstIp ∈ snap.localIps
  range : inNatRange server.dstPort = true
  proto : server.protocol = proto
  owner : dp.steering.retOwner dp.H server = idx

variable {dp : Dataplane} {w : WorkerCtx} {rs : RsState} {proto : UInt8}

theorem findPort_some {lip : IPv4Addr} {step slots : ℕ} (hslots : 0 < slots) {server : FiveTuple} :
    ∀ {probes cur : ℕ}, (findPort dp w rs lip proto step slots probes cur).1 = some server →
    w.sessions.lookup server = none ∧
      (dp.steering.retByRss proto = true → dp.steering.retOwner dp.H server = w.idx) ∧
      ∃ k, k < slots ∧ server = ⟨rs.ip, lip, rs.portBe, bswap16 (UInt16.ofNat (natPort w.idx step k)), proto⟩
  | 0, cur, h => by simp [findPort] at h
  | probes + 1, cur, h => by
    unfold findPort at h
    simp only at h
    split at h
    · exact findPort_some hslots h
    split at h
    · exact findPort_some hslots h
    split at h
    · exact findPort_some hslots h
    rename_i hrss huse
    obtain rfl := Option.some.inj h
    refine ⟨?_, fun hr => ?_, cur % slots, Nat.mod_lt _ hslots, rfl⟩
    · simpa [SessionTable.keyInUse] using huse
    · simpa [hr] using hrss

theorem findServer_some {lips : List IPv4Addr} (hl : lips ≠ []) {step slots probes : ℕ} (hslots : 0 < slots)
    {li : ℕ} {server : FiveTuple} : ∀ {left n : ℕ} {cursors : List ℕ},
    (findServer dp w rs lips proto step slots probes left n cursors).1 = some (li, server) →
    w.sessions.lookup server = none ∧
      (dp.steering.retByRss proto = true → dp.steering.retOwner dp.H server = w.idx) ∧
      ∃ lip ∈ lips, ∃ k, k < slots ∧
        server = ⟨rs.ip, lip, rs.portBe, bswap16 (UInt16.ofNat (natPort w.idx step k)), proto⟩
  | 0, n, cursors, h => by simp [findServer] at h
  | left + 1, n, cursors, h => by
    unfold findServer at h
    simp only at h
    split at h
    · rename_i server' cur he
      obtain ⟨rfl, rfl⟩ := Prod.mk.inj (Option.some.inj h)
      obtain ⟨h1, h2, k, hk, h3⟩ := findPort_some hslots (congrArg Prod.fst he)
      refine ⟨h1, h2, _, ?_, k, hk, h3⟩
      have hlt : (w.lipRr + n) % lips.length < lips.length :=
        Nat.mod_lt _ (List.length_pos_iff.mpr hl)
      rw [List.getD_eq_getElem?_getD, List.getElem?_eq_getElem hlt, Option.getD_some]
      exact List.getElem_mem hlt
    · exact findServer_some hl hslots h

/-- What making a session comes to, in either mode: no port is found, or
`create` is called, with a server key that is not in use. -/
inductive CreateCall (w : WorkerCtx) (client : FiveTuple) (timeout : ℕ) : WorkerCtx × Except Stat ℕ → Prop
  | refused (cursors : List ℕ) : CreateCall w client timeout ({ w with lipCursor := cursors }, .error .dropNoPort)
  | full {server : Option FiveTuple} {t : SessionTable} (cursors : List ℕ)
      (hfree : ∀ s, server = some s → w.sessions.lookup s = none)
      (h : w.sessions.create client server w.nowTick timeout = (t, none)) :
      CreateCall w client timeout ({ w with lipCursor := cursors, sessions := t }, .error .dropTableFull)
  | made {server : Option FiveTuple} {t : SessionTable} {i : ℕ} (cursors : List ℕ) (rr : ℕ)
      (hfree : ∀ s, server = some s → w.sessions.lookup s = none)
      (h : w.sessions.create client server w.nowTick timeout = (t, some i)) :
      CreateCall w client timeout ({ w with lipCursor := cursors, lipRr := rr, sessions := t }, .ok i)

theorem createFullnat_call {snap : Snapshot} (client : FiveTuple) (rs : RsState) (timeout : ℕ) :
    Ensures (createFullnat dp w snap client rs timeout) (CreateCall w client timeout) := by
  unfold createFullnat
  simp only [pure_eq_ok, throw_eq_error]
  by_cases hl : snap.localIps = []
  · rw [if_pos hl]
    exact .ok (.refused w.lipCursor)
  rw [if_neg hl]
  by_cases hslots : (kNatPortMax - kNatPortMin + 1) / dp.steering.portStep client.protocol = 0
  · rw [if_pos hslots]
    exact .error
  rw [if_neg hslots]
  generalize hf : findServer dp w rs snap.localIps client.protocol _ _ _ _ _ _ = found
  rcases found with ⟨_ | ⟨li, server⟩, cursors⟩
  · exact .ok (.refused cursors)
  have hnone := (findServer_some hl (Nat.pos_of_ne_zero hslots) (congrArg Prod.fst hf)).1
  have hfree : ∀ s, some server = some s → w.sessions.lookup s = none := fun s hs => Option.some.inj hs ▸ hnone
  simp only
  generalize hc : w.sessions.create client (some server) w.nowTick timeout = made
  rcases made with ⟨t, _ | i⟩
  · exact .ok (.full cursors hfree hc)
  · exact .ok (.made cursors _ hfree hc)

theorem createSession_call {snap : Snapshot} (client : FiveTuple) (rs : RsState) (timeout : ℕ) :
    Ensures (createSession dp w snap client rs timeout) (CreateCall w client timeout) := by
  unfold createSession
  refine .ite (createFullnat_call client rs timeout) ?_
  generalize hc : w.sessions.create client none w.nowTick timeout = made
  rcases made with ⟨t, _ | i⟩
  · exact .ok (.full w.lipCursor (by simp) hc)
  · exact .ok (.made w.lipCursor w.lipRr (by simp) hc)

end Ports

/-! ### New sessions -/

section New

variable {bad : Fault → Prop} {dp : Dataplane} {snap : Snapshot} {w : WorkerCtx} {m : Mbuf} {client : FiveTuple}
  {rs : RsState}

theorem serverOk_of_port {server : FiveTuple} {lip : IPv4Addr} {k : ℕ} (hidx : w.idx < dp.steering.n)
    (hlip : lip ∈ snap.localIps) (proto : UInt8)
    (hk : k < (kNatPortMax - kNatPortMin + 1) / dp.steering.portStep proto)
    (hs : server = ⟨rs.ip, lip, rs.portBe,
      bswap16 (UInt16.ofNat (natPort w.idx (dp.steering.portStep proto) k)), proto⟩)
    (ho : dp.steering.retByRss proto = true → dp.steering.retOwner dp.H server = w.idx) :
    ServerOk dp snap w.idx rs proto server := by
  obtain ⟨-, hmin, hmax⟩ := @natPort_eq w.idx _ _ hk
  have hport : (bswap16 server.dstPort).toNat = natPort w.idx (dp.steering.portStep proto) k := by
    rw [hs]
    show (bswap16 (bswap16 (UInt16.ofNat _))).toNat = _
    unfold kNatPortMax at hmax
    rw [bswap16_bswap16, UInt16.toNat_ofNat', Nat.mod_eq_of_lt (by omega)]
  refine ⟨by rw [hs], by rw [hs], by rw [hs]; exact hlip, ?_, by rw [hs], ?_⟩
  · unfold inNatRange Config.inPortRange
    rw [hport]
    simp [hmin, hmax]
  · by_cases hr : dp.steering.retByRss proto = true
    · exact ho hr
    · have hproto : server.protocol = proto := by rw [hs]
      rw [Bool.not_eq_true] at hr
      rw [Steering.retOwner_of_port (by rw [hproto]; exact hr), hport]
      rw [Steering.portStep, if_neg (by simp [hr])] at hk ⊢
      exact natPort_mod hidx hk

/-- The client tuple is not that of a return packet. -/
def NoReturn (snap : Snapshot) (client : FiveTuple) : Prop :=
  ¬ (client.dstIp ∈ snap.localIps ∧ inNatRange client.dstPort = true)

/-- The worker may make sessions for `client`. -/
structure Admits (dp : Dataplane) (snap : Snapshot) (w : WorkerCtx) (client : FiveTuple) : Prop where
  fit : Fit w.sessions
  idx : w.idx < dp.steering.n
  noReturn : snap.mode = .nat → NoReturn snap client

/-- What `create_fullnat` and its counterpart for DR return. -/
structure Made (dp : Dataplane) (snap : Snapshot) (w : WorkerCtx) (client : FiveTuple) (rs : RsState)
    (x : WorkerCtx × Except Stat ℕ) : Prop where
  idx : x.1.idx = w.idx
  nowTick : x.1.nowTick = w.nowTick
  reason : ∀ e, x.2 = .error e → e.ofSession = true
  failed : Admits dp snap w client → w.sessions.lookup client = none → ∀ e, x.2 = .error e →
    x.1.sessions = w.sessions
  made : Admits dp snap w client → w.sessions.lookup client = none → ∀ i, x.2 = .ok i → ∃ server,
    Created w.sessions x.1.sessions i client server ∧
      (server.isSome = true ↔ snap.mode = .nat) ∧
      ∀ s, server = some s → ServerOk dp snap w.idx rs client.protocol s

theorem Made.refused {w' : WorkerCtx} {fail : Stat} (hi : w'.idx = w.idx) (ht : w'.nowTick = w.nowTick)
    (hr : fail.ofSession = true)
    (hs : Admits dp snap w client → w.sessions.lookup client = none → w'.sessions = w.sessions) :
    Made dp snap w client rs (w', .error fail) :=
  ⟨hi, ht, fun _ he => Except.error.inj he ▸ hr, fun ha hc _ _ => hs ha hc, fun _ _ _ h => by simp at h⟩

/-- The table that `create` leaves, with its answer. -/
theorem Made.of_create {server : Option FiveTuple} {timeout : ℕ} {w' : WorkerCtx} {made : Option ℕ}
    {x : Except Stat ℕ} (hcr : w.sessions.create client server w.nowTick timeout = (w'.sessions, made))
    (hx : x = made.elim (.error .dropTableFull) .ok) (hi : w'.idx = w.idx) (ht : w'.nowTick = w.nowTick)
    (hkeys : Admits dp snap w client → ∀ s, server = some s → w.sessions.lookup s = none ∧ s ≠ client)
    (hmode : server.isSome = true ↔ snap.mode = .nat)
    (hok : Admits dp snap w client → ∀ s, server = some s → ServerOk dp snap w.idx rs client.protocol s) :
    Made dp snap w client rs (w', x) := by
  subst hx
  have hfit := fun (ha : Admits dp snap w client) (hc : w.sessions.lookup client = none) =>
    ha.fit.create hc (hkeys ha) w.nowTick timeout
  rw [hcr] at hfit
  cases made with
  | none =>
    refine .refused hi ht rfl fun ha hc => ?_
    rcases hfit ha hc with he | ⟨i, he, -⟩
    · exact congrArg Prod.fst he
    · cases he
  | some i =>
    refine ⟨hi, ht, fun _ h => by simp at h, fun _ _ _ h => by simp at h, fun ha hc j hj => ?_⟩
    obtain rfl : i = j := Except.ok.inj hj
    rcases hfit ha hc with he | ⟨i', he, hcreated⟩
    · exact absurd (congrArg Prod.snd he) (Option.some_ne_none i)
    · obtain rfl : i = i' := Option.some.inj he
      exact ⟨server, hcreated, hmode, hok ha⟩

theorem createFullnat_avoids (hdiv : bad .divZero → ∀ proto,
    (kNatPortMax - kNatPortMin + 1) / dp.steering.portStep proto ≠ 0) (hmode : snap.mode = .nat) (timeout : ℕ) :
    Avoids bad (createFullnat dp w snap client rs timeout) (Made dp snap w client rs) := by
  unfold createFullnat
  simp only [pure_eq_ok, throw_eq_error]
  by_cases hl : snap.localIps = []
  · rw [if_pos hl]
    exact .ok (.refused rfl rfl rfl fun _ _ => rfl)
  rw [if_neg hl]
  by_cases hslots : (kNatPortMax - kNatPortMin + 1) / dp.steering.portStep client.protocol = 0
  · rw [if_pos hslots]
    exact .error fun hb => hdiv hb _ hslots
  rw [if_neg hslots]
  generalize hf : findServer dp w rs snap.localIps client.protocol _ _ _ _ _ _ = found
  rcases found with ⟨_ | ⟨li, server⟩, cursors⟩
  · exact .ok (.refused rfl rfl rfl fun _ _ => rfl)
  simp only
  obtain ⟨hnone, hrss, lip, hlip, k, hk, hs⟩ :=
    findServer_some hl (Nat.pos_of_ne_zero hslots) (congrArg Prod.fst hf)
  have hok (ha : Admits dp snap w client) : ServerOk dp snap w.idx rs client.protocol server :=
    serverOk_of_port ha.idx hlip client.protocol hk hs hrss
  have hkeys : Admits dp snap w client → ∀ s, some server = some s → w.sessions.lookup s = none ∧ s ≠ client := by
    rintro ha s hs
    obtain rfl := Option.some.inj hs
    exact ⟨hnone, fun he => ha.noReturn hmode ⟨he ▸ (hok ha).lip, he ▸ (hok ha).range⟩⟩
  have hmade : (some server).isSome = true ↔ snap.mode = .nat := iff_of_true rfl hmode
  have hsome (ha : Admits dp snap w client) : ∀ s, some server = some s → ServerOk dp snap w.idx rs client.protocol s :=
    fun s hs => Option.some.inj hs ▸ hok ha
  rcases hm : w.sessions.create client (some server) w.nowTick timeout with ⟨t, _ | i⟩
  · exact .ok (.of_create hm rfl rfl rfl hkeys hmade hsome)
  · exact .ok (.of_create hm rfl rfl rfl hkeys hmade hsome)

theorem createSession_avoids (hdiv : bad .divZero → ∀ proto,
    (kNatPortMax - kNatPortMin + 1) / dp.steering.portStep proto ≠ 0) (timeout : ℕ) :
    Avoids bad (createSession dp w snap client rs timeout) (Made dp snap w client rs) := by
  unfold createSession
  split
  · rename_i hmode
    exact createFullnat_avoids hdiv hmode timeout
  · rename_i hmode
    have hmade : (none : Option FiveTuple).isSome = true ↔ snap.mode = .nat := iff_of_false Bool.false_ne_true hmode
    rcases hm : w.sessions.create client none w.nowTick timeout with ⟨t, _ | i⟩
    · exact .ok (.of_create hm rfl rfl rfl (by simp) hmade (by simp))
    · exact .ok (.of_create hm rfl rfl rfl (by simp) hmade (by simp))

/-- What keeps the faults `bad` away from the lookups in a snapshot. -/
structure Snapshot.LookupSafe (bad : Fault → Prop) (dp : Dataplane) (snap : Snapshot) : Prop where
  isVip : ∀ ip e, snap.isVip dp.H ip = .error e → ¬ bad e
  isLip : ∀ ip e, snap.isLip dp.H ip = .error e → ¬ bad e
  isLocal : ∀ ip e, snap.isLocal dp.H ip = .error e → ¬ bad e
  findService : ∀ vip portBe proto e, snap.findService dp.H vip portBe proto = .error e → ¬ bad e

/-- What keeps the faults `bad` away, of the snapshot and the set-up. -/
structure Snapshot.Safe (bad : Fault → Prop) (dp : Dataplane) (snap : Snapshot) : Prop
    extends snap.LookupSafe bad dp where
  div : bad .divZero → ∀ proto, (kNatPortMax - kNatPortMin + 1) / dp.steering.portStep proto ≠ 0
  pick : ∀ svc ∈ snap.services, ∀ k ∈ svc.sched.table, bad (.index k svc.rs.length) → k < svc.rs.length
  counter : ∀ svc ∈ snap.services, ∀ r ∈ svc.rs, CounterSafe bad r.id
  null : bad .null → ∀ svc ∈ snap.services, ∀ r ∈ svc.rs, (snap.rs r.id).isSome

/-- The identity of a session that worker `idx` makes for `client`, a client
of the service `svc`. -/
structure Fresh (dp : Dataplane) (snap : Snapshot) (svc : Service) (client : FiveTuple) (idx : ℕ)
    (d : SessionId) : Prop where
  client_eq : d.client = client
  svcIdx : d.svcIdx = svc.idx
  fullnat : d.fullnat = true ↔ snap.mode = .nat
  rs : ∃ k ∈ svc.sched.table, ∃ r, svc.rs[k]? = some r ∧ d.rsId = r.id ∧
    (d.fullnat = true → ServerOk dp snap idx r client.protocol d.server)

/-- What `new_session` returns. -/
structure MadeNew (dp : Dataplane) (snap : Snapshot) (svc : Service) (w : WorkerCtx) (client : FiveTuple)
    (x : WorkerCtx × Except Stat ℕ) : Prop where
  idx : x.1.idx = w.idx
  nowTick : x.1.nowTick = w.nowTick
  rs : ∀ i, x.2 = .ok i → ∃ r ∈ svc.rs, (x.1.session i).rsId = r.id
  reason : ∀ e, x.2 = .error e → e.ofSession = true
  failed : Admits dp snap w client → w.sessions.lookup client = none → ∀ e, x.2 = .error e →
    x.1.sessions = w.sessions
  made : Admits dp snap w client → w.sessions.lookup client = none → ∀ i, x.2 = .ok i →
    TableStep (Fresh dp snap svc client w.idx) w.sessions x.1.sessions ∧ x.1.Has i ∧
      Fresh dp snap svc client w.idx (x.1.session i).ident

theorem assigned_sameInTable (s : Session) (rs : RsState) (svc : Service) (srcMac : MacAddr) (tcp toa : Bool) :
    s.SameInTable (s.assigned rs svc srcMac tcp toa) ∧
      (s.assigned rs svc srcMac tcp toa).expireTick = s.expireTick := by
  refine ⟨⟨rfl, rfl, ?_, rfl, rfl, rfl, rfl⟩, rfl⟩
  unfold Session.fullnat Session.assigned
  cases toa
  · rfl
  · exact hasFlag_or s.flags

theorem fresh_assigned {svc : Service} {t : SessionTable} {i k : ℕ} {server : Option FiveTuple}
    (hk : k ∈ svc.sched.table) (hr : svc.rs[k]? = some rs) (hcr : Created w.sessions t i client server)
    (hmode : server.isSome = true ↔ snap.mode = .nat)
    (hs : ∀ s, server = some s → ServerOk dp snap w.idx rs client.protocol s) (srcMac : MacAddr) (tcp toa : Bool) :
    Fresh dp snap svc client w.idx ((t.sessions i).assigned rs svc srcMac tcp toa).ident := by
  have hfull : ((t.sessions i).assigned rs svc srcMac tcp toa).fullnat = server.isSome := by
    rw [(assigned_sameInTable (t.sessions i) rs svc srcMac tcp toa).1.2.2.1, Session.fullnat, hcr.flags_eq]
    cases server with
    | none => rfl
    | some s => show hasFlag SF_FULLNAT SF_FULLNAT = true; decide
  refine ⟨hcr.client_eq, rfl, ?_, k, hk, rs, hr, rfl, fun hf => ?_⟩
  · show ((t.sessions i).assigned rs svc srcMac tcp toa).fullnat = true ↔ _
    rw [hfull]
    exact hmode
  · have : server.isSome = true := hfull ▸ hf
    obtain ⟨s, rfl⟩ := Option.isSome_iff_exists.mp this
    show ServerOk dp snap w.idx rs client.protocol (t.sessions i).server
    rw [hcr.server_eq s rfl]
    exact hs s rfl

theorem newSession_avoids {svc : Service} (hsafe : snap.Safe bad dp) (hsvc : svc ∈ snap.services)
    (hlen : 14 ≤ m.dataLen) :
    Avoids bad (newSession dp w snap svc client m) (MadeNew dp snap svc w client) := by
  unfold newSession
  simp only [pure_eq_ok, throw_eq_error]
  generalize hpick : svc.sched.pick dp.H client (w.cursors svc.idx) = picked
  rcases picked with ⟨_ | k, cursor⟩
  · exact .ok ⟨rfl, rfl, fun _ h => by simp at h, fun _ he => Except.error.inj he ▸ rfl, fun _ _ _ _ => rfl,
      fun _ _ _ h => by simp at h⟩
  have hk : k ∈ svc.sched.table := Scheduler.pick_mem (congrArg Prod.fst hpick)
  simp only
  cases hrs : svc.rs[k]? with
  | none =>
    refine .error fun hb => ?_
    have := hsafe.pick svc hsvc k hk hb
    rw [List.getElem?_eq_getElem this] at hrs
    simp at hrs
  | some rs =>
    simp only
    have hmem : rs ∈ svc.rs := List.mem_of_getElem? hrs
    refine Avoids.bind (createSession_avoids (w := { w with cursors := Function.update w.cursors svc.idx cursor })
      hsafe.div _) ?_
    rintro ⟨w1, _ | i⟩ hmade
    · exact .ok ⟨hmade.idx, hmade.nowTick, fun _ h => by simp at h, hmade.reason,
        fun ha hc e _ => hmade.failed ⟨ha.fit, ha.idx, ha.noReturn⟩ hc _ rfl, fun _ _ _ h => by simp at h⟩
    · simp only
      rw [Mbuf.loadMac_eq (by omega), ok_bind]
      refine Avoids.bind (addRs_avoids (hsafe.counter svc hsvc rs hmem) _) fun w2 h2 => ?_
      -- the counters and events behind the assignment leave the sessions alone
      have hdone : ∀ w3, SameSessions w2 w3 → MadeNew dp snap svc w client (w3, .ok i) := by
        intro w3 h3
        have hsess : w3.sessions = w1.sessions.modify i (·.assigned rs svc (m.getMac 6)
            (decide (client.protocol = 6))
            (decide (snap.mode = .nat) && decide (client.protocol = 6) && dp.cfg.toa)) :=
          h3.sessions.trans h2.sessions
        have hat : w3.session i = (w1.sessions.sessions i).assigned rs svc (m.getMac 6)
            (decide (client.protocol = 6))
            (decide (snap.mode = .nat) && decide (client.protocol = 6) && dp.cfg.toa) := by
          unfold WorkerCtx.session
          rw [hsess, SessionTable.sessions_modify, if_pos rfl]
        refine ⟨h3.idx.trans (h2.idx.trans hmade.idx), h3.nowTick.trans (h2.nowTick.trans hmade.nowTick),
          fun j hj => ?_, fun _ h => by simp at h, fun _ _ _ h => by simp at h, fun ha hc j hj => ?_⟩
        · obtain rfl : i = j := by simpa using hj
          exact ⟨rs, hmem, by rw [hat]; rfl⟩
        · obtain rfl : i = j := by simpa using hj
          obtain ⟨server, hcr, hmode, hs⟩ := hmade.made ⟨ha.fit, ha.idx, ha.noReturn⟩ hc i rfl
          have hfresh := fresh_assigned hk hrs hcr hmode hs (m.getMac 6) (decide (client.protocol = 6))
            (decide (snap.mode = .nat) && decide (client.protocol = 6) && dp.cfg.toa)
          have hstep := hcr.modify (Fresh dp snap svc client w.idx)
            (fun s => assigned_sameInTable s rs svc (m.getMac 6) (decide (client.protocol = 6))
              (decide (snap.mode = .nat) && decide (client.protocol = 6) && dp.cfg.toa)) hfresh
          refine ⟨hsess ▸ hstep, ⟨hsess ▸ hstep.fit, ?_⟩, hat ▸ hfresh⟩
          rw [hsess, SessionTable.live_modify (assigned_sameInTable _ _ _ _ _ _).1]
          exact (hcr.live i).mpr (Or.inl rfl)
      split
      · exact .ok (hdone _ (.post w2 _))
      · exact .ok (hdone _ (.refl w2))

end New

/-! ### `handle_inbound` -/

section Inbound

variable {bad : Fault → Prop} {dp : Dataplane} {view : NeighView} {snap : Snapshot} {w : WorkerCtx} {m : Mbuf}
  {p : PacketMeta}

/-- The counters of the sessions that are found may be written. -/
def WorkerCtx.Safe (bad : Fault → Prop) (w : WorkerCtx) : Prop :=
  ∀ k i, w.sessions.lookup k = some i → CounterSafe bad (w.session i).rsId

/-- A packet with the client tuple ends the session at `i`. -/
def Ends (snap : Snapshot) (s : Session) (syn : Bool) : Prop :=
  (∀ r, snap.rs s.rsId = some r → r.usable = false) ∨ (syn = true ∧ tcpStateReusable s.state = true)

theorem findInbound_cases (w : WorkerCtx) (snap : Snapshot) (tuple : FiveTuple) (tcp syn : Bool) :
    (∃ i r, w.sessions.lookup tuple = some i ∧ snap.rs (w.session i).rsId = some r ∧ r.usable = true ∧
      ¬ Ends snap (w.session i) syn ∧ findInbound w snap tuple tcp syn = (w, .session i r)) ∨
    (w.sessions.lookup tuple = none ∧ findInbound w snap tuple tcp syn = (w, .none)) ∨
    ∃ i, w.sessions.lookup tuple = some i ∧ Ends snap (w.session i) syn ∧
      (findInbound w snap tuple tcp syn = (closeSession w i, .none) ∨
        ∃ reason : Stat, reason.ofSession = true ∧
          findInbound w snap tuple tcp syn = (closeSession w i, .drop reason)) := by
  unfold findInbound
  cases hl : w.sessions.lookup tuple with
  | none => exact Or.inr (Or.inl ⟨rfl, rfl⟩)
  | some i =>
    simp only
    cases hf : (snap.rs (w.session i).rsId).filter fun r =>
        r.usable && !(syn && tcpStateReusable (w.session i).state) with
    | some r =>
      obtain ⟨hr, hu⟩ := Option.filter_eq_some_iff.mp hf
      simp only [Bool.and_eq_true, Bool.not_eq_true', Bool.and_eq_false_iff] at hu
      refine Or.inl ⟨i, r, rfl, hr, hu.1, ?_, rfl⟩
      rintro (hd | ⟨h1, h2⟩)
      · rw [hd r hr] at hu
        simp at hu
      · simp [h1, h2] at hu
    | none =>
      refine Or.inr (Or.inr ⟨i, rfl, ?_, ?_⟩)
      · by_cases hreuse : syn = true ∧ tcpStateReusable (w.session i).state = true
        · exact Or.inr hreuse
        · refine Or.inl fun r hr => ?_
          rw [hr, Option.filter_some] at hf
          by_contra hu
          rw [Bool.not_eq_false] at hu
          have hno : (syn && tcpStateReusable (w.session i).state) = false := by
            rw [Bool.and_eq_false_iff, ← Bool.not_eq_true, ← Bool.not_eq_true]
            tauto
          simp [hu, hno] at hf
      · cases h : !syn && tcp with
        | false => exact Or.inl rfl
        | true => exact Or.inr ⟨_, by split <;> rfl, rfl⟩

/-- The worker after the comparison of the RSS hashes. -/
def rssChecked (dp : Dataplane) (w : WorkerCtx) (m : Mbuf) (p : PacketMeta) (redirected : Bool) : WorkerCtx :=
  if opensConnection p && dp.steering.hw && !redirected then rssCheck dp w m p.toFiveTuple else w

/-- What `handle_inbound` does at the owner, from the search for the session on:
the packet goes to the session that is found or to a new one, or is dropped. -/
inductive InboundCall (dp : Dataplane) (view : NeighView) (snap : Snapshot) (svc : Service) (m : Mbuf)
    (p : PacketMeta) (w : WorkerCtx) : Outcome → Prop
  | dropped {w1 : WorkerCtx} {reason : Stat}
      (hf : findInbound w snap p.toFiveTuple (p.ipProtocol == 6) (opensConnection p) = (w1, .drop reason)) :
      InboundCall dp view snap svc m p w (w1, m, .drop reason)
  | found {w1 : WorkerCtx} {i : ℕ} {rs : RsState} {o : Outcome}
      (hf : findInbound w snap p.toFiveTuple (p.ipProtocol == 6) (opensConnection p) = (w1, .session i rs))
      (ho : forwardInbound dp view w1 snap m p i rs false = .ok o) : InboundCall dp view snap svc m p w o
  | refused {w1 : WorkerCtx}
      (hf : findInbound w snap p.toFiveTuple (p.ipProtocol == 6) (opensConnection p) = (w1, .none))
      (hs : p.ipProtocol = 6 ∧ opensConnection p = false) :
      InboundCall dp view snap svc m p w (w1, m, .drop .dropNoSession)
  | failed {w1 w2 : WorkerCtx} {e : Stat}
      (hf : findInbound w snap p.toFiveTuple (p.ipProtocol == 6) (opensConnection p) = (w1, .none))
      (hs : ¬ (p.ipProtocol = 6 ∧ opensConnection p = false))
      (hn : newSession dp w1 snap svc p.toFiveTuple m = .ok (w2, .error e)) :
      InboundCall dp view snap svc m p w (w2, m, .drop e)
  | opened {w1 w2 : WorkerCtx} {i : ℕ} {rs : RsState} {o : Outcome}
      (hf : findInbound w snap p.toFiveTuple (p.ipProtocol == 6) (opensConnection p) = (w1, .none))
      (hs : ¬ (p.ipProtocol = 6 ∧ opensConnection p = false))
      (hn : newSession dp w1 snap svc p.toFiveTuple m = .ok (w2, .ok i))
      (hr : snap.rs (w2.session i).rsId = some rs)
      (ho : forwardInbound dp view w2 snap m p i rs true = .ok o) : InboundCall dp view snap svc m p w o

theorem inboundAtOwner_call (svc : Service) (redirected : Bool) :
    Ensures (inboundAtOwner dp view w snap svc m p redirected)
      (InboundCall dp view snap svc m p (rssChecked dp w m p redirected)) := by
  unfold inboundAtOwner rssChecked
  simp only [pure_eq_ok, throw_eq_error]
  generalize (if (opensConnection p && dp.steering.hw && !redirected) = true then
    rssCheck dp w m p.toFiveTuple else w) = w0
  generalize hf : findInbound w0 snap p.toFiveTuple (p.ipProtocol == 6) (opensConnection p) = found
  obtain ⟨w1, found⟩ := found
  cases found with
  | drop reason => exact .ok (.dropped hf)
  | session i rs => exact fun o ho => .found hf ho
  | none =>
    simp only [Bool.and_eq_true, beq_iff_eq, Bool.not_eq_true']
    split
    · rename_i hs
      exact .ok (.refused hf hs)
    · rename_i hs
      intro o ho
      obtain ⟨⟨w2, made⟩, hn, ho⟩ := bind_eq_ok.mp ho
      cases made with
      | error e => exact Except.ok.inj ho ▸ .failed hf hs hn
      | ok i =>
        simp only at ho
        cases hr : snap.rs (w2.session i).rsId with
        | none =>
          rw [hr] at ho
          cases ho
        | some rs =>
          rw [hr] at ho
          exact .opened hf hs hn hr ho

/-- A packet has been sent to a real server, on the session at `i`. -/
structure SentOn (snap : Snapshot) (m : Mbuf) (p : PacketMeta) (i : ℕ) (o : Outcome) : Prop where
  found : o.1.sessions.lookup p.toFiveTuple = some i
  frame : SentToServer snap (o.1.session i) m p o.2.1
  rs : ∃ r, snap.rs (o.1.session i).rsId = some r

/-- The session is the one there was, or it is new and there was none that
could be used. -/
structure SentInbound (dp : Dataplane) (snap : Snapshot) (svc : Service) (w : WorkerCtx) (m : Mbuf)
    (p : PacketMeta) (i : ℕ) (o : Outcome) : Prop extends SentOn snap m p i o where
  session : (w.sessions.lookup p.toFiveTuple = some i ∧ (o.1.session i).ident = (w.session i).ident ∧
      ¬ Ends snap (w.session i) (opensConnection p)) ∨
    (Fresh dp snap svc p.toFiveTuple w.idx (o.1.session i).ident ∧
      ∀ j, w.sessions.lookup p.toFiveTuple = some j → Ends snap (w.session j) (opensConnection p))

/-- What `handle_inbound` has done at the owner. -/
structure InboundPost (dp : Dataplane) (snap : Snapshot) (svc : Service) (w : WorkerCtx) (m : Mbuf)
    (p : PacketMeta) (o : Outcome) : Prop where
  step : Admits dp snap w p.toFiveTuple → WorkerStep (Fresh dp snap svc p.toFiveTuple w.idx) w o.1
  verdict : (o.2.2 = .send ∧ (Admits dp snap w p.toFiveTuple → ∃ i, SentInbound dp snap svc w m p i o)) ∨
    o.2.2.Dropped

/-- The session of a packet that is sent. -/
theorem InboundPost.sent {svc : Service} {o : Outcome} (h : InboundPost dp snap svc w m p o)
    (ha : Admits dp snap w p.toFiveTuple) (hsend : o.2.2 = .send) : ∃ i, SentInbound dp snap svc w m p i o := by
  rcases h.verdict with ⟨-, hsent⟩ | hd
  · exact hsent ha
  · exact absurd hsend hd.ne_send

/-- What the part of `handle_inbound` has done that opens a session. -/
structure Opened (dp : Dataplane) (snap : Snapshot) (svc : Service) (w : WorkerCtx) (m : Mbuf)
    (p : PacketMeta) (o : Outcome) : Prop where
  step : Admits dp snap w p.toFiveTuple → w.sessions.lookup p.toFiveTuple = none →
    WorkerStep (Fresh dp snap svc p.toFiveTuple w.idx) w o.1
  verdict : (o.2.2 = .send ∧ (Admits dp snap w p.toFiveTuple → w.sessions.lookup p.toFiveTuple = none →
      ∃ i, SentOn snap m p i o ∧ Fresh dp snap svc p.toFiveTuple w.idx (o.1.session i).ident)) ∨
    o.2.2.Dropped

theorem Admits.step {w' : WorkerCtx} {New : SessionId → Prop} {client : FiveTuple} (h : Admits dp snap w client)
    (hs : WorkerStep New w w') : Admits dp snap w' client :=
  ⟨hs.fit, by rw [hs.idx]; exact h.idx, h.noReturn⟩

theorem Admits.has {client k : FiveTuple} {i : ℕ} (h : Admits dp snap w client)
    (hi : w.sessions.lookup k = some i) : w.Has i :=
  ⟨h.fit, ((h.fit.lookup_iff k i).mp hi).1⟩

/-- The keys of a closed session are free. -/
theorem lookup_closeSession {k : FiveTuple} {i : ℕ} (h : w.Has i) (hi : w.sessions.lookup k = some i) :
    (closeSession w i).sessions.lookup k = none := by
  by_contra hne
  obtain ⟨j, hj⟩ := Option.ne_none_iff_exists'.mp hne
  have hs : WorkerStep (fun _ => False) w (closeSession w i) := closeSession_step h
  obtain ⟨hl, hk⟩ := (hs.fit.lookup_iff k j).mp hj
  obtain ⟨hlj, hji⟩ := (h.fit.live_remove h.live j).mp hl
  obtain ⟨-, he⟩ := (hs.table.live j hl).resolve_right id
  rw [Session.hasKey_of_ident he] at hk
  rw [(h.fit.lookup_iff k j).mpr ⟨hlj, hk⟩] at hi
  exact hji (Option.some.inj hi)

namespace InboundPost

variable {w1 : WorkerCtx} {svc : Service} {o : Outcome}

/-- What has been done after a step that leaves the sessions alone. -/
theorem of_same (hs : SameSessions w w1) (h : InboundPost dp snap svc w1 m p o) :
    InboundPost dp snap svc w m p o := by
  have ha : Admits dp snap w p.toFiveTuple → Admits dp snap w1 p.toFiveTuple := fun ha =>
    ha.step (hs.step ha.fit : WorkerStep (fun _ => False) w w1)
  refine ⟨fun hw => ?_, h.verdict.imp_left fun ⟨hsend, hi⟩ => ⟨hsend, fun hw => ?_⟩⟩
  · have h2 := h.step (ha hw)
    rw [hs.idx] at h2
    exact (hs.step hw.fit).trans h2
  · obtain ⟨i, hi⟩ := hi (ha hw)
    refine ⟨i, hi.toSentOn, ?_⟩
    have hx := hi.session
    simp only [hs.session, hs.sessions, hs.idx] at hx
    exact hx

/-- A session has been opened when there was none, or none that could be used. -/
theorem of_opened (hs : Admits dp snap w p.toFiveTuple → WorkerStep (fun _ => False) w w1)
    (hidx : w1.idx = w.idx)
    (hnone : Admits dp snap w p.toFiveTuple → w1.sessions.lookup p.toFiveTuple = none)
    (he : ∀ j, w.sessions.lookup p.toFiveTuple = some j → Ends snap (w.session j) (opensConnection p))
    (h : Opened dp snap svc w1 m p o) : InboundPost dp snap svc w m p o := by
  refine ⟨fun hw => ?_, h.verdict.imp_left fun ⟨hsend, hsent⟩ => ⟨hsend, fun hw => ?_⟩⟩
  · refine ((hs hw).mono fun _ => False.elim).trans ?_
    rw [← hidx]
    exact h.step (hw.step (hs hw)) (hnone hw)
  · obtain ⟨i, hi, hf⟩ := hsent (hw.step (hs hw)) (hnone hw)
    exact ⟨i, hi, Or.inr ⟨hidx ▸ hf, he⟩⟩

theorem dropped {reason : Stat} (hs : Admits dp snap w p.toFiveTuple → WorkerStep (fun _ => False) w w1)
    (hr : reason.ofSession = true) : InboundPost dp snap svc w m p (w1, m, .drop reason) :=
  ⟨fun hw => (hs hw).mono fun _ => False.elim, Or.inr ⟨reason, hr, rfl⟩⟩

end InboundPost

theorem sentToServer_of_ident {s s' : Session} (he : s'.ident = s.ident) {m' : Mbuf}
    (h : SentToServer snap s m p m') : SentToServer snap s' m p m' := by
  have : s'.server = s.server := congrArg SessionId.server he
  unfold SentToServer at h ⊢
  rw [this]
  exact h

/-- A packet on the session that has been found. -/
theorem foundInbound_avoids {svc : Service} {i : ℕ} {r : RsState} (h : Parsed m p)
    (hproto : p.ipProtocol = 6 ∨ p.ipProtocol = 17) (hw : w.Safe bad)
    (hi : w.sessions.lookup p.toFiveTuple = some i) (hr : snap.rs (w.session i).rsId = some r)
    (he : ¬ Ends snap (w.session i) (opensConnection p)) :
    Avoids bad (forwardInbound dp view w snap m p i r false) (InboundPost dp snap svc w m p) := by
  refine (forwardInbound_avoids h hproto (hw _ _ hi) r false).mono fun o ho => ?_
  refine ⟨fun ha => (ho.step (ha.has hi)).mono fun _ => False.elim, ho.verdict.imp_left ?_⟩
  rintro ⟨hsend, hk, hP⟩
  refine ⟨hsend, fun ha => ⟨i, ⟨hk.lookup ha.fit hi, sentToServer_of_ident hk.ident hP, r, ?_⟩,
    Or.inl ⟨hi, hk.ident, he⟩⟩⟩
  rw [show (o.1.session i).rsId = (w.session i).rsId from congrArg SessionId.rsId hk.ident]
  exact hr

/-- A packet that opens a session. -/
theorem openInbound_avoids {svc : Service} (h : Parsed m p) (hproto : p.ipProtocol = 6 ∨ p.ipProtocol = 17)
    (hsafe : snap.Safe bad dp) (hsvc : svc ∈ snap.services) :
    Avoids bad (do
      let (w, made) ← newSession dp w snap svc p.toFiveTuple m
      match made with
      | .error fail => return (w, m, .drop fail)
      | .ok i =>
        match snap.rs (w.session i).rsId with
        | none => throw .null
        | some rs => forwardInbound dp view w snap m p i rs true) (Opened dp snap svc w m p) := by
  have hlen := h.headers_le
  refine Avoids.bind (newSession_avoids hsafe hsvc (by omega)) ?_
  rintro ⟨w1, fail | i⟩ hm
  · refine .ok ⟨fun ha hnone => ?_, Or.inr ⟨fail, hm.reason fail rfl, rfl⟩⟩
    exact SameSessions.step ⟨hm.idx, hm.nowTick, hm.failed ha hnone fail rfl⟩ ha.fit
  obtain ⟨r, hr, hid⟩ := hm.rs i rfl
  simp only at hid ⊢
  cases hrs : snap.rs (w1.session i).rsId with
  | none =>
    refine .error fun hb => ?_
    have := hsafe.null hb svc hsvc r hr
    rw [← hid, hrs] at this
    simp at this
  | some rs =>
    simp only
    have hc : CounterSafe bad (w1.session i).rsId := hid ▸ hsafe.counter svc hsvc r hr
    refine (forwardInbound_avoids h hproto hc rs true).mono fun o ho => ?_
    refine ⟨fun ha hnone => ?_, ho.verdict.imp_left ?_⟩
    · obtain ⟨hstep, hhas, -⟩ := hm.made ha hnone i rfl
      exact WorkerStep.trans ⟨hm.idx, hm.nowTick, hstep⟩ ((ho.step hhas).mono fun _ => False.elim)
    · rintro ⟨hsend, hk, hP⟩
      refine ⟨hsend, fun ha hnone => ?_⟩
      obtain ⟨hstep, hhas, hfresh⟩ := hm.made ha hnone i rfl
      obtain ⟨hs2, hl2⟩ := hk.step hhas
      have hclient : (o.1.session i).client = p.toFiveTuple := by
        rw [show (o.1.session i).client = (w1.session i).client from congrArg SessionId.client hk.ident]
        exact hfresh.client_eq
      refine ⟨i, ⟨?_, sentToServer_of_ident hk.ident hP, rs, ?_⟩, hk.ident ▸ hfresh⟩
      · rw [hs2.fit.lookup_iff]
        exact ⟨hl2, Or.inl hclient.symm⟩
      · rw [show (o.1.session i).rsId = (w1.session i).rsId from congrArg SessionId.rsId hk.ident]
        exact hrs

theorem inboundAtOwner_avoids {svc : Service} (h : Parsed m p) (hproto : p.ipProtocol = 6 ∨ p.ipProtocol = 17)
    (hsafe : snap.Safe bad dp) (hsvc : svc ∈ snap.services) (hw : w.Safe bad) (redirected : Bool) :
    Avoids bad (inboundAtOwner dp view w snap svc m p redirected) (InboundPost dp snap svc w m p) := by
  unfold inboundAtOwner
  simp only
  have hsame : SameSessions w
      (if (opensConnection p && dp.steering.hw && !redirected) = true then rssCheck dp w m p.toFiveTuple else w) :=
    .ite (.rssCheck dp w m _) (.refl w)
  generalize (if (opensConnection p && dp.steering.hw && !redirected) = true then
    rssCheck dp w m p.toFiveTuple else w) = w1 at hsame ⊢
  have hw1 : w1.Safe bad := by
    intro k i hi
    rw [hsame.session]
    exact hw k i (hsame.sessions ▸ hi)
  refine Avoids.mono (P := InboundPost dp snap svc w1 m p) ?_ fun o ho => ho.of_same hsame
  rcases findInbound_cases w1 snap p.toFiveTuple (p.ipProtocol == 6) (opensConnection p) with
    ⟨i, r, hi, hr, -, he, hf⟩ | ⟨hnone, hf⟩ | ⟨i, hi, he, hf | ⟨reason, hreason, hf⟩⟩
  · rw [hf]
    exact foundInbound_avoids h hproto hw1 hi hr he
  · rw [hf]
    refine Avoids.ite (fun _ => .ok (.dropped (fun ha => .refl ha.fit) rfl)) fun _ => ?_
    refine (openInbound_avoids h hproto hsafe hsvc).mono fun o ho => ?_
    exact .of_opened (fun ha => .refl ha.fit) rfl (fun _ => hnone) (fun j hj => by simp [hnone] at hj) ho
  · rw [hf]
    refine Avoids.ite (fun _ => .ok (.dropped (fun ha => closeSession_step (ha.has hi)) rfl)) fun _ => ?_
    refine (openInbound_avoids h hproto hsafe hsvc).mono fun o ho => ?_
    refine .of_opened (fun ha => closeSession_step (ha.has hi)) rfl
      (fun ha => lookup_closeSession (ha.has hi) hi) (fun j hj => ?_) ho
    obtain rfl : i = j := by simpa [hi] using hj
    exact he
  · rw [hf]
    exact .ok (.dropped (fun ha => closeSession_step (ha.has hi)) hreason)

end Inbound

/-! ### `handle_return` and `handle_icmp_error` -/

section OnSession

variable {bad : Fault → Prop} {dp : Dataplane} {view : NeighView} {snap : Snapshot} {w : WorkerCtx} {m : Mbuf}
  {p : PacketMeta} {key : FiveTuple} {C : Session → Prop} {P : Session → Mbuf → Prop}

/-- What comes of a packet for the session under `key`: it is sent on that
session, which satisfies `C`, with a frame that satisfies `P`, or dropped. -/
structure OnSession (w : WorkerCtx) (key : FiveTuple) (C : Session → Prop) (P : Session → Mbuf → Prop)
    (o : Outcome) : Prop where
  step : Fit w.sessions → WorkerStep (fun _ => False) w o.1
  verdict : (o.2.2 = .send ∧ ∃ i, w.sessions.lookup key = some i ∧ C (w.session i) ∧ Keeps i w o.1 ∧
      P (w.session i) o.2.1) ∨ o.2.2.Dropped

namespace OnSession

variable {o : Outcome} {i : ℕ}

/-- The session of a packet that is sent. -/
theorem sent (h : OnSession w key C P o) (hsend : o.2.2 = .send) :
    ∃ i, w.sessions.lookup key = some i ∧ C (w.session i) ∧ Keeps i w o.1 ∧ P (w.session i) o.2.1 := by
  rcases h.verdict with ⟨-, hsent⟩ | hd
  · exact hsent
  · exact absurd hsend hd.ne_send

theorem of_forwarded (hi : w.sessions.lookup key = some i) (hC : C (w.session i))
    (h : Forwarded i w (P (w.session i)) o) : OnSession w key C P o := by
  refine ⟨fun hf => h.step ⟨hf, ((hf.lookup_iff key i).mp hi).1⟩, h.verdict.imp_left ?_⟩
  rintro ⟨hsend, hk, hP⟩
  exact ⟨hsend, i, hi, hC, hk, hP⟩

theorem of_same {w' : WorkerCtx} (hs : SameSessions w w') (h : OnSession w' key C P o) :
    OnSession w key C P o := by
  refine ⟨fun hf => (hs.step hf).trans (h.step (hs.sessions ▸ hf)), h.verdict.imp_left ?_⟩
  rintro ⟨hsend, i, hi, hC, hk, hP⟩
  rw [hs.session] at hC hP
  exact ⟨hsend, i, hs.sessions ▸ hi, hC, (hs.keeps i).trans hk, hP⟩

theorem dropped {reason : Stat} (m : Mbuf) (hr : reason.ofSession = true) :
    OnSession w key C P (w, m, .drop reason) :=
  ⟨fun hf => .refl hf, Or.inr ⟨reason, hr, rfl⟩⟩

theorem closed {reason : Stat} (hi : w.sessions.lookup key = some i) (m : Mbuf) (hr : reason.ofSession = true) :
    OnSession w key C P (closeSession w i, m, .drop reason) :=
  ⟨fun hf => closeSession_step ⟨hf, ((hf.lookup_iff key i).mp hi).1⟩, Or.inr ⟨reason, hr, rfl⟩⟩

end OnSession

/-- The session a packet of a real server belongs to. -/
def ReturnsTo (snap : Snapshot) (key : FiveTuple) (s : Session) : Prop :=
  s.fullnat = true ∧ s.server = key ∧ ∃ r, snap.rs s.rsId = some r ∧ r.usable = true

/-- The worker when `handle_return` has advanced the session at `i` and asked
for the next hop. -/
def answered (dp : Dataplane) (view : NeighView) (w : WorkerCtx) (m : Mbuf) (p : PacketMeta) (i : ℕ) : WorkerCtx :=
  (resolveClientMac dp view ((updateState dp w i p.tcpFlags .rsToClient).setSession i
    (·.returned p.tcpFlags m.pktLen)) i).1

/-- What `handle_return` does at the owner: the packet is no session's, or ends
it, or is counted on it and sent, or dropped. -/
inductive ReturnCall (dp : Dataplane) (view : NeighView) (snap : Snapshot) (w : WorkerCtx) (m : Mbuf)
    (p : PacketMeta) : Outcome → Prop
  | unknown (hno : ∀ i, w.sessions.lookup p.toFiveTuple = some i → ¬ ReturnsTo snap p.toFiveTuple (w.session i)) :
      ReturnCall dp view snap w m p (w, m, .drop .dropNoSession)
  | down {i : ℕ} (hi : w.sessions.lookup p.toFiveTuple = some i)
      (hno : ¬ ReturnsTo snap p.toFiveTuple (w.session i)) :
      ReturnCall dp view snap w m p (closeSession w i, m, .drop .dropRsDown)
  | dropped {i : ℕ} {reason : Stat} (m' : Mbuf) (hi : w.sessions.lookup p.toFiveTuple = some i)
      (hr : reason = .dropNoNeigh ∨ reason = .dropTtl) :
      ReturnCall dp view snap w m p (answered dp view w m p i, m', .drop reason)
  | sent {i : ℕ} {w' : WorkerCtx} (m' : Mbuf) (hi : w.sessions.lookup p.toFiveTuple = some i)
      (h : countFwdOut (answered dp view w m p i) i m' = .ok w') : ReturnCall dp view snap w m p (w', m', .send)

theorem returnAtOwner_call : Ensures (returnAtOwner dp view w snap m p) (ReturnCall dp view snap w m p) := by
  unfold returnAtOwner
  simp only [pure_eq_ok]
  cases hi : w.sessions.lookup p.toFiveTuple with
  | none => exact .ok (.unknown fun i h => by simp [hi] at h)
  | some i =>
    simp only
    split
    · rename_i hn
      refine .ok (.unknown fun j hj hr => ?_)
      obtain rfl : i = j := Option.some.inj (hi.symm.trans hj)
      simp [hr.1, hr.2.1] at hn
    split
    · rename_i hn
      refine .ok (.down hi fun hr => ?_)
      obtain ⟨r, hrs, hu⟩ := hr.2.2
      simp [hrs, hu] at hn
    have hdrop := fun (m' : Mbuf) {reason : Stat} => @ReturnCall.dropped dp view snap w m p i reason m' hi
    have hsent := fun (m' : Mbuf) {w' : WorkerCtx} => @ReturnCall.sent dp view snap w m p i w' m' hi
    unfold answered at hdrop hsent
    generalize resolveClientMac dp view _ i = res at hdrop hsent ⊢
    rcases res with ⟨w1, _ | mac⟩
    · exact .ok (hdrop m (Or.inl rfl))
    · refine .after fun r => .ite (.ok (hdrop _ (Or.inr rfl))) fun o ho => ?_
      obtain ⟨w2, h2, ho⟩ := bind_eq_ok.mp ho
      exact Except.ok.inj ho ▸ hsent _ h2

theorem returnAtOwner_avoids (h : Parsed m p) (hproto : p.ipProtocol = 6 ∨ p.ipProtocol = 17) (hw : w.Safe bad) :
    Avoids bad (returnAtOwner dp view w snap m p)
      (OnSession w p.toFiveTuple (ReturnsTo snap p.toFiveTuple) fun s => Carries p s.client.reverse) := by
  unfold returnAtOwner
  simp only [pure_eq_ok]
  cases hl : w.sessions.lookup p.toFiveTuple with
  | none => exact .ok (.dropped m rfl)
  | some i =>
    simp only
    refine Avoids.ite (fun _ => .ok (.dropped m rfl)) fun hs => ?_
    refine Avoids.ite (fun _ => .ok (.closed hl m rfl)) fun hu => ?_
    have hC : ReturnsTo snap p.toFiveTuple (w.session i) := by
      simp only [Bool.not_eq_true', Bool.not_eq_false, Bool.and_eq_true, beq_iff_eq, Option.any_eq_true] at hs hu
      exact ⟨hs.1, hs.2, hu⟩
    refine Avoids.mono ?_ fun o ho => .of_forwarded hl hC ho
    have hk1 := (Keeps.updateState dp w i p.tcpFlags .rsToClient).trans
      (.setSession _ i (quiet_returned p.tcpFlags m.pktLen))
    generalize (updateState dp w i p.tcpFlags .rsToClient).setSession i (·.returned p.tcpFlags m.pktLen) = w1
      at hk1 ⊢
    have hk2 := hk1.trans (Keeps.resolveClientMac dp view w1 i)
    generalize resolveClientMac dp view w1 i = res at hk2 ⊢
    rcases res with ⟨w2, _ | mac⟩
    · exact .ok (.dropped hk2 _ _ rfl)
    · simp only at hk2 ⊢
      refine Avoids.bind (carries_natRewrite h hproto _ _).avoids ?_
      rintro ⟨res, m', p', out⟩ hm'
      simp only at hm' ⊢
      refine Avoids.ite (fun _ => .ok (.dropped hk2 _ _ rfl)) fun hok => ?_
      have hrs : (w2.session i).rsId = (w.session i).rsId := congrArg SessionId.rsId hk2.ident
      have hclient : (w2.session i).client = (w.session i).client := congrArg SessionId.client hk2.ident
      refine Avoids.bind (countFwdOut_avoids (by rw [hrs]; exact hw _ _ hl) m') fun w3 h3 => ?_
      refine .ok (.sent (hk2.trans (h3.keeps i)) ?_)
      rw [Carries, hm' (not_not.mp hok), ← hclient]
      rfl

theorem icmpToClient_avoids {info : IcmpErrorInfo} (h : Parsed m p) (hq : Quoted m p info) :
    Avoids bad (icmpToClient dp view w m p info)
      (OnSession w info.inner.reverse (·.server = info.inner.reverse) fun _ _ => True) := by
  unfold icmpToClient
  simp only [pure_eq_ok]
  cases hl : w.sessions.lookup info.inner.reverse with
  | none => exact .ok (.dropped m rfl)
  | some i =>
    simp only
    refine Avoids.ite (fun _ => .ok (.dropped m rfl)) fun hs => ?_
    refine Avoids.mono ?_ fun o ho => .of_forwarded hl (not_not.mp hs) ho
    have hk := Keeps.resolveClientMac dp view w i
    generalize resolveClientMac dp view w i = res at hk ⊢
    rcases res with ⟨w1, _ | mac⟩
    · exact .ok (.dropped hk _ _ rfl)
    · simp only at hk ⊢
      rw [natRewriteIcmpError_eq h hq, ok_bind]
      refine Avoids.ite (fun _ => .ok (.dropped hk _ _ rfl)) fun _ => ?_
      exact .ok (.sent (hk.trans ((SameSessions.count w1 _).keeps i)) trivial)

/-- The session an ICMP error for a real server belongs to. -/
def QuotedBy (snap : Snapshot) (key : FiveTuple) (s : Session) : Prop :=
  s.client = key ∧ ∃ r, snap.rs s.rsId = some r

theorem icmpToServer_avoids {info : IcmpErrorInfo} (h : Parsed m p) (hq : Quoted m p info) :
    Avoids bad (icmpToServer dp view w snap m p info)
      (OnSession w info.inner.reverse (QuotedBy snap info.inner.reverse) fun _ _ => True) := by
  unfold icmpToServer
  simp only [pure_eq_ok]
  cases hl : w.sessions.lookup info.inner.reverse with
  | none => exact .ok (.dropped m rfl)
  | some i =>
    simp only
    refine Avoids.ite (fun _ => .ok (.dropped m rfl)) fun hs => ?_
    cases hr : snap.rs (w.session i).rsId with
    | none => exact .ok (.dropped m rfl)
    | some r =>
      simp only
      refine Avoids.mono ?_ fun o ho => .of_forwarded hl ⟨not_not.mp hs, r, hr⟩ ho
      have hk := Keeps.resolveRsMac dp view w i r
      generalize resolveRsMac dp view w i r = res at hk ⊢
      rcases res with ⟨w1, _ | mac⟩
      · exact .ok (.dropped hk _ _ rfl)
      · simp only at hk ⊢
        have hsent : ∀ m', Forwarded i w (fun _ => True) (w1.count .icmpErrFwd, m', .send) := fun m' =>
          .sent (hk.trans ((SameSessions.count w1 _).keeps i)) trivial
        refine Avoids.ite (fun _ => ?_) fun _ => ?_
        · exact Avoids.bind (relayed_drRewrite h dp.localMac mac).avoids fun m' _ => .ok (hsent m')
        · rw [natRewriteIcmpError_eq h hq, ok_bind]
          exact Avoids.ite (fun _ => .ok (.dropped hk _ _ rfl)) fun _ => .ok (hsent _)

end OnSession

end L4Lb
