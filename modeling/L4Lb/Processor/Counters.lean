/-
# The counters of drops

`StatsTotal::drops` of `src/common/stats.cpp` sums the counters of dropped
packets. `process_packet` writes none of them: it names the reason of a drop,
one of the counters from `ST_DROP_MALFORMED` to `ST_DROP_OTHER`, and leaves it
to `handle` to count it.
-/
import L4Lb.Processor.Paths
import L4Lb.Processor.Icmp

open Checked

namespace L4Lb

/-- The counters that are summed. -/
def Stat.dropStats : List Stat := .txFull :: .dropRxRing :: Stat.dropReasons

/-- `StatsTotal::drops`. -/
def drops (c : Stat → ℕ) : ℕ := c .txFull + c .dropRxRing + (Stat.dropReasons.map c).sum

theorem drops_eq_sum (c : Stat → ℕ) : drops c = (Stat.dropStats.map c).sum := by
  simp only [drops, Stat.dropStats, List.map_cons, List.sum_cons]
  omega

/-- The counters of drops stay as they are. -/
def SameDrops (w w' : WorkerCtx) : Prop := ∀ s ∈ Stat.dropStats, w'.stats s = w.stats s

namespace SameDrops

variable {w w' w'' : WorkerCtx}

theorem refl (w : WorkerCtx) : SameDrops w w := fun _ _ => rfl

theorem trans (h : SameDrops w w') (h' : SameDrops w' w'') : SameDrops w w'' :=
  fun s hs => (h' s hs).trans (h s hs)

theorem of_stats (h : w'.stats = w.stats) : SameDrops w w' := fun _ _ => by rw [h]

theorem count (w : WorkerCtx) {s : Stat} (hs : s ∉ Stat.dropStats) : SameDrops w (w.count s) := fun s' hs' => by
  show Function.update w.stats s _ s' = _
  rw [Function.update_of_ne]
  rintro rfl
  exact hs hs'

theorem ite {c : Prop} {_ : Decidable c} {a b : WorkerCtx} (ha : SameDrops w a) (hb : SameDrops w b) :
    SameDrops w (if c then a else b) := by
  split
  · exact ha
  · exact hb

theorem rssCheck (dp : Dataplane) (w : WorkerCtx) (m : Mbuf) (t : FiveTuple) :
    SameDrops w (rssCheck dp w m t) := by
  unfold L4Lb.rssCheck
  exact .ite (.count w (by decide)) (.ite (.count w (by decide)) (.refl w))

theorem countOutcome (w : WorkerCtx) (out : RewriteOutcome) : SameDrops w (countOutcome w out) := by
  have step : ∀ (b : Bool) (w : WorkerCtx) {s : Stat}, s ∉ Stat.dropStats → SameDrops w (if b then w.count s else w) :=
    fun b w s hs => .ite (.count w hs) (.refl w)
  exact ((step _ w (by decide)).trans (step _ _ (by decide))).trans (step _ _ (by decide))

theorem closeSession (w : WorkerCtx) (i : ℕ) : SameDrops w (closeSession w i) := .count _ (by decide)

theorem addRs (w : WorkerCtx) (id : ℕ) (f : RsCounters → RsCounters) : Ensures (w.addRs id f) (SameDrops w) :=
  .ite (.ok (.refl w)) .error

end SameDrops

/-- The verdict leaves the counters of drops alone and names one for a drop. -/
structure Tallied (w : WorkerCtx) (o : Outcome) : Prop where
  same : SameDrops w o.1
  reason : ∀ e, o.2.2 = .drop e → e ∈ Stat.dropReasons

namespace Tallied

variable {w w' : WorkerCtx} {m : Mbuf}

theorem dropped (h : SameDrops w w') {e : Stat} (he : e ∈ Stat.dropReasons) : Tallied w (w', m, .drop e) :=
  ⟨h, fun _ h' => Result.drop.inj h' ▸ he⟩

theorem sent (h : SameDrops w w') : Tallied w (w', m, .send) := ⟨h, fun _ h' => by simp at h'⟩

theorem consumed (h : SameDrops w w') : Tallied w (w', m, .consumed) := ⟨h, fun _ h' => by simp at h'⟩

theorem notOwner (w : WorkerCtx) (redirected : Bool) (k : ℕ) : Tallied w (w, m, notOwner redirected k) := by
  cases redirected with
  | false => exact ⟨.refl w, fun _ h' => by simp [L4Lb.notOwner] at h'⟩
  | true => exact dropped (.refl w) (by decide)

theorem of_same {o : Outcome} (h : Tallied w' o) (hs : SameDrops w w') : Tallied w o := ⟨hs.trans h.same, h.reason⟩

end Tallied

section Handlers

variable {dp : Dataplane} {view : NeighView} {snap : Snapshot} {w : WorkerCtx} {m : Mbuf} {p : PacketMeta}

theorem resolveRsMac_stats (dp : Dataplane) (view : NeighView) (w : WorkerCtx) (i : ℕ) (rs : RsState) :
    (resolveRsMac dp view w i rs).1.stats = w.stats := by
  unfold resolveRsMac
  split <;> rfl

theorem resolveClientMac_stats (dp : Dataplane) (view : NeighView) (w : WorkerCtx) (i : ℕ) :
    (resolveClientMac dp view w i).1.stats = w.stats := rfl

theorem countFwdIn_tallied (i : ℕ) (m : Mbuf) : Ensures (countFwdIn w i m) (SameDrops w) := by
  unfold countFwdIn
  exact (SameDrops.addRs _ _ _).mono fun _ h => .trans (.count w (by decide)) h

theorem countFwdOut_tallied (i : ℕ) (m : Mbuf) : Ensures (countFwdOut w i m) (SameDrops w) := by
  unfold countFwdOut
  exact (SameDrops.addRs _ _ _).mono fun _ h => .trans (.count w (by decide)) h

/-- What a function that makes a session does to the counters. -/
def MadeTallied (w : WorkerCtx) (x : WorkerCtx × Except Stat ℕ) : Prop :=
  SameDrops w x.1 ∧ ∀ e, x.2 = .error e → e ∈ Stat.dropReasons

theorem MadeTallied.refused {w' : WorkerCtx} (h : SameDrops w w') {e : Stat} (he : e ∈ Stat.dropReasons) :
    MadeTallied w (w', .error e) := ⟨h, fun _ h' => Except.error.inj h' ▸ he⟩

theorem MadeTallied.made {w' : WorkerCtx} (h : SameDrops w w') (i : ℕ) : MadeTallied w (w', .ok i) :=
  ⟨h, fun _ h' => by simp at h'⟩

theorem createSession_tallied (client : FiveTuple) (rs : RsState) (timeout : ℕ) :
    Ensures (createSession dp w snap client rs timeout) (MadeTallied w) := by
  refine (createSession_call client rs timeout).mono fun x hx => ?_
  cases hx with
  | refused cursors => exact .refused (.of_stats rfl) (by decide)
  | full cursors hfree hcall => exact .refused (.of_stats rfl) (by decide)
  | made cursors rr hfree hcall => exact .made (.of_stats rfl) _

theorem newSession_tallied (svc : Service) (tuple : FiveTuple) (m : Mbuf) :
    Ensures (newSession dp w snap svc tuple m) (MadeTallied w) := by
  unfold newSession
  simp only [pure_eq_ok, throw_eq_error]
  split
  · exact .ok (.refused (.of_stats rfl) (by decide))
  split
  · exact .error
  refine .bind (createSession_tallied tuple _ _) ?_
  rintro ⟨w1, made⟩ ⟨h1, hr⟩
  cases made with
  | error e => exact .ok (.refused (.trans (.of_stats rfl) h1) (hr e rfl))
  | ok i =>
    refine .after fun srcMac => .bind (SameDrops.addRs _ _ _) fun w2 h2 => ?_
    have hw : SameDrops w w2 := .trans (.trans (.of_stats rfl) h1) (.trans (.count _ (by decide)) h2)
    exact .ite (.ok (.made (.trans hw (.of_stats rfl)) i)) (.ok (.made hw i))

theorem forwardInbound_tallied (i : ℕ) (rs : RsState) (isNew : Bool) :
    Ensures (forwardInbound dp view w snap m p i rs isNew) (Tallied w) := by
  refine (forwardInbound_call i rs isNew).mono fun o ho => ?_
  have h1 : SameDrops w (advanced dp view w m p i rs) := .of_stats (resolveRsMac_stats dp view _ i rs)
  cases ho with
  | dropped m' hr =>
    refine .dropped (.ite (h1.trans (.closeSession _ _)) h1) ?_
    rcases hr with rfl | rfl <;> decide
  | sent out m' hc => exact .sent ((h1.trans (.countOutcome _ _)).trans (countFwdIn_tallied i m' _ hc))

theorem findInbound_tallied (w : WorkerCtx) (snap : Snapshot) (tuple : FiveTuple) (tcp syn : Bool) :
    SameDrops w (findInbound w snap tuple tcp syn).1 ∧
      ∀ e, (findInbound w snap tuple tcp syn).2 = .drop e → e ∈ Stat.dropReasons := by
  unfold findInbound
  split
  · exact ⟨.refl w, fun _ h => by simp at h⟩
  simp only
  split
  · exact ⟨.refl w, fun _ h => by simp at h⟩
  · refine ⟨.closeSession w _, fun e he => ?_⟩
    simp only at he
    split at he
    · obtain rfl := Found.drop.inj he
      split <;> decide
    · simp at he

theorem inboundAtOwner_tallied (svc : Service) (redirected : Bool) :
    Ensures (inboundAtOwner dp view w snap svc m p redirected) (Tallied w) := by
  refine (inboundAtOwner_call svc redirected).mono fun o ho => ?_
  have h0 : SameDrops w (rssChecked dp w m p redirected) := .ite (.rssCheck dp w m _) (.refl w)
  generalize rssChecked dp w m p redirected = w0 at h0 ho
  obtain ⟨hfind, hreason⟩ := findInbound_tallied w0 snap p.toFiveTuple (p.ipProtocol == 6) (opensConnection p)
  have h1 : ∀ {w1 : WorkerCtx} {found : Found},
      findInbound w0 snap p.toFiveTuple (p.ipProtocol == 6) (opensConnection p) = (w1, found) → SameDrops w w1 := by
    intro w1 found hf
    rw [hf] at hfind
    exact h0.trans hfind
  cases ho with
  | dropped hf => exact .dropped (h1 hf) (hreason _ (congrArg Prod.snd hf))
  | found hf ho => exact (forwardInbound_tallied _ _ false o ho).of_same (h1 hf)
  | refused hf hs => exact .dropped (h1 hf) (by decide)
  | failed hf hs hn =>
    obtain ⟨h2, hr⟩ := newSession_tallied svc _ m _ hn
    exact .dropped ((h1 hf).trans h2) (hr _ rfl)
  | opened hf hs hn hr ho =>
    exact (forwardInbound_tallied _ _ true o ho).of_same ((h1 hf).trans (newSession_tallied svc _ m _ hn).1)

theorem returnAtOwner_tallied : Ensures (returnAtOwner dp view w snap m p) (Tallied w) := by
  refine returnAtOwner_call.mono fun o ho => ?_
  have h1 : ∀ i, SameDrops w (answered dp view w m p i) := fun i => .of_stats (resolveClientMac_stats dp view _ i)
  cases ho with
  | unknown hno => exact .dropped (.refl w) (by decide)
  | down hi hno => exact .dropped (.closeSession w _) (by decide)
  | dropped m' hi hr =>
    refine .dropped (h1 _) ?_
    rcases hr with rfl | rfl <;> decide
  | sent m' hi hc => exact .sent ((h1 _).trans (countFwdOut_tallied _ m' _ hc))

theorem SameDrops.resolves (dp : Dataplane) (view : NeighView) (w : WorkerCtx) :
    Resolves dp view w (SameDrops w) :=
  ⟨.refl w, fun i => .of_stats (resolveClientMac_stats dp view w i),
    fun i rs => .of_stats (resolveRsMac_stats dp view w i rs), fun w' h => h.trans (.count w' (by decide))⟩

theorem Aside.sameDrops {P : MasterEvent → Prop} {w' : WorkerCtx} (h : Aside P w w') : SameDrops w w' := by
  have hdrops : ∀ s ∈ Stat.arrivals, s ∉ Stat.dropStats := by decide
  induction h with
  | refl => exact .refl w
  | count _ hs ih => exact ih.trans (.count _ (hdrops _ hs))
  | post _ _ ih => exact ih.trans (.of_stats rfl)

theorem Untouched.tallied {o : Outcome} (h : Untouched dp snap m w o) : Tallied w o := by
  refine ⟨h.aside.sameDrops, fun e he => ?_⟩
  rcases h.verdict with hv | hv | ⟨e', hmem, hv⟩
  · cases hv.symm.trans he
  · cases hv.symm.trans he
  · cases hv.symm.trans he
    exact hmem

theorem IcmpDone.tallied {o : Outcome} (h : IcmpDone (SameDrops w) o) : Tallied w o := by
  have hnamed : icmpDrops ⊆ Stat.dropReasons := by decide
  exact ⟨h.worker, fun e he => hnamed (h.reason e he)⟩

/-- **A verdict counts no drop**, and a drop has a reason that `drops` sums. -/
theorem processPacket_tallied (dp : Dataplane) (view : NeighView) (w : WorkerCtx) (snap : Snapshot) (m : Mbuf)
    (redirected : Bool) : Ensures (processPacket dp view w snap m redirected) (Tallied w) := by
  refine (processPacket_onPath (snap.safe_none dp).toLookupSafe view w m redirected).ensures
    (fun _ o ho => ho.tallied) fun path k w' _ _ _ ha => ?_
  refine Ensures.mono ?_ fun o ho => Tallied.of_same ho ha.sameDrops
  refine .ite (.ok (.notOwner ..)) ?_
  cases path with
  | inbound p svc => exact inboundAtOwner_tallied svc redirected
  | fromServer p => exact returnAtOwner_tallied
  | errorToClient p info => exact ((SameDrops.resolves dp view w').icmpToClient info).mono fun o ho => ho.tallied
  | errorToServer p info => exact ((SameDrops.resolves dp view w').icmpToServer info).mono fun o ho => ho.tallied
  | rest => exact .ok (.consumed (.refl w'))

end Handlers

end L4Lb
