/-
# The counters of a run

The accounts of a worker (`Processor/Ledger.lean`) start in balance, and every
step of the system keeps them so: a frame, a turn of the loop, a reading of the
clock, which gives the slots of the sessions that ran out back and counts them.
So after every run the sessions in use are those that were made less those that
ran out or were closed, the counters of the real servers add up to those of the
worker, and these hold the packets that were forwarded, each with its length
after the rewrite (`books_balance`). The counters are naturals; those of the source
are `uint64_t`, so this is about runs in which none of them passes 2^64.
-/
import L4Lb.Processor.Counters
import L4Lb.Processor.Ledger
import L4Lb.World.Owners

open Checked

namespace L4Lb

open SessionTable (Fit)

/-- What is counted twice is counted alike. -/
structure Balanced (w : WorkerCtx) : Prop where
  active : (w.sessions.active : ℤ) = (w.stats .sessNew : ℤ) - w.stats .sessExpired - w.stats .sessClosed
  conns : w.rsSum (·.conns) = w.stats .sessNew
  pktsIn : w.rsSum (·.pktsIn) = w.stats .fwdIn
  bytesIn : w.rsSum (·.bytesIn) = w.bytes .fwdIn
  pktsOut : w.rsSum (·.pktsOut) = w.stats .fwdOut
  bytesOut : w.rsSum (·.bytesOut) = w.bytes .fwdOut

theorem SessionTable.Fit.active_eq {t : SessionTable} (h : Fit t) : (t.active : ℤ) = t.inUse := by
  rw [active, inUse, Nat.cast_sub h.free_le]

theorem Balanced.of_drift {w : WorkerCtx} (hfit : Fit w.sessions) (hs : w.slotDrift = 0) (hd : w.drift = 0) :
    Balanced w := by
  have hown : ∀ a, w.rsSum a.ofRs = w.own a := fun a => by
    have h : (w.rsSum a.ofRs : ℤ) - w.own a = 0 := congrFun hd a
    omega
  refine ⟨?_, hown .conns, hown .pktsIn, hown .bytesIn, hown .pktsOut, hown .bytesOut⟩
  rw [hfit.active_eq]
  exact sub_eq_zero.mp hs

theorem WorkerCtx.init_drift (cfg : LbConfig) (n i : ℕ) :
    (WorkerCtx.init cfg n i).slotDrift = 0 ∧ (WorkerCtx.init cfg n i).drift = 0 ∧
      (WorkerCtx.init cfg n i).forwarded = 0 := by
  refine ⟨?_, funext fun a => ?_, funext fun d => ?_⟩
  · simp [slotDrift, init, SessionTable.init, SessionTable.inUse]
  · cases a <;> simp [drift, init, rsSum, own, Account.ofRs]
  · cases d <;> rfl

/-! ### What a run forwards -/

/-- A packet that was forwarded. -/
structure Forward where
  worker : ℕ
  dir : Dir
  len : ℕ
  deriving DecidableEq, Repr

/-- The packets and bytes that worker `i` forwarded in a direction. -/
def Forward.total (log : List Forward) (i : ℕ) (d : Dir) : ℕ × ℕ :=
  let own := log.filter fun f => f.worker = i ∧ f.dir = d
  (own.length, (own.map (·.len)).sum)

theorem Forward.total_append (a b : List Forward) (i : ℕ) : total (a ++ b) i = total a i + total b i := by
  funext d
  simp [total]

/-- What worker `i` forwards with a frame. -/
def forwardsOf (i : ℕ) : Except Fault Path → Except Fault Outcome → List Forward
  | .ok path, .ok (_, m, .send) => (path.dir.map fun d => ⟨i, d, m.pktLen⟩).toList
  | _, _ => []

namespace World

variable (dp : Dataplane)

/-- What a step forwards. -/
def forwards (W : World) : Event → List Forward
  | .receive i m view =>
    forwardsOf i (pathOf dp (W.snaps i) m)
      (processPacket dp view ((W.workers i).received dp m) (W.snaps i) m false)
  | .takeRedirected i view =>
    match W.rings i with
    | [] => []
    | m :: _ =>
      forwardsOf i (pathOf dp (W.snaps i) m)
        (processPacket dp view ((W.workers i).count .redirectIn) (W.snaps i) m true)
  | .turn _ | .readClock _ _ | .command _ => []

/-- What a run forwards. -/
def log (W : World) : List Event → List Forward
  | [] => []
  | ev :: evs =>
    W.forwards dp ev ++
      match W.step dp ev with
      | .ok W' => log W' evs
      | .error _ => []

end World

section Steps

variable {dp : Dataplane} {W W' : World} {w w' : WorkerCtx} {i j : ℕ}

theorem Forward.total_single (i : ℕ) (d : Dir) (len : ℕ) : total [⟨i, d, len⟩] i = Pi.single d (1, len) := by
  funext d'
  by_cases h : d = d'
  · subst h
    simp [total]
  · simp [total, h, Ne.symm h]

/-- What a verdict forwards is what it adds to the accounts. -/
theorem forwardsOf_total (i : ℕ) (path : Path) (o : Outcome) :
    Forward.total (forwardsOf i (.ok path) (.ok o)) i = sentBy path.dir o := by
  obtain ⟨w, m, r⟩ := o
  cases r with
  | send =>
    show Forward.total (path.dir.map fun d => ⟨i, d, m.pktLen⟩).toList i = path.dir.elim 0 _
    cases path.dir with
    | none => rfl
    | some d => exact Forward.total_single i d _
  | drop e => rfl
  | redirect k => rfl
  | consumed => rfl

theorem forwardsOf_other (h : j ≠ i) (path : Except Fault Path) (o : Except Fault Outcome) :
    Forward.total (forwardsOf i path o) j = 0 := by
  have hall : ∀ f ∈ forwardsOf i path o, f.worker = i := by
    unfold forwardsOf
    split
    · intro f hf
      obtain ⟨d, -, rfl⟩ := Option.map_eq_some_iff.mp (Option.mem_toList.mp hf)
      rfl
    · simp
  funext d
  have hnil : (forwardsOf i path o).filter (fun f => f.worker = j ∧ f.dir = d) = [] := by
    refine List.filter_eq_nil_iff.mpr fun f hf => ?_
    simp only [decide_eq_true_eq, not_and]
    intro hj
    exact absurd (hj.symm.trans (hall f hf)) h
  rw [Forward.total]
  simp only [hnil]
  rfl

theorem Stat.not_booked_of_drop : ∀ s ∈ Stat.dropReasons, s ∉ Stat.booked := by decide

namespace World

/-- The verdict is carried out, and a drop counted. -/
theorem finish_kept {o : Outcome} (ht : Tallied w o) : Kept o.1 ((W.finish dp i o).workers i) := by
  obtain ⟨w1, m, r⟩ := o
  unfold finish
  cases r with
  | send =>
    rw [setWorker_self]
    exact .refl w1
  | drop e =>
    rw [setWorker_self]
    exact .count w1 (Stat.not_booked_of_drop e (ht.reason e rfl))
  | redirect k =>
    simp only
    split
    · exact (setWorker_self W i (w1.count .redirectOut)).symm ▸ .count w1 (by decide)
    · rw [setWorker_self]
      exact .count w1 (by decide)
  | consumed =>
    rw [setWorker_self]
    exact .refl w1

/-- A worker takes a frame: what it forwards goes to its accounts. -/
theorem handle_entered {view : NeighView} {m : Mbuf} {redirected : Bool} (hb : (W.snaps i).Built dp.H dp.cfg)
    (hw : Kept (W.workers i) w) (h : W.handle dp view i w m redirected = .ok W') (j : ℕ) :
    Entered (Forward.total (forwardsOf i (pathOf dp (W.snaps i) m)
      (processPacket dp view w (W.snaps i) m redirected)) j) (W.workers j) (W'.workers j) := by
  obtain ⟨o, ho, h⟩ := bind_eq_ok.mp h
  obtain rfl := Except.ok.inj h
  by_cases hj : j = i
  · subst hj
    obtain ⟨path, hp, -⟩ := hb.pathOf_returns m
    have hbook : Booked path.dir w o := processPacket_booked hp view w redirected o ho
    have hfin : Kept o.1 ((W.finish dp j o).workers j) :=
      finish_kept (processPacket_tallied dp view w (W.snaps j) m redirected o ho)
    rw [hp, ho, forwardsOf_total]
    have h1 := hbook.after hw
    exact ⟨hfin.slots.trans h1.slots, hfin.drift.trans h1.drift, hfin.forwarded.trans h1.forwarded⟩
  · rw [forwardsOf_other hj, finish_other hj]
    exact (Kept.refl _).entered

end World

/-- The sessions that ran out give their slots back, and are counted. -/
theorem Kept.readClock {tsc : UInt64} (h : w.readClock dp tsc = .ok w') : Kept w w' := by
  unfold WorkerCtx.readClock at h
  simp only at h
  split at h
  · cases h
  rename_i r hr
  obtain rfl := Except.ok.inj h
  have hi := SessionTable.expireLoop_inUse hr
  refine ⟨?_, funext fun a => ?_, funext fun d => ?_⟩
  · show r.table.inUse - ((w.stats .sessNew : ℤ) - (w.stats .sessExpired + r.removed : ℕ) - w.stats .sessClosed) =
      w.slotDrift
    rw [WorkerCtx.slotDrift]
    push_cast at hi ⊢
    linarith
  · cases a <;> rfl
  · cases d <;> rfl

theorem Kept.received (dp : Dataplane) (w : WorkerCtx) (m : Mbuf) : Kept w (w.received dp m) := by
  have hbytes : ∀ (w : WorkerCtx) (n : ℕ), Kept w (w.addBytes .rx n) := fun w n =>
    ⟨rfl, funext fun a => by cases a <;> rfl, funext fun d => by cases d <;> rfl⟩
  exact .ite (.count w (by decide)) ((Kept.count w (by decide)).trans (hbytes _ _))

namespace World

theorem step_entered {ev : Event} (hb : ∀ k, (W.snaps k).Built dp.H dp.cfg) (h : W.step dp ev = .ok W') (j : ℕ) :
    Entered (Forward.total (W.forwards dp ev) j) (W.workers j) (W'.workers j) := by
  cases ev with
  | receive i m view => exact handle_entered (hb i) (.received dp _ m) h j
  | takeRedirected i view =>
    unfold step at h
    unfold forwards
    cases hring : W.rings i with
    | nil =>
      simp only [hring] at h ⊢
      obtain rfl := Except.ok.inj h
      exact (Kept.refl _).entered
    | cons m rest =>
      simp only [hring] at h ⊢
      exact handle_entered (W := { W with rings := Function.update W.rings i rest }) (hb i) (.count _ (by decide)) h j
  | turn i =>
    refine Kept.entered ?_
    unfold step at h
    simp only at h
    split at h
    · cases h
    split at h
    · exact Except.ok.inj h ▸ .refl _
    · obtain rfl := Except.ok.inj h
      by_cases hj : j = i
      · subst hj
        exact (setWorker_self W j _).symm ▸ ⟨rfl, rfl, rfl⟩
      · exact (setWorker_other W _ hj).symm ▸ .refl _
  | readClock i tsc =>
    refine Kept.entered ?_
    obtain ⟨w1, hw, h⟩ := bind_eq_ok.mp h
    obtain rfl := Except.ok.inj h
    by_cases hj : j = i
    · subst hj
      rw [setWorker_self]
      exact .readClock hw
    · rw [setWorker_other W _ hj]
      exact .refl _
  | command c =>
    obtain ⟨mgr, -, h⟩ := bind_eq_ok.mp h
    obtain rfl := Except.ok.inj h
    exact (Kept.refl _).entered

theorem run_entered (hcfg : Config.Accepted dp.cfg) {evs : List Event} (h : Reach dp W)
    (hv : ∀ ev ∈ evs, ev.Valid dp.steering.n) (hr : W.run dp evs = .ok W') (j : ℕ) :
    Entered (Forward.total (W.log dp evs) j) (W.workers j) (W'.workers j) := by
  induction evs generalizing W with
  | nil => exact Except.ok.inj hr ▸ (Kept.refl _).entered
  | cons ev evs ih =>
    unfold World.run at hr
    rw [List.foldlM_cons] at hr
    obtain ⟨W1, h1, hr⟩ := bind_eq_ok.mp hr
    have hs := step_entered (reach_inv hcfg h).snaps h1 j
    have hrest := ih (.step ev h (hv ev List.mem_cons_self) h1) (fun e he => hv e (List.mem_cons_of_mem _ he)) hr
    rw [log, h1, Forward.total_append]
    exact ⟨hrest.slots.trans hs.slots, hrest.drift.trans hs.drift, by rw [hrest.forwarded, hs.forwarded, add_assoc]⟩

/-- **The books balance after every run.** For every worker of a system that was
started from an accepted configuration and every run of it: the sessions in
use are those made less those that ran out or were closed; the counters of the
real servers add up to those of the worker; and the counters of forwarding
hold the packets the worker forwarded in the run, with the lengths they were
sent with. -/
theorem books_balance (hcfg : Config.Accepted dp.cfg) {evs : List Event} (hv : ∀ ev ∈ evs, ev.Valid dp.steering.n)
    (hb : boot dp = .ok W) (hr : W.run dp evs = .ok W') (i : ℕ) (hi : i < dp.steering.n) :
    Balanced (W'.workers i) ∧ ∀ d, (W'.workers i).forwarded d = Forward.total (W.log dp evs) i d := by
  have h0 : W.workers i = WorkerCtx.init dp.cfg dp.steering.n i := by
    unfold boot at hb
    obtain ⟨mgr, -, hb⟩ := bind_eq_ok.mp hb
    split at hb
    · cases hb
    · exact Except.ok.inj hb ▸ rfl
  obtain ⟨hslots, hdrift, hfwd⟩ := WorkerCtx.init_drift dp.cfg dp.steering.n i
  have h := run_entered hcfg (.boot hb) hv hr i
  rw [h0] at h
  have hfit := ((reach_inv hcfg ((Reach.boot hb).run hv hr)).workers i hi).fit
  refine ⟨.of_drift hfit (h.slots.trans hslots) (h.drift.trans hdrift), fun d => ?_⟩
  rw [h.forwarded, hfwd, zero_add]

end World

end Steps

/-- A query is forwarded, and the books balance. -/
theorem World.books_balance_query : ∃ W W', World.boot demo = .ok W ∧
    W.run demo [.receive 0 queryFrame noNeigh] = .ok W' ∧
    W.log demo [.receive 0 queryFrame noNeigh] = [⟨0, .clientToRs, 42⟩] ∧ Balanced (W'.workers 0) ∧
    (W'.workers 0).forwarded .clientToRs = (1, 42) := by
  have h : Returns (World.boot demo) fun W => W.log demo [.receive 0 queryFrame noNeigh] = [⟨0, .clientToRs, 42⟩] ∧
      Returns (W.run demo [.receive 0 queryFrame noNeigh]) fun _ => True := by decide +kernel
  obtain ⟨W, hb, hlog, W', hr, -⟩ := h
  obtain ⟨hbal, hfwd⟩ := World.books_balance demo_accepted (by decide) hb hr 0 (by decide)
  refine ⟨W, W', hb, hr, hlog, hbal, ?_⟩
  rw [hfwd, hlog]
  rfl

end L4Lb
