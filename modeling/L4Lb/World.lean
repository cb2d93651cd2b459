/-
# The load balancer

`src/dataplane/worker.cpp` and the start in `src/main.cpp`: the workers with
their session tables and redirect rings, and the snapshots between them and
the control plane. A step of the system is one frame that a worker handles, a
turn of a worker's loop, a reading of its clock or a command; the steps of the
workers and of the control plane interleave in any order. A frame from outside
may arrive at any worker: with several queues the NIC decides about it, in the
pipeline the receiver.

A worker keeps the snapshot it has read at the top of its loop until the next
turn. The WRR cursors lie in the snapshot, so a new one brings new cursors.
What is handed to the NIC, and what it does not take, is left out.
-/
import L4Lb.Processor

open Checked

namespace L4Lb

/-- The frames a ring of `REDIRECT_RING_SIZE` entries holds. -/
def kRedirectRing : ℕ := 4095

structure World where
  mgr : SnapshotManager
  /-- the snapshot of each worker -/
  snaps : ℕ → Snapshot
  workers : ℕ → WorkerCtx
  /-- the redirect ring of each worker, oldest first -/
  rings : ℕ → List Mbuf

inductive Event
  /-- a frame from the NIC or the receiver -/
  | receive (i : ℕ) (m : Mbuf) (view : NeighView)
  /-- the oldest frame of the redirect ring -/
  | takeRedirected (i : ℕ) (view : NeighView)
  /-- the next turn of the loop -/
  | turn (i : ℕ)
  | readClock (i : ℕ) (tsc : UInt64)
  | command (c : SnapshotManager.Command)

/-- The worker of an event is there. -/
def Event.Valid (numWorkers : ℕ) : Event → Prop
  | receive i _ _ | takeRedirected i _ | turn i | readClock i _ => i < numWorkers
  | command _ => True

instance (numWorkers : ℕ) (ev : Event) : Decidable (ev.Valid numWorkers) := by
  cases ev <;> unfold Event.Valid <;> infer_instance

namespace WorkerCtx

/-- The counters of a frame that comes in. -/
def received (w : WorkerCtx) (dp : Dataplane) (m : Mbuf) : WorkerCtx :=
  if dp.pipeline then w.count .ringIn else (w.count .rx).addBytes .rx m.pktLen

/-- The clock part of `worker_loop`. -/
def readClock (w : WorkerCtx) (dp : Dataplane) (tsc : UInt64) : Except Fault WorkerCtx :=
  let now := (dp.clock.now tsc).tick.toNat
  match w.sessions.expire now with
  | none => .error .endless
  | some r => .ok ({ w with nowTick := now, sessions := r.table }.addStat .sessExpired r.removed)

end WorkerCtx

namespace World

variable (dp : Dataplane)

/-- The start: the snapshots, then the workers. -/
def boot : Except Fault World := do
  let mgr ← SnapshotManager.init dp.H dp.cfg
  match mgr.cur with
  | none => throw .null
  | some snap =>
    return {
      mgr := mgr
      snaps := fun _ => snap
      workers := fun i => WorkerCtx.init dp.cfg dp.steering.n i
      rings := fun _ => [] }

def setWorker (W : World) (i : ℕ) (w : WorkerCtx) : World :=
  { W with workers := Function.update W.workers i w }

/-- The end of `handle`: what becomes of the frame. -/
def finish (W : World) (i : ℕ) : Outcome → World
  | (w, _, .send) => W.setWorker i w
  | (w, m, .redirect k) =>
    if k < dp.steering.n ∧ (W.rings k).length < kRedirectRing then
      { W.setWorker i (w.count .redirectOut) with rings := Function.update W.rings k (W.rings k ++ [m]) }
    else W.setWorker i (w.count .dropRedirect)
  | (w, _, .drop reason) => W.setWorker i (w.count reason)
  | (w, _, .consumed) => W.setWorker i w

/-- `handle`, of a frame that worker `i` has taken and counted in `w`. -/
def handle (view : NeighView) (W : World) (i : ℕ) (w : WorkerCtx) (m : Mbuf) (redirected : Bool) :
    Except Fault World := do
  return W.finish dp i (← processPacket dp view w (W.snaps i) m redirected)

def step (W : World) : Event → Except Fault World
  | .receive i m view => W.handle dp view i ((W.workers i).received dp m) m false
  | .takeRedirected i view =>
    match W.rings i with
    | [] => .ok W
    | m :: rest =>
      { W with rings := Function.update W.rings i rest }.handle dp view i ((W.workers i).count .redirectIn) m true
  | .turn i =>
    match W.mgr.cur with
    | none => .error .null
    | some snap =>
      if snap.version = (W.snaps i).version then .ok W
      else
        .ok { W.setWorker i { W.workers i with cursors := fun _ => Scheduler.firstCursor i } with
          snaps := Function.update W.snaps i snap }
  | .readClock i tsc => do return W.setWorker i (← (W.workers i).readClock dp tsc)
  | .command c => do return { W with mgr := ← c.run dp.H W.mgr }

/-- The states of the system. -/
inductive Reach : World → Prop
  | boot {W : World} (h : boot dp = .ok W) : Reach W
  | step {W W' : World} (ev : Event) (h : Reach W) (hv : ev.Valid dp.steering.n) (hs : W.step dp ev = .ok W') :
      Reach W'

/-- The state after a run. -/
def run (W : World) (evs : List Event) : Except Fault World := evs.foldlM (step dp) W

variable {dp}

theorem Reach.run {evs : List Event} {W W' : World} (h : Reach dp W) (hv : ∀ ev ∈ evs, ev.Valid dp.steering.n)
    (hr : W.run dp evs = .ok W') : Reach dp W' := by
  induction evs generalizing W with
  | nil => exact Except.ok.inj hr ▸ h
  | cons ev evs ih =>
    unfold World.run at hr
    rw [List.foldlM_cons] at hr
    obtain ⟨W1, h1, hr⟩ := bind_eq_ok.mp hr
    exact ih (.step ev h (hv ev List.mem_cons_self) h1) (fun e he => hv e (List.mem_cons_of_mem _ he)) hr

/-- A state that a run from the start leads to. -/
theorem exists_reach (dp : Dataplane) (evs : List Event) {P : World → Prop}
    (hv : ∀ ev ∈ evs, ev.Valid dp.steering.n)
    (h : Returns (World.boot dp >>= fun W => W.run dp evs) P) : ∃ W, Reach dp W ∧ P W := by
  obtain ⟨W, hW, hP⟩ := h
  obtain ⟨W0, h0, hr⟩ := bind_eq_ok.mp hW
  exact ⟨W, Reach.run (.boot h0) hv hr, hP⟩

end World

end L4Lb
