/-
# Snapshots and their readers

`publish` of `src/ctrl/snapshot.cpp` frees the snapshot it replaces, and the
loops of `src/dataplane/worker.cpp` and `src/dataplane/master.cpp` read
snapshots through a plain pointer. A loop is the list of what it does to the
pointer and to the RCU state (`Loop.body`), so that the order of these is that
of the code; a step is one of them. `publish` is three steps: the exchange,
the call of `rte_rcu_qsbr_synchronize`, which from then on waits for the
threads that are online at this moment, and its return with the deletion. Any
number of calls of `publish` may be on their way.

A pointer is the version of the snapshot it points to; `heap` has the
snapshots that are not deleted. Reading through a pointer that is null or
dangling is a fault.
-/
import L4Lb.Snapshot

open Checked

namespace L4Lb

/-- What a loop does to the snapshots and the RCU state. -/
inductive Instr
  /-- `rte_rcu_qsbr_thread_register` -/
  | register
  /-- `rte_rcu_qsbr_thread_online` -/
  | online
  /-- `g_dp.snapshots.current()` -/
  | load
  /-- code that reads the snapshot, any number of times -/
  | use
  /-- `rte_rcu_qsbr_quiescent` -/
  | quiescent
  /-- `rte_rcu_qsbr_thread_offline` -/
  | offline
  /-- `rte_rcu_qsbr_thread_unregister` -/
  | unregister
  /-- code that does neither -/
  | other
  deriving DecidableEq

/-- `worker_loop` and `master_loop`. -/
inductive Loop
  | worker
  | master
  deriving DecidableEq

namespace Loop

def prologue : Loop → List Instr
  | worker | master => [.register, .online]

def body : Loop → List Instr
  -- the snapshot, the packets, `tx_flush`, the report, the clock
  | worker => [.load, .use, .other, .quiescent, .other]
  -- `drain_master_events`, the snapshot, `master_periodic`, `tx_flush`, the report, the pause
  | master => [.other, .load, .use, .other, .quiescent, .other]

def epilogue : Loop → List Instr
  | worker | master => [.other, .offline, .unregister]

end Loop

inductive Stage
  | prologue
  | body
  | epilogue
  deriving DecidableEq

def Loop.code (l : Loop) : Stage → List Instr
  | .prologue => l.prologue
  | .body => l.body
  | .epilogue => l.epilogue

/-- Where a thread is: what it still has to do in its stage, and the snapshot
it has loaded. -/
structure Thread where
  stage : Stage := .prologue
  rest : List Instr
  ptr : Option ℕ := none

def Thread.setPtr (th : Thread) (v : ℕ) : Thread := { th with ptr := some v }

def Thread.goto (th : Thread) (stage : Stage) (rest : List Instr) : Thread :=
  { th with stage := stage, rest := rest }

/-- A call of `publish` behind the exchange. `waits` are the threads that
`rte_rcu_qsbr_synchronize` still waits for. -/
structure PublishCall where
  old : ℕ
  waits : Option (List ℕ)

structure Rcu where
  mgr : SnapshotManager
  heap : ℕ → Option Snapshot
  threads : ℕ → Thread
  registered : ℕ → Bool := fun _ => false
  online : ℕ → Bool := fun _ => false
  calls : List PublishCall := []

inductive RcuEvent
  /-- thread `t` goes on; `running` is `g_running`, if it asks for it, `again`
  lets it stay where it uses the snapshot -/
  | thread (t : ℕ) (running again : Bool)
  /-- `publish`, to the exchange -/
  | exchange
  /-- the `k`-th call of `publish` calls `rte_rcu_qsbr_synchronize` -/
  | wait (k : ℕ)
  /-- it returns, if it may, and the old snapshot is deleted -/
  | free (k : ℕ)
  /-- a change of the desired state -/
  | control (c : SnapshotManager.Command)

/-- There are such threads. -/
def RcuEvent.Valid (numThreads : ℕ) : RcuEvent → Prop
  | thread t _ _ => t < numThreads
  | _ => True

instance RcuEvent.decidableValid (numThreads : ℕ) (ev : RcuEvent) : Decidable (ev.Valid numThreads) := by
  cases ev <;> unfold RcuEvent.Valid <;> infer_instance

namespace Rcu

variable (H : HashFns) (cfg : LbConfig) (loopOf : ℕ → Loop) (numThreads : ℕ)

/-- `init` has published the first snapshot. -/
def boot : Except Fault Rcu := do
  let mgr ← SnapshotManager.init H cfg
  return {
    mgr := mgr
    heap := fun v => mgr.cur.filter fun snap => snap.version = v
    threads := fun t => { rest := (loopOf t).prologue } }

def setThread (s : Rcu) (t : ℕ) (th : Thread) : Rcu := { s with threads := Function.update s.threads t th }

/-- No call waits for `t` any more. -/
def report (s : Rcu) (t : ℕ) : Rcu :=
  { s with calls := s.calls.map fun c => { c with waits := c.waits.map fun l => l.filter (· ≠ t) } }

/-- One instruction of thread `t`. -/
def exec (s : Rcu) (t : ℕ) : Instr → Except Fault Rcu
  | .register => .ok { s with registered := Function.update s.registered t true }
  | .online => .ok { s with online := Function.update s.online t true }
  | .load =>
    match s.mgr.cur with
    | none => .error .null
    | some snap => .ok (s.setThread t ((s.threads t).setPtr snap.version))
  | .use => if ((s.threads t).ptr.bind s.heap).isSome then .ok s else .error .null
  | .quiescent => .ok (s.report t)
  | .offline => .ok ({ s with online := Function.update s.online t false }.report t)
  | .unregister => .ok { s with registered := Function.update s.registered t false }
  | .other => .ok s

/-- The next step of thread `t`. At the end of the prologue and of the body
stands the condition of the loop. -/
def advance (s : Rcu) (t : ℕ) (running again : Bool) : Except Fault Rcu :=
  match (s.threads t).rest with
  | [] =>
    if (s.threads t).stage = .epilogue then .ok s
    else
      let stage := if running then .body else .epilogue
      .ok (s.setThread t ((s.threads t).goto stage ((loopOf t).code stage)))
  | i :: rest => do
    let s' ← s.exec t i
    return if i = .use && again then s' else s'.setThread t ((s'.threads t).goto (s'.threads t).stage rest)

def step (s : Rcu) : RcuEvent → Except Fault Rcu
  | .thread t running again => s.advance loopOf t running again
  | .exchange => do
    let mgr ← s.mgr.publish H
    return {
      s with
      mgr := mgr
      heap := Function.update s.heap mgr.version mgr.cur
      calls := (s.mgr.cur.map fun old => ⟨old.version, none⟩).toList ++ s.calls }
  | .wait k =>
    match s.calls[k]? with
    | some ⟨old, none⟩ =>
      let waits := (List.range numThreads).filter fun t => s.registered t && s.online t
      .ok { s with calls := s.calls.set k ⟨old, some waits⟩ }
    | _ => .ok s
  | .free k =>
    match s.calls[k]? with
    | some ⟨old, some []⟩ =>
      .ok { s with calls := s.calls.eraseIdx k, heap := Function.update s.heap old none }
    | _ => .ok s
  | .control c =>
    match c with
    | .publish => .ok s
    | c => do return { s with mgr := ← c.run H s.mgr }

inductive Reach : Rcu → Prop
  | boot {s : Rcu} (h : boot H cfg loopOf = .ok s) : Reach s
  | step {s s' : Rcu} (ev : RcuEvent) (h : Reach s) (hv : ev.Valid numThreads)
      (hs : s.step H loopOf numThreads ev = .ok s') : Reach s'

/-- The state after a run. -/
def run (s : Rcu) (evs : List RcuEvent) : Except Fault Rcu := evs.foldlM (step H loopOf numThreads) s

variable {H cfg loopOf numThreads}

theorem Reach.run {evs : List RcuEvent} {s s' : Rcu} (h : Reach H cfg loopOf numThreads s)
    (hv : ∀ ev ∈ evs, ev.Valid numThreads) (hr : s.run H loopOf numThreads evs = .ok s') :
    Reach H cfg loopOf numThreads s' := by
  induction evs generalizing s with
  | nil => exact Except.ok.inj hr ▸ h
  | cons ev evs ih =>
    unfold Rcu.run at hr
    rw [List.foldlM_cons] at hr
    obtain ⟨s1, h1, hr⟩ := bind_eq_ok.mp hr
    exact ih (.step ev h (hv ev List.mem_cons_self) h1) (fun e he => hv e (List.mem_cons_of_mem _ he)) hr

theorem exists_reach (H : HashFns) (cfg : LbConfig) (loopOf : ℕ → Loop) (numThreads : ℕ) (evs : List RcuEvent)
    {P : Rcu → Prop} (hv : ∀ ev ∈ evs, ev.Valid numThreads)
    (h : Returns (Rcu.boot H cfg loopOf >>= fun s => s.run H loopOf numThreads evs) P) :
    ∃ s, Reach H cfg loopOf numThreads s ∧ P s := by
  obtain ⟨s, hs, hP⟩ := h
  obtain ⟨s0, h0, hr⟩ := bind_eq_ok.mp hs
  exact ⟨s, Reach.run (.boot h0) hv hr, hP⟩

end Rcu

end L4Lb
