/-
# The way of an mbuf

`tx_flush`, `handle`, `tx_buffer_add` and `worker_loop` of
`src/dataplane/worker.cpp`, and `dispatch_rx_queue` of
`src/dataplane/receiver.cpp`. An mbuf from `rte_eth_rx_burst` gets a number,
and the state says in which place each one is: in the array of a loop, in a
ring, in a TX buffer, or finished. An array that is filled anew forgets what
was in it.

The workers and the receiver take turns in any order. A step is one call on a
ring or on the NIC, or one packet: a ring takes any number of the packets it
is offered and gives any number of those it has, and so does
`rte_eth_tx_burst`. Each loop is at a point of its code (`WorkerPc`,
`RecvPc`); a step that is not next there changes nothing. The mbufs that the
master makes for its own packets are left out.
-/
import L4Lb.World
import L4Lb.Processor.Counters
import L4Lb.Lib.Custody

open Checked Custody

namespace L4Lb

/-- `BURST_SIZE`. -/
def kBurstSize : ℕ := 64

def kMaxPipelineWorkers : ℕ := 16

/-- An mbuf, with the number it was received under. -/
structure Packet where
  tag : ℕ
  m : Mbuf

/-- Who counts a drop. -/
inductive Party
  | worker (i : ℕ)
  | receiver
  deriving DecidableEq

/-- Where a packet is. -/
inductive Place
  /-- `bufs` of a worker -/
  | bufs (i : ℕ)
  /-- `bufs` of the receiver -/
  | polled
  /-- `groups[k]` of the receiver -/
  | group (k : ℕ)
  | rxRing (k : ℕ)
  | redirectRing (k : ℕ)
  | tx (i : ℕ)
  /-- taken by `rte_eth_tx_burst` -/
  | sent
  /-- freed, with the verdict `CONSUMED` -/
  | consumed
  /-- freed, and counted under `s` -/
  | dropped (who : Party) (s : Stat)
  deriving DecidableEq

/-- The packet is finished. -/
def Place.finished : Place → Bool
  | sent | consumed | dropped _ _ => true
  | _ => false

/-- Where a worker is in `worker_loop`. -/
inductive WorkerPc
  /-- `left` sources of packets are still to be asked -/
  | receive (left : ℕ)
  /-- in the loop over `bufs` -/
  | handle (redirected : Bool) (left : ℕ)
  | redirects
  | flush
  /-- behind the loop -/
  | exit
  | stopped
  deriving DecidableEq

/-- Where the receiver is in `dispatch_rx_queue`. -/
inductive RecvPc
  | idle
  | grouping
  | enqueuing (w : ℕ)
  deriving DecidableEq

structure Traffic where
  mgr : SnapshotManager
  snaps : ℕ → Snapshot
  workers : ℕ → WorkerCtx
  pcs : ℕ → WorkerPc
  recvPc : RecvPc := .idle
  recvStats : Stat → ℕ := fun _ => 0
  recvBytes : ByteStat → ℕ := fun _ => 0
  hold : Place → List Packet := fun _ => []
  /-- the mbufs received so far -/
  next : ℕ := 0

/-- The packets of a burst. -/
def newPackets (next : ℕ) (ms : List Mbuf) : List Packet := ms.mapIdx fun k m => ⟨next + k, m⟩

inductive Act
  /-- `rte_eth_rx_burst` gives worker `i` these mbufs -/
  | rxBurst (i : ℕ) (ms : List Mbuf)
  /-- the rx ring of worker `i` gives it `n` packets, if it has them -/
  | dequeue (i n : ℕ)
  | dequeueRedirect (i n : ℕ)
  /-- the next packet of `bufs`; `took` is the answer of the redirect ring,
  `sent` that of `rte_eth_tx_burst`, if they are asked -/
  | handle (i : ℕ) (view : NeighView) (took : Bool) (sent : ℕ)
  /-- the end of a loop in `worker_loop` -/
  | advance (i : ℕ)
  | flush (i sent : ℕ)
  /-- `g_running` is false -/
  | stop (i : ℕ)
  /-- `rte_eth_rx_burst` gives the receiver these mbufs -/
  | poll (ms : List Mbuf)
  /-- the next packet of the receiver -/
  | group
  /-- the next rx ring takes `done` packets of its group -/
  | enqueue (done : ℕ)
  /-- a step without packets -/
  | between (ev : Event)

/-- The worker of a step is there. -/
def Act.Valid (numWorkers : ℕ) : Act → Prop
  | .rxBurst i _ | .dequeue i _ | .dequeueRedirect i _ | .handle i _ _ _ | .advance i | .flush i _ | .stop i =>
    i < numWorkers
  | .between ev => ev.Valid numWorkers
  | .poll _ | .group | .enqueue _ => True

instance (numWorkers : ℕ) (a : Act) : Decidable (a.Valid numWorkers) := by
  cases a <;> unfold Act.Valid <;> infer_instance

namespace Traffic

variable (dp : Dataplane) (numRxQueues : ℕ)

/-- The queues worker `i` polls, `idx`, `idx + N` and so on. -/
def rxqs (i : ℕ) : List ℕ := (List.range numRxQueues).filter fun q => q % dp.steering.n = i

/-- The top of the loop. -/
def top (i : ℕ) : WorkerPc := .receive (if dp.pipeline then 1 else (rxqs dp numRxQueues i).length)

def boot : Except Fault Traffic := do
  let W ← World.boot dp
  return { mgr := W.mgr, snaps := W.snaps, workers := W.workers, pcs := top dp numRxQueues }

def setWorker (st : Traffic) (i : ℕ) (w : WorkerCtx) : Traffic :=
  { st with workers := Function.update st.workers i w }

def setPc (st : Traffic) (i : ℕ) (pc : WorkerPc) : Traffic := { st with pcs := Function.update st.pcs i pc }

def setHold (st : Traffic) (hold : Place → List Packet) : Traffic := { st with hold := hold }

/-- `bufs` is filled with the first `n` packets of a ring. -/
def refill (st : Traffic) (i : ℕ) (ring : Place) (n : ℕ) : Traffic :=
  let l := st.hold ring
  st.setHold (Function.update (Function.update st.hold ring (l.drop (min n kBurstSize))) (.bufs i)
    (l.take (min n kBurstSize)))

/-- `tx_flush`, of which `rte_eth_tx_burst` takes `sent` at most. -/
def txFlush (st : Traffic) (i sent : ℕ) : Traffic :=
  let l := st.hold (.tx i)
  if l = [] then st
  else
    let nb := min sent l.length
    let bytes := ((l.take nb).map (·.m.pktLen)).sum
    let w := ((st.workers i).addStat .tx nb).addBytes .tx bytes
    let w := if nb < l.length then w.addStat .txFull (l.length - nb) else w
    (st.setWorker i w).setHold (share st.hold (.tx i) nb .sent (.dropped (.worker i) .txFull))

/-- `tx_buffer_add`, of the first packet in `bufs`. -/
def txBufferAdd (st : Traffic) (i : ℕ) (p : Packet) (rest : List Packet) (sent : ℕ) : Except Fault Traffic :=
  let count := (st.hold (.tx i)).length
  if count ≥ kBurstSize then .error (.index count kBurstSize)
  else
    let st := st.setHold (pass st.hold (.bufs i) rest (.tx i) [p])
    .ok (if count + 1 ≥ kBurstSize then st.txFlush i sent else st)

/-- The end of `handle`: what becomes of the packet `p`. -/
def finish (st : Traffic) (i : ℕ) (p : Packet) (rest : List Packet) (took : Bool) (sent : ℕ) :
    Outcome → Except Fault Traffic
  | (w, m, .send) => (st.setWorker i w).txBufferAdd i ⟨p.tag, m⟩ rest sent
  | (w, m, .redirect k) =>
    if k < dp.steering.n && took then
      .ok ((st.setWorker i (w.count .redirectOut)).setHold
        (pass st.hold (.bufs i) rest (.redirectRing k) [⟨p.tag, m⟩]))
    else
      .ok ((st.setWorker i (w.count .dropRedirect)).setHold
        (pass st.hold (.bufs i) rest (.dropped (.worker i) .dropRedirect) [⟨p.tag, m⟩]))
  | (w, m, .drop reason) =>
    .ok ((st.setWorker i (w.count reason)).setHold
      (pass st.hold (.bufs i) rest (.dropped (.worker i) reason) [⟨p.tag, m⟩]))
  | (w, m, .consumed) =>
    .ok ((st.setWorker i w).setHold (pass st.hold (.bufs i) rest .consumed [⟨p.tag, m⟩]))

/-- `dispatch_rx_queue`, where it groups the packets. -/
def groupNext (st : Traffic) : Except Fault Traffic :=
  match st.hold .polled with
  | [] => .ok { st with recvPc := .enqueuing 0 }
  | p :: rest => do
    let d := Dispatcher.init dp.steering dp.cfg.mode dp.cfg.localIps
    let k ← d.target dp.H p.m
    if k ≥ kMaxPipelineWorkers then throw (.index k kMaxPipelineWorkers)
    return {
      st with
      recvBytes := Function.update st.recvBytes .rx (st.recvBytes .rx + p.m.pktLen)
      hold := pass st.hold .polled rest (.group k) [p] }

/-- `dispatch_rx_queue`, where it offers the group of worker `w` to its ring. -/
def enqueueGroup (st : Traffic) (w done : ℕ) : Traffic :=
  let l := st.hold (.group w)
  let nb := min done l.length
  { st with
    recvPc := .enqueuing (w + 1)
    recvStats := Function.update st.recvStats .dropRxRing (st.recvStats .dropRxRing + (l.length - nb))
    hold := share st.hold (.group w) nb (.rxRing w) (.dropped .receiver .dropRxRing) }

/-- A step of the control plane, or of a worker between two rounds. -/
def outside (st : Traffic) (ev : Event) : Except Fault Traffic := do
  let W ← World.step dp ⟨st.mgr, st.snaps, st.workers, fun _ => []⟩ ev
  return { st with mgr := W.mgr, snaps := W.snaps, workers := W.workers }

def step (st : Traffic) : Act → Except Fault Traffic
  | .rxBurst i ms =>
    match st.pcs i with
    | .receive (left + 1) =>
      if dp.pipeline || decide (ms.length > kBurstSize) then .ok st
      else
        let w := ((st.workers i).addStat .rx ms.length).addBytes .rx (ms.map (·.pktLen)).sum
        let st' := (st.setWorker i w).setPc i (.handle false left)
        .ok { st'.setHold (Function.update st.hold (.bufs i) (newPackets st.next ms)) with
          next := st.next + ms.length }
    | _ => .ok st
  | .dequeue i n =>
    match st.pcs i with
    | .receive (left + 1) =>
      if !dp.pipeline then .ok st
      else
        let st' := st.refill i (.rxRing i) n
        let w := (st.workers i).addStat .ringIn (st'.hold (.bufs i)).length
        .ok ((st'.setWorker i w).setPc i (.handle false left))
    | _ => .ok st
  | .dequeueRedirect i n =>
    if st.pcs i = .redirects then
      let st' := st.refill i (.redirectRing i) n
      let w := (st.workers i).addStat .redirectIn (st'.hold (.bufs i)).length
      .ok ((st'.setWorker i w).setPc i (.handle true 0))
    else .ok st
  | .handle i view took sent =>
    match st.pcs i, st.hold (.bufs i) with
    | .handle redirected _, p :: rest => do
      st.finish dp i p rest took sent (← processPacket dp view (st.workers i) (st.snaps i) p.m redirected)
    | _, _ => .ok st
  | .advance i =>
    match st.pcs i, st.hold (.bufs i) with
    | .receive 0, _ => .ok (st.setPc i .redirects)
    | .handle false left, [] => .ok (st.setPc i (.receive left))
    | .handle true _, [] => .ok (st.setPc i .flush)
    | _, _ => .ok st
  | .flush i sent =>
    if st.pcs i = .flush then .ok ((st.txFlush i sent).setPc i (top dp numRxQueues i))
    else if st.pcs i = .exit then .ok ((st.txFlush i sent).setPc i .stopped)
    else .ok st
  | .stop i => if st.pcs i = top dp numRxQueues i then .ok (st.setPc i .exit) else .ok st
  | .poll ms =>
    if dp.pipeline && st.recvPc = .idle && decide (0 < ms.length ∧ ms.length ≤ kBurstSize) then
      .ok { st with
        recvPc := .grouping
        recvStats := Function.update st.recvStats .rx (st.recvStats .rx + ms.length)
        -- `bufs`, `groups` and `counts` are the function's own
        hold := fun p => match p with
          | .polled => newPackets st.next ms
          | .group _ => []
          | p => st.hold p
        next := st.next + ms.length }
    else .ok st
  | .group => if st.recvPc = .grouping then st.groupNext dp else .ok st
  | .enqueue done =>
    match st.recvPc with
    | .enqueuing w => .ok (if w < dp.steering.n then st.enqueueGroup w done else { st with recvPc := .idle })
    | _ => .ok st
  | .between ev =>
    match ev with
    | .turn i | .readClock i _ => if st.pcs i = top dp numRxQueues i then st.outside dp ev else .ok st
    | .command _ => st.outside dp ev
    | _ => .ok st

/-- The state after a run. -/
def run (st : Traffic) (as : List Act) : Except Fault Traffic := as.foldlM (step dp numRxQueues) st

/-- The states of the data plane. -/
inductive Reach : Traffic → Prop
  | boot {st : Traffic} (h : boot dp numRxQueues = .ok st) : Reach st
  | step {st st' : Traffic} (a : Act) (h : Reach st) (hv : a.Valid dp.steering.n)
      (hs : st.step dp numRxQueues a = .ok st') : Reach st'

theorem Reach.run {dp : Dataplane} {numRxQueues : ℕ} {as : List Act} {st st' : Traffic}
    (h : Reach dp numRxQueues st) (hv : ∀ a ∈ as, a.Valid dp.steering.n)
    (hr : st.run dp numRxQueues as = .ok st') : Reach dp numRxQueues st' := by
  induction as generalizing st with
  | nil => exact Except.ok.inj hr ▸ h
  | cons a as ih =>
    unfold Traffic.run at hr
    rw [List.foldlM_cons] at hr
    obtain ⟨st1, h1, hr⟩ := bind_eq_ok.mp hr
    exact ih (.step a h (hv a List.mem_cons_self) h1) (fun b hb => hv b (List.mem_cons_of_mem _ hb)) hr

/-- A state that a run from the start leads to. -/
theorem exists_reach (dp : Dataplane) (numRxQueues : ℕ) (as : List Act) {P : Traffic → Prop}
    (hv : ∀ a ∈ as, a.Valid dp.steering.n)
    (h : Returns (Traffic.boot dp numRxQueues >>= fun st => st.run dp numRxQueues as) P) :
    ∃ st, Reach dp numRxQueues st ∧ P st := by
  obtain ⟨st, hst, hP⟩ := h
  obtain ⟨st0, h0, hr⟩ := bind_eq_ok.mp hst
  exact ⟨st, Reach.run (.boot h0) hv hr, hP⟩

end Traffic

end L4Lb
