/-
# The NIC and the owners

With RSS the NIC spreads the packets over its queues, and each worker polls the
queues that are its index modulo the number of workers. The steering computes the
owners so that they fit: where the program knows the table and the key of the NIC
(`PortInfo.Works`), a packet for TCP or UDP comes to the worker that owns it by
itself. Only the return packets of a protocol whose ports the NIC does not hash
go by their port, and may have to be passed on.

`Traced.Placed` are the runs with such a NIC: every burst is of one of the
worker's queues.
-/
import L4Lb.Port
import L4Lb.Traffic.Order

open Checked Custody

namespace L4Lb

/-! ### Queues and owners -/

namespace PortInfo

variable {port : PortInfo} {H : HashFns} {t : FiveTuple}

theorem Works.workers (h : port.Works) : 1 < port.numWorkers := by
  have hr := h.rss
  simp only [useRss, Bool.and_eq_true, decide_eq_true_eq] at hr
  exact hr.1.1.1

end PortInfo

/-- The bursts are as the NIC has placed the packets: each is of one of the
worker's queues. -/
def Act.Placed (dp : Dataplane) (port : PortInfo) (numRxQueues : ℕ) : Act → Prop
  | rxBurst i ms => ∃ q ∈ Traffic.rxqs dp numRxQueues i, ∀ m ∈ ms, ∀ p, Admitted dp m p →
      p.ipProtocol = 6 ∨ p.ipProtocol = 17 → port.queueOf dp.H p.toFiveTuple = q
  | _ => True

namespace Traced

/-- The states of the data plane behind the NIC. -/
inductive Placed (dp : Dataplane) (port : PortInfo) (numRxQueues : ℕ) : Traced → Prop
  | boot {st : Traffic} (h : Traffic.boot dp numRxQueues = .ok st) : Placed dp port numRxQueues (start st)
  | step {T T' : Traced} (a : Act) (h : Placed dp port numRxQueues T) (hv : a.Valid dp.steering.n)
      (hp : a.Placed dp port numRxQueues) (hs : T.step dp numRxQueues a = .ok T') : Placed dp port numRxQueues T'

variable {dp : Dataplane} {port : PortInfo} {numRxQueues : ℕ} {T : Traced}

theorem Placed.reach (h : Placed dp port numRxQueues T) : Reach dp numRxQueues T := by
  induction h with
  | boot h => exact .boot h
  | step a _ hv _ hs ih => exact .step a ih hv hs

theorem Placed.run {as : List Act} {st : Traffic} (h : Placed dp port numRxQueues T)
    (hv : ∀ a ∈ as, a.Valid dp.steering.n) (hp : ∀ a ∈ as, a.Placed dp port numRxQueues)
    (hr : T.st.run dp numRxQueues as = .ok st) : ∃ T', Placed dp port numRxQueues T' ∧ T'.st = st := by
  induction as generalizing T with
  | nil => exact ⟨T, h, Except.ok.inj hr⟩
  | cons a as ih =>
    unfold Traffic.run at hr
    rw [List.foldlM_cons] at hr
    obtain ⟨st1, h1, hr⟩ := bind_eq_ok.mp hr
    have hs : T.step dp numRxQueues a = .ok (T.next dp a st1) := by
      rw [Traced.step, h1]
      rfl
    exact ih (.step a h (hv a List.mem_cons_self) (hp a List.mem_cons_self) hs)
      (fun b hb => hv b (List.mem_cons_of_mem _ hb)) (fun b hb => hp b (List.mem_cons_of_mem _ hb)) hr

end Traced

end L4Lb
