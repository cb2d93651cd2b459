/-
# What ICMP does to a worker

The handlers of ICMP leave the worker as it is, or look up the MAC of one next hop,
and count an error that they pass on. What these three keep, the handlers keep.
-/
import L4Lb.Processor

open Checked

namespace L4Lb

/-- `R` holds of the worker, also after it has looked up a MAC, and counting an error
keeps it. -/
structure Resolves (dp : Dataplane) (view : NeighView) (w : WorkerCtx) (R : WorkerCtx → Prop) : Prop where
  same : R w
  client : ∀ i, R (resolveClientMac dp view w i).1
  server : ∀ i rs, R (resolveRsMac dp view w i rs).1
  count : ∀ w', R w' → R (w'.count .icmpErrFwd)

/-- The reasons for which ICMP is dropped. -/
def icmpDrops : List Stat := [.dropMalformed, .dropNoSession, .dropNoNeigh, .dropTtl, .dropRedirect, .dropOther]

/-- `R` holds of the worker after the packet, and a drop has one of these reasons. -/
structure IcmpDone (R : WorkerCtx → Prop) (o : Outcome) : Prop where
  worker : R o.1
  reason : ∀ e, o.2.2 = .drop e → e ∈ icmpDrops

namespace IcmpDone

variable {R : WorkerCtx → Prop} {w : WorkerCtx} {m : Mbuf}

theorem dropped {e : Stat} (he : e ∈ icmpDrops) (h : R w) : IcmpDone R (w, m, .drop e) :=
  ⟨h, fun _ h' => Result.drop.inj h' ▸ he⟩

theorem sent (h : R w) : IcmpDone R (w, m, .send) := ⟨h, fun _ h' => by simp at h'⟩

end IcmpDone

namespace Resolves

variable {dp : Dataplane} {view : NeighView} {snap : Snapshot} {w : WorkerCtx} {m : Mbuf} {p : PacketMeta}
  {R : WorkerCtx → Prop}

theorem icmpToClient (h : Resolves dp view w R) (info : IcmpErrorInfo) :
    Ensures (icmpToClient dp view w m p info) (IcmpDone R) := by
  unfold L4Lb.icmpToClient
  simp only [pure_eq_ok]
  split
  · exact .ok (.dropped (by decide) h.same)
  rename_i i hi
  refine .ite (.ok (.dropped (by decide) h.same)) ?_
  have h1 := h.client i
  generalize resolveClientMac dp view w i = res at h1 ⊢
  obtain ⟨w1, out⟩ := res
  cases out with
  | none => exact .ok (.dropped (by decide) h1)
  | some mac => exact .after fun x => .ite (.ok (.dropped (by decide) h1)) (.ok (.sent (h.count _ h1)))

theorem icmpToServer (h : Resolves dp view w R) (info : IcmpErrorInfo) :
    Ensures (icmpToServer dp view w snap m p info) (IcmpDone R) := by
  unfold L4Lb.icmpToServer
  simp only [pure_eq_ok]
  split
  · exact .ok (.dropped (by decide) h.same)
  rename_i i hi
  refine .ite (.ok (.dropped (by decide) h.same)) ?_
  split
  · exact .ok (.dropped (by decide) h.same)
  rename_i rs hrs
  have h1 := h.server i rs
  generalize resolveRsMac dp view w i rs = res at h1 ⊢
  obtain ⟨w1, out⟩ := res
  cases out with
  | none => exact .ok (.dropped (by decide) h1)
  | some mac =>
    refine .ite (.after fun m1 => .ok (.sent (h.count _ h1))) (.after fun x => ?_)
    exact .ite (.ok (.dropped (by decide) h1)) (.ok (.sent (h.count _ h1)))

end Resolves

end L4Lb
