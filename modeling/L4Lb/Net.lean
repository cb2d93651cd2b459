/-
# The workers and the neighbour table

The system of `World.lean` with the table that the master writes and the
workers read. A packet sees the table as it is; the calls of the master come
between the packets in any order, with any arguments.
-/
import L4Lb.World
import L4Lb.Neigh

namespace L4Lb

structure Net where
  world : World
  neigh : NeighTable

/-- The event with this view of the neighbour table. -/
def Event.seeing (view : NeighView) : Event → Event
  | receive i m _ => receive i m view
  | takeRedirected i _ => takeRedirected i view
  | ev => ev

theorem Event.valid_seeing {numWorkers : ℕ} {ev : Event} (h : ev.Valid numWorkers) (view : NeighView) :
    (ev.seeing view).Valid numWorkers := by
  cases ev with
  | receive i m view => exact h
  | takeRedirected i view => exact h
  | turn i => exact h
  | readClock i tsc => exact h
  | command c => exact h

namespace Net

/-- The states of the system. -/
inductive Reach (dp : Dataplane) (statics : List StaticNeigh) : Net → Prop
  | boot {W : World} (h : World.boot dp = .ok W) : Reach dp statics ⟨W, NeighTable.startUp statics⟩
  | work {N : Net} {W : World} (ev : Event) (h : Reach dp statics N) (hv : ev.Valid dp.steering.n)
      (hs : N.world.step dp (ev.seeing N.neigh.view) = .ok W) : Reach dp statics ⟨W, N.neigh⟩
  | call {N : Net} (op : NeighOp) (h : Reach dp statics N) : Reach dp statics ⟨N.world, N.neigh.apply op⟩

variable {dp : Dataplane} {statics : List StaticNeigh} {N : Net}

theorem Reach.world (h : Reach dp statics N) : World.Reach dp N.world := by
  induction h with
  | boot h => exact .boot h
  | work ev _ hv hs ih => exact .step _ ih (Event.valid_seeing hv _) hs
  | call _ _ ih => exact ih

end Net

end L4Lb
