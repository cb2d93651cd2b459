/-
# The workers in the data plane

`World` has the workers take one frame after the other; in `Traffic` the frames
come in bursts, wait in rings and go out through buffers. The workers, their
snapshots and the redirect rings of a state of the data plane are a state of
that system (`Traffic.world`), and what holds in every state of the system holds
here as well (`Traffic.reach_world`): the sessions are at their owners, and a
frame in a redirect ring belongs to the worker of the ring.
-/
import L4Lb.Traffic.Ownership

open Checked Custody

namespace L4Lb

namespace Traffic

variable {dp : Dataplane} {numRxQueues : ℕ} {st st' : Traffic}

/-- The workers of the data plane, with the frames in their redirect rings. -/
def world (st : Traffic) : World where
  mgr := st.mgr
  snaps := st.snaps
  workers := st.workers
  rings := fun k => (st.hold (.redirectRing k)).map (·.m)

/-- The sessions stay as they are, and nothing new is passed on. -/
structure Idle (st st' : Traffic) : Prop where
  mgr : st'.mgr = st.mgr
  snaps : st'.snaps = st.snaps
  workers : ∀ i, SameSessions (st.workers i) (st'.workers i)
  rings : ∀ k, st'.hold (.redirectRing k) ⊆ st.hold (.redirectRing k)

theorem Idle.refl (st : Traffic) : Idle st st := ⟨rfl, rfl, fun _ => .refl _, fun _ => List.Subset.refl _⟩

theorem Idle.trans {st'' : Traffic} (h : Idle st st') (h' : Idle st' st'') : Idle st st'' :=
  ⟨h'.mgr.trans h.mgr, h'.snaps.trans h.snaps, fun i => (h.workers i).trans (h'.workers i),
    fun k => List.Subset.trans (h'.rings k) (h.rings k)⟩

theorem Idle.inv (h : Idle st st') (hw : World.Inv dp st.world) : World.Inv dp st'.world := by
  refine ⟨?_, fun i => ?_, fun i hi => (hw.workers i hi).same (h.workers i), fun k m hm => ?_⟩
  · show SnapshotManager.Running dp.H dp.cfg st'.mgr
    rw [h.mgr]
    exact hw.running
  · show (st'.snaps i).Built dp.H dp.cfg
    rw [h.snaps]
    exact hw.snaps i
  · obtain ⟨p, hp, rfl⟩ := List.mem_map.mp hm
    exact hw.rings k _ (List.mem_map_of_mem (h.rings k hp))

theorem idle_setWorker {i : ℕ} {w : WorkerCtx} (h : SameSessions (st.workers i) w) : Idle st (st.setWorker i w) := by
  refine ⟨rfl, rfl, fun k => ?_, fun _ => List.Subset.refl _⟩
  show SameSessions (st.workers k) (Function.update st.workers i w k)
  by_cases hk : k = i
  · subst hk
    rwa [Function.update_self]
  · rw [Function.update_of_ne hk]
    exact .refl _

/-- Packets are moved, and none into a redirect ring. -/
theorem idle_setHold {hold : Place → List Packet}
    (h : ∀ k, hold (.redirectRing k) ⊆ st.hold (.redirectRing k)) : Idle st (st.setHold hold) :=
  ⟨rfl, rfl, fun _ => .refl _, h⟩

theorem idle_pass {p q : Place} {rest l : List Packet} (hp : ∀ k, p ≠ .redirectRing k) (hq : ∀ k, q ≠ .redirectRing k) :
    Idle st (st.setHold (pass st.hold p rest q l)) := by
  refine idle_setHold fun k => ?_
  rw [pass_of_ne (hp k).symm (hq k).symm]
  exact List.Subset.refl _

theorem idle_setPc (i : ℕ) (pc : WorkerPc) : Idle st (st.setPc i pc) :=
  ⟨rfl, rfl, fun _ => .refl _, fun _ => List.Subset.refl _⟩

theorem sameSessions_addStat (w : WorkerCtx) (s : Stat) (n : ℕ) : SameSessions w (w.addStat s n) := ⟨rfl, rfl, rfl⟩

theorem sameSessions_addBytes (w : WorkerCtx) (s : ByteStat) (n : ℕ) : SameSessions w (w.addBytes s n) :=
  ⟨rfl, rfl, rfl⟩

theorem idle_txFlush (i sent : ℕ) : Idle st (st.txFlush i sent) := by
  unfold txFlush
  simp only
  split
  · exact .refl st
  have hw : SameSessions (st.workers i) _ := (sameSessions_addStat (st.workers i) .tx
    (min sent (st.hold (.tx i)).length)).trans (sameSessions_addBytes _ .tx
      (((st.hold (.tx i)).take (min sent (st.hold (.tx i)).length)).map (·.m.pktLen)).sum)
  refine (idle_setWorker (.ite (hw.trans (sameSessions_addStat _ .txFull _)) hw)).trans (idle_setHold fun k => ?_)
  rw [share_apply (by simp) (by simp) (by simp)]
  exact List.Subset.refl _

theorem idle_refill (i n : ℕ) (ring : Place) : Idle st (st.refill i ring n) := by
  refine idle_setHold fun k => ?_
  rw [Function.update_of_ne (by simp)]
  by_cases hk : Place.redirectRing k = ring
  · rw [hk, Function.update_self]
    exact List.drop_subset _ _
  · rw [Function.update_of_ne hk]
    exact List.Subset.refl _

theorem idle_txBufferAdd {i sent : ℕ} {p : Packet} {rest : List Packet}
    (hs : st.txBufferAdd i p rest sent = .ok st') : Idle st st' := by
  unfold txBufferAdd at hs
  simp only at hs
  split at hs
  · simp at hs
  obtain rfl := Except.ok.inj hs
  have hpass : Idle st (st.setHold (pass st.hold (.bufs i) rest (.tx i) [p])) := idle_pass (by simp) (by simp)
  split
  · exact hpass.trans (idle_txFlush i sent)
  · exact hpass

/-! ### The steps -/

/-- The worker that has handled a packet. -/
theorem world_setWorker {i : ℕ} {w : WorkerCtx} (h : World.Inv dp st.world) (hw : WorkerOk dp i w) :
    World.Inv dp (st.setWorker i w).world := h.setWorker hw

/-- The end of `handle` keeps what a packet leaves in order. -/
theorem world_finish {i sent : ℕ} {p : Packet} {rest : List Packet} {took : Bool} {o : Outcome}
    (h : World.Inv dp st.world) (hw : WorkerOk dp i o.1) (hr : ∀ k, o.2.2 = .redirect k → Owned dp k o.2.1)
    (hs : st.finish dp i p rest took sent o = .ok st') : World.Inv dp st'.world := by
  obtain ⟨w, m, r⟩ := o
  have hcount : ∀ s, World.Inv dp (st.setWorker i (w.count s)).world := fun s =>
    world_setWorker h (hw.same (.count w s))
  cases r with
  | send => exact (idle_txBufferAdd hs).inv (world_setWorker h hw)
  | consumed =>
    obtain rfl := Except.ok.inj hs
    exact (idle_pass (by simp) (by simp)).inv (world_setWorker h hw)
  | drop reason =>
    obtain rfl := Except.ok.inj hs
    exact (idle_pass (by simp) (by simp)).inv (hcount reason)
  | redirect k =>
    simp only [Traffic.finish] at hs
    split at hs
    · obtain rfl := Except.ok.inj hs
      have hc := hcount .redirectOut
      refine ⟨hc.running, hc.snaps, hc.workers, fun j m' hm' => ?_⟩
      obtain ⟨p', hp', rfl⟩ := List.mem_map.mp hm'
      rw [hold_setHold, pass_apply] at hp'
      split at hp'
      · rename_i he
        obtain rfl := Place.redirectRing.inj he
        rcases List.mem_append.mp hp' with hp' | hp'
        · exact h.rings j _ (List.mem_map_of_mem hp')
        · obtain rfl := List.mem_singleton.mp hp'
          exact hr j rfl
      · simp only [reduceCtorEq, if_false] at hp'
        exact h.rings j _ (List.mem_map_of_mem hp')
    · obtain rfl := Except.ok.inj hs
      exact (idle_pass (by simp) (by simp)).inv (hcount .dropRedirect)

/-- What a worker makes of a frame it has. -/
theorem world_handled {i : ℕ} {m : Mbuf} {view : NeighView} {redirected : Bool} {o : Outcome}
    (h : World.Inv dp st.world) (hi : i < dp.steering.n)
    (ho : processPacket dp view (st.workers i) (st.snaps i) m redirected = .ok o) :
    WorkerOk dp i o.1 ∧ ∀ k, o.2.2 = .redirect k → o.2.1 = m ∧ redirected = false ∧ Owned dp k m := by
  obtain ⟨h1, h2⟩ := processPacket_keeps (h.snaps i) (h.workers i hi) ho
  refine ⟨h1, fun k hk => ?_⟩
  obtain ⟨he, hred, path, hp, hown⟩ := h2 k hk
  refine ⟨he, hred, fun snap hb => ?_⟩
  obtain ⟨path', hp', hown'⟩ := pathOf_owner_eq (h.snaps i) hb hp
  exact ⟨path', hp', hown'.trans hown⟩

/-- A step of the control plane, or of a worker between two rounds. -/
theorem world_outside (hcfg : Config.Accepted dp.cfg) (h : World.Inv dp st.world) {ev : Event}
    (hv : ev.Valid dp.steering.n) (hs : st.outside dp ev = .ok st') : World.Inv dp st'.world := by
  obtain ⟨W, hW, hs⟩ := bind_eq_ok.mp hs
  obtain rfl := Except.ok.inj hs
  have hinv : World.Inv dp ⟨st.mgr, st.snaps, st.workers, fun _ => []⟩ :=
    ⟨h.running, h.snaps, h.workers, fun _ _ hm => by simp at hm⟩
  have hinv' := hinv.step hcfg hv hW
  exact ⟨hinv'.running, hinv'.snaps, hinv'.workers, h.rings⟩

/-- Every step other than the handling of a packet leaves the sessions to the
events of `World`. -/
theorem world_step (hcfg : Config.Accepted dp.cfg) (h : World.Inv dp st.world) {a : Act} (hv : a.Valid dp.steering.n)
    (hs : st.step dp numRxQueues a = .ok st') : World.Inv dp st'.world := by
  have stay : (.ok st : Except Fault Traffic) = .ok st' → World.Inv dp st'.world := fun he => Except.ok.inj he ▸ h
  cases a with
  | rxBurst i ms =>
    simp only [Traffic.step] at hs
    split at hs
    · split at hs
      · exact stay hs
      · obtain rfl := Except.ok.inj hs
        have hw : SameSessions (st.workers i) _ := (sameSessions_addStat (st.workers i) .rx ms.length).trans
          (sameSessions_addBytes _ .rx (ms.map (·.pktLen)).sum)
        exact (idle_setWorker hw).inv h
    · exact stay hs
  | dequeue i n =>
    simp only [Traffic.step] at hs
    split at hs
    · split at hs
      · exact stay hs
      · obtain rfl := Except.ok.inj hs
        exact ((idle_refill i n _).trans (idle_setWorker (sameSessions_addStat _ .ringIn _))).inv h
    · exact stay hs
  | dequeueRedirect i n =>
    simp only [Traffic.step] at hs
    split at hs
    · obtain rfl := Except.ok.inj hs
      exact ((idle_refill i n _).trans (idle_setWorker (sameSessions_addStat _ .redirectIn _))).inv h
    · exact stay hs
  | handle i view took sent =>
    simp only [Traffic.step] at hs
    split at hs
    · obtain ⟨o, ho, hs⟩ := bind_eq_ok.mp hs
      obtain ⟨hw, hr⟩ := world_handled h hv ho
      refine world_finish h hw (fun k hk => ?_) hs
      obtain ⟨he, -, hown⟩ := hr k hk
      exact he ▸ hown
    · exact stay hs
  | advance i =>
    simp only [Traffic.step] at hs
    split at hs
    · exact Except.ok.inj hs ▸ (idle_setPc i _).inv h
    · exact Except.ok.inj hs ▸ (idle_setPc i _).inv h
    · exact Except.ok.inj hs ▸ (idle_setPc i _).inv h
    · exact stay hs
  | flush i sent =>
    simp only [Traffic.step] at hs
    split at hs
    · exact Except.ok.inj hs ▸ ((idle_txFlush i sent).trans (idle_setPc i _)).inv h
    split at hs
    · exact Except.ok.inj hs ▸ ((idle_txFlush i sent).trans (idle_setPc i _)).inv h
    · exact stay hs
  | stop i =>
    simp only [Traffic.step] at hs
    split at hs
    · exact Except.ok.inj hs ▸ (idle_setPc i _).inv h
    · exact stay hs
  | poll ms =>
    simp only [Traffic.step] at hs
    split at hs
    · obtain rfl := Except.ok.inj hs
      exact h
    · exact stay hs
  | group =>
    simp only [Traffic.step] at hs
    split at hs
    · unfold groupNext at hs
      split at hs
      · obtain rfl := Except.ok.inj hs
        exact h
      · obtain ⟨k, -, hs⟩ := bind_eq_ok.mp hs
        split at hs
        · simp at hs
        obtain rfl := Except.ok.inj hs
        exact (idle_pass (by simp) (by simp)).inv h
    · exact stay hs
  | enqueue done =>
    simp only [Traffic.step] at hs
    split at hs
    · obtain rfl := Except.ok.inj hs
      split
      · refine (idle_setHold fun k => ?_).inv h
        rw [share_apply (by simp) (by simp) (by simp)]
        simp
      · exact h
    · exact stay hs
  | between ev =>
    have hv : ev.Valid dp.steering.n := hv
    cases ev with
    | receive i m view => exact stay hs
    | takeRedirected i view => exact stay hs
    | turn i =>
      simp only [Traffic.step] at hs
      split at hs
      · exact world_outside hcfg h hv hs
      · exact stay hs
    | readClock i tsc =>
      simp only [Traffic.step] at hs
      split at hs
      · exact world_outside hcfg h hv hs
      · exact stay hs
    | command c => exact world_outside hcfg h hv hs

/-- **The workers of the data plane** are in order in every state. -/
theorem reach_world (hcfg : Config.Accepted dp.cfg) (h : Reach dp numRxQueues st) : World.Inv dp st.world := by
  induction h with
  | boot hb =>
    obtain ⟨W, hW, hs⟩ := bind_eq_ok.mp hb
    obtain rfl := Except.ok.inj hs
    obtain ⟨W', hW', hinv, -⟩ := World.boot_returns hcfg
    rw [hW] at hW'
    obtain rfl := Except.ok.inj hW'
    exact ⟨hinv.running, hinv.snaps, hinv.workers, fun _ _ hm => by simp [world] at hm⟩
  | step a _ hv hs ih => exact world_step hcfg ih hv hs

end Traffic

end L4Lb
