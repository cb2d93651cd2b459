/-
# The caches of next hops are transparent

Every change of the neighbour table is counted, and a session keeps the id of
one real server, which has one address in all snapshots. So a cache of the
current generation has what the table has now, and the workers behave as if
every next hop were looked up.
-/
import L4Lb.Net
import L4Lb.Neigh.Consistent
import L4Lb.Processor.Caches
import L4Lb.World.Lineage

open Checked

namespace L4Lb

/-! ### The table -/

theorem NeighTable.generation_eq {t : NeighTable} (h : t.changes < 2 ^ 32 - 1) : t.generation = 1 + t.changes := by
  unfold NeighTable.generation
  exact Nat.mod_eq_of_lt (by omega)

section Frames

variable {dp : Dataplane} {view view' : NeighView} {addr addr' : ℕ → IPv4Addr → Prop} {w w' : WorkerCtx}

theorem Cached.call {t t' : NeighTable} (ha : NeighTable.Acts t t') (hlt : t'.changes < 2 ^ 32 - 1) {hop : IPv4Addr}
    {mac : MacAddr} {gen : ℕ} (h : Cached t.view hop mac gen) : Cached t'.view hop mac gen := by
  have hle := ha.le
  have hgen : t.view.generation = 1 + t.changes := NeighTable.generation_eq (by omega)
  have hgen' : t'.view.generation = 1 + t'.changes := NeighTable.generation_eq hlt
  have hg := h.le
  refine ⟨by omega, fun he => ?_⟩
  have hc : t'.changes = t.changes := by omega
  obtain ⟨h0, hl⟩ := h.hit (by omega)
  exact ⟨h0, (ha.same hc hop).trans hl⟩

/-- A call on the table leaves the caches sound. -/
theorem WorkerCtx.Sound.call {t t' : NeighTable} (ha : NeighTable.Acts t t') (hlt : t'.changes < 2 ^ 32 - 1)
    (h : w.Sound dp.route t.view addr) : w.Sound dp.route t'.view addr := by
  intro j
  have hle := ha.le
  have hgen : t.view.generation = 1 + t.changes := NeighTable.generation_eq (by omega)
  have hgen' : t'.view.generation = 1 + t'.changes := NeighTable.generation_eq hlt
  have hg := (h j).le
  refine ⟨by omega, fun he => ?_, (h j).client.call ha hlt⟩
  obtain ⟨ip, hip, hc⟩ := (h j).hit (by omega)
  exact ⟨ip, hip, hc.call ha hlt⟩

theorem WorkerCtx.Sound.mono (h : w.Sound dp.route view addr) (ha : ∀ id ip, addr id ip → addr' id ip) :
    w.Sound dp.route view addr' := by
  intro j
  refine ⟨(h j).le, fun he => ?_, (h j).client⟩
  obtain ⟨ip, hip, hc⟩ := (h j).hit he
  exact ⟨ip, ha _ ip hip, hc⟩

theorem WorkerCtx.Sound.of_hops (h : w.Sound dp.route view addr)
    (hs : ∀ j, (w'.session j).hops = (w.session j).hops) : w'.Sound dp.route view addr :=
  fun j => hs j ▸ h j

theorem WorkerCtx.Sound.of_same (h : w.Sound dp.route view addr) (hs : w'.sessions = w.sessions) :
    w'.Sound dp.route view addr :=
  h.of_hops fun j => congrArg (fun t : SessionTable => (t.sessions j).hops) hs

end Frames

namespace Net

variable {dp : Dataplane} {statics : List StaticNeigh} {N : Net} {W W' : World} {view : NeighView}
  {addr : ℕ → IPv4Addr → Prop}

/-! ### The steps of the workers -/

theorem sound_handle {i : ℕ} {w : WorkerCtx} {m : Mbuf} {redirected : Bool} (rings : ℕ → List Mbuf)
    (hgen : 0 < view.generation) (h : ∀ k, (W.workers k).Sound dp.route view addr)
    (ha : (W.snaps i).Addresses addr) (hw : w.sessions = (W.workers i).sessions)
    (hs : { W with rings := rings }.handle dp view i w m redirected = .ok W') (k : ℕ) :
    (W'.workers k).Sound dp.route view addr := by
  unfold World.handle at hs
  obtain ⟨o, ho, hs⟩ := bind_eq_ok.mp hs
  obtain rfl := Except.ok.inj hs
  obtain ⟨o', h'⟩ := (processPacket_twins (.refl ((h i).of_same hw)) hgen ha m redirected).left o ho
  have hset : ∀ {u : WorkerCtx}, u.sessions = o.1.sessions →
      (Function.update W.workers i u k).Sound dp.route view addr := by
    intro u hu
    by_cases hk : k = i
    · subst hk
      rw [Function.update_self]
      exact h'.twins.sound.of_same hu
    · rw [Function.update_of_ne hk]
      exact h k
  obtain ⟨w', m', r⟩ := o
  cases r with
  | send => exact hset rfl
  | consumed => exact hset rfl
  | drop reason => exact hset rfl
  | redirect k' =>
    simp only [World.finish]
    split
    · exact hset rfl
    · exact hset rfl

/-- A step of the workers leaves the caches sound. -/
theorem sound_step {ev : Event} (hinv : World.Inv dp W) (hgen : 0 < view.generation)
    (h : ∀ k, (W.workers k).Sound dp.route view addr) (ha : ∀ i, (W.snaps i).Addresses addr)
    (hv : ev.Valid dp.steering.n) (hs : W.step dp (ev.seeing view) = .ok W') (k : ℕ) :
    (W'.workers k).Sound dp.route view addr := by
  cases ev with
  | receive i m _ => exact sound_handle W.rings hgen h (ha i) (World.sameSessions_received dp _ m).sessions hs k
  | takeRedirected i _ =>
    simp only [Event.seeing, World.step] at hs
    cases hring : W.rings i with
    | nil =>
      rw [hring] at hs
      obtain rfl := Except.ok.inj hs
      exact h k
    | cons m rest =>
      rw [hring] at hs
      exact sound_handle _ hgen h (ha i) (SameSessions.count _ _).sessions hs k
  | turn i =>
    obtain ⟨snap, hcur, -⟩ := hinv.running.cur
    simp only [Event.seeing, World.step, hcur] at hs
    split at hs
    · obtain rfl := Except.ok.inj hs
      exact h k
    · obtain rfl := Except.ok.inj hs
      show (Function.update W.workers i _ k).Sound dp.route view addr
      by_cases hk : k = i
      · subst hk
        rw [Function.update_self]
        exact (h k).of_same rfl
      · rw [Function.update_of_ne hk]
        exact h k
  | readClock i tsc =>
    obtain ⟨w', hw', hs⟩ := bind_eq_ok.mp hs
    obtain rfl := Except.ok.inj hs
    show (Function.update W.workers i w' k).Sound dp.route view addr
    by_cases hk : k = i
    · subst hk
      rw [Function.update_self]
      unfold WorkerCtx.readClock at hw'
      simp only at hw'
      cases he : (W.workers k).sessions.expire (dp.clock.now tsc).tick.toNat with
      | none => simp [he] at hw'
      | some r =>
        rw [he] at hw'
        obtain rfl := Except.ok.inj hw'
        obtain ⟨⟨out, -, -, hout⟩, -⟩ := (SessionTable.expire_spec (hinv.workers k hv).fit _).1 r he
        exact (h k).of_hops fun j => Session.hops_of_core (hout.core j)
    · rw [Function.update_of_ne hk]
      exact h k
  | command c =>
    obtain ⟨mgr, hm, hs⟩ := bind_eq_ok.mp hs
    obtain rfl := Except.ok.inj hs
    exact h k

/-! ### Every run -/

/-- The addresses of the log. -/
def AddrOf (log : List RsEntry) (id : ℕ) (ip : IPv4Addr) : Prop := ∃ e ∈ log, e.id = id ∧ e.ip = ip

theorem addresses {log : List RsEntry} (hcfg : Config.Accepted dp.cfg) (h : World.Logged dp W log) {snap : Snapshot}
    (hs : W.Shown snap) : snap.Addresses (AddrOf log) := by
  intro id rs hrs ip
  obtain ⟨hid, -, hmem⟩ := h.shown snap hs id rs hrs
  constructor
  · rintro ⟨e, he, heid, rfl⟩
    have heq := (h.history.logged hcfg.valid).eq_of_id he hmem (heid.trans hid.symm)
    exact congrArg RsEntry.ip heq
  · rintro rfl
    exact ⟨rs.entry, hmem, hid, rfl⟩

/-- The caches of all workers are sound, as long as the generation does not
wrap around. -/
structure Sound (dp : Dataplane) (N : Net) (log : List RsEntry) : Prop where
  logged : World.Logged dp N.world log
  ok : NeighTable.Ok N.neigh
  caches : N.neigh.changes < 2 ^ 32 - 1 → ∀ i, (N.world.workers i).Sound dp.route N.neigh.view (AddrOf log)

theorem reach_sound (hcfg : Config.Accepted dp.cfg) (h : Reach dp statics N) : ∃ log, Sound dp N log := by
  induction h with
  | @boot W hb =>
    obtain ⟨log, hlog⟩ := World.reach_logged hcfg (.boot hb)
    obtain ⟨mgr, snap, hm, hcur, rfl⟩ := World.boot_eq_ok hb
    refine ⟨log, hlog, (NeighTable.startUp_spec statics).ok, fun hlt i j => ?_⟩
    have hgen : 0 < (NeighTable.startUp statics).view.generation := by
      rw [show (NeighTable.startUp statics).view.generation = _ from NeighTable.generation_eq hlt]
      omega
    have hempty : (((WorkerCtx.init dp.cfg dp.steering.n i).session j)).Empty := by
      show Session.Empty (if j < _ then _ else _)
      split
      · exact ⟨rfl, rfl⟩
      · exact ⟨rfl, rfl⟩
    exact .empty hgen hempty.1 hempty.2
  | @work N W ev hr hv hs ih =>
    obtain ⟨log, hlog, hok, hc⟩ := ih
    have hinv := World.reach_inv hcfg hr.world
    obtain ⟨log', hsub, hlog'⟩ := hlog.step hcfg (World.step_moves hinv (Event.valid_seeing hv _) hs)
    refine ⟨log', hlog', hok, fun hlt i => ?_⟩
    have hgen : 0 < N.neigh.view.generation := by
      rw [show N.neigh.view.generation = 1 + N.neigh.changes from NeighTable.generation_eq hlt]
      omega
    have hstep := sound_step hinv hgen (hc hlt) (fun i => addresses hcfg hlog (Or.inr ⟨i, rfl⟩)) hv hs i
    exact hstep.mono fun id ip ⟨e, he, hid, hip⟩ => ⟨e, hsub he, hid, hip⟩
  | @call N op hr ih =>
    obtain ⟨log, hlog, hok, hc⟩ := ih
    have ha := NeighTable.apply_acts hok op
    exact ⟨log, hlog, ha.ok, fun hlt i => (hc (ha.le.trans_lt hlt) i).call ha hlt⟩

/-- **The caches are transparent.** In every state that any packets and any
calls on the neighbour table lead to, with fewer than 2³² - 1 changes of the
table, the next hops of every session resolve to what a lookup gives; and every
packet has the same verdict, frame and events, and leaves the same worker but
for the caches, as with all caches empty. -/
theorem transparent (hcfg : Config.Accepted dp.cfg) (h : Reach dp statics N) (hlt : N.neigh.changes < 2 ^ 32 - 1)
    (i : ℕ) :
    (∀ snap, N.world.Shown snap → ∀ j rs, snap.rs ((N.world.workers i).session j).rsId = some rs →
      (resolveRsMac dp N.neigh.view (N.world.workers i) j rs).2 = freshRsMac dp N.neigh.view rs) ∧
    (∀ j, (resolveClientMac dp N.neigh.view (N.world.workers i) j).2 =
      freshClientMac dp N.neigh.view ((N.world.workers i).session j)) ∧
    ∀ w m redirected, w.sessions = (N.world.workers i).sessions →
      Agree (fun o o' => o.1.forget = o'.1.forget ∧ o.2 = o'.2)
        (processPacket dp N.neigh.view w (N.world.snaps i) m redirected)
        (processPacket dp N.neigh.view w.forget (N.world.snaps i) m redirected) := by
  obtain ⟨log, hlog, -, hc⟩ := reach_sound hcfg h
  have hs := hc hlt i
  refine ⟨fun snap hsnap j rs hrs => ?_, fun j => (resolveClientMac_spec hs j).1, fun w m redirected hw => ?_⟩
  · exact (resolveRsMac_spec hs (addresses hcfg hlog hsnap _ rs hrs)).1
  · have hgen : 0 < N.neigh.view.generation := by
      rw [show N.neigh.view.generation = _ from NeighTable.generation_eq hlt]
      omega
    have ht : Twins dp N.neigh.view (AddrOf log) w w.forget := .forgot hgen (hs.of_same hw)
    refine (processPacket_twins ht hgen (addresses hcfg hlog (Or.inr ⟨i, rfl⟩)) m redirected).mono ?_
    exact fun o o' ho => ⟨ho.twins.forget, ho.verdict⟩

/-- The real server is learned, then a query is forwarded. -/
theorem transparent_query : ∃ N, Reach plainDemo [] N ∧
    ((N.world.workers 0).session 0).rsMacGen = N.neigh.generation ∧
    ∃ rs, (N.world.snaps 0).rs ((N.world.workers 0).session 0).rsId = some rs ∧
      (resolveRsMac plainDemo N.neigh.view (N.world.workers 0) 0 rs).2 = some plainMac := by
  let op : NeighOp := .learn 0x0101000A plainMac true 1 true
  let t := (NeighTable.startUp []).apply op
  have hrun : Returns (World.boot plainDemo >>= fun W => W.step plainDemo (.receive 0 queryFrame t.view)) fun W =>
      ((W.workers 0).session 0).rsMacGen = t.generation ∧
      ((W.snaps 0).rs ((W.workers 0).session 0).rsId).any
        fun rs => freshRsMac plainDemo t.view rs == some plainMac := by
    decide +kernel
  obtain ⟨W, hW, hg, hrs⟩ := hrun
  obtain ⟨W0, h0, hs⟩ := bind_eq_ok.mp hW
  have hr : Reach plainDemo [] ⟨W, t⟩ := .work (.receive 0 queryFrame noNeigh) (.call op (.boot h0)) (by decide) hs
  obtain ⟨rs, hsome, hfresh⟩ := (Option.any_eq_true _ _).mp hrs
  refine ⟨_, hr, hg, rs, hsome, ?_⟩
  obtain ⟨hres, -⟩ := transparent plainDemo_accepted hr (show t.changes < 2 ^ 32 - 1 by decide) 0
  exact (hres (W.snaps 0) (Or.inr ⟨0, rfl⟩) 0 rs hsome).trans (eq_of_beq hfresh)

end Net

end L4Lb
