/-
# No use after free

The loops with `publish` are an instance of the reclamation of `L4Lb.Lib.Qsbr`
(`Rcu.abs`): what a thread holds is the snapshot it has loaded, from the load
to the report of the quiescent state. That a thread is online when it loads,
and that it uses the snapshot between the load and the report only, is read off
the code of the loops (`Loop.passes`).
-/
import L4Lb.Rcu
import L4Lb.Lib.Qsbr
import L4Lb.Snapshot.Desired
import L4Lb.World.Owners

open Checked

namespace L4Lb

/-! ### The positions of a loop -/

namespace Stage

/-- The thread is registered when `rest` is left of the stage. -/
def registered (rest : List Instr) : Stage → Bool
  | prologue => !rest.contains .register
  | body => true
  | epilogue => rest.contains .unregister

/-- The thread is online. -/
def online (rest : List Instr) : Stage → Bool
  | prologue => !rest.contains .online
  | body => true
  | epilogue => rest.contains .offline

/-- It has loaded a snapshot and not yet reported. -/
def holds (rest : List Instr) : Stage → Bool
  | prologue => false
  | body => !rest.contains .load && rest.contains .quiescent
  | epilogue => false

/-- What the next instruction does to these. -/
def Passes (st : Stage) : List Instr → Bool
  | [] => !st.holds [] && (st == epilogue || (st.registered [] && st.online []))
  | i :: rest =>
    st.registered rest == (i == .register || (i != .unregister && st.registered (i :: rest))) &&
    st.online rest == (i == .online || (i != .offline && st.online (i :: rest))) &&
    st.holds rest == (i == .load || (i != .quiescent && st.holds (i :: rest))) &&
    (i != .load || st.online (i :: rest)) &&
    (i != .use || st.holds (i :: rest)) &&
    (i != .offline || !st.holds (i :: rest))

end Stage

theorem Loop.passes (l : Loop) (st : Stage) {c : List Instr} (h : c <:+ l.code st) : st.Passes c = true := by
  have hall : ∀ c ∈ (l.code st).tails, st.Passes c = true := by cases l <;> cases st <;> decide
  exact hall c ((List.mem_tails c _).mpr h)

theorem Loop.registered_of_online (l : Loop) {st : Stage} {c : List Instr} (h : c <:+ l.code st)
    (ho : st.online c = true) : st.registered c = true := by
  have hall : ∀ c ∈ (l.code st).tails, st.online c = true → st.registered c = true := by
    cases l <;> cases st <;> decide
  exact hall c ((List.mem_tails c _).mpr h) ho

/-- What a stage starts with. -/
theorem Loop.enters (l : Loop) {st : Stage} (h : st ≠ .prologue) :
    st.registered (l.code st) = true ∧ st.online (l.code st) = true ∧ st.holds (l.code st) = false := by
  cases l <;> cases st <;> first | exact absurd rfl h | decide

/-- What a thread holds. -/
def Thread.held (th : Thread) : Option ℕ := if th.stage.holds th.rest then th.ptr else none

namespace SnapshotManager

theorem index_version {H : HashFns} {snap snap' : Snapshot} (h : snap.index H = .ok snap') :
    snap'.version = snap.version := by
  unfold Snapshot.index at h
  obtain ⟨slots, -, h⟩ := bind_eq_ok.mp h
  obtain ⟨vips, -, h⟩ := bind_eq_ok.mp h
  obtain ⟨lips, -, h⟩ := bind_eq_ok.mp h
  obtain ⟨locals, -, h⟩ := bind_eq_ok.mp h
  exact Except.ok.inj h ▸ rfl

/-- The snapshot that `publish` makes has the next version. -/
theorem publish_version {H : HashFns} {mgr mgr' : SnapshotManager} (h : mgr.publish H = .ok mgr') :
    mgr'.version = mgr.version + 1 ∧ ∃ snap, mgr'.cur = some snap ∧ snap.version = mgr'.version := by
  unfold publish at h
  obtain ⟨snap, hb, h⟩ := bind_eq_ok.mp h
  obtain rfl := Except.ok.inj h
  unfold build at hb
  obtain ⟨p, -, hi⟩ := bind_eq_ok.mp hb
  exact ⟨rfl, snap, rfl, index_version hi⟩

/-- The other commands keep the current snapshot. -/
theorem Command.run_cur {H : HashFns} {mgr mgr' : SnapshotManager} {c : Command} (hc : c ≠ .publish)
    (h : c.run H mgr = .ok mgr') : mgr'.cur = mgr.cur ∧ mgr'.version = mgr.version := by
  have hget : ∀ {x : Except String SnapshotManager}, (∀ m, x = .ok m → m.cur = mgr.cur ∧ m.version = mgr.version) →
      (x.toOption.getD mgr).cur = mgr.cur ∧ (x.toOption.getD mgr).version = mgr.version := by
    intro x hx
    cases x with
    | error => exact ⟨rfl, rfl⟩
    | ok m => exact hx m rfl
  cases c with
  | publish => exact absurd rfl hc
  | setWeight id weight =>
    obtain rfl := Except.ok.inj h
    refine hget fun m hm => ?_
    unfold SnapshotManager.setWeight at hm
    split at hm
    · exact nomatch hm
    · split_ifs at hm
      exact Except.ok.inj hm ▸ ⟨rfl, rfl⟩
  | setEnabled id enabled =>
    obtain rfl := Except.ok.inj h
    refine hget fun m hm => ?_
    unfold SnapshotManager.setEnabled at hm
    split at hm
    · exact nomatch hm
    · exact Except.ok.inj hm ▸ ⟨rfl, rfl⟩
  | addRs svcIdx rs =>
    obtain rfl := Except.ok.inj h
    refine hget fun m hm => ?_
    cases ha : mgr.addRs svcIdx rs with
    | error => rw [ha] at hm; exact nomatch hm
    | ok p =>
      rw [ha] at hm
      obtain rfl := Except.ok.inj hm
      obtain ⟨svc, -, -, hp⟩ := addRs_eq_ok (show mgr.addRs svcIdx rs = .ok (p.1, p.2) from ha)
      show p.1.cur = mgr.cur ∧ p.1.version = mgr.version
      rw [hp]
      exact ⟨rfl, rfl⟩
  | delRs id =>
    obtain rfl := Except.ok.inj h
    refine hget fun m hm => ?_
    unfold SnapshotManager.delRs at hm
    split at hm
    · exact nomatch hm
    · exact Except.ok.inj hm ▸ ⟨rfl, rfl⟩
  | setHealth id healthy =>
    obtain rfl := Except.ok.inj h
    unfold SnapshotManager.setHealth
    split <;> exact ⟨rfl, rfl⟩

end SnapshotManager

def PublishCall.abs (c : PublishCall) : Qsbr.Call ℕ ℕ := ⟨c.old, c.waits.map fun l t => t ∈ l⟩

namespace Rcu

/-- The threads as readers and the calls of `publish` as writers. -/
def abs (s : Rcu) : Qsbr.State ℕ ℕ where
  online t := s.online t = true
  held t := (s.threads t).held
  cur := s.mgr.cur.map (·.version)
  calls := s.calls.map (·.abs)
  made v := v ≤ s.mgr.version
  freed v := v ≤ s.mgr.version ∧ s.heap v = none

/-- The flags of a thread tell where it is, and no thread holds a snapshot
that is deleted. -/
structure Inv (loopOf : ℕ → Loop) (numThreads : ℕ) (s : Rcu) : Prop where
  code : ∀ t, (s.threads t).rest <:+ (loopOf t).code (s.threads t).stage
  registered : ∀ t, s.registered t = (s.threads t).stage.registered (s.threads t).rest
  online : ∀ t, s.online t = (s.threads t).stage.online (s.threads t).rest
  started : ∀ t, s.online t = true → t < numThreads
  loaded : ∀ t, (s.threads t).stage.holds (s.threads t).rest = true → (s.threads t).ptr.isSome
  cur : ∃ snap, s.mgr.cur = some snap ∧ snap.version = s.mgr.version
  safe : Qsbr.Inv s.abs

variable {H : HashFns} {cfg : LbConfig} {loopOf : ℕ → Loop} {numThreads : ℕ} {s s' : Rcu}

/-! ### The steps of a thread -/

theorem abs_setThread (s : Rcu) (t : ℕ) (th : Thread) :
    (s.setThread t th).abs = { s.abs with held := Function.update s.abs.held t th.held } := by
  have hheld : (fun x => (Function.update s.threads t th x).held) = Function.update s.abs.held t th.held := by
    funext x
    by_cases hx : x = t
    · subst hx
      simp
    · simp [hx, abs]
  exact congrArg (fun f => { s.abs with held := f }) hheld

theorem abs_report (s : Rcu) (t : ℕ) : (s.report t).abs = { s.abs with calls := s.abs.calls.map (·.report t) } := by
  have hcalls : (s.report t).abs.calls = s.abs.calls.map (·.report t) := by
    unfold abs report
    simp only [List.map_map]
    refine List.map_congr_left fun c _ => ?_
    cases hw : c.waits with
    | none => simp [PublishCall.abs, Qsbr.Call.report, hw]
    | some l =>
      simp only [Function.comp_apply, PublishCall.abs, Qsbr.Call.report, hw, Option.map_some, Qsbr.Call.mk.injEq,
        true_and]
      congr 1
      funext x
      simp
  exact congrArg (fun c => { s.abs with calls := c }) hcalls

theorem update_flag (f : ℕ → Bool) (t : ℕ) {b : Bool} {P : Prop} (hb : b = true ↔ P) :
    (fun x => Function.update f t b x = true) = Function.update (fun x => f x = true) t P := by
  funext x
  by_cases hx : x = t
  · subst hx
    simp [hb]
  · simp [hx]

/-- A thread at another position, with the flags and the pointer that belong to it. -/
theorem Inv.move (h : Inv loopOf numThreads s) {t : ℕ} (ht : t < numThreads) (st : Stage) (rest : List Instr)
    (ptr : Option ℕ) (hthreads : s'.threads = Function.update s.threads t ⟨st, rest, ptr⟩)
    (hreg : s'.registered = Function.update s.registered t (st.registered rest))
    (hon : s'.online = Function.update s.online t (st.online rest)) (hmgr : s'.mgr = s.mgr)
    (hcode : rest <:+ (loopOf t).code st) (hloaded : st.holds rest = true → ptr.isSome)
    (hsafe : Qsbr.Inv s'.abs) : Inv loopOf numThreads s' := by
  refine ⟨fun x => ?_, fun x => ?_, fun x => ?_, fun x hx => ?_, fun x => ?_, hmgr ▸ h.cur, hsafe⟩
  all_goals
    by_cases hxt : x = t
    · subst hxt
      simp_all
    · simp only [hthreads, hreg, hon, Function.update_of_ne hxt] at *
      first
        | exact h.code x
        | exact h.registered x
        | exact h.online x
        | exact h.started x hx
        | exact h.loaded x

theorem eq_update {f : ℕ → Bool} {t : ℕ} {b : Bool} (h : b = f t) : f = Function.update f t b := by
  rw [h, Function.update_eq_self]

/-- What the invariant says of a thread that is to execute `i`: where it is then,
and what of its flags and of the snapshot it holds goes with that. -/
structure Before (loopOf : ℕ → Loop) (s : Rcu) (t : ℕ) (i : Instr) (rest : List Instr) : Prop where
  code : rest <:+ (loopOf t).code (s.threads t).stage
  registered : (s.threads t).stage.registered rest = (i == .register || (i != .unregister && s.registered t))
  online : (s.threads t).stage.online rest = (i == .online || (i != .offline && s.online t))
  load : i = .load → s.online t = true ∧ (s.threads t).stage.holds rest = true
  /-- it has loaded before, or holds nothing -/
  loaded : i ≠ .load → (s.threads t).stage.holds rest = true → (s.threads t).ptr.isSome
  stays : i ≠ .load → i ≠ .quiescent → ((s.threads t).goto (s.threads t).stage rest).held = (s.threads t).held
  drops : i = .quiescent ∨ i = .offline → ((s.threads t).goto (s.threads t).stage rest).held = none

theorem Inv.before (h : Inv loopOf numThreads s) {t : ℕ} {i : Instr} {rest : List Instr}
    (hr : (s.threads t).rest = i :: rest) : Before loopOf s t i rest := by
  have hcode := h.code t
  rw [hr] at hcode
  have hp := (loopOf t).passes _ hcode
  have hreg := h.registered t
  have hon := h.online t
  have hloaded := h.loaded t
  rw [hr] at hreg hon hloaded
  simp only [Stage.Passes, Bool.and_eq_true, beq_iff_eq, ← hreg, ← hon] at hp
  obtain ⟨⟨⟨⟨⟨hpr, hpo⟩, hph⟩, hpl⟩, -⟩, hpf⟩ := hp
  have hheld : (s.threads t).held = if (s.threads t).stage.holds (i :: rest) then (s.threads t).ptr else none := by
    rw [Thread.held, hr]
  have hgoto : ((s.threads t).goto (s.threads t).stage rest).held =
      if (s.threads t).stage.holds rest then (s.threads t).ptr else none := rfl
  refine ⟨(List.suffix_cons i rest).trans hcode, hpr, hpo, ?_, ?_, ?_, ?_⟩
  · rintro rfl
    exact ⟨by simpa using hpl, hph⟩
  · intro hne hrest
    rw [hph] at hrest
    exact hloaded (by simp_all)
  · intro h1 h2
    rw [hgoto, hheld, hph]
    simp [h1, h2]
  · intro hi
    have hfree : (s.threads t).stage.holds rest = false := by
      rcases hi with rfl | rfl
      · exact hph
      · exact hph.trans (by simpa using hpf)
    rw [hgoto, hfree]
    rfl

/-- To the next instruction, after one that is not the load. -/
theorem Inv.goto (h : Inv loopOf numThreads s) {t : ℕ} (ht : t < numThreads) {i : Instr} {rest : List Instr}
    (hb : Before loopOf s t i rest) (hi : i ≠ .load) {s1 : Rcu} (hthreads : s1.threads = s.threads)
    (hreg : s1.registered = Function.update s.registered t (i == .register || (i != .unregister && s.registered t)))
    (hon : s1.online = Function.update s.online t (i == .online || (i != .offline && s.online t)))
    (hmgr : s1.mgr = s.mgr)
    (hsafe : Qsbr.Inv { s1.abs with
      held := Function.update s1.abs.held t ((s.threads t).goto (s.threads t).stage rest).held }) :
    Inv loopOf numThreads (s1.setThread t ((s1.threads t).goto (s1.threads t).stage rest)) := by
  refine h.move ht (s.threads t).stage rest (s.threads t).ptr ?_ ?_ ?_ hmgr hb.code (hb.loaded hi) ?_
  · show Function.update s1.threads t _ = _
    rw [hthreads]
    rfl
  · rw [hb.registered]
    exact hreg
  · rw [hb.online]
    exact hon
  · rw [abs_setThread, hthreads]
    exact hsafe

/-- One instruction, with the step to the next. -/
theorem Inv.exec (h : Inv loopOf numThreads s) {t : ℕ} (ht : t < numThreads) {i : Instr} {rest : List Instr}
    (hr : (s.threads t).rest = i :: rest) {s1 : Rcu} (he : s.exec t i = .ok s1) :
    Inv loopOf numThreads (s1.setThread t ((s1.threads t).goto (s1.threads t).stage rest)) := by
  have hb := h.before hr
  -- what is held stays as it was, where the instruction is neither the load nor the report
  have stays : i ≠ .load → i ≠ .quiescent →
      Function.update s.abs.held t ((s.threads t).goto (s.threads t).stage rest).held = s.abs.held := by
    intro h1 h2
    rw [hb.stays h1 h2]
    exact Function.update_eq_self t s.abs.held
  have quiet : i ≠ .load → i ≠ .quiescent → Qsbr.Inv { s.abs with
      held := Function.update s.abs.held t ((s.threads t).goto (s.threads t).stage rest).held } := by
    intro h1 h2
    rw [stays h1 h2]
    exact h.safe
  cases i with
  | register =>
    obtain rfl := Except.ok.inj he
    exact h.goto ht hb (by decide) rfl rfl (eq_update rfl) rfl (quiet (by decide) (by decide))
  | online =>
    obtain rfl := Except.ok.inj he
    refine h.goto ht hb (by decide) rfl (eq_update rfl) rfl rfl ?_
    show Qsbr.Inv { s.abs with
      online := fun x => Function.update s.online t true x = true
      held := Function.update s.abs.held t ((s.threads t).goto (s.threads t).stage rest).held }
    rw [stays (by decide) (by decide), update_flag s.online t (iff_of_true rfl trivial)]
    exact h.safe.step (.online s.abs t)
  | load =>
    obtain ⟨snap, hcur, -⟩ := h.cur
    simp only [Rcu.exec, hcur] at he
    obtain rfl := Except.ok.inj he
    obtain ⟨hon, hholds⟩ := hb.load rfl
    have hth : (s.setThread t ((s.threads t).setPtr snap.version)).threads t = (s.threads t).setPtr snap.version :=
      Function.update_self ..
    have hheld : (((s.threads t).setPtr snap.version).goto (s.threads t).stage rest).held = s.abs.cur := by
      show (if (s.threads t).stage.holds rest then some snap.version else none) = s.mgr.cur.map (·.version)
      rw [hholds, hcur]
      rfl
    rw [hth]
    refine h.move ht (s.threads t).stage rest (some snap.version) (Function.update_idem ..)
      (eq_update hb.registered) (eq_update hb.online) rfl hb.code (fun _ => rfl) ?_
    rw [abs_setThread, abs_setThread]
    simp only [Function.update_idem]
    show Qsbr.Inv { s.abs with
      held := Function.update s.abs.held t (((s.threads t).setPtr snap.version).goto (s.threads t).stage rest).held }
    rw [hheld]
    exact h.safe.step (.load s.abs t hon)
  | use =>
    rw [Rcu.exec] at he
    split at he
    · obtain rfl := Except.ok.inj he
      exact h.goto ht hb (by decide) rfl (eq_update rfl) (eq_update rfl) rfl (quiet (by decide) (by decide))
    · cases he
  | quiescent =>
    obtain rfl := Except.ok.inj he
    refine h.goto ht hb (by decide) rfl (eq_update rfl) (eq_update rfl) rfl ?_
    rw [abs_report, hb.drops (.inl rfl)]
    exact h.safe.step (.quiescent s.abs t)
  | offline =>
    obtain rfl := Except.ok.inj he
    refine h.goto ht hb (by decide) rfl (eq_update rfl) rfl rfl ?_
    rw [abs_report, hb.drops (.inr rfl)]
    show Qsbr.Inv { s.abs with
      online := fun x => Function.update s.online t false x = true
      calls := s.abs.calls.map (·.report t)
      held := Function.update s.abs.held t none }
    rw [update_flag s.online t (iff_of_false Bool.false_ne_true id)]
    exact h.safe.step (.offline s.abs t)
  | unregister =>
    obtain rfl := Except.ok.inj he
    exact h.goto ht hb (by decide) rfl rfl (eq_update rfl) rfl (quiet (by decide) (by decide))
  | other =>
    obtain rfl := Except.ok.inj he
    exact h.goto ht hb (by decide) rfl (eq_update rfl) (eq_update rfl) rfl (quiet (by decide) (by decide))

/-- At the condition of the loop. -/
theorem Inv.enter (h : Inv loopOf numThreads s) {t : ℕ} (ht : t < numThreads) (hr : (s.threads t).rest = [])
    (hst : (s.threads t).stage ≠ .epilogue) {st : Stage} (hne : st ≠ .prologue) :
    Inv loopOf numThreads (s.setThread t ((s.threads t).goto st ((loopOf t).code st))) := by
  have hcode := h.code t
  have hreg := h.registered t
  have hon := h.online t
  rw [hr] at hcode hreg hon
  have hp := (loopOf t).passes _ hcode
  simp only [Stage.Passes, Bool.and_eq_true, Bool.or_eq_true, beq_iff_eq, hst, false_or, Bool.not_eq_true'] at hp
  obtain ⟨hph, hpr, hpo⟩ := hp
  obtain ⟨her, heo, heh⟩ := (loopOf t).enters hne
  refine h.move ht st ((loopOf t).code st) (s.threads t).ptr rfl (eq_update (her.trans (hreg.trans hpr).symm))
    (eq_update (heo.trans (hon.trans hpo).symm)) rfl List.suffix_rfl (fun hf => nomatch heh.symm.trans hf) ?_
  have hsame : ((s.threads t).goto st ((loopOf t).code st)).held = s.abs.held t := by
    show (if st.holds ((loopOf t).code st) then (s.threads t).ptr else none) = (s.threads t).held
    rw [heh, Thread.held, hr, hph]
  rw [abs_setThread, hsame, Function.update_eq_self]
  exact h.safe

theorem Inv.advance (h : Inv loopOf numThreads s) {t : ℕ} (ht : t < numThreads) {running again : Bool}
    (he : s.advance loopOf t running again = .ok s') : Inv loopOf numThreads s' := by
  unfold Rcu.advance at he
  split at he
  · rename_i hr
    split at he
    · exact Except.ok.inj he ▸ h
    · rename_i hst
      obtain rfl := Except.ok.inj he
      refine h.enter ht hr hst ?_
      cases running <;> simp
  · rename_i i rest hr
    obtain ⟨s1, h1, he⟩ := bind_eq_ok.mp he
    obtain rfl := Except.ok.inj he
    split
    · -- it uses the snapshot once more
      rename_i hi
      simp only [Bool.and_eq_true, decide_eq_true_eq] at hi
      rw [hi.1, Rcu.exec] at h1
      split at h1
      · exact Except.ok.inj h1 ▸ h
      · exact nomatch h1
    · exact h.exec ht hr h1

/-! ### The steps of `publish` -/

/-- The threads stay where they are. -/
theorem Inv.of_threads (h : Inv loopOf numThreads s) (hthreads : s'.threads = s.threads)
    (hreg : s'.registered = s.registered) (hon : s'.online = s.online)
    (hcur : ∃ snap, s'.mgr.cur = some snap ∧ snap.version = s'.mgr.version) (hsafe : Qsbr.Inv s'.abs) :
    Inv loopOf numThreads s' := by
  refine ⟨?_, ?_, ?_, ?_, ?_, hcur, hsafe⟩
  · exact hthreads ▸ h.code
  · exact hthreads ▸ hreg ▸ h.registered
  · exact hthreads ▸ hon ▸ h.online
  · exact hon ▸ h.started
  · exact hthreads ▸ h.loaded

theorem Inv.exchange (h : Inv loopOf numThreads s) (hs : s.step H loopOf numThreads .exchange = .ok s') :
    Inv loopOf numThreads s' := by
  unfold Rcu.step at hs
  obtain ⟨mgr, hp, hs⟩ := bind_eq_ok.mp hs
  obtain rfl := Except.ok.inj hs
  obtain ⟨hv, snap, hcur, hsv⟩ := SnapshotManager.publish_version hp
  refine h.of_threads rfl rfl rfl ⟨snap, hcur, hsv⟩ ?_
  have hstep := h.safe.step (.exchange s.abs mgr.version (by simp only [abs]; omega))
  convert hstep using 1
  ext1
  · rfl
  · rfl
  · simp [abs, hcur, hsv]
  · simp only [abs, List.map_append]
    congr 1
    cases s.mgr.cur <;> rfl
  · funext v
    simp only [abs, eq_iff_iff, hv]
    omega
  · funext v
    simp only [abs, eq_iff_iff]
    by_cases he : v = mgr.version
    · subst he
      simp [hcur, hv]
    · simp only [Function.update_of_ne he]
      constructor
      · rintro ⟨h1, h2⟩
        exact ⟨by omega, h2⟩
      · rintro ⟨h1, h2⟩
        exact ⟨by omega, h2⟩

theorem split_at {α : Type*} {l : List α} {k : ℕ} {c : α} (h : l[k]? = some c) :
    ∃ l1 l2, l = l1 ++ c :: l2 ∧ l1.length = k := by
  obtain ⟨hk, rfl⟩ := List.getElem?_eq_some_iff.mp h
  refine ⟨l.take k, l.drop (k + 1), by simp, ?_⟩
  rw [List.length_take]
  omega

theorem Inv.wait (h : Inv loopOf numThreads s) {k : ℕ} (hs : s.step H loopOf numThreads (.wait k) = .ok s') :
    Inv loopOf numThreads s' := by
  rw [Rcu.step] at hs
  split at hs
  · rename_i old hk
    obtain rfl := Except.ok.inj hs
    obtain ⟨l1, l2, hl, hlen⟩ := split_at hk
    refine h.of_threads rfl rfl rfl h.cur ?_
    -- the threads that are registered and online
    have hwaits : (fun t => t ∈ (List.range numThreads).filter fun t => s.registered t && s.online t) =
        s.abs.online := by
      funext t
      simp only [List.mem_filter, List.mem_range, Bool.and_eq_true, abs, eq_iff_iff]
      refine ⟨fun ht => ht.2.2, fun ht => ⟨h.started t ht, ?_, ht⟩⟩
      rw [h.registered]
      exact (loopOf t).registered_of_online (h.code t) ((h.online t).symm.trans ht)
    have hstep := h.safe.step (.wait s.abs (l1.map (·.abs)) (l2.map (·.abs)) old
      (by simp [abs, hl, PublishCall.abs]))
    convert hstep using 1
    ext1
    · rfl
    · rfl
    · rfl
    · rw [← hwaits]
      simp [abs, hl, ← hlen, PublishCall.abs]
    · rfl
    · rfl
  · exact Except.ok.inj hs ▸ h

theorem Inv.free (h : Inv loopOf numThreads s) {k : ℕ} (hs : s.step H loopOf numThreads (.free k) = .ok s') :
    Inv loopOf numThreads s' := by
  rw [Rcu.step] at hs
  split at hs
  · rename_i old hk
    obtain rfl := Except.ok.inj hs
    obtain ⟨l1, l2, hl, hlen⟩ := split_at hk
    refine h.of_threads rfl rfl rfl h.cur ?_
    have hcalls : s.abs.calls = l1.map (·.abs) ++ ⟨old, some fun t => t ∈ []⟩ :: l2.map (·.abs) := by
      simp [abs, hl, PublishCall.abs]
    have hmade : old ≤ s.mgr.version := (h.safe.calls ⟨old, some fun t => t ∈ []⟩ (by simp [hcalls])).1
    have hstep := h.safe.step (.free s.abs _ _ old _ hcalls (by simp))
    convert hstep using 1
    ext1
    · rfl
    · rfl
    · rfl
    · simp [abs, hl, ← hlen, List.eraseIdx_append_of_length_le]
    · rfl
    · funext v
      simp only [abs, eq_iff_iff]
      by_cases he : v = old
      · subst he
        simp [hmade]
      · simp [he]
  · exact Except.ok.inj hs ▸ h

/-- **Every step** keeps the invariant. -/
theorem Inv.step (h : Inv loopOf numThreads s) {ev : RcuEvent} (hv : ev.Valid numThreads)
    (hs : s.step H loopOf numThreads ev = .ok s') : Inv loopOf numThreads s' := by
  cases ev with
  | thread t running again => exact h.advance hv hs
  | exchange => exact h.exchange hs
  | wait k => exact h.wait hs
  | free k => exact h.free hs
  | control c =>
    by_cases hc : c = .publish
    · subst hc
      exact Except.ok.inj hs ▸ h
    · rw [Rcu.step] at hs
      · obtain ⟨mgr, hr, hs⟩ := bind_eq_ok.mp hs
        obtain rfl := Except.ok.inj hs
        obtain ⟨hcur, hver⟩ := SnapshotManager.Command.run_cur hc hr
        refine h.of_threads rfl rfl rfl ?_ ?_
        · exact hcur ▸ hver ▸ h.cur
        · unfold abs
          simp only [hcur, hver]
          exact h.safe
      · exact hc

theorem Inv.boot (h : Rcu.boot H cfg loopOf = .ok s) : Inv loopOf numThreads s := by
  unfold Rcu.boot at h
  obtain ⟨mgr, hi, h⟩ := bind_eq_ok.mp h
  obtain rfl := Except.ok.inj h
  obtain ⟨-, snap, hcur, hver⟩ := SnapshotManager.publish_version hi
  have hflags : ∀ t, Stage.registered (loopOf t).prologue .prologue = false ∧
      Stage.online (loopOf t).prologue .prologue = false := fun t => by cases loopOf t <;> decide
  refine ⟨fun t => List.suffix_rfl, fun t => (hflags t).1.symm, fun t => (hflags t).2.symm,
    fun t ht => (nomatch ht), fun t ht => (nomatch ht), ⟨snap, hcur, hver⟩, ?_⟩
  refine ⟨fun t v hv => (nomatch hv), fun t v hv => (nomatch hv), fun v hv => ?_, fun c hc => (nomatch hc),
    List.nodup_nil, fun v hv => hv.1⟩
  simp only [abs, hcur, Option.map_some, Option.some.injEq] at hv ⊢
  subst hv
  simp [hver]

theorem reach_inv (h : Reach H cfg loopOf numThreads s) : Inv loopOf numThreads s := by
  induction h with
  | boot h => exact Inv.boot h
  | step ev h hv hs ih => exact ih.step hv hs

/-- What a thread holds is not deleted. -/
theorem Inv.alive (h : Inv loopOf numThreads s) {t v : ℕ} (hv : (s.threads t).held = some v) :
    (s.heap v).isSome := by
  have hmade : v ≤ s.mgr.version := by
    rcases h.safe.held t v hv with hc | ⟨c, hc, rfl, -⟩
    · exact (h.safe.cur v hc).1
    · exact (h.safe.calls c hc).1
  rw [Option.isSome_iff_ne_none]
  exact fun hn => h.safe.not_freed hv ⟨hmade, hn⟩

/-- It uses what it holds. -/
theorem Inv.use (h : Inv loopOf numThreads s) {t : ℕ} {rest : List Instr} (hr : (s.threads t).rest = .use :: rest) :
    ∃ v, (s.threads t).held = some v ∧ (s.threads t).ptr = some v := by
  have hcode := h.code t
  have hloaded := h.loaded t
  rw [hr] at hcode hloaded
  have hp := (loopOf t).passes _ hcode
  simp only [Stage.Passes, Bool.and_eq_true, beq_iff_eq] at hp
  obtain ⟨⟨⟨⟨⟨-, -⟩, -⟩, -⟩, hpu⟩, -⟩ := hp
  have hholds : (s.threads t).stage.holds (.use :: rest) = true := by simpa using hpu
  obtain ⟨v, hv⟩ := Option.isSome_iff_exists.mp (hloaded hholds)
  refine ⟨v, ?_, hv⟩
  rw [Thread.held, hr, if_pos hholds, hv]

theorem Inv.advance_returns (h : Inv loopOf numThreads s) (t : ℕ) (running again : Bool) :
    ∃ s', s.advance loopOf t running again = .ok s' := by
  have hexec : ∀ {i rest}, (s.threads t).rest = i :: rest → ∃ s1, s.exec t i = .ok s1 := by
    intro i rest hr
    cases i with
    | load =>
      obtain ⟨snap, hcur, -⟩ := h.cur
      rw [Rcu.exec, hcur]
      exact ⟨_, rfl⟩
    | use =>
      obtain ⟨v, hheld, hptr⟩ := h.use hr
      rw [Rcu.exec, hptr]
      exact ⟨s, if_pos (h.alive hheld)⟩
    | register | online | quiescent | offline | unregister | other => exact ⟨_, rfl⟩
  unfold Rcu.advance
  split
  · split <;> exact ⟨_, rfl⟩
  · rename_i i rest hr
    obtain ⟨s1, h1⟩ := hexec hr
    rw [h1]
    exact ⟨_, rfl⟩

/-- **No use after free.** In every state that the loops and any number of
calls of `publish` reach, a thread that is about to use a snapshot has one that
is not deleted, and no step of a thread faults. -/
theorem use_alive {H : HashFns} {cfg : LbConfig} {loopOf : ℕ → Loop} {numThreads : ℕ} {s : Rcu}
    (h : Reach H cfg loopOf numThreads s) (t : ℕ) :
    (∀ rest, (s.threads t).rest = .use :: rest →
      ∃ v snap, (s.threads t).ptr = some v ∧ s.heap v = some snap) ∧
    ∀ running again, ∃ s', s.advance loopOf t running again = .ok s' := by
  have hinv := reach_inv h
  refine ⟨fun rest hr => ?_, hinv.advance_returns t⟩
  obtain ⟨v, hheld, hptr⟩ := hinv.use hr
  obtain ⟨snap, hsnap⟩ := Option.isSome_iff_exists.mp (hinv.alive hheld)
  exact ⟨v, snap, hptr, hsnap⟩

/-- The first snapshot is deleted before the worker is online; the second one
is replaced while the worker has it, and its deletion has to wait. -/
theorem use_alive_demo : ∃ s, Reach demo.H demo.cfg (fun _ => .worker) 2 s ∧
    (s.heap 1).isNone = true ∧ s.mgr.version = 3 ∧ (s.threads 0).rest = [.use, .other, .quiescent, .other] ∧
    (s.threads 0).ptr = some 2 ∧ ∃ v snap, (s.threads 0).ptr = some v ∧ s.heap v = some snap := by
  obtain ⟨s, h, hfree, hver, hrest, hptr⟩ := exists_reach demo.H demo.cfg (fun _ => .worker) 2
    [.exchange, .wait 0, .free 0, .thread 0 true false, .thread 0 true false, .thread 0 true false,
      .thread 0 true false, .exchange, .wait 0, .free 0]
    (P := fun s => (s.heap 1).isNone = true ∧ s.mgr.version = 3 ∧
      (s.threads 0).rest = [.use, .other, .quiescent, .other] ∧ (s.threads 0).ptr = some 2)
    (by decide) (by decide +kernel)
  exact ⟨s, h, hfree, hver, hrest, hptr, (use_alive h 0).1 _ hrest⟩

end Rcu

end L4Lb
