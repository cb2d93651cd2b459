/-
# The caches of next hops

A session keeps the MACs of its two next hops, each with the generation of the
neighbour table at which it was looked up. A cache is sound if it has the MAC
that the table has, whenever its generation is the one of the table. Workers
that differ only in sound caches are twins, and a packet does the same to
twins. One of them may have every cache empty: it looks up every next hop.
-/
import L4Lb.Processor.Sessions

open Checked

namespace L4Lb

/-! ### One cache -/

/-- What a lookup of the next hop gives, with the fallback. -/
def freshMac (view : NeighView) (hop : IPv4Addr) (fallback : MacAddr) : Option MacAddr :=
  match if hop ≠ 0 then view.lookup hop else none with
  | some mac => some mac
  | none => if macIsZero fallback then none else some fallback

/-- The event of a lookup. -/
def missed (view : NeighView) (hop : IPv4Addr) : List MasterEvent :=
  if hop ≠ 0 ∧ view.lookup hop = none then [.neighMiss hop] else []

/-- A cache of the generation of the table has the MAC that is in the table. -/
structure Cached (view : NeighView) (hop : IPv4Addr) (mac : MacAddr) (gen : ℕ) : Prop where
  le : gen ≤ view.generation
  hit : gen = view.generation → hop ≠ 0 ∧ view.lookup hop = some mac

theorem freshMac_of_some {view : NeighView} {hop : IPv4Addr} {mac : MacAddr} (h : hop ≠ 0)
    (hl : view.lookup hop = some mac) (fallback : MacAddr) : freshMac view hop fallback = some mac := by
  simp [freshMac, h, hl]

/-- **A sound cache gives what a lookup gives**, and stays sound. -/
theorem resolveMac_spec {view : NeighView} {hop : IPv4Addr} {mac : MacAddr} {gen : ℕ} (h : Cached view hop mac gen)
    (fallback : MacAddr) :
    (resolveMac view hop mac gen fallback).out = freshMac view hop fallback ∧
    (resolveMac view hop mac gen fallback).events = missed view hop ∧
    Cached view hop (resolveMac view hop mac gen fallback).cache (resolveMac view hop mac gen fallback).cacheGen := by
  unfold resolveMac
  by_cases hg : gen = view.generation
  · obtain ⟨h0, hl⟩ := h.hit hg
    rw [if_pos hg]
    exact ⟨(freshMac_of_some h0 hl fallback).symm, by simp [missed, hl], h⟩
  · rw [if_neg hg]
    by_cases h0 : hop = 0
    · simp only [h0, ne_eq, not_true_eq_false, if_false, freshMac, missed, false_and, true_and]
      exact h0 ▸ h
    · simp only [freshMac, missed, ne_eq, h0, not_false_eq_true, if_true, true_and]
      cases hl : view.lookup hop with
      | some mac => exact ⟨rfl, rfl, le_rfl, fun _ => ⟨h0, hl⟩⟩
      | none => exact ⟨rfl, rfl, h⟩

/-! ### The caches of a session -/

/-- What the caches of a session are about, and the caches. -/
structure NextHops where
  rsId : ℕ
  client : IPv4Addr
  rsMac : MacAddr
  rsMacGen : ℕ
  cliMac : MacAddr
  cliMacGen : ℕ

def Session.hops (s : Session) : NextHops :=
  ⟨s.rsId, s.client.srcIp, s.rsMac, s.rsMacGen, s.cliMac, s.cliMacGen⟩

theorem Session.hops_of_core {s s' : Session} (h : s'.core = s.core) : s'.hops = s.hops := by
  have hi : ∀ s : Session, s.core.hops = s.hops := fun _ => rfl
  rw [← hi s', h, hi s]

/-- The caches of a session are sound. `addr id ip`: the real server with this
id has this address. -/
structure NextHops.Sound (route : Route) (view : NeighView) (addr : ℕ → IPv4Addr → Prop) (n : NextHops) : Prop where
  le : n.rsMacGen ≤ view.generation
  hit : n.rsMacGen = view.generation → ∃ ip, addr n.rsId ip ∧ Cached view (route.nextHop ip) n.rsMac n.rsMacGen
  client : Cached view (route.nextHop n.client) n.cliMac n.cliMacGen

/-- The session with empty caches. -/
def Session.forget (s : Session) : Session :=
  { s with rsMac := MacAddr.zero, rsMacGen := 0, cliMac := MacAddr.zero, cliMacGen := 0 }

namespace SessionTable

variable {t : SessionTable} {i : ℕ}

def forget (t : SessionTable) : SessionTable := { t with sessions := fun j => (t.sessions j).forget }

theorem forget_modify {f : Session → Session} (hf : ∀ s : Session, (f s).forget = f s.forget) (t : SessionTable)
    (i : ℕ) : (t.modify i f).forget = t.forget.modify i f := by
  unfold forget modify
  congr 1
  funext j
  show (Function.update t.sessions i _ j).forget = Function.update (fun j => (t.sessions j).forget) i _ j
  by_cases hj : j = i
  · subst hj
    rw [Function.update_self, Function.update_self, hf]
  · rw [Function.update_of_ne hj, Function.update_of_ne hj]

theorem forget_setHead (t : SessionTable) (k : Option ℕ) (idx : ℕ) :
    (t.setHead k idx).forget = t.forget.setHead k idx := by
  cases k <;> rfl

/-- The second half of `wheel_link`: the session before which `idx` goes. -/
theorem forget_linkNext (u : SessionTable) (slot idx : ℕ) :
    ((if (u.sessions idx).wheelNext ≠ kNil then u.modify (u.sessions idx).wheelNext fun s => { s with wheelPrev := idx }
      else u).setHead (some slot) idx).forget =
    (if (u.forget.sessions idx).wheelNext ≠ kNil then
      u.forget.modify (u.forget.sessions idx).wheelNext fun s => { s with wheelPrev := idx }
      else u.forget).setHead (some slot) idx := by
  rw [forget_setHead, apply_ite forget, forget_modify]
  · rfl
  · exact fun _ => rfl

theorem forget_wheelLink (t : SessionTable) (idx tick : ℕ) :
    (t.wheelLink idx tick).forget = t.forget.wheelLink idx tick := by
  refine (forget_linkNext _ _ idx).trans ?_
  rw [forget_modify]
  · rfl
  · exact fun _ => rfl

theorem forget_wheelUnlink (t : SessionTable) (idx : ℕ) : (t.wheelUnlink idx).forget = t.forget.wheelUnlink idx := by
  unfold wheelUnlink
  simp only
  rw [forget_modify, apply_ite forget, forget_modify, apply_ite forget, forget_modify, forget_setHead]
  · rfl
  all_goals exact fun _ => rfl

theorem forget_touch (t : SessionTable) (idx now timeout : ℕ) :
    (t.touch idx now timeout).forget = t.forget.touch idx now timeout := by
  unfold touch
  simp only
  rw [forget_modify, apply_ite forget, forget_wheelLink, forget_wheelUnlink]
  · rfl
  · exact fun _ => rfl

theorem forget_remove (t : SessionTable) (idx : ℕ) : (t.remove idx).forget = t.forget.remove idx := by
  have h : ∀ u : SessionTable, ((u.wheelUnlink idx).modify idx fun s => { s with wheelPrev := kFree }).forget =
      (u.forget.wheelUnlink idx).modify idx fun s => { s with wheelPrev := kFree } := by
    intro u
    rw [forget_modify, forget_wheelUnlink]
    exact fun _ => rfl
  exact congrArg (fun u : SessionTable => { u with freeStack := idx :: u.freeStack }) (h { t with hash := _ })

/-- A new session has empty caches. -/
theorem forget_create (t : SessionTable) (client : FiveTuple) (server : Option FiveTuple) (now timeout : ℕ) :
    t.forget.create client server now timeout =
      ((t.create client server now timeout).1.forget, (t.create client server now timeout).2) := by
  unfold create
  rw [show t.forget.freeStack = t.freeStack from rfl, show t.forget.hash = t.hash from rfl]
  cases t.freeStack with
  | nil => rfl
  | cons idx rest =>
    simp only
    cases t.hash.addKeyData client idx with
    | none => rfl
    | some hash =>
      cases server with
      | none =>
        simp only
        rw [forget_wheelLink, forget_modify]
        · rfl
        · exact fun _ => rfl
      | some server =>
        simp only
        cases hash.addKeyData server idx with
        | none => rfl
        | some hash =>
          simp only
          rw [forget_wheelLink, forget_modify]
          · rfl
          · exact fun _ => rfl

theorem hops_modify {f : Session → Session} (hf : ∀ s : Session, (f s).hops = s.hops) (t : SessionTable) (i j : ℕ) :
    ((t.modify i f).sessions j).hops = (t.sessions j).hops := by
  rw [sessions_modify]
  split
  · rename_i hj
    rw [hf, hj]
  · rfl

theorem hops_touch (t : SessionTable) (i now timeout j : ℕ) :
    ((t.touch i now timeout).sessions j).hops = (t.sessions j).hops :=
  touch_same Session.hops Session.hops_of_core (fun _ _ => rfl) t i now timeout j

theorem hops_remove (t : SessionTable) (i j : ℕ) : ((t.remove i).sessions j).hops = (t.sessions j).hops :=
  Session.hops_of_core (remove_core t i j)

/-- `create` empties the caches of the session it takes. -/
theorem hops_create (t : SessionTable) (client : FiveTuple) (server : Option FiveTuple) (now timeout : ℕ) :
    ((t.create client server now timeout).2 = none ∧
      ∀ j, ((t.create client server now timeout).1.sessions j).hops = (t.sessions j).hops) ∨
    ∃ i, (t.create client server now timeout).2 = some i ∧
      ∀ j, ((t.create client server now timeout).1.sessions j).hops =
        if j = i then ⟨0, client.srcIp, MacAddr.zero, 0, MacAddr.zero, 0⟩ else (t.sessions j).hops := by
  have hnew : ∀ (u : SessionTable) (idx tick j : ℕ) (s : Session), u.sessions = t.sessions →
      (((u.modify idx fun _ => s).wheelLink idx tick).sessions j).hops =
        if j = idx then s.hops else (t.sessions j).hops := by
    intro u idx tick j s hu
    rw [Session.hops_of_core ((sameBut_wheelLink _ idx tick).core j), sessions_modify, hu, apply_ite Session.hops]
  unfold create
  cases t.freeStack with
  | nil => exact .inl ⟨rfl, fun _ => rfl⟩
  | cons idx rest =>
    simp only
    cases t.hash.addKeyData client idx with
    | none => exact .inl ⟨rfl, fun _ => rfl⟩
    | some hash =>
      cases server with
      | none => exact .inr ⟨idx, rfl, fun j => hnew _ idx _ j _ rfl⟩
      | some server =>
        simp only
        cases hash.addKeyData server idx with
        | none => exact .inl ⟨rfl, fun _ => rfl⟩
        | some hash => exact .inr ⟨idx, rfl, fun j => hnew _ idx _ j _ rfl⟩

end SessionTable

/-- The caches of a session are empty. -/
def Session.Empty (s : Session) : Prop := s.rsMacGen = 0 ∧ s.cliMacGen = 0

/-! ### Twins -/

def WorkerCtx.forget (w : WorkerCtx) : WorkerCtx := { w with sessions := w.sessions.forget }

/-- The caches of all sessions are sound. -/
def WorkerCtx.Sound (w : WorkerCtx) (route : Route) (view : NeighView) (addr : ℕ → IPv4Addr → Prop) : Prop :=
  ∀ j, (w.session j).hops.Sound route view addr

/-- Empty caches are sound. -/
theorem NextHops.Sound.empty {route : Route} {view : NeighView} {addr : ℕ → IPv4Addr → Prop} {n : NextHops}
    (hgen : 0 < view.generation) (hrs : n.rsMacGen = 0) (hcli : n.cliMacGen = 0) : n.Sound route view addr :=
  ⟨by omega, fun h => by omega, by omega, fun h => by omega⟩

section Resolve

variable {dp : Dataplane} {view : NeighView} {addr : ℕ → IPv4Addr → Prop} {w : WorkerCtx} {i : ℕ}

/-- What `resolve_rs_mac` gives with a lookup. -/
def freshRsMac (dp : Dataplane) (view : NeighView) (rs : RsState) : Option MacAddr :=
  if !macIsZero rs.mac then some rs.mac else freshMac view (dp.route.nextHop rs.ip) MacAddr.zero

/-- What `resolve_client_mac` gives with a lookup. -/
def freshClientMac (dp : Dataplane) (view : NeighView) (s : Session) : Option MacAddr :=
  freshMac view (dp.route.nextHop s.client.srcIp)
    (if dp.route.onLink s.client.srcIp then s.cliSrcMac else MacAddr.zero)

/-- The events that `resolve_rs_mac` posts. -/
def missedRs (dp : Dataplane) (view : NeighView) (rs : RsState) : List MasterEvent :=
  if !macIsZero rs.mac then [] else missed view (dp.route.nextHop rs.ip)

theorem WorkerCtx.Sound.setSession (h : w.Sound dp.route view addr) {f : Session → Session}
    (hf : (f (w.session i)).hops.Sound dp.route view addr) : (w.setSession i f).Sound dp.route view addr := by
  intro j
  show ((w.sessions.modify i f).sessions j).hops.Sound dp.route view addr
  rw [SessionTable.sessions_modify]
  split
  · exact hf
  · exact h j

theorem WorkerCtx.Sound.post (h : w.Sound dp.route view addr) (evs : List MasterEvent) :
    (w.post evs).Sound dp.route view addr := h

theorem forget_cache {f : Session → Session} (hf : ∀ s : Session, (f s).forget = s.forget) (evs : List MasterEvent) :
    ((w.setSession i f).post evs).forget = w.forget.post evs := by
  refine congrArg (fun s => WorkerCtx.post { w with sessions := { w.sessions with sessions := s } } evs) ?_
  funext j
  show ((w.sessions.modify i f).sessions j).forget = (w.sessions.sessions j).forget
  rw [SessionTable.sessions_modify]
  split
  · rename_i hj
    rw [hf, hj]
  · rfl

theorem resolveRsMac_spec {rs : RsState} (h : w.Sound dp.route view addr)
    (hrs : ∀ ip, addr (w.session i).rsId ip ↔ ip = rs.ip) :
    (resolveRsMac dp view w i rs).2 = freshRsMac dp view rs ∧
    (resolveRsMac dp view w i rs).1.forget = w.forget.post (missedRs dp view rs) ∧
    (resolveRsMac dp view w i rs).1.Sound dp.route view addr := by
  unfold resolveRsMac freshRsMac missedRs
  split
  · refine ⟨rfl, ?_, h⟩
    simp [WorkerCtx.post]
  · have hc : Cached view (dp.route.nextHop rs.ip) (w.session i).rsMac (w.session i).rsMacGen := by
      refine ⟨(h i).le, fun hg => ?_⟩
      obtain ⟨ip, hip, hc⟩ := (h i).hit hg
      obtain rfl := (hrs ip).mp hip
      exact hc.hit hg
    obtain ⟨hout, hev, hc'⟩ := resolveMac_spec hc MacAddr.zero
    simp only
    refine ⟨hout, ?_, ?_⟩
    · rw [forget_cache, hev]
      exact fun _ => rfl
    · refine (WorkerCtx.Sound.setSession h ?_).post _
      exact ⟨hc'.le, fun _ => ⟨rs.ip, (hrs rs.ip).mpr rfl, hc'⟩, (h i).client⟩

theorem resolveClientMac_spec (h : w.Sound dp.route view addr) (i : ℕ) :
    (resolveClientMac dp view w i).2 = freshClientMac dp view (w.session i) ∧
    (resolveClientMac dp view w i).1.forget =
      w.forget.post (missed view (dp.route.nextHop (w.session i).client.srcIp)) ∧
    (resolveClientMac dp view w i).1.Sound dp.route view addr := by
  unfold resolveClientMac freshClientMac
  obtain ⟨hout, hev, hc'⟩ := resolveMac_spec (h i).client
    (if dp.route.onLink (w.session i).client.srcIp then (w.session i).cliSrcMac else MacAddr.zero)
  simp only
  refine ⟨hout, ?_, ?_⟩
  · rw [forget_cache]
    · exact congrArg w.forget.post hev
    · exact fun _ => rfl
  · refine (WorkerCtx.Sound.setSession h ?_).post _
    exact ⟨(h i).le, (h i).hit, hc'⟩

end Resolve

theorem forget_setSession {f : Session → Session} (hf : ∀ s : Session, (f s).forget = f s.forget) {w : WorkerCtx}
    {i : ℕ} : (w.setSession i f).forget = w.forget.setSession i f :=
  congrArg (fun t => { w with sessions := t }) (SessionTable.forget_modify hf w.sessions i)

/-- The workers differ only in their caches, and these are sound. -/
structure Twins (dp : Dataplane) (view : NeighView) (addr : ℕ → IPv4Addr → Prop) (w w' : WorkerCtx) : Prop where
  forget : w.forget = w'.forget
  sound : w.Sound dp.route view addr
  sound' : w'.Sound dp.route view addr

namespace Twins

variable {dp : Dataplane} {view : NeighView} {addr : ℕ → IPv4Addr → Prop} {w w' : WorkerCtx} {i : ℕ}

theorem refl (h : w.Sound dp.route view addr) : Twins dp view addr w w := ⟨rfl, h, h⟩

theorem forgot (hgen : 0 < view.generation) (h : w.Sound dp.route view addr) : Twins dp view addr w w.forget :=
  ⟨rfl, h, fun _ => .empty hgen rfl rfl⟩

theorem eq_table (h : Twins dp view addr w w') : w' = { w with sessions := w'.sessions } := by
  have hf := h.forget
  unfold WorkerCtx.forget at hf
  cases w
  cases w'
  simp only [WorkerCtx.mk.injEq] at hf ⊢
  simp [hf]

theorem lookup (h : Twins dp view addr w w') (k : FiveTuple) : w'.sessions.lookup k = w.sessions.lookup k :=
  (congrArg (fun u : WorkerCtx => u.sessions.lookup k) h.forget.symm :)

theorem session (h : Twins dp view addr w w') (i : ℕ) : (w'.session i).forget = (w.session i).forget :=
  (congrArg (fun u : WorkerCtx => u.session i) h.forget.symm :)

theorem rsId (h : Twins dp view addr w w') (i : ℕ) : (w'.session i).rsId = (w.session i).rsId :=
  (congrArg Session.rsId (h.session i) :)

/-- A change that neither reads nor writes the caches. -/
theorem map (h : Twins dp view addr w w') {f : WorkerCtx → WorkerCtx} (hf : ∀ w, (f w).forget = f w.forget)
    (hs : ∀ w j, ((f w).session j).hops = (w.session j).hops) : Twins dp view addr (f w) (f w') := by
  refine ⟨by rw [hf, hf, h.forget], fun j => ?_, fun j => ?_⟩
  · rw [hs]
    exact h.sound j
  · rw [hs]
    exact h.sound' j

theorem count (h : Twins dp view addr w w') (s : Stat) : Twins dp view addr (w.count s) (w'.count s) :=
  h.map (f := fun w => w.count s) (fun _ => rfl) fun _ _ => rfl

theorem post (h : Twins dp view addr w w') (evs : List MasterEvent) :
    Twins dp view addr (w.post evs) (w'.post evs) :=
  h.map (f := fun w => w.post evs) (fun _ => rfl) fun _ _ => rfl

theorem setSession (h : Twins dp view addr w w') {f : Session → Session}
    (hf : ∀ s : Session, (f s).forget = f s.forget) (hs : ∀ s : Session, (f s).hops = s.hops) (i : ℕ) :
    Twins dp view addr (w.setSession i f) (w'.setSession i f) := by
  refine h.map (f := fun w => w.setSession i f) (fun w => forget_setSession hf) fun w j => ?_
  exact SessionTable.hops_modify hs w.sessions i j

theorem closeSession (h : Twins dp view addr w w') (i : ℕ) :
    Twins dp view addr (closeSession w i) (closeSession w' i) := by
  refine .count (h.map (f := fun w => { w with sessions := w.sessions.remove i }) (fun w => ?_) fun w j => ?_) _
  · exact congrArg (fun t => { w with sessions := t }) (SessionTable.forget_remove w.sessions i)
  · exact SessionTable.hops_remove w.sessions i j

theorem touch (h : Twins dp view addr w w') (i timeout : ℕ) :
    Twins dp view addr { w with sessions := w.sessions.touch i w.nowTick timeout }
      { w' with sessions := w'.sessions.touch i w'.nowTick timeout } := by
  refine h.map (f := fun w => { w with sessions := w.sessions.touch i w.nowTick timeout }) (fun w => ?_) fun w j => ?_
  · exact congrArg (fun t => { w with sessions := t }) (SessionTable.forget_touch w.sessions i w.nowTick timeout)
  · exact SessionTable.hops_touch w.sessions i w.nowTick timeout j

theorem forget_advance (flags : UInt8) (dir : Dir) (s : Session) :
    (s.advance flags dir).forget = s.forget.advance flags dir := by
  unfold Session.advance
  rw [apply_ite Session.forget]
  rfl

theorem hops_advance (flags : UInt8) (dir : Dir) (s : Session) : (s.advance flags dir).hops = s.hops := by
  unfold Session.advance
  split
  · rfl
  · rfl

theorem updateState (h : Twins dp view addr w w') (i : ℕ) (flags : UInt8) (dir : Dir) :
    Twins dp view addr (updateState dp w i flags dir) (updateState dp w' i flags dir) := by
  have h1 := h.setSession (forget_advance flags dir) (hops_advance flags dir) i
  unfold L4Lb.updateState
  simp only
  have hstate : ((w'.setSession i (·.advance flags dir)).session i).state =
      ((w.setSession i (·.advance flags dir)).session i).state := (congrArg Session.state (h1.session i) :)
  rw [hstate]
  exact h1.touch i _

theorem addRs (h : Twins dp view addr w w') (id : ℕ) (f : RsCounters → RsCounters) :
    Agree (Twins dp view addr) (w.addRs id f) (w'.addRs id f) := by
  unfold WorkerCtx.addRs
  refine .ite (.ok ?_) (.error _)
  exact h.map (f := fun w => { w with rsStats := Function.update w.rsStats id (f (w.rsStats id)) })
    (fun _ => rfl) fun _ _ => rfl

/-- `create` does the same to twins. -/
theorem create (h : Twins dp view addr w w') (hgen : 0 < view.generation) (client : FiveTuple)
    (server : Option FiveTuple) (timeout : ℕ) :
    Twins dp view addr { w with sessions := (w.sessions.create client server w.nowTick timeout).1 }
      { w' with sessions := (w'.sessions.create client server w'.nowTick timeout).1 } ∧
    (w.sessions.create client server w.nowTick timeout).2 = (w'.sessions.create client server w'.nowTick timeout).2 ∧
    ∀ i, (w.sessions.create client server w.nowTick timeout).2 = some i →
      ((w.sessions.create client server w.nowTick timeout).1.sessions i).Empty ∧
      ((w'.sessions.create client server w'.nowTick timeout).1.sessions i).Empty := by
  have hempty : ∀ (t : SessionTable) (now i : ℕ), (t.create client server now timeout).2 = some i →
      ((t.create client server now timeout).1.sessions i).Empty := by
    intro t now i hi
    rcases t.hops_create client server now timeout with ⟨hn, -⟩ | ⟨i', hi', hh⟩
    · rw [hn] at hi
      exact nomatch hi
    · obtain rfl := Option.some.inj (hi'.symm.trans hi)
      have hn := hh i'
      rw [if_pos rfl] at hn
      exact ⟨congrArg NextHops.rsMacGen hn, congrArg NextHops.cliMacGen hn⟩
  have hsound : ∀ {u : WorkerCtx}, u.Sound dp.route view addr →
      WorkerCtx.Sound { u with sessions := (u.sessions.create client server u.nowTick timeout).1 } dp.route view
        addr := by
    intro u hu j
    show ((u.sessions.create client server u.nowTick timeout).1.sessions j).hops.Sound dp.route view addr
    rcases u.sessions.hops_create client server u.nowTick timeout with ⟨-, hh⟩ | ⟨i, -, hh⟩
    · rw [hh]
      exact hu j
    · rw [hh]
      split
      · exact .empty hgen rfl rfl
      · exact hu j
  have hmade : ∀ u : WorkerCtx, (u.sessions.create client server u.nowTick timeout).2 =
      (u.forget.sessions.create client server u.forget.nowTick timeout).2 :=
    fun u => (congrArg Prod.snd (SessionTable.forget_create u.sessions client server u.nowTick timeout)).symm
  have htable : ∀ u : WorkerCtx,
      WorkerCtx.forget { u with sessions := (u.sessions.create client server u.nowTick timeout).1 } =
        { u.forget with sessions := (u.forget.sessions.create client server u.forget.nowTick timeout).1 } :=
    fun u => congrArg (fun t => { u with sessions := t })
      (congrArg Prod.fst (SessionTable.forget_create u.sessions client server u.nowTick timeout)).symm
  have heq := (hmade w).trans (h.forget ▸ (hmade w').symm)
  refine ⟨⟨?_, hsound h.sound, hsound h.sound'⟩, heq, fun i hi => ⟨hempty _ _ i hi, hempty _ _ i (heq ▸ hi)⟩⟩
  rw [htable, htable, h.forget]

theorem resolveRsMac (h : Twins dp view addr w w') {rs : RsState}
    (hrs : ∀ ip, addr (w.session i).rsId ip ↔ ip = rs.ip) :
    Twins dp view addr (resolveRsMac dp view w i rs).1 (resolveRsMac dp view w' i rs).1 ∧
      (resolveRsMac dp view w i rs).2 = (resolveRsMac dp view w' i rs).2 := by
  obtain ⟨hout, hf, hs⟩ := resolveRsMac_spec h.sound hrs
  obtain ⟨hout', hf', hs'⟩ := resolveRsMac_spec (i := i) h.sound' fun ip => h.rsId i ▸ hrs ip
  exact ⟨⟨by rw [hf, hf', h.forget], hs, hs'⟩, hout.trans hout'.symm⟩

theorem resolveClientMac (h : Twins dp view addr w w') (i : ℕ) :
    Twins dp view addr (resolveClientMac dp view w i).1 (resolveClientMac dp view w' i).1 ∧
      (resolveClientMac dp view w i).2 = (resolveClientMac dp view w' i).2 := by
  obtain ⟨hout, hf, hs⟩ := resolveClientMac_spec h.sound i
  obtain ⟨hout', hf', hs'⟩ := resolveClientMac_spec h.sound' i
  have hcip : (w'.session i).client.srcIp = (w.session i).client.srcIp :=
    (congrArg (·.client.srcIp) (h.session i) :)
  have hfresh : freshClientMac dp view (w'.session i) = freshClientMac dp view (w.session i) :=
    (congrArg (freshClientMac dp view) (h.session i) :)
  refine ⟨⟨?_, hs, hs'⟩, ?_⟩
  · rw [hf, hf', h.forget, hcip]
  · rw [hout, hout', hfresh]

end Twins

/-! ### The packet path -/

/-- The ids of the snapshot have the addresses `addr`. -/
def Snapshot.Addresses (snap : Snapshot) (addr : ℕ → IPv4Addr → Prop) : Prop :=
  ∀ id rs, snap.rs id = some rs → ∀ ip, addr id ip ↔ ip = rs.ip

/-- The same verdict on the same frame, and the workers are twins. -/
structure SameOutcome (dp : Dataplane) (view : NeighView) (addr : ℕ → IPv4Addr → Prop) (o o' : Outcome) : Prop where
  twins : Twins dp view addr o.1 o'.1
  verdict : o.2 = o'.2

/-- The same session, with empty caches, or the same reason why there is none. -/
structure SameMade (dp : Dataplane) (view : NeighView) (addr : ℕ → IPv4Addr → Prop)
    (x x' : WorkerCtx × Except Stat ℕ) : Prop where
  twins : Twins dp view addr x.1 x'.1
  made : x.2 = x'.2
  empty : ∀ i, x.2 = .ok i → (x.1.session i).Empty ∧ (x'.1.session i).Empty

section Handlers

variable {dp : Dataplane} {view : NeighView} {addr : ℕ → IPv4Addr → Prop} {snap : Snapshot} {w w' : WorkerCtx}
  {m : Mbuf} {p : PacketMeta} {i : ℕ}

theorem countFwdIn_twins (h : Twins dp view addr w w') (i : ℕ) (m : Mbuf) :
    Agree (Twins dp view addr) (countFwdIn w i m) (countFwdIn w' i m) := by
  unfold countFwdIn
  simp only
  rw [h.rsId i]
  exact ((h.count .fwdIn).map (f := fun w => w.addBytes .fwdIn m.pktLen) (fun _ => rfl) fun _ _ => rfl).addRs _ _

theorem countFwdOut_twins (h : Twins dp view addr w w') (i : ℕ) (m : Mbuf) :
    Agree (Twins dp view addr) (countFwdOut w i m) (countFwdOut w' i m) := by
  unfold countFwdOut
  simp only
  rw [h.rsId i]
  exact ((h.count .fwdOut).map (f := fun w => w.addBytes .fwdOut m.pktLen) (fun _ => rfl) fun _ _ => rfl).addRs _ _

theorem findPort_table (t : SessionTable) (ht : ∀ k, t.lookup k = w.sessions.lookup k) (rs : RsState) (lip : IPv4Addr)
    (proto : UInt8) (step slots : ℕ) : ∀ probes cur,
    findPort dp { w with sessions := t } rs lip proto step slots probes cur =
      findPort dp w rs lip proto step slots probes cur
  | 0, _ => rfl
  | probes + 1, cur => by
    have ih := findPort_table t ht rs lip proto step slots probes
    unfold findPort
    simp only [ih, SessionTable.keyInUse, ht]
    rfl

theorem findServer_table (t : SessionTable) (ht : ∀ k, t.lookup k = w.sessions.lookup k) (rs : RsState)
    (lips : List IPv4Addr) (proto : UInt8) (step slots probes : ℕ) : ∀ left n cursors,
    findServer dp { w with sessions := t } rs lips proto step slots probes left n cursors =
      findServer dp w rs lips proto step slots probes left n cursors
  | 0, _, _ => rfl
  | left + 1, n, cursors => by
    unfold findServer
    simp only [findPort_table t ht, findServer_table t ht rs lips proto step slots probes left]

theorem createFullnat_twins (h : Twins dp view addr w w') (hgen : 0 < view.generation) (client : FiveTuple)
    (rs : RsState) (timeout : ℕ) :
    Agree (SameMade dp view addr) (createFullnat dp w snap client rs timeout)
      (createFullnat dp w' snap client rs timeout) := by
  have hw := h.eq_table
  generalize w'.sessions = t at hw
  subst hw
  unfold createFullnat
  simp only [pure_eq_ok, throw_eq_error]
  refine .ite (.ok ⟨h, rfl, fun _ hi => nomatch hi⟩) (.ite (.error _) ?_)
  rw [findServer_table t h.lookup]
  generalize findServer dp w rs snap.localIps client.protocol _ _ _ _ _ _ = found
  obtain ⟨found, cursors⟩ := found
  have h1 : Twins dp view addr { w with lipCursor := cursors } { w with sessions := t, lipCursor := cursors } :=
    h.map (f := fun w => { w with lipCursor := cursors }) (fun _ => rfl) fun _ _ => rfl
  cases found with
  | none => exact .ok ⟨h1, rfl, fun _ hi => nomatch hi⟩
  | some x =>
    obtain ⟨li, server⟩ := x
    obtain ⟨h2, hmade, hempty⟩ := h1.create hgen client (some server) timeout
    simp only at h2 hmade hempty ⊢
    rw [← hmade]
    generalize hm : (w.sessions.create client (some server) w.nowTick timeout).2 = made at hempty ⊢
    cases made with
    | none => exact .ok ⟨h2, rfl, fun _ hi => nomatch hi⟩
    | some i =>
      refine .ok ⟨h2.map (f := fun w => { w with lipRr := (li + 1) % 2 ^ 32 }) (fun _ => rfl) fun _ _ => rfl, rfl, ?_⟩
      intro i' hi'
      exact hempty i' (congrArg some (Except.ok.inj hi'))

theorem createSession_twins (h : Twins dp view addr w w') (hgen : 0 < view.generation) (client : FiveTuple)
    (rs : RsState) (timeout : ℕ) :
    Agree (SameMade dp view addr) (createSession dp w snap client rs timeout)
      (createSession dp w' snap client rs timeout) := by
  unfold createSession
  refine .ite (createFullnat_twins h hgen client rs timeout) ?_
  obtain ⟨h1, hmade, hempty⟩ := h.create hgen client none timeout
  simp only
  rw [← hmade]
  refine .ok ⟨h1, rfl, fun i hi => hempty i ?_⟩
  split at hi
  · exact nomatch hi
  · rename_i i' hi'
    rw [hi', Except.ok.inj hi]

theorem Twins.assigned (h : Twins dp view addr w w') (hgen : 0 < view.generation) (hi : (w.session i).Empty)
    (hi' : (w'.session i).Empty) (rs : RsState) (svc : Service) (srcMac : MacAddr) (tcp toa : Bool) :
    Twins dp view addr (w.setSession i (·.assigned rs svc srcMac tcp toa))
      (w'.setSession i (·.assigned rs svc srcMac tcp toa)) := by
  have hf : ∀ s : Session, (s.assigned rs svc srcMac tcp toa).forget = s.forget.assigned rs svc srcMac tcp toa :=
    fun _ => rfl
  refine ⟨by rw [forget_setSession hf, forget_setSession hf, h.forget], ?_, ?_⟩
  · exact h.sound.setSession (.empty hgen hi.1 hi.2)
  · exact h.sound'.setSession (.empty hgen hi'.1 hi'.2)

/-- Twins with the session, or the reason why there is none. -/
def SameNew (dp : Dataplane) (view : NeighView) (addr : ℕ → IPv4Addr → Prop)
    (x x' : WorkerCtx × Except Stat ℕ) : Prop := Twins dp view addr x.1 x'.1 ∧ x.2 = x'.2

theorem newSession_twins (h : Twins dp view addr w w') (hgen : 0 < view.generation) (svc : Service)
    (tuple : FiveTuple) (m : Mbuf) :
    Agree (SameNew dp view addr) (newSession dp w snap svc tuple m) (newSession dp w' snap svc tuple m) := by
  have hcur : w'.cursors = w.cursors := (congrArg WorkerCtx.cursors h.forget.symm :)
  unfold newSession
  simp only [pure_eq_ok, throw_eq_error]
  rw [hcur]
  generalize svc.sched.pick dp.H tuple (w.cursors svc.idx) = pick
  obtain ⟨pick, cursor⟩ := pick
  have h1 := h.map (f := fun w => { w with cursors := Function.update w.cursors svc.idx cursor }) (fun _ => rfl)
    fun _ _ => rfl
  simp only [hcur] at h1
  cases pick with
  | none => exact .ok ⟨h1, rfl⟩
  | some k =>
    simp only
    cases svc.rs[k]? with
    | none => exact .error _
    | some rs =>
      refine .bind (createSession_twins h1 hgen tuple rs _) ?_
      rintro ⟨w1, made⟩ ⟨w1', made'⟩ ⟨h2, hmade, hempty⟩
      obtain rfl := hmade
      cases made with
      | error e => exact .ok ⟨h2, rfl⟩
      | ok i =>
        obtain ⟨he, he'⟩ := hempty i rfl
        refine .after fun srcMac => ?_
        refine .bind (((h2.assigned hgen he he' rs svc srcMac _ _).count .sessNew).addRs rs.id _) fun w2 w2' h3 => ?_
        exact .ite (.ok ⟨h3.post _, rfl⟩) (.ok ⟨h3, rfl⟩)

/-- What `handle_inbound` finds is the same for twins. -/
theorem findInbound_twins (h : Twins dp view addr w w') (snap : Snapshot) (tuple : FiveTuple) (tcp syn : Bool) :
    Twins dp view addr (findInbound w snap tuple tcp syn).1 (findInbound w' snap tuple tcp syn).1 ∧
      (findInbound w snap tuple tcp syn).2 = (findInbound w' snap tuple tcp syn).2 := by
  unfold findInbound
  rw [h.lookup]
  cases w.sessions.lookup tuple with
  | none => exact ⟨h, rfl⟩
  | some i =>
    have hstate : (w'.session i).state = (w.session i).state := (congrArg Session.state (h.session i) :)
    simp only [h.rsId, hstate]
    split
    · exact ⟨h, rfl⟩
    · exact ⟨h.closeSession i, rfl⟩

theorem Twins.ite {c : Prop} {_ : Decidable c} {u u' : WorkerCtx} (h : Twins dp view addr w w')
    (h' : Twins dp view addr u u') : Twins dp view addr (if c then w else u) (if c then w' else u') := by
  split
  · exact h
  · exact h'

theorem Twins.rssCheck (h : Twins dp view addr w w') (m : Mbuf) (tuple : FiveTuple) :
    Twins dp view addr (rssCheck dp w m tuple) (rssCheck dp w' m tuple) := by
  unfold L4Lb.rssCheck
  exact .ite (h.count _) (.ite (h.count _) h)

theorem Twins.countOutcome (h : Twins dp view addr w w') (out : RewriteOutcome) :
    Twins dp view addr (countOutcome w out) (countOutcome w' out) := by
  have step : ∀ (b : Bool) (s : Stat) {u u' : WorkerCtx}, Twins dp view addr u u' →
      Twins dp view addr (if b then u.count s else u) (if b then u'.count s else u') :=
    fun b s u u' hu => .ite (hu.count s) hu
  exact step _ _ (step _ _ (step _ _ h))

/-- The addresses and ports that a rewrite takes from the session. -/
theorem Twins.toServer (h : Twins dp view addr w w') (i : ℕ) (mac : MacAddr) :
    toServer dp (w'.session i) mac = toServer dp (w.session i) mac :=
  (congrArg (fun s => L4Lb.toServer dp s mac) (h.session i) :)

theorem Twins.toServerOptions (h : Twins dp view addr w w') (i : ℕ) (p : PacketMeta) :
    toServerOptions dp (w'.session i) p = toServerOptions dp (w.session i) p :=
  (congrArg (fun s => L4Lb.toServerOptions dp s p) (h.session i) :)

theorem Twins.toClient (h : Twins dp view addr w w') (i : ℕ) (mac : MacAddr) :
    toClient dp (w'.session i) mac = toClient dp (w.session i) mac :=
  (congrArg (fun s => L4Lb.toClient dp s mac) (h.session i) :)

theorem rsId_updateState (w : WorkerCtx) (i : ℕ) (flags : UInt8) (dir : Dir) :
    ((updateState dp w i flags dir).session i).rsId = (w.session i).rsId :=
  congrArg SessionId.rsId (Keeps.updateState dp w i flags dir).ident

theorem forwardInbound_twins (h : Twins dp view addr w w') {rs : RsState}
    (hrs : ∀ ip, addr (w.session i).rsId ip ↔ ip = rs.ip) (isNew : Bool) :
    Agree (SameOutcome dp view addr) (forwardInbound dp view w snap m p i rs isNew)
      (forwardInbound dp view w' snap m p i rs isNew) := by
  unfold forwardInbound
  simp only [pure_eq_ok]
  have h1 := (h.updateState i p.tcpFlags .clientToRs).setSession
    (f := fun s => { s with pktsIn := s.pktsIn + 1, bytesIn := s.bytesIn + m.pktLen }) (fun _ => rfl) (fun _ => rfl) i
  have hid : (((updateState dp w i p.tcpFlags .clientToRs).setSession i
      fun s => { s with pktsIn := s.pktsIn + 1, bytesIn := s.bytesIn + m.pktLen }).session i).rsId =
        (w.session i).rsId := by
    unfold WorkerCtx.session WorkerCtx.setSession
    rw [SessionTable.sessions_modify, if_pos rfl]
    exact rsId_updateState w i _ _
  generalize (updateState dp w i p.tcpFlags .clientToRs).setSession i _ = w1 at h1 hid ⊢
  generalize (updateState dp w' i p.tcpFlags .clientToRs).setSession i _ = w1' at h1 ⊢
  rw [← hid] at hrs
  obtain ⟨h2, hout⟩ := h1.resolveRsMac hrs
  generalize resolveRsMac dp view w1 i rs = res at h2 hout ⊢
  generalize resolveRsMac dp view w1' i rs = res' at h2 hout ⊢
  obtain ⟨w2, out⟩ := res
  obtain ⟨w2', out'⟩ := res'
  obtain rfl := hout
  have hclose : Twins dp view addr (if isNew then closeSession w2 i else w2)
      (if isNew then closeSession w2' i else w2') := .ite (h2.closeSession i) h2
  cases out with
  | none => exact .ok ⟨hclose, rfl⟩
  | some rsMac =>
    simp only
    rw [h2.toServer, h2.toServerOptions]
    refine .ite (.after fun m1 => ?_) (.after fun x => ?_)
    · exact .bind (countFwdIn_twins h2 i m1) fun w3 w3' h3 => .ok ⟨h3, rfl⟩
    · obtain ⟨r, m1, p1, out⟩ := x
      refine .ite (.ok ⟨hclose, rfl⟩) ?_
      exact .bind (countFwdIn_twins (h2.countOutcome out) i m1) fun w3 w3' h3 => .ok ⟨h3, rfl⟩

theorem inboundAtOwner_twins (h : Twins dp view addr w w') (hgen : 0 < view.generation) (ha : snap.Addresses addr)
    (svc : Service) (redirected : Bool) :
    Agree (SameOutcome dp view addr) (inboundAtOwner dp view w snap svc m p redirected)
      (inboundAtOwner dp view w' snap svc m p redirected) := by
  unfold inboundAtOwner
  simp only [pure_eq_ok, throw_eq_error]
  have h0 : Twins dp view addr
      (if opensConnection p && dp.steering.hw && !redirected then rssCheck dp w m p.toFiveTuple else w)
      (if opensConnection p && dp.steering.hw && !redirected then rssCheck dp w' m p.toFiveTuple else w') :=
    .ite (h.rssCheck m _) h
  generalize (if opensConnection p && dp.steering.hw && !redirected then rssCheck dp w m _ else w) = w0 at h0 ⊢
  generalize (if opensConnection p && dp.steering.hw && !redirected then rssCheck dp w' m _ else w') = w0' at h0 ⊢
  obtain ⟨h1, hfound⟩ := findInbound_twins h0 snap p.toFiveTuple (p.ipProtocol == 6) (opensConnection p)
  have hsess : ∀ i rs, (findInbound w0 snap p.toFiveTuple (p.ipProtocol == 6) (opensConnection p)).2 = .session i rs →
      snap.rs (((findInbound w0 snap p.toFiveTuple (p.ipProtocol == 6) (opensConnection p)).1).session i).rsId =
        some rs := by
    intro i rs hs
    rcases findInbound_cases w0 snap p.toFiveTuple (p.ipProtocol == 6) (opensConnection p) with
      ⟨i', r, -, hr, -, -, he⟩ | ⟨-, he⟩ | ⟨i', -, -, he | ⟨reason, -, he⟩⟩
    · rw [he] at hs ⊢
      obtain ⟨rfl, rfl⟩ := Found.session.inj hs
      exact hr
    all_goals
      rw [he] at hs
      exact nomatch hs
  generalize findInbound w0 snap p.toFiveTuple _ _ = found at h1 hfound hsess ⊢
  generalize findInbound w0' snap p.toFiveTuple _ _ = found' at h1 hfound ⊢
  obtain ⟨w1, found⟩ := found
  obtain ⟨w1', found'⟩ := found'
  obtain rfl := hfound
  cases found with
  | drop reason => exact .ok ⟨h1, rfl⟩
  | session i rs => exact forwardInbound_twins h1 (ha _ rs (hsess i rs rfl)) false
  | none =>
    refine .ite (.ok ⟨h1, rfl⟩) (.bind (newSession_twins h1 hgen svc _ m) ?_)
    rintro ⟨w2, made⟩ ⟨w2', made'⟩ ⟨h2, hmade⟩
    obtain rfl := hmade
    cases made with
    | error e => exact .ok ⟨h2, rfl⟩
    | ok i =>
      simp only [h2.rsId]
      cases hrs : snap.rs (w2.session i).rsId with
      | none => exact .error _
      | some rs => exact forwardInbound_twins h2 (ha _ rs hrs) true

theorem returnAtOwner_twins (h : Twins dp view addr w w') :
    Agree (SameOutcome dp view addr) (returnAtOwner dp view w snap m p) (returnAtOwner dp view w' snap m p) := by
  unfold returnAtOwner
  simp only [pure_eq_ok]
  rw [h.lookup]
  cases w.sessions.lookup p.toFiveTuple with
  | none => exact .ok ⟨h, rfl⟩
  | some i =>
    have hfull : (w'.session i).fullnat = (w.session i).fullnat := (congrArg Session.fullnat (h.session i) :)
    have hserver : (w'.session i).server = (w.session i).server := (congrArg Session.server (h.session i) :)
    simp only [hfull, hserver, h.rsId]
    refine .ite (.ok ⟨h, rfl⟩) (.ite (.ok ⟨h.closeSession i, rfl⟩) ?_)
    have h1 := (h.updateState i p.tcpFlags .rsToClient).setSession
      (f := fun s => s.returned p.tcpFlags m.pktLen) (fun _ => rfl) (fun _ => rfl) i
    generalize (updateState dp w i p.tcpFlags .rsToClient).setSession i _ = w1 at h1 ⊢
    generalize (updateState dp w' i p.tcpFlags .rsToClient).setSession i _ = w1' at h1 ⊢
    obtain ⟨h2, hout⟩ := h1.resolveClientMac i
    generalize resolveClientMac dp view w1 i = res at h2 hout ⊢
    generalize resolveClientMac dp view w1' i = res' at h2 hout ⊢
    obtain ⟨w2, out⟩ := res
    obtain ⟨w2', out'⟩ := res'
    obtain rfl := hout
    cases out with
    | none => exact .ok ⟨h2, rfl⟩
    | some mac =>
      simp only
      rw [h2.toClient]
      refine .after fun x => ?_
      obtain ⟨r, m1, p1, out⟩ := x
      refine .ite (.ok ⟨h2, rfl⟩) ?_
      exact .bind (countFwdOut_twins h2 i m1) fun w3 w3' h3 => .ok ⟨h3, rfl⟩

theorem icmpToClient_twins (h : Twins dp view addr w w') (info : IcmpErrorInfo) :
    Agree (SameOutcome dp view addr) (icmpToClient dp view w m p info) (icmpToClient dp view w' m p info) := by
  unfold icmpToClient
  simp only [pure_eq_ok]
  rw [h.lookup]
  cases w.sessions.lookup info.inner.reverse with
  | none => exact .ok ⟨h, rfl⟩
  | some i =>
    have hserver : (w'.session i).server = (w.session i).server := (congrArg Session.server (h.session i) :)
    simp only [hserver]
    refine .ite (.ok ⟨h, rfl⟩) ?_
    obtain ⟨h1, hout⟩ := h.resolveClientMac i
    generalize resolveClientMac dp view w i = res at h1 hout ⊢
    generalize resolveClientMac dp view w' i = res' at h1 hout ⊢
    obtain ⟨w1, out⟩ := res
    obtain ⟨w1', out'⟩ := res'
    obtain rfl := hout
    cases out with
    | none => exact .ok ⟨h1, rfl⟩
    | some mac =>
      have hclient : (w1'.session i).client = (w1.session i).client := (congrArg Session.client (h1.session i) :)
      simp only [hclient]
      refine .after fun x => ?_
      exact .ite (.ok ⟨h1, rfl⟩) (.ok ⟨h1.count _, rfl⟩)

theorem icmpToServer_twins (h : Twins dp view addr w w') (ha : snap.Addresses addr) (info : IcmpErrorInfo) :
    Agree (SameOutcome dp view addr) (icmpToServer dp view w snap m p info)
      (icmpToServer dp view w' snap m p info) := by
  unfold icmpToServer
  simp only [pure_eq_ok]
  rw [h.lookup]
  cases w.sessions.lookup info.inner.reverse with
  | none => exact .ok ⟨h, rfl⟩
  | some i =>
    have hclient : (w'.session i).client = (w.session i).client := (congrArg Session.client (h.session i) :)
    simp only [hclient, h.rsId]
    refine .ite (.ok ⟨h, rfl⟩) ?_
    cases hrs : snap.rs (w.session i).rsId with
    | none => exact .ok ⟨h, rfl⟩
    | some rs =>
      simp only
      obtain ⟨h1, hout⟩ := h.resolveRsMac (ha _ rs hrs)
      generalize resolveRsMac dp view w i rs = res at h1 hout ⊢
      generalize resolveRsMac dp view w' i rs = res' at h1 hout ⊢
      obtain ⟨w1, out⟩ := res
      obtain ⟨w1', out'⟩ := res'
      obtain rfl := hout
      cases out with
      | none => exact .ok ⟨h1, rfl⟩
      | some mac =>
        have hserver : (w1'.session i).server = (w1.session i).server := (congrArg Session.server (h1.session i) :)
        simp only [hserver]
        refine .ite (.after fun m1 => .ok ⟨h1.count _, rfl⟩) (.after fun x => ?_)
        exact .ite (.ok ⟨h1, rfl⟩) (.ok ⟨h1.count _, rfl⟩)

theorem handleIcmp_twins (h : Twins dp view addr w w') (ha : snap.Addresses addr) (redirected : Bool) :
    Agree (SameOutcome dp view addr) (handleIcmp dp view w snap m p redirected)
      (handleIcmp dp view w' snap m p redirected) := by
  have hidx : w'.idx = w.idx := (congrArg WorkerCtx.idx h.forget.symm :)
  unfold handleIcmp handleIcmpError
  simp only [pure_eq_ok, hidx]
  refine .after fun type => .ite (.after fun r => ?_) (.ite (.ok ⟨h, rfl⟩) (.after fun m1 => .ok ⟨h, rfl⟩))
  cases r with
  | none => exact .ok ⟨h, rfl⟩
  | some info =>
    refine .after fun a => .ite (.ite (.ok ⟨h, rfl⟩) (icmpToClient_twins h info)) (.after fun b => ?_)
    exact .ite (.ite (.ok ⟨h, rfl⟩) (icmpToServer_twins h ha info)) (.ok ⟨h, rfl⟩)

theorem handleHcResponse_twins (h : Twins dp view addr w w') :
    Agree (SameOutcome dp view addr) (handleHcResponse w m p) (handleHcResponse w' m p) := by
  unfold handleHcResponse
  simp only [pure_eq_ok]
  exact .ite (.ok ⟨h, rfl⟩) (.after fun seq => .after fun ack => .ok ⟨(h.post _).count _, rfl⟩)

theorem handleArp_twins (h : Twins dp view addr w w') :
    Agree (SameOutcome dp view addr) (handleArp dp w snap m) (handleArp dp w' snap m) := by
  have hc := h.count .arp
  unfold handleArp arpForUs
  simp only [pure_eq_ok]
  refine .ite (.ok ⟨h, rfl⟩) (.after fun b => .ite (.ok ⟨hc, rfl⟩) ?_)
  refine .after fun senderIp => .after fun targetIp => .after fun l => .ite (.ok ⟨hc, rfl⟩) (.after fun t => ?_)
  refine .ite (.ok ⟨hc, rfl⟩) (.after fun senderMac => .after fun op => .ite (.after fun m1 => ?_) ?_)
  · exact .ok ⟨.ite (hc.post _) hc, rfl⟩
  · exact .ite (.ok ⟨hc.post _, rfl⟩) (.ok ⟨hc, rfl⟩)

theorem processL4_twins (h : Twins dp view addr w w') (hgen : 0 < view.generation) (ha : snap.Addresses addr)
    (redirected : Bool) :
    Agree (SameOutcome dp view addr) (processL4 dp view w snap m p redirected)
      (processL4 dp view w' snap m p redirected) := by
  have hidx : w'.idx = w.idx := (congrArg WorkerCtx.idx h.forget.symm :)
  unfold processL4 handleReturn handleInbound
  simp only [pure_eq_ok, hidx]
  refine .after fun r => .ite (.ite (.ok ⟨h, rfl⟩) (returnAtOwner_twins h)) (.ite (handleHcResponse_twins h) ?_)
  refine .after fun svc => ?_
  cases svc with
  | none => exact .after fun r => .ok ⟨h, rfl⟩
  | some svc => exact .ite (.ok ⟨h, rfl⟩) (inboundAtOwner_twins h hgen ha svc redirected)

theorem processIpv4_twins (h : Twins dp view addr w w') (hgen : 0 < view.generation) (ha : snap.Addresses addr)
    (redirected : Bool) :
    Agree (SameOutcome dp view addr) (processIpv4 dp view w snap m p redirected)
      (processIpv4 dp view w' snap m p redirected) := by
  have hcount : ∀ s : Stat, Twins dp view addr (if redirected then w else w.count s)
      (if redirected then w' else w'.count s) := fun s => .ite h (h.count s)
  unfold processIpv4
  simp only [pure_eq_ok]
  refine .ite (.ok ⟨h, rfl⟩) (.ite (.ok ⟨h, rfl⟩) (.ite (.after fun l => ?_) ?_))
  · exact .ite (.ok ⟨h, rfl⟩) (handleIcmp_twins (hcount _) ha redirected)
  · exact .ite (.after fun r => .ok ⟨h, rfl⟩) (processL4_twins (hcount _) hgen ha redirected)

/-- **A packet does the same to twins.** -/
theorem processPacket_twins (h : Twins dp view addr w w') (hgen : 0 < view.generation) (ha : snap.Addresses addr)
    (m : Mbuf) (redirected : Bool) :
    Agree (SameOutcome dp view addr) (processPacket dp view w snap m redirected)
      (processPacket dp view w' snap m redirected) := by
  unfold processPacket
  simp only [pure_eq_ok]
  refine .ite (.ok ⟨h, rfl⟩) (.after fun type => .ite (handleArp_twins h) (.ite (.ok ⟨h, rfl⟩) (.after fun x => ?_)))
  obtain ⟨r, p⟩ := x
  cases r with
  | ok => exact processIpv4_twins h hgen ha redirected
  | fragment => exact .ok ⟨h, rfl⟩
  | malformed => exact .ok ⟨h, rfl⟩

end Handlers

end L4Lb
