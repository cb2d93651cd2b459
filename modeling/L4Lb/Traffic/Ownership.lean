/-
# No packet is lost

Every mbuf the NIC has given is in exactly one place, whatever the rings and
the NIC take, and however the loops interleave. What is freed without being
consumed is counted once, in one of the counters that `drops` sums: the
counter of a party is the number of packets it has dropped under it.
-/
import L4Lb.Traffic
import L4Lb.World.Owners

open Checked Custody

namespace L4Lb

def Party.Valid (numWorkers : ℕ) : Party → Prop
  | worker i => i < numWorkers
  | receiver => True

namespace Traffic

variable {dp : Dataplane} {numRxQueues : ℕ} {st st' : Traffic}

@[simp] theorem hold_setHold (st : Traffic) (hold : Place → List Packet) : (st.setHold hold).hold = hold := rfl

@[simp] theorem hold_setPc (st : Traffic) (i : ℕ) (pc : WorkerPc) : (st.setPc i pc).hold = st.hold := rfl

/-- The counters of a party. -/
def statsOf (st : Traffic) : Party → Stat → ℕ
  | .worker i => (st.workers i).stats
  | .receiver => st.recvStats

/-! ### What is dropped -/

/-- `who` drops the packets `l` under `s` and counts them, and nothing else is
dropped or counted as dropped. -/
structure Drops (dp : Dataplane) (st st' : Traffic) (who : Party) (s : Stat) (l : List Packet) : Prop where
  valid : l ≠ [] → s ∈ Stat.dropStats ∧ who.Valid dp.steering.n
  hold : ∀ who' s', st'.hold (.dropped who' s') =
    if who' = who ∧ s' = s then st.hold (.dropped who' s') ++ l else st.hold (.dropped who' s')
  stats : ∀ who', ∀ s' ∈ Stat.dropStats, st'.statsOf who' s' =
    st.statsOf who' s' + if who' = who ∧ s' = s then l.length else 0

/-- What is dropped is counted. -/
structure Counted (dp : Dataplane) (st : Traffic) : Prop where
  valid : ∀ who s, st.hold (.dropped who s) ≠ [] → s ∈ Stat.dropStats ∧ who.Valid dp.steering.n
  count : ∀ who, ∀ s ∈ Stat.dropStats, st.statsOf who s = (st.hold (.dropped who s)).length

theorem Counted.drops {who : Party} {s : Stat} {l : List Packet} (h : Counted dp st)
    (hd : Drops dp st st' who s l) : Counted dp st' := by
  refine ⟨fun who' s' hne => ?_, fun who' s' hs' => ?_⟩
  · rw [hd.hold] at hne
    split at hne
    · rename_i heq
      obtain ⟨rfl, rfl⟩ := heq
      rcases eq_or_ne l [] with rfl | hl
      · exact h.valid _ _ (by simpa using hne)
      · exact hd.valid hl
    · exact h.valid _ _ hne
  · rw [hd.stats who' s' hs', hd.hold, h.count who' s' hs']
    split
    · rw [List.length_append]
    · rw [Nat.add_zero]

/-- Nothing is dropped. -/
theorem Drops.none (hh : ∀ who s, st'.hold (.dropped who s) = st.hold (.dropped who s))
    (hs : ∀ who, ∀ s ∈ Stat.dropStats, st'.statsOf who s = st.statsOf who s) :
    Drops dp st st' .receiver .txFull [] :=
  ⟨fun h => absurd rfl h, fun who s => by simp [hh], fun who s hs' => by simp [hs who s hs']⟩

theorem statsOf_setWorker {i : ℕ} {w : WorkerCtx} (h : SameDrops (st.workers i) w) (who : Party) (s : Stat)
    (hs : s ∈ Stat.dropStats) : (st.setWorker i w).statsOf who s = st.statsOf who s := by
  cases who with
  | receiver => rfl
  | worker k =>
    show (Function.update st.workers i w k).stats s = (st.workers k).stats s
    by_cases hk : k = i
    · subst hk
      rw [Function.update_self]
      exact h s hs
    · rw [Function.update_of_ne hk]

/-- A worker counts `n` packets under `s`. -/
theorem statsOf_addStat {i n : ℕ} {w w' : WorkerCtx} (h : SameDrops (st.workers i) w) {s : Stat}
    (hw : w'.stats = (w.addStat s n).stats) (who : Party) (s' : Stat) (hs' : s' ∈ Stat.dropStats) :
    (st.setWorker i w').statsOf who s' = st.statsOf who s' + if who = .worker i ∧ s' = s then n else 0 := by
  cases who with
  | receiver => simp [statsOf, setWorker]
  | worker k =>
    show (Function.update st.workers i w' k).stats s' = (st.workers k).stats s' + _
    by_cases hk : k = i
    · subst hk
      rw [Function.update_self, hw]
      show Function.update w.stats s (w.stats s + n) s' = _
      by_cases hss : s' = s
      · subst hss
        simp [h s' hs']
      · simp [hss, h s' hs']
    · simp [hk]

theorem sameDrops_addStat (w : WorkerCtx) {s : Stat} (hs : s ∉ Stat.dropStats) (n : ℕ) :
    SameDrops w (w.addStat s n) := fun s' hs' => by
  show Function.update w.stats s _ s' = _
  rw [Function.update_of_ne]
  rintro rfl
  exact hs hs'

/-! ### The invariant -/

/-- What holds also inside `tx_buffer_add`. -/
structure Core (dp : Dataplane) (st : Traffic) : Prop where
  once : Once Packet.tag st.hold (· < st.next)
  bufs : ∀ i, (∀ r left, st.pcs i ≠ .handle r left) → st.hold (.bufs i) = []
  polled : st.recvPc ≠ .grouping → st.hold .polled = []
  groups : ∀ k, st.hold (.group k) ≠ [] →
    k < dp.steering.n ∧ (st.recvPc = .grouping ∨ ∃ w ≤ k, st.recvPc = .enqueuing w)
  counted : Counted dp st

structure Inv (dp : Dataplane) (st : Traffic) : Prop extends Core dp st where
  tx : ∀ i, (st.hold (.tx i)).length < kBurstSize

/-- The places where packets are finished only fill up. -/
def Grows (st st' : Traffic) : Prop := ∀ p : Place, p.finished = true → st.hold p <+: st'.hold p

theorem Grows.refl (st : Traffic) : Grows st st := fun _ _ => List.prefix_rfl

theorem Grows.trans {st'' : Traffic} (h : Grows st st') (h' : Grows st' st'') : Grows st st'' :=
  fun p hp => (h p hp).trans (h' p hp)

theorem Grows.of_hold (h : st'.hold = st.hold) : Grows st st' := fun p _ => by rw [h]

theorem Grows.pass {p q : Place} {rest l : List Packet} (hp : p.finished = false)
    (h : st'.hold = pass st.hold p rest q l) : Grows st st' := by
  intro r hr
  rw [h, pass_apply]
  split
  · rename_i he
    exact he ▸ List.prefix_append ..
  split
  · rename_i he
    rw [he, hp] at hr
    simp at hr
  · exact List.prefix_rfl

/-! ### The steps -/

/-- The others than `i` that are not in the loop over `bufs`. -/
theorem not_handling {i k left : ℕ} {r : Bool}
    (hk : ∀ r' left', (st.setPc i (.handle r left)).pcs k ≠ .handle r' left') :
    k ≠ i ∧ ∀ r' left', st.pcs k ≠ .handle r' left' := by
  have hki : k ≠ i := by
    rintro rfl
    exact hk r left (by simp [Traffic.setPc])
  exact ⟨hki, fun r' left' => by simpa [Traffic.setPc, hki] using hk r' left'⟩

theorem Core.setPc (h : Core dp st) {i : ℕ} {pc : WorkerPc}
    (hb : (∀ r left, pc ≠ .handle r left) → st.hold (.bufs i) = []) : Core dp (st.setPc i pc) := by
  refine ⟨h.once, fun k hk => ?_, h.polled, h.groups, h.counted.valid, h.counted.count⟩
  by_cases hki : k = i
  · subst hki
    exact hb fun r left => by simpa [Traffic.setPc] using hk r left
  · exact h.bufs k fun r left => by simpa [Traffic.setPc, hki] using hk r left

theorem Inv.setPc (h : Inv dp st) {i : ℕ} {pc : WorkerPc}
    (hb : (∀ r left, pc ≠ .handle r left) → st.hold (.bufs i) = []) : Inv dp (st.setPc i pc) :=
  ⟨h.toCore.setPc hb, h.tx⟩

/-- A worker passes a packet on, or drops it. -/
theorem Core.passOn (h : Core dp st) {i : ℕ} {p : Packet} {rest : List Packet} {m : Mbuf} {q : Place}
    (hb : st.hold (.bufs i) = p :: rest) (hq : q = .tx i ∨ (∃ k, q = .redirectRing k) ∨ q.finished = true)
    {w : WorkerCtx} {who : Party} {s : Stat} {l : List Packet}
    (hd : Drops dp st ((st.setWorker i w).setHold (pass st.hold (.bufs i) rest q [⟨p.tag, m⟩])) who s l) :
    Core dp ((st.setWorker i w).setHold (pass st.hold (.bufs i) rest q [⟨p.tag, m⟩])) := by
  have hne : Place.bufs i ≠ q := by
    rintro rfl
    simp [Place.finished] at hq
  refine ⟨h.once.pass hne (by rw [hb]; simp), fun k hk => ?_, fun hr => ?_, fun k hk => ?_, h.counted.drops hd⟩
  · have hki : k ≠ i := by
      rintro rfl
      simpa [hb] using h.bufs k hk
    have hkq : Place.bufs k ≠ q := by
      rintro rfl
      simp [Place.finished] at hq
    show Custody.pass st.hold (.bufs i) rest q [⟨p.tag, m⟩] (.bufs k) = []
    rw [pass_of_ne (by simpa using hki) hkq]
    exact h.bufs k hk
  · have hpq : Place.polled ≠ q := by
      rintro rfl
      simp [Place.finished] at hq
    show Custody.pass st.hold (.bufs i) rest q [⟨p.tag, m⟩] .polled = []
    rw [pass_of_ne (by simp) hpq]
    exact h.polled hr
  · have hgq : Place.group k ≠ q := by
      rintro rfl
      simp [Place.finished] at hq
    change Custody.pass st.hold (.bufs i) rest q [⟨p.tag, m⟩] (.group k) ≠ [] at hk
    rw [pass_of_ne (by simp) hgq] at hk
    exact h.groups k hk

theorem Grows.share {p q r : Place} {n : ℕ} (hp : p.finished = false) (hpq : p ≠ q) (hpr : p ≠ r) (hqr : q ≠ r)
    (h : st'.hold = share st.hold p n q r) : Grows st st' := by
  intro x hx
  rw [h, share_apply hpq hpr hqr]
  split
  · rename_i he
    exact he ▸ List.prefix_append ..
  split
  · rename_i he
    exact he ▸ List.prefix_append ..
  split
  · rename_i he
    rw [he, hp] at hx
    simp at hx
  · exact List.prefix_rfl

theorem Drops.share {p q : Place} {n : ℕ} {who : Party} {s : Stat} (hp : p.finished = false) (hpq : p ≠ q)
    (hq : ∀ who' s', q ≠ .dropped who' s') (hs : s ∈ Stat.dropStats) (hw : who.Valid dp.steering.n)
    (h : st'.hold = Custody.share st.hold p n q (.dropped who s))
    (hstats : ∀ who', ∀ s' ∈ Stat.dropStats, st'.statsOf who' s' =
      st.statsOf who' s' + if who' = who ∧ s' = s then ((st.hold p).drop n).length else 0) :
    Drops dp st st' who s ((st.hold p).drop n) := by
  have hpd : ∀ who' s', p ≠ .dropped who' s' := by
    rintro who' s' rfl
    simp [Place.finished] at hp
  refine ⟨fun _ => ⟨hs, hw⟩, fun who' s' => ?_, hstats⟩
  rw [h, share_apply hpq (hpd _ _) (hq _ _)]
  by_cases he : who' = who ∧ s' = s
  · obtain ⟨rfl, rfl⟩ := he
    simp
  · simp only [Place.dropped.injEq, he, if_false, (hq who' s').symm, (hpd who' s').symm]

/-- `tx_flush`, from any fill of the buffer. -/
theorem Core.txFlush (h : Core dp st) {i : ℕ} (hi : i < dp.steering.n) (sent : ℕ) :
    Core dp (st.txFlush i sent) ∧ Grows st (st.txFlush i sent) ∧ (st.txFlush i sent).hold (.tx i) = [] ∧
      ∀ k, k ≠ i → (st.txFlush i sent).hold (.tx k) = st.hold (.tx k) := by
  unfold Traffic.txFlush
  by_cases hl : st.hold (.tx i) = []
  · simp only [hl, if_true]
    exact ⟨h, .refl st, trivial, fun _ _ => trivial⟩
  simp only [hl, if_false]
  generalize hnb : min sent (st.hold (.tx i)).length = nb
  have happly : ∀ x, share st.hold (.tx i) nb .sent (.dropped (.worker i) .txFull) x = _ :=
    share_apply (by simp) (by simp) (by simp) nb
  have hw : SameDrops (st.workers i) ((st.workers i).addStat .tx nb) := sameDrops_addStat _ (by decide) nb
  have hv : Party.Valid dp.steering.n (.worker i) := hi
  refine ⟨⟨h.once.share (by simp) (by simp) nb, fun k hk => ?_, fun hr => ?_, fun k hk => ?_,
    h.counted.drops (.share rfl (by simp) (by simp) (by decide) hv rfl ?_)⟩, ?_, ?_, fun k hk => ?_⟩
  · simpa [happly] using h.bufs k hk
  · simpa [happly] using h.polled hr
  · exact h.groups k (by simpa [happly] using hk)
  · refine statsOf_addStat hw ?_
    rw [List.length_drop]
    split
    · rfl
    · rename_i hge
      rw [Nat.sub_eq_zero_of_le (Nat.le_of_not_lt hge)]
      simp [WorkerCtx.addStat, WorkerCtx.addBytes]
  · exact .share rfl (by simp) (by simp) (by simp) rfl
  · simp [happly]
  · simp [happly, hk]

section Handle

variable {i : ℕ} {p : Packet} {rest : List Packet} {w : WorkerCtx} {m : Mbuf}

/-- The packet goes on. -/
theorem Core.passed (h : Core dp st) (hb : st.hold (.bufs i) = p :: rest) (hw : SameDrops (st.workers i) w)
    {q : Place} (hq : q = .tx i ∨ (∃ k, q = .redirectRing k) ∨ q = .consumed) :
    Core dp ((st.setWorker i w).setHold (pass st.hold (.bufs i) rest q [⟨p.tag, m⟩])) := by
  have hd : ∀ who s, (Place.dropped who s) ≠ q := by
    rintro who s rfl
    simp at hq
  refine h.passOn hb (hq.imp_right (.imp_right fun hq => hq ▸ rfl)) (.none (fun who s => ?_) (statsOf_setWorker hw))
  exact pass_of_ne (by simp) (hd who s) rest _

/-- The packet is freed and counted. -/
theorem Core.freed (h : Core dp st) (hi : i < dp.steering.n) (hb : st.hold (.bufs i) = p :: rest)
    (hw : SameDrops (st.workers i) w) {s : Stat} (hs : s ∈ Stat.dropReasons) :
    Core dp ((st.setWorker i (w.count s)).setHold
      (pass st.hold (.bufs i) rest (.dropped (.worker i) s) [⟨p.tag, m⟩])) := by
  have hs' : s ∈ Stat.dropStats := List.mem_cons_of_mem _ (List.mem_cons_of_mem _ hs)
  have hd : Drops dp st ((st.setWorker i (w.count s)).setHold
      (pass st.hold (.bufs i) rest (.dropped (.worker i) s) [⟨p.tag, m⟩])) (.worker i) s [⟨p.tag, m⟩] := by
    refine ⟨fun _ => ⟨hs', hi⟩, fun who s' => ?_, fun who s' hmem => ?_⟩
    · rw [hold_setHold, pass_apply]
      by_cases he : who = .worker i ∧ s' = s
      · obtain ⟨rfl, rfl⟩ := he
        simp
      · simp only [Place.dropped.injEq, he, if_false, reduceCtorEq]
    · exact statsOf_addStat hw rfl who s' hmem
  exact h.passOn hb (Or.inr (Or.inr rfl)) hd

theorem Inv.of_core (h : Inv dp st) {q : Place} {l : List Packet} (hq : ∀ k, Place.tx k ≠ q) (hc : Core dp st')
    (hh : st'.hold = pass st.hold (.bufs i) rest q l) : Inv dp st' := by
  refine ⟨hc, fun k => ?_⟩
  rw [hh, pass_of_ne (by simp) (hq k)]
  exact h.tx k

theorem Inv.txBufferAdd (h : Inv dp st) (hi : i < dp.steering.n) (hb : st.hold (.bufs i) = p :: rest)
    (hw : SameDrops (st.workers i) w) {sent : ℕ}
    (hs : (st.setWorker i w).txBufferAdd i ⟨p.tag, m⟩ rest sent = .ok st') : Inv dp st' ∧ Grows st st' := by
  have hcore : Core dp ((st.setWorker i w).setHold (pass st.hold (.bufs i) rest (.tx i) [⟨p.tag, m⟩])) :=
    h.passed hb hw (Or.inl rfl)
  have hgrow : Grows st ((st.setWorker i w).setHold (pass st.hold (.bufs i) rest (.tx i) [⟨p.tag, m⟩])) :=
    .pass rfl rfl
  have htx : ∀ k, k ≠ i → pass st.hold (.bufs i) rest (.tx i) [⟨p.tag, m⟩] (.tx k) = st.hold (.tx k) :=
    fun k hk => pass_of_ne (by simp) (by simpa using hk) rest _
  generalize hst : (st.setWorker i w).setHold (pass st.hold (.bufs i) rest (.tx i) [⟨p.tag, m⟩]) = st1 at hcore hgrow
  have hone : (st.setWorker i w).txBufferAdd i ⟨p.tag, m⟩ rest sent =
      .ok (if (st.hold (.tx i)).length + 1 ≥ kBurstSize then st1.txFlush i sent else st1) := by
    rw [← hst]
    exact if_neg (Nat.not_le.mpr (h.tx i))
  rw [hone] at hs
  obtain rfl := Except.ok.inj hs
  split
  · obtain ⟨hc, hg, hempty, hother⟩ := hcore.txFlush hi sent
    refine ⟨⟨hc, fun k => ?_⟩, hgrow.trans hg⟩
    by_cases hk : k = i
    · subst hk
      rw [hempty]
      decide
    · rw [hother k hk, ← hst, hold_setHold, htx k hk]
      exact h.tx k
  · rename_i hfull
    refine ⟨⟨hcore, fun k => ?_⟩, hgrow⟩
    rw [← hst, hold_setHold]
    by_cases hk : k = i
    · subst hk
      rw [pass_to, List.length_append]
      exact Nat.lt_of_not_le hfull
    · rw [htx k hk]
      exact h.tx k

/-- **The end of `handle`** gives the packet one place. -/
theorem Inv.finish (h : Inv dp st) (hi : i < dp.steering.n) (hb : st.hold (.bufs i) = p :: rest) {took : Bool}
    {sent : ℕ} {o : Outcome} (ht : Tallied (st.workers i) o)
    (hs : st.finish dp i p rest took sent o = .ok st') : Inv dp st' ∧ Grows st st' := by
  obtain ⟨w, m, r⟩ := o
  have hw : SameDrops (st.workers i) w := ht.same
  cases r with
  | send => exact h.txBufferAdd hi hb hw hs
  | redirect k =>
    simp only [Traffic.finish] at hs
    split at hs
    · obtain rfl := Except.ok.inj hs
      have hc := h.passed (m := m) hb (hw.trans (.count w (by decide : Stat.redirectOut ∉ _)))
        (Or.inr (Or.inl ⟨k, rfl⟩))
      exact ⟨h.of_core (by simp) hc rfl, .pass rfl rfl⟩
    · obtain rfl := Except.ok.inj hs
      exact ⟨h.of_core (by simp) (h.freed hi hb hw (by decide)) rfl, .pass rfl rfl⟩
  | drop reason =>
    obtain rfl := Except.ok.inj hs
    exact ⟨h.of_core (by simp) (h.freed hi hb hw (ht.reason reason rfl)) rfl, .pass rfl rfl⟩
  | consumed =>
    obtain rfl := Except.ok.inj hs
    exact ⟨h.of_core (by simp) (h.passed hb hw (Or.inr (Or.inr rfl))) rfl, .pass rfl rfl⟩

end Handle

/-! ### Bursts -/

theorem newPackets_tags (next : ℕ) (ms : List Mbuf) :
    (newPackets next ms).map (·.tag) = List.range' next ms.length := by
  unfold newPackets
  refine List.ext_getElem (by simp) fun k h1 h2 => ?_
  simp

/-- A burst of the NIC comes into an empty place. -/
theorem once_newPackets {q : Place} (h : Once Packet.tag st.hold (· < st.next)) (hq : st.hold q = [])
    (ms : List Mbuf) :
    Once Packet.tag (Function.update st.hold q (newPackets st.next ms)) (· < st.next + ms.length) := by
  have htags : (newPackets st.next ms).map Packet.tag = List.range' st.next ms.length := newPackets_tags _ _
  have hin := h.enter (p := q) (l := newPackets st.next ms) (by rw [htags]; exact List.nodup_range')
    (by rw [htags]; intro t ht; rw [List.mem_range'_1] at ht; omega)
  rw [hq, List.nil_append] at hin
  refine ⟨hin.nodup, hin.unique, fun t => ?_⟩
  rw [← hin.mem_iff, htags, List.mem_range'_1]
  omega

theorem Inv.rxBurst (h : Inv dp st) {i left : ℕ} (hpc : st.pcs i = .receive left) {w : WorkerCtx}
    (hw : SameDrops (st.workers i) w) {r : Bool} {left' : ℕ} (ms : List Mbuf) :
    Inv dp { ((st.setWorker i w).setPc i (.handle r left')).setHold
        (Function.update st.hold (.bufs i) (newPackets st.next ms)) with
      next := st.next + ms.length } := by
  have hb : st.hold (.bufs i) = [] := h.bufs i (by simp [hpc])
  refine ⟨⟨once_newPackets h.once hb ms, fun k hk => ?_, fun hr => ?_, fun k hk => ?_,
    h.counted.drops (.none (fun who s => ?_) (statsOf_setWorker hw))⟩, fun k => ?_⟩
  · obtain ⟨hki, hk⟩ := not_handling hk
    simpa [hki] using h.bufs k hk
  · simpa using h.polled hr
  · exact h.groups k (by simpa using hk)
  · simp
  · simpa using h.tx k

/-- A ring fills `bufs`. -/
theorem grows_rxBurst {i : ℕ} {w : WorkerCtx} {pc : WorkerPc} (ms : List Mbuf) :
    Grows st { ((st.setWorker i w).setPc i pc).setHold
        (Function.update st.hold (.bufs i) (newPackets st.next ms)) with
      next := st.next + ms.length } := by
  intro q hq
  have hne : q ≠ .bufs i := by
    rintro rfl
    simp [Place.finished] at hq
  simp [hne]

theorem Inv.refill (h : Inv dp st) {i : ℕ} (hpc : ∀ r left, st.pcs i ≠ .handle r left) {ring : Place}
    (hring : (∃ k, ring = .rxRing k) ∨ ∃ k, ring = .redirectRing k) {w : WorkerCtx}
    (hw : SameDrops (st.workers i) w) (n : ℕ) {r : Bool} {left : ℕ} :
    Inv dp (((st.refill i ring n).setWorker i w).setPc i (.handle r left)) := by
  have hb : st.hold (.bufs i) = [] := h.bufs i hpc
  have hrb : ∀ k, Place.bufs k ≠ ring := by
    rintro k rfl
    simp at hring
  have hold : (st.refill i ring n).hold =
      pass st.hold ring ((st.hold ring).drop (min n kBurstSize)) (.bufs i)
        ((st.hold ring).take (min n kBurstSize)) := by
    simp [Traffic.refill, Custody.pass, hb]
  have hsame : ∀ q, q ≠ ring → q ≠ .bufs i → (st.refill i ring n).hold q = st.hold q := fun q h1 h2 => by
    rw [hold, pass_of_ne h1 h2]
  have hother : ∀ q : Place, ((∀ k, q ≠ .rxRing k) ∧ (∀ k, q ≠ .redirectRing k)) → q ≠ ring := by
    rintro q ⟨h1, h2⟩ rfl
    rcases hring with ⟨k, hk⟩ | ⟨k, hk⟩
    · exact h1 k hk
    · exact h2 k hk
  have hcore : Core dp (((st.refill i ring n).setWorker i w).setPc i (.handle r left)) := by
    refine ⟨?_, fun k hk => ?_, fun hr => ?_, fun k hk => ?_, h.counted.drops (.none (fun who s => ?_)
      (statsOf_setWorker hw))⟩
    · show Once Packet.tag (st.refill i ring n).hold (· < st.next)
      rw [hold]
      exact h.once.pass (hrb i).symm (by rw [← List.map_append, List.take_append_drop])
    · obtain ⟨hki, hk⟩ := not_handling hk
      show (st.refill i ring n).hold (.bufs k) = []
      rw [hsame _ (hrb k) (by simpa using hki)]
      exact h.bufs k hk
    · show (st.refill i ring n).hold .polled = []
      rw [hsame _ (hother _ (by simp)) (by simp)]
      exact h.polled hr
    · change (st.refill i ring n).hold (.group k) ≠ [] at hk
      rw [hsame _ (hother _ (by simp)) (by simp)] at hk
      exact h.groups k hk
    · exact hsame (.dropped who s) (hother _ (by simp)) (by simp)
  refine ⟨hcore, fun k => ?_⟩
  show ((st.refill i ring n).hold (.tx k)).length < _
  rw [hsame _ (hother _ (by simp)) (by simp)]
  exact h.tx k

theorem grows_refill {i n : ℕ} {ring : Place} (hring : ring.finished = false) {w : WorkerCtx} {pc : WorkerPc} :
    Grows st (((st.refill i ring n).setWorker i w).setPc i pc) := by
  intro q hq
  have hne : q ≠ ring ∧ q ≠ .bufs i := by
    refine ⟨?_, ?_⟩ <;> rintro rfl <;> simp_all [Place.finished]
  simp [Traffic.refill, Traffic.setWorker, hne]

/-- `tx_flush` of a worker that is not in the loop over `bufs`. -/
theorem Inv.flushed (h : Inv dp st) {i : ℕ} (hi : i < dp.steering.n) (sent : ℕ)
    (hpc : ∀ r left, st.pcs i ≠ .handle r left) {pc : WorkerPc} :
    Inv dp ((st.txFlush i sent).setPc i pc) ∧ Grows st ((st.txFlush i sent).setPc i pc) := by
  obtain ⟨hc, hg, hempty, hother⟩ := h.toCore.txFlush hi sent
  have hpcs : (st.txFlush i sent).pcs = st.pcs := by
    simp only [Traffic.txFlush]
    split <;> rfl
  refine ⟨⟨hc.setPc fun _ => hc.bufs i (by rw [hpcs]; exact hpc), fun k => ?_⟩, hg⟩
  by_cases hk : k = i
  · subst hk
    rw [hold_setPc, hempty]
    decide
  · rw [hold_setPc, hother k hk]
    exact h.tx k

/-! ### The receiver -/

theorem Inv.poll (h : Inv dp st) (hr : st.recvPc = .idle) (ms : List Mbuf) {stats : Stat → ℕ}
    (hs : ∀ s ∈ Stat.dropStats, stats s = st.recvStats s) :
    Inv dp { st with
      recvPc := .grouping
      recvStats := stats
      hold := fun p => match p with
        | .polled => newPackets st.next ms
        | .group _ => []
        | p => st.hold p
      next := st.next + ms.length } := by
  have hg : ∀ k, st.hold (.group k) = [] := fun k => by
    by_contra hne
    simpa [hr] using (h.groups k hne).2
  have hold : (fun p : Place => match p with
      | .polled => newPackets st.next ms
      | .group _ => []
      | p => st.hold p) = Function.update st.hold .polled (newPackets st.next ms) := by
    funext p
    cases p <;> simp [hg]
  have hp : st.hold .polled = [] := h.polled (by simp [hr])
  refine ⟨⟨?_, h.bufs, fun hn => absurd rfl hn, fun k hk => absurd rfl hk, h.counted.drops (.none (fun _ _ => rfl) ?_)⟩,
    h.tx⟩
  · show Once Packet.tag (fun p : Place => _) _
    rw [hold]
    exact once_newPackets h.once hp ms
  · intro who s hmem
    cases who with
    | worker k => rfl
    | receiver => exact hs s hmem

theorem Inv.groupNext (h : Inv dp st) (hr : st.recvPc = .grouping) (hs : st.groupNext dp = .ok st') :
    Inv dp st' ∧ Grows st st' := by
  unfold Traffic.groupNext at hs
  split at hs
  · rename_i hp
    obtain rfl := Except.ok.inj hs
    refine ⟨⟨⟨h.once, h.bufs, fun _ => hp, fun k hk => ⟨(h.groups k hk).1, Or.inr ⟨0, Nat.zero_le _, rfl⟩⟩,
      h.counted.valid, h.counted.count⟩, h.tx⟩, .of_hold rfl⟩
  · rename_i p rest hp
    obtain ⟨k, hk, hs⟩ := bind_eq_ok.mp hs
    have hlt : k < dp.steering.n := by
      obtain ⟨k', hk', hlt⟩ := Dispatcher.target_returns dp.H
        (Dispatcher.init dp.steering dp.cfg.mode dp.cfg.localIps) p.m
      obtain rfl : k' = k := Except.ok.inj (hk'.symm.trans hk)
      exact hlt
    split at hs
    · simp at hs
    obtain rfl := Except.ok.inj hs
    have hsame : ∀ q : Place, q ≠ .polled → q ≠ .group k → pass st.hold .polled rest (.group k) [p] q = st.hold q :=
      fun q h1 h2 => pass_of_ne h1 h2 rest _
    refine ⟨⟨⟨h.once.pass (by simp) (by rw [hp]; simp), fun i hi => ?_, fun hn => absurd hr hn, fun j hj => ?_,
      h.counted.drops (.none (fun who s => ?_) fun who s _ => by cases who <;> rfl)⟩, fun i => ?_⟩, .pass rfl rfl⟩
    · exact (hsame _ (by simp) (by simp)).trans (h.bufs i hi)
    · by_cases hjk : j = k
      · subst hjk
        exact ⟨hlt, Or.inl hr⟩
      · exact h.groups j (hsame (.group j) (by simp) (by simpa using hjk) ▸ hj)
    · exact hsame (.dropped who s) (by simp) (by simp)
    · show (pass st.hold .polled rest (.group k) [p] (.tx i)).length < _
      rw [hsame _ (by simp) (by simp)]
      exact h.tx i

/-- While the groups are offered, those before the current one are empty. -/
theorem Inv.group_le (h : Inv dp st) {w k : ℕ} (hr : st.recvPc = .enqueuing w) (hk : st.hold (.group k) ≠ []) :
    k < dp.steering.n ∧ w ≤ k := by
  obtain ⟨hlt, hg | ⟨w', hle, he⟩⟩ := h.groups k hk
  · simp [hr] at hg
  · rw [hr] at he
    obtain rfl := RecvPc.enqueuing.inj he
    exact ⟨hlt, hle⟩

theorem Inv.enqueueGroup (h : Inv dp st) {w : ℕ} (hr : st.recvPc = .enqueuing w) (done : ℕ) :
    Inv dp (st.enqueueGroup w done) ∧ Grows st (st.enqueueGroup w done) := by
  unfold Traffic.enqueueGroup
  simp only
  generalize hnb : min done (st.hold (.group w)).length = nb
  have happly : ∀ x, share st.hold (.group w) nb (.rxRing w) (.dropped .receiver .dropRxRing) x = _ :=
    share_apply (by simp) (by simp) (by simp) nb
  have hv : Party.Valid dp.steering.n .receiver := trivial
  refine ⟨⟨⟨h.once.share (by simp) (by simp) nb, fun k hk => ?_, fun _ => ?_, fun k hk => ?_,
    h.counted.drops (.share rfl (by simp) (by simp) (by decide) hv rfl fun who s hs => ?_)⟩,
    fun k => ?_⟩, .share rfl (by simp) (by simp) (by simp) rfl⟩
  · simpa [happly] using h.bufs k hk
  · simpa [happly] using h.polled (by simp [hr])
  · have hkw : k ≠ w := by
      rintro rfl
      simp [happly] at hk
    obtain ⟨hlt, hle⟩ := h.group_le hr (k := k) (by simpa [happly, hkw] using hk)
    exact ⟨hlt, Or.inr ⟨w + 1, by omega, rfl⟩⟩
  · cases who with
    | worker k => simp [statsOf]
    | receiver =>
      simp only [statsOf, Function.update_apply, List.length_drop, true_and]
      split <;> simp_all
  · simpa [happly] using h.tx k

/-- Behind the last group: all have been offered. -/
theorem Inv.enqueued (h : Inv dp st) {w : ℕ} (hr : st.recvPc = .enqueuing w) (hge : ¬ w < dp.steering.n) :
    Inv dp { st with recvPc := .idle } := by
  refine ⟨⟨h.once, h.bufs, fun _ => h.polled (by simp [hr]), fun k hk => ?_, h.counted.valid, h.counted.count⟩, h.tx⟩
  obtain ⟨hlt, hle⟩ := h.group_le hr hk
  omega

/-! ### Steps without packets -/

theorem step_workers_drops {W W' : World} {ev : Event} (hs : W.step dp ev = .ok W')
    (hev : ∀ i m view, ev ≠ .receive i m view) (hev' : ∀ i view, ev ≠ .takeRedirected i view) (k : ℕ) :
    SameDrops (W.workers k) (W'.workers k) := by
  have hset : ∀ {i : ℕ} {w : WorkerCtx}, SameDrops (W.workers i) w →
      SameDrops (W.workers k) (Function.update W.workers i w k) := by
    intro i w hw
    by_cases hk : k = i
    · subst hk
      rwa [Function.update_self]
    · rw [Function.update_of_ne hk]
      exact .refl _
  cases ev with
  | receive i m view => exact absurd rfl (hev i m view)
  | takeRedirected i view => exact absurd rfl (hev' i view)
  | turn i =>
    simp only [World.step] at hs
    split at hs
    · simp at hs
    split at hs
    · exact Except.ok.inj hs ▸ .refl _
    · exact Except.ok.inj hs ▸ hset (.of_stats rfl)
  | readClock i tsc =>
    obtain ⟨w, hw, hs⟩ := bind_eq_ok.mp hs
    obtain rfl := Except.ok.inj hs
    refine hset ?_
    unfold WorkerCtx.readClock at hw
    simp only at hw
    split at hw
    · simp at hw
    · obtain rfl := Except.ok.inj hw
      exact sameDrops_addStat _ (by decide) _
  | command c =>
    obtain ⟨mgr, -, hs⟩ := bind_eq_ok.mp hs
    exact Except.ok.inj hs ▸ .refl _

theorem Inv.outside (h : Inv dp st) {ev : Event} (hev : ∀ i m view, ev ≠ .receive i m view)
    (hev' : ∀ i view, ev ≠ .takeRedirected i view) (hs : st.outside dp ev = .ok st') :
    Inv dp st' ∧ Grows st st' := by
  obtain ⟨W, hW, hs⟩ := bind_eq_ok.mp hs
  obtain rfl := Except.ok.inj hs
  refine ⟨⟨⟨h.once, h.bufs, h.polled, h.groups, h.counted.drops (.none (fun _ _ => rfl) fun who s hmem => ?_)⟩, h.tx⟩,
    .of_hold rfl⟩
  cases who with
  | worker k => exact step_workers_drops hW hev hev' k s hmem
  | receiver => rfl

/-! ### Whole runs -/

theorem Inv.stay (h : Inv dp st) (hs : (.ok st : Except Fault Traffic) = .ok st') : Inv dp st' ∧ Grows st st' := by
  obtain rfl := Except.ok.inj hs
  exact ⟨h, .refl st⟩

theorem Inv.between (h : Inv dp st) {ev : Event} (hs : st.step dp numRxQueues (.between ev) = .ok st') :
    Inv dp st' ∧ Grows st st' := by
  cases ev with
  | receive i m view => exact h.stay hs
  | takeRedirected i view => exact h.stay hs
  | turn i =>
    simp only [Traffic.step] at hs
    split at hs
    · exact h.outside (by simp) (by simp) hs
    · exact h.stay hs
  | readClock i tsc =>
    simp only [Traffic.step] at hs
    split at hs
    · exact h.outside (by simp) (by simp) hs
    · exact h.stay hs
  | command c => exact h.outside (by simp) (by simp) hs

/-- **Every step** keeps each packet in one place and counts what it drops. -/
theorem Inv.step (h : Inv dp st) {a : Act} (hv : a.Valid dp.steering.n)
    (hs : st.step dp numRxQueues a = .ok st') : Inv dp st' ∧ Grows st st' := by
  cases a with
  | rxBurst i ms =>
    simp only [Traffic.step] at hs
    split at hs
    · rename_i left hpc
      split at hs
      · exact h.stay hs
      · obtain rfl := Except.ok.inj hs
        have hw : SameDrops (st.workers i) (((st.workers i).addStat .rx ms.length).addBytes .rx
            (ms.map (·.pktLen)).sum) := sameDrops_addStat _ (by decide) _
        exact ⟨h.rxBurst hpc hw ms, grows_rxBurst ms⟩
    · exact h.stay hs
  | dequeue i n =>
    simp only [Traffic.step] at hs
    split at hs
    · rename_i left hpc
      split at hs
      · exact h.stay hs
      · obtain rfl := Except.ok.inj hs
        exact ⟨h.refill (by simp [hpc]) (Or.inl ⟨i, rfl⟩) (sameDrops_addStat _ (by decide) _) n, grows_refill rfl⟩
    · exact h.stay hs
  | dequeueRedirect i n =>
    simp only [Traffic.step] at hs
    split at hs
    · rename_i hpc
      obtain rfl := Except.ok.inj hs
      exact ⟨h.refill (by simp [hpc]) (Or.inr ⟨i, rfl⟩) (sameDrops_addStat _ (by decide) _) n, grows_refill rfl⟩
    · exact h.stay hs
  | handle i view took sent =>
    simp only [Traffic.step] at hs
    split at hs
    · rename_i hb
      obtain ⟨o, ho, hs⟩ := bind_eq_ok.mp hs
      exact h.finish hv hb (processPacket_tallied _ _ _ _ _ _ o ho) hs
    · exact h.stay hs
  | advance i =>
    simp only [Traffic.step] at hs
    split at hs
    · rename_i hpc
      obtain rfl := Except.ok.inj hs
      exact ⟨h.setPc fun _ => h.bufs i (by simp [hpc]), .of_hold rfl⟩
    · rename_i hb
      obtain rfl := Except.ok.inj hs
      exact ⟨h.setPc fun _ => hb, .of_hold rfl⟩
    · rename_i hb
      obtain rfl := Except.ok.inj hs
      exact ⟨h.setPc fun _ => hb, .of_hold rfl⟩
    · exact h.stay hs
  | flush i sent =>
    simp only [Traffic.step] at hs
    split at hs
    · rename_i hpc
      obtain rfl := Except.ok.inj hs
      exact h.flushed hv sent (by simp [hpc])
    split at hs
    · rename_i hpc
      obtain rfl := Except.ok.inj hs
      exact h.flushed hv sent (by simp [hpc])
    · exact h.stay hs
  | stop i =>
    simp only [Traffic.step] at hs
    split at hs
    · rename_i hpc
      obtain rfl := Except.ok.inj hs
      exact ⟨h.setPc fun _ => h.bufs i (by simp [hpc, top]), .of_hold rfl⟩
    · exact h.stay hs
  | poll ms =>
    simp only [Traffic.step] at hs
    split at hs
    · rename_i hc
      obtain rfl := Except.ok.inj hs
      simp only [Bool.and_eq_true, decide_eq_true_iff] at hc
      refine ⟨h.poll hc.1.2 ms fun s hmem => ?_, fun q hq => ?_⟩
      · rw [Function.update_of_ne]
        rintro rfl
        exact absurd hmem (by decide)
      · cases q <;> simp_all [Place.finished]
    · exact h.stay hs
  | group =>
    simp only [Traffic.step] at hs
    split at hs
    · rename_i hr
      exact h.groupNext hr hs
    · exact h.stay hs
  | enqueue done =>
    simp only [Traffic.step] at hs
    split at hs
    · rename_i w hr
      obtain rfl := Except.ok.inj hs
      split
      · exact h.enqueueGroup hr done
      · rename_i hge
        exact ⟨h.enqueued hr hge, .of_hold rfl⟩
    · exact h.stay hs
  | between ev => exact h.between hs

theorem Inv.boot (hb : boot dp numRxQueues = .ok st) : Inv dp st := by
  obtain ⟨W, hW, hs⟩ := bind_eq_ok.mp hb
  obtain rfl := Except.ok.inj hs
  have hzero : ∀ i, (W.workers i).stats = fun _ => 0 := by
    unfold World.boot at hW
    obtain ⟨mgr, -, hW⟩ := bind_eq_ok.mp hW
    split at hW
    · simp at hW
    · obtain rfl := Except.ok.inj hW
      exact fun _ => rfl
  refine ⟨⟨⟨fun _ => List.nodup_nil, fun p q t ht => by simp at ht, fun t => by simp⟩, fun _ _ => rfl, fun _ => rfl,
    fun k hk => absurd rfl hk, fun who s hne => absurd rfl hne, fun who s _ => ?_⟩,
    fun _ => show 0 < kBurstSize by decide⟩
  cases who with
  | worker i => simp [statsOf, hzero]
  | receiver => rfl

theorem reach_inv (h : Reach dp numRxQueues st) : Inv dp st := by
  induction h with
  | boot hb => exact .boot hb
  | step a _ hv hs ih => exact (ih.step hv hs).1

/-- `stats_total`, of the workers and the receiver. -/
def statsTotal (dp : Dataplane) (st : Traffic) (s : Stat) : ℕ :=
  ((List.range dp.steering.n).map fun i => (st.workers i).stats s).sum + st.recvStats s

/-- The packets that were freed without being consumed. -/
def droppedPackets (dp : Dataplane) (st : Traffic) : List Packet :=
  Stat.dropStats.flatMap fun s =>
    ((List.range dp.steering.n).flatMap fun i => st.hold (.dropped (.worker i) s)) ++ st.hold (.dropped .receiver s)

theorem Counted.mem_droppedPackets (h : Counted dp st) {who : Party} {s : Stat} {p : Packet}
    (hp : p ∈ st.hold (.dropped who s)) : p ∈ st.droppedPackets dp := by
  obtain ⟨hs, hw⟩ := h.valid who s (List.ne_nil_of_mem hp)
  refine List.mem_flatMap.mpr ⟨s, hs, List.mem_append.mpr ?_⟩
  cases who with
  | worker i => exact Or.inl (List.mem_flatMap.mpr ⟨i, List.mem_range.mpr hw, hp⟩)
  | receiver => exact Or.inr hp

theorem Counted.drops_statsTotal (h : Counted dp st) :
    L4Lb.drops (st.statsTotal dp) = (st.droppedPackets dp).length := by
  rw [drops_eq_sum, droppedPackets, List.length_flatMap]
  refine congrArg List.sum (List.map_congr_left fun s hs => ?_)
  rw [statsTotal, List.length_append, List.length_flatMap, ← h.count .receiver s hs]
  exact congrArg (· + st.recvStats s) (congrArg List.sum (List.map_congr_left fun i _ => h.count (.worker i) s hs))

/-- **No packet is lost or there twice.** In every state of the data plane the
mbufs received so far are each in exactly one place; a counter of drops is the
number of packets dropped under it, and `drops` the number of all of them; and
a packet that is finished stays so. -/
theorem packets_once (h : Reach dp numRxQueues st) :
    Once Packet.tag st.hold (· < st.next) ∧
    (∀ who, ∀ s ∈ Stat.dropStats, st.statsOf who s = (st.hold (.dropped who s)).length) ∧
    (∀ who s, ∀ p ∈ st.hold (.dropped who s), s ∈ Stat.dropStats ∧ p ∈ st.droppedPackets dp) ∧
    drops (st.statsTotal dp) = (st.droppedPackets dp).length ∧
    (∀ i, (st.hold (.tx i)).length < kBurstSize) ∧
    ∀ a st', a.Valid dp.steering.n → st.step dp numRxQueues a = .ok st' → Grows st st' := by
  have hinv := reach_inv h
  refine ⟨hinv.once, hinv.counted.count, fun who s p hp => ⟨?_, hinv.counted.mem_droppedPackets hp⟩,
    hinv.counted.drops_statsTotal, hinv.tx, fun a st' hv hs => (hinv.step hv hs).2⟩
  exact (hinv.counted.valid who s (List.ne_nil_of_mem hp)).1

/-- Two queries in a burst, of which the NIC takes one. -/
theorem packets_once_demo : ∃ st, Reach demo 1 st ∧ st.next = 2 ∧ (st.hold .sent).map (·.tag) = [0] ∧
    (st.hold (.dropped (.worker 0) .txFull)).map (·.tag) = [1] ∧ Once Packet.tag st.hold (· < st.next) ∧
    drops (st.statsTotal demo) = (st.droppedPackets demo).length := by
  obtain ⟨st, h, hnext, hsent, hdropped⟩ := exists_reach demo 1
    [.rxBurst 0 [queryFrame, queryFrame], .handle 0 noNeigh true 0, .handle 0 noNeigh true 0,
      .advance 0, .advance 0, .dequeueRedirect 0 64, .advance 0, .flush 0 1]
    (P := fun st => st.next = 2 ∧ (st.hold .sent).map (·.tag) = [0] ∧
      (st.hold (.dropped (.worker 0) .txFull)).map (·.tag) = [1]) (by decide) (by decide +kernel)
  obtain ⟨honce, -, -, htotal, -⟩ := packets_once h
  exact ⟨st, h, hnext, hsent, hdropped, honce, htotal⟩

end Traffic

end L4Lb
