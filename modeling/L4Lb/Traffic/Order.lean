/-
# The order of packets

A packet goes through arrays, rings and buffers, perhaps over a second worker,
and other packets are dropped or take other ways meanwhile. Two packets of one
flow are nevertheless sent in the order in which they were received, if they
came to the same worker; and in pipeline mode they do.

The argument: the packets that come to worker `o` and are sent by worker `k` go
through a fixed sequence of places (`stages`), each of which is first in, first
out, so that a step leaves a sublist of what was on the lane, with what is
received at its end. `Traced` adds to a state what the run has been so far: the
frames as they were received, the worker each came to, and the one that sent it.
-/
import L4Lb.Traffic.Workers
import L4Lb.World.Receiver
import L4Lb.Lib.Lanes

open Checked Custody

namespace L4Lb

/-- The worker that the receiver gives a frame to. -/
def Dataplane.targetOf (dp : Dataplane) (m : Mbuf) : ℕ :=
  match dp.dispatcher.target dp.H m with
  | .ok k => k
  | .error _ => 0

/-- A state of the data plane, with the history of its packets. -/
structure Traced where
  st : Traffic
  /-- the frame as it was received -/
  frame : ℕ → Mbuf
  /-- the worker it came to, from the NIC or from the receiver -/
  via : ℕ → ℕ
  /-- the worker that has sent it -/
  sender : ℕ → ℕ

/-- The frames that come in, and the workers they come to. -/
def Act.arrivals (dp : Dataplane) : Act → List (Mbuf × ℕ)
  | rxBurst i ms => ms.map fun m => (m, i)
  | poll ms => ms.map fun m => (m, dp.targetOf m)
  | _ => []

/-- The worker that may send packets in this step. -/
def Act.sender : Act → ℕ
  | handle i _ _ _ | flush i _ => i
  | _ => 0

namespace Traced

variable (dp : Dataplane) (numRxQueues : ℕ)

def start (st : Traffic) : Traced := ⟨st, fun _ => Mbuf.ofBytes [] 0 (by decide), fun _ => 0, fun _ => 0⟩

/-- The history after a step to `st`. -/
def next (T : Traced) (a : Act) (st : Traffic) : Traced where
  st := st
  frame := fun t => if T.st.next ≤ t ∧ t < st.next then ((a.arrivals dp)[t - T.st.next]?).elim (T.frame t) (·.1)
    else T.frame t
  via := fun t => if T.st.next ≤ t ∧ t < st.next then ((a.arrivals dp)[t - T.st.next]?).elim (T.via t) (·.2)
    else T.via t
  sender := fun t => if t ∈ ((st.hold .sent).drop (T.st.hold .sent).length).map (·.tag) then a.sender else T.sender t

def step (T : Traced) (a : Act) : Except Fault Traced := do
  return T.next dp a (← T.st.step dp numRxQueues a)

/-- The states of the data plane, with their histories. -/
inductive Reach : Traced → Prop
  | boot {st : Traffic} (h : Traffic.boot dp numRxQueues = .ok st) : Reach (start st)
  | step {T T' : Traced} (a : Act) (h : Reach T) (hv : a.Valid dp.steering.n)
      (hs : T.step dp numRxQueues a = .ok T') : Reach T'

variable {dp : Dataplane} {numRxQueues : ℕ} {T T' : Traced}

theorem Reach.traffic (h : Reach dp numRxQueues T) : Traffic.Reach dp numRxQueues T.st := by
  induction h with
  | boot h => exact .boot h
  | step a _ hv hs ih =>
    obtain ⟨st, hst, hs⟩ := bind_eq_ok.mp hs
    obtain rfl := Except.ok.inj hs
    exact .step a ih hv hst

/-- Every state of the data plane has a history. -/
theorem exists_reach {st : Traffic} (h : Traffic.Reach dp numRxQueues st) :
    ∃ T, Reach dp numRxQueues T ∧ T.st = st := by
  induction h with
  | boot h => exact ⟨_, .boot h, rfl⟩
  | @step st st' a _ hv hs ih =>
    obtain ⟨T, hT, rfl⟩ := ih
    refine ⟨T.next dp a st', .step a hT hv ?_, rfl⟩
    rw [Traced.step, hs]
    rfl

end Traced

/-! ### Lanes -/

/-- The places of the packets that come to worker `o` and are sent by worker
`k`, up to the NIC, the last place first. -/
def stages (o k : ℕ) : List Place :=
  if k = o then [.tx o, .bufs o, .rxRing o, .group o, .polled]
  else [.tx k, .bufs k, .redirectRing k, .bufs o, .rxRing o, .group o, .polled]

/-- The packets from worker `o` that worker `k` has sent, and those that are
on the way to it. -/
def road (tags : Place → List ℕ) (via sender : ℕ → ℕ) (o k : ℕ) : List ℕ :=
  (tags .sent).filter (fun t => via t = o && sender t = k) ++ lane tags (fun t => via t = o) (stages o k)

section Road

variable {tags : Place → List ℕ} {via sender : ℕ → ℕ} {o k : ℕ}

theorem mem_road {t : ℕ} (h : t ∈ road tags via sender o k) : ∃ q, t ∈ tags q := by
  rcases List.mem_append.mp h with h | h
  · exact ⟨_, (List.mem_filter.mp h).1⟩
  · obtain ⟨-, q, -, hq⟩ := mem_lane.mp h
    exact ⟨q, hq⟩

theorem sent_not_mem_stages (o k : ℕ) : Place.sent ∉ stages o k := by
  unfold stages
  split <;> simp

/-- Packets go on to a place before the NIC. -/
theorem road_pass {p q : Place} {rest l : List ℕ} (hl : tags p = l ++ rest) (hpq : p ≠ q) (hp : p ≠ .sent)
    (hq : q ≠ .sent) (h : q ∈ stages o k → ∀ t ∈ l, via t = o → Follows (stages o k) q p) :
    (road (pass tags p rest q l) via sender o k).Sublist (road tags via sender o k) := by
  refine List.Sublist.append ?_ (lane_pass hl hpq fun hm t ht hv => h hm t ht (by simpa using hv))
  rw [pass_of_ne hp.symm hq.symm]

/-- The NIC takes packets from worker `i`. -/
theorem road_send {i : ℕ} {rest l : List ℕ} (hl : tags (.tx i) = l ++ rest) (hs : ∀ t ∈ l, sender t = i) :
    (road (pass tags (.tx i) rest .sent l) via sender o k).Sublist (road tags via sender o k) := by
  have hstages : ∃ post, stages o k = .tx k :: post ∧ ∀ j, Place.tx j ∉ post := by
    unfold stages
    split
    · rename_i he
      exact ⟨_, by rw [he], by simp⟩
    · exact ⟨_, rfl, by simp⟩
  obtain ⟨post, hst, htx⟩ := hstages
  have hpost : lane (pass tags (.tx i) rest .sent l) (fun t => via t = o) post =
      lane tags (fun t => via t = o) post := by
    refine lane_congr fun r hr => ?_
    have h1 : r ≠ .tx i := fun e => htx i (e ▸ hr)
    have h2 : r ≠ .sent := fun e => sent_not_mem_stages o k (by rw [hst, ← e]; exact List.mem_cons_of_mem _ hr)
    rw [pass_of_ne h1 h2]
  unfold road
  rw [hst, lane_cons, lane_cons, hpost, pass_to, List.filter_append]
  by_cases hki : k = i
  · subst hki
    -- what was at the front of the buffer is now the last that was sent
    have hnew : l.filter (fun t => via t = o && sender t = k) = l.filter fun t => via t = o :=
      List.filter_congr fun t ht => by simp [hs t ht]
    rw [hnew, pass_from (by simp), hl, List.filter_append, List.append_assoc, List.append_assoc]
  · have hnew : l.filter (fun t => via t = o && sender t = k) = [] :=
      List.filter_eq_nil_iff.mpr fun t ht => by simp [hs t ht, Ne.symm hki]
    rw [hnew, List.append_nil, pass_of_ne (by simpa using hki) (by simp)]

/-- Packets come in, at the end of the road or beside it. -/
theorem road_enter {p : Place} {l : List ℕ} (hp : tags p = []) (hne : p ≠ .sent)
    (h : p ∈ stages o k → ∀ t ∈ l, via t = o →
      ∃ pre post, stages o k = pre ++ p :: post ∧ p ∉ pre ++ post ∧ ∀ r ∈ post, tags r = []) :
    (road (Function.update tags p l) via sender o k).Sublist (road tags via sender o k ++ l) := by
  unfold road
  rw [Function.update_of_ne hne.symm, List.append_assoc]
  exact List.Sublist.append_left (lane_enter hp fun hm t ht hv => h hm t ht (by simpa using hv)) _

end Road

/-! ### The invariant -/

/-- A packet for TCP or UDP that worker `k` sends is worker `k`'s. -/
def Settles (dp : Dataplane) (k : ℕ) (m : Mbuf) : Prop :=
  ∀ p, Admitted dp m p → p.ipProtocol = 6 ∨ p.ipProtocol = 17 → Owned dp k m

/-- What is known of a packet in a place. -/
def Fits (dp : Dataplane) (T : Traced) : Place → Packet → Prop
  | .polled, p => p.m = T.frame p.tag
  | .group k, p | .rxRing k, p => p.m = T.frame p.tag ∧ T.via p.tag = k
  | .redirectRing k, p => p.m = T.frame p.tag ∧ T.via p.tag ≠ k
  | .bufs i, p => p.m = T.frame p.tag ∧ ∀ r left, T.st.pcs i = .handle r left → (T.via p.tag = i ↔ r = false)
  | .tx k, p => Settles dp k (T.frame p.tag)
  | .sent, p => Settles dp (T.sender p.tag) (T.frame p.tag)
  | .consumed, _ | .dropped _ _, _ => True

/-- The places that only the receiver fills. -/
def Place.piped : Place → Bool
  | polled | group _ | rxRing _ => true
  | _ => false

def Traced.tags (T : Traced) (q : Place) : List ℕ := (T.st.hold q).map (·.tag)

theorem Traced.tags_split (T : Traced) (q : Place) (n : ℕ) :
    T.tags q = ((T.st.hold q).take n).map (·.tag) ++ ((T.st.hold q).drop n).map (·.tag) := by
  rw [← List.map_append, List.take_append_drop]
  rfl

structure Ordered (dp : Dataplane) (T : Traced) : Prop where
  below : ∀ q, ∀ p ∈ T.st.hold q, p.tag < T.st.next
  rtc : dp.pipeline = false → ∀ q : Place, q.piped = true → T.st.hold q = []
  dispatched : dp.pipeline = true → ∀ t < T.st.next, T.via t = dp.targetOf (T.frame t)
  fits : ∀ q, ∀ p ∈ T.st.hold q, Fits dp T q p
  sorted : ∀ o k, (road T.tags T.via T.sender o k).Pairwise (· < ·)

/-- What is known of a packet that stays where it is. -/
theorem Fits.stays {dp : Dataplane} {T T' : Traced} {q : Place} {p : Packet} (h : Fits dp T q p)
    (hf : T'.frame p.tag = T.frame p.tag) (hv : T'.via p.tag = T.via p.tag)
    (hs : q = .sent → T'.sender p.tag = T.sender p.tag)
    (hp : ∀ i r left, q = .bufs i → T'.st.pcs i = .handle r left → T.st.pcs i = .handle r left) : Fits dp T' q p := by
  cases q with
  | bufs i =>
    simp only [Fits, hf, hv] at h ⊢
    exact ⟨h.1, fun r left hpc => h.2 r left (hp i r left rfl hpc)⟩
  | sent => simpa only [Fits, hf, hs rfl] using h
  | consumed => trivial
  | dropped who s => trivial
  | _ => simpa only [Fits, hf, hv] using h

/-- The workers that are in the loop over their packets were in it before, if
they had packets. -/
def Traced.SamePhase (T T' : Traced) : Prop :=
  ∀ i r left, T.st.hold (.bufs i) ≠ [] → T'.st.pcs i = .handle r left → T.st.pcs i = .handle r left

theorem road_congr {tags : Place → List ℕ} {via via' sender sender' : ℕ → ℕ} (o k : ℕ)
    (hv : ∀ q, ∀ t ∈ tags q, via' t = via t) (hs : ∀ t ∈ tags .sent, sender' t = sender t) :
    road tags via' sender' o k = road tags via sender o k := by
  unfold road lane
  congr 1
  · exact List.filter_congr fun t ht => by rw [hv _ t ht, hs t ht]
  · exact List.flatMap_congr fun q _ => List.filter_congr fun t ht => by rw [hv q t ht]

namespace Ordered

variable {dp : Dataplane} {T T' : Traced}

theorem mem_below (h : Ordered dp T) {q : Place} {t : ℕ} (ht : t ∈ T.tags q) : t < T.st.next := by
  obtain ⟨p, hp, rfl⟩ := List.mem_map.mp ht
  exact h.below q p hp

/-- Nothing moves. -/
theorem still (h : Ordered dp T) (hh : T'.st.hold = T.st.hold) (hn : T'.st.next = T.st.next)
    (hf : T'.frame = T.frame) (hv : T'.via = T.via) (hs : T'.sender = T.sender) (hp : T.SamePhase T') :
    Ordered dp T' := by
  have htags : T'.tags = T.tags := funext fun q => by rw [Traced.tags, hh]; rfl
  refine ⟨fun q p hq => ?_, fun hr q hq => ?_, fun hr t ht => ?_, fun q p hq => ?_, fun o k => ?_⟩
  · rw [hn]
    exact h.below q p (hh ▸ hq)
  · rw [hh]
    exact h.rtc hr q hq
  · rw [hv, hf]
    exact h.dispatched hr t (hn ▸ ht)
  · rw [hh] at hq
    refine (h.fits q p hq).stays (by rw [hf]) (by rw [hv]) (fun _ => by rw [hs]) fun i r left hqi hpc => ?_
    exact hp i r left (List.ne_nil_of_mem (hqi ▸ hq)) hpc
  · rw [htags, hv, hs]
    exact h.sorted o k

/-- **Packets are passed on**, from the front of `a` to the end of `b`. -/
theorem pass (h : Ordered dp T) {a b : Place} {rest l : List Packet}
    (hh : T'.st.hold = Custody.pass T.st.hold a rest b l) (hl : T.tags a = l.map (·.tag) ++ rest.map (·.tag))
    (hrest : rest ⊆ T.st.hold a) (hpiped : b.piped = true → a.piped = true) (hn : T'.st.next = T.st.next)
    (hf : T'.frame = T.frame) (hv : T'.via = T.via) (hs : ∀ p ∈ T.st.hold .sent, T'.sender p.tag = T.sender p.tag)
    (hp : T.SamePhase T') (hnew : ∀ p ∈ l, Fits dp T' b p)
    (hroad : ∀ o k, (road (Custody.pass T.tags a (rest.map (·.tag)) b (l.map (·.tag))) T.via T'.sender o k).Sublist
      (road T.tags T.via T'.sender o k)) : Ordered dp T' := by
  have hl' : ∀ p ∈ l, p.tag ∈ T.tags a := fun p hpl => by
    rw [hl]
    exact List.mem_append_left _ (List.mem_map_of_mem hpl)
  have htags : T'.tags = Custody.pass T.tags a (rest.map (·.tag)) b (l.map (·.tag)) := by
    funext q
    rw [Traced.tags, hh]
    exact map_pass _ _ _ _ _ _ _
  refine ⟨fun q p hq => ?_, fun hr q hq => ?_, fun hr t ht => ?_, fun q p hq => ?_, fun o k => ?_⟩
  · rw [hn]
    rcases mem_of_pass hrest (hh ▸ hq) with hq | ⟨-, hq⟩
    · exact h.below q p hq
    · exact h.mem_below (hl' p hq)
  · refine List.eq_nil_iff_forall_not_mem.mpr fun p hpq => ?_
    rcases mem_of_pass hrest (hh ▸ hpq) with hpq | ⟨rfl, hpl⟩
    · simp [h.rtc hr q hq] at hpq
    · have := hl' p hpl
      simp [Traced.tags, h.rtc hr a (hpiped hq)] at this
  · rw [hv, hf]
    exact h.dispatched hr t (hn ▸ ht)
  · rcases mem_of_pass hrest (hh ▸ hq) with hq | ⟨rfl, hq⟩
    · refine (h.fits q p hq).stays (by rw [hf]) (by rw [hv]) (fun he => hs p (he ▸ hq)) fun i r left hqi hpc => ?_
      exact hp i r left (List.ne_nil_of_mem (hqi ▸ hq)) hpc
    · exact hnew p hq
  · rw [htags, hv]
    refine List.Pairwise.sublist (hroad o k) ?_
    rw [road_congr o k (fun _ _ _ => rfl) fun t ht => ?_]
    · exact h.sorted o k
    · obtain ⟨p, hps, rfl⟩ := List.mem_map.mp ht
      exact hs p hps

/-- **Packets come in** to an empty place. -/
theorem arrive (h : Ordered dp T) {q : Place} {ms : List Mbuf} (hq : q = .polled ∨ ∃ i, q = .bufs i)
    (hempty : T.st.hold q = []) (hmode : q.piped = dp.pipeline)
    (hh : T'.st.hold = Function.update T.st.hold q (newPackets T.st.next ms))
    (hn : T'.st.next = T.st.next + ms.length) (hold : ∀ t < T.st.next, T'.frame t = T.frame t ∧ T'.via t = T.via t)
    (hs : T'.sender = T.sender) (hp : T.SamePhase T') (hnew : ∀ p ∈ newPackets T.st.next ms, Fits dp T' q p)
    (hvia : ∀ i, q = .bufs i → ∀ p ∈ newPackets T.st.next ms, T'.via p.tag = i)
    (hdisp : dp.pipeline = true → ∀ p ∈ newPackets T.st.next ms, T'.via p.tag = dp.targetOf (T'.frame p.tag)) :
    Ordered dp T' := by
  have hne : q ≠ .sent := by
    rcases hq with rfl | ⟨i, rfl⟩ <;> simp
  have hrange : (newPackets T.st.next ms).map (·.tag) = List.range' T.st.next ms.length := Traffic.newPackets_tags _ _
  have htag : ∀ t, T.st.next ≤ t → t < T.st.next + ms.length → ∃ p ∈ newPackets T.st.next ms, p.tag = t := by
    intro t h1 h2
    have : t ∈ (newPackets T.st.next ms).map (·.tag) := by
      rw [hrange, List.mem_range'_1]
      exact ⟨h1, h2⟩
    exact List.mem_map.mp this
  have hlt : ∀ p ∈ newPackets T.st.next ms, T.st.next ≤ p.tag ∧ p.tag < T.st.next + ms.length := by
    intro p hpn
    rw [← List.mem_range'_1, ← hrange]
    exact List.mem_map_of_mem hpn
  have hmem : ∀ r p, p ∈ T'.st.hold r → p ∈ T.st.hold r ∨ (r = q ∧ p ∈ newPackets T.st.next ms) := by
    intro r p hr
    rw [hh] at hr
    by_cases hrq : r = q
    · subst hrq
      rw [Function.update_self] at hr
      exact Or.inr ⟨rfl, hr⟩
    · rw [Function.update_of_ne hrq] at hr
      exact Or.inl hr
  have htags : T'.tags = Function.update T.tags q (List.range' T.st.next ms.length) := by
    funext r
    rw [Traced.tags, hh]
    by_cases hrq : r = q
    · subst hrq
      rw [Function.update_self, Function.update_self, hrange]
    · rw [Function.update_of_ne hrq, Function.update_of_ne hrq]
      rfl
  refine ⟨fun r p hr => ?_, fun hr r hpr => ?_, fun hr t ht => ?_, fun r p hr => ?_, fun o k => ?_⟩
  · rw [hn]
    rcases hmem r p hr with hr | ⟨-, hr⟩
    · exact Nat.lt_add_right _ (h.below r p hr)
    · exact (hlt p hr).2
  · have hrq : r ≠ q := by
      rintro rfl
      rw [hmode, hr] at hpr
      simp at hpr
    rw [hh, Function.update_of_ne hrq]
    exact h.rtc hr r hpr
  · by_cases ho : t < T.st.next
    · rw [(hold t ho).1, (hold t ho).2]
      exact h.dispatched hr t ho
    · obtain ⟨p, hpn, rfl⟩ := htag t (not_lt.mp ho) (hn ▸ ht)
      exact hdisp hr p hpn
  · rcases hmem r p hr with hr | ⟨rfl, hr⟩
    · have hb := hold _ (h.below r p hr)
      refine (h.fits r p hr).stays hb.1 hb.2 (fun _ => by rw [hs]) fun i r' left hri hpc => ?_
      exact hp i r' left (List.ne_nil_of_mem (hri ▸ hr)) hpc
    · exact hnew p hr
  · rw [htags, hs]
    have hempty' : T.tags q = [] := by rw [Traced.tags, hempty]; rfl
    refine List.Pairwise.sublist (road_enter hempty' hne fun hqs t ht hv => ?_) ?_
    · rw [← hrange] at ht
      obtain ⟨p, hpn, rfl⟩ := List.mem_map.mp ht
      rcases hq with rfl | ⟨i, rfl⟩
      · unfold stages
        split
        · exact ⟨[.tx o, .bufs o, .rxRing o, .group o], [], rfl, by simp, by simp⟩
        · exact ⟨[.tx k, .bufs k, .redirectRing k, .bufs o, .rxRing o, .group o], [], rfl, by simp, by simp⟩
      · obtain rfl : i = o := (hvia i rfl p hpn).symm.trans hv
        have hpost : ∀ r ∈ [Place.rxRing i, .group i, .polled], T.tags r = [] := by
          intro r hr
          have hpr : r.piped = true := by
            simp only [List.mem_cons, List.not_mem_nil, or_false] at hr
            rcases hr with rfl | rfl | rfl <;> rfl
          rw [Traced.tags, h.rtc hmode.symm r hpr]
          rfl
        unfold stages
        split
        · exact ⟨[.tx i], _, rfl, by simp, hpost⟩
        · rename_i hki
          exact ⟨[.tx k, .bufs k, .redirectRing k], _, rfl, by simp [Ne.symm hki], hpost⟩
    · rw [road_congr o k (fun r t ht => (hold t (h.mem_below ht)).2) fun _ _ => rfl]
      refine List.pairwise_append.mpr ⟨h.sorted o k, List.pairwise_lt_range', fun a ha b hb => ?_⟩
      obtain ⟨r, hr⟩ := mem_road ha
      exact Nat.lt_of_lt_of_le (h.mem_below hr) (List.mem_range'_1.mp hb).1

/-- A place that is on no lane. -/
theorem finished_not_mem_stages {q : Place} (hq : q.finished = true) (o k : ℕ) : q ∉ stages o k := by
  unfold stages
  split <;> cases q <;> simp_all [Place.finished]

/-- Packets from the front of `a` are passed on to `b`, and the others are freed. -/
theorem share (h : Ordered dp T) {a b : Place} {who : Party} {x : Stat} {nb : ℕ}
    (hh : T'.st.hold = Custody.share T.st.hold a nb b (.dropped who x)) (ha : a.finished = false) (hab : a ≠ b)
    (hpiped : b.piped = true → a.piped = true) (hn : T'.st.next = T.st.next) (hf : T'.frame = T.frame)
    (hv : T'.via = T.via) (hs : ∀ p ∈ T.st.hold .sent, T'.sender p.tag = T.sender p.tag) (hp : T.SamePhase T')
    (hnew : ∀ p ∈ (T.st.hold a).take nb, Fits dp T' b p)
    (hroad : ∀ o k, (road (Custody.pass T.tags a (((T.st.hold a).drop nb).map (·.tag)) b
      (((T.st.hold a).take nb).map (·.tag))) T.via T'.sender o k).Sublist (road T.tags T.via T'.sender o k)) :
    Ordered dp T' := by
  have hne : ∀ q : Place, q.finished = true → a ≠ q := by
    rintro q hq rfl
    simp [ha] at hq
  -- first what is passed on, then what is freed
  let T1 : Traced := { T' with st := T'.st.setHold (Custody.pass T.st.hold a ((T.st.hold a).drop nb) b
    ((T.st.hold a).take nb)) }
  have h1 : Ordered dp T1 :=
    h.pass rfl (T.tags_split a nb) (List.drop_subset _ _) hpiped hn hf hv hs hp hnew hroad
  have hl1 : T1.tags a = ((T.st.hold a).drop nb).map (·.tag) ++ [] := by
    have hrest : T1.st.hold a = (T.st.hold a).drop nb := pass_from hab _ ((T.st.hold a).take nb)
    rw [Traced.tags, hrest, List.append_nil]
  refine h1.pass hh hl1 (List.nil_subset _) (by simp [Place.piped]) rfl rfl rfl (fun _ _ => rfl)
    (fun _ _ _ _ hpc => hpc) (fun _ _ => trivial) fun o k => ?_
  exact road_pass hl1 (hne _ rfl) (hne _ rfl) (by simp) fun hm => absurd hm (finished_not_mem_stages rfl o k)

/-- `tx_flush`. -/
theorem flush (h : Ordered dp T) {all : ℕ → Prop} (honce : Once Packet.tag T.st.hold all) {i sent : ℕ}
    (hh : T'.st.hold = (T.st.txFlush i sent).hold) (hn : T'.st.next = T.st.next) (hf : T'.frame = T.frame)
    (hv : T'.via = T.via) (hs : ∀ t, T'.sender t =
      if t ∈ ((T'.st.hold .sent).drop (T.st.hold .sent).length).map (·.tag) then i else T.sender t)
    (hp : T.SamePhase T') : Ordered dp T' := by
  unfold Traffic.txFlush at hh
  simp only at hh
  split at hh
  · refine h.still hh hn hf hv (funext fun t => ?_) hp
    rw [hs, hh]
    simp
  generalize min sent (T.st.hold (.tx i)).length = nb at hh
  change T'.st.hold = Custody.share T.st.hold (.tx i) nb .sent (.dropped (.worker i) .txFull) at hh
  have hsent : ∀ t, T'.sender t = if t ∈ ((T.st.hold (.tx i)).take nb).map (·.tag) then i else T.sender t := by
    intro t
    rw [hs, hh, share_apply (by simp) (by simp) (by simp)]
    simp
  refine h.share hh rfl (by simp) (by simp [Place.piped]) hn hf hv (fun p hps => ?_) hp (fun p hpl => ?_) fun o k =>
    road_send (T.tags_split _ nb) fun t ht => ?_
  · rw [hsent, if_neg]
    intro hm
    have := honce.unique .sent (.tx i) p.tag (List.mem_map_of_mem hps) ((List.map_subset _ (List.take_subset _ _)) hm)
    simp at this
  · show Settles dp (T'.sender p.tag) (T'.frame p.tag)
    rw [hsent, if_pos (List.mem_map_of_mem hpl), hf]
    exact h.fits (.tx i) p (List.mem_of_mem_take hpl)
  · rw [hsent, if_pos ht]

end Ordered

/-! ### The steps -/

section Steps

variable {dp : Dataplane} {numRxQueues : ℕ} {T : Traced} {st : Traffic} {a : Act}

theorem Traced.next_frame (hn : st.next = T.st.next) : (T.next dp a st).frame = T.frame := by
  funext t
  exact if_neg (by omega)

theorem Traced.next_via (hn : st.next = T.st.next) : (T.next dp a st).via = T.via := by
  funext t
  exact if_neg (by omega)

theorem Traced.next_sender (hs : st.hold .sent = T.st.hold .sent) : (T.next dp a st).sender = T.sender := by
  funext t
  simp [Traced.next, hs]

/-- A TCP or UDP packet that nobody serves is not sent. -/
theorem rest_not_sent {view : NeighView} {snap : Snapshot} {w : WorkerCtx} {m : Mbuf} {p : PacketMeta}
    {redirected : Bool} {o : Outcome} (hp : Admitted dp m p) (hproto : p.ipProtocol = 6 ∨ p.ipProtocol = 17)
    (hpath : pathOf dp snap m = .ok .rest) (ho : processPacket dp view w snap m redirected = .ok o) :
    o.2.2 ≠ .send := by
  obtain ⟨hlen, hip, -⟩ := hp.holds
  have h1 : p.ipProtocol ≠ 1 := by rcases hproto with h | h <;> simp [h]
  have h2 : ¬ (p.ipProtocol ≠ 6 ∧ p.ipProtocol ≠ 17) := by tauto
  rw [hp.pathOf_eq, if_neg h1, if_neg h2] at hpath
  unfold processPacket at ho
  rw [if_neg (by omega), Mbuf.etherType_eq hlen, ok_bind, hip, if_neg (by decide), if_neg (by decide), hp.parsed,
    ok_bind] at ho
  change processIpv4 dp view w snap m p redirected = .ok o at ho
  rw [processIpv4, if_neg (by simp [hp.cksum]), if_neg hp.foreign, if_neg h1, if_neg h2] at ho
  unfold processL4 at ho
  unfold pathL4 at hpath
  obtain ⟨b, hb, hpath⟩ := bind_eq_ok.mp hpath
  rw [hb, ok_bind] at ho
  cases b with
  | true => simp at hpath
  | false =>
    simp only [Bool.false_eq_true, ↓reduceIte] at hpath ho
    split at ho
    · unfold handleHcResponse at ho
      split at ho
      · obtain rfl := Except.ok.inj ho
        simp
      · obtain ⟨seq, -, ho⟩ := bind_eq_ok.mp ho
        obtain ⟨ack, -, ho⟩ := bind_eq_ok.mp ho
        obtain rfl := Except.ok.inj ho
        simp
    · rename_i hhc
      rw [if_neg hhc] at hpath
      obtain ⟨found, hfound, hpath⟩ := bind_eq_ok.mp hpath
      rw [hfound, ok_bind] at ho
      cases found with
      | some svc => simp at hpath
      | none =>
        obtain ⟨r, hr, ho⟩ := bind_eq_ok.mp ho
        obtain rfl := Except.ok.inj ho
        obtain ⟨l, -, hr⟩ := bind_eq_ok.mp hr
        obtain rfl := Except.ok.inj hr
        simp

/-- A packet for TCP or UDP is sent by its owner. -/
theorem settles_of_send {view : NeighView} {m : Mbuf} {i : ℕ} {redirected : Bool} {o : Outcome}
    (hw : World.Inv dp st.world) (hi : i < dp.steering.n)
    (ho : processPacket dp view (st.workers i) (st.snaps i) m redirected = .ok o) (hsend : o.2.2 = .send) :
    Settles dp i m := by
  intro p hadm hproto snap hb
  have hbi : (st.snaps i).Built dp.H dp.cfg := hw.snaps i
  obtain ⟨path, hpath, -⟩ := hbi.pathOf_returns m
  obtain ⟨hown, -⟩ := (processPacket_processed ho hpath).sent hsend
  have hidx : (st.workers i).idx = i := (hw.workers i hi).idx
  obtain ⟨path', hpath', he⟩ := pathOf_owner_eq hbi hb hpath
  refine ⟨path', hpath', ?_⟩
  rw [he]
  cases hk : path.owner dp with
  | some k => rw [hown k hk, hidx]
  | none =>
    cases path with
    | rest => exact absurd hsend (rest_not_sent hadm hproto hpath ho)
    | inbound p svc => simp [Path.owner] at hk
    | fromServer p => simp [Path.owner] at hk
    | errorToClient p info => simp [Path.owner] at hk
    | errorToServer p info => simp [Path.owner] at hk

/-- A frame is passed on to another worker. -/
theorem redirect_ne {view : NeighView} {snap : Snapshot} {w : WorkerCtx} {m : Mbuf} {redirected : Bool} {o : Outcome}
    {k : ℕ} (hb : snap.Built dp.H dp.cfg) (ho : processPacket dp view w snap m redirected = .ok o)
    (hk : Owned dp k m) (hr : o.2.2 = .redirect k) : k ≠ w.idx := by
  intro he
  obtain ⟨path, hp, hown⟩ := hk snap hb
  rcases ((servedBy hp hown).2 view redirected).2 he o ho with h | h
  · rw [hr] at h
    simp at h
  · exact h.ne_redirect k hr

theorem pass_bufs_sent {hold : Place → List Packet} {i : ℕ} {rest l : List Packet} {q : Place} (hq : q ≠ .sent) :
    Custody.pass hold (.bufs i) rest q l .sent = hold .sent := pass_of_ne (by simp) hq.symm rest l

/-- A worker hands the packet at the front of its array on to `q`. -/
theorem Ordered.hand (h : Ordered dp T) {i : ℕ} {p : Packet} {rest : List Packet} {w : WorkerCtx} {m : Mbuf} {q : Place}
    (hb : T.st.hold (.bufs i) = p :: rest) (hq : q.piped = false) (hne : q ≠ .sent) (hbq : Place.bufs i ≠ q)
    (hfit : Fits dp T q ⟨p.tag, m⟩)
    (hfol : ∀ o k, q ∈ stages o k → T.via p.tag = o → Follows (stages o k) q (.bufs i)) :
    Ordered dp
      { T with st := (T.st.setWorker i w).setHold (Custody.pass T.st.hold (.bufs i) rest q [⟨p.tag, m⟩]) } := by
  have hl : T.tags (.bufs i) = [p.tag] ++ rest.map (·.tag) := by rw [Traced.tags, hb]; rfl
  refine h.pass rfl hl ?_ (by simp [hq]) rfl rfl rfl (fun _ _ => rfl) (fun _ _ _ _ hpc => hpc) (fun p' hp' => ?_) ?_
  · rw [hb]
    exact List.subset_cons_self _ _
  · obtain rfl := List.mem_singleton.mp hp'
    exact hfit.stays rfl rfl (fun _ => rfl) fun _ _ _ _ hpc => hpc
  · intro o k
    refine road_pass hl hbq (by simp) hne fun hm t ht hv => hfol o k hm ?_
    obtain rfl := List.mem_singleton.mp ht
    exact hv

/-- Nothing is sent: the history stays as it is. -/
theorem Ordered.of_hold (h : Ordered dp { T with st := st }) (hn : st.next = T.st.next)
    (hs : st.hold .sent = T.st.hold .sent) : Ordered dp (T.next dp a st) :=
  h.still rfl rfl (Traced.next_frame hn) (Traced.next_via hn) (Traced.next_sender hs) fun _ _ _ _ hpc => hpc

/-- The packet goes on, or is freed, without being sent. -/
theorem Ordered.handOn (h : Ordered dp T) {i : ℕ} {p : Packet} {rest : List Packet} {w : WorkerCtx} {m : Mbuf}
    {q : Place} (hb : T.st.hold (.bufs i) = p :: rest) (hq : q.piped = false) (hne : q ≠ .sent) (hbq : Place.bufs i ≠ q)
    (hfit : Fits dp T q ⟨p.tag, m⟩)
    (hfol : ∀ o k, q ∈ stages o k → T.via p.tag = o → Follows (stages o k) q (.bufs i)) :
    Ordered dp (T.next dp a
      ((T.st.setWorker i w).setHold (Custody.pass T.st.hold (.bufs i) rest q [⟨p.tag, m⟩]))) := by
  have hsent : Custody.pass T.st.hold (.bufs i) rest q [⟨p.tag, m⟩] .sent = T.st.hold .sent := pass_bufs_sent hne
  exact (h.hand hb hq hne hbq hfit hfol).of_hold rfl hsent

theorem follows_tx {i o k : ℕ} (h : Place.tx i ∈ stages o k) : Follows (stages o k) (.tx i) (.bufs i) := by
  unfold stages at h ⊢
  split
  · rename_i he
    obtain rfl : i = o := by simpa [he] using h
    exact ⟨[], _, rfl, by simp, by simp⟩
  · rename_i hne
    obtain rfl : i = k := by simpa [hne] using h
    exact ⟨[], _, rfl, by simpa using hne, by simp⟩

theorem follows_redirectRing {i o k k' : ℕ} (h : Place.redirectRing k' ∈ stages o k) (ho : i = o) (hk : k' ≠ i) :
    Follows (stages o k) (.redirectRing k') (.bufs i) := by
  subst ho
  unfold stages at h ⊢
  split
  · rename_i he
    simp [he] at h
  · rename_i hne
    obtain rfl : k' = k := by simpa [hne] using h
    exact ⟨[.tx k', .bufs k'], _, rfl, by simpa using Ne.symm hk, by simp⟩

theorem follows_bufs_rxRing {i o k : ℕ} (ho : i = o) : Follows (stages o k) (.bufs i) (.rxRing i) := by
  subst ho
  unfold stages
  split
  · exact ⟨[.tx i], _, rfl, by simp, by simp⟩
  · rename_i hne
    exact ⟨[.tx k, .bufs k, .redirectRing k], _, rfl, by simp, by simpa using Ne.symm hne⟩

theorem follows_bufs_redirectRing {i o k : ℕ} (h : Place.bufs i ∈ stages o k) (ho : o ≠ i) :
    Follows (stages o k) (.bufs i) (.redirectRing i) := by
  unfold stages at h ⊢
  split
  · rename_i he
    obtain rfl : i = o := by simpa [he] using h
    exact absurd rfl ho
  · rename_i hne
    obtain rfl : i = k := by simpa [hne, Ne.symm ho] using h
    exact ⟨[.tx i], _, rfl, by simp, by simpa using Ne.symm ho⟩

theorem follows_group {k' o k : ℕ} (h : Place.group k' ∈ stages o k) : Follows (stages o k) (.group k') .polled := by
  unfold stages at h ⊢
  split
  · rename_i he
    obtain rfl : k' = o := by simpa [he] using h
    exact ⟨[.tx k', .bufs k', .rxRing k'], [], rfl, by simp, by simp⟩
  · rename_i hne
    obtain rfl : k' = o := by simpa [hne] using h
    exact ⟨[.tx k, .bufs k, .redirectRing k, .bufs k', .rxRing k'], [], rfl, by simp, by simp⟩

theorem follows_rxRing {k' o k : ℕ} (h : Place.rxRing k' ∈ stages o k) :
    Follows (stages o k) (.rxRing k') (.group k') := by
  unfold stages at h ⊢
  split
  · rename_i he
    obtain rfl : k' = o := by simpa [he] using h
    exact ⟨[.tx k', .bufs k'], _, rfl, by simp, by simp⟩
  · rename_i hne
    obtain rfl : k' = o := by simpa [hne] using h
    exact ⟨[.tx k, .bufs k, .redirectRing k, .bufs k'], _, rfl, by simp, by simp⟩

/-- **The end of `handle`.** -/
theorem Ordered.finish (h : Ordered dp T) (hinv : Traffic.Inv dp T.st) (hw : World.Inv dp T.st.world) {i : ℕ}
    (hi : i < dp.steering.n) {view : NeighView} {took redirected : Bool} {sent left : ℕ} {p : Packet}
    {rest : List Packet} {o : Outcome} (hpc : T.st.pcs i = .handle redirected left)
    (hb : T.st.hold (.bufs i) = p :: rest)
    (ho : processPacket dp view (T.st.workers i) (T.st.snaps i) p.m redirected = .ok o)
    (hs : T.st.finish dp i p rest took sent o = .ok st) : Ordered dp (T.next dp (.handle i view took sent) st) := by
  obtain ⟨hframe, hvia⟩ : p.m = T.frame p.tag ∧ (T.via p.tag = i ↔ redirected = false) := by
    have hfit := h.fits (.bufs i) p (by rw [hb]; exact List.mem_cons_self)
    exact ⟨hfit.1, hfit.2 redirected left hpc⟩
  have hred := (Traffic.world_handled hw hi ho).2
  -- the packet is freed
  have hfree : ∀ (w : WorkerCtx) (m : Mbuf) (q : Place), q.finished = true → q ≠ .sent → (∀ p, Fits dp T q p) →
      Ordered dp (T.next dp (.handle i view took sent)
        ((T.st.setWorker i w).setHold (Custody.pass T.st.hold (.bufs i) rest q [⟨p.tag, m⟩]))) := by
    intro w m q hq hne hfit
    have hpiped : q.piped = false := by cases q <;> simp_all [Place.finished, Place.piped]
    have hbq : Place.bufs i ≠ q := by
      rintro rfl
      simp [Place.finished] at hq
    exact h.handOn hb hpiped hne hbq (hfit _) fun o k hm => absurd hm (finished_not_mem_stages hq o k)
  obtain ⟨w, m, r⟩ := o
  cases r with
  | send =>
    have hset : Settles dp i (T.frame p.tag) := hframe ▸ settles_of_send hw hi ho rfl
    have h1 : Ordered dp { T with
        st := (T.st.setWorker i w).setHold (Custody.pass T.st.hold (.bufs i) rest (.tx i) [⟨p.tag, m⟩]) } :=
      h.hand hb rfl (by simp) (by simp) hset fun o k hm _ => follows_tx hm
    have honce : Once Packet.tag (Custody.pass T.st.hold (.bufs i) rest (.tx i) [⟨p.tag, m⟩]) (· < T.st.next) :=
      hinv.once.pass (by simp) (by rw [hb]; simp)
    have hsent : Custody.pass T.st.hold (.bufs i) rest (.tx i) [⟨p.tag, m⟩] .sent = T.st.hold .sent :=
      pass_bufs_sent (by simp)
    generalize hst : (T.st.setWorker i w).setHold
      (Custody.pass T.st.hold (.bufs i) rest (.tx i) [⟨p.tag, m⟩]) = st1 at h1
    have hhold : st1.hold = Custody.pass T.st.hold (.bufs i) rest (.tx i) [⟨p.tag, m⟩] := by rw [← hst]; rfl
    have hnext : st1.next = T.st.next := by rw [← hst]; rfl
    have hone : (T.st.setWorker i w).txBufferAdd i ⟨p.tag, m⟩ rest sent =
        .ok (if (T.st.hold (.tx i)).length + 1 ≥ kBurstSize then st1.txFlush i sent else st1) := by
      rw [← hst]
      exact if_neg (Nat.not_le.mpr (hinv.tx i))
    obtain rfl := Except.ok.inj (hone.symm.trans hs)
    split
    · have hn : (st1.txFlush i sent).next = st1.next := by
        unfold Traffic.txFlush
        simp only
        split <;> rfl
      refine h1.flush (hhold ▸ honce) rfl hn (Traced.next_frame (hn.trans hnext)) (Traced.next_via (hn.trans hnext))
        (fun t => ?_) fun j r' left' _ hpc' => ?_
      · show _ = if t ∈ (((st1.txFlush i sent).hold .sent).drop (st1.hold .sent).length).map _ then i else _
        rw [hhold, hsent]
        rfl
      · have hpcs : (st1.txFlush i sent).pcs = st1.pcs := by
          unfold Traffic.txFlush
          simp only
          split <;> rfl
        exact hpcs ▸ hpc'
    · exact h1.of_hold hnext (hhold ▸ hsent)
  | redirect k =>
    simp only [Traffic.finish] at hs
    split at hs
    · obtain rfl := Except.ok.inj hs
      obtain ⟨hm, hr, hown⟩ := hred k rfl
      have hki : k ≠ i := (hw.workers i hi).idx ▸ redirect_ne (hw.snaps i) ho hown rfl
      have hvi : T.via p.tag = i := hvia.mpr hr
      have hfit : Fits dp T (.redirectRing k) ⟨p.tag, m⟩ := by
        refine ⟨?_, by rw [hvi]; exact Ne.symm hki⟩
        rw [← hframe]
        exact hm
      refine h.handOn hb rfl (by simp) (by simp) hfit fun o' k' hmem hv => ?_
      exact follows_redirectRing hmem (hvi.symm.trans hv) hki
    · obtain rfl := Except.ok.inj hs
      exact hfree _ m _ rfl (by simp) fun _ => trivial
  | drop reason =>
    obtain rfl := Except.ok.inj hs
    exact hfree _ m _ rfl (by simp) fun _ => trivial
  | consumed =>
    obtain rfl := Except.ok.inj hs
    exact hfree _ m _ rfl (by simp) fun _ => trivial

theorem mem_newPackets {next : ℕ} {ms : List Mbuf} {p : Packet} (h : p ∈ newPackets next ms) :
    ∃ j, p.tag = next + j ∧ ms[j]? = some p.m := by
  unfold newPackets at h
  obtain ⟨j, hj, rfl⟩ := List.mem_mapIdx.mp h
  exact ⟨j, rfl, List.getElem?_eq_getElem hj⟩

/-- The history of a packet that comes in. -/
theorem Traced.next_arrived {ms : List Mbuf} {via : Mbuf → ℕ} (ha : a.arrivals dp = ms.map fun m => (m, via m))
    (hn : st.next = T.st.next + ms.length) {p : Packet} (hp : p ∈ newPackets T.st.next ms) :
    (T.next dp a st).frame p.tag = p.m ∧ (T.next dp a st).via p.tag = via p.m := by
  obtain ⟨j, ht, hj⟩ := mem_newPackets hp
  have hlt : j < ms.length := (List.getElem?_eq_some_iff.mp hj).1
  have harr : (a.arrivals dp)[p.tag - T.st.next]? = some (p.m, via p.m) := by
    rw [ha, ht, Nat.add_sub_cancel_left, List.getElem?_map, hj]
    rfl
  have hin : T.st.next ≤ p.tag ∧ p.tag < st.next := by omega
  constructor
  · show (if T.st.next ≤ p.tag ∧ p.tag < st.next then _ else _) = _
    rw [if_pos hin, harr]
    rfl
  · show (if T.st.next ≤ p.tag ∧ p.tag < st.next then _ else _) = _
    rw [if_pos hin, harr]
    rfl

theorem Traced.next_old {t : ℕ} (ht : t < T.st.next) :
    (T.next dp a st).frame t = T.frame t ∧ (T.next dp a st).via t = T.via t :=
  ⟨if_neg (by omega), if_neg (by omega)⟩

/-- A worker fills its empty array from one of its rings. -/
theorem Ordered.fetch (h : Ordered dp T) {i n left : ℕ} {w : WorkerCtx} {redirected : Bool} {ring : Place}
    (hring : ring = if redirected then .redirectRing i else .rxRing i) (hempty : T.st.hold (.bufs i) = []) :
    Ordered dp (T.next dp a (((T.st.refill i ring n).setWorker i w).setPc i (.handle redirected left))) := by
  have hne : ring ≠ .bufs i := by
    rw [hring]
    cases redirected <;> simp
  have hns : ring ≠ .sent := by
    rw [hring]
    cases redirected <;> simp
  have hold : (T.st.refill i ring n).hold = Custody.pass T.st.hold ring ((T.st.hold ring).drop (min n kBurstSize))
      (.bufs i) ((T.st.hold ring).take (min n kBurstSize)) := by
    simp [Traffic.refill, Custody.pass, hempty]
  have hsent : (T.st.refill i ring n).hold .sent = T.st.hold .sent := by
    rw [hold, pass_of_ne hns.symm (by simp)]
  -- what a ring of worker `i` holds
  have hfit : ∀ p ∈ T.st.hold ring, p.m = T.frame p.tag ∧ (T.via p.tag = i ↔ redirected = false) := by
    intro p hp
    have := h.fits ring p hp
    rw [hring] at this
    cases redirected with
    | false => exact ⟨this.1, by simpa using this.2⟩
    | true => exact ⟨this.1, by simpa using this.2⟩
  have hl := T.tags_split ring (min n kBurstSize)
  refine Ordered.of_hold ?_ rfl hsent
  refine h.pass hold hl (List.drop_subset _ _) (by simp [Place.piped]) rfl rfl rfl (fun _ _ => rfl)
    (fun j r left' hj hpc => ?_) (fun p hp => ?_) fun o k => ?_
  · have hji : j ≠ i := by
      rintro rfl
      exact hj hempty
    simpa [Traffic.setPc, hji, Traffic.setWorker, Traffic.refill, Traffic.setHold] using hpc
  · obtain ⟨hm, hv⟩ := hfit p (List.mem_of_mem_take hp)
    refine ⟨hm, fun r left' hpc => ?_⟩
    obtain ⟨rfl, -⟩ : redirected = r ∧ left = left' := by simpa [Traffic.setPc] using hpc
    exact hv
  · refine road_pass hl hne hns (by simp) fun hm t ht ho => ?_
    obtain ⟨p, hp, rfl⟩ := List.mem_map.mp ht
    obtain ⟨-, hv⟩ := hfit p (List.mem_of_mem_take hp)
    cases redirected with
    | false =>
      rw [hring]
      exact follows_bufs_rxRing ((hv.mpr rfl).symm.trans ho)
    | true =>
      rw [hring]
      exact follows_bufs_redirectRing hm fun he => by simpa using hv.mp (ho.trans he)

/-- A burst of the NIC. -/
theorem Ordered.burst (h : Ordered dp T) {q : Place} {ms : List Mbuf} {via : Mbuf → ℕ}
    (ha : a.arrivals dp = ms.map fun m => (m, via m)) (hq : q = .polled ∨ ∃ i, q = .bufs i)
    (hempty : T.st.hold q = []) (hmode : q.piped = dp.pipeline)
    (hh : st.hold = Function.update T.st.hold q (newPackets T.st.next ms)) (hn : st.next = T.st.next + ms.length)
    (hp : ∀ i, T.st.hold (.bufs i) ≠ [] → st.pcs i = T.st.pcs i) (hvia : ∀ i, q = .bufs i → ∀ m, via m = i)
    (hpc : ∀ i r left, q = .bufs i → st.pcs i = .handle r left → r = false)
    (hdisp : dp.pipeline = true → via = dp.targetOf) : Ordered dp (T.next dp a st) := by
  have hsent : st.hold .sent = T.st.hold .sent := by
    rw [hh, Function.update_of_ne]
    rcases hq with rfl | ⟨i, rfl⟩ <;> simp
  have hnew := fun p hp => Traced.next_arrived (p := p) ha hn hp
  refine h.arrive hq hempty hmode hh hn (fun t ht => Traced.next_old ht) (Traced.next_sender hsent)
    (fun i r left hb hpc' => (hp i hb).symm.trans hpc') (fun p hpn => ?_) (fun i hqi p hpn => ?_) fun hpipe p hpn => ?_
  · obtain ⟨hf, hv⟩ := hnew p hpn
    rcases hq with rfl | ⟨i, rfl⟩
    · exact hf.symm
    · refine ⟨hf.symm, fun r left hr => ?_⟩
      rw [hv, hvia i rfl, hpc i r left rfl hr]
      simp
  · rw [(hnew p hpn).2, hvia i hqi]
  · rw [(hnew p hpn).1, (hnew p hpn).2, hdisp hpipe]

/-- The receiver sorts a packet. -/
theorem Ordered.group (h : Ordered dp T) (hs : T.st.groupNext dp = .ok st) : Ordered dp (T.next dp a st) := by
  unfold Traffic.groupNext at hs
  split at hs
  · obtain rfl := Except.ok.inj hs
    exact h.still rfl rfl (Traced.next_frame rfl) (Traced.next_via rfl) (Traced.next_sender rfl) fun _ _ _ _ hpc => hpc
  rename_i p rest hp
  obtain ⟨k, hk, hs⟩ := bind_eq_ok.mp hs
  split at hs
  · simp at hs
  obtain rfl := Except.ok.inj hs
  have hmem : p ∈ T.st.hold .polled := by rw [hp]; exact List.mem_cons_self
  have hm : p.m = T.frame p.tag := h.fits .polled p hmem
  have hpipe : dp.pipeline = true := by
    by_contra hno
    simp [h.rtc (Bool.eq_false_of_not_eq_true hno) .polled rfl] at hmem
  have hv : T.via p.tag = k := by
    rw [h.dispatched hpipe _ (h.below _ p hmem), ← hm, Dataplane.targetOf]
    rw [show dp.dispatcher.target dp.H p.m = .ok k from hk]
  have hl : T.tags .polled = [p.tag] ++ rest.map (·.tag) := by rw [Traced.tags, hp]; rfl
  have hsent : Custody.pass T.st.hold .polled rest (.group k) [p] .sent = T.st.hold .sent :=
    pass_of_ne (by simp) (by simp) rest _
  refine Ordered.of_hold ?_ rfl hsent
  refine h.pass (l := [p]) rfl hl ?_ (fun _ => rfl) rfl rfl rfl (fun _ _ => rfl) (fun _ _ _ _ hpc => hpc)
    (fun p' hp' => ?_) fun o j => ?_
  · rw [hp]
    exact List.subset_cons_self _ _
  · obtain rfl := List.mem_singleton.mp hp'
    exact ⟨hm, hv⟩
  · exact road_pass hl (by simp) (by simp) (by simp) fun hg _ _ _ => follows_group hg

/-- The receiver offers a group to its ring. -/
theorem Ordered.enqueue (h : Ordered dp T) {w done : ℕ} : Ordered dp (T.next dp a (T.st.enqueueGroup w done)) := by
  generalize hnb : min done (T.st.hold (.group w)).length = nb
  have hold : (T.st.enqueueGroup w done).hold =
      Custody.share T.st.hold (.group w) nb (.rxRing w) (.dropped .receiver .dropRxRing) := by
    rw [← hnb]
    rfl
  have hsent : (T.st.enqueueGroup w done).hold .sent = T.st.hold .sent := by
    rw [hold, share_apply (by simp) (by simp) (by simp)]
    simp
  refine Ordered.of_hold (h.share hold rfl (by simp) (fun _ => rfl) rfl rfl rfl (fun _ _ => rfl)
    (fun _ _ _ _ hpc => hpc) (fun p hp => ?_) fun o k => ?_) rfl hsent
  · exact h.fits (.group w) p (List.mem_of_mem_take hp)
  · exact road_pass (T.tags_split _ nb) (by simp) (by simp) (by simp) fun hm _ _ _ => follows_rxRing hm

/-- `tx_flush`, at the end of a round or behind the loop. -/
theorem Ordered.flushed (h : Ordered dp T) (hinv : Traffic.Inv dp T.st) {i sent : ℕ} {pc : WorkerPc}
    (hpc : ∀ r left, pc ≠ .handle r left) :
    Ordered dp (T.next dp (.flush i sent) ((T.st.txFlush i sent).setPc i pc)) := by
  have hn : (T.st.txFlush i sent).next = T.st.next ∧ (T.st.txFlush i sent).pcs = T.st.pcs := by
    unfold Traffic.txFlush
    simp only
    split <;> exact ⟨rfl, rfl⟩
  refine h.flush hinv.once rfl hn.1 (Traced.next_frame hn.1) (Traced.next_via hn.1) (fun t => rfl) ?_
  intro j r left _ hj
  change Function.update (T.st.txFlush i sent).pcs i pc j = .handle r left at hj
  by_cases hji : j = i
  · subst hji
    rw [Function.update_self] at hj
    exact absurd hj (hpc r left)
  · rw [Function.update_of_ne hji, hn.2] at hj
    exact hj

/-- A step in which no packet moves. -/
theorem Ordered.rest (h : Ordered dp T) (hh : st.hold = T.st.hold) (hn : st.next = T.st.next)
    (hp : ∀ i r left, st.pcs i = .handle r left → T.st.pcs i = .handle r left) : Ordered dp (T.next dp a st) :=
  h.still hh hn (Traced.next_frame hn) (Traced.next_via hn) (Traced.next_sender (by rw [hh]))
    fun i r left _ hpc => hp i r left hpc

theorem Ordered.setPc (h : Ordered dp T) {i : ℕ} {pc : WorkerPc} (hpc : ∀ r left, pc ≠ .handle r left) :
    Ordered dp (T.next dp a (T.st.setPc i pc)) := by
  refine h.rest rfl rfl fun j r left hj => ?_
  change Function.update T.st.pcs i pc j = .handle r left at hj
  by_cases hji : j = i
  · subst hji
    rw [Function.update_self] at hj
    exact absurd hj (hpc r left)
  · rw [Function.update_of_ne hji] at hj
    exact hj

theorem Ordered.outside (h : Ordered dp T) {ev : Event} (hs : T.st.outside dp ev = .ok st) :
    Ordered dp (T.next dp a st) := by
  obtain ⟨W, -, hs⟩ := bind_eq_ok.mp hs
  obtain rfl := Except.ok.inj hs
  exact h.rest rfl rfl fun _ _ _ hj => hj

/-- **Every step** keeps the order. -/
theorem Ordered.step (h : Ordered dp T) (hinv : Traffic.Inv dp T.st) (hw : World.Inv dp T.st.world)
    (hv : a.Valid dp.steering.n) (hs : T.st.step dp numRxQueues a = .ok st) : Ordered dp (T.next dp a st) := by
  have stay : (.ok T.st : Except Fault Traffic) = .ok st → Ordered dp (T.next dp a st) := fun he => by
    obtain rfl := Except.ok.inj he
    exact h.rest rfl rfl fun _ _ _ hj => hj
  cases a with
  | rxBurst i ms =>
    simp only [Traffic.step] at hs
    split at hs
    · rename_i left hpc
      split at hs
      · exact stay hs
      · rename_i hmode
        obtain rfl := Except.ok.inj hs
        have hempty : T.st.hold (.bufs i) = [] := hinv.bufs i (by simp [hpc])
        have hrtc : dp.pipeline = false := by
          cases hp : dp.pipeline with
          | false => rfl
          | true => simp [hp] at hmode
        refine h.burst (q := .bufs i) rfl (Or.inr ⟨i, rfl⟩) hempty hrtc.symm rfl rfl (fun j hj => ?_) ?_ ?_ ?_
        · have hji : j ≠ i := by
            rintro rfl
            exact hj hempty
          simp [Traffic.setPc, hji, Traffic.setWorker, Traffic.setHold]
        · intro j hj m
          exact Place.bufs.inj hj
        · intro j r left' hj hr
          obtain rfl := Place.bufs.inj hj
          simp only [Traffic.setPc, Traffic.setHold, Function.update_self, WorkerPc.handle.injEq] at hr
          exact hr.1.symm
        · simp [hrtc]
    · exact stay hs
  | dequeue i n =>
    simp only [Traffic.step] at hs
    split at hs
    · rename_i left hpc
      split at hs
      · exact stay hs
      · obtain rfl := Except.ok.inj hs
        exact h.fetch rfl (hinv.bufs i (by simp [hpc]))
    · exact stay hs
  | dequeueRedirect i n =>
    simp only [Traffic.step] at hs
    split at hs
    · rename_i hpc
      obtain rfl := Except.ok.inj hs
      exact h.fetch rfl (hinv.bufs i (by simp [hpc]))
    · exact stay hs
  | handle i view took sent =>
    simp only [Traffic.step] at hs
    split at hs
    · rename_i hpc hb
      obtain ⟨o, ho, hs⟩ := bind_eq_ok.mp hs
      exact h.finish hinv hw hv hpc hb ho hs
    · exact stay hs
  | advance i =>
    simp only [Traffic.step] at hs
    split at hs
    · exact Except.ok.inj hs ▸ h.setPc (by simp)
    · exact Except.ok.inj hs ▸ h.setPc (by simp)
    · exact Except.ok.inj hs ▸ h.setPc (by simp)
    · exact stay hs
  | flush i sent =>
    simp only [Traffic.step] at hs
    split at hs
    · exact Except.ok.inj hs ▸ h.flushed hinv (by simp [Traffic.top])
    split at hs
    · exact Except.ok.inj hs ▸ h.flushed hinv (by simp)
    · exact stay hs
  | stop i =>
    simp only [Traffic.step] at hs
    split at hs
    · exact Except.ok.inj hs ▸ h.setPc (by simp)
    · exact stay hs
  | poll ms =>
    simp only [Traffic.step] at hs
    split at hs
    · rename_i hc
      obtain rfl := Except.ok.inj hs
      simp only [Bool.and_eq_true, decide_eq_true_iff] at hc
      obtain ⟨⟨hpipe, hidle⟩, -⟩ := hc
      have hg : ∀ k, T.st.hold (.group k) = [] := fun k => by
        by_contra hne
        simpa [hidle] using (hinv.groups k hne).2
      refine h.burst (q := .polled) rfl (Or.inl rfl) (hinv.polled (by simp [hidle])) hpipe.symm ?_ rfl
        (fun _ _ => rfl) (by simp) (by simp) fun _ => rfl
      funext q
      cases q <;> simp [hg]
    · exact stay hs
  | group =>
    simp only [Traffic.step] at hs
    split at hs
    · exact h.group hs
    · exact stay hs
  | enqueue done =>
    simp only [Traffic.step] at hs
    split at hs
    · obtain rfl := Except.ok.inj hs
      split
      · exact h.enqueue
      · exact h.rest rfl rfl fun _ _ _ hj => hj
    · exact stay hs
  | between ev =>
    cases ev with
    | receive i m view => exact stay hs
    | takeRedirected i view => exact stay hs
    | turn i =>
      simp only [Traffic.step] at hs
      split at hs
      · exact h.outside hs
      · exact stay hs
    | readClock i tsc =>
      simp only [Traffic.step] at hs
      split at hs
      · exact h.outside hs
      · exact stay hs
    | command c => exact h.outside hs

end Steps

/-! ### Flows -/

/-- The two frames hold packets of one flow, in one direction. -/
def SameFlow (dp : Dataplane) (m m' : Mbuf) : Prop :=
  ∃ p p', Admitted dp m p ∧ Admitted dp m' p' ∧ (p.ipProtocol = 6 ∨ p.ipProtocol = 17) ∧ p.toFiveTuple = p'.toFiveTuple

section Flows

variable {dp : Dataplane} {numRxQueues : ℕ} {T : Traced} {m m' : Mbuf}

/-- The path of a TCP or UDP packet comes from its tuple. -/
theorem pathL4_owner_of_tuple {snap : Snapshot} {p p' : PacketMeta} {path path' : Path}
    (ht : p.toFiveTuple = p'.toFiveTuple) (h : pathL4 dp snap p = .ok path) (h' : pathL4 dp snap p' = .ok path') :
    path.owner dp = path'.owner dp := by
  obtain ⟨-, hdst, -, hport, hproto⟩ := FiveTuple.mk.inj ht
  have hret : isReturn dp snap p' = isReturn dp snap p := by unfold isReturn; rw [hdst, hport]
  unfold pathL4 at h h'
  rw [hret, ← hdst, ← hport, ← hproto] at h'
  obtain ⟨b, hb, h⟩ := bind_eq_ok.mp h
  rw [hb, ok_bind] at h'
  cases b with
  | true =>
    obtain rfl := Except.ok.inj h
    obtain rfl := Except.ok.inj h'
    exact congrArg (fun t => some (dp.steering.retOwner dp.H t)) ht
  | false =>
    simp only [Bool.false_eq_true, ↓reduceIte] at h h'
    split at h
    · rename_i hhc
      rw [if_pos hhc] at h'
      obtain rfl := Except.ok.inj h
      obtain rfl := Except.ok.inj h'
      rfl
    · rename_i hhc
      rw [if_neg hhc] at h'
      obtain ⟨found, hf, h⟩ := bind_eq_ok.mp h
      rw [hf, ok_bind] at h'
      cases found with
      | none =>
        obtain rfl := Except.ok.inj h
        obtain rfl := Except.ok.inj h'
        rfl
      | some svc =>
        obtain rfl := Except.ok.inj h
        obtain rfl := Except.ok.inj h'
        exact congrArg (fun t => some (dp.steering.fwdOwner dp.H t)) ht

theorem Admitted.pathOf_l4 {p : PacketMeta} (h : Admitted dp m p) (hproto : p.ipProtocol = 6 ∨ p.ipProtocol = 17)
    (snap : Snapshot) : pathOf dp snap m = pathL4 dp snap p := by
  have h1 : p.ipProtocol ≠ 1 := by rcases hproto with h | h <;> simp [h]
  have h2 : ¬ (p.ipProtocol ≠ 6 ∧ p.ipProtocol ≠ 17) := by tauto
  rw [h.pathOf_eq, if_neg h1, if_neg h2]

theorem SameFlow.proto (h : SameFlow dp m m') : ∃ p p', Admitted dp m p ∧ Admitted dp m' p' ∧
    (p.ipProtocol = 6 ∨ p.ipProtocol = 17) ∧ (p'.ipProtocol = 6 ∨ p'.ipProtocol = 17) ∧
      p.toFiveTuple = p'.toFiveTuple := by
  obtain ⟨p, p', ha, ha', hproto, ht⟩ := h
  have he : p.ipProtocol = p'.ipProtocol := congrArg FiveTuple.protocol ht
  exact ⟨p, p', ha, ha', hproto, he ▸ hproto, ht⟩

/-- One worker sends the packets of a flow. -/
theorem SameFlow.owner_eq (h : SameFlow dp m m') {snap : Snapshot} (hb : snap.Built dp.H dp.cfg) {k k' : ℕ}
    (hk : Settles dp k m) (hk' : Settles dp k' m') : k = k' := by
  obtain ⟨p, p', ha, ha', hproto, hproto', ht⟩ := h.proto
  obtain ⟨path, hp, ho⟩ := hk p ha hproto snap hb
  obtain ⟨path', hp', ho'⟩ := hk' p' ha' hproto' snap hb
  rw [ha.pathOf_l4 hproto] at hp
  rw [ha'.pathOf_l4 hproto'] at hp'
  have he := pathL4_owner_of_tuple ht hp hp'
  rw [ho, ho'] at he
  exact Option.some.inj he

/-- The receiver gives the packets of a flow to one worker. -/
theorem SameFlow.target_eq (h : SameFlow dp m m') : dp.targetOf m = dp.targetOf m' := by
  obtain ⟨p, p', ha, ha', hproto, hproto', ht⟩ := h.proto
  obtain ⟨-, hip, hparsed⟩ := ha.holds
  obtain ⟨-, hip', hparsed'⟩ := ha'.holds
  obtain ⟨-, hdst, -, hport, -⟩ := FiveTuple.mk.inj ht
  unfold Dataplane.targetOf
  rw [Dispatcher.target_parsed _ _ hparsed hip hproto, Dispatcher.target_parsed _ _ hparsed' hip' hproto', ht, hdst,
    hport]

theorem Traced.reach_ordered (hcfg : Config.Accepted dp.cfg) (h : Reach dp numRxQueues T) : Ordered dp T := by
  induction h with
  | boot hb =>
    obtain ⟨W, -, hs⟩ := bind_eq_ok.mp hb
    obtain rfl := Except.ok.inj hs
    refine ⟨fun _ _ hp => by simp [Traced.start] at hp, fun _ _ _ => rfl, fun _ t ht => ?_,
      fun _ _ hp => by simp [Traced.start] at hp, fun o k => ?_⟩
    · simp [Traced.start] at ht
    · refine List.pairwise_iff_forall_sublist.mpr fun {t t'} ht => ?_
      obtain ⟨q, hq⟩ := mem_road (ht.subset List.mem_cons_self)
      simp [Traced.tags, Traced.start] at hq
  | step a h hv hs ih =>
    obtain ⟨st, hst, hs⟩ := bind_eq_ok.mp hs
    obtain rfl := Except.ok.inj hs
    exact ih.step (Traffic.reach_inv h.traffic) (Traffic.reach_world hcfg h.traffic) hv hst

/-- What a worker sends of what came to one worker is in order. -/
theorem Ordered.sent_lt (h : Ordered dp T) {a b : ℕ} (hab : [a, b].Sublist (T.tags .sent)) (hv : T.via a = T.via b)
    (hs : T.sender a = T.sender b) : a < b := by
  have hroad := List.Pairwise.sublist (List.sublist_append_left _ _) (h.sorted (T.via b) (T.sender b))
  rw [List.pairwise_filter] at hroad
  exact List.pairwise_iff_forall_sublist.mp hroad hab (by simp [hv, hs]) (by simp)

/-- **Packets of a flow are sent in the order they came.** Whatever the rings
and the NIC take and however the loops interleave: of two packets that the NIC
has taken, the one received first was sent first if both came to the same worker
and were sent by the same one. So it is with the packets of a flow that came to
the same worker; and in pipeline mode with all packets of a flow. -/
theorem Traced.flows_in_order (hcfg : Config.Accepted dp.cfg) (h : Reach dp numRxQueues T) :
    (T.tags .sent).Pairwise fun a b =>
      (T.via a = T.via b ∧ T.sender a = T.sender b) ∨
        (SameFlow dp (T.frame a) (T.frame b) ∧ (dp.pipeline = true ∨ T.via a = T.via b)) → a < b := by
  have ho := reach_ordered hcfg h
  have hw := Traffic.reach_world hcfg h.traffic
  refine List.pairwise_iff_forall_sublist.mpr fun {a b} hab hor => ?_
  rcases hor with ⟨hv, hs⟩ | ⟨hflow, hmode⟩
  · exact ho.sent_lt hab hv hs
  have hsettles : ∀ t ∈ [a, b], Settles dp (T.sender t) (T.frame t) ∧ t < T.st.next := by
    intro t ht
    obtain ⟨p, hp, rfl⟩ := List.mem_map.mp (hab.subset ht)
    exact ⟨ho.fits .sent p hp, ho.below .sent p hp⟩
  obtain ⟨ha, hlta⟩ := hsettles a (by simp)
  obtain ⟨hb, hltb⟩ := hsettles b (by simp)
  refine ho.sent_lt hab ?_ (hflow.owner_eq (hw.snaps 0) ha hb)
  rcases hmode with hpipe | hv
  · rw [ho.dispatched hpipe a hlta, ho.dispatched hpipe b hltb]
    exact hflow.target_eq
  · exact hv

end Flows

/-- Two queries come to worker 1, which passes them on to worker 0. -/
theorem Traced.flows_in_order_redirected : ∃ T, Traced.Reach demo 2 T ∧ T.tags .sent = [0, 1] ∧
    (T.tags .sent).Pairwise fun a b =>
      (T.via a = T.via b ∧ T.sender a = T.sender b) ∨
        (SameFlow demo (T.frame a) (T.frame b) ∧ (demo.pipeline = true ∨ T.via a = T.via b)) → a < b := by
  obtain ⟨st, h, hsent⟩ := Traffic.exists_reach demo 2
    [.rxBurst 1 [queryFrame, queryFrame], .handle 1 noNeigh true 0, .handle 1 noNeigh true 0, .rxBurst 0 [],
      .advance 0, .advance 0, .dequeueRedirect 0 64, .handle 0 noNeigh true 0, .handle 0 noNeigh true 0,
      .advance 0, .flush 0 2]
    (P := fun st => (st.hold .sent).map (·.tag) = [0, 1]) (by decide) (by decide +kernel)
  obtain ⟨T, hT, rfl⟩ := Traced.exists_reach h
  exact ⟨T, hT, hsent, Traced.flows_in_order demo_accepted hT⟩

end L4Lb
