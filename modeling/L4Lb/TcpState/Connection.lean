/-
# A connection, segment by segment

What the load balancer remembers of a TCP connection is three values in its
session: the state, the directions that have sent a FIN and the deadline. Here
is what the segments of a client tuple do to them, without workers, tables and
packets: a SYN makes the values anew if there is no session or the old
connection is over, and every other segment advances them.

Two facts about runs follow. After a SYN that starts anew, or that meets a
session on which no FIN was seen, segments without FIN and RST lead to
ESTABLISHED with the client's first ACK and stay there (`run_live`). After any
other SYN they never get there, as long as no further SYN comes (`run_spoilt`):
the FIN of the old connection is held against the new one.
-/
import L4Lb.Session

namespace L4Lb

/-- A segment of a connection, with the tick it is handled at. -/
structure TcpSegment where
  dir : Dir
  flags : UInt8
  tick : ℕ
  deriving DecidableEq, Repr

namespace TcpSegment

/-- An initial SYN of the client. -/
def opens (s : TcpSegment) : Bool :=
  s.dir = .clientToRs && s.flags &&& (TCP_SYN ||| TCP_ACK ||| TCP_RST) == TCP_SYN

/-- A FIN or RST. -/
def ends (s : TcpSegment) : Bool := hasFlag s.flags TCP_FIN || hasFlag s.flags TCP_RST

/-- An ACK of the client without SYN. -/
def acks (s : TcpSegment) : Bool := s.dir = .clientToRs && hasFlag s.flags TCP_ACK && !hasFlag s.flags TCP_SYN

theorem acks_iff (s : TcpSegment) : s.acks = true ↔
    s.dir = .clientToRs ∧ hasFlag s.flags TCP_ACK = true ∧ hasFlag s.flags TCP_SYN = false := by
  simp [acks, and_assoc]

theorem not_ends {s : TcpSegment} (h : s.ends = false) :
    hasFlag s.flags TCP_FIN = false ∧ hasFlag s.flags TCP_RST = false := by
  simpa [ends] using h

/-- A flag of a mask is read off the masked flags. -/
theorem hasFlag_masked {flags mask v f : UInt8} (h : flags &&& mask = v) (hf : mask &&& f = f) :
    hasFlag flags f = (v &&& f != 0) := by
  rw [hasFlag, ← h, UInt8.and_assoc, hf]

theorem opens_flags {s : TcpSegment} (h : s.opens = true) : s.dir = .clientToRs ∧ hasFlag s.flags TCP_SYN = true ∧
    hasFlag s.flags TCP_ACK = false ∧ hasFlag s.flags TCP_RST = false := by
  simp only [opens, Bool.and_eq_true, decide_eq_true_eq, beq_iff_eq] at h
  obtain ⟨hd, hm⟩ := h
  refine ⟨hd, ?_, ?_, ?_⟩ <;> rw [hasFlag_masked hm (by decide)] <;> decide

end TcpSegment

/-- What a session knows of its connection. -/
structure Conn where
  state : TcpState
  finSeen : UInt8
  expireTick : ℕ
  deriving DecidableEq, Repr

namespace Conn

/-- A session that has just been made. -/
def fresh : Conn := ⟨.none, 0, 0⟩

variable (tm : TimeoutConf)

/-- `update_state`. -/
def advance (c : Conn) (s : TcpSegment) : Conn :=
  let (state, finSeen) := tcpNextState c.state s.flags s.dir c.finSeen
  ⟨state, finSeen, SessionTable.deadline s.tick (stateTimeout state tm)⟩

/-- What a segment does to the session of its tuple, if there is one. -/
def next : Option Conn → TcpSegment → Option Conn
  | none, s => if s.opens then some (fresh.advance tm s) else none
  | some c, s => some ((if s.opens && tcpStateReusable c.state then fresh else c).advance tm s)

/-- The session after some segments. -/
def run (c : Option Conn) (segs : List TcpSegment) : Option Conn := segs.foldl (next tm) c

/-- The connection of a SYN starts without a FIN: the SYN carries none, and
there is no session, or it is taken for a new one, or no FIN was seen on it. -/
def StartsAnew (c : Option Conn) (syn : TcpSegment) : Prop :=
  hasFlag syn.flags TCP_FIN = false ∧
    ∀ c' ∈ c, tcpStateReusable c'.state = true ∨ (c'.finSeen = 0 ∧ c'.state ≠ .finWait ∧ c'.state ≠ .udp)

instance (c : Option Conn) (syn : TcpSegment) : Decidable (StartsAnew c syn) := by
  unfold StartsAnew
  infer_instance

/-- The session is established, and the last segment has set its deadline so. -/
def Established (c : Option Conn) (segs : List TcpSegment) : Prop :=
  ∃ c' last, c = some c' ∧ segs.getLast? = some last ∧ c'.state = .established ∧
    c'.expireTick = SessionTable.deadline last.tick tm.tcpEstablished

variable {tm}

/-- A session on the way to ESTABLISHED, or there. -/
def Live (c : Conn) : Prop := c.finSeen = 0 ∧ (c.state = .synRecv ∨ c.state = .established)

/-- A session that does not get to ESTABLISHED. -/
def Spoilt (c : Conn) : Prop :=
  c.state ≠ .established ∧ c.state ≠ .none ∧ (c.state = .synRecv → c.finSeen ≠ 0)

variable {c : Conn} {s : TcpSegment} {segs : List TcpSegment}

theorem Live.not_reusable (h : c.Live) : tcpStateReusable c.state = false := by
  rcases h.2 with hs | hs <;> simp [hs, tcpStateReusable]

theorem Live.next (h : c.Live) (s : TcpSegment) : Conn.next tm (some c) s = some (c.advance tm s) := by
  simp [Conn.next, h.not_reusable]

/-- Without FIN and RST the session stays on its way, and an ACK of the client
brings it to ESTABLISHED. -/
theorem Live.step (tm : TimeoutConf) (h : c.Live) (he : s.ends = false) : (c.advance tm s).Live ∧
    (c.state = .established ∨ s.acks = true → (c.advance tm s).state = .established) := by
  obtain ⟨hfin, hrst⟩ := TcpSegment.not_ends he
  obtain ⟨hf, hs | hs⟩ := h
  · rw [TcpSegment.acks_iff]
    by_cases ha : s.dir = .clientToRs ∧ hasFlag s.flags TCP_ACK = true ∧ hasFlag s.flags TCP_SYN = false
    · simp [Live, advance, tcpNextState, hs, hf, hfin, hrst, ha]
    · simp [Live, advance, tcpNextState, hs, hf, hfin, hrst, ha]
  · simp [Live, advance, tcpNextState, hs, hf, hfin, hrst]

theorem Live.run (tm : TimeoutConf) (h : c.Live) (he : ∀ s ∈ segs, s.ends = false) :
    ∃ c', Conn.run tm (some c) segs = some c' ∧ c'.Live ∧
      (c.state = .established ∨ (∃ s ∈ segs, s.acks = true) → c'.state = .established) := by
  induction segs generalizing c with
  | nil => exact ⟨c, rfl, h, by simp⟩
  | cons s segs ih =>
    obtain ⟨hlive, hest⟩ := h.step tm (he s List.mem_cons_self)
    obtain ⟨c', hrun, hlive', hest'⟩ := ih hlive fun s' hs' => he s' (List.mem_cons_of_mem s hs')
    refine ⟨c', ?_, hlive', fun hack => hest' ?_⟩
    · rw [Conn.run, List.foldl_cons, h.next]
      exact hrun
    · rcases hack with hs | ⟨s', hs', ha⟩
      · exact Or.inl (hest (Or.inl hs))
      · rcases List.mem_cons.mp hs' with rfl | hs'
        · exact Or.inl (hest (Or.inr ha))
        · exact Or.inr ⟨s', hs', ha⟩

/-- The client's ACK establishes the connection, and the last segment sets the
deadline of an established one. -/
theorem run_live (h : c.Live) (he : ∀ s ∈ segs, s.ends = false) (ha : ∃ s ∈ segs, s.acks = true) :
    Established tm (run tm (some c) segs) segs := by
  obtain ⟨c', hrun, -, hest⟩ := h.run tm he
  have hstate := hest (Or.inr ha)
  have hne : segs ≠ [] := by
    rintro rfl
    simp at ha
  have hsplit := List.dropLast_append_getLast hne
  have hinit : ∀ s ∈ segs.dropLast, s.ends = false := fun s hs => he s (List.mem_of_mem_dropLast hs)
  obtain ⟨c1, hrun1, hlive1, -⟩ := h.run tm hinit
  have hlast : c' = c1.advance tm (segs.getLast hne) := by
    rw [← hsplit, run, List.foldl_append] at hrun
    rw [run] at hrun1
    rw [hrun1, List.foldl_cons, List.foldl_nil, hlive1.next] at hrun
    exact (Option.some.inj hrun).symm
  refine ⟨c', segs.getLast hne, hrun, List.getLast?_eq_some_getLast hne, hstate, ?_⟩
  have htime : c'.expireTick = SessionTable.deadline (segs.getLast hne).tick (stateTimeout c'.state tm) := by
    rw [hlast]
    rfl
  rw [htime, hstate]
  rfl

theorem Spoilt.step (h : c.Spoilt) (he : s.ends = false) : (c.advance tm s).Spoilt := by
  obtain ⟨hfin, hrst⟩ := TcpSegment.not_ends he
  obtain ⟨h1, h2, h3⟩ := h
  cases hs : c.state with
  | none => exact absurd hs h2
  | established => exact absurd hs h1
  | synRecv =>
    have hf := h3 hs
    by_cases ha : s.dir = .clientToRs ∧ hasFlag s.flags TCP_ACK = true ∧ hasFlag s.flags TCP_SYN = false
    · simp [Spoilt, advance, tcpNextState, hs, hf, hfin, hrst, ha]
    · simp [Spoilt, advance, tcpNextState, hs, hf, hfin, hrst, ha]
  | finWait =>
    by_cases hf : c.finSeen = 3 <;> simp [Spoilt, advance, tcpNextState, hs, hf, hfin, hrst]
  | timeWait => simp [Spoilt, advance, tcpNextState, hs, hfin, hrst]
  | close => simp [Spoilt, advance, tcpNextState, hs, hfin, hrst]
  | udp => simp [Spoilt, advance, tcpNextState, hs]

theorem run_spoilt (tm : TimeoutConf) (h : c.Spoilt) (he : ∀ s ∈ segs, s.ends = false)
    (ho : ∀ s ∈ segs, s.opens = false) :
    ∃ c', run tm (some c) segs = some c' ∧ c'.state ≠ .established := by
  induction segs generalizing c with
  | nil => exact ⟨c, rfl, h.1⟩
  | cons s segs ih =>
    have hn : next tm (some c) s = some (c.advance tm s) := by simp [next, ho s List.mem_cons_self]
    rw [run, List.foldl_cons, hn]
    exact ih (h.step (he s List.mem_cons_self)) (fun s' hs' => he s' (List.mem_cons_of_mem s hs'))
      fun s' hs' => ho s' (List.mem_cons_of_mem s hs')

/-! ### The SYN -/

theorem fresh_syn (h : s.opens = true) (hf : hasFlag s.flags TCP_FIN = false) : (fresh.advance tm s).Live := by
  obtain ⟨hd, hsyn, hack, hrst⟩ := TcpSegment.opens_flags h
  simp [Live, advance, fresh, tcpNextState, hsyn, hrst, hf]

theorem fresh_synFin (h : s.opens = true) (hf : hasFlag s.flags TCP_FIN = true) : (fresh.advance tm s).Spoilt := by
  obtain ⟨hd, hsyn, hack, hrst⟩ := TcpSegment.opens_flags h
  simp [Spoilt, advance, fresh, tcpNextState, hsyn, hrst, hf, hd]

theorem advance_syn (h : s.opens = true) (hf : hasFlag s.flags TCP_FIN = false) (hfin : c.finSeen = 0)
    (hr : tcpStateReusable c.state = false) (hw : c.state ≠ .finWait) (hu : c.state ≠ .udp) :
    (c.advance tm s).Live := by
  obtain ⟨hd, hsyn, hack, hrst⟩ := TcpSegment.opens_flags h
  cases hs : c.state with
  | none => simp [Live, advance, tcpNextState, hs, hsyn, hrst, hf, hfin]
  | synRecv => simp [Live, advance, tcpNextState, hs, hack, hrst, hf, hfin]
  | established => simp [Live, advance, tcpNextState, hs, hrst, hf, hfin]
  | finWait => exact absurd hs hw
  | timeWait => simp [hs, tcpStateReusable] at hr
  | close => simp [hs, tcpStateReusable] at hr
  | udp => exact absurd hs hu

/-- A SYN on a session with a FIN, or with one of its own. -/
theorem advance_synFin (h : s.opens = true) (hr : tcpStateReusable c.state = false)
    (hf : hasFlag s.flags TCP_FIN = true ∨ c.finSeen ≠ 0 ∨ c.state = .finWait ∨ c.state = .udp) :
    (c.advance tm s).Spoilt := by
  obtain ⟨hd, hsyn, hack, hrst⟩ := TcpSegment.opens_flags h
  -- the FINs that are seen after the SYN
  generalize hfin : (if hasFlag s.flags TCP_FIN = true then c.finSeen ||| 1 else c.finSeen) = fin
  have hne : c.state ≠ .finWait → c.state ≠ .udp → fin ≠ 0 := by
    intro hw hu
    rw [← hfin]
    split
    · simp
    · rename_i hno
      tauto
  cases hs : c.state with
  | none => simp [Spoilt, advance, tcpNextState, hs, hsyn, hrst, hd, hfin, hne (by simp [hs]) (by simp [hs])]
  | synRecv => simp [Spoilt, advance, tcpNextState, hs, hack, hrst, hd, hfin, hne (by simp [hs]) (by simp [hs])]
  | established => simp [Spoilt, advance, tcpNextState, hs, hrst, hd, hfin, hne (by simp [hs]) (by simp [hs])]
  | finWait => by_cases h3 : fin = 3 <;> simp [Spoilt, advance, tcpNextState, hs, hrst, hd, hfin, h3]
  | timeWait => simp [hs, tcpStateReusable] at hr
  | close => simp [hs, tcpStateReusable] at hr
  | udp => simp [Spoilt, advance, tcpNextState, hs]

theorem next_syn (tm : TimeoutConf) (c : Option Conn) (h : s.opens = true) : ∃ c', next tm c s = some c' ∧
    (StartsAnew c s → c'.Live) ∧ (¬ StartsAnew c s → c'.Spoilt) := by
  cases c with
  | none =>
    refine ⟨fresh.advance tm s, by simp [next, h], fun ha => fresh_syn h ha.1, fun hn => fresh_synFin h ?_⟩
    simpa [StartsAnew] using hn
  | some c =>
    cases hr : tcpStateReusable c.state with
    | true =>
      refine ⟨fresh.advance tm s, by simp [next, h, hr], fun ha => fresh_syn h ha.1, fun hn => fresh_synFin h ?_⟩
      simpa [StartsAnew, hr] using hn
    | false =>
      refine ⟨c.advance tm s, by simp [next, hr], fun ha => ?_, fun hn => advance_synFin h hr ?_⟩
      · obtain ⟨hf, hc⟩ := ha
        obtain ⟨hfin, hw, hu⟩ := (hc c rfl).resolve_left (by simp [hr])
        exact advance_syn h hf hfin hr hw hu
      · by_contra hno
        simp only [not_or, Bool.not_eq_true] at hno
        obtain ⟨hf, hfin, hw, hu⟩ := hno
        refine hn ⟨hf, fun c' hc' => Or.inr ?_⟩
        obtain rfl := Option.some.inj hc'
        exact ⟨not_not.mp hfin, hw, hu⟩

/-- Whether the handshake after a SYN leads to ESTABLISHED. -/
theorem run_handshake {c : Option Conn} {syn : TcpSegment} (hsyn : syn.opens = true) (he : ∀ s ∈ segs, s.ends = false)
    (ha : ∃ s ∈ segs, s.acks = true) :
    (StartsAnew c syn → Established tm (run tm c (syn :: segs)) segs) ∧
    ((∀ s ∈ segs, s.opens = false) → (Established tm (run tm c (syn :: segs)) segs ↔ StartsAnew c syn)) := by
  obtain ⟨c', hn, hlive, hspoilt⟩ := next_syn tm c hsyn
  have hrun : run tm c (syn :: segs) = run tm (some c') segs := by rw [run, List.foldl_cons, hn, run]
  rw [hrun]
  refine ⟨fun h => run_live (hlive h) he ha, fun ho => ⟨fun hest => ?_, fun h => run_live (hlive h) he ha⟩⟩
  by_contra h
  obtain ⟨c1, hc1, hne⟩ := run_spoilt tm (hspoilt h) he ho
  obtain ⟨c2, -, hc2, -, hstate, -⟩ := hest
  rw [hc1] at hc2
  exact hne (Option.some.inj hc2 ▸ hstate)

end Conn

end L4Lb
