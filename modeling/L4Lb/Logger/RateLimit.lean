/-
# Messages that are let through at most every so often

`log_ratelimit_pass` of `src/common/logger.cpp`, which `LOG_RATELIMIT` asks on every
worker before a message that a packet can cause. All calls at one place in the code
share `last`, the second of the last message, and nothing but a load and one
`compare_exchange_strong` orders them. A call reads the clock, loads `last`, and
exchanges it, and the calls of other threads may come between any two of these.

Two messages are an interval apart, by the clocks that their calls have read
(`RateLimit.passes_spaced`). And no message is held back without another one instead:
a call that gets no is told so by a message that is not yet an interval old, or
another message got through while it was asking (`RateLimit.held_back`).
-/
import Mathlib.Data.Int.Order.Basic
import Mathlib.Data.List.Pairwise
import Mathlib.Logic.Function.Basic
import Mathlib.Order.Nat

namespace L4Lb

/-- Where a call of `log_ratelimit_pass` is. -/
inductive PassPc
  | out
  /-- it has read the clock -/
  | timed (now : ℤ)
  /-- it has loaded `last`, when that many messages had got through -/
  | loaded (now prev : ℤ) (seen : ℕ)

/-- A call that has returned. -/
structure PassCall where
  now : ℤ
  passed : Bool
  /-- the messages that had got through when it loaded `last` -/
  seen : ℕ
  /-- and when it returned -/
  till : ℕ

/-- One place in the code, with the calls there. -/
structure RateLimit where
  clock : ℤ
  last : ℤ := 0
  pcs : ℕ → PassPc := fun _ => .out
  /-- the clocks of the messages that got through -/
  passes : List ℤ := []
  calls : List PassCall := []

inductive PassEvent
  | tick
  /-- thread `t` reads the clock -/
  | start (t : ℕ)
  | load (t : ℕ)
  | exchange (t : ℕ)

namespace RateLimit

variable (interval : ℤ)

/-- The call of thread `t` returns. -/
def answer (s : RateLimit) (t : ℕ) (now : ℤ) (passed : Bool) (seen : ℕ) : RateLimit :=
  { s with
    pcs := Function.update s.pcs t .out
    calls := s.calls ++ [⟨now, passed, seen, s.passes.length⟩] }

def step (s : RateLimit) : PassEvent → RateLimit
  | .tick => { s with clock := s.clock + 1 }
  | .start t =>
    match s.pcs t with
    | .out => { s with pcs := Function.update s.pcs t (.timed s.clock) }
    | _ => s
  | .load t =>
    match s.pcs t with
    | .timed now =>
      if s.last ≠ 0 ∧ now - s.last < interval then s.answer t now false s.passes.length
      else { s with pcs := Function.update s.pcs t (.loaded now s.last s.passes.length) }
    | _ => s
  | .exchange t =>
    match s.pcs t with
    | .loaded now prev seen =>
      if s.last = prev then
        { s with last := now, passes := s.passes ++ [now] }.answer t now true seen
      else s.answer t now false seen
    | _ => s

/-- The states, from the start at a second after the clock's zero. -/
inductive Reach : RateLimit → Prop
  | start {now : ℤ} (h : 0 < now) : Reach { clock := now }
  | step {s : RateLimit} (ev : PassEvent) (h : Reach s) : Reach (s.step interval ev)

/-- `last` is the clock of the last message. A call that goes on has found the
interval over. -/
structure Inv (s : RateLimit) : Prop where
  clock : 0 < s.clock
  last : s.last = s.passes.getLast?.getD 0
  pos : ∀ p ∈ s.passes, 0 < p
  spaced : s.passes.Pairwise fun p q => p + interval ≤ q
  timed : ∀ t now, s.pcs t = .timed now → 0 < now
  loaded : ∀ t now prev seen, s.pcs t = .loaded now prev seen →
    0 < now ∧ (prev = 0 ∨ prev + interval ≤ now) ∧ seen ≤ s.passes.length ∧
      prev = (s.passes.take seen).getLast?.getD 0
  calls : ∀ x ∈ s.calls, x.seen ≤ x.till ∧ x.till ≤ s.passes.length ∧ (x.passed = false →
    x.seen < x.till ∨ ∃ p, (s.passes.take x.seen).getLast? = some p ∧ x.now - p < interval)

variable {interval} {s : RateLimit}

theorem Inv.start {now : ℤ} (h : 0 < now) : Inv interval { clock := now } :=
  ⟨h, rfl, fun _ hp => absurd hp List.not_mem_nil, List.Pairwise.nil, fun _ _ ht => (nomatch ht),
    fun _ _ _ _ ht => (nomatch ht), fun _ hx => absurd hx List.not_mem_nil⟩

/-- `last` is zero only before the first message. -/
theorem Inv.getLast (h : Inv interval s) (hl : s.last ≠ 0) : s.passes.getLast? = some s.last := by
  have hlast := h.last
  cases hg : s.passes.getLast? with
  | none =>
    rw [hg] at hlast
    exact absurd hlast hl
  | some p =>
    rw [hg] at hlast
    rw [hlast]
    rfl

theorem Inv.passes_eq_nil (h : Inv interval s) (hl : s.last = 0) : s.passes = [] := by
  by_contra hne
  have hlast := h.last
  rw [List.getLast?_eq_some_getLast hne] at hlast
  have := h.pos _ (List.getLast_mem hne)
  simp only [Option.getD_some] at hlast
  omega

/-- All messages are at least an interval before a call that has found the last one so. -/
theorem Inv.before (h : Inv interval s) (hi : 0 ≤ interval) {now : ℤ} (hnow : s.last = 0 ∨ s.last + interval ≤ now) :
    ∀ p ∈ s.passes, p + interval ≤ now := by
  intro p hp
  by_cases hl : s.last = 0
  · rw [h.passes_eq_nil hl] at hp
    exact absurd hp List.not_mem_nil
  have hnow := hnow.resolve_left hl
  obtain ⟨l, hsplit⟩ := List.getLast?_eq_some_iff.mp (h.getLast hl)
  have hspaced := h.spaced
  rw [hsplit, List.pairwise_append] at hspaced
  rw [hsplit] at hp
  rcases List.mem_append.mp hp with hp | hp
  · have := hspaced.2.2 p hp s.last List.mem_cons_self
    omega
  · rw [List.mem_singleton.mp hp]
    exact hnow

/-- The places of the other threads stay. -/
theorem pcs_of_update {t j : ℕ} {pc pc' : PassPc} (hj : Function.update s.pcs t pc j = pc') :
    j = t ∧ pc = pc' ∨ j ≠ t ∧ s.pcs j = pc' := by
  by_cases hjt : j = t
  · subst hjt
    rw [Function.update_self] at hj
    exact .inl ⟨rfl, hj⟩
  · rw [Function.update_of_ne hjt] at hj
    exact .inr ⟨hjt, hj⟩

/-- A call comes to another point. -/
theorem Inv.setPc (h : Inv interval s) (t : ℕ) (pc : PassPc) (htimed : ∀ now, pc = .timed now → 0 < now)
    (hloaded : ∀ now prev seen, pc = .loaded now prev seen → 0 < now ∧ (prev = 0 ∨ prev + interval ≤ now) ∧
      seen ≤ s.passes.length ∧ prev = (s.passes.take seen).getLast?.getD 0) :
    Inv interval { s with pcs := Function.update s.pcs t pc } := by
  refine ⟨h.clock, h.last, h.pos, h.spaced, fun j now hj => ?_, fun j now prev seen hj => ?_, h.calls⟩
  · rcases pcs_of_update hj with ⟨-, hpc⟩ | ⟨-, hj⟩
    · exact htimed now hpc
    · exact h.timed j now hj
  · rcases pcs_of_update hj with ⟨-, hpc⟩ | ⟨-, hj⟩
    · exact hloaded now prev seen hpc
    · exact h.loaded j now prev seen hj

/-- A call returns. -/
theorem Inv.answer (h : Inv interval s) (t : ℕ) (now : ℤ) {passed : Bool} {seen : ℕ} (hseen : seen ≤ s.passes.length)
    (hno : passed = false →
      seen < s.passes.length ∨ ∃ p, (s.passes.take seen).getLast? = some p ∧ now - p < interval) :
    Inv interval (s.answer t now passed seen) := by
  have hI := h.setPc t .out (fun _ e => (nomatch e)) fun _ _ _ e => (nomatch e)
  refine ⟨hI.clock, hI.last, hI.pos, hI.spaced, hI.timed, hI.loaded, fun x hx => ?_⟩
  rcases List.mem_append.mp hx with hx | hx
  · exact h.calls x hx
  · rw [List.mem_singleton.mp hx]
    exact ⟨hseen, le_rfl, hno⟩

/-- A message gets through. -/
theorem Inv.pass (h : Inv interval s) (hi : 0 ≤ interval) {now : ℤ} (hpos : 0 < now)
    (hnow : s.last = 0 ∨ s.last + interval ≤ now) :
    Inv interval { s with last := now, passes := s.passes ++ [now] } := by
  have htake : ∀ n ≤ s.passes.length, (s.passes ++ [now]).take n = s.passes.take n := fun n hn =>
    List.take_append_of_le_length hn
  have hlen : (s.passes ++ [now]).length = s.passes.length + 1 := by simp
  refine ⟨h.clock, by simp, fun p hp => ?_, ?_, h.timed, fun j now' prev seen hj => ?_, fun x hx => ?_⟩
  · rcases List.mem_append.mp hp with hp | hp
    · exact h.pos p hp
    · rw [List.mem_singleton.mp hp]
      exact hpos
  · refine List.pairwise_append.mpr ⟨h.spaced, List.pairwise_singleton _ _, fun p hp q hq => ?_⟩
    rw [List.mem_singleton.mp hq]
    exact h.before hi hnow p hp
  · obtain ⟨h1, h2, h3, h4⟩ := h.loaded j now' prev seen hj
    refine ⟨h1, h2, ?_, ?_⟩
    · rw [hlen]
      omega
    · rw [htake seen h3]
      exact h4
  · obtain ⟨h1, h2, h3⟩ := h.calls x hx
    refine ⟨h1, ?_, fun hno => ?_⟩
    · rw [hlen]
      omega
    · rw [htake x.seen (h1.trans h2)]
      exact h3 hno

theorem Inv.step (hi : 0 ≤ interval) (h : Inv interval s) (ev : PassEvent) : Inv interval (s.step interval ev) := by
  unfold RateLimit.step
  cases ev with
  | tick =>
    refine ⟨?_, h.last, h.pos, h.spaced, h.timed, h.loaded, h.calls⟩
    have := h.clock
    show 0 < s.clock + 1
    omega
  | start t =>
    dsimp only
    split
    · exact h.setPc t _ (fun now e => PassPc.timed.inj e ▸ h.clock) fun _ _ _ e => (nomatch e)
    · exact h
  | load t =>
    dsimp only
    split
    · rename_i now hpc
      split
      · rename_i hno
        refine h.answer t now le_rfl fun _ => .inr ⟨s.last, ?_, hno.2⟩
        rw [List.take_length]
        exact h.getLast hno.1
      · rename_i hgo
        refine h.setPc t _ (fun _ e => (nomatch e)) fun now' prev seen e => ?_
        obtain ⟨rfl, rfl, rfl⟩ := PassPc.loaded.inj e
        refine ⟨h.timed t now hpc, ?_, le_rfl, ?_⟩
        · by_cases hl : s.last = 0
          · exact .inl hl
          · exact .inr (by have := fun hlt => hgo ⟨hl, hlt⟩; omega)
        · rw [List.take_length]
          exact h.last
    · exact h
  | exchange t =>
    dsimp only
    split
    · rename_i now prev seen hpc
      obtain ⟨hpos, hprev, hseen, hlast⟩ := h.loaded t now prev seen hpc
      split
      · rename_i heq
        rw [← heq] at hprev
        refine (h.pass hi hpos hprev).answer t now ?_ fun hno => (nomatch hno)
        show seen ≤ (s.passes ++ [now]).length
        rw [List.length_append]
        omega
      · rename_i hne
        -- `last` is another one: a message has got through since it was loaded
        refine h.answer t now hseen fun _ => .inl (lt_of_le_of_ne hseen fun heq => hne ?_)
        rw [hlast, heq, List.take_length]
        exact h.last
    · exact h

theorem reach_inv (hi : 0 ≤ interval) (h : Reach interval s) : Inv interval s := by
  induction h with
  | start h => exact .start h
  | step ev _ ih => exact ih.step hi ev

/-- **Two messages are an interval apart**, however the calls of the threads come
between each other: there are no two of them within one interval. -/
theorem passes_spaced (hi : 0 ≤ interval) (h : Reach interval s) :
    s.passes.Pairwise (fun p q => p + interval ≤ q) ∧ ∀ a : ℤ,
      (s.passes.filter fun p => a ≤ p ∧ p < a + interval).length ≤ 1 := by
  have hI := reach_inv hi h
  refine ⟨hI.spaced, fun a => ?_⟩
  have hspaced := hI.spaced.sublist (List.filter_sublist (p := fun p => a ≤ p ∧ p < a + interval))
  have hin : ∀ p ∈ s.passes.filter (fun p => a ≤ p ∧ p < a + interval), a ≤ p ∧ p < a + interval := by
    intro p hp
    simpa using (List.mem_filter.mp hp).2
  generalize s.passes.filter (fun p => a ≤ p ∧ p < a + interval) = l at hspaced hin ⊢
  rcases l with _ | ⟨p, _ | ⟨q, l⟩⟩
  · simp
  · simp
  · -- the second one is beyond the window
    have h1 := (hin p List.mem_cons_self).1
    have h2 := (hin q (List.mem_cons_of_mem p List.mem_cons_self)).2
    have h3 := List.rel_of_pairwise_cons hspaced List.mem_cons_self
    omega

/-- Two threads ask in the same second, and one of them is let through. Another one
asks nine seconds later, and one ten seconds later. -/
def fourCallEvents : List PassEvent :=
  [.start 0, .start 1, .load 0, .load 1, .exchange 1, .exchange 0] ++ List.replicate 9 .tick ++ [.start 2, .load 2] ++
    [.tick, .start 3, .load 3, .exchange 3]

def fourCalls : RateLimit := fourCallEvents.foldl (RateLimit.step 10) { clock := 1 }

theorem Reach.run {evs : List PassEvent} (h : Reach interval s) :
    Reach interval (evs.foldl (RateLimit.step interval) s) := by
  induction evs generalizing s with
  | nil => exact h
  | cons ev evs ih => exact ih (.step ev h)

theorem fourCalls_reach : Reach 10 fourCalls := Reach.run (.start (by decide))

theorem passes_spaced_fourCalls : fourCalls.passes = [1, 11] ∧
    fourCalls.passes.Pairwise fun p q => p + 10 ≤ q :=
  ⟨by decide, (passes_spaced (by decide) fourCalls_reach).1⟩

/-- **No message is held back for nothing.** A call that gets no has loaded `last` when
the last message was less than an interval old, or another message has got through
between its load and its return. -/
theorem held_back (hi : 0 ≤ interval) (h : Reach interval s) {x : PassCall} (hx : x ∈ s.calls)
    (hno : x.passed = false) :
    (∃ p ∈ s.passes.take x.seen, x.now - p < interval) ∨ x.seen < x.till ∧ x.till ≤ s.passes.length := by
  obtain ⟨-, htill, hcase⟩ := (reach_inv hi h).calls x hx
  rcases hcase hno with hlt | ⟨p, hp, hold⟩
  · exact .inr ⟨hlt, htill⟩
  · exact .inl ⟨p, List.mem_of_getLast? hp, hold⟩

/-- The first call loses to the second one, the third comes too early. -/
theorem held_back_fourCalls : fourCalls.calls.map (fun x => (x.now, x.passed)) =
      [(1, true), (1, false), (10, false), (11, true)] ∧
    ∀ x ∈ fourCalls.calls, x.passed = false →
      (∃ p ∈ fourCalls.passes.take x.seen, x.now - p < 10) ∨ x.seen < x.till ∧ x.till ≤ fourCalls.passes.length :=
  ⟨by decide, fun _ hx hno => held_back (by decide) fourCalls_reach hx hno⟩

end RateLimit

end L4Lb
