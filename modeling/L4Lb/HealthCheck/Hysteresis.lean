/-
# The two thresholds of a probe

`HealthChecker::result` keeps two counters of 32 bits that are reset by each
other and go on counting past their thresholds. What they are for is said
without them: a healthy server turns down at the failure that completes `fall`
failures in a row, a server that is down turns up at the success that completes
`rise` successes in a row, and at no other result (`hysteresis`). The histories
here have the last result first.

The counters are the lengths of the two runs at the end of the history, modulo
2^32. A run only matters while it is below its threshold, so that the counters
wrap does no harm.
-/
import L4Lb.HealthCheck

namespace L4Lb

/-- The probe after the results, in their order. -/
def Probe.results (conf : HealthConf) (p : Probe) (oks : List Bool) : Probe := oks.foldl (Probe.result conf) p

/-- The health of a server after the results of `history`, last first, if it
was `initial` before them. -/
def hysteresis (fall rise : ℕ) (initial : Bool) : List Bool → Bool
  | [] => initial
  | ok :: past =>
    if hysteresis fall rise initial past then !decide (List.replicate fall false <+: ok :: past)
    else decide (List.replicate rise true <+: ok :: past)

/-! ### Runs -/

/-- How often `b` stands at the head of the history. -/
def runLength (b : Bool) (history : List Bool) : ℕ := (history.takeWhile (· == b)).length

theorem runLength_cons_self (b : Bool) (past : List Bool) : runLength b (b :: past) = runLength b past + 1 := by
  simp [runLength]

theorem runLength_cons_ne {b ok : Bool} (h : ok ≠ b) (past : List Bool) : runLength b (ok :: past) = 0 := by
  simp [runLength, h]

theorem replicate_prefix_iff (b : Bool) : ∀ (n : ℕ) (history : List Bool),
    List.replicate n b <+: history ↔ n ≤ runLength b history
  | 0, history => by simp
  | n + 1, [] => by simp [runLength]
  | n + 1, ok :: past => by
    rw [List.replicate_succ, List.cons_prefix_cons, replicate_prefix_iff b n past]
    by_cases h : ok = b
    · subst h
      rw [runLength_cons_self]
      simp
    · rw [runLength_cons_ne h]
      simp [Ne.symm h]

/-! ### The counters -/

namespace Probe

/-- The probe has seen the history: its counters are the runs, and the one
that may change its health is below its threshold. -/
structure Tracks (conf : HealthConf) (initial : Bool) (history : List Bool) (p : Probe) : Prop where
  ok : p.ok = runLength true history % 2 ^ 32
  fail : p.fail = runLength false history % 2 ^ 32
  healthy : p.healthy = hysteresis conf.fall conf.rise initial history
  up : p.healthy = true → runLength false history < conf.fall
  down : p.healthy = false → runLength true history < conf.rise

variable {conf : HealthConf} {initial : Bool} {history : List Bool} {p : Probe}

/-- A counter one further, as long as the run is below a threshold of 32 bits. -/
theorem count_eq {count run threshold : ℕ} (hcount : count = run % 2 ^ 32) (hlt : run < threshold)
    (ht : threshold < 2 ^ 32) : (count + 1) % 2 ^ 32 = run + 1 := by
  rw [hcount, Nat.mod_add_mod, Nat.mod_eq_of_lt (by omega)]

/-- A success may complete a run of successes, and ends one of failures. -/
theorem Tracks.success (hfall : 0 < conf.fall) (hrise' : conf.rise < 2 ^ 32) (h : p.Tracks conf initial history) :
    (p.result conf true).Tracks conf initial (true :: history) := by
  obtain ⟨hok, hfail, hhealthy, hup, hdown⟩ := h
  have hzero : runLength false (true :: history) = 0 := runLength_cons_ne (by decide) history
  have hrun : runLength true (true :: history) = runLength true history + 1 := runLength_cons_self true history
  have hcount : (p.ok + 1) % 2 ^ 32 = runLength true (true :: history) % 2 ^ 32 := by
    rw [hok, hrun, Nat.mod_add_mod]
  have hreset : (p.result conf true).fail = runLength false (true :: history) % 2 ^ 32 := by
    rw [hzero]
    rfl
  cases hp : p.healthy with
  | true =>
    have hnew : (p.result conf true).healthy = true := by simp [Probe.result, hp]
    refine ⟨hcount, hreset, ?_, fun _ => by omega, fun hd => ?_⟩
    · have hno : ¬ List.replicate conf.fall false <+: true :: history := by
        rw [replicate_prefix_iff, hzero]
        omega
      rw [hnew, hysteresis, ← hhealthy, hp, if_pos rfl, decide_eq_false hno]
      rfl
    · rw [hnew] at hd
      cases hd
  | false =>
    have hnew : (p.result conf true).healthy = decide (conf.rise ≤ runLength true (true :: history)) := by
      show (p.healthy || decide ((p.ok + 1) % 2 ^ 32 ≥ conf.rise)) = _
      rw [hp, Bool.false_or, count_eq hok (hdown hp) hrise', hrun]
    refine ⟨hcount, hreset, ?_, fun _ => by omega, fun hd => ?_⟩
    · rw [hnew, hysteresis, ← hhealthy, hp, if_neg (by decide), decide_eq_decide, replicate_prefix_iff]
    · rw [hnew, decide_eq_false_iff_not] at hd
      omega

/-- A failure may complete a run of failures, and ends one of successes. -/
theorem Tracks.failure (hrise : 0 < conf.rise) (hfall' : conf.fall < 2 ^ 32) (h : p.Tracks conf initial history) :
    (p.result conf false).Tracks conf initial (false :: history) := by
  obtain ⟨hok, hfail, hhealthy, hup, hdown⟩ := h
  have hzero : runLength true (false :: history) = 0 := runLength_cons_ne (by decide) history
  have hrun : runLength false (false :: history) = runLength false history + 1 := runLength_cons_self false history
  have hcount : (p.fail + 1) % 2 ^ 32 = runLength false (false :: history) % 2 ^ 32 := by
    rw [hfail, hrun, Nat.mod_add_mod]
  have hreset : (p.result conf false).ok = runLength true (false :: history) % 2 ^ 32 := by
    rw [hzero]
    rfl
  cases hp : p.healthy with
  | false =>
    have hnew : (p.result conf false).healthy = false := by simp [Probe.result, hp]
    refine ⟨hreset, hcount, ?_, fun hu => ?_, fun _ => by omega⟩
    · have hno : ¬ List.replicate conf.rise true <+: false :: history := by
        rw [replicate_prefix_iff, hzero]
        omega
      rw [hnew, hysteresis, ← hhealthy, hp, if_neg (by decide), decide_eq_false hno]
    · rw [hnew] at hu
      cases hu
  | true =>
    have hnew : (p.result conf false).healthy = !decide (conf.fall ≤ runLength false (false :: history)) := by
      show (p.healthy && !decide ((p.fail + 1) % 2 ^ 32 ≥ conf.fall)) = _
      rw [hp, Bool.true_and, count_eq hfail (hup hp) hfall', hrun]
    refine ⟨hreset, hcount, ?_, fun hu => ?_, fun _ => by omega⟩
    · rw [hnew, hysteresis, ← hhealthy, hp, if_pos rfl, decide_eq_decide.mpr (replicate_prefix_iff ..)]
    · rw [hnew, Bool.not_eq_true', decide_eq_false_iff_not] at hu
      omega

/-- **`result` is the hysteresis of its two thresholds.** A probe that starts
with both counters at 0 has, after any results, the health that the runs in
them give it. -/
theorem results_hysteresis {conf : HealthConf} (hfall : 1 ≤ conf.fall) (hfall' : conf.fall < 2 ^ 32)
    (hrise : 1 ≤ conf.rise) (hrise' : conf.rise < 2 ^ 32) {p : Probe} (hok : p.ok = 0) (hfail : p.fail = 0)
    (oks : List Bool) :
    (p.results conf oks).healthy = hysteresis conf.fall conf.rise p.healthy oks.reverse := by
  have hrun : ∀ (oks history : List Bool) (q : Probe), q.Tracks conf p.healthy history →
      (q.results conf oks).Tracks conf p.healthy (oks.reverse ++ history) := by
    intro oks
    induction oks with
    | nil => exact fun history q h => h
    | cons ok oks ih =>
      intro history q h
      have hnext : (q.result conf ok).Tracks conf p.healthy (ok :: history) := by
        cases ok with
        | true => exact h.success hfall hrise'
        | false => exact h.failure hrise hfall'
      have := ih (ok :: history) _ hnext
      rwa [List.reverse_cons, List.append_assoc]
  have hfresh : p.Tracks conf p.healthy [] := ⟨hok, hfail, rfl, fun _ => hfall, fun _ => hrise⟩
  have := (hrun oks [] p hfresh).healthy
  rwa [List.append_nil] at this

/-- Three failures in a row take a server down, two successes bring it back. -/
theorem results_hysteresis_flap :
    (Probe.results {} {} [false, false, true, false, false, false]).healthy = false ∧
      hysteresis 3 2 true [false, false, false, true, false, false] = false ∧
      (Probe.results {} {} [false, false, true, false, false, false, true, true]).healthy = true := by
  refine ⟨(results_hysteresis (by decide) (by decide) (by decide) (by decide) rfl rfl _).trans (by decide),
    by decide, (results_hysteresis (by decide) (by decide) (by decide) (by decide) rfl rfl _).trans (by decide)⟩

end Probe

end L4Lb
