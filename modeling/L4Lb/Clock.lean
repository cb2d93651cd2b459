/-
# The clock of the workers and of the master

`worker_loop` (`src/dataplane/worker.cpp`) and `master_loop`
(`src/dataplane/master.cpp`) turn a reading of the time stamp counter into
`now_ms` and `now_tick`, by the same two lines. The product with 1000 is taken
in 64 bits before the division, so the values are the exact ones, and do not
go back, precisely as long as it fits (`now_exact_iff`).
-/
import L4Lb.Session.Wheel

namespace L4Lb

/-- `start_tsc` and `tsc_hz`, which `main` sets once. -/
structure Tsc where
  startTsc : UInt64
  tscHz : UInt64

/-- `now_ms` and `now_tick` of a worker or of the master. -/
structure Now where
  ms : UInt64
  tick : UInt64
deriving DecidableEq, Repr

namespace Tsc

/-- The clock of one turn of the loop, from its reading of the counter. -/
def now (c : Tsc) (tsc : UInt64) : Now :=
  let nowMs := (tsc - c.startTsc) * 1000 / c.tscHz
  ⟨nowMs, 1 + nowMs / 1000⟩

/-- The cycles since the start. -/
def elapsed (c : Tsc) (tsc : UInt64) : ℕ := (tsc - c.startTsc).toNat

/-- The clock shows the time, over the integers. -/
def Exact (c : Tsc) (tsc : UInt64) : Prop :=
  (c.now tsc).ms.toNat = 1000 * c.elapsed tsc / c.tscHz.toNat ∧
    (c.now tsc).tick.toNat = 1 + (1000 * c.elapsed tsc / c.tscHz.toNat) / 1000

variable (c : Tsc)

theorem ms_toNat (tsc : UInt64) :
    (c.now tsc).ms.toNat = 1000 * c.elapsed tsc % 2 ^ 64 / c.tscHz.toNat := by
  simp [now, elapsed, UInt64.toNat_div, UInt64.toNat_mul, Nat.mul_comm]

theorem tick_toNat (tsc : UInt64) : (c.now tsc).tick.toNat = 1 + (c.now tsc).ms.toNat / 1000 := by
  have h := (c.now tsc).ms.toNat_lt
  have hsum : (1 + (c.now tsc).ms / 1000).toNat = (1 + (c.now tsc).ms.toNat / 1000) % 2 ^ 64 := by
    simp [UInt64.toNat_add, UInt64.toNat_div]
  change (1 + (c.now tsc).ms / 1000).toNat = _
  rw [hsum, Nat.mod_eq_of_lt (by omega)]

/-- Cutting a dividend to 64 bits changes the quotient by a 64-bit divisor,
if it changes the dividend. -/
theorem mod_div_eq_iff {n d : ℕ} (hd : 0 < d) (hlt : d < 2 ^ 64) :
    n % 2 ^ 64 / d = n / d ↔ n < 2 ^ 64 := by
  constructor
  · intro h
    by_contra hge
    have h1 : n % 2 ^ 64 + d ≤ n := by omega
    have h2 : (n % 2 ^ 64 + d) / d ≤ n / d := Nat.div_le_div_right h1
    rw [Nat.add_div_right _ hd] at h2
    omega
  · intro h
    rw [Nat.mod_eq_of_lt h]

theorem exact_iff (hz : 0 < c.tscHz) (tsc : UInt64) : c.Exact tsc ↔ 1000 * c.elapsed tsc < 2 ^ 64 := by
  have hd : 0 < c.tscHz.toNat := hz
  have hiff := mod_div_eq_iff (n := 1000 * c.elapsed tsc) hd c.tscHz.toNat_lt
  unfold Exact
  rw [tick_toNat, ms_toNat]
  constructor
  · rintro ⟨h, -⟩
    exact hiff.mp h
  · intro h
    rw [hiff.mpr h]
    exact ⟨rfl, rfl⟩

/-- Where the clock is exact, a later reading shows a later time. -/
theorem now_mono {a b : UInt64} (hab : c.elapsed a ≤ c.elapsed b) (hb : 1000 * c.elapsed b < 2 ^ 64) :
    (c.now a).ms ≤ (c.now b).ms ∧ (c.now a).tick ≤ (c.now b).tick := by
  have hms : (c.now a).ms.toNat ≤ (c.now b).ms.toNat := by
    rw [ms_toNat, ms_toNat, Nat.mod_eq_of_lt (by omega), Nat.mod_eq_of_lt hb]
    exact Nat.div_le_div_right (by omega)
  refine ⟨hms, ?_⟩
  rw [UInt64.le_iff_toNat_le, tick_toNat, tick_toNat]
  exact Nat.add_le_add_left (Nat.div_le_div_right hms) 1

/-- **The clock is right, and never goes back, as long as the product fits.**
For the readings of a run, in order: every time computed is the exact one and
the times do not decrease, if and only if 1000 times the cycles elapsed stays
below 2^64. -/
theorem now_exact_iff (hz : 0 < c.tscHz) (readings : List UInt64)
    (hmono : readings.Pairwise fun a b => c.elapsed a ≤ c.elapsed b) :
    ((∀ tsc ∈ readings, c.Exact tsc) ∧
        (readings.map c.now).Pairwise fun a b => a.ms ≤ b.ms ∧ a.tick ≤ b.tick) ↔
      ∀ tsc ∈ readings, 1000 * c.elapsed tsc < 2 ^ 64 := by
  constructor
  · rintro ⟨h, -⟩ tsc htsc
    exact (c.exact_iff hz tsc).mp (h tsc htsc)
  · intro h
    refine ⟨fun tsc htsc => (c.exact_iff hz tsc).mpr (h tsc htsc), ?_⟩
    rw [List.pairwise_map]
    exact hmono.imp_of_mem fun _ hb hab => c.now_mono hab (h _ hb)

/-- Two readings a day apart, at 2 GHz. -/
theorem now_exact_day : ((⟨0, 2000000000⟩ : Tsc).Exact 5 ∧ (⟨0, 2000000000⟩ : Tsc).Exact 172800000000005) := by
  have h := (now_exact_iff ⟨0, 2000000000⟩ (by decide) [5, 172800000000005] (by decide)).mpr (by
    simp only [List.forall_mem_cons, List.not_mem_nil, false_implies, implies_true, and_true]
    decide)
  exact ⟨h.1 _ (by simp), h.1 _ (by simp)⟩

/-- At 2 GHz the product wraps after 106 days: from one cycle to the next
`now_ms` falls from 9223372036 to 0, and `now_tick` from 9223373 to 1. -/
theorem now_goes_back :
    (⟨0, 2000000000⟩ : Tsc).now 18446744073709551 = ⟨9223372036, 9223373⟩ ∧
    (⟨0, 2000000000⟩ : Tsc).now 18446744073709552 = ⟨0, 1⟩ ∧
    ¬ (⟨0, 2000000000⟩ : Tsc).Exact 18446744073709552 := by
  refine ⟨by decide, by decide, fun h => ?_⟩
  have := (exact_iff ⟨0, 2000000000⟩ (by decide) _).mp h
  revert this
  decide

/-- Until then the ticks of a worker are ones its session table can take: the
next `expire` is one a run may contain. -/
theorem expire_timed {a b : UInt64} (hab : c.elapsed a ≤ c.elapsed b)
    (hb : 1000 * c.elapsed b < 2 ^ 64) :
    (SessionTable.Op.expire (c.now b).tick.toNat).Timed (c.now a).tick.toNat (c.now b).tick.toNat := by
  refine ⟨rfl, (c.now_mono hab hb).2, ?_⟩
  have h := (c.now b).ms.toNat_lt
  rw [tick_toNat]
  unfold SessionTable.kMaxTick
  omega

end Tsc
end L4Lb
