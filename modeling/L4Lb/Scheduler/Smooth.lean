/-
# The shares of weighted round robin

`build_wrr` unrolls smooth weighted round robin (`Lib/SmoothRoundRobin.lean`):
the running credits of the loop are what the backends are owed, and each entry
of the sequence is a backend that is owed most. So the sequence holds every
backend exactly as often as its share says, the picks of a worker that goes
once round the table do too wherever it starts, and at no point of the sequence
are two backends of the same weight more than one entry apart.

A table entry is a `uint16_t`; the entries are below the number of backends,
of which a service has at most 256.
-/
import L4Lb.Scheduler.Built
import L4Lb.Lib.SmoothRoundRobin
import Mathlib.Algebra.BigOperators.Fin
import Mathlib.Algebra.GCDMonoid.Finset
import Mathlib.Algebra.GCDMonoid.Nat
import Mathlib.Data.List.GetD
import Mathlib.Data.List.Rotate

open Checked SmoothRoundRobin

namespace L4Lb

/-! ### The credits -/

section Loop

variable (w : ℕ → ℕ)

/-- Each of the backends gains its weight. -/
theorem wrrScan_credit : ∀ (n : ℕ) (cur : ℕ → ℤ) (i : ℕ),
    (wrrScan w n cur).1 i = if i < n then cur i + w i else cur i
  | 0, cur, i => by simp [wrrScan]
  | n + 1, cur, i => by
    have ih := wrrScan_credit n cur
    unfold wrrScan
    simp only
    by_cases hi : i = n
    · subst hi
      rw [Function.update_self, ih, if_neg (lt_irrefl i), if_pos (Nat.lt_succ_self i)]
    · rw [Function.update_of_ne hi, ih]
      have : i < n ↔ i < n + 1 := by omega
      simp only [this]

/-- The inner loop ends at the backend with the most credit. -/
theorem wrrScan_max : ∀ (n : ℕ) (cur : ℕ → ℤ) (j : ℕ), j < n → w j ≠ 0 →
    cur j + w j ≤ cur (wrrScan w n cur).2 + w (wrrScan w n cur).2
  | 0, _, j, hj, _ => by omega
  | i + 1, cur, j, hj, hw => by
    have hle := wrrScan_le w i cur
    have hcur := wrrScan_credit w i cur
    unfold wrrScan
    simp only
    set best := (wrrScan w i cur).2
    have hnew : (Function.update (wrrScan w i cur).1 i ((wrrScan w i cur).1 i + w i)) i = cur i + w i := by
      rw [Function.update_self, hcur, if_neg (lt_irrefl i)]
    rcases Nat.eq_zero_or_pos i with hi | hi
    · -- the first backend
      obtain rfl : j = 0 := by omega
      have hbest : best = 0 := by omega
      rw [hbest, hi]
      split <;> exact le_rfl
    have hold : (Function.update (wrrScan w i cur).1 i ((wrrScan w i cur).1 i + w i)) best = cur best + w best := by
      rw [Function.update_of_ne (by omega), hcur, if_pos (by omega)]
    rw [hnew, hold]
    by_cases hji : j = i
    · subst hji
      split
      · exact le_rfl
      · rename_i hno
        by_contra hlt
        exact hno ⟨hw, Or.inr (not_le.mp hlt)⟩
    · have ih := wrrScan_max i cur j (by omega) hw
      split
      · rename_i hyes
        rcases hyes.2 with h0 | hgt
        · exact absurd h0 (wrrScan_weight w i cur j (by omega) hw)
        · exact ih.trans hgt.le
      · exact ih

/-- The loop goes on with picks of those that are owed most. -/
theorem wrrLoop_greedy {w : ℕ → ℕ} {n j : ℕ} (hj : j < n) (hw : w j ≠ 0) (hn : n ≤ 2 ^ 16) :
    ∀ (k : ℕ) (l : List ℕ) (cur : ℕ → ℤ), Greedy (Finset.range n) w l →
      (∀ i < n, cur i = owed (Finset.range n) w l i) →
      Greedy (Finset.range n) w (l ++ wrrLoop w n (total (Finset.range n) w) k cur)
  | 0, l, _, h, _ => by rwa [wrrLoop, List.append_nil]
  | k + 1, l, cur, h, hcur => by
    have hbest : (wrrScan w n cur).2 < n := by
      have := wrrScan_le w n cur
      omega
    have hcredit := wrrScan_credit w n cur
    have hgreedy : Greedy (Finset.range n) w (l ++ [(wrrScan w n cur).2]) := by
      refine .snoc h (Finset.mem_range.mpr hbest) (wrrScan_weight w n cur j hj hw) fun i hi hwi => ?_
      rw [← hcur i (Finset.mem_range.mp hi), ← hcur _ hbest]
      exact wrrScan_max w n cur i (Finset.mem_range.mp hi) hwi
    have hrest := wrrLoop_greedy hj hw hn k _
      (Function.update (wrrScan w n cur).1 (wrrScan w n cur).2
        ((wrrScan w n cur).1 (wrrScan w n cur).2 - total (Finset.range n) w)) hgreedy fun i hi => by
      rw [owed_snoc, ← hcur i hi]
      by_cases hib : i = (wrrScan w n cur).2
      · rw [← hib, Function.update_self, hcredit, if_pos hi, if_pos rfl]
      · rw [Function.update_of_ne hib, hcredit, if_pos hi, if_neg hib, sub_zero]
    rw [List.append_assoc] at hrest
    simp only [wrrLoop, wrrScan_mod (by omega : 0 < n) hn]
    exact hrest

end Loop

/-! ### The weights -/

/-- The weight of the backend at `i`. -/
def weightAt (b : List SchedBackend) (i : ℕ) : ℕ := (b[i]?).elim 0 (·.weight)

/-- The weights divided by their greatest common divisor. -/
def reduced (b : List SchedBackend) (i : ℕ) : ℕ := weightAt b i / (Finset.range b.length).gcd (weightAt b)

/-- How often the sequence is to hold backend `i`. -/
def wrrShare (b : List SchedBackend) (i : ℕ) : ℕ :=
  let sum := ∑ j ∈ Finset.range b.length, reduced b j
  if sum ≤ kWrrMaxSeq then reduced b i
  else if reduced b i = 0 then 0
  else max 1 (reduced b i * kWrrMaxSeq / sum)

theorem dvd_foldl_gcd {d : ℕ} : ∀ (l : List ℕ) (a : ℕ), d ∣ a → (∀ x ∈ l, d ∣ x) → d ∣ l.foldl Nat.gcd a
  | [], _, ha, _ => ha
  | y :: l, _, ha, hl => dvd_foldl_gcd l _ (Nat.dvd_gcd ha (hl y List.mem_cons_self))
      fun x hx => hl x (List.mem_cons_of_mem y hx)

/-- The loop computes the greatest common divisor. -/
theorem foldl_gcd_eq (b : List SchedBackend) :
    (b.map (·.weight)).foldl Nat.gcd 0 = (Finset.range b.length).gcd (weightAt b) := by
  obtain ⟨-, hdvd⟩ := foldl_gcd_dvd (b.map (·.weight)) 0
  apply Nat.dvd_antisymm
  · refine Finset.dvd_gcd fun i hi => ?_
    have hi := Finset.mem_range.mp hi
    rw [weightAt, List.getElem?_eq_getElem hi]
    exact hdvd _ (List.mem_map_of_mem (List.getElem_mem hi))
  · refine dvd_foldl_gcd _ _ (dvd_zero _) fun x hx => ?_
    obtain ⟨y, hy, rfl⟩ := List.mem_map.mp hx
    obtain ⟨i, hi, rfl⟩ := List.mem_iff_getElem.mp hy
    have := Finset.gcd_dvd (f := weightAt b) (Finset.mem_range.mpr hi)
    rwa [weightAt, List.getElem?_eq_getElem hi] at this

theorem sum_range_getD (l : List ℕ) : ∑ i ∈ Finset.range l.length, l.getD i 0 = l.sum := by
  rw [Finset.sum_range, ← Fin.sum_univ_getElem]
  exact Finset.sum_congr rfl fun i _ => List.getD_eq_getElem l 0 i.isLt

/-- The weights after the division. -/
theorem getD_map_div (b : List SchedBackend) (i : ℕ) :
    ((b.map (·.weight)).map (· / (b.map (·.weight)).foldl Nat.gcd 0)).getD i 0 = reduced b i := by
  rw [foldl_gcd_eq, reduced, weightAt, List.getD_eq_getElem?_getD, List.getElem?_map, List.getElem?_map]
  cases b[i]? with
  | none => exact (Nat.zero_div _).symm
  | some x => rfl

/-- Their sum is the divided sum. -/
theorem sum_reduced (b : List SchedBackend) : ∑ i ∈ Finset.range b.length, reduced b i =
    (b.map (·.weight)).sum / (b.map (·.weight)).foldl Nat.gcd 0 := by
  have hsum : (b.map (·.weight)).sum = ∑ i ∈ Finset.range b.length, weightAt b i := by
    rw [← sum_range_getD, List.length_map]
    refine Finset.sum_congr rfl fun i _ => ?_
    rw [weightAt, List.getD_eq_getElem?_getD, List.getElem?_map]
    cases b[i]? <;> rfl
  rw [foldl_gcd_eq, hsum]
  exact (Nat.sum_div fun i hi => Finset.gcd_dvd hi).symm

/-- The weights `build_wrr` uses are the shares. -/
theorem wrrWeights_getD (b : List SchedBackend) (i : ℕ) : (wrrWeights b).1.getD i 0 = wrrShare b i := by
  have hget := getD_map_div b i
  unfold wrrWeights wrrShare
  simp only [sum_reduced]
  by_cases hlong : (b.map (·.weight)).sum / (b.map (·.weight)).foldl Nat.gcd 0 > kWrrMaxSeq
  · rw [if_pos hlong, if_neg (by omega), ← hget, List.getD_eq_getElem?_getD, List.getD_eq_getElem?_getD,
      List.getElem?_map]
    cases ((b.map (·.weight)).map (· / (b.map (·.weight)).foldl Nat.gcd 0))[i]? with
    | none => rfl
    | some x => by_cases hx : x = 0 <;> simp [hx]
  · rw [if_neg hlong, if_pos (by omega)]
    exact hget

theorem wrrWeights_total (b : List SchedBackend) :
    (wrrWeights b).2 = total (Finset.range b.length) (wrrShare b) := by
  have hlen : (wrrWeights b).1.length = b.length := by
    unfold wrrWeights
    simp only
    split <;> simp
  have hsum : (wrrWeights b).1.sum = total (Finset.range b.length) (wrrShare b) := by
    rw [← sum_range_getD, hlen, total]
    exact Finset.sum_congr rfl fun i _ => wrrWeights_getD b i
  rw [← hsum]
  unfold wrrWeights
  simp only
  split
  · rfl
  · show (b.map (·.weight)).sum / (b.map (·.weight)).foldl Nat.gcd 0 =
      ((b.map (·.weight)).map (· / (b.map (·.weight)).foldl Nat.gcd 0)).sum
    rw [← sum_reduced, ← sum_range_getD (List.map _ (b.map (·.weight))), List.length_map, List.length_map]
    exact Finset.sum_congr rfl fun i _ => (getD_map_div b i).symm

theorem wrrShare_of_length_le {b : List SchedBackend} {i : ℕ} (h : b.length ≤ i) : wrrShare b i = 0 := by
  have h0 : reduced b i = 0 := by
    rw [reduced, weightAt, List.getElem?_eq_none h]
    exact Nat.zero_div _
  unfold wrrShare
  simp only [h0]
  split <;> rfl

/-- The sequence is one of greedy picks, one round of them. -/
theorem buildWrr_greedy {b : List SchedBackend} {y : SchedBackend} (hy : y ∈ b) (hw : y.weight ≠ 0)
    (hlen : b.length ≤ 2 ^ 16) :
    Greedy (Finset.range b.length) (wrrShare b) (buildWrr b) ∧
      (buildWrr b).length = total (Finset.range b.length) (wrrShare b) := by
  obtain ⟨j, hj, rfl⟩ := List.mem_iff_getElem.mp hy
  have hwj := (wrrWeights_ne_zero b j).mpr ⟨b[j], List.getElem?_eq_getElem hj, hw⟩
  have hfun : (fun i => (wrrWeights b).1.getD i 0) = wrrShare b := funext (wrrWeights_getD b)
  rw [wrrWeights_getD] at hwj
  refine ⟨?_, by rw [buildWrr, length_wrrLoop, wrrWeights_total]⟩
  have := wrrLoop_greedy hj hwj hlen (total (Finset.range b.length) (wrrShare b)) [] (fun _ => 0) .nil fun i _ =>
    (owed_nil i).symm
  rw [List.nil_append, ← wrrWeights_total] at this
  rw [buildWrr]
  simp only [hfun]
  exact this

/-! ### The picks of a worker -/

namespace Scheduler

/-- The picks of a worker, one for each tuple, from the cursor on. -/
def picks (H : HashFns) (s : Scheduler) : List FiveTuple → ℕ → List (Option ℕ)
  | [], _ => []
  | tuple :: tuples, cursor => (s.pick H tuple cursor).1 :: picks H s tuples (s.pick H tuple cursor).2

/-- As long as the cursor does not wrap, the picks go through the table one by
one. -/
theorem picks_eq {H : HashFns} {s : Scheduler} (htype : s.type = .wrr) (hne : s.table ≠ []) :
    ∀ (tuples : List FiveTuple) (cursor : ℕ), cursor + tuples.length ≤ 2 ^ 32 →
      s.picks H tuples cursor = (List.range tuples.length).map fun k => s.table[(k + cursor) % s.table.length]?
  | [], _, _ => rfl
  | tuple :: tuples, cursor, hle => by
    have hpick : s.pick H tuple cursor = (s.table[cursor % s.table.length]?, (cursor + 1) % 2 ^ 32) := by
      unfold pick
      rw [if_neg hne, htype]
    rw [List.length_cons] at hle
    rw [picks, hpick, List.length_cons, List.range_succ_eq_map, List.map_cons, Nat.zero_add, List.map_map]
    congr 1
    cases tuples with
    | nil => rfl
    | cons t ts =>
      rw [List.length_cons] at hle
      have hcur : (cursor + 1) % 2 ^ 32 = cursor + 1 := Nat.mod_eq_of_lt (by omega)
      rw [hcur, picks_eq htype hne (t :: ts) (cursor + 1) (by rw [List.length_cons]; omega)]
      refine List.map_congr_left fun k _ => ?_
      show _ = s.table[(k + 1 + cursor) % s.table.length]?
      rw [show k + 1 + cursor = k + (cursor + 1) by omega]

/-- Once round the table is the table, from the cursor on. -/
theorem picks_round {H : HashFns} {s : Scheduler} (htype : s.type = .wrr) (hne : s.table ≠ [])
    {tuples : List FiveTuple} {cursor : ℕ} (hlen : tuples.length = s.table.length)
    (hle : cursor + tuples.length ≤ 2 ^ 32) : s.picks H tuples cursor = (s.table.rotate cursor).map some := by
  rw [picks_eq htype hne tuples cursor hle, hlen]
  refine List.ext_getElem? fun k => ?_
  rw [List.getElem?_map, List.getElem?_map]
  by_cases hk : k < s.table.length
  · have hmod := Nat.mod_lt (k + cursor) (List.length_pos_iff.mpr hne)
    rw [List.getElem?_range hk, List.getElem?_rotate hk, Option.map_some, List.getElem?_eq_getElem hmod]
    rfl
  · rw [List.getElem?_eq_none (by simpa using hk), List.getElem?_eq_none (by simpa using hk)]
    rfl

/-- **The shares of weighted round robin are exact.** For every list of
backends of which one has a weight and whose positions fit a `uint16_t`: the table holds each backend as often as
its share says, and so do the picks of a worker that goes once round it, from
any cursor that does not wrap meanwhile. In every first part of the table two
backends of the same weight stand equally often, up to one. -/
theorem wrr_shares (H : HashFns) {b : List SchedBackend} (hb : ∃ x ∈ b, 0 < x.weight) (hfit : b.length ≤ 2 ^ 16) :
    ∃ s, Scheduler.build H .wrr b = .ok s ∧ (∀ i, s.table.count i = wrrShare b i) ∧
      (∀ (tuples : List FiveTuple) (cursor : ℕ), tuples.length = s.table.length →
        cursor + tuples.length ≤ 2 ^ 32 → ∀ i, (s.picks H tuples cursor).count (some i) = wrrShare b i) ∧
      ∀ i j x y, b[i]? = some x → b[j]? = some y → x.weight = y.weight →
        ∀ k, (s.table.take k).count i ≤ (s.table.take k).count j + 1 := by
  obtain ⟨y, hy, hw⟩ := hb
  obtain ⟨hgreedy, hlen⟩ := buildWrr_greedy hy hw.ne' hfit
  have hcount : ∀ i, (buildWrr b).count i = wrrShare b i := fun i => by
    by_cases hi : i < b.length
    · exact hgreedy.count_eq hlen (Finset.mem_range.mpr hi)
    · rw [wrrShare_of_length_le (not_lt.mp hi), List.count_eq_zero]
      exact fun hm => hi (Finset.mem_range.mp (hgreedy.mem i hm).1)
  have hall : ¬ b.all (·.weight == 0) := by
    simp only [List.all_eq_true, beq_iff_eq, not_forall]
    exact ⟨y, hy, hw.ne'⟩
  refine ⟨{ type := .wrr, table := buildWrr b }, ?_, hcount, fun tuples cursor htl hle i => ?_,
    fun i j x z hx hz hxz k => ?_⟩
  · rw [Scheduler.build, if_neg hall]
  · rw [picks_round rfl (buildWrr_ne_nil hy hw.ne') htl hle, ← hcount i,
      List.count_map_of_injective _ _ (Option.some_injective ℕ)]
    exact (List.rotate_perm _ _).count_eq i
  · have hweights : wrrShare b i = wrrShare b j := by
      unfold wrrShare reduced weightAt
      simp only [hx, hz, Option.elim_some, hxz]
    obtain ⟨hi, -⟩ := List.getElem?_eq_some_iff.mp hx
    obtain ⟨hj, -⟩ := List.getElem?_eq_some_iff.mp hz
    exact (hgreedy.take k).count_le (Finset.mem_range.mpr hi) (Finset.mem_range.mpr hj) hweights

end Scheduler

/-- Weights 10, 0, 2 and 2: shares 5, 0, 1 and 1. -/
theorem Scheduler.wrr_shares_four :
    let b : List SchedBackend := [⟨1, 80, 10⟩, ⟨2, 80, 0⟩, ⟨3, 80, 2⟩, ⟨4, 80, 2⟩]
    ∃ s, Scheduler.build flatHash .wrr b = .ok s ∧ s.table = [0, 0, 2, 0, 3, 0, 0] ∧
      s.table.count 0 = wrrShare b 0 ∧ wrrShare b 0 = 5 := by
  intro b
  obtain ⟨s, hs, hcount, -, -⟩ := Scheduler.wrr_shares flatHash (b := b) ⟨⟨1, 80, 10⟩, List.mem_cons_self, by decide⟩
    (by decide)
  have ht : s.table = [0, 0, 2, 0, 3, 0, 0] := by
    have hb : Scheduler.build flatHash .wrr b = .ok { type := .wrr, table := buildWrr b } := rfl
    have htable : buildWrr b = [0, 0, 2, 0, 3, 0, 0] := by decide +kernel
    exact (congrArg Scheduler.table (Except.ok.inj (hs.symm.trans hb))).trans htable
  refine ⟨s, hs, ht, hcount 0, ?_⟩
  rw [← hcount 0, ht]
  rfl

end L4Lb
