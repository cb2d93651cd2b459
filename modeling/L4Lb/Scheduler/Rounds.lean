/-
# The rounds of Maglev

`build_maglev` ends for every list of backends of which one has a weight, and
leaves no slot empty. With exact credits, the slots a backend holds and the
credit it has add up to its turns times `weight / max_weight`, and its credit
stays below 1; so after `r` rounds that were not cut short it holds
`⌊r * weight / max_weight⌋` slots (`FullRounds.slots_eq`). The rounds are full
as long as these numbers leave an empty slot (`exists_fullRounds`).
-/
import L4Lb.Scheduler.Built
import Mathlib.Algebra.Order.Floor.Semifield

namespace L4Lb

namespace MaglevParams

/-- The slots of backend `i`. -/
def slots (P : MaglevParams) (s : MaglevState) (i : ℕ) : ℕ :=
  ((Finset.range P.size).filter fun c => s.table c = some i).card

/-- Turns that are all taken: there is an empty slot before each. -/
inductive FullTurns (P : MaglevParams) : List ℕ → MaglevState → MaglevState → Prop
  | nil (s : MaglevState) : FullTurns P [] s s
  | snoc {l : List ℕ} {i : ℕ} {s s1 s2 : MaglevState} (h : FullTurns P l s s1) (hf : s1.filled < P.size)
      (ht : P.turn s1 i = some s2) : FullTurns P (l ++ [i]) s s2

/-- The state after `r` rounds of `n` backends, none of them cut short. -/
inductive FullRounds (P : MaglevParams) (n : ℕ) : ℕ → MaglevState → Prop
  | zero : FullRounds P n 0 .empty
  | succ {r : ℕ} {s s' : MaglevState} (h : FullRounds P n r s) (ht : FullTurns P (List.range n) s s') :
      FullRounds P n (r + 1) s'

variable {P : MaglevParams} {n r i : ℕ} {s s' : MaglevState} {l : List ℕ}

theorem FullTurns.foldlM (h : FullTurns P l s s') : l.foldlM P.turn s = some s' := by
  induction h with
  | nil => rfl
  | snoc h hf ht ih =>
    rw [List.foldlM_append, ih]
    simpa using ht

theorem FullTurns.filled_lt (h : FullTurns P l s s') (hl : l ≠ []) : s.filled < P.size := by
  induction h with
  | nil => exact absurd rfl hl
  | @snoc l i s s1 s2 h hf ht ih =>
    by_cases hnil : l = []
    · subst hnil
      generalize hc : ([] : List ℕ) = c at h
      cases h with
      | nil => exact hf
      | snoc _ _ _ => simp at hc
    · exact ih hnil

/-- The states after full rounds are those the outer loop goes through. -/
theorem FullRounds.rounds (h : FullRounds P n r s) (hn : 0 < n) (fuel : ℕ) :
    P.rounds n (fuel + r) .empty = P.rounds n fuel s := by
  induction h generalizing fuel with
  | zero => rfl
  | @succ r s s' h ht ih =>
    rw [show fuel + (r + 1) = fuel + 1 + r by omega, ih, MaglevParams.rounds,
      if_pos (ht.filled_lt (by simp; omega)), MaglevParams.round, ht.foldlM]
    rfl

/-! ### Exact credits -/

/-- After `t i` turns of each backend `i`, with exact credits. -/
def Exact (P : MaglevParams) (t : ℕ → ℕ) (s : MaglevState) : Prop :=
  ∀ i, (P.slots s i : ℚ) + s.credit i = t i * P.weight i / P.maxWeight ∧ 0 ≤ s.credit i ∧ s.credit i < 1

theorem Exact.empty (P : MaglevParams) : P.Exact (fun _ => 0) .empty := fun i => by
  simp [slots, MaglevState.empty]

theorem Exact.slots_eq {t : ℕ → ℕ} (h : P.Exact t s) (i : ℕ) : P.slots s i = t i * P.weight i / P.maxWeight := by
  obtain ⟨hsum, h0, h1⟩ := h i
  rw [← Nat.floor_div_eq_div (K := ℚ)]
  symm
  rw [Nat.floor_eq_iff (by positivity)]
  push_cast
  rw [← hsum]
  constructor <;> linarith

theorem search_empty (P : MaglevParams) (i : ℕ) (table : ℕ → Option ℕ) {c next' : ℕ} :
    ∀ (fuel next : ℕ), P.search i table fuel next = some (c, next') → table c = none ∧ ∃ j, c = P.slot i j
  | 0, _, h => by simp [search] at h
  | fuel + 1, next, h => by
    unfold search at h
    split at h
    · rename_i hn
      obtain ⟨rfl, -⟩ := Prod.mk.inj (Option.some.inj h)
      exact ⟨Option.isNone_iff_eq_none.mp hn, next, rfl⟩
    · exact search_empty P i table fuel (next + 1) h

/-- The slots when backend `i` takes the empty slot `c`. -/
theorem slots_update {c : ℕ} (hc : c < P.size) (hn : s.table c = none) (s' : MaglevState)
    (ht : s'.table = Function.update s.table c (some i)) (k : ℕ) :
    P.slots s' k = P.slots s k + if k = i then 1 else 0 := by
  unfold slots
  by_cases hk : k = i
  · subst hk
    rw [if_pos rfl, ← Finset.card_insert_of_notMem (s := Finset.filter _ _) (a := c) (by simp [hn])]
    congr 1
    ext x
    simp only [Finset.mem_filter, Finset.mem_insert, Finset.mem_range, ht]
    by_cases hx : x = c
    · subst hx
      simp [hc]
    · simp [hx]
  · rw [if_neg hk, Nat.add_zero]
    congr 1
    ext x
    simp only [Finset.mem_filter, Finset.mem_range, ht]
    by_cases hx : x = c
    · subst hx
      simp [hn, Ne.symm hk]
    · simp [hx]

/-- A turn that is taken is worth `weight / max_weight`: in credit, or in a slot
and what is left of the credit. -/
theorem Exact.turn (hrnd : P.rnd = id) (hle : ∀ i, P.weight i ≤ P.maxWeight) (hmax : 0 < P.maxWeight)
    {t : ℕ → ℕ} (h : P.Exact t s) (hf : s.filled < P.size) (ht : P.turn s i = some s') :
    P.Exact (Function.update t i (t i + 1)) s' := by
  have hsize : 0 < P.size := by omega
  have hmaxq : (0 : ℚ) < P.maxWeight := by exact_mod_cast hmax
  have hgain : 0 ≤ (P.weight i : ℚ) / P.maxWeight ∧ (P.weight i : ℚ) / P.maxWeight ≤ 1 :=
    ⟨by positivity, (div_le_one hmaxq).mpr (by exact_mod_cast hle i)⟩
  unfold MaglevParams.turn at ht
  rw [if_neg (by omega)] at ht
  by_cases hw : P.weight i = 0
  · -- a backend without a weight has nothing
    rw [if_pos hw] at ht
    obtain rfl := Option.some.inj ht
    intro k
    by_cases hk : k = i
    · subst hk
      obtain ⟨hsum, hc⟩ := h k
      rw [hw] at hsum
      exact ⟨by rw [hsum, hw]; simp, hc⟩
    · rw [Function.update_of_ne hk]
      exact h k
  rw [if_neg hw, hrnd] at ht
  simp only [id_eq] at ht
  obtain ⟨hsum, h0, h1⟩ := h i
  have hnext : ((t i + 1 : ℕ) : ℚ) * P.weight i / P.maxWeight =
      t i * P.weight i / P.maxWeight + P.weight i / P.maxWeight := by
    push_cast
    ring
  by_cases hlt : s.credit i + (P.weight i : ℚ) / P.maxWeight < 1
  · rw [if_pos hlt] at ht
    obtain rfl := Option.some.inj ht
    intro k
    show (P.slots s k : ℚ) + _ = _ ∧ _
    simp only
    by_cases hk : k = i
    · subst hk
      rw [Function.update_self, Function.update_self, hnext, ← hsum]
      exact ⟨by ring, by linarith [hgain.1], hlt⟩
    · rw [Function.update_of_ne hk, Function.update_of_ne hk]
      exact h k
  · rw [if_neg hlt] at ht
    obtain ⟨⟨c, next'⟩, hs, rfl⟩ := Option.map_eq_some_iff.mp ht
    obtain ⟨hn, j, hj⟩ := search_empty P i s.table _ _ hs
    have hc : c < P.size := hj ▸ Nat.mod_lt _ hsize
    intro k
    rw [slots_update hc hn _ rfl k]
    simp only
    by_cases hk : k = i
    · subst hk
      rw [Function.update_self, Function.update_self, if_pos rfl, hnext, ← hsum]
      push_cast
      exact ⟨by ring, by linarith, by linarith [hgain.2]⟩
    · rw [Function.update_of_ne hk, Function.update_of_ne hk, if_neg hk, Nat.add_zero]
      exact h k

/-- The slots that are taken are those of the backends. -/
theorem Ok.filled_eq (h : P.Ok n s) : s.filled = ∑ i ∈ Finset.range n, P.slots s i := by
  rw [← h.count,
    Finset.card_eq_sum_card_fiberwise (f := fun c => (s.table c).getD 0) (t := Finset.range n)]
  · refine Finset.sum_congr rfl fun i _ => ?_
    unfold slots
    congr 1
    ext c
    simp only [Finset.mem_filter, Finset.mem_range]
    cases s.table c <;> simp [eq_comm]
  · intro c hc
    obtain ⟨i, hi⟩ := Option.isSome_iff_exists.mp (Finset.mem_filter.mp hc).2
    simp only [hi, Option.getD_some]
    exact Finset.mem_coe.mpr (Finset.mem_range.mpr (h.entry c i hi).2.1)

section ExactRounds

variable (hrnd : P.rnd = id) (hle : ∀ i, P.weight i ≤ P.maxWeight) (hmax : 0 < P.maxWeight)

include hrnd hle hmax

theorem FullTurns.exact {t : ℕ → ℕ} (h : FullTurns P l s s') (hs : P.Exact t s) :
    P.Exact (fun k => t k + l.count k) s' := by
  induction h with
  | nil => simpa using hs
  | @snoc l i s s1 s2 h hf ht ih =>
    have := (ih hs).turn hrnd hle hmax hf ht
    convert this using 2 with k
    by_cases hk : k = i
    · subst hk
      simp [Nat.add_assoc]
    · simp [hk, Ne.symm hk]

theorem FullRounds.exact (h : FullRounds P n r s) : P.Exact (fun k => if k < n then r else 0) s := by
  induction h with
  | zero => simpa using Exact.empty P
  | succ h ht ih =>
    have := ht.exact hrnd hle hmax ih
    convert this using 2 with k
    by_cases hk : k < n
    · rw [if_pos hk, if_pos hk, List.count_eq_one_of_mem List.nodup_range (List.mem_range.mpr hk)]
    · rw [if_neg hk, if_neg hk, List.count_eq_zero_of_not_mem (by simpa using hk)]

/-- **The slots after full rounds**: each backend holds the whole part of its
share. -/
theorem FullRounds.slots_eq (h : FullRounds P n r s) {i : ℕ} (hi : i < n) :
    P.slots s i = r * P.weight i / P.maxWeight := by
  have := (h.exact hrnd hle hmax).slots_eq i
  rwa [if_pos hi] at this

/-- As long as the whole parts of the shares leave an empty slot, the rounds
are full. -/
theorem exists_fullRounds (hP : P.Prime) : ∀ r, ∑ i ∈ Finset.range n, r * P.weight i / P.maxWeight < P.size →
    ∃ s, FullRounds P n r s ∧ P.Ok n s
  | 0, _ => ⟨.empty, .zero, .empty P n⟩
  | r + 1, hlt => by
    have hmono : ∀ i, r * P.weight i / P.maxWeight ≤ (r + 1) * P.weight i / P.maxWeight := fun i =>
      Nat.div_le_div_right (Nat.mul_le_mul_right _ (Nat.le_succ r))
    obtain ⟨s, hs, hok⟩ := exists_fullRounds hP r ((Finset.sum_le_sum fun i _ => hmono i).trans_lt hlt)
    -- the turns of the first `k` backends; those behind have had `r` turns
    have hturns : ∀ k ≤ n, ∃ s', FullTurns P (List.range k) s s' ∧ P.Ok n s' := by
      intro k hk
      induction k with
      | zero => exact ⟨s, .nil s, hok⟩
      | succ k ih =>
        obtain ⟨s1, ht, hok1⟩ := ih (by omega)
        have hexact := ht.exact hrnd hle hmax (hs.exact hrnd hle hmax)
        have hf : s1.filled < P.size := by
          rw [hok1.filled_eq]
          refine (Finset.sum_le_sum fun i hi => ?_).trans_lt hlt
          rw [hexact.slots_eq i, if_pos (Finset.mem_range.mp hi)]
          refine Nat.div_le_div_right (Nat.mul_le_mul_right _ (Nat.add_le_add_left ?_ r))
          exact List.nodup_iff_count_le_one.mp List.nodup_range i
        obtain ⟨s2, hs2, hok2, -, -⟩ := hok1.turn hP (i := k) (by rw [hrnd]; rfl) (by rw [hrnd]; rfl) (by omega)
        exact ⟨s2, by rw [List.range_succ]; exact .snoc ht hf hs2, hok2⟩
    obtain ⟨s', ht, hok'⟩ := hturns n le_rfl
    exact ⟨s', .succ hs ht, hok'⟩

end ExactRounds

end MaglevParams

/-- **Maglev tables are complete, and their shares exact.** For every list of
at most 256 backends of which one has a weight, and any hash functions, both
loops of `build_maglev` end, with a table in which every slot holds a backend
with a weight and none the mark of an empty slot. With exact credits, the loop
is in the state after any number of full rounds, and the backends hold the
whole parts of their shares there. -/
theorem buildMaglev_fills (H : HashFns) {b : List SchedBackend} (hlen : b.length ≤ kMaxRsPerService)
    (hb : ∃ x ∈ b, 0 < x.weight) :
    (∃ table, buildMaglev H double kMaglevSize b = some table ∧ table.length = kMaglevSize ∧
      ∀ i ∈ table, i ≠ 65535 ∧ ∃ x, b[i]? = some x ∧ 0 < x.weight) ∧
    ∀ r s, (maglevParams H id kMaglevSize b).FullRounds b.length r s →
      (∀ fuel, (maglevParams H id kMaglevSize b).rounds b.length (fuel + r) .empty =
        (maglevParams H id kMaglevSize b).rounds b.length fuel s) ∧
      ∀ i x, b[i]? = some x →
        (maglevParams H id kMaglevSize b).slots s i = r * x.weight / (b.map (·.weight)).foldl max 0 := by
  obtain ⟨y, hy, hw⟩ := hb
  constructor
  · obtain ⟨table, htable, hsize, hmem⟩ :=
      buildMaglev_returns H double_zero double_one kMaglevSize_prime hy hw.ne'
    refine ⟨table, htable, hsize, fun i hi => ?_⟩
    obtain ⟨x, hx, hxw⟩ := hmem i hi
    obtain ⟨hil, -⟩ := List.getElem?_eq_some_iff.mp hx
    unfold kMaxRsPerService at hlen
    exact ⟨by omega, x, hx, Nat.pos_of_ne_zero hxw⟩
  · intro r s hr
    refine ⟨hr.rounds (List.length_pos_of_mem hy), fun i x hx => ?_⟩
    obtain ⟨hil, -⟩ := List.getElem?_eq_some_iff.mp hx
    have hslots := hr.slots_eq rfl (weight_le_maxWeight H id kMaglevSize b)
      (maxWeight_pos H id kMaglevSize hy hw.ne') hil
    have hweight : (maglevParams H id kMaglevSize b).weight i = x.weight := by
      show (b[i]?).elim 0 _ = _
      rw [hx]
      rfl
    have hmaxw : (maglevParams H id kMaglevSize b).maxWeight = (b.map (·.weight)).foldl max 0 := rfl
    rw [hslots, hweight, hmaxw]

/-- Weights 2 and 1: after three full rounds 3 slots and 1 slot. -/
theorem buildMaglev_fills_two :
    let b : List SchedBackend := [⟨1, 80, 2⟩, ⟨2, 80, 1⟩]
    ∃ s, (maglevParams flatHash id kMaglevSize b).FullRounds 2 3 s ∧
      (maglevParams flatHash id kMaglevSize b).slots s 0 = 3 ∧
      (maglevParams flatHash id kMaglevSize b).slots s 1 = 1 := by
  intro b
  have hy : (⟨1, 80, 2⟩ : SchedBackend) ∈ b := List.mem_cons_self
  obtain ⟨-, hslots⟩ := buildMaglev_fills flatHash (b := b) (by decide) ⟨_, hy, by decide⟩
  obtain ⟨s, hs, -⟩ := MaglevParams.exists_fullRounds (n := 2) rfl (weight_le_maxWeight flatHash id kMaglevSize b)
    (maxWeight_pos flatHash id kMaglevSize hy (by decide)) (maglevParams_prime flatHash id b kMaglevSize_prime) 3
    (by decide +kernel)
  exact ⟨s, hs, ((hslots 3 s hs).2 0 _ rfl).trans (by decide), ((hslots 3 s hs).2 1 _ rfl).trans (by decide)⟩

end L4Lb
