/-
# The tables the schedulers build

Every entry of a table is the position of a backend with a weight, for both
schedulers, and a table is empty only if there is no such backend; the loops of
`build_maglev` end, because along its permutation a backend meets every slot
(the size is prime) and the backends of the largest weight take a slot in every
round.
-/
import L4Lb.Scheduler
import Mathlib.Tactic.NormNum.Prime

open Checked

namespace L4Lb

/-! ### Weighted round robin -/

theorem wrrScan_le (w : ℕ → ℕ) : ∀ (n : ℕ) (cur : ℕ → ℤ), (wrrScan w n cur).2 ≤ n - 1
  | 0, _ => le_rfl
  | i + 1, cur => by
    have := wrrScan_le w i cur
    unfold wrrScan
    simp only
    split
    · omega
    · omega

/-- The inner loop ends at a backend with a weight, if there is one. -/
theorem wrrScan_weight (w : ℕ → ℕ) : ∀ (n : ℕ) (cur : ℕ → ℤ) (j : ℕ), j < n → w j ≠ 0 →
    w (wrrScan w n cur).2 ≠ 0
  | 0, _, j, hj, _ => by omega
  | i + 1, cur, j, hj, hw => by
    unfold wrrScan
    simp only
    split
    · rename_i h
      exact h.1
    · rename_i h
      by_cases hji : j = i
      · subst hji
        exact fun h0 => h ⟨hw, Or.inl h0⟩
      · exact wrrScan_weight w i cur j (by omega) hw

/-- The position the inner loop ends at fits an entry. -/
theorem wrrScan_mod {w : ℕ → ℕ} {n : ℕ} (h0 : 0 < n) (hn : n ≤ 2 ^ 16) (cur : ℕ → ℤ) :
    (wrrScan w n cur).2 % 2 ^ 16 = (wrrScan w n cur).2 := by
  have := wrrScan_le w n cur
  exact Nat.mod_eq_of_lt (by omega)

theorem wrrLoop_weight {w : ℕ → ℕ} {n j : ℕ} (total : ℕ) (hj : j < n) (hw : w j ≠ 0) (hn : n ≤ 2 ^ 16) :
    ∀ (k : ℕ) (cur : ℕ → ℤ), ∀ i ∈ wrrLoop w n total k cur, w i ≠ 0
  | 0, _, i, hi => by simp [wrrLoop] at hi
  | k + 1, cur, i, hi => by
    simp only [wrrLoop, List.mem_cons, wrrScan_mod (by omega : 0 < n) hn] at hi
    rcases hi with rfl | hi
    · exact wrrScan_weight w n cur j hj hw
    · exact wrrLoop_weight total hj hw hn k _ i hi

theorem foldl_gcd_dvd : ∀ (l : List ℕ) (a : ℕ), l.foldl Nat.gcd a ∣ a ∧ ∀ x ∈ l, l.foldl Nat.gcd a ∣ x
  | [], a => ⟨dvd_rfl, by simp⟩
  | y :: l, a => by
    obtain ⟨h1, h2⟩ := foldl_gcd_dvd l (a.gcd y)
    refine ⟨h1.trans (Nat.gcd_dvd_left a y), fun x hx => ?_⟩
    rcases List.mem_cons.mp hx with rfl | hx
    · exact h1.trans (Nat.gcd_dvd_right a _)
    · exact h2 x hx

/-- A backend has a weight in the sequence if and only if it has one. -/
theorem wrrWeights_ne_zero (b : List SchedBackend) (i : ℕ) :
    (wrrWeights b).1.getD i 0 ≠ 0 ↔ ∃ x, b[i]? = some x ∧ x.weight ≠ 0 := by
  have hdiv : ∀ x ∈ b, x.weight / (b.map (·.weight)).foldl Nat.gcd 0 = 0 ↔ x.weight = 0 := fun x hx => by
    have hd := (foldl_gcd_dvd (b.map (·.weight)) 0).2 x.weight (List.mem_map_of_mem hx)
    obtain ⟨c, hc⟩ := hd
    constructor
    · intro h
      by_contra h0
      have hg : 0 < (b.map (·.weight)).foldl Nat.gcd 0 := Nat.pos_of_ne_zero fun e => h0 (by rw [hc, e, zero_mul])
      rw [hc, Nat.mul_div_cancel_left c hg] at h
      exact h0 (by rw [hc, h, mul_zero])
    · intro h
      rw [h, Nat.zero_div]
  unfold wrrWeights
  simp only
  cases hb : b[i]? with
  | none => split <;> simp [hb]
  | some x =>
    have hx := hdiv x (List.mem_of_getElem? hb)
    split
    · simp only [List.getD_eq_getElem?_getD, List.getElem?_map, hb, Option.map_some, Option.getD_some,
        Option.some.injEq, exists_eq_left']
      by_cases h0 : x.weight = 0
      · simp [h0]
      · have hne : ¬ x.weight / (b.map (·.weight)).foldl Nat.gcd 0 = 0 := fun h => h0 (hx.mp h)
        rw [if_pos hne]
        exact iff_of_true (by omega) h0
    · simp only [List.getD_eq_getElem?_getD, List.getElem?_map, hb, Option.map_some, Option.getD_some,
        Option.some.injEq, exists_eq_left']
      exact not_congr hx

/-- **Every entry of the sequence is a backend with a weight.** -/
theorem buildWrr_weight {b : List SchedBackend} {y : SchedBackend} (hy : y ∈ b) (hw : y.weight ≠ 0)
    (hlen : b.length ≤ 2 ^ 16) :
    ∀ i ∈ buildWrr b, ∃ x, b[i]? = some x ∧ x.weight ≠ 0 := by
  intro i hi
  obtain ⟨j, hj, rfl⟩ := List.mem_iff_getElem.mp hy
  have hwj := (wrrWeights_ne_zero b j).mpr ⟨b[j], List.getElem?_eq_getElem hj, hw⟩
  exact (wrrWeights_ne_zero b i).mp (wrrLoop_weight _ hj hwj hlen _ _ i hi)

theorem length_wrrLoop (w : ℕ → ℕ) (n total : ℕ) : ∀ (k : ℕ) (cur : ℕ → ℤ), (wrrLoop w n total k cur).length = k
  | 0, _ => rfl
  | k + 1, cur => by rw [wrrLoop, List.length_cons, length_wrrLoop w n total k]

theorem getD_le_sum (l : List ℕ) (j : ℕ) : l.getD j 0 ≤ l.sum := by
  rw [List.getD_eq_getElem?_getD]
  cases hj : l[j]? with
  | none => exact Nat.zero_le _
  | some x => exact List.le_sum_of_mem (List.mem_of_getElem? hj)

/-- The sequence has an entry if a backend has a weight: the sum of the
weights stays positive when they are divided by their gcd, and when they are
scaled down. -/
theorem wrrWeights_total_pos {b : List SchedBackend} {y : SchedBackend} (hy : y ∈ b) (hw : y.weight ≠ 0) :
    0 < (wrrWeights b).2 := by
  obtain ⟨j, hj, rfl⟩ := List.mem_iff_getElem.mp hy
  have hentry := (wrrWeights_ne_zero b j).mpr ⟨b[j], List.getElem?_eq_getElem hj, hw⟩
  have hmem := List.mem_map_of_mem (f := SchedBackend.weight) hy
  have hsum := List.le_sum_of_mem hmem
  have hgcd := (foldl_gcd_dvd (b.map (·.weight)) 0).2 _ hmem
  unfold wrrWeights at hentry ⊢
  simp only at hentry ⊢
  split at hentry
  · rename_i hlong
    rw [if_pos hlong]
    exact (Nat.pos_of_ne_zero hentry).trans_le (getD_le_sum _ j)
  · rename_i hlong
    rw [if_neg hlong]
    exact Nat.div_pos ((Nat.le_of_dvd (Nat.pos_of_ne_zero hw) hgcd).trans hsum)
      (Nat.pos_of_dvd_of_pos hgcd (Nat.pos_of_ne_zero hw))

theorem buildWrr_ne_nil {b : List SchedBackend} {y : SchedBackend} (hy : y ∈ b) (hw : y.weight ≠ 0) :
    buildWrr b ≠ [] := by
  rw [← List.length_pos_iff, buildWrr, length_wrrLoop]
  exact wrrWeights_total_pos hy hw

/-! ### Maglev -/

namespace MaglevParams

/-- What the loops keep: the entries are backends with a weight, `filled`
counts them, and the slots a backend has tried are taken. A backend of the
largest weight has no credit between its turns. -/
structure Ok (P : MaglevParams) (n : ℕ) (s : MaglevState) : Prop where
  entry : ∀ c i, s.table c = some i → c < P.size ∧ i < n ∧ P.weight i ≠ 0
  count : ((Finset.range P.size).filter fun c => (s.table c).isSome).card = s.filled
  tried : ∀ i j, j < s.next i → (s.table (P.slot i j)).isSome
  credit : ∀ i, P.weight i = P.maxWeight → s.credit i = 0

theorem Ok.empty (P : MaglevParams) (n : ℕ) : P.Ok n .empty where
  entry c i h := by simp [MaglevState.empty] at h
  count := by simp [MaglevState.empty]
  tried i j h := by simp [MaglevState.empty] at h
  credit i _ := rfl

variable {P : MaglevParams} {n : ℕ} {s : MaglevState}

theorem Ok.filled_le (h : P.Ok n s) : s.filled ≤ P.size := by
  rw [← h.count]
  exact (Finset.card_filter_le _ _).trans_eq (Finset.card_range _)

theorem Ok.exists_empty (h : P.Ok n s) (hf : s.filled < P.size) : ∃ c, c < P.size ∧ s.table c = none := by
  by_contra hfull
  have hall : (Finset.range P.size).filter (fun c => (s.table c).isSome) = Finset.range P.size := by
    refine Finset.filter_true_of_mem fun c hc => ?_
    rw [Option.isSome_iff_ne_none]
    exact fun hn => hfull ⟨c, Finset.mem_range.mp hc, hn⟩
  have := h.count
  rw [hall, Finset.card_range] at this
  omega

/-- The sizes and steps for which a permutation meets every slot. -/
structure Prime (P : MaglevParams) : Prop where
  size : P.size.Prime
  offset : ∀ i, P.offset i < P.size
  skip_pos : ∀ i, 0 < P.skip i
  skip_lt : ∀ i, P.skip i < P.size

/-- Every slot is on the permutation of every backend. -/
theorem Prime.exists_slot (hP : P.Prime) (i : ℕ) {c : ℕ} (hc : c < P.size) :
    ∃ j, j < P.size ∧ P.slot i j = c := by
  have hpos := hP.size.pos
  have hcop : Nat.Coprime P.size (P.skip i) :=
    (Nat.Prime.coprime_iff_not_dvd hP.size).mpr
      (Nat.not_dvd_of_pos_of_lt (hP.skip_pos i) (hP.skip_lt i))
  -- `j ↦ slot i j` is injective on `size` values, so it takes every value
  have hinj : Set.InjOn (P.slot i) (Finset.range P.size : Set ℕ) := by
    intro a ha b hb hab
    have ha' := Finset.mem_range.mp (Finset.mem_coe.mp ha)
    have hb' := Finset.mem_range.mp (Finset.mem_coe.mp hb)
    have h1 : P.offset i + a * P.skip i ≡ P.offset i + b * P.skip i [MOD P.size] := hab
    have h2 := Nat.ModEq.add_left_cancel' _ h1
    have h3 := Nat.ModEq.cancel_right_of_coprime hcop h2
    exact h3.eq_of_lt_of_lt ha' hb'
  have hmaps : ∀ j ∈ Finset.range P.size, P.slot i j ∈ Finset.range P.size := fun j _ =>
    Finset.mem_range.mpr (Nat.mod_lt _ hpos)
  have hsurj := Finset.surj_on_of_inj_on_of_card_le (fun j _ => P.slot i j) hmaps
    (fun a b ha hb hab => hinj (Finset.mem_coe.mpr ha) (Finset.mem_coe.mpr hb) hab) le_rfl c
    (Finset.mem_range.mpr hc)
  obtain ⟨j, hj, hjc⟩ := hsurj
  exact ⟨j, Finset.mem_range.mp hj, hjc.symm⟩

/-- The search ends at the first empty slot. -/
theorem search_returns (P : MaglevParams) (i : ℕ) (table : ℕ → Option ℕ) : ∀ (fuel next j : ℕ), next ≤ j →
    j < next + fuel → table (P.slot i j) = none →
    ∃ c next', P.search i table fuel next = some (c, next') ∧ table c = none ∧
      (∃ j', c = P.slot i j') ∧ ∀ k, next ≤ k → k < next' → c = P.slot i k ∨ (table (P.slot i k)).isSome
  | 0, _, _, h1, h2, _ => by omega
  | fuel + 1, next, j, h1, h2, h3 => by
    unfold search
    by_cases hn : (table (P.slot i next)).isNone = true
    · rw [if_pos hn]
      refine ⟨_, _, rfl, Option.isNone_iff_eq_none.mp hn, ⟨next, rfl⟩, fun k hk hk' => Or.inl ?_⟩
      rw [show k = next by omega]
    · rw [if_neg hn]
      have hne : j ≠ next := fun e => hn (by rw [← e, h3]; rfl)
      obtain ⟨c, next', hs, hc, hj', hpass⟩ :=
        search_returns P i table fuel (next + 1) j (by omega) (by omega) h3
      refine ⟨c, next', hs, hc, hj', fun k hk hk' => ?_⟩
      by_cases hkn : k = next
      · right
        rw [hkn]
        cases htab : table (P.slot i next) with
        | none => rw [htab] at hn; exact absurd rfl hn
        | some _ => rfl
      · exact hpass k (by omega) hk'

/-- The credit of a backend changes; one of the largest weight has none left. -/
theorem Ok.setCredit (h : P.Ok n s) {i : ℕ} {q : ℚ} (hq : P.weight i = P.maxWeight → q = 0) :
    P.Ok n { s with credit := Function.update s.credit i q } := by
  refine ⟨h.entry, h.count, h.tried, fun i' hi' => ?_⟩
  simp only
  by_cases hii : i' = i
  · rw [hii] at hi' ⊢
    rw [Function.update_self, hq hi']
  · rw [Function.update_of_ne hii]
    exact h.credit i' hi'

/-- A backend finds an empty slot as long as there is one. -/
theorem Ok.search (hP : P.Prime) (h : P.Ok n s) (hf : s.filled < P.size) (i : ℕ) :
    ∃ c next', P.search i s.table P.size (s.next i) = some (c, next') ∧ c < P.size ∧ s.table c = none ∧
      ∀ k, s.next i ≤ k → k < next' → c = P.slot i k ∨ (s.table (P.slot i k)).isSome := by
  obtain ⟨c0, hc0, hempty⟩ := h.exists_empty hf
  obtain ⟨j, hj, hjc⟩ := hP.exists_slot i hc0
  have hnext : s.next i ≤ j := by
    by_contra hlt
    have := h.tried i j (by omega)
    rw [hjc, hempty] at this
    simp at this
  obtain ⟨c, next', hs, hcn, ⟨j', hj'⟩, hpass⟩ :=
    search_returns P i s.table P.size (s.next i) j hnext (by omega) (by rw [hjc]; exact hempty)
  exact ⟨c, next', hs, by rw [hj']; exact Nat.mod_lt _ hP.size.pos, hcn, hpass⟩

/-- A backend takes the empty slot `c`, up to which it has tried its slots. -/
theorem Ok.take (h : P.Ok n s) {i c next' : ℕ} (hi : i < n) (hw : P.weight i ≠ 0) (hcs : c < P.size)
    (hcn : s.table c = none)
    (hpass : ∀ k, s.next i ≤ k → k < next' → c = P.slot i k ∨ (s.table (P.slot i k)).isSome) :
    P.Ok n { s with
      next := Function.update s.next i next', table := Function.update s.table c (some i)
      filled := s.filled + 1 } := by
  have grow : ∀ x, (s.table x).isSome → (Function.update s.table c (some i) x).isSome := fun x hx => by
    by_cases hxc : x = c
    · rw [hxc, Function.update_self]; rfl
    · rwa [Function.update_of_ne hxc]
  refine ⟨fun x i' hx => ?_, ?_, fun i' k hk => ?_, h.credit⟩
  · simp only at hx
    by_cases hxc : x = c
    · rw [hxc, Function.update_self] at hx
      obtain rfl := Option.some.inj hx
      exact ⟨hxc ▸ hcs, hi, hw⟩
    · rw [Function.update_of_ne hxc] at hx
      exact h.entry x i' hx
  · have : (Finset.range P.size).filter (fun x => (Function.update s.table c (some i) x).isSome) =
        insert c ((Finset.range P.size).filter fun x => (s.table x).isSome) := by
      ext x
      simp only [Finset.mem_filter, Finset.mem_insert, Finset.mem_range]
      by_cases hxc : x = c
      · rw [hxc, Function.update_self]
        exact iff_of_true ⟨hcs, rfl⟩ (Or.inl rfl)
      · rw [Function.update_of_ne hxc]
        exact (or_iff_right hxc).symm
    simp only
    rw [this, Finset.card_insert_of_notMem (by simp [hcn]), h.count]
  · simp only at hk ⊢
    by_cases hii : i' = i
    · rw [hii, Function.update_self] at hk
      rw [hii]
      by_cases hkn : k < s.next i
      · exact grow _ (h.tried i k hkn)
      · rcases hpass k (by omega) hk with hck | hsome
        · rw [← hck, Function.update_self]; rfl
        · exact grow _ hsome
    · rw [Function.update_of_ne hii] at hk
      exact grow _ (h.tried i' k hk)

section Turns

variable (hP : P.Prime) (h0 : P.rnd 0 = 0) (h1 : P.rnd 1 = 1)

include hP h0 h1

/-- A turn returns; a backend of the largest weight takes a slot. -/
theorem Ok.turn (h : P.Ok n s) {i : ℕ} (hi : i < n) : ∃ s', P.turn s i = some s' ∧ P.Ok n s' ∧
    s.filled ≤ s'.filled ∧
    (P.weight i = P.maxWeight → P.weight i ≠ 0 → s.filled < P.size → s.filled < s'.filled) := by
  unfold MaglevParams.turn
  by_cases hfull : s.filled ≥ P.size
  · rw [if_pos hfull]
    exact ⟨s, rfl, h, le_rfl, fun _ _ hlt => by omega⟩
  rw [if_neg hfull]
  by_cases hw : P.weight i = 0
  · rw [if_pos hw]
    exact ⟨s, rfl, h, le_rfl, fun _ hne => absurd hw hne⟩
  rw [if_neg hw]
  simp only
  have hmax : P.weight i = P.maxWeight → P.rnd (s.credit i + P.rnd (P.weight i / P.maxWeight)) = 1 := fun he => by
    rw [h.credit i he, he, div_self (by rw [← he]; exact_mod_cast hw), h1, zero_add, h1]
  by_cases hc : P.rnd (s.credit i + P.rnd (P.weight i / P.maxWeight)) < 1
  · have hne : P.weight i ≠ P.maxWeight := fun he => by
      rw [hmax he] at hc
      exact absurd hc (lt_irrefl 1)
    rw [if_pos hc]
    exact ⟨_, rfl, h.setCredit fun he => absurd he hne, le_rfl, fun he => absurd he hne⟩
  · rw [if_neg hc]
    obtain ⟨c, next', hs, hcs, hcn, hpass⟩ := h.search hP (by omega) i
    rw [hs]
    refine ⟨_, rfl, (h.take hi hw hcs hcn hpass).setCredit fun he => ?_, Nat.le_succ _,
      fun _ _ _ => Nat.lt_succ_self _⟩
    rw [hmax he, sub_self, h0]

theorem Ok.turns : ∀ (l : List ℕ) {s : MaglevState}, P.Ok n s → (∀ i ∈ l, i < n) →
    ∃ s', l.foldlM P.turn s = some s' ∧ P.Ok n s' ∧ s.filled ≤ s'.filled ∧
      (∀ i ∈ l, P.weight i = P.maxWeight → P.weight i ≠ 0 → s.filled < P.size → s.filled < s'.filled)
  | [], s, h, _ => ⟨s, rfl, h, le_rfl, by simp⟩
  | i :: l, s, h, hl => by
    obtain ⟨s1, hs1, hok1, hle1, hlt1⟩ := h.turn hP h0 h1 (hl i List.mem_cons_self)
    obtain ⟨s2, hs2, hok2, hle2, hlt2⟩ := Ok.turns l hok1 fun j hj => hl j (List.mem_cons_of_mem i hj)
    refine ⟨s2, by rw [List.foldlM_cons, hs1]; exact hs2, hok2, hle1.trans hle2, fun j hj hw hne hf => ?_⟩
    rcases List.mem_cons.mp hj with rfl | hj
    · exact (hlt1 hw hne hf).trans_le hle2
    · by_cases hf1 : s1.filled < P.size
      · exact hle1.trans_lt (hlt2 j hj hw hne hf1)
      · omega

/-- The rounds end with a full table. -/
theorem Ok.rounds {i : ℕ} (hi : i < n) (hw : P.weight i = P.maxWeight) (hne : P.weight i ≠ 0) :
    ∀ (fuel : ℕ) {s : MaglevState}, P.Ok n s → P.size ≤ s.filled + fuel →
    ∃ s', P.rounds n fuel s = some s' ∧ P.Ok n s' ∧ s'.filled = P.size
  | 0, s, h, hf => by
    have := h.filled_le
    refine ⟨s, ?_, h, by omega⟩
    unfold MaglevParams.rounds
    rw [if_neg (by omega)]
  | fuel + 1, s, h, hf => by
    unfold MaglevParams.rounds
    by_cases hlt : s.filled < P.size
    · rw [if_pos hlt]
      obtain ⟨s1, hs1, hok1, -, hlt1⟩ := Ok.turns hP h0 h1 (List.range n) h fun j hj => List.mem_range.mp hj
      have := hlt1 i (List.mem_range.mpr hi) hw hne hlt
      obtain ⟨s2, hs2, hok2, hfull⟩ := Ok.rounds hi hw hne fuel hok1 (by omega)
      exact ⟨s2, by rw [MaglevParams.round, hs1]; exact hs2, hok2, hfull⟩
    · rw [if_neg hlt]
      have := h.filled_le
      exact ⟨s, rfl, h, by omega⟩

end Turns

end MaglevParams

theorem foldl_max_mem : ∀ (l : List ℕ) (a : ℕ), l.foldl max a = a ∨ l.foldl max a ∈ l
  | [], a => Or.inl rfl
  | y :: l, a => by
    rcases foldl_max_mem l (max a y) with h | h
    · rw [List.foldl_cons, h]
      rcases le_total a y with hay | hay
      · right
        rw [max_eq_right hay]
        exact List.mem_cons_self
      · left
        exact max_eq_left hay
    · exact Or.inr (List.mem_cons_of_mem y h)

theorem le_foldl_max : ∀ (l : List ℕ) (a : ℕ), a ≤ l.foldl max a ∧ ∀ x ∈ l, x ≤ l.foldl max a
  | [], a => ⟨le_rfl, by simp⟩
  | y :: l, a => by
    obtain ⟨h1, h2⟩ := le_foldl_max l (max a y)
    refine ⟨(le_max_left a y).trans h1, fun x hx => ?_⟩
    rcases List.mem_cons.mp hx with rfl | hx
    · exact (le_max_right a _).trans h1
    · exact h2 x hx

section Params

variable (H : HashFns) (rnd : ℚ → ℚ) (size : ℕ) (b : List SchedBackend)

theorem maglevParams_prime {size : ℕ} (hprime : size.Prime) : (maglevParams H rnd size b).Prime := by
  have h2 := hprime.two_le
  refine ⟨hprime, fun i => Nat.mod_lt _ hprime.pos, fun i => Nat.succ_pos _, fun i => ?_⟩
  have : ∀ x, x % (size - 1) + 1 < size := fun x => by
    have := Nat.mod_lt x (show 0 < size - 1 by omega)
    omega
  exact this _

/-- No weight is above the largest. -/
theorem weight_le_maxWeight (i : ℕ) :
    (maglevParams H rnd size b).weight i ≤ (maglevParams H rnd size b).maxWeight := by
  show (b[i]?).elim 0 _ ≤ _
  cases hi : b[i]? with
  | none => exact Nat.zero_le _
  | some x => exact (le_foldl_max _ 0).2 _ (List.mem_map_of_mem (List.mem_of_getElem? hi))

variable {b}

theorem maxWeight_pos {y : SchedBackend} (hy : y ∈ b) (hw : y.weight ≠ 0) :
    0 < (maglevParams H rnd size b).maxWeight :=
  (Nat.pos_of_ne_zero hw).trans_le ((le_foldl_max _ 0).2 _ (List.mem_map_of_mem hy))

end Params

/-- **`build_maglev` ends, with a table of backends that have a weight.** -/
theorem buildMaglev_returns (H : HashFns) {rnd : ℚ → ℚ} (h0 : rnd 0 = 0) (h1 : rnd 1 = 1) {size : ℕ}
    (hprime : size.Prime) {b : List SchedBackend} {y : SchedBackend} (hy : y ∈ b) (hw : y.weight ≠ 0) :
    ∃ table, buildMaglev H rnd size b = some table ∧ table.length = size ∧
      ∀ i ∈ table, ∃ x, b[i]? = some x ∧ x.weight ≠ 0 := by
  set P := maglevParams H rnd size b with hPdef
  have hP : P.Prime := maglevParams_prime H rnd b hprime
  -- a backend of the largest weight
  have hmax : 0 < P.maxWeight := maxWeight_pos H rnd size hy hw
  have hmem : P.maxWeight ∈ b.map (·.weight) := by
    rcases foldl_max_mem (b.map (·.weight)) 0 with h | h
    · exact absurd (show P.maxWeight = 0 from h) (by omega)
    · exact h
  obtain ⟨z, hz, hzw⟩ := List.mem_map.mp hmem
  obtain ⟨i, hi, rfl⟩ := List.mem_iff_getElem.mp hz
  have hwi : P.weight i = P.maxWeight := by
    rw [← hzw]
    show (b[i]?).elim 0 _ = _
    rw [List.getElem?_eq_getElem hi]
    rfl
  obtain ⟨s, hs, hok, hfull⟩ := MaglevParams.Ok.rounds hP h0 h1 hi hwi (by omega) size
    (MaglevParams.Ok.empty P b.length) (Nat.le_add_left ..)
  refine ⟨_, by rw [buildMaglev, ← hPdef, hs]; rfl, by simp, fun k hk => ?_⟩
  obtain ⟨c, hc, hck⟩ := List.mem_map.mp hk
  have hsome : (s.table c).isSome := by
    by_contra hn
    have hsub : (Finset.range P.size).filter (fun c => (s.table c).isSome) ⊆ (Finset.range P.size).erase c := by
      intro x hx
      obtain ⟨hx1, hx2⟩ := Finset.mem_filter.mp hx
      exact Finset.mem_erase.mpr ⟨fun e => hn (e ▸ hx2), hx1⟩
    have hcard := Finset.card_le_card hsub
    have hcr : c ∈ Finset.range P.size := Finset.mem_range.mpr (List.mem_range.mp hc)
    rw [hok.count, hfull, Finset.card_erase_of_mem hcr, Finset.card_range] at hcard
    have := hprime.pos
    have hsz : P.size = size := rfl
    omega
  obtain ⟨k', hk'⟩ := Option.isSome_iff_exists.mp hsome
  rw [hk', Option.getD_some] at hck
  obtain ⟨-, -, hwk⟩ := hok.entry c k' hk'
  rw [hck] at hwk
  cases hbk : b[k]? with
  | none => exact absurd (show P.weight k = 0 by show (b[k]?).elim 0 _ = _; rw [hbk]; rfl) hwk
  | some x =>
    refine ⟨x, rfl, fun hx0 => hwk ?_⟩
    show (b[k]?).elim 0 _ = _
    rw [hbk]
    exact hx0

/-! ### The scheduler -/

theorem kMaglevSize_prime : kMaglevSize.Prime := by norm_num [kMaglevSize]

theorem double_zero : double 0 = 0 := if_pos le_rfl

theorem double_one : double 1 = 1 := by
  unfold double roundEven
  rw [if_neg (by norm_num), Int.log_one_right]
  norm_num

/-- **Every scheduler is built**, if the positions fit its table. Every position in its table is that of a
backend with a weight, and there is one if there is such a backend. -/
theorem Scheduler.build_returns (H : HashFns) (type : SchedulerType) {b : List SchedBackend}
    (hlen : b.length ≤ 2 ^ 16) :
    Returns (Scheduler.build H type b) fun s => s.type = type ∧
      (∀ i ∈ s.table, ∃ x, b[i]? = some x ∧ x.weight ≠ 0) ∧ (s.table = [] ↔ ∀ x ∈ b, x.weight = 0) := by
  unfold Scheduler.build
  split
  · rename_i hall
    simp only [List.all_eq_true, beq_iff_eq] at hall
    exact .ok ⟨rfl, by simp, iff_of_true rfl hall⟩
  rename_i hall
  simp only [List.all_eq_true, beq_iff_eq, not_forall] at hall
  obtain ⟨y, hy, hw⟩ := hall
  have hsome : ¬ ∀ x ∈ b, x.weight = 0 := fun h => hw (h y hy)
  cases type with
  | wrr => exact .ok ⟨rfl, buildWrr_weight hy hw hlen, iff_of_false (buildWrr_ne_nil hy hw) hsome⟩
  | maglev =>
    obtain ⟨table, htable, hsize, hmem⟩ := buildMaglev_returns H double_zero double_one kMaglevSize_prime hy hw
    have hne : table ≠ [] := List.length_pos_iff.mp (hsize ▸ kMaglevSize_prime.pos)
    simp only [htable]
    exact .ok ⟨rfl, hmem, iff_of_false hne hsome⟩

/-- A pick is a position in the table. -/
theorem Scheduler.pick_mem {H : HashFns} {s : Scheduler} {tuple : FiveTuple} {cursor i : ℕ}
    (h : (s.pick H tuple cursor).1 = some i) : i ∈ s.table := by
  unfold Scheduler.pick at h
  split at h
  · simp at h
  · split at h
    · exact List.mem_of_getElem? h
    · exact List.mem_of_getElem? h

/-- Only an empty table gives no pick: the position read is always inside it. -/
theorem Scheduler.pick_eq_none_iff {H : HashFns} {s : Scheduler} {tuple : FiveTuple} {cursor : ℕ} :
    (s.pick H tuple cursor).1 = none ↔ s.table = [] := by
  unfold Scheduler.pick
  by_cases h : s.table = []
  · rw [if_pos h]
    exact iff_of_true rfl h
  have hin : ∀ n : ℕ, s.table[n % s.table.length]? ≠ none := fun n hn => by
    have := Nat.mod_lt n (List.length_pos_iff.mpr h)
    rw [List.getElem?_eq_getElem this] at hn
    simp at hn
  rw [if_neg h]
  refine iff_of_false ?_ h
  split
  · exact hin _
  · exact hin _

end L4Lb
