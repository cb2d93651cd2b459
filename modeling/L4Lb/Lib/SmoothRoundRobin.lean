/-
# Smooth weighted round robin

Before each pick everyone gains its weight, the one that is owed most is
picked and pays the sum of the weights. What `i` is owed after the picks `l`
is `l.length * w i - total * l.count i`, whatever the order of the picks, so
the claims are about lists of picks: `Greedy` lists, in which each pick was
owed most.

What everyone is owed sums to 0 and never falls to `-total`, as the one that
is owed most is owed something when it is picked. After `total` picks what one
is owed is a multiple of `total`; hence it is 0 for everyone, and each has been
picked as often as its weight says (`Greedy.count_eq`). Two of the same weight
are never more than one pick apart (`Greedy.count_le`).
-/
import Mathlib.Algebra.BigOperators.Ring.Finset
import Mathlib.Algebra.Order.BigOperators.Group.Finset
import Mathlib.Data.Int.Order.Basic
import Mathlib.Tactic.Linarith
import Mathlib.Tactic.Ring

namespace SmoothRoundRobin

variable {ι : Type*} [DecidableEq ι] (s : Finset ι) (w : ι → ℕ)

/-- The sum of the weights. -/
def total : ℕ := ∑ i ∈ s, w i

/-- What `i` is owed after the picks `l`. -/
def owed (l : List ι) (i : ι) : ℤ := l.length * w i - total s w * l.count i

/-- Each pick, the last one at the end, has a weight and was owed most of all
that have one. -/
inductive Greedy : List ι → Prop
  | nil : Greedy []
  | snoc {l : List ι} {i : ι} (h : Greedy l) (hi : i ∈ s) (hw : w i ≠ 0)
      (hmax : ∀ j ∈ s, w j ≠ 0 → owed s w l j + w j ≤ owed s w l i + w i) : Greedy (l ++ [i])

variable {s w} {l : List ι} {i j : ι}

@[simp] theorem owed_nil (i : ι) : owed s w [] i = 0 := by
  simp [owed]

/-- Everyone gains its weight, and the one picked pays. -/
theorem owed_snoc (l : List ι) (j i : ι) :
    owed s w (l ++ [j]) i = owed s w l i + w i - if i = j then (total s w : ℤ) else 0 := by
  unfold owed
  rw [List.length_append, List.count_append, List.length_singleton, List.count_singleton]
  by_cases h : i = j
  · subst h
    simp only [beq_self_eq_true, if_true]
    push_cast
    ring
  · have h' : (j == i) = false := by simpa using Ne.symm h
    simp only [h', Bool.false_eq_true, if_false, h, Nat.add_zero]
    push_cast
    ring

namespace Greedy

theorem mem (h : Greedy s w l) : ∀ i ∈ l, i ∈ s ∧ w i ≠ 0 := by
  induction h with
  | nil => simp
  | snoc h hi hw _ ih =>
    intro k hk
    rcases List.mem_append.mp hk with hk | hk
    · exact ih k hk
    · exact List.mem_singleton.mp hk ▸ ⟨hi, hw⟩

/-- What was picked first was picked in the same way. -/
theorem of_append {l l' : List ι} (h : Greedy s w (l ++ l')) : Greedy s w l := by
  induction l' using List.reverseRecOn with
  | nil => rwa [List.append_nil] at h
  | append_singleton l' k ih =>
    rw [← List.append_assoc] at h
    generalize hc : l ++ l' ++ [k] = c at h
    cases h with
    | nil => simp at hc
    | snoc h1 _ _ _ => exact ih ((List.append_inj' hc rfl).1 ▸ h1)

theorem take (h : Greedy s w l) (k : ℕ) : Greedy s w (l.take k) := by
  rw [← List.take_append_drop k l] at h
  exact h.of_append

theorem sum_owed (h : Greedy s w l) : ∑ i ∈ s, owed s w l i = 0 := by
  have hcount : ∑ i ∈ s, l.count i = l.length := by
    have := Multiset.sum_count_eq_card (s := s) (m := (l : Multiset ι)) fun a ha => (h.mem a ha).1
    simpa using this
  unfold owed
  rw [Finset.sum_sub_distrib, ← Finset.mul_sum, ← Finset.mul_sum]
  push_cast [← hcount, total]
  ring

/-- Someone with a weight is owed something when all have gained theirs. -/
theorem exists_pos (h : Greedy s w l) (ht : 0 < total s w) : ∃ j ∈ s, w j ≠ 0 ∧ 0 < owed s w l j + w j := by
  have hsum : ∑ i ∈ s, (owed s w l i + w i) = total s w := by
    rw [Finset.sum_add_distrib, h.sum_owed, zero_add]
    exact (Nat.cast_sum s w).symm
  obtain ⟨j, hj, hpos⟩ := Finset.exists_lt_of_sum_lt (s := s) (f := fun _ => (0 : ℤ))
    (g := fun i => owed s w l i + w i) (by rw [hsum, Finset.sum_const_zero]; exact_mod_cast ht)
  refine ⟨j, hj, fun h0 => ?_, hpos⟩
  simp only [owed, h0] at hpos
  have : (0 : ℤ) ≤ total s w * l.count j := by positivity
  push_cast at hpos
  linarith

/-- No one is ever a whole round behind. -/
theorem neg_lt_owed (h : Greedy s w l) (ht : 0 < total s w) (i : ι) : -(total s w : ℤ) < owed s w l i := by
  induction h with
  | nil =>
    rw [owed_nil]
    omega
  | @snoc l k h hk hw hmax ih =>
    rw [owed_snoc]
    by_cases hik : i = k
    · -- the one picked was owed something
      obtain ⟨j, hj, hwj, hpos⟩ := h.exists_pos ht
      have := hmax j hj hwj
      rw [if_pos hik, hik]
      linarith
    · rw [if_neg hik]
      linarith [Int.natCast_nonneg (w i)]

/-- **After as many picks as the weights sum to, each has been picked as often
as its weight.** -/
theorem count_eq (h : Greedy s w l) (hlen : l.length = total s w) {i : ι} (hi : i ∈ s) : l.count i = w i := by
  rcases Nat.eq_zero_or_pos (total s w) with ht | ht
  · have hw : w i = 0 := (Finset.sum_eq_zero_iff.mp ht) i hi
    rw [ht, List.length_eq_zero_iff] at hlen
    rw [hw, hlen, List.count_nil]
  have howed : ∀ k, owed s w l k = total s w * ((w k : ℤ) - l.count k) := fun k => by
    rw [owed, hlen]
    ring
  have hle : ∀ k ∈ s, 0 ≤ owed s w l k := fun k _ => by
    have h1 := h.neg_lt_owed ht k
    rw [howed] at h1 ⊢
    have h2 : -1 < (w k : ℤ) - l.count k := by
      refine lt_of_mul_lt_mul_left ?_ (Int.natCast_nonneg (total s w))
      linarith
    exact mul_nonneg (Int.natCast_nonneg _) (by omega)
  have hzero := (Finset.sum_eq_zero_iff_of_nonneg hle).mp h.sum_owed i hi
  rw [howed] at hzero
  rcases mul_eq_zero.mp hzero with h0 | h0
  · omega
  · omega

/-- **Two of the same weight are at most one pick apart**, at any time. -/
theorem count_le (h : Greedy s w l) {i j : ι} (hi : i ∈ s) (hj : j ∈ s) (hij : w i = w j) :
    l.count i ≤ l.count j + 1 := by
  by_cases hw : w i = 0
  · have h0 : l.count i = 0 := List.count_eq_zero.mpr fun hm => (h.mem i hm).2 hw
    omega
  have ht : 0 < total s w := (Nat.pos_of_ne_zero hw).trans_le (Finset.single_le_sum (fun _ _ => Nat.zero_le _) hi)
  -- what is owed to the two is at most a round apart: the one that is owed more is picked first
  have hdiff : owed s w l j - owed s w l i ≤ total s w := by
    induction h with
    | nil =>
      rw [owed_nil, owed_nil]
      omega
    | @snoc l k h hk hwk hmax ih =>
      rw [owed_snoc, owed_snoc, hij]
      by_cases hik : i = k
      · have hji := hmax j hj (hij ▸ hw)
        rw [← hik, hij] at hji
        rw [if_pos hik]
        split <;> linarith
      · rw [if_neg hik]
        split <;> linarith
  have hcounts : (total s w : ℤ) * (l.count i - l.count j) ≤ total s w * 1 := by
    unfold owed at hdiff
    rw [hij] at hdiff
    linarith
  have := le_of_mul_le_mul_left hcounts (by exact_mod_cast ht)
  omega

end Greedy

end SmoothRoundRobin
