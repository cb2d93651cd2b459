/-
# Two tables that are inverse to each other

A partial function and a table that looks it up backwards: `f a = some b` iff
`g b = some a`. The tables stay inverse when a pair is inserted that neither of
them has, and when a pair is erased from both. While fewer values are taken than
there are, one is free.
-/
import Mathlib.Data.Finset.Card
import Mathlib.Logic.Function.Basic

namespace PartialInverse

variable {α β : Type*} {f : α → Option β} {g : β → Option α} {a a' : α} {b : β}

def Inverse (f : α → Option β) (g : β → Option α) : Prop := ∀ a b, f a = some b ↔ g b = some a

theorem Inverse.inj (h : Inverse f g) (ha : f a = some b) (ha' : f a' = some b) : a = a' :=
  Option.some.inj (((h a b).mp ha).symm.trans ((h a' b).mp ha'))

theorem Inverse.symm (h : Inverse f g) : Inverse g f := fun b a => (h a b).symm

theorem Inverse.empty : Inverse (fun _ : α => (none : Option β)) fun _ => none := fun _ _ => by simp

theorem Inverse.insert [DecidableEq α] [DecidableEq β] (h : Inverse f g) (ha : f a = none) (hb : g b = none) :
    Inverse (Function.update f a (some b)) (Function.update g b (some a)) := by
  intro x y
  by_cases hx : x = a
  · subst hx
    by_cases hy : y = b
    · subst hy
      simp
    · have : g y ≠ some x := fun hg => by simp [(h x y).mpr hg] at ha
      simp [hy, this, Ne.symm hy]
  · by_cases hy : y = b
    · subst hy
      have : f x ≠ some y := fun hf => by simp [(h x y).mp hf] at hb
      simp [hx, this, Ne.symm hx]
    · simpa [hx, hy] using h x y

theorem Inverse.erase [DecidableEq α] [DecidableEq β] (h : Inverse f g) (hab : f a = some b) :
    Inverse (Function.update f a none) (Function.update g b none) := by
  intro x y
  by_cases hx : x = a
  · subst hx
    by_cases hy : y = b
    · subst hy
      simp
    · have : g y ≠ some x := fun hg => hy (Option.some.inj (((h x y).mpr hg).symm.trans hab))
      simp [hy, this]
  · by_cases hy : y = b
    · subst hy
      have : f x ≠ some y := fun hf => hx (h.inj hf hab)
      simp [hx, this]
    · simpa [hx, hy] using h x y

/-- No more are taken than there are. -/
theorem card_le_of_inj (hinj : ∀ {a a' : α} {b : β}, f a = some b → f a' = some b → a = a') {s : Finset β}
    {t : Finset α} (ht : ∀ a ∈ t, ∃ b ∈ s, f a = some b) : t.card ≤ s.card := by
  rw [← Finset.card_map (s := s) Function.Embedding.some]
  refine Finset.card_le_card_of_injOn f (fun a ha => ?_) fun a ha a' ha' he => ?_
  · obtain ⟨b, hb, hf⟩ := ht a ha
    rw [hf]
    exact Finset.mem_map_of_mem _ hb
  · obtain ⟨b, -, hf⟩ := ht a ha
    exact hinj hf (he ▸ hf)

/-- Fewer are taken than there are, so one is free. -/
theorem Inverse.exists_free (h : Inverse f g) {s : Finset β} {t : Finset α} (ht : ∀ a b, f a = some b → a ∈ t)
    (hlt : t.card < s.card) : ∃ b ∈ s, g b = none := by
  by_contra hall
  push Not at hall
  refine absurd (card_le_of_inj h.symm.inj fun b hb => ?_) (not_le.mpr hlt)
  obtain ⟨a, ha⟩ := Option.ne_none_iff_exists'.mp (hall b hb)
  exact ⟨a, ht a b ((h a b).mpr ha), ha⟩

end PartialInverse
