/-
# Maps of bounded size

What may be relied on of a table from keys to values that is somebody else's code: it
is created for a number of entries, an insertion overwrites the value of a key that
is there and fails only if a new key would be one entry too many, and a deletion
takes out one key. `Laws` says this of any type of tables with its calls. What each
call does to the number of keys follows.
-/
import Mathlib.Data.Finset.Card

namespace BoundedMap

/-- The laws of the calls on tables of type `σ`. -/
structure Laws {σ κ ν : Type} [DecidableEq κ] (create : ℕ → σ) (entries count : σ → ℕ) (lookup : σ → κ → Option ν)
    (add : σ → κ → ν → Option σ) (del : σ → κ → σ) : Prop where
  lookup_create : ∀ n k, lookup (create n) k = none
  entries_create : ∀ n, entries (create n) = n
  add_isSome : ∀ h k v, (add h k v).isSome ↔ (lookup h k).isSome ∨ count h < entries h
  lookup_add : ∀ {h h' k v}, add h k v = some h' → ∀ k', lookup h' k' = if k' = k then some v else lookup h k'
  entries_add : ∀ {h h' k v}, add h k v = some h' → entries h' = entries h
  lookup_del : ∀ h k k', lookup (del h k) k' = if k' = k then none else lookup h k'
  entries_del : ∀ h k, entries (del h k) = entries h
  /-- the table counts its keys -/
  keys : ∀ h, ∃ s : Finset κ, (∀ k, k ∈ s ↔ (lookup h k).isSome) ∧ s.card = count h

namespace Laws

variable {σ κ ν : Type} [DecidableEq κ] {create : ℕ → σ} {entries count : σ → ℕ} {lookup : σ → κ → Option ν}
  {add : σ → κ → ν → Option σ} {del : σ → κ → σ} {h h' : σ} {k : κ} {v : ν} {s : Finset κ}

theorem count_eq_card (L : Laws create entries count lookup add del) (hs : ∀ k, k ∈ s ↔ (lookup h k).isSome) :
    count h = s.card := by
  obtain ⟨s', hs', hc⟩ := L.keys h
  rw [← hc, Finset.ext fun k => (hs' k).trans (hs k).symm]

theorem count_le_card (L : Laws create entries count lookup add del) (hs : ∀ k, (lookup h k).isSome → k ∈ s) :
    count h ≤ s.card := by
  obtain ⟨s', hs', hc⟩ := L.keys h
  exact hc ▸ Finset.card_le_card fun k hk => hs k ((hs' k).mp hk)

theorem count_create (L : Laws create entries count lookup add del) (n : ℕ) : count (create n) = 0 :=
  L.count_eq_card (s := ∅) fun k => by simp [L.lookup_create]

/-- A key that is there is overwritten, and a new one counts. -/
theorem count_add (L : Laws create entries count lookup add del) (he : add h k v = some h') :
    count h' + (if (lookup h k).isSome then 1 else 0) = count h + 1 := by
  obtain ⟨s, hs, hc⟩ := L.keys h
  have hs' : ∀ x, x ∈ insert k s ↔ (lookup h' x).isSome := fun x => by
    rw [L.lookup_add he, Finset.mem_insert, hs]
    by_cases hx : x = k <;> simp [hx]
  rw [L.count_eq_card hs', ← hc]
  split
  · rename_i hk
    rw [Finset.card_insert_of_mem ((hs k).mpr hk)]
  · rename_i hk
    rw [Finset.card_insert_of_notMem fun hm => hk ((hs k).mp hm)]

/-- Without the key there is one entry less, if it was there. -/
theorem count_del (L : Laws create entries count lookup add del) (h : σ) (k : κ) :
    count (del h k) + (if (lookup h k).isSome then 1 else 0) = count h := by
  obtain ⟨s, hs, hc⟩ := L.keys h
  have hs' : ∀ x, x ∈ s.erase k ↔ (lookup (del h k) x).isSome := fun x => by
    rw [L.lookup_del, Finset.mem_erase, hs]
    by_cases hx : x = k <;> simp [hx]
  rw [L.count_eq_card hs', ← hc]
  split
  · rename_i hk
    exact Finset.card_erase_add_one ((hs k).mpr hk)
  · rename_i hk
    rw [Finset.erase_eq_of_notMem fun hm => hk ((hs k).mp hm)]
    rfl

end Laws

end BoundedMap
