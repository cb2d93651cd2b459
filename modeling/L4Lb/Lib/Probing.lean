/-
# Open addressing with linear probing

A table of `N` cells, each empty or holding an item. An item is looked for
from its home cell on, cell by cell and around the end, up to an empty cell.
`Holds cells l`: the table holds the items `l`, and no item is behind an empty
cell on the way from its home. Then every search in a table that is not full
ends, and finds the item with the key if there is one.
-/
import Mathlib.Data.Fintype.Card
import Mathlib.Data.Finset.Card
import Mathlib.Data.Int.ModEq
import Mathlib.Logic.Function.Basic

namespace Probing

/-- The first cell from `i` on at which the search stops. -/
def probe (N : ℕ) (stop : ℕ → Bool) : ℕ → ℕ → Option ℕ
  | 0, _ => none
  | fuel + 1, i => if stop i then some i else probe N stop fuel ((i + 1) % N)

section Probe

variable {N : ℕ} {stop : ℕ → Bool}

theorem add_mod_succ (N i d : ℕ) : ((i + 1) % N + d) % N = (i + (d + 1)) % N := by
  rw [Nat.mod_add_mod]
  congr 1
  omega

/-- The search passes over the cells before the one it ends at. -/
theorem probe_eq_some : ∀ (fuel : ℕ) {i r : ℕ}, i < N → probe N stop fuel i = some r →
    ∃ d, d < fuel ∧ r = (i + d) % N ∧ stop r = true ∧ ∀ e, e < d → stop ((i + e) % N) = false
  | 0, _, _, _, h => by simp [probe] at h
  | fuel + 1, i, r, hi, h => by
    unfold probe at h
    by_cases hs : stop i = true
    · rw [if_pos hs] at h
      obtain rfl := Option.some.inj h
      exact ⟨0, by omega, (Nat.mod_eq_of_lt hi).symm, hs, by omega⟩
    · rw [if_neg hs] at h
      obtain ⟨d, hd, hr, hst, hpass⟩ := probe_eq_some fuel (Nat.mod_lt _ (by omega)) h
      refine ⟨d + 1, by omega, by rw [hr, add_mod_succ], hst, fun e he => ?_⟩
      cases e with
      | zero => rw [Nat.add_zero, Nat.mod_eq_of_lt hi]; simpa using hs
      | succ e => rw [← add_mod_succ]; exact hpass e (by omega)

theorem probe_isSome : ∀ (fuel : ℕ) {i : ℕ}, i < N →
    (∃ d, d < fuel ∧ stop ((i + d) % N) = true) → (probe N stop fuel i).isSome
  | 0, _, _, ⟨_, hd, _⟩ => by omega
  | fuel + 1, i, hi, ⟨d, hd, hs⟩ => by
    unfold probe
    by_cases hsi : stop i = true
    · rw [if_pos hsi]; rfl
    · rw [if_neg hsi]
      cases d with
      | zero => rw [Nat.add_zero, Nat.mod_eq_of_lt hi] at hs; exact absurd hs hsi
      | succ d => exact probe_isSome fuel (Nat.mod_lt _ (by omega)) ⟨d, by omega, by rwa [add_mod_succ]⟩

/-- Every cell is less than `N` steps away. -/
theorem exists_steps {i j : ℕ} (hi : i < N) (hj : j < N) : ∃ d, d < N ∧ (i + d) % N = j := by
  rcases Nat.lt_or_ge j i with h | h
  · refine ⟨N - i + j, by omega, ?_⟩
    rw [show i + (N - i + j) = N + j by omega, Nat.add_mod_left, Nat.mod_eq_of_lt hj]
  · exact ⟨j - i, by omega, by rw [show i + (j - i) = j by omega, Nat.mod_eq_of_lt hj]⟩

theorem steps_inj {i d e : ℕ} (hd : d < N) (he : e < N) (h : (i + d) % N = (i + e) % N) : d = e :=
  (Nat.ModEq.add_left_cancel' i h).eq_of_lt_of_lt hd he

theorem probe_congr {stop' : ℕ → Bool} (h : ∀ i, i < N → stop i = stop' i) : ∀ (fuel : ℕ) {i : ℕ},
    i < N → probe N stop fuel i = probe N stop' fuel i
  | 0, _, _ => rfl
  | fuel + 1, i, hi => by
    unfold probe
    rw [h i hi, probe_congr h fuel (Nat.mod_lt _ (by omega))]

/-- A search that some cell stops returns. -/
theorem probe_returns (stop : ℕ → Bool) {i j : ℕ} (hi : i < N) (hj : j < N) (hs : stop j = true) :
    ∃ r, probe N stop N i = some r ∧ r < N ∧ stop r = true := by
  obtain ⟨d, hd, rfl⟩ := exists_steps hi hj
  obtain ⟨r, hr⟩ := Option.isSome_iff_exists.mp (probe_isSome N hi ⟨d, hd, hs⟩)
  obtain ⟨d', _, hr', hst, _⟩ := probe_eq_some N hi hr
  exact ⟨r, hr, by rw [hr']; exact Nat.mod_lt _ (by omega), hst⟩

end Probe

variable {β κ : Type} {N : ℕ} {key : β → κ} {home : κ → ℕ}

/-- The table `cells` holds the items `l`, at most one for each key. -/
structure Holds (N : ℕ) (key : β → κ) (home : κ → ℕ) (cells : ℕ → Option β) (l : List β) : Prop where
  mem : ∀ b, b ∈ l ↔ ∃ i, i < N ∧ cells i = some b
  keys : (l.map key).Nodup
  once : ∀ i j b b', i < N → j < N → cells i = some b → cells j = some b' → key b = key b' → i = j
  placed : ∀ i b, i < N → cells i = some b → ∃ d, d < N ∧ i = (home (key b) + d) % N ∧
    ∀ e, e < d → (cells ((home (key b) + e) % N)).isSome

theorem Holds.empty : Holds N key home (fun _ => none) [] where
  mem b := by simp
  keys := List.nodup_nil
  once i j b b' _ _ h := by simp at h
  placed i b _ h := by simp at h

section

variable [DecidableEq κ] {cells : ℕ → Option β} {l : List β} (h : Holds N key home cells l)

include h

/-- A table with fewer items than cells has an empty cell. -/
theorem Holds.exists_empty (hl : l.length < N) : ∃ i, i < N ∧ cells i = none := by
  by_contra hfull
  have hsome : ∀ i : Fin N, ∃ b, cells i = some b := fun i =>
    Option.ne_none_iff_exists'.mp fun hn => hfull ⟨i, i.2, hn⟩
  choose item hitem using hsome
  have hinj : Function.Injective fun i : Fin N => key (item i) := fun i j hij =>
    Fin.ext (h.once i j _ _ i.2 j.2 (hitem i) (hitem j) hij)
  have hsub : Finset.univ.image (fun i : Fin N => key (item i)) ⊆ (l.map key).toFinset := by
    intro k hk
    obtain ⟨i, -, rfl⟩ := Finset.mem_image.mp hk
    exact List.mem_toFinset.mpr (List.mem_map_of_mem ((h.mem _).mpr ⟨i, i.2, hitem i⟩))
  have hcard := Finset.card_le_card hsub
  rw [Finset.card_image_of_injective _ hinj, Finset.card_univ, Fintype.card_fin] at hcard
  have := List.toFinset_card_le (l.map key)
  rw [List.length_map] at this
  omega

/-- An item goes into the first empty cell from its home on. -/
theorem Holds.insert (hhome : ∀ k, home k < N) (hl : l.length < N) {b : β} (hb : key b ∉ l.map key) :
    ∃ i, probe N (fun i => (cells i).isNone) N (home (key b)) = some i ∧ i < N ∧
      Holds N key home (Function.update cells i (some b)) (b :: l) := by
  obtain ⟨j, hj, hempty⟩ := h.exists_empty hl
  obtain ⟨i, hi, hiN, hnone⟩ := probe_returns (fun i => (cells i).isNone) (hhome (key b)) hj
    (by simp [hempty])
  obtain ⟨d, hd, hid, -, hpass⟩ := probe_eq_some N (hhome (key b)) hi
  have hci : cells i = none := Option.isNone_iff_eq_none.mp hnone
  have hne : ∀ j b', cells j = some b' → j ≠ i := fun j b' hjb e => by
    rw [e, hci] at hjb
    simp at hjb
  have hnotin : ∀ j b', j < N → cells j = some b' → key b' ≠ key b := fun j b' hjN hjb e =>
    hb (e ▸ List.mem_map_of_mem ((h.mem b').mpr ⟨j, hjN, hjb⟩))
  refine ⟨i, hi, hiN, ⟨fun b' => ?_, ?_, ?_, ?_⟩⟩
  · rw [List.mem_cons, h.mem]
    constructor
    · rintro (rfl | ⟨j, hjN, hjb⟩)
      · exact ⟨i, hiN, Function.update_self ..⟩
      · exact ⟨j, hjN, by rw [Function.update_of_ne (hne j b' hjb)]; exact hjb⟩
    · rintro ⟨j, hjN, hjb⟩
      by_cases hji : j = i
      · rw [hji, Function.update_self] at hjb
        exact Or.inl (Option.some.inj hjb).symm
      · rw [Function.update_of_ne hji] at hjb
        exact Or.inr ⟨j, hjN, hjb⟩
  · rw [List.map_cons, List.nodup_cons]
    exact ⟨hb, h.keys⟩
  · intro j j' b1 b2 hjN hjN' h1 h2 hk
    by_cases hji : j = i <;> by_cases hji' : j' = i
    · rw [hji, hji']
    · rw [hji, Function.update_self] at h1
      rw [Function.update_of_ne hji'] at h2
      exact absurd (Option.some.inj h1 ▸ hk).symm (hnotin j' b2 hjN' h2)
    · rw [hji', Function.update_self] at h2
      rw [Function.update_of_ne hji] at h1
      exact absurd (Option.some.inj h2 ▸ hk) (hnotin j b1 hjN h1)
    · rw [Function.update_of_ne hji] at h1
      rw [Function.update_of_ne hji'] at h2
      exact h.once j j' b1 b2 hjN hjN' h1 h2 hk
  · intro j b' hjN hjb
    have grow : ∀ c, (cells c).isSome → (Function.update cells i (some b) c).isSome := fun c hc => by
      by_cases hci : c = i
      · rw [hci, Function.update_self]; rfl
      · rwa [Function.update_of_ne hci]
    by_cases hji : j = i
    · rw [hji, Function.update_self] at hjb
      obtain rfl := Option.some.inj hjb
      refine ⟨d, hd, by rw [hji, hid], fun e he => grow _ ?_⟩
      have := hpass e he
      simpa using this
    · rw [Function.update_of_ne hji] at hjb
      obtain ⟨d', hd', hj', hocc⟩ := h.placed j b' hjN hjb
      exact ⟨d', hd', hj', fun e he => grow _ (hocc e he)⟩

/-- The search for a key ends at its item, or at an empty cell if there is
none. -/
theorem Holds.find (hhome : ∀ k, home k < N) (hl : l.length < N) (k : κ) :
    ∃ i, probe N (fun i => (cells i).all fun b => key b = k) N (home k) = some i ∧ i < N ∧
      (∀ b ∈ l, key b = k → cells i = some b) ∧ (k ∉ l.map key → cells i = none) := by
  obtain ⟨j, hj, hempty⟩ := h.exists_empty hl
  obtain ⟨i, hi, hiN, hstop⟩ := probe_returns (fun i => (cells i).all fun b => key b = k) (hhome k) hj
    (by simp [hempty])
  refine ⟨i, hi, hiN, fun b hb hk => ?_, fun hk => ?_⟩
  · obtain ⟨c, hc, hcb⟩ := (h.mem b).mp hb
    obtain ⟨d, hd, hcd, hocc⟩ := h.placed c b hc hcb
    obtain ⟨d', hd', hid, -, hpass⟩ := probe_eq_some N (hhome k) hi
    rw [hk] at hcd hocc
    -- the search does not stop before the item and stops there
    have hle : d' ≤ d := by
      by_contra hlt
      have := hpass d (by omega)
      rw [← hcd, hcb] at this
      simp [hk] at this
    have hge : d ≤ d' := by
      by_contra hlt
      obtain ⟨b', hb'⟩ := Option.isSome_iff_exists.mp (hocc d' (by omega))
      rw [hid, hb'] at hstop
      have hk' : key b' = k := by simpa using hstop
      have := h.once _ _ b' b (Nat.mod_lt _ (by omega)) hc hb' hcb (hk'.trans hk.symm)
      rw [hcd] at this
      exact hlt (steps_inj hd' hd this).ge
    rw [hid, show d' = d by omega, ← hcd]
    exact hcb
  · cases hci : cells i with
    | none => rfl
    | some b =>
      rw [hci] at hstop
      have hk' : key b = k := by simpa using hstop
      exact absurd (hk' ▸ List.mem_map_of_mem ((h.mem b).mpr ⟨i, hiN, hci⟩)) hk

end

end Probing
