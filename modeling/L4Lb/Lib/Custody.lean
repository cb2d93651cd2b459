/-
# Custody

Items that carry a token are kept in places, and are passed from one place to
another. `Once` says that each token is in exactly one place, and there once:
nothing is lost and nothing is there twice. Passing items on keeps it, and so
does taking in items with new tokens.
-/
import Mathlib.Logic.Function.Basic
import Mathlib.Data.List.Nodup

namespace Custody

variable {P A T : Type*} [DecidableEq P] {tag : A → T} {hold : P → List A} {all : T → Prop} {p q : P}

/-- The tokens `all` are each in one place, once, and no others are anywhere. -/
structure Once (tag : A → T) (hold : P → List A) (all : T → Prop) : Prop where
  nodup : ∀ p, ((hold p).map tag).Nodup
  unique : ∀ p q t, t ∈ (hold p).map tag → t ∈ (hold q).map tag → p = q
  mem_iff : ∀ t, all t ↔ ∃ p, t ∈ (hold p).map tag

/-- `p` keeps `rest`, and `l` goes to the end of `q`. -/
def pass (hold : P → List A) (p : P) (rest : List A) (q : P) (l : List A) : P → List A :=
  Function.update (Function.update hold p rest) q (hold q ++ l)

theorem pass_apply (hold : P → List A) (p : P) (rest : List A) (q : P) (l : List A) (r : P) :
    pass hold p rest q l r = if r = q then hold q ++ l else if r = p then rest else hold r := by
  simp only [pass, Function.update_apply]

@[simp] theorem pass_to (hold : P → List A) (p : P) (rest : List A) (q : P) (l : List A) :
    pass hold p rest q l q = hold q ++ l := by simp [pass]

theorem pass_from (h : p ≠ q) (rest l : List A) : pass hold p rest q l p = rest := by simp [pass, h]

theorem pass_of_ne {r : P} (hp : r ≠ p) (hq : r ≠ q) (rest l : List A) : pass hold p rest q l r = hold r := by
  simp [pass, hp, hq]

/-- Where a token is after items have been passed on. -/
theorem mem_pass (hpq : p ≠ q) {rest l : List A} {r : P} {t : T} : t ∈ (pass hold p rest q l r).map tag ↔
    (r = p ∧ t ∈ rest.map tag) ∨ (r = q ∧ (t ∈ (hold q).map tag ∨ t ∈ l.map tag)) ∨
      (r ≠ p ∧ r ≠ q ∧ t ∈ (hold r).map tag) := by
  by_cases hp : r = p
  · subst hp
    simp [pass_from hpq, hpq]
  by_cases hq : r = q
  · subst hq
    simp [hp]
  · simp [pass_of_ne hp hq, hp, hq]

/-- **Passing on** keeps each token in one place: what `p` had is what it
keeps and what it passes on. -/
theorem Once.pass (h : Once tag hold all) (hpq : p ≠ q) {rest l : List A}
    (hp : ((hold p).map tag).Perm (l.map tag ++ rest.map tag)) : Once tag (pass hold p rest q l) all := by
  have hmem : ∀ t, t ∈ (hold p).map tag ↔ t ∈ l.map tag ∨ t ∈ rest.map tag := fun t => by
    rw [hp.mem_iff, List.mem_append]
  have hn := hp.nodup_iff.mp (h.nodup p)
  rw [List.nodup_append] at hn
  obtain ⟨hl, hrest, hdis⟩ := hn
  -- a token comes from the place it is in, or from `p` if it has been passed on
  have hfrom : ∀ r t, t ∈ (Custody.pass hold p rest q l r).map tag →
      (t ∈ (hold r).map tag ∧ t ∉ l.map tag) ∨ (r = q ∧ t ∈ l.map tag) := by
    intro r t ht
    rcases (mem_pass hpq).mp ht with ⟨rfl, hr⟩ | ⟨rfl, hr | hr⟩ | ⟨hrp, -, hr⟩
    · exact Or.inl ⟨(hmem t).mpr (Or.inr hr), fun hl' => hdis t hl' t hr rfl⟩
    · exact Or.inl ⟨hr, fun hl' => hpq (h.unique _ _ t ((hmem t).mpr (Or.inl hl')) hr)⟩
    · exact Or.inr ⟨rfl, hr⟩
    · exact Or.inl ⟨hr, fun hl' => hrp (h.unique _ _ t hr ((hmem t).mpr (Or.inl hl')))⟩
  refine ⟨fun r => ?_, fun r s t hr hs => ?_, fun t => ?_⟩
  · by_cases hrp : r = p
    · subst hrp
      rw [pass_from hpq]
      exact hrest
    by_cases hrq : r = q
    · subst hrq
      rw [pass_to, List.map_append, List.nodup_append]
      refine ⟨h.nodup _, hl, fun a ha b hb hab => ?_⟩
      exact hpq (h.unique _ _ a ((hmem a).mpr (Or.inl (hab ▸ hb))) ha)
    · rw [pass_of_ne hrp hrq]
      exact h.nodup r
  · rcases hfrom r t hr with ⟨h1, hn1⟩ | ⟨rfl, h1⟩
    · rcases hfrom s t hs with ⟨h2, -⟩ | ⟨-, h2⟩
      · exact h.unique r s t h1 h2
      · exact absurd h2 hn1
    · rcases hfrom s t hs with ⟨-, hn2⟩ | ⟨rfl, -⟩
      · exact absurd h1 hn2
      · rfl
  · rw [h.mem_iff]
    constructor
    · rintro ⟨r, hr⟩
      by_cases hrp : r = p
      · subst hrp
        rcases (hmem t).mp hr with hr | hr
        · exact ⟨q, (mem_pass hpq).mpr (Or.inr (Or.inl ⟨rfl, Or.inr hr⟩))⟩
        · exact ⟨r, (mem_pass hpq).mpr (Or.inl ⟨rfl, hr⟩)⟩
      by_cases hrq : r = q
      · subst hrq
        exact ⟨r, (mem_pass hpq).mpr (Or.inr (Or.inl ⟨rfl, Or.inl hr⟩))⟩
      · exact ⟨r, (mem_pass hpq).mpr (Or.inr (Or.inr ⟨hrp, hrq, hr⟩))⟩
    · rintro ⟨r, hr⟩
      rcases hfrom r t hr with ⟨h1, -⟩ | ⟨-, h1⟩
      · exact ⟨r, h1⟩
      · exact ⟨p, (hmem t).mpr (Or.inl h1)⟩

/-- What `p` holds is shared out: the first `n` items go to `q`, the rest to `r`. -/
def share (hold : P → List A) (p : P) (n : ℕ) (q r : P) : P → List A :=
  pass (pass hold p ((hold p).drop n) q ((hold p).take n)) p [] r ((hold p).drop n)

theorem share_apply {r : P} (hpq : p ≠ q) (hpr : p ≠ r) (hqr : q ≠ r) (n : ℕ) (x : P) : share hold p n q r x =
    if x = r then hold r ++ (hold p).drop n else if x = q then hold q ++ (hold p).take n
      else if x = p then [] else hold x := by
  simp only [share, pass_apply]
  by_cases hx : x = r
  · subst hx
    simp [hqr.symm, hpr.symm]
  by_cases hx' : x = q
  · subst hx'
    simp [hx, hpq.symm]
  by_cases hp : x = p
  · simp [hp, hpq, hpr]
  · simp [hx, hx', hp]

theorem Once.share (h : Once tag hold all) {r : P} (hpq : p ≠ q) (hpr : p ≠ r) (n : ℕ) :
    Once tag (share hold p n q r) all := by
  have h1 : Once tag (Custody.pass hold p ((hold p).drop n) q ((hold p).take n)) all :=
    h.pass hpq (by rw [← List.map_append, List.take_append_drop])
  exact h1.pass hpr (by rw [pass_from hpq]; simp)

/-- **Taking in** items with new tokens. -/
theorem Once.enter (h : Once tag hold all) {l : List A} (hl : (l.map tag).Nodup) (hnew : ∀ t ∈ l.map tag, ¬ all t) :
    Once tag (Function.update hold p (hold p ++ l)) fun t => all t ∨ t ∈ l.map tag := by
  have hmem : ∀ r t, t ∈ (Function.update hold p (hold p ++ l) r).map tag ↔
      t ∈ (hold r).map tag ∨ (r = p ∧ t ∈ l.map tag) := by
    intro r t
    by_cases hr : r = p
    · subst hr
      simp
    · simp [hr]
  have hout : ∀ r t, t ∈ (hold r).map tag → t ∉ l.map tag := fun r t hr ht => hnew t ht ((h.mem_iff t).mpr ⟨r, hr⟩)
  refine ⟨fun r => ?_, fun r s t hr hs => ?_, fun t => ?_⟩
  · by_cases hr : r = p
    · subst hr
      rw [Function.update_self, List.map_append, List.nodup_append]
      exact ⟨h.nodup _, hl, fun a ha b hb hab => hout r a ha (hab ▸ hb)⟩
    · rw [Function.update_of_ne hr]
      exact h.nodup r
  · rcases (hmem r t).mp hr with h1 | ⟨rfl, h1⟩
    · rcases (hmem s t).mp hs with h2 | ⟨-, h2⟩
      · exact h.unique r s t h1 h2
      · exact absurd h2 (hout r t h1)
    · rcases (hmem s t).mp hs with h2 | ⟨rfl, -⟩
      · exact absurd h1 (hout s t h2)
      · rfl
  · rw [h.mem_iff]
    simp only [hmem, exists_or, exists_eq_left]

end Custody
