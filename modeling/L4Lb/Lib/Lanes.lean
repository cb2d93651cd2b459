/-
# Lanes

Items are kept in places (`Custody`), and a lane is a sequence of places that
some of the items go through, from the last place to the first. An item leaves
a place at the front and joins the next one at the end. What is on the lane,
read from its first place to its last, then stays as it is when items move on,
and loses items when they are taken off: in either case it is a sublist of
what it was, so items on a lane do not overtake each other.
-/
import L4Lb.Lib.Custody

namespace Custody

variable {P T : Type*} {hold hold' : P → List T} {keep : T → Bool} {p q : P}

/-- What is on the lane, of the items that belong to it. -/
def lane (hold : P → List T) (keep : T → Bool) (stages : List P) : List T :=
  stages.flatMap fun p => (hold p).filter keep

@[simp] theorem lane_cons (stages : List P) :
    lane hold keep (p :: stages) = (hold p).filter keep ++ lane hold keep stages := rfl

@[simp] theorem lane_append (pre post : List P) :
    lane hold keep (pre ++ post) = lane hold keep pre ++ lane hold keep post := List.flatMap_append

theorem mem_lane {stages : List P} {t : T} : t ∈ lane hold keep stages ↔ keep t = true ∧ ∃ p ∈ stages, t ∈ hold p := by
  simp only [lane, List.mem_flatMap, List.mem_filter]
  tauto

/-- Places that lose items, or keep them, or take in others. -/
theorem lane_sublist {stages : List P}
    (h : ∀ r ∈ stages, ((hold' r).filter keep).Sublist ((hold r).filter keep)) :
    (lane hold' keep stages).Sublist (lane hold keep stages) := by
  induction stages with
  | nil => exact List.Sublist.refl _
  | cons r stages ih =>
    exact (h r List.mem_cons_self).append (ih fun r' hr' => h r' (List.mem_cons_of_mem _ hr'))

theorem lane_congr {stages : List P} (h : ∀ r ∈ stages, (hold' r).filter keep = (hold r).filter keep) :
    lane hold' keep stages = lane hold keep stages :=
  List.flatMap_congr h

variable [DecidableEq P]

/-- **Moving on**: items go from the front of `p` to the end of `q`, the next
place of the lane. -/
theorem lane_move {rest l : List T} {pre post : List P} (hl : hold p = l ++ rest) (hpq : p ≠ q)
    (hp : p ∉ pre ++ post) (hq : q ∉ pre ++ post) :
    lane (pass hold p rest q l) keep (pre ++ q :: p :: post) = lane hold keep (pre ++ q :: p :: post) := by
  have hsame : ∀ stages, stages ⊆ pre ++ post →
      lane (pass hold p rest q l) keep stages = lane hold keep stages := by
    intro stages hs
    refine lane_congr fun r hr => ?_
    have hrp : r ≠ p := fun e => hp (e ▸ hs hr)
    have hrq : r ≠ q := fun e => hq (e ▸ hs hr)
    rw [pass_of_ne hrp hrq]
  simp only [lane_append, lane_cons, hsame pre (List.subset_append_left _ _), hsame post (List.subset_append_right _ _),
    pass_to, pass_from hpq, hl, List.filter_append, List.append_assoc]

/-- **Leaving**: items go from `p` to a place where they are not on the lane. -/
theorem lane_leave {rest l : List T} {stages : List P} (hl : hold p = l ++ rest)
    (hq : q ∈ stages → l.filter keep = []) :
    (lane (pass hold p rest q l) keep stages).Sublist (lane hold keep stages) := by
  refine lane_sublist fun r hr => ?_
  rw [pass_apply]
  split
  · rename_i he
    rw [List.filter_append, hq (he ▸ hr), List.append_nil, he]
  split
  · rename_i he
    rw [he, hl, List.filter_append]
    exact List.sublist_append_right ..
  · exact List.Sublist.refl _

/-- `q` is the place that follows `p` on the lane. -/
def Follows (stages : List P) (q p : P) : Prop :=
  ∃ pre post, stages = pre ++ q :: p :: post ∧ p ∉ pre ++ post ∧ q ∉ pre ++ post

/-- **Passing on** keeps the order of a lane, if items of the lane that stay
on it go to the next place. -/
theorem lane_pass {rest l : List T} {stages : List P} (hl : hold p = l ++ rest) (hpq : p ≠ q)
    (h : q ∈ stages → ∀ t ∈ l, keep t = true → Follows stages q p) :
    (lane (pass hold p rest q l) keep stages).Sublist (lane hold keep stages) := by
  by_cases hon : q ∈ stages ∧ ∃ t ∈ l, keep t = true
  · obtain ⟨hq, t, ht, hk⟩ := hon
    obtain ⟨pre, post, rfl, hp, hq'⟩ := h hq t ht hk
    rw [lane_move hl hpq hp hq']
  · refine lane_leave hl fun hq => List.filter_eq_nil_iff.mpr fun t ht hk => hon ⟨hq, t, ht, hk⟩

/-- **Coming in** at the end of the lane, or beside it. -/
theorem lane_enter {l : List T} {stages : List P} (hp : hold p = [])
    (h : p ∈ stages → ∀ t ∈ l, keep t = true →
      ∃ pre post, stages = pre ++ p :: post ∧ p ∉ pre ++ post ∧ ∀ r ∈ post, hold r = []) :
    (lane (Function.update hold p l) keep stages).Sublist (lane hold keep stages ++ l) := by
  by_cases hon : p ∈ stages ∧ ∃ t ∈ l, keep t = true
  · obtain ⟨hps, t, ht, hk⟩ := hon
    obtain ⟨pre, post, rfl, hp', hpost⟩ := h hps t ht hk
    have hsame : ∀ stages, stages ⊆ pre ++ post →
        lane (Function.update hold p l) keep stages = lane hold keep stages := by
      intro stages hs
      refine lane_congr fun r hr => ?_
      have hrp : r ≠ p := fun e => hp' (e ▸ hs hr)
      rw [Function.update_of_ne hrp]
    have hend : lane hold keep post = [] := List.flatMap_eq_nil_iff.mpr fun r hr => by rw [hpost r hr]; rfl
    simp only [lane_append, lane_cons, hsame pre (List.subset_append_left _ _),
      hsame post (List.subset_append_right _ _), Function.update_self, hp, hend, List.filter_nil, List.append_nil]
    exact List.Sublist.append_left List.filter_sublist _
  · refine (lane_sublist fun r hr => ?_).trans (List.sublist_append_left _ _)
    by_cases hr' : r = p
    · subst hr'
      rw [Function.update_self, List.filter_eq_nil_iff.mpr fun t ht hk => hon ⟨hr, t, ht, hk⟩]
      exact List.nil_sublist _
    · rw [Function.update_of_ne hr']

/-- What is in a place was there before, or has been passed on to it. -/
theorem mem_of_pass {rest l : List T} {r : P} {t : T} (hrest : rest ⊆ hold p) (h : t ∈ pass hold p rest q l r) :
    t ∈ hold r ∨ (r = q ∧ t ∈ l) := by
  rw [pass_apply] at h
  split at h
  · rename_i he
    rcases List.mem_append.mp h with h | h
    · exact Or.inl (he ▸ h)
    · exact Or.inr ⟨he, h⟩
  split at h
  · rename_i he
    exact Or.inl (he ▸ hrest h)
  · exact Or.inl h

/-- What is passed on, seen through a function of the items. -/
theorem map_pass {A : Type*} (f : A → T) (held : P → List A) (p : P) (rest : List A) (q : P) (l : List A) (r : P) :
    (pass held p rest q l r).map f = pass (fun x => (held x).map f) p (rest.map f) q (l.map f) r := by
  simp only [pass_apply]
  split
  · rw [List.map_append]
  split
  · rfl
  · rfl

end Custody
