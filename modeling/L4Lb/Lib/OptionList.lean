/-
# Options of a kind and a length

A list of options as TCP and IPv4 headers have it: an option is its kind, its
length and its data, the length counting all three. Kind 1 is a single byte,
kind 0 ends the list. `walk` cuts a list of bytes into the options a reader
meets and what it does not look at; `blank` overwrites every option of one kind
with single bytes of kind 1, so that all others stay where they are.
-/
import Mathlib.Data.List.Basic
import Mathlib.Tactic.Common

namespace OptionList

/-- The first option of a list, and what follows it. There is none at the end,
and none where the length is too short or leaves the list. -/
def next : List UInt8 → Option (List UInt8 × List UInt8)
  | [] => none
  | [kind] => if kind = 1 then some ([kind], []) else none
  | kind :: len :: rest =>
    if kind = 0 then none
    else if kind = 1 then some ([kind], len :: rest)
    else if len.toNat < 2 ∨ rest.length + 2 < len.toNat then none
    else some ((kind :: len :: rest).take len.toNat, (kind :: len :: rest).drop len.toNat)

variable {l o r : List UInt8}

/-- The option and what follows it are the list. -/
theorem append_of_next (h : next l = some (o, r)) : o ++ r = l ∧ o ≠ [] := by
  unfold next at h
  split at h
  · cases h
  · split at h <;> cases h
    exact ⟨rfl, by simp⟩
  · rename_i kind len rest
    split at h
    · cases h
    split at h
    · cases h
      exact ⟨rfl, by simp⟩
    split at h
    · cases h
    · rename_i hlen
      obtain ⟨rfl, rfl⟩ := Prod.mk.inj (Option.some.inj h)
      refine ⟨List.take_append_drop _ _, ?_⟩
      rw [Ne, List.take_eq_nil_iff]
      rintro (h0 | h0)
      · omega
      · cases h0

theorem length_of_next (h : next l = some (o, r)) : r.length < l.length := by
  obtain ⟨rfl, ho⟩ := append_of_next h
  have := List.length_pos_of_ne_nil ho
  rw [List.length_append]
  omega

/-- The options a reader meets, and the bytes behind them. -/
def walk (l : List UInt8) : List (List UInt8) × List UInt8 :=
  match _ : next l with
  | none => ([], l)
  | some (o, r) => (o :: (walk r).1, (walk r).2)
termination_by l.length
decreasing_by all_goals exact length_of_next ‹_›

theorem walk_of_not_next (h : next l = none) : walk l = ([], l) := by
  unfold walk
  split
  · rfl
  · rename_i h'
    rw [h] at h'
    cases h'

theorem walk_of_next (h : next l = some (o, r)) : walk l = (o :: (walk r).1, (walk r).2) := by
  rw [walk]
  split
  · rename_i h'
    rw [h] at h'
    cases h'
  · rename_i h'
    rw [h] at h'
    cases h'
    rfl

/-- A reader meets an option of the kind. -/
def met (kind : UInt8) (l : List UInt8) : Bool := (walk l).1.any fun o => o.head? == some kind

/-- An option of the kind, overwritten. -/
def blankOption (kind : UInt8) (o : List UInt8) : List UInt8 :=
  if o.head? = some kind then List.replicate o.length 1 else o

/-- The list with every option of the kind that a reader meets overwritten. -/
def blank (kind : UInt8) (l : List UInt8) : List UInt8 :=
  ((walk l).1.map (blankOption kind)).flatten ++ (walk l).2

variable (kind : UInt8)

theorem blank_of_not_next (h : next l = none) : blank kind l = l ∧ met kind l = false := by
  unfold blank met
  rw [walk_of_not_next h]
  exact ⟨rfl, rfl⟩

theorem blank_of_next (h : next l = some (o, r)) :
    blank kind l = blankOption kind o ++ blank kind r ∧
      met kind l = (o.head? == some kind || met kind r) := by
  unfold blank met
  rw [walk_of_next h]
  exact ⟨by simp, rfl⟩

theorem next_one (l : List UInt8) : next (1 :: l) = some ([1], l) := by
  cases l <;> rfl

/-- Nothing in front of the list but single bytes. -/
theorem blank_ones {kind : UInt8} (hk : kind ≠ 1) (l : List UInt8) : ∀ n : ℕ,
    blank kind (List.replicate n 1 ++ l) = List.replicate n 1 ++ blank kind l ∧
      met kind (List.replicate n 1 ++ l) = met kind l
  | 0 => ⟨rfl, rfl⟩
  | n + 1 => by
    obtain ⟨hb, hm⟩ := blank_ones hk l n
    have hone : ([1] : List UInt8).head? ≠ some kind := by simpa using hk.symm
    obtain ⟨hb', hm'⟩ := blank_of_next kind (next_one (List.replicate n 1 ++ l))
    rw [List.replicate_succ, List.cons_append, hb', hm', hb, hm, blankOption, if_neg hone]
    refine ⟨rfl, ?_⟩
    rw [beq_eq_false_iff_ne.mpr hone, Bool.false_or]

theorem length_blankOption (o : List UInt8) : (blankOption kind o).length = o.length := by
  unfold blankOption
  split
  · exact List.length_replicate
  · rfl

theorem length_blank (l : List UInt8) : (blank kind l).length = l.length := by
  cases h : next l with
  | none => rw [(blank_of_not_next kind h).1]
  | some p =>
    obtain ⟨o, r⟩ := p
    have hr := length_of_next h
    rw [(blank_of_next kind h).1, ← (append_of_next h).1, List.length_append, List.length_append,
      length_blankOption, length_blank r]
termination_by l.length

/-- Whether an option is met depends on its own bytes, and on how many follow. -/
theorem next_append {r' : List UInt8} (h : next l = some (o, r)) (hr : r'.length = r.length) :
    next (o ++ r') = some (o, r') := by
  unfold next at h
  split at h
  · cases h
  · split at h
    · rename_i hone
      cases h
      rw [hone]
      exact next_one r'
    · cases h
  · rename_i kind len rest
    split at h
    · cases h
    rename_i h0
    split at h
    · rename_i hone
      cases h
      rw [hone]
      exact next_one r'
    rename_i h1
    split at h
    · cases h
    rename_i hlen
    obtain ⟨rfl, rfl⟩ := Prod.mk.inj (Option.some.inj h)
    obtain ⟨k, hk⟩ : ∃ k, len.toNat = k + 2 := ⟨len.toNat - 2, by omega⟩
    rw [hk, List.take_succ_cons, List.take_succ_cons, List.cons_append, List.cons_append, next, if_neg h0, if_neg h1,
      if_neg (by simp [hk] at hr ⊢; omega), hk]
    have hl : (kind :: len :: rest.take k).length = k + 2 := by
      rw [List.length_cons, List.length_cons, List.length_take]
      omega
    change some (((kind :: len :: rest.take k) ++ r').take (k + 2),
      ((kind :: len :: rest.take k) ++ r').drop (k + 2)) = _
    rw [List.take_left' hl, List.drop_left' hl]

/-- None of the kind is met in what is left. -/
theorem met_blank {kind : UInt8} (hk : kind ≠ 1) (l : List UInt8) : met kind (blank kind l) = false := by
  cases h : next l with
  | none =>
    obtain ⟨hb, hm⟩ := blank_of_not_next kind h
    rw [hb, hm]
  | some p =>
    obtain ⟨o, r⟩ := p
    have hr := length_of_next h
    have ih := met_blank hk r
    rw [(blank_of_next kind h).1, blankOption]
    split
    · rw [(blank_ones hk _ _).2, ih]
    · rename_i ho
      rw [(blank_of_next kind (next_append h (length_blank kind r))).2, ih, beq_eq_false_iff_ne.mpr ho]
      rfl
termination_by l.length

example : blank 8 [2, 4, 5, 180, 8, 3, 7, 1, 0, 8] = [2, 4, 5, 180, 1, 1, 1, 1, 0, 8] := by decide +kernel

end OptionList
