/-
# A log in numbered slots

A log that is cut into slots, the newest part in slot 0 and older parts in the
higher slots. It grows in slot 0. To make room there the parts move up one slot
each, starting from the highest, so that on the way one slot is empty and the
oldest part is gone. `joined` puts the parts together again; what it gives stays
a suffix of everything that was ever added.
-/
import Mathlib.Data.List.Basic
import Mathlib.Logic.Function.Basic
import Mathlib.Tactic.Common

namespace SlotLog

variable {α : Type*} {f g : ℕ → List α} {n j : ℕ} {history : List α}

/-- The parts in the slots below `n`, the oldest first. -/
def joined (f : ℕ → List α) : ℕ → List α
  | 0 => []
  | n + 1 => f n ++ joined f n

theorem joined_congr (h : ∀ i < n, f i = g i) : joined f n = joined g n := by
  induction n with
  | zero => rfl
  | succ n ih => rw [joined, joined, h n n.lt_succ_self, ih fun i hi => h i (Nat.lt_succ_of_lt hi)]

theorem flatten_joined (f : ℕ → List (List α)) (n : ℕ) :
    (joined f n).flatten = joined (fun i => (f i).flatten) n := by
  induction n with
  | zero => rfl
  | succ n ih => rw [joined, joined, List.flatten_append, ih]

/-! ### Adding to the newest part -/

theorem joined_update_zero (f : ℕ → List α) (x : List α) (n : ℕ) :
    joined (Function.update f 0 (f 0 ++ x)) (n + 1) = joined f (n + 1) ++ x := by
  induction n with
  | zero => simp [joined]
  | succ n ih =>
    calc joined (Function.update f 0 (f 0 ++ x)) (n + 2)
        = f (n + 1) ++ joined (Function.update f 0 (f 0 ++ x)) (n + 1) := by
          rw [joined, Function.update_of_ne n.succ_ne_zero]
      _ = f (n + 1) ++ (joined f (n + 1) ++ x) := by rw [ih]
      _ = joined f (n + 2) ++ x := (List.append_assoc _ _ _).symm

/-- What is added to the newest part is added to the history. -/
theorem suffix_append (h : joined f (n + 1) <:+ history) (x : List α) :
    joined (Function.update f 0 (f 0 ++ x)) (n + 1) <:+ history ++ x := by
  obtain ⟨old, rfl⟩ := h
  exact ⟨old, by rw [joined_update_zero, List.append_assoc]⟩

/-! ### Moving the parts up -/

/-- The parts from slot `j` on are one slot higher, and slot `j` is empty. -/
def vacate (j : ℕ) (f : ℕ → List α) (i : ℕ) : List α :=
  if i < j then f i else if i = j then [] else f (i - 1)

theorem vacate_below (h : n < j) : vacate j f n = f n := if_pos h

theorem vacate_self : vacate j f j = [] := by
  rw [vacate, if_neg j.lt_irrefl, if_pos rfl]

theorem vacate_above (h : j ≤ n) : vacate j f (n + 1) = f n := by
  rw [vacate, if_neg (by omega), if_neg (by omega), Nat.add_sub_cancel]

/-- The parts are the same, but for the one in slot `n`. -/
theorem joined_vacate (h : j ≤ n) : joined (vacate j f) (n + 1) = joined f n := by
  induction n with
  | zero =>
    obtain rfl : j = 0 := Nat.le_zero.mp h
    simp [joined, vacate_self]
  | succ n ih =>
    rcases Nat.lt_or_eq_of_le h with hlt | rfl
    · rw [joined, vacate_above (Nat.le_of_lt_succ hlt), ih (Nat.le_of_lt_succ hlt), ← joined]
    · rw [joined, vacate_self, List.nil_append]
      exact joined_congr fun i hi => vacate_below hi

/-- The oldest part is the one that goes. -/
theorem suffix_vacate (h : joined f (n + 1) <:+ history) (hj : j ≤ n) :
    joined (vacate j f) (n + 1) <:+ history := by
  rw [joined_vacate hj]
  exact (List.suffix_append (f n) (joined f n)).trans h

end SlotLog
