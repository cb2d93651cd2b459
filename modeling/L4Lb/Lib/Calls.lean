/-
# Calls that take effect one at a time

Many clients call one object, and it carries out their calls one after the other.
The order of the calls is the log. A call has a span: how long the log was when it
began, and how long when it returned. `WellTimed` says that each call takes effect at
most once and inside its span, and a call that has returned has taken effect. Then a
call that returned before another began comes before it (`WellTimed.precedes`): the
log is an order of the calls that the clients cannot tell from the real one.
-/
import Mathlib.Data.List.Nodup
import Mathlib.Logic.Function.Basic
import Mathlib.Order.Nat

namespace Calls

/-- The length of the log when the call began, and when it returned. -/
structure Span where
  since : ℕ
  till : Option ℕ := none

variable {κ : Type*} {spans : κ → Option Span} {log : List κ} {k : κ} {sp : Span}

structure WellTimed (spans : κ → Option Span) (log : List κ) : Prop where
  nodup : log.Nodup
  called : ∀ k ∈ log, (spans k).isSome = true
  begun : ∀ k sp, spans k = some sp → sp.since ≤ log.length
  inside : ∀ k sp i, spans k = some sp → log[i]? = some k → sp.since ≤ i
  done : ∀ k sp t, spans k = some sp → sp.till = some t → t ≤ log.length ∧ ∃ i < t, log[i]? = some k

theorem WellTimed.nil : WellTimed (fun _ : κ => none) [] :=
  ⟨List.nodup_nil, fun _ h => absurd h List.not_mem_nil, fun _ _ h => (nomatch h), fun _ _ _ h => (nomatch h),
    fun _ _ _ h => (nomatch h)⟩

section Rules

variable [DecidableEq κ]

theorem update_eq_some {x : Span} {j : κ} (h : Function.update spans k (some x) j = some sp) :
    j = k ∧ sp = x ∨ j ≠ k ∧ spans j = some sp := by
  by_cases hj : j = k
  · subst hj
    rw [Function.update_self] at h
    exact .inl ⟨rfl, (Option.some.inj h).symm⟩
  · rw [Function.update_of_ne hj] at h
    exact .inr ⟨hj, h⟩

theorem WellTimed.called_update (h : WellTimed spans log) (x : Span) :
    ∀ j ∈ log, (Function.update spans k (some x) j).isSome = true := by
  intro j hj
  by_cases hjk : j = k
  · rw [hjk, Function.update_self]
    rfl
  · rw [Function.update_of_ne hjk]
    exact h.called j hj

/-- A new call begins. -/
theorem WellTimed.invoke (h : WellTimed spans log) (hk : spans k = none) :
    WellTimed (Function.update spans k (some { since := log.length })) log := by
  refine ⟨h.nodup, h.called_update _, fun j sp hj => ?_, fun j sp i hj hi => ?_, fun j sp t hj ht => ?_⟩
  · rcases update_eq_some hj with ⟨rfl, rfl⟩ | ⟨-, hj⟩
    · exact le_rfl
    · exact h.begun j sp hj
  · rcases update_eq_some hj with ⟨rfl, rfl⟩ | ⟨-, hj⟩
    · -- it is not in the log
      have hcalled := h.called j (List.mem_of_getElem? hi)
      rw [hk] at hcalled
      cases hcalled
    · exact h.inside j sp i hj hi
  · rcases update_eq_some hj with ⟨rfl, rfl⟩ | ⟨-, hj⟩
    · cases ht
    · exact h.done j sp t hj ht

/-- A call that has taken effect returns. -/
theorem WellTimed.respond (h : WellTimed spans log) (hk : spans k = some sp) (hlog : k ∈ log) :
    WellTimed (Function.update spans k (some { sp with till := some log.length })) log := by
  refine ⟨h.nodup, h.called_update _, fun j sp' hj => ?_, fun j sp' i hj hi => ?_, fun j sp' t hj ht => ?_⟩
  · rcases update_eq_some hj with ⟨rfl, rfl⟩ | ⟨-, hj⟩
    · exact h.begun j sp hk
    · exact h.begun j sp' hj
  · rcases update_eq_some hj with ⟨rfl, rfl⟩ | ⟨-, hj⟩
    · exact h.inside j sp i hk hi
    · exact h.inside j sp' i hj hi
  · rcases update_eq_some hj with ⟨rfl, rfl⟩ | ⟨-, hj⟩
    · obtain rfl := Option.some.inj ht
      obtain ⟨i, hi, hget⟩ := List.mem_iff_getElem.mp hlog
      exact ⟨le_rfl, i, hi, List.getElem?_eq_some_iff.mpr ⟨hi, hget⟩⟩
    · exact h.done j sp' t hj ht

end Rules

/-- A call that has begun takes effect. -/
theorem WellTimed.commit (h : WellTimed spans log) (hk : spans k = some sp) (hlog : k ∉ log) :
    WellTimed spans (log ++ [k]) := by
  refine ⟨h.nodup.append (List.nodup_singleton k) ?_, fun j hj => ?_, fun j sp' hj => ?_, fun j sp' i hj hi => ?_,
    fun j sp' t hj ht => ?_⟩
  · rw [List.disjoint_singleton]
    exact hlog
  · rcases List.mem_append.mp hj with hj | hj
    · exact h.called j hj
    · rw [List.mem_singleton.mp hj, hk]
      rfl
  · rw [List.length_append]
    exact (h.begun j sp' hj).trans (Nat.le_add_right ..)
  · by_cases hlt : i < log.length
    · rw [List.getElem?_append_left hlt] at hi
      exact h.inside j sp' i hj hi
    · exact (h.begun j sp' hj).trans (not_lt.mp hlt)
  · obtain ⟨hle, i, hit, hi⟩ := h.done j sp' t hj ht
    refine ⟨?_, i, hit, ?_⟩
    · rw [List.length_append]
      exact hle.trans (Nat.le_add_right ..)
    · rw [List.getElem?_append_left (by omega)]
      exact hi

/-- **Real time is respected.** A call that returned before another began has taken
effect before it. -/
theorem WellTimed.precedes (h : WellTimed spans log) {a b : κ} {spa spb : Span} (ha : spans a = some spa)
    (hb : spans b = some spb) {t : ℕ} (ht : spa.till = some t) (hlt : t ≤ spb.since) {j : ℕ}
    (hj : log[j]? = some b) : ∃ i < j, log[i]? = some a := by
  obtain ⟨-, i, hit, hi⟩ := h.done a spa t ha ht
  exact ⟨i, hit.trans_le (hlt.trans (h.inside b spb j hb hj)), hi⟩

end Calls
