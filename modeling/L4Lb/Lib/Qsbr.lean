/-
# Reclamation after quiescent states

Readers load a shared pointer while they are online and hold it until they
report a quiescent state or go offline. A writer exchanges the pointer, then
waits until every reader that was online at that call has reported, then
frees the old object. Any number of writers may be at any point of this.

No reader holds an object that has been freed (`Inv.not_freed`). What
carries the proof: an object that a reader holds is the current one, or a
writer still has to wait for this reader before it frees it.
-/
import Mathlib.Logic.Function.Basic
import Mathlib.Data.List.Nodup

namespace Qsbr

variable {T V : Type*}

/-- A writer that has exchanged the pointer and has not freed `old` yet. It
waits for the readers `waits`; `none` until it starts to wait. -/
structure Call (T V : Type*) where
  old : V
  waits : Option (T → Prop)

@[ext]
structure State (T V : Type*) where
  online : T → Prop
  held : T → Option V
  cur : Option V
  calls : List (Call T V)
  made : V → Prop
  freed : V → Prop

/-- The writer no longer waits for `t`. -/
def Call.report (t : T) (c : Call T V) : Call T V := { c with waits := c.waits.map fun w x => w x ∧ x ≠ t }

theorem map_report_old (t : T) (l : List (Call T V)) : (l.map (·.report t)).map (·.old) = l.map (·.old) := by
  rw [List.map_map]
  rfl

/-- The current object and those to be freed are different and not freed, and
a reader holds the current object or one that has to wait for it. -/
structure Inv (s : State T V) : Prop where
  online : ∀ t v, s.held t = some v → s.online t
  held : ∀ t v, s.held t = some v →
    s.cur = some v ∨ ∃ c ∈ s.calls, c.old = v ∧ ∀ w, c.waits = some w → w t
  cur : ∀ v, s.cur = some v → s.made v ∧ ¬ s.freed v
  calls : ∀ c ∈ s.calls, s.made c.old ∧ ¬ s.freed c.old ∧ s.cur ≠ some c.old
  nodup : (s.calls.map (·.old)).Nodup
  freed : ∀ v, s.freed v → s.made v

theorem Inv.not_freed {s : State T V} (h : Inv s) {t : T} {v : V} (hv : s.held t = some v) : ¬ s.freed v := by
  rcases h.held t v hv with hc | ⟨c, hc, rfl, -⟩
  · exact (h.cur v hc).2
  · exact (h.calls c hc).2.1

/-! ### What a writer does -/

/-- The writer gives up the old object, and waits for nobody yet. -/
theorem Inv.exchange {s : State T V} (h : Inv s) {v : V} (hv : ¬ s.made v) :
    Inv { s with
      cur := some v
      made := fun x => s.made x ∨ x = v
      calls := (s.cur.map fun old => ⟨old, none⟩).toList ++ s.calls } := by
  have hne : ∀ x, s.made x → x ≠ v := fun x hx he => hv (he ▸ hx)
  have hmem : ∀ {c : Call T V}, c ∈ (s.cur.map fun old => (⟨old, none⟩ : Call T V)).toList ++ s.calls →
      (s.cur = some c.old ∧ c.waits = none) ∨ c ∈ s.calls := by
    intro c hc
    rcases List.mem_append.mp hc with hc | hc
    · rw [Option.mem_toList, Option.map_eq_some_iff] at hc
      obtain ⟨old, hold, rfl⟩ := hc
      exact Or.inl ⟨hold, rfl⟩
    · exact Or.inr hc
  refine ⟨h.online, fun t x hx => Or.inr ?_, fun x hx => ?_, fun c hc => ?_, ?_,
    fun x hx => Or.inl (h.freed x hx)⟩
  · rcases h.held t x hx with hc | ⟨c, hc, hold, hw⟩
    · exact ⟨⟨x, none⟩, List.mem_append_left _ (by simp [hc]), rfl, fun w hw => by simp at hw⟩
    · exact ⟨c, List.mem_append_right _ hc, hold, hw⟩
  · obtain rfl := Option.some.inj hx
    exact ⟨Or.inr rfl, fun hf => hv (h.freed _ hf)⟩
  · rcases hmem hc with ⟨hcur, -⟩ | hc
    · obtain ⟨hm, hf⟩ := h.cur _ hcur
      exact ⟨Or.inl hm, hf, fun he => hne _ hm (Option.some.inj he).symm⟩
    · obtain ⟨hm, hf, -⟩ := h.calls c hc
      exact ⟨Or.inl hm, hf, fun he => hne _ hm (Option.some.inj he).symm⟩
  · cases hcur : s.cur with
    | none => simpa [hcur] using h.nodup
    | some old =>
      simp only [Option.map_some, Option.toList_some, List.singleton_append, List.map_cons, List.nodup_cons]
      refine ⟨fun hin => ?_, h.nodup⟩
      obtain ⟨c, hc, he⟩ := List.mem_map.mp hin
      exact (h.calls c hc).2.2 (he ▸ hcur)

/-- The writer waits for the readers that are online now. -/
theorem Inv.wait {s : State T V} (h : Inv s) {l l' : List (Call T V)} {old : V}
    (hc : s.calls = l ++ ⟨old, none⟩ :: l') : Inv { s with calls := l ++ ⟨old, some s.online⟩ :: l' } := by
  have hmem : ∀ c : Call T V, c ∈ l ++ ⟨old, some s.online⟩ :: l' → ∃ c0 ∈ s.calls, c0.old = c.old := by
    intro c hc'
    rw [List.mem_append, List.mem_cons] at hc'
    rcases hc' with hc' | rfl | hc'
    · exact ⟨c, by simp [hc, hc'], rfl⟩
    · exact ⟨⟨old, none⟩, by simp [hc], rfl⟩
    · exact ⟨c, by simp [hc, hc'], rfl⟩
  refine ⟨h.online, fun t v hv => ?_, h.cur, fun c hc' => ?_, ?_, h.freed⟩
  · rcases h.held t v hv with hcur | ⟨c, hin, hold, hw⟩
    · exact Or.inl hcur
    rw [hc, List.mem_append, List.mem_cons] at hin
    rcases hin with hin | rfl | hin
    · exact Or.inr ⟨c, by simp [hin], hold, hw⟩
    · -- the reader is online, so the writer waits for it
      exact Or.inr ⟨⟨old, some s.online⟩, by simp, hold, fun w he => Option.some.inj he ▸ h.online t v hv⟩
    · exact Or.inr ⟨c, by simp [hin], hold, hw⟩
  · obtain ⟨c0, hc0, he⟩ := hmem c hc'
    exact he ▸ h.calls c0 hc0
  · have := h.nodup
    rw [hc] at this
    simpa using this

/-- Nobody is waited for any more, so that nobody holds the old object. -/
theorem Inv.free {s : State T V} (h : Inv s) {l l' : List (Call T V)} {old : V} {w : T → Prop}
    (hc : s.calls = l ++ ⟨old, some w⟩ :: l') (hw : ∀ t, ¬ w t) :
    Inv { s with calls := l ++ l', freed := fun x => s.freed x ∨ x = old } := by
  have hn := h.nodup
  rw [hc, List.map_append, List.map_cons, List.nodup_middle, List.nodup_cons, ← List.map_append] at hn
  have hold := h.calls ⟨old, some w⟩ (by simp [hc])
  have hsub : ∀ c ∈ l ++ l', c ∈ s.calls := fun c hc' => by
    rw [hc, List.mem_append, List.mem_cons]
    exact (List.mem_append.mp hc').imp_right Or.inr
  refine ⟨h.online, fun t v hv => ?_, fun v hv => ?_, fun c hc' => ?_, hn.2, fun v hv => ?_⟩
  · rcases h.held t v hv with hcur | ⟨c, hin, hco, hwt⟩
    · exact Or.inl hcur
    rw [hc, List.mem_append, List.mem_cons] at hin
    rcases hin with hin | rfl | hin
    · exact Or.inr ⟨c, List.mem_append_left _ hin, hco, hwt⟩
    · exact absurd (hwt w rfl) (hw t)
    · exact Or.inr ⟨c, List.mem_append_right _ hin, hco, hwt⟩
  · refine ⟨(h.cur v hv).1, ?_⟩
    rintro (hf | rfl)
    · exact (h.cur v hv).2 hf
    · exact hold.2.2 hv
  · obtain ⟨hm, hf, hcur⟩ := h.calls c (hsub c hc')
    refine ⟨hm, ?_, hcur⟩
    rintro (hf' | he)
    · exact hf hf'
    · exact hn.1 (List.mem_map.mpr ⟨c, hc', he⟩)
  · rcases hv with hv | rfl
    · exact h.freed v hv
    · exact hold.1

/-! ### The steps -/

variable [DecidableEq T]

/-- `t` holds nothing, and no writer waits for it. -/
def State.report (s : State T V) (t : T) : State T V :=
  { s with held := Function.update s.held t none, calls := s.calls.map (·.report t) }

inductive Step : State T V → State T V → Prop
  | online (s : State T V) (t : T) : Step s { s with online := Function.update s.online t True }
  | load (s : State T V) (t : T) (h : s.online t) : Step s { s with held := Function.update s.held t s.cur }
  | quiescent (s : State T V) (t : T) : Step s (s.report t)
  | offline (s : State T V) (t : T) :
      Step s { s.report t with online := Function.update s.online t False }
  | exchange (s : State T V) (v : V) (h : ¬ s.made v) :
      Step s { s with
        cur := some v
        made := fun x => s.made x ∨ x = v
        calls := (s.cur.map fun old => ⟨old, none⟩).toList ++ s.calls }
  | wait (s : State T V) (l l' : List (Call T V)) (old : V) (h : s.calls = l ++ ⟨old, none⟩ :: l') :
      Step s { s with calls := l ++ ⟨old, some s.online⟩ :: l' }
  | free (s : State T V) (l l' : List (Call T V)) (old : V) (w : T → Prop)
      (h : s.calls = l ++ ⟨old, some w⟩ :: l') (hw : ∀ t, ¬ w t) :
      Step s { s with calls := l ++ l', freed := fun x => s.freed x ∨ x = old }

theorem Inv.report {s : State T V} (h : Inv s) (t : T) : Inv (s.report t) := by
  have hheld : ∀ {x v}, (s.report t).held x = some v → x ≠ t ∧ s.held x = some v := by
    intro x v hx
    change Function.update s.held t none x = some v at hx
    by_cases hxt : x = t
    · subst hxt
      simp at hx
    · rw [Function.update_of_ne hxt] at hx
      exact ⟨hxt, hx⟩
  refine ⟨fun x v hx => h.online x v (hheld hx).2, fun x v hx => ?_, h.cur, fun c hc => ?_, ?_, h.freed⟩
  · obtain ⟨hxt, hx⟩ := hheld hx
    rcases h.held x v hx with hcur | ⟨c, hc, hold, hw⟩
    · exact Or.inl hcur
    · refine Or.inr ⟨c.report t, List.mem_map_of_mem hc, hold, fun w hw' => ?_⟩
      obtain ⟨w0, hw0, rfl⟩ := Option.map_eq_some_iff.mp hw'
      exact ⟨hw w0 hw0, hxt⟩
  · obtain ⟨c0, hc0, rfl⟩ := List.mem_map.mp hc
    exact h.calls c0 hc0
  · show ((s.calls.map (·.report t)).map (·.old)).Nodup
    rw [map_report_old]
    exact h.nodup

theorem Inv.load {s : State T V} (h : Inv s) {t : T} (ht : s.online t) :
    Inv { s with held := Function.update s.held t s.cur } := by
  have hheld : ∀ {x v}, Function.update s.held t s.cur x = some v → (x = t ∧ s.cur = some v) ∨ s.held x = some v := by
    intro x v hx
    by_cases hxt : x = t
    · subst hxt
      rw [Function.update_self] at hx
      exact Or.inl ⟨rfl, hx⟩
    · rw [Function.update_of_ne hxt] at hx
      exact Or.inr hx
  refine ⟨fun x v hx => ?_, fun x v hx => ?_, h.cur, h.calls, h.nodup, h.freed⟩
  · rcases hheld hx with ⟨rfl, -⟩ | hx
    · exact ht
    · exact h.online x v hx
  · rcases hheld hx with ⟨-, hc⟩ | hx
    · exact Or.inl hc
    · exact h.held x v hx

/-- **Every step** keeps the invariant. -/
theorem Inv.step {s s' : State T V} (h : Inv s) (hs : Step s s') : Inv s' := by
  cases hs with
  | online t =>
    refine ⟨fun x v hx => ?_, h.held, h.cur, h.calls, h.nodup, h.freed⟩
    show Function.update s.online t True x
    by_cases hxt : x = t
    · subst hxt
      rw [Function.update_self]
      trivial
    · rw [Function.update_of_ne hxt]
      exact h.online x v hx
  | load t ht => exact h.load ht
  | quiescent t => exact h.report t
  | offline t =>
    have hr := h.report t
    refine ⟨fun x v hx => ?_, hr.held, hr.cur, hr.calls, hr.nodup, hr.freed⟩
    have hxt : x ≠ t := by
      rintro rfl
      simp [State.report] at hx
    show Function.update s.online t False x
    rw [Function.update_of_ne hxt]
    exact hr.online x v hx
  | exchange v hv => exact h.exchange hv
  | wait l l' old hc => exact h.wait hc
  | free l l' old w hc hw => exact h.free hc hw

end Qsbr
