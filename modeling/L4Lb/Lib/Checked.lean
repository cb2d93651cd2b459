/-
# Computations that may fault

Code that checks every access runs in `Except ε`. `Returns x Q`: it returns,
with a result that satisfies `Q`. `Avoids bad x Q`: none of the faults `bad`
happens, and if it returns, its result satisfies `Q`; other faults are left
open. `Ensures x Q` leaves all faults open. `Agree R x y` compares two
computations. They come with the rules for sequencing and for case
distinctions.
-/
import Mathlib.Tactic.TypeStar

namespace Checked

variable {ε α β : Type}

@[simp] theorem ok_bind (a : α) (f : α → Except ε β) : (Except.ok a >>= f) = f a := rfl

@[simp] theorem error_bind (e : ε) (f : α → Except ε β) : (Except.error e >>= f) = .error e := rfl

@[simp] theorem pure_eq_ok (a : α) : (pure a : Except ε α) = .ok a := rfl

@[simp] theorem throw_eq_error (e : ε) : (throw e : Except ε α) = .error e := rfl

theorem bind_eq_ok {x : Except ε α} {f : α → Except ε β} {b : β} :
    (x >>= f) = .ok b ↔ ∃ a, x = .ok a ∧ f a = .ok b := by
  cases x with
  | error e => simp
  | ok a => simp

/-- `x` returns a value that satisfies `Q`. -/
def Returns (x : Except ε α) (Q : α → Prop) : Prop := ∃ a, x = .ok a ∧ Q a

theorem Returns.ok {a : α} {Q : α → Prop} (h : Q a) : Returns (ε := ε) (.ok a) Q := ⟨a, rfl, h⟩

theorem Returns.mono {x : Except ε α} {P Q : α → Prop} (h : Returns x P) (hPQ : ∀ a, P a → Q a) :
    Returns x Q := by
  obtain ⟨a, hx, ha⟩ := h
  exact ⟨a, hx, hPQ a ha⟩

theorem Returns.bind {x : Except ε α} {f : α → Except ε β} {P : α → Prop} {Q : β → Prop}
    (h : Returns x P) (hf : ∀ a, P a → Returns (f a) Q) : Returns (x >>= f) Q := by
  obtain ⟨a, rfl, ha⟩ := h
  exact hf a ha

instance {x : Except ε α} {Q : α → Prop} [DecidablePred Q] : Decidable (Returns x Q) :=
  match x with
  | .ok a => decidable_of_iff (Q a) ⟨.ok, fun ⟨b, hb, h⟩ => by rw [Except.ok.inj hb]; exact h⟩
  | .error e => isFalse fun ⟨b, hb, _⟩ => by simp at hb

/-- `x` has none of the faults `bad`, and returns a value that satisfies `Q`
if it returns. -/
def Avoids (bad : ε → Prop) (x : Except ε α) (Q : α → Prop) : Prop :=
  (∀ e, x = .error e → ¬ bad e) ∧ ∀ a, x = .ok a → Q a

variable {bad : ε → Prop}

theorem Avoids.ok {a : α} {Q : α → Prop} (h : Q a) : Avoids bad (.ok a) Q :=
  ⟨by simp, fun b hb => by rw [← Except.ok.inj hb]; exact h⟩

theorem Avoids.error {e : ε} {Q : α → Prop} (h : ¬ bad e) : Avoids bad (.error e) Q :=
  ⟨fun e' he => by rw [← Except.error.inj he]; exact h, by simp⟩

theorem Returns.avoids {x : Except ε α} {Q : α → Prop} (h : Returns x Q) : Avoids bad x Q := by
  obtain ⟨a, rfl, ha⟩ := h
  exact .ok ha

/-- A computation without the faults `bad`, with its result named. -/
theorem Avoids.named {x : Except ε α} (h : ∀ e, x = .error e → ¬ bad e) : Avoids bad x fun a => x = .ok a :=
  ⟨h, fun _ ha => ha⟩

theorem Avoids.mono {x : Except ε α} {P Q : α → Prop} (h : Avoids bad x P) (hPQ : ∀ a, P a → Q a) :
    Avoids bad x Q := ⟨h.1, fun a ha => hPQ a (h.2 a ha)⟩

theorem Avoids.bind {x : Except ε α} {f : α → Except ε β} {P : α → Prop} {Q : β → Prop}
    (h : Avoids bad x P) (hf : ∀ a, P a → Avoids bad (f a) Q) : Avoids bad (x >>= f) Q := by
  cases x with
  | error e => exact .error (h.1 e rfl)
  | ok a => exact hf a (h.2 a rfl)

theorem Avoids.ite {c : Prop} {_ : Decidable c} {x y : Except ε α} {Q : α → Prop}
    (hx : c → Avoids bad x Q) (hy : ¬ c → Avoids bad y Q) : Avoids bad (if c then x else y) Q := by
  split
  · exact hx ‹_›
  · exact hy ‹_›

theorem Avoids.mapM {f : α → Except ε β} {Q : β → Prop} : ∀ (l : List α), (∀ a ∈ l, Avoids bad (f a) Q) →
    Avoids bad (l.mapM f) fun bs => ∀ b ∈ bs, Q b
  | [], _ => .ok fun b hb => absurd hb List.not_mem_nil
  | a :: l, h => by
    rw [List.mapM_cons]
    refine (h a List.mem_cons_self).bind fun b hb => ?_
    refine (mapM l fun x hx => h x (List.mem_cons_of_mem a hx)).bind fun bs hbs => .ok fun x hx => ?_
    rcases List.mem_cons.mp hx with rfl | hx
    · exact hb
    · exact hbs x hx

theorem Avoids.foldlM {f : β → α → Except ε β} {Q : β → Prop} (hf : ∀ b a, Q b → Avoids bad (f b a) Q) :
    ∀ (l : List α) {b : β}, Q b → Avoids bad (l.foldlM f b) Q
  | [], _, hb => .ok hb
  | a :: l, b, hb => by
    rw [List.foldlM_cons]
    exact (hf b a hb).bind fun b' hb' => foldlM hf l hb'

/-- If `x` returns, its value satisfies `Q`. -/
def Ensures (x : Except ε α) (Q : α → Prop) : Prop := ∀ a, x = .ok a → Q a

theorem Ensures.ok {a : α} {Q : α → Prop} (h : Q a) : Ensures (ε := ε) (.ok a) Q :=
  fun b hb => by rw [← Except.ok.inj hb]; exact h

theorem Ensures.error {e : ε} {Q : α → Prop} : Ensures (.error e) Q := fun b hb => by simp at hb

theorem Ensures.mono {x : Except ε α} {P Q : α → Prop} (h : Ensures x P) (hPQ : ∀ a, P a → Q a) : Ensures x Q :=
  fun a ha => hPQ a (h a ha)

theorem Ensures.bind {x : Except ε α} {f : α → Except ε β} {P : α → Prop} {Q : β → Prop}
    (h : Ensures x P) (hf : ∀ a, P a → Ensures (f a) Q) : Ensures (x >>= f) Q := by
  cases x with
  | error e => exact .error
  | ok a => exact hf a (h a rfl)

/-- A computation whose value does not matter. -/
theorem Ensures.after {x : Except ε α} {f : α → Except ε β} {Q : β → Prop} (hf : ∀ a, Ensures (f a) Q) :
    Ensures (x >>= f) Q := .bind (P := fun _ => True) (fun _ _ => trivial) fun a _ => hf a

theorem Ensures.ite {c : Prop} {_ : Decidable c} {x y : Except ε α} {Q : α → Prop}
    (hx : Ensures x Q) (hy : Ensures y Q) : Ensures (if c then x else y) Q := by
  split
  · exact hx
  · exact hy

/-- A branch may use which way it was taken. -/
theorem Ensures.branch {c : Prop} {_ : Decidable c} {x y : Except ε α} {Q : α → Prop}
    (hx : c → Ensures x Q) (hy : ¬ c → Ensures y Q) : Ensures (if c then x else y) Q := by
  split
  · exact hx ‹_›
  · exact hy ‹_›

/-- The rest may use where the value comes from. -/
theorem Ensures.named {x : Except ε α} {f : α → Except ε β} {Q : β → Prop}
    (hf : ∀ a, x = .ok a → Ensures (f a) Q) : Ensures (x >>= f) Q := .bind (P := fun a => x = .ok a) (fun _ h => h) hf

/-- A check before the value is returned. -/
theorem Ensures.unless {c : Prop} {_ : Decidable c} {e : ε} {a : α} {Q : α → Prop} (h : ¬ c → Q a) :
    Ensures (if c then .error e else .ok a) Q := by
  split
  · exact .error
  · exact .ok (h ‹_›)

theorem Ensures.mapM {f : α → Except ε β} {Q : β → Prop} (l : List α) (h : ∀ a ∈ l, Ensures (f a) Q) :
    Ensures (l.mapM f) fun bs => ∀ b ∈ bs, Q b := by
  have h' : Avoids (fun _ => False) (l.mapM f) fun bs => ∀ b ∈ bs, Q b :=
    .mapM l fun a ha => ⟨fun _ _ hno => hno, h a ha⟩
  exact h'.2

/-- `x` and `y` have the same fault, or return values that `R` relates. -/
inductive Agree (R : α → β → Prop) : Except ε α → Except ε β → Prop
  | ok {a : α} {b : β} (h : R a b) : Agree R (.ok a) (.ok b)
  | error (e : ε) : Agree R (.error e) (.error e)

variable {γ δ : Type}

theorem Agree.refl {R : α → α → Prop} (hR : ∀ a, R a a) (x : Except ε α) : Agree R x x := by
  cases x with
  | error e => exact .error e
  | ok a => exact .ok (hR a)

theorem Agree.mono {x : Except ε α} {y : Except ε β} {P R : α → β → Prop} (h : Agree P x y)
    (hPR : ∀ a b, P a b → R a b) : Agree R x y := by
  cases h with
  | ok h => exact .ok (hPR _ _ h)
  | error e => exact .error e

theorem Agree.bind {x : Except ε α} {y : Except ε β} {f : α → Except ε γ} {g : β → Except ε δ} {P : α → β → Prop}
    {R : γ → δ → Prop} (h : Agree P x y) (hfg : ∀ a b, P a b → Agree R (f a) (g b)) :
    Agree R (x >>= f) (y >>= g) := by
  cases h with
  | ok h => exact hfg _ _ h
  | error e => exact .error e

/-- A computation that is the same on both sides. -/
theorem Agree.after {x : Except ε α} {f : α → Except ε γ} {g : α → Except ε δ} {R : γ → δ → Prop}
    (hfg : ∀ a, Agree R (f a) (g a)) : Agree R (x >>= f) (x >>= g) :=
  .bind (.refl (R := Eq) (fun _ => rfl) x) fun a _ h => h ▸ hfg a

theorem Agree.ite {c : Prop} {_ : Decidable c} {x x' : Except ε α} {y y' : Except ε β} {R : α → β → Prop}
    (h : Agree R x y) (h' : Agree R x' y') : Agree R (if c then x else x') (if c then y else y') := by
  split
  · exact h
  · exact h'

theorem Agree.left {x : Except ε α} {y : Except ε β} {R : α → β → Prop} (h : Agree R x y) :
    Ensures x fun a => ∃ b, R a b := by
  cases h with
  | ok h => exact .ok ⟨_, h⟩
  | error e => exact .error

end Checked
