/-
# Keyed intrusive doubly linked lists

The nodes carry their own `next` and `prev` pointers and the key of the list
they are threaded on; `head k` is the first node of list `k`. `unlink` and
`push` are the pointer updates every such list does, in the order C code
does them.

Two readings of "the lists are in order". `Wf nil l N`: the pointers of the
nodes `N` fit together locally, and a head is the start of some chain of its
key. Chains that no head points to are allowed, so `Wf` survives a head that
is overwritten. `Attached nil l N`: every node of `N` is on the chain of its
key's head. Both are kept by `unlink` and `push`.
-/
import Mathlib.Data.Set.Finite.Basic
import Mathlib.Data.Set.Card
import Mathlib.Data.List.Nodup
import Mathlib.Data.List.Count

open Function

/-- Keyed doubly linked lists threaded through the nodes `α`. -/
@[ext]
structure IList (κ α : Type*) where
  next : α → α
  prev : α → α
  head : κ → α
  key : α → κ

namespace IList

variable {κ α : Type*}

/-- The pointers of the nodes `N` fit together. -/
structure Wf (nil : α) (l : IList κ α) (N : Set α) : Prop where
  nil_notMem : nil ∉ N
  next_ok : ∀ x ∈ N, l.next x ≠ nil →
    l.next x ∈ N ∧ l.prev (l.next x) = x ∧ l.key (l.next x) = l.key x
  prev_ok : ∀ x ∈ N, l.prev x ≠ nil → l.prev x ∈ N ∧ l.next (l.prev x) = x
  head_ok : ∀ k, l.head k ≠ nil →
    l.head k ∈ N ∧ l.prev (l.head k) = nil ∧ l.key (l.head k) = k

/-- `c` is the chain that starts at `h`: `h` itself, then what `next` leads
to, up to `nil`. -/
def IsChain (next : α → α) (nil : α) : α → List α → Prop
  | h, [] => h = nil
  | h, x :: c => h = x ∧ x ≠ nil ∧ IsChain next nil (next x) c

/-- Every node of `N` is on the chain of its key's head. -/
def Attached (nil : α) (l : IList κ α) (N : Set α) : Prop :=
  ∀ x ∈ N, ∃ c, IsChain l.next nil (l.head (l.key x)) c ∧ x ∈ c

theorem Wf.ne_nil {nil : α} {l : IList κ α} {N : Set α} {x : α} (h : Wf nil l N) (hx : x ∈ N) :
    x ≠ nil := fun he => h.nil_notMem (he ▸ hx)

/-- Both readings see only the pointers of the nodes, and the heads. -/
theorem Wf.congr {nil : α} {l l' : IList κ α} {N : Set α} (h : Wf nil l N)
    (hn : ∀ x ∈ N, l'.next x = l.next x) (hp : ∀ x ∈ N, l'.prev x = l.prev x)
    (hk : ∀ x ∈ N, l'.key x = l.key x) (hh : l'.head = l.head) : Wf nil l' N where
  nil_notMem := h.nil_notMem
  next_ok x hx hne := by
    rw [hn x hx] at hne ⊢
    obtain ⟨h1, h2, h3⟩ := h.next_ok x hx hne
    exact ⟨h1, by rw [hp _ h1, h2], by rw [hk _ h1, hk _ hx, h3]⟩
  prev_ok x hx hne := by
    rw [hp x hx] at hne ⊢
    obtain ⟨h1, h2⟩ := h.prev_ok x hx hne
    exact ⟨h1, by rw [hn _ h1, h2]⟩
  head_ok k hne := by
    rw [hh] at hne ⊢
    obtain ⟨h1, h2, h3⟩ := h.head_ok k hne
    exact ⟨h1, by rw [hp _ h1, h2], by rw [hk _ h1, h3]⟩

/-! ### Chains -/

section Chains

variable {next next' : α → α} {nil : α}

theorem IsChain.congr : ∀ {c : List α} {h : α}, IsChain next nil h c →
    (∀ x ∈ c, next' x = next x) → IsChain next' nil h c
  | [], _, hc, _ => hc
  | x :: c, _, ⟨he, hx, hc⟩, heq => by
    refine ⟨he, hx, ?_⟩
    rw [heq x (by simp)]
    exact hc.congr fun y hy => heq y (by simp [hy])

/-- A pointer starts at most one chain. -/
theorem IsChain.unique : ∀ {c c' : List α} {h : α}, IsChain next nil h c →
    IsChain next nil h c' → c = c'
  | [], [], _, _, _ => rfl
  | [], _ :: _, _, hc, ⟨he, hx, _⟩ => absurd (he ▸ hc) hx
  | _ :: _, [], _, ⟨he, hx, _⟩, hc' => absurd (he ▸ hc') hx
  | x :: c, y :: c', _, ⟨he, _, hc⟩, ⟨he', _, hc'⟩ => by
    obtain rfl : x = y := he.symm.trans he'
    rw [hc.unique hc']

/-- The successor of a node of a chain is on the chain, or there is none. -/
theorem IsChain.next_mem : ∀ {c : List α} {h : α}, IsChain next nil h c →
    ∀ y ∈ c, next y = nil ∨ next y ∈ c
  | [], _, _, _, hy => by simp at hy
  | z :: c, _, ⟨rfl, _, hc⟩, y, hy => by
    rcases List.mem_cons.mp hy with rfl | hy
    · cases c with
      | nil => exact Or.inl hc
      | cons w c => exact Or.inr (by rw [hc.1]; simp)
    · rcases hc.next_mem y hy with h1 | h1
      · exact Or.inl h1
      · exact Or.inr (by simp [h1])

/-- A node of a chain starts it, or is the successor of a node of it. -/
theorem IsChain.pred_mem : ∀ {c : List α} {h : α}, IsChain next nil h c →
    ∀ y ∈ c, y = h ∨ ∃ z ∈ c, next z = y
  | [], _, _, _, hy => by simp at hy
  | z :: c, _, ⟨rfl, _, hc⟩, y, hy => by
    rcases List.mem_cons.mp hy with rfl | hy
    · exact Or.inl rfl
    · rcases hc.pred_mem y hy with rfl | ⟨w, hw, hwy⟩
      · exact Or.inr ⟨_, by simp, rfl⟩
      · exact Or.inr ⟨w, by simp [hw], hwy⟩

/-- The nodes of a chain whose start is in `N` are nodes of `N` with one key. -/
theorem Wf.chain_mem {l : IList κ α} {N : Set α} {k : κ} (hw : Wf nil l N) :
    ∀ {c : List α} {h : α}, IsChain l.next nil h c → (h ≠ nil → h ∈ N ∧ l.key h = k) →
      ∀ x ∈ c, x ∈ N ∧ l.key x = k
  | [], _, _, _, _, hx => by simp at hx
  | y :: c, _, ⟨rfl, hy, hc⟩, hk, x, hx => by
    obtain ⟨hyN, hyk⟩ := hk hy
    rcases List.mem_cons.mp hx with rfl | hx
    · exact ⟨hyN, hyk⟩
    · refine hw.chain_mem hc (fun hn => ?_) x hx
      obtain ⟨h1, -, h3⟩ := hw.next_ok _ hyN hn
      exact ⟨h1, h3.trans hyk⟩

/-- The chain of a head lies on the head's list. -/
theorem Wf.head_chain_mem {l : IList κ α} {N : Set α} {k : κ} {c : List α} (hw : Wf nil l N)
    (hc : IsChain l.next nil (l.head k) c) : ∀ x ∈ c, x ∈ N ∧ l.key x = k :=
  hw.chain_mem hc fun hn => ⟨(hw.head_ok k hn).1, (hw.head_ok k hn).2.2⟩

/-- Nodes from `h` on, at most `n` of them: what a `while (h != nil)` loop
over the list visits. -/
def walk [DecidableEq α] (next : α → α) (nil : α) : ℕ → α → List α
  | 0, _ => []
  | n + 1, h => if h = nil then [] else h :: walk next nil n (next h)

theorem IsChain.walk_eq [DecidableEq α] : ∀ {c : List α} {h : α} {n : ℕ}, IsChain next nil h c →
    c.length ≤ n → walk next nil n h = c
  | [], _, n, hc, _ => by
    cases n with
    | zero => rfl
    | succ n => simp [walk, show _ = nil from hc]
  | x :: c, _, n, ⟨rfl, hx, hc⟩, hn => by
    cases n with
    | zero => simp at hn
    | succ n =>
      simp only [walk, hx, ↓reduceIte, List.cons.injEq, true_and]
      exact hc.walk_eq (by simpa using hn)

end Chains

variable [DecidableEq κ] [DecidableEq α] (nil : α)

/-- Take `x` off its list. The head changes only if `x` has no predecessor,
whatever the head is at that moment. -/
def unlink (l : IList κ α) (x : α) : IList κ α where
  next := update (if l.prev x = nil then l.next else update l.next (l.prev x) (l.next x)) x nil
  prev := update (if l.next x = nil then l.prev else update l.prev (l.next x) (l.prev x)) x nil
  head := if l.prev x = nil then update l.head (l.key x) (l.next x) else l.head
  key := l.key

/-- Put `x` in front of list `k`. -/
def push (l : IList κ α) (k : κ) (x : α) : IList κ α where
  next := update l.next x (l.head k)
  prev := if l.head k = nil then update l.prev x nil else update (update l.prev x nil) (l.head k) x
  head := update l.head k x
  key := update l.key x k

/-- Put the nodes of `c` in front of list `k`, one after the other. -/
def pushAll (l : IList κ α) (k : κ) (c : List α) : IList κ α := c.foldl (fun l x => push nil l k x) l

/-- Forget the head of list `k`. -/
def clear (l : IList κ α) (k : κ) : IList κ α := { l with head := update l.head k nil }

variable {nil} {l : IList κ α} {N : Set α} {x : α} {k : κ}

/-! ### What the operations do to the local reading -/

omit [DecidableEq α] in
theorem Wf.clear (h : Wf nil l N) (k : κ) : Wf nil (l.clear nil k) N where
  nil_notMem := h.nil_notMem
  next_ok := h.next_ok
  prev_ok := h.prev_ok
  head_ok k' hk' := by
    by_cases e : k' = k
    · subst e; simp [IList.clear] at hk'
    · simp only [IList.clear, update_of_ne e] at hk' ⊢
      exact h.head_ok k' hk'

theorem Wf.unlink (h : Wf nil l N) (hx : x ∈ N) : Wf nil (l.unlink nil x) (N \ {x}) where
  nil_notMem hn := h.nil_notMem hn.1
  next_ok y hy hn := by
    obtain ⟨hyN, hyx⟩ := hy
    have hxn := h.next_ok x hx
    have hxp := h.prev_ok x hx
    have hyn := h.next_ok y hyN
    have hx0 := h.ne_nil hx
    have hy0 := h.ne_nil hyN
    simp only [IList.unlink] at hn ⊢
    grind
  prev_ok y hy hp := by
    obtain ⟨hyN, hyx⟩ := hy
    have hxn := h.next_ok x hx
    have hxp := h.prev_ok x hx
    have hyp := h.prev_ok y hyN
    have hx0 := h.ne_nil hx
    have hy0 := h.ne_nil hyN
    simp only [IList.unlink] at hp ⊢
    grind
  head_ok k hk := by
    have hxn := h.next_ok x hx
    have hxp := h.prev_ok x hx
    have hh := h.head_ok k
    have hx0 := h.ne_nil hx
    simp only [IList.unlink] at hk ⊢
    grind

/-- Unlinking a node that is on no list and has no neighbours clears the
head of the list its key names, and nothing else. -/
theorem unlink_isolated (hp : l.prev x = nil) (hn : l.next x = nil) :
    l.unlink nil x = l.clear nil (l.key x) := by
  have h1 : update l.next x nil = l.next := by rw [← hn]; exact update_eq_self x l.next
  have h2 : update l.prev x nil = l.prev := by rw [← hp]; exact update_eq_self x l.prev
  simp [IList.unlink, IList.clear, hp, hn, h1, h2]

omit [DecidableEq α] in
theorem clear_eq_self (h : l.head k = nil) : l.clear nil k = l := by
  have : update l.head k nil = l.head := by rw [← h]; exact update_eq_self k l.head
  simp [IList.clear, this]

/-- Only nodes of the lists are written. -/
theorem Wf.unlink_prev_of_notMem (h : Wf nil l N) (hx : x ∈ N) {i : α} (hi : i ∉ N) :
    (l.unlink nil x).prev i = l.prev i := by
  have hix : i ≠ x := fun e => hi (e ▸ hx)
  simp only [IList.unlink, update_of_ne hix]
  split
  · rfl
  · rename_i hn
    have hin : i ≠ l.next x := fun e => hi (e ▸ (h.next_ok x hx hn).1)
    exact update_of_ne hin ..

theorem unlink_next_self (l : IList κ α) (x : α) : (l.unlink nil x).next x = nil := by
  simp [IList.unlink]

theorem unlink_prev_self (l : IList κ α) (x : α) : (l.unlink nil x).prev x = nil := by
  simp [IList.unlink]

theorem Wf.push (h : Wf nil l N) (hx : x ∉ N) (hx0 : x ≠ nil) (k : κ) :
    Wf nil (l.push nil k x) (insert x N) where
  nil_notMem hn := by
    rcases hn with hn | hn
    · exact hx0 hn.symm
    · exact h.nil_notMem hn
  next_ok y hy hn := by
    have hh := h.head_ok k
    have hyn := h.next_ok y
    have hy0 := fun h0 => h.ne_nil (x := y) h0
    simp only [IList.push, Set.mem_insert_iff] at hn hy ⊢
    grind
  prev_ok y hy hp := by
    have hh := h.head_ok k
    have hyp := h.prev_ok y
    have hy0 := fun h0 => h.ne_nil (x := y) h0
    simp only [IList.push, Set.mem_insert_iff] at hp hy ⊢
    grind
  head_ok k' hk := by
    have hh := h.head_ok k
    have hh' := h.head_ok k'
    simp only [IList.push, Set.mem_insert_iff] at hk ⊢
    grind

theorem Wf.push_prev_of_notMem (h : Wf nil l N) (k : κ) {i : α} (hi : i ∉ N) (hix : i ≠ x) :
    (l.push nil k x).prev i = l.prev i := by
  simp only [IList.push]
  split
  · exact update_of_ne hix ..
  · rename_i hn
    have hih : i ≠ l.head k := fun e => hi (e ▸ (h.head_ok k hn).1)
    rw [update_of_ne hih, update_of_ne hix]

/-- The lists are the same but for the pointers and the key of `x`. -/
structure SameOff (x : α) (l l' : IList κ α) : Prop where
  next : ∀ y, y ≠ x → l'.next y = l.next y
  prev : ∀ y, y ≠ x → l'.prev y = l.prev y
  key : ∀ y, y ≠ x → l'.key y = l.key y
  head : l'.head = l.head

omit [DecidableEq κ] [DecidableEq α] in
theorem SameOff.trans {l' l'' : IList κ α} (h : SameOff x l l') (h' : SameOff x l' l'') : SameOff x l l'' where
  next y hy := (h'.next y hy).trans (h.next y hy)
  prev y hy := (h'.prev y hy).trans (h.prev y hy)
  key y hy := (h'.key y hy).trans (h.key y hy)
  head := h'.head.trans h.head

/-- Unlinking the node that was put in front of a list gives the lists back. -/
theorem Wf.unlink_push (h : Wf nil l N) (hx : x ∉ N) (k : κ) :
    SameOff x l ((l.push nil k x).unlink nil x) := by
  have hh := h.head_ok k
  refine ⟨fun y hy => ?_, fun y hy => ?_, fun y hy => update_of_ne hy .., ?_⟩
  · simp only [IList.unlink, IList.push]
    grind
  · simp only [IList.unlink, IList.push]
    grind
  · funext k'
    simp only [IList.unlink, IList.push]
    grind

/-- A head of a well-formed list starts a chain, without repetition. By
induction on the number of nodes: taking the head off gives the chain of the
rest. -/
theorem Wf.exists_chain (hfin : N.Finite) (h : Wf nil l N) (k : κ) :
    ∃ c, IsChain l.next nil (l.head k) c ∧ c.Nodup := by
  induction hn : N.ncard generalizing N l with
  | zero =>
    obtain rfl : N = ∅ := by simpa [hfin] using hn
    refine ⟨[], ?_, by simp⟩
    by_contra hne
    exact (h.head_ok k hne).1
  | succ n ih =>
    by_cases hne : l.head k = nil
    · exact ⟨[], hne, by simp⟩
    obtain ⟨hN, hp, hk⟩ := h.head_ok k hne
    have hw := h.unlink hN
    have hcard : (N \ {l.head k}).ncard = n := by
      rw [Set.ncard_sdiff_singleton_of_mem hN, hn]; rfl
    obtain ⟨c, hc, hnd⟩ := ih hfin.sdiff hw hcard
    have hmem := hw.head_chain_mem hc
    have hhead : (l.unlink nil (l.head k)).head k = l.next (l.head k) := by
      simp [IList.unlink, hp, hk]
    refine ⟨l.head k :: c, ⟨rfl, hne, ?_⟩, ?_⟩
    · rw [hhead] at hc
      refine hc.congr fun y hy => ?_
      have : y ≠ l.head k := (hmem y hy).1.2
      simp [IList.unlink, hp, this]
    · exact List.nodup_cons.mpr ⟨fun hy => (hmem _ hy).1.2 rfl, hnd⟩

omit [DecidableEq α] in
/-- Without the chain of list `k`, and with its head cleared, the rest is
still well formed. -/
theorem Wf.without_chain (h : Wf nil l N) {c : List α}
    (hc : IsChain l.next nil (l.head k) c) : Wf nil (l.clear nil k) (N \ {x | x ∈ c}) := by
  have hmem := h.head_chain_mem hc
  refine ⟨fun hn => h.nil_notMem hn.1, ?_, ?_, ?_⟩
  · rintro y ⟨hyN, hyc⟩ hn
    obtain ⟨h1, h2, h3⟩ := h.next_ok y hyN hn
    refine ⟨⟨h1, fun hm => ?_⟩, h2, h3⟩
    change l.next y ≠ nil at hn
    rcases hc.pred_mem (l.next y) hm with he | ⟨z, hz, he⟩
    · have hh := h.head_ok k (he ▸ hn)
      rw [← he, h2] at hh
      exact h.ne_nil hyN hh.2.1
    · have := (h.next_ok z (hmem z hz).1 (he ▸ hn)).2.1
      rw [he, h2] at this
      exact hyc (this ▸ hz)
  · rintro y ⟨hyN, hyc⟩ hp
    obtain ⟨h1, h2⟩ := h.prev_ok y hyN hp
    refine ⟨⟨h1, fun hm => ?_⟩, h2⟩
    rcases hc.next_mem _ hm with he | he
    · exact h.ne_nil hyN (h2.symm.trans he)
    · exact hyc (h2 ▸ he)
  · intro k' hk'
    by_cases e : k' = k
    · subst e; simp [IList.clear] at hk'
    · simp only [IList.clear, update_of_ne e] at hk' ⊢
      obtain ⟨h1, h2, h3⟩ := h.head_ok k' hk'
      exact ⟨⟨h1, fun hm => e (h3.symm.trans (hmem _ hm).2)⟩, h2, h3⟩

theorem Wf.pushAll (k : κ) : ∀ {c : List α} {l : IList κ α} {N : Set α}, Wf nil l N → c.Nodup →
    (∀ x ∈ c, x ∉ N ∧ x ≠ nil) → Wf nil (l.pushAll nil k c) (N ∪ {x | x ∈ c})
  | [], _, _, h, _, _ => by simpa [IList.pushAll] using h
  | x :: c, l, N, h, hnd, hc => by
    obtain ⟨hxc, hnd⟩ := List.nodup_cons.mp hnd
    have h1 := h.push (hc x (by simp)).1 (hc x (by simp)).2 k
    have hc' : ∀ y ∈ c, y ∉ insert x N ∧ y ≠ nil := fun y hy => by
      have hyx : y ≠ x := fun e => hxc (e ▸ hy)
      exact ⟨by simp [hyx, (hc y (by simp [hy])).1], (hc y (by simp [hy])).2⟩
    have h2 := Wf.pushAll k h1 hnd hc'
    have hset : N ∪ {y | y ∈ x :: c} = insert x N ∪ {y | y ∈ c} := by
      ext y; simp; tauto
    rw [hset]
    exact h2

/-- Moving a whole list, node by node, in front of another one. -/
theorem Wf.move_chain (h : Wf nil l N) {c : List α} (hc : IsChain l.next nil (l.head k) c)
    (hnd : c.Nodup) (k' : κ) : Wf nil ((l.clear nil k).pushAll nil k' c) N := by
  have hmem := h.head_chain_mem hc
  have h1 := (h.without_chain hc).pushAll k' hnd fun x hx => ⟨by simp [hx], h.ne_nil (hmem x hx).1⟩
  have hset : N \ {x | x ∈ c} ∪ {x | x ∈ c} = N := Set.sdiff_union_of_subset fun x hx => (hmem x hx).1
  rwa [hset] at h1

theorem Wf.pushAll_prev_of_notMem (k : κ) {i : α} : ∀ {c : List α} {l : IList κ α} {N : Set α},
    Wf nil l N → c.Nodup → (∀ x ∈ c, x ∉ N ∧ x ≠ nil) → i ∉ N → i ∉ c →
    (l.pushAll nil k c).prev i = l.prev i
  | [], _, _, _, _, _, _, _ => rfl
  | x :: c, l, N, h, hnd, hc, hi, hic => by
    obtain ⟨hxc, hnd⟩ := List.nodup_cons.mp hnd
    obtain ⟨hix, hic⟩ := not_or.mp (by simpa using hic)
    have h1 := h.push (hc x (by simp)).1 (hc x (by simp)).2 k
    have h2 := Wf.pushAll_prev_of_notMem k h1 hnd (fun y hy => by
      have hyx : y ≠ x := fun e => hxc (e ▸ hy)
      exact ⟨by simp [hyx, (hc y (by simp [hy])).1], (hc y (by simp [hy])).2⟩)
      (by simp [hix, hi]) hic
    exact h2.trans (h.push_prev_of_notMem k hi hix)

theorem Wf.move_chain_prev (h : Wf nil l N) {c : List α} (hc : IsChain l.next nil (l.head k) c)
    (hnd : c.Nodup) (k' : κ) {i : α} (hi : i ∉ N) :
    ((l.clear nil k).pushAll nil k' c).prev i = l.prev i := by
  have hmem := h.head_chain_mem hc
  exact (h.without_chain hc).pushAll_prev_of_notMem k' hnd
    (fun x hx => ⟨by simp [hx], h.ne_nil (hmem x hx).1⟩) (fun hn => hi hn.1) fun hic => hi (hmem i hic).1

theorem pushAll_key (k : κ) : ∀ (c : List α) (l : IList κ α) (i : α),
    (l.pushAll nil k c).key i = if i ∈ c then k else l.key i
  | [], _, _ => by simp [IList.pushAll]
  | x :: c, l, i => by
    change ((l.push nil k x).pushAll nil k c).key i = _
    rw [pushAll_key k c]
    simp only [IList.push, update_apply, List.mem_cons]
    by_cases h1 : i ∈ c <;> by_cases h2 : i = x <;> simp [h1, h2]

theorem pushAll_head_other {k' : κ} (hk : k' ≠ k) : ∀ (c : List α) (l : IList κ α),
    (l.pushAll nil k c).head k' = l.head k'
  | [], _ => rfl
  | x :: c, l => by
    change ((l.push nil k x).pushAll nil k c).head k' = _
    rw [pushAll_head_other hk c]
    exact update_of_ne hk ..

/-! ### What the operations do to the chains -/

/-- A chain does not see the push of a node that is not on it. -/
theorem IsChain.push {h : α} {c : List α} (hc : IsChain l.next nil h c) (hx : x ∉ c) (k : κ) :
    IsChain (l.push nil k x).next nil h c :=
  hc.congr fun y hy => by
    have : y ≠ x := fun e => hx (e ▸ hy)
    simp [IList.push, this]

/-- The list `x` is pushed on is the old one behind `x`. -/
theorem IsChain.push_self {c : List α} (hc : IsChain l.next nil (l.head k) c) (hx : x ∉ c)
    (hx0 : x ≠ nil) : IsChain (l.push nil k x).next nil ((l.push nil k x).head k) (x :: c) := by
  have hnext : (l.push nil k x).next x = l.head k := by simp [IList.push]
  refine ⟨by simp [IList.push], hx0, ?_⟩
  rw [hnext]
  exact hc.push hx k

/-- The other lists are as before. -/
theorem IsChain.push_other {k' : κ} {c : List α} (hc : IsChain l.next nil (l.head k') c)
    (hx : x ∉ c) (hk : k' ≠ k) : IsChain (l.push nil k x).next nil ((l.push nil k x).head k') c := by
  simp only [IList.push, update_of_ne hk]
  exact hc.push hx k

theorem IsChain.pushAll_self : ∀ {c' : List α} {l : IList κ α} {c : List α},
    IsChain l.next nil (l.head k) c → c'.Nodup → (∀ x ∈ c', x ∉ c ∧ x ≠ nil) →
    IsChain (l.pushAll nil k c').next nil ((l.pushAll nil k c').head k) (c'.reverse ++ c)
  | [], _, _, hc, _, _ => by simpa [IList.pushAll] using hc
  | x :: c', l, c, hc, hnd, hx => by
    obtain ⟨hxc, hnd⟩ := List.nodup_cons.mp hnd
    have h1 := hc.push_self (hx x (by simp)).1 (hx x (by simp)).2
    have h2 := IsChain.pushAll_self h1 hnd fun y hy => by
      have hyx : y ≠ x := fun e => hxc (e ▸ hy)
      exact ⟨by simp [hyx, (hx y (by simp [hy])).1], (hx y (by simp [hy])).2⟩
    simpa [IList.pushAll] using h2

theorem IsChain.pushAll_other {k' : κ} (hk : k' ≠ k) : ∀ {c' : List α} {l : IList κ α} {c : List α},
    IsChain l.next nil (l.head k') c → (∀ x ∈ c', x ∉ c) →
    IsChain (l.pushAll nil k c').next nil ((l.pushAll nil k c').head k') c
  | [], _, _, hc, _ => by simpa [IList.pushAll] using hc
  | x :: c', l, c, hc, hx => by
    have h1 := hc.push_other (hx x (by simp)) hk
    have hx' : ∀ y ∈ c', y ∉ c := fun y hy => hx y (by simp [hy])
    have h2 := IsChain.pushAll_other hk h1 hx'
    simpa [IList.pushAll] using h2

/-- Unlinking `x` takes it off every chain it is on. -/
theorem IsChain.unlink (hw : Wf nil l N) (hx : x ∈ N) :
    ∀ {c : List α} {h : α}, IsChain l.next nil h c → (h ≠ nil → h ∈ N) → c.Nodup →
      IsChain (l.unlink nil x).next nil (if h = x then l.next x else h) (c.erase x)
  | [], _, hc, _, _ => by
    have he : _ = nil := hc
    have : nil ≠ x := (hw.ne_nil hx).symm
    simp [IsChain, he, this]
  | y :: c, _, ⟨rfl, hy, hc⟩, hN, hnd => by
    obtain ⟨hyc, hnd⟩ := List.nodup_cons.mp hnd
    have hyN := hN hy
    have hnext : l.next y ≠ nil → l.next y ∈ N := fun hn => (hw.next_ok y hyN hn).1
    by_cases hyx : y = x
    · -- `x` starts the chain: what is left does not see the update
      subst hyx
      simp only [↓reduceIte, List.erase_cons_head]
      refine hc.congr fun z hz => ?_
      have hzy : z ≠ y := fun e => hyc (e ▸ hz)
      simp only [IList.unlink, update_of_ne hzy]
      split
      · rfl
      · rename_i hp
        rw [update_of_ne]
        rintro rfl
        -- the predecessor of `y` behind `y` would put `y` behind itself
        obtain ⟨-, hpn⟩ := hw.prev_ok y hyN hp
        rcases hc.next_mem _ hz with h1 | h1
        · exact hy (hpn ▸ h1)
        · exact hyc (hpn ▸ h1)
    · simp only [hyx, ↓reduceIte]
      rw [List.erase_cons_tail (by simpa using hyx)]
      refine ⟨rfl, hy, ?_⟩
      have ih := IsChain.unlink hw hx hc hnext hnd
      by_cases hyn : l.next y = x
      · obtain ⟨-, hp, -⟩ := hw.next_ok y hyN (by rw [hyn]; exact hw.ne_nil hx)
        rw [hyn] at hp ih
        simp only [↓reduceIte] at ih
        have hstep : (l.unlink nil x).next y = l.next x := by
          simp [IList.unlink, hyx, hp, hy]
        rw [hstep]
        exact ih
      · have hpy : l.prev x ≠ y := by
          intro he
          obtain ⟨-, h2⟩ := hw.prev_ok x hx (by rw [he]; exact hy)
          exact hyn (he ▸ h2)
        have hstep : (l.unlink nil x).next y = l.next y := by
          simp only [IList.unlink, update_of_ne hyx]
          split
          · rfl
          · exact update_of_ne (Ne.symm hpy) ..
        rw [hstep]
        simpa [hyn] using ih

/-! ### What the operations do to the attached nodes -/

omit [DecidableEq κ] [DecidableEq α] in
/-- A chain of a head holds the attached nodes of its key. -/
theorem Attached.mem_chain (ha : Attached nil l N) (hx : x ∈ N) (hk : l.key x = k) {c : List α}
    (hc : IsChain l.next nil (l.head k) c) : x ∈ c := by
  obtain ⟨c', hc', hm⟩ := ha x hx
  rw [hk] at hc'
  rwa [hc.unique hc']

omit [DecidableEq κ] [DecidableEq α] in
theorem Attached.congr {l' : IList κ α} (ha : Attached nil l N) (hw : Wf nil l N)
    (hn : ∀ x ∈ N, l'.next x = l.next x) (hk : ∀ x ∈ N, l'.key x = l.key x)
    (hh : l'.head = l.head) : Attached nil l' N := by
  intro y hy
  obtain ⟨c, hc, hm⟩ := ha y hy
  refine ⟨c, ?_, hm⟩
  rw [hk y hy, hh]
  exact hc.congr fun z hz => hn z (hw.head_chain_mem hc z hz).1

/-- Unlinking an attached node takes it off the chain of its list. -/
theorem Attached.unlink_chain (ha : Attached nil l N) (hw : Wf nil l N) (hx : x ∈ N) {c : List α}
    (hc : IsChain l.next nil (l.head k) c) (hnd : c.Nodup) :
    IsChain (l.unlink nil x).next nil ((l.unlink nil x).head k) (c.erase x) := by
  have hnew := IsChain.unlink hw hx hc (fun hn => (hw.head_ok k hn).1) hnd
  have hhead : (l.unlink nil x).head k = if l.head k = x then l.next x else l.head k := by
    by_cases he : l.head k = x
    · obtain ⟨-, hp, hk⟩ := hw.head_ok k (he ▸ hw.ne_nil hx)
      rw [he] at hp hk
      simp [IList.unlink, he, hp, hk]
    · simp only [IList.unlink, he, ↓reduceIte]
      split
      · rename_i hp
        rw [update_of_ne]
        -- with no predecessor, an attached node is the head
        rintro rfl
        rcases hc.pred_mem x (ha.mem_chain hx rfl hc) with h1 | ⟨z, hz, h1⟩
        · exact he h1.symm
        · have hzN := (hw.head_chain_mem hc z hz).1
          have := (hw.next_ok z hzN (h1 ▸ hw.ne_nil hx)).2.1
          rw [h1, hp] at this
          exact hw.ne_nil hzN this.symm
      · rfl
  rw [hhead]
  exact hnew

theorem Attached.unlink (ha : Attached nil l N) (hw : Wf nil l N) (hfin : N.Finite) (hx : x ∈ N) :
    Attached nil (l.unlink nil x) (N \ {x}) := by
  rintro y ⟨hyN, hyx⟩
  obtain ⟨c, hc, hnd⟩ := hw.exists_chain hfin (l.key y)
  refine ⟨c.erase x, ha.unlink_chain hw hx hc hnd, ?_⟩
  exact (List.mem_erase_of_ne hyx).mpr (ha.mem_chain hyN rfl hc)

theorem Attached.push (ha : Attached nil l N) (hw : Wf nil l N) (hfin : N.Finite) (hx : x ∉ N)
    (hx0 : x ≠ nil) (k : κ) : Attached nil (l.push nil k x) (insert x N) := by
  have hout : ∀ {k' c}, IsChain l.next nil (l.head k') c → x ∉ c := fun hc hm =>
    hx (hw.head_chain_mem hc x hm).1
  rintro y (rfl | hyN)
  · obtain ⟨c, hc, -⟩ := hw.exists_chain hfin k
    refine ⟨y :: c, ?_, by simp⟩
    rw [show (l.push nil k y).key y = k by simp [IList.push]]
    exact hc.push_self (hout hc) hx0
  · have hyx : y ≠ x := fun e => hx (e ▸ hyN)
    have hkey : (l.push nil k x).key y = l.key y := by simp [IList.push, hyx]
    obtain ⟨c, hc, hm⟩ := ha y hyN
    rw [hkey]
    by_cases hk : l.key y = k
    · rw [hk] at hc ⊢
      exact ⟨x :: c, hc.push_self (hout hc) hx0, by simp [hm]⟩
    · exact ⟨c, hc.push_other (hout hc) hk, hm⟩

omit [DecidableEq α] in
theorem Attached.without_chain (ha : Attached nil l N) {c : List α}
    (hc : IsChain l.next nil (l.head k) c) : Attached nil (l.clear nil k) (N \ {x | x ∈ c}) := by
  rintro y ⟨hyN, hyc⟩
  have hk : l.key y ≠ k := fun hk => hyc (ha.mem_chain hyN hk hc)
  obtain ⟨c', hc', hm⟩ := ha y hyN
  refine ⟨c', ?_, hm⟩
  simpa [IList.clear, update_of_ne hk] using hc'

theorem Attached.pushAll (k : κ) : ∀ {c : List α} {l : IList κ α} {N : Set α}, Attached nil l N →
    Wf nil l N → N.Finite → c.Nodup → (∀ x ∈ c, x ∉ N ∧ x ≠ nil) →
    Attached nil (l.pushAll nil k c) (N ∪ {x | x ∈ c})
  | [], _, _, ha, _, _, _, _ => by simpa [IList.pushAll] using ha
  | x :: c, l, N, ha, hw, hfin, hnd, hc => by
    obtain ⟨hxc, hnd⟩ := List.nodup_cons.mp hnd
    have hx := hc x (by simp)
    have hc' : ∀ y ∈ c, y ∉ insert x N ∧ y ≠ nil := fun y hy => by
      have hyx : y ≠ x := fun e => hxc (e ▸ hy)
      exact ⟨by simp [hyx, (hc y (by simp [hy])).1], (hc y (by simp [hy])).2⟩
    have h2 := Attached.pushAll k (ha.push hw hfin hx.1 hx.2 k) (hw.push hx.1 hx.2 k)
      (hfin.insert x) hnd hc'
    have hset : N ∪ {y | y ∈ x :: c} = insert x N ∪ {y | y ∈ c} := by
      ext y; simp; tauto
    rw [hset]
    exact h2

theorem Attached.move_chain (ha : Attached nil l N) (hw : Wf nil l N) (hfin : N.Finite) {c : List α}
    (hc : IsChain l.next nil (l.head k) c) (hnd : c.Nodup) (k' : κ) :
    Attached nil ((l.clear nil k).pushAll nil k' c) N := by
  have hmem := hw.head_chain_mem hc
  have h1 := (ha.without_chain hc).pushAll k' (hw.without_chain hc) hfin.sdiff hnd
    fun x hx => ⟨by simp [hx], hw.ne_nil (hmem x hx).1⟩
  have hset : N \ {x | x ∈ c} ∪ {x | x ∈ c} = N := Set.sdiff_union_of_subset fun x hx => (hmem x hx).1
  rwa [hset] at h1

end IList
