/-
# One's-complement sums of 16 bits

The checksum of the Internet protocols: 16-bit words are added, carries are
added back at the low end (`fold`), and the complement is sent. Up to the two
ways of writing zero this is arithmetic modulo 65535, so the facts are stated
in `ZMod 65535`, with the two zeros told apart by positivity. `wsum` is the sum
of the words of a byte sequence as a little-endian machine loads them, the
last byte alone if their number is odd.
-/
import Mathlib.Data.ZMod.Basic
import Mathlib.Algebra.BigOperators.Intervals
import Mathlib.Tactic.LinearCombination
import Mathlib.Tactic.Ring

namespace OnesComplement

/-! ### Folding the carries -/

/-- `while (s >> 16) s = (s & 0xFFFF) + (s >> 16)`. -/
def foldLoop : ℕ → ℕ → ℕ
  | 0, s => s
  | fuel + 1, s => if s / 65536 = 0 then s else foldLoop fuel (s % 65536 + s / 65536)

/-- The end of the loop: each turn makes `s` smaller. -/
def fold (s : ℕ) : ℕ := foldLoop s s

theorem foldLoop_spec : ∀ (fuel s : ℕ), s ≤ fuel →
    foldLoop fuel s ≤ 65535 ∧ foldLoop fuel s % 65535 = s % 65535 ∧ (0 < s → 0 < foldLoop fuel s)
  | 0, s, h => by
    obtain rfl : s = 0 := by omega
    simp [foldLoop]
  | fuel + 1, s, h => by
    unfold foldLoop
    by_cases hs : s / 65536 = 0
    · rw [if_pos hs]
      exact ⟨by omega, rfl, id⟩
    · rw [if_neg hs]
      obtain ⟨h1, h2, h3⟩ := foldLoop_spec fuel (s % 65536 + s / 65536) (by omega)
      exact ⟨h1, by omega, fun _ => h3 (by omega)⟩

theorem fold_le (s : ℕ) : fold s ≤ 65535 := (foldLoop_spec s s le_rfl).1

theorem fold_pos {s : ℕ} (h : 0 < s) : 0 < fold s := (foldLoop_spec s s le_rfl).2.2 h

theorem fold_cast (s : ℕ) : ((fold s : ℕ) : ZMod 65535) = s :=
  (ZMod.natCast_eq_natCast_iff' _ _ _).mpr (foldLoop_spec s s le_rfl).2.1

/-- Two representatives other than 0 of one residue are equal. -/
theorem eq_of_cast {a b : ℕ} (ha : 0 < a) (ha' : a ≤ 65535) (hb : 0 < b) (hb' : b ≤ 65535)
    (h : (a : ZMod 65535) = b) : a = b := by
  have := (ZMod.natCast_eq_natCast_iff' _ _ _).mp h
  omega

/-- A receiver accepts a sum that includes the checksum if it folds to all
ones. -/
def Valid (s : ℕ) : Prop := fold s = 65535

instance (s : ℕ) : Decidable (Valid s) := by unfold Valid; infer_instance

theorem cast_65535 : ((65535 : ℕ) : ZMod 65535) = 0 := ZMod.natCast_self 65535

theorem valid_iff {s : ℕ} : Valid s ↔ 0 < s ∧ (s : ZMod 65535) = 0 := by
  unfold Valid
  constructor
  · intro h
    refine ⟨?_, by rw [← fold_cast, h]; exact cast_65535⟩
    by_contra h0
    obtain rfl : s = 0 := by omega
    simp [fold, foldLoop] at h
  · rintro ⟨h0, h⟩
    refine eq_of_cast (fold_pos h0) (fold_le s) (by norm_num) le_rfl ?_
    rw [fold_cast, h, cast_65535]

/-! ### Complements -/

/-- The complement of a sum, in 16 bits. -/
def compl (s : ℕ) : ℕ := 65535 - fold s

theorem compl_le (s : ℕ) : compl s ≤ 65535 := Nat.sub_le ..

theorem compl_lt {s : ℕ} (h : 0 < s) : compl s < 65535 := by
  have := fold_pos h
  unfold compl
  omega

theorem cast_sub_of_le {x : ℕ} (h : x ≤ 65535) : ((65535 - x : ℕ) : ZMod 65535) = -x := by
  rw [Nat.cast_sub h, cast_65535, zero_sub]

theorem compl_cast (s : ℕ) : ((compl s : ℕ) : ZMod 65535) = -s := by
  unfold compl
  rw [cast_sub_of_le (fold_le s), fold_cast]

/-- With its complement for the checksum, a sum is valid. -/
theorem valid_add_compl {s : ℕ} (h : 0 < s) : Valid (s + compl s) := by
  rw [valid_iff]
  refine ⟨by omega, ?_⟩
  push_cast
  rw [compl_cast]
  ring

/-- The update of a checksum when one word of the sum changes:
`~(~sum + ~old + new)`. -/
def incUpdate (sum old new : ℕ) : ℕ := compl ((65535 - sum) + (65535 - old) + new)

theorem incUpdate_le (sum old new : ℕ) : incUpdate sum old new ≤ 65535 := compl_le _

theorem incUpdate_cast {sum old : ℕ} (new : ℕ) (hs : sum ≤ 65535) (ho : old ≤ 65535) :
    ((incUpdate sum old new : ℕ) : ZMod 65535) = sum + old - new := by
  unfold incUpdate
  rw [compl_cast]
  push_cast [cast_sub_of_le hs, cast_sub_of_le ho]
  ring

/-- The update gives all ones only for a checksum that is all ones. -/
theorem incUpdate_lt {sum : ℕ} (old new : ℕ) (hs : sum < 65535) : incUpdate sum old new < 65535 :=
  compl_lt (by omega)

/-! ### Sums of words -/

/-- The word at `off`, as a little-endian machine loads it. -/
def word (b : ℕ → UInt8) (off : ℕ) : ℕ := (b off).toNat + 256 * (b (off + 1)).toNat

/-- The sum of the words of the `n` bytes at `off`. -/
def wsum (b : ℕ → UInt8) (off n : ℕ) : ℕ := ∑ i ∈ Finset.range n, (b (off + i)).toNat * 256 ^ (i % 2)

variable {b b' : ℕ → UInt8}

theorem word_le (b : ℕ → UInt8) (off : ℕ) : word b off ≤ 65535 := by
  have h1 := (b off).toNat_lt
  have h2 := (b (off + 1)).toNat_lt
  unfold word
  omega

theorem wsum_one (b : ℕ → UInt8) (off : ℕ) : wsum b off 1 = (b off).toNat := by
  simp [wsum]

theorem wsum_two (b : ℕ → UInt8) (off : ℕ) : wsum b off 2 = word b off := by
  simp [wsum, word, Finset.sum_range_succ, Nat.mul_comm]

/-- The sum of a sequence, cut anywhere. -/
theorem wsum_append (b : ℕ → UInt8) (off k n : ℕ) : wsum b off (k + n) =
    wsum b off k + ∑ i ∈ Finset.range n, (b (off + k + i)).toNat * 256 ^ ((k + i) % 2) := by
  unfold wsum
  rw [Finset.sum_range_add]
  congr 1
  refine Finset.sum_congr rfl fun i _ => ?_
  rw [Nat.add_assoc]

/-- The sum of a sequence is that of two parts of it, if the first has even
length. -/
theorem wsum_add (b : ℕ → UInt8) (off k n : ℕ) (hk : k % 2 = 0) :
    wsum b off (k + n) = wsum b off k + wsum b (off + k) n := by
  rw [wsum_append]
  congr 1
  refine Finset.sum_congr rfl fun i _ => ?_
  rw [show (k + i) % 2 = i % 2 by omega]

theorem wsum_congr {off n : ℕ} (h : ∀ i, off ≤ i → i < off + n → b' i = b i) :
    wsum b' off n = wsum b off n := by
  unfold wsum
  refine Finset.sum_congr rfl fun i hi => ?_
  have := Finset.mem_range.mp hi
  rw [h (off + i) (by omega) (by omega)]

theorem wsum_le (b : ℕ → UInt8) (off n : ℕ) : wsum b off n ≤ n * 65280 := by
  unfold wsum
  calc ∑ i ∈ Finset.range n, (b (off + i)).toNat * 256 ^ (i % 2)
      ≤ ∑ _i ∈ Finset.range n, 65280 := by
        refine Finset.sum_le_sum fun i _ => ?_
        have h1 := (b (off + i)).toNat_lt
        rcases Nat.mod_two_eq_zero_or_one i with h | h <;> rw [h] <;> omega
    _ = n * 65280 := by simp

end OnesComplement
