/-
# Texts and numbers

What the program uses of libc to read texts, as glibc has it in the C locale:
`strtoul`, `inet_pton`, the `%x` of `sscanf`, and `getline`; and the two readers of
addresses in `src/common/types.cpp`. A text is the list of its bytes.
-/
import L4Lb.Types
import Mathlib.Data.List.TakeWhile

namespace L4Lb

/-! ### Numbers -/

/-- The white space of the C locale. -/
def isspace (c : Char) : Bool := [' ', '\t', '\n', '\x0b', '\x0c', '\r'].contains c

/-- What `c_str` shows of a string. -/
def cStr (s : List Char) : List Char := s.takeWhile (· ≠ '\x00')

/-- The number that digits stand for. -/
def decimal (ds : List Char) : ℕ := ds.foldl (fun n c => 10 * n + (c.toNat - '0'.toNat)) 0

/-- The sign of a number: whether it is a minus, and what follows it. -/
def sign : List Char → Bool × List Char
  | '-' :: s => (true, s)
  | '+' :: s => (false, s)
  | s => (false, s)

def kUlongMax : ℕ := 2 ^ 64 - 1

/-- `strtoul` in base 10: the value and what `end` points to. A minus negates
modulo 2^64, and too large a number is `ULONG_MAX`. -/
def strtoul (s : List Char) : ℕ × List Char :=
  let signed := sign (s.dropWhile isspace)
  let ds := signed.2.takeWhile Char.isDigit
  if ds = [] then (0, s)
  else
    let v := decimal ds
    (if v > kUlongMax then kUlongMax else if signed.1 then (2 ^ 64 - v) % 2 ^ 64 else v,
      signed.2.dropWhile Char.isDigit)

/-- `errno` after `strtoul`: the number is too large. -/
def strtoulErange (s : List Char) : Bool :=
  decimal ((sign (s.dropWhile isspace)).2.takeWhile Char.isDigit) > kUlongMax

/-- The sign and the digits of a word that is a number. -/
def numeral (s : List Char) : Option (Bool × ℕ) :=
  let signed := sign (s.dropWhile isspace)
  if signed.2 ≠ [] ∧ signed.2.all Char.isDigit then some (signed.1, decimal signed.2) else none

theorem strtoul_nil : strtoul [] = (0, []) := by decide

theorem dropWhile_isDigit {s : List Char} : s.dropWhile Char.isDigit = [] ↔ s.all Char.isDigit := by
  rw [List.dropWhile_eq_nil_iff, List.all_eq_true]

theorem numeral_eq_some {s : List Char} {minus : Bool} {n : ℕ} (h : numeral s = some (minus, n)) :
    strtoul s = (if n > kUlongMax then kUlongMax else if minus then (2 ^ 64 - n) % 2 ^ 64 else n, []) := by
  unfold numeral at h
  simp only at h
  split at h
  · rename_i hd
    obtain ⟨hne, hall⟩ := hd
    obtain ⟨rfl, rfl⟩ := Prod.mk.inj (Option.some.inj h)
    have htake : (sign (s.dropWhile isspace)).2.takeWhile Char.isDigit = (sign (s.dropWhile isspace)).2 :=
      List.takeWhile_eq_self_iff.mpr (List.all_eq_true.mp hall)
    have hdrop : (sign (s.dropWhile isspace)).2.dropWhile Char.isDigit = [] := dropWhile_isDigit.mpr hall
    simp only [strtoul, htake, hdrop, if_neg hne]
  · cases h

/-- Only a number or the empty string is read to its end. -/
theorem strtoul_end {s : List Char} (h : (strtoul s).2 = []) : s = [] ∨ ∃ p, numeral s = some p := by
  unfold strtoul at h
  simp only at h
  split at h
  · exact Or.inl h
  · rename_i hne
    refine Or.inr ⟨_, if_pos ⟨?_, dropWhile_isDigit.mp h⟩⟩
    intro he
    rw [he] at hne
    exact hne rfl

/-! ### Addresses -/

/-- A number of an address: no leading zero, at most 255. -/
def octet (ds : List Char) : Option ℕ :=
  if ds ≠ [] ∧ ds.all Char.isDigit ∧ (ds.length = 1 ∨ ds.head? ≠ some '0') ∧ decimal ds ≤ 255 then
    some (decimal ds)
  else none

/-- `inet_pton`: four numbers with dots between them, as bytes in network order. -/
def dottedQuad (s : List Char) : Option IPv4Addr :=
  match (s.splitOn '.').map octet with
  | [some a, some b, some c, some d] => some (UInt32.ofNat (a + 2 ^ 8 * b + 2 ^ 16 * c + 2 ^ 24 * d))
  | _ => none

def parseIpv4 (s : List Char) : Option IPv4Addr := dottedQuad (cStr s)

def isHexDigit (c : Char) : Bool := c.isDigit || ('a' ≤ c && c ≤ 'f') || ('A' ≤ c && c ≤ 'F')

def hexDigit (c : Char) : ℕ := if c.isDigit then c.toNat - '0'.toNat else c.toLower.toNat - 'a'.toNat + 10

/-- The `0` or `0x` before a number in base 16. -/
def hexPrefix : List Char → Bool × List Char
  | '0' :: 'x' :: s | '0' :: 'X' :: s | '0' :: s => (true, s)
  | s => (false, s)

/-- `%x` of `sscanf`, into an `unsigned int`: the value and what follows. -/
def scanHex (s : List Char) : Option (ℕ × List Char) :=
  let signed := sign (s.dropWhile isspace)
  let (zero, s) := hexPrefix signed.2
  let ds := s.takeWhile isHexDigit
  if !zero ∧ ds = [] then none
  else
    let v := ds.foldl (fun n c => 16 * n + hexDigit c) 0
    let v := if v > kUlongMax then kUlongMax else if signed.1 then (2 ^ 64 - v) % 2 ^ 64 else v
    some (v % 2 ^ 32, s.dropWhile isHexDigit)

/-- The `:%x` of the format of `parse_mac`. -/
def scanColonHex : List Char → Option (ℕ × List Char)
  | ':' :: s => scanHex s
  | _ => none

/-- `parse_mac`: six numbers, and nothing behind them. -/
def parseMac (s : List Char) : Option MacAddr := do
  let (a, s) ← scanHex (cStr s)
  let (b, s) ← scanColonHex s
  let (c, s) ← scanColonHex s
  let (d, s) ← scanColonHex s
  let (e, s) ← scanColonHex s
  let (f, s) ← scanColonHex s
  if s ≠ [] ∨ [a, b, c, d, e, f].any (· > 0xFF) then none
  else some (#v[a, b, c, d, e, f].map UInt8.ofNat)

/-! ### Parts of a text -/

/-- The parts that `getline` reads up to each `sep`: there is no part after a
separator at the end. -/
def getlineParts (sep : Char) (s : List Char) : List (List Char) :=
  let parts := s.splitOn sep
  if parts.getLast? = some [] then parts.dropLast else parts

end L4Lb
