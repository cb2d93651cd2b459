/-
# The schedulers

`include/lb/scheduler.h` and `src/lb/scheduler.cpp`. A scheduler is a table
of positions of backends, built when a snapshot is built: the smooth weighted
round robin sequence, or the Maglev lookup table. `pick` reads one entry.
The WRR cursor, one per worker, is passed in and out.

A table entry is a `uint16_t`, so positions are told apart if there are at most
65536 backends; a service has at most 256. The credits of Maglev are doubles: exact values, rounded after each
operation by `rnd`.
-/
import L4Lb.Config
import L4Lb.Frame
import L4Lb.Dpdk.Hash
import Mathlib.Algebra.BigOperators.Group.List.Basic
import Mathlib.Data.Int.Log
import Mathlib.Data.Rat.Floor

open Checked

namespace L4Lb

structure SchedBackend where
  ip : IPv4Addr
  port : UInt16
  /-- 0: takes no part -/
  weight : ℕ

structure Scheduler where
  type : SchedulerType := .wrr
  table : List ℕ := []

def kMaglevSize : ℕ := 65537
def kWrrMaxSeq : ℕ := 4096

/-! ### Weighted round robin -/

/-- The weights `build_wrr` uses, and their sum: divided by their gcd and, if
the sequence were too long, scaled down to at least 1. -/
def wrrWeights (b : List SchedBackend) : List ℕ × ℕ :=
  let w := b.map (·.weight)
  let g := w.foldl Nat.gcd 0
  let total := w.sum / g
  let w := w.map (· / g)
  if total > kWrrMaxSeq then
    let w := w.map fun x => if x ≠ 0 then max 1 (x * kWrrMaxSeq / total) else x
    (w, w.sum)
  else (w, total)

/-- The inner loop over the first `n` backends: each gains its weight; the
largest of those with a weight is the best so far. -/
def wrrScan (w : ℕ → ℕ) : ℕ → (ℕ → ℤ) → (ℕ → ℤ) × ℕ
  | 0, cur => (cur, 0)
  | i + 1, cur =>
    let (cur, best) := wrrScan w i cur
    let cur := Function.update cur i (cur i + w i)
    (cur, if w i ≠ 0 ∧ (w best = 0 ∨ cur i > cur best) then i else best)

/-- The outer loop: `k` more entries of the table, each stored as a `uint16_t`. -/
def wrrLoop (w : ℕ → ℕ) (n total : ℕ) : ℕ → (ℕ → ℤ) → List ℕ
  | 0, _ => []
  | k + 1, cur =>
    let (cur, best) := wrrScan w n cur
    best % 2 ^ 16 :: wrrLoop w n total k (Function.update cur best (cur best - total))

def buildWrr (b : List SchedBackend) : List ℕ :=
  let (w, total) := wrrWeights b
  wrrLoop (fun i => w.getD i 0) b.length total total fun _ => 0

/-! ### Maglev -/

/-- Rounding to the nearest integer, a tie to the even one. -/
def roundEven (x : ℚ) : ℤ :=
  if x - ⌊x⌋ < 1 / 2 ∨ (x - ⌊x⌋ = 1 / 2 ∧ ⌊x⌋ % 2 = 0) then ⌊x⌋ else ⌊x⌋ + 1

/-- Rounding to a double: 53 significant bits. -/
def double (x : ℚ) : ℚ :=
  if x ≤ 0 then x else roundEven (x / 2 ^ (Int.log 2 x - 52)) * 2 ^ (Int.log 2 x - 52)

/-- What is fixed while a table is built. -/
structure MaglevParams where
  /-- `M`, the size of the table -/
  size : ℕ
  rnd : ℚ → ℚ
  offset : ℕ → ℕ
  skip : ℕ → ℕ
  weight : ℕ → ℕ
  maxWeight : ℕ

structure MaglevState where
  credit : ℕ → ℚ
  next : ℕ → ℕ
  /-- `none` is `kEmpty` -/
  table : ℕ → Option ℕ
  filled : ℕ

namespace MaglevParams

/-- The `j`-th slot of backend `i`'s permutation. -/
def slot (P : MaglevParams) (i j : ℕ) : ℕ := (P.offset i + j * P.skip i) % P.size

/-- The search for the first empty slot along the permutation of `i`, from
`next` on: the slot, and `next` after it. -/
def search (P : MaglevParams) (i : ℕ) (table : ℕ → Option ℕ) : ℕ → ℕ → Option (ℕ × ℕ)
  | 0, _ => none
  | fuel + 1, next =>
    if (table (P.slot i next)).isNone then some (P.slot i next, next + 1)
    else search P i table fuel (next + 1)

/-- The turn of backend `i`. -/
def turn (P : MaglevParams) (s : MaglevState) (i : ℕ) : Option MaglevState :=
  if s.filled ≥ P.size then some s -- the loop has ended
  else if P.weight i = 0 then some s
  else
    let credit := P.rnd (s.credit i + P.rnd (P.weight i / P.maxWeight))
    if credit < 1 then some { s with credit := Function.update s.credit i credit }
    else (P.search i s.table P.size (s.next i)).map fun (c, next) =>
      { credit := Function.update s.credit i (P.rnd (credit - 1))
        next := Function.update s.next i next
        table := Function.update s.table c (some i)
        filled := s.filled + 1 }

/-- One round: the turns of the first `n` backends. -/
def round (P : MaglevParams) (n : ℕ) (s : MaglevState) : Option MaglevState := (List.range n).foldlM P.turn s

/-- The rounds, until the table is full. -/
def rounds (P : MaglevParams) (n : ℕ) : ℕ → MaglevState → Option MaglevState
  | 0, s => if s.filled < P.size then none else some s
  | fuel + 1, s => if s.filled < P.size then (P.round n s).bind (rounds P n fuel) else some s

end MaglevParams

def MaglevState.empty : MaglevState := ⟨fun _ => 0, fun _ => 0, fun _ => none, 0⟩

/-- The parameters of `build_maglev`, with a table of `size` slots. -/
def maglevParams (H : HashFns) (rnd : ℚ → ℚ) (size : ℕ) (b : List SchedBackend) : MaglevParams where
  size := size
  rnd := rnd
  offset i := ((b[i]?).elim 0 fun x => (H.jhash32b x.ip x.port.toUInt32 0x2545F491).toNat) % size
  skip i := ((b[i]?).elim 0 fun x => (H.jhash32b x.ip x.port.toUInt32 0x7A3B1C5D).toNat) % (size - 1) + 1
  weight i := (b[i]?).elim 0 (·.weight)
  maxWeight := (b.map (·.weight)).foldl max 0

/-- `build_maglev`; `none` is a loop that does not end. A slot left empty would
hold `UINT16_MAX`. -/
def buildMaglev (H : HashFns) (rnd : ℚ → ℚ) (size : ℕ) (b : List SchedBackend) : Option (List ℕ) :=
  ((maglevParams H rnd size b).rounds b.length size .empty).map fun s =>
    (List.range size).map fun c => (s.table c).getD 65535

/-! ### The scheduler -/

namespace Scheduler

def build (H : HashFns) (type : SchedulerType) (backends : List SchedBackend) : Except Fault Scheduler :=
  if backends.all (·.weight == 0) then .ok { type := type, table := [] }
  else
    match type with
    | .maglev =>
      match buildMaglev H double kMaglevSize backends with
      | none => .error .endless
      | some table => .ok { type := type, table := table }
    | .wrr => .ok { type := type, table := buildWrr backends }

/-- The cursor of worker `i` in a new scheduler, in 32 bits. -/
def firstCursor (i : ℕ) : ℕ := i * 7919 % 2 ^ 32

/-- `pick`: the position, if there is a backend, and the cursor after it. -/
def pick (H : HashFns) (s : Scheduler) (tuple : FiveTuple) (cursor : ℕ) : Option ℕ × ℕ :=
  if s.table = [] then (none, cursor)
  else
    match s.type with
    | .maglev =>
      let (w0, w1, w2) := tuple.words
      (s.table[(H.jhash3words w0 w1 w2 0x9e3779b9).toNat % s.table.length]?, cursor)
    | .wrr => (s.table[cursor % s.table.length]?, (cursor + 1) % 2 ^ 32)

end Scheduler

end L4Lb
