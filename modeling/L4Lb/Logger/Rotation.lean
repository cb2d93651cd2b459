/-
# What a rotation keeps

With `n` old files the log is the files `path.n`, …, `path.1` and `path`, which
`logName` numbers from `n` down to 0. The calls of a rotation make a hole at `n`
and move it down to 0, one file at a time; `Shifted` says how the files stand
when the hole is at `j`. No call replaces a file: its target is the hole. What is
lost is the file that was at `n`.

So at every moment, also between two of these calls, the files read one after the
other hold whole lines, the last ones that were written (`Retains`). The lines
that the stream still holds count as written: the directory is that after a
flush.
-/
import L4Lb.Lib.SlotLog
import L4Lb.Logger.Files
import Mathlib.Data.Set.Card

namespace L4Lb
namespace Logger

open SlotLog

variable {path name : String} {n j : ℕ} {d d' : Directory} {lines : List (List UInt8)}

/-! ### The names of the files -/

/-- File 0 is the one that is written, file `i` the `i`-th newest of the old ones. -/
def logName (path : String) : ℕ → String
  | 0 => path
  | i + 1 => oldName path (i + 1)

theorem oldName_injective {i k : ℕ} (h : oldName path i = oldName path k) : i = k := by
  have hs : toString i = toString k := (String.append_right_inj _).mp h
  rw [Nat.toString_eq_ofList_toDigits, Nat.toString_eq_ofList_toDigits, String.ofList_inj] at hs
  calc i = Nat.ofDigitChars 10 (Nat.toDigits 10 i) 0 := Nat.ofDigitChars_ten_toDigits.symm
    _ = Nat.ofDigitChars 10 (Nat.toDigits 10 k) 0 := by rw [hs]
    _ = k := Nat.ofDigitChars_ten_toDigits

theorem oldName_ne (path : String) (i : ℕ) : oldName path i ≠ path := by
  intro h
  have := congrArg String.length h
  simp only [oldName, String.length_append] at this
  have : ".".length = 1 := rfl
  omega

theorem logName_injective (path : String) : Function.Injective (logName path) := by
  intro i k h
  cases i with
  | zero =>
    cases k with
    | zero => rfl
    | succ k => exact absurd h.symm (oldName_ne path (k + 1))
  | succ i =>
    cases k with
    | zero => exact absurd h (oldName_ne path (i + 1))
    | succ k => exact oldName_injective h

theorem logName_ne {i k : ℕ} (h : i ≠ k) : logName path i ≠ logName path k := (logName_injective path).ne h

theorem append_logName_succ (d : Directory) (path : String) (bytes : List UInt8) (i : ℕ) :
    d.append path bytes (logName path (i + 1)) = d (logName path (i + 1)) :=
  Directory.append_of_ne (oldName_ne path (i + 1))

/-! ### The hole moves down -/

/-- The moves of a rotation, of file `n - 1` first. -/
def moves (path : String) : ℕ → List DirCall
  | 0 => []
  | j + 1 => .rename (logName path j) (logName path (j + 1)) :: moves path j

theorem shiftCalls_append (path : String) (j : ℕ) :
    shiftCalls path (j + 1) ++ [.rename path (oldName path 1)] = moves path (j + 1) := by
  induction j with
  | zero => rfl
  | succ j ih =>
    rw [shiftCalls, List.cons_append, ih]
    rfl

/-- With no old files `rotate` takes a branch of its own; it is the same. -/
theorem rotateCalls_eq (path : String) (n : ℕ) :
    rotateCalls path n = .remove (logName path n) :: moves path n := by
  cases n with
  | zero => rfl
  | succ n => rw [rotateCalls, if_neg n.succ_ne_zero, List.cons_append, shiftCalls_append, logName]

/-- File `n` of `d` is gone, those from `j` on are one further, and there is no
file `j`. -/
structure Shifted (path : String) (n j : ℕ) (d d' : Directory) : Prop where
  above : ∀ i, j ≤ i → i < n → d' (logName path (i + 1)) = d (logName path i)
  hole : d' (logName path j) = none
  below : ∀ i < j, d' (logName path i) = d (logName path i)
  other : ∀ name, (∀ i ≤ n, name ≠ logName path i) → d' name = d name

theorem Shifted.remove (path : String) (n : ℕ) (d : Directory) :
    Shifted path n n d ((DirCall.remove (logName path n)).run d) where
  above i h h' := absurd h (by omega)
  hole := Function.update_self ..
  below i h := Function.update_of_ne (logName_ne (by omega)) ..
  other name h := Function.update_of_ne (h n le_rfl) ..

/-- One move. It replaces no file: its target is the hole. -/
theorem Shifted.rename (h : Shifted path n (j + 1) d d') (hj : j < n) :
    Shifted path n j d ((DirCall.rename (logName path j) (logName path (j + 1))).run d') where
  above i hi hn := by
    rcases Nat.eq_or_lt_of_le hi with rfl | hlt
    · -- the file that is moved, which was still in its place
      rw [DirCall.rename_target h.hole, h.below j j.lt_succ_self]
    · rw [DirCall.rename_of_ne (logName_ne (by omega)) (logName_ne (by omega)), h.above i hlt hn]
  hole := DirCall.rename_source (logName_ne (by omega))
  below i hi := by
    rw [DirCall.rename_of_ne (logName_ne (by omega)) (logName_ne (by omega)), h.below i (by omega)]
  other name hname := by
    rw [DirCall.rename_of_ne (hname j (by omega)) (hname (j + 1) hj), h.other name hname]

/-- Any number of moves, in their order. -/
theorem Shifted.run_moves (h : Shifted path n j d d') (hj : j ≤ n) {calls : List DirCall}
    (hc : calls <+: moves path j) : ∃ i ≤ n, Shifted path n i d (d'.run calls) := by
  induction j generalizing d' calls with
  | zero =>
    obtain rfl : calls = [] := List.prefix_nil.mp hc
    exact ⟨0, hj, h⟩
  | succ j ih =>
    cases calls with
    | nil => exact ⟨j + 1, hj, h⟩
    | cons c calls =>
      obtain ⟨rfl, hrest⟩ := List.cons_prefix_cons.mp hc
      exact ih (h.rename hj) (by omega) hrest

theorem Shifted.run_all (h : Shifted path n j d d') (hj : j ≤ n) : Shifted path n 0 d (d'.run (moves path j)) := by
  induction j generalizing d' with
  | zero => exact h
  | succ j ih => exact ih (h.rename hj) (by omega)

/-- A whole rotation leaves no file `path`. -/
theorem Shifted.run_rotateCalls (path : String) (n : ℕ) (d : Directory) :
    Shifted path n 0 d (d.run (rotateCalls path n)) := by
  rw [rotateCalls_eq]
  exact (Shifted.remove path n d).run_all le_rfl

/-- A rotation that was cut short leaves a hole somewhere, unless it did nothing. -/
theorem Shifted.run_cut {calls : List DirCall} (hc : calls <+: rotateCalls path n) :
    d.run calls = d ∨ ∃ j ≤ n, Shifted path n j d (d.run calls) := by
  rw [rotateCalls_eq] at hc
  cases calls with
  | nil => exact .inl rfl
  | cons c calls =>
    obtain ⟨rfl, hrest⟩ := List.cons_prefix_cons.mp hc
    exact .inr ((Shifted.remove path n d).run_moves le_rfl hrest)

/-! ### What the files hold -/

/-- The files `path.n`, …, `path.1` and `path`, one after the other. -/
def Directory.cat (d : Directory) (path : String) (n : ℕ) : List UInt8 :=
  joined (fun i => (d (logName path i)).getD []) (n + 1)

/-- There are no other files, each file is made of whole lines, and together they
are the last of `lines`. -/
structure Retains (path : String) (n : ℕ) (lines : List (List UInt8)) (d : Directory) : Prop where
  names : ∀ name, d name ≠ none → ∃ i ≤ n, name = logName path i
  suffix : ∃ part : ℕ → List (List UInt8),
    (∀ i ≤ n, (d (logName path i)).getD [] = (part i).flatten) ∧ joined part (n + 1) <:+ lines

namespace Retains

theorem empty (path : String) (n : ℕ) : Retains path n [] fun _ => none where
  names name h := absurd rfl h
  suffix := ⟨fun _ => [], fun _ _ => rfl, by
    induction n with
    | zero => exact List.suffix_rfl
    | succ n ih => exact ih⟩

/-- Whole lines are added to `path`. -/
theorem append (h : Retains path n lines d) (ls : List (List UInt8)) :
    Retains path n (lines ++ ls) (d.append path ls.flatten) where
  names name hname := by
    rcases eq_or_ne name path with rfl | hne
    · exact ⟨0, n.zero_le, rfl⟩
    · rw [Directory.append_of_ne hne] at hname
      exact h.names name hname
  suffix := by
    obtain ⟨part, hpart, hsuf⟩ := h.suffix
    refine ⟨Function.update part 0 (part 0 ++ ls), fun i hi => ?_, suffix_append hsuf ls⟩
    cases i with
    | zero =>
      have h0 := hpart 0 n.zero_le
      rw [Function.update_self, List.flatten_append, ← h0, logName, Directory.append_self, Option.getD_some]
    | succ i => rw [Function.update_of_ne i.succ_ne_zero, append_logName_succ, hpart (i + 1) hi]

theorem append_line (h : Retains path n lines d) (line : List UInt8) :
    Retains path n (lines ++ [line]) (d.append path line) := by
  simpa using h.append [line]

/-- A new file changes nothing. -/
theorem create (h : Retains path n lines d) : Retains path n lines (d.append path []) := by
  simpa using h.append []

/-- The hole takes nothing but the oldest file. -/
theorem shifted (h : Retains path n lines d) (hs : Shifted path n j d d') (hj : j ≤ n) :
    Retains path n lines d' where
  names name hname := by
    by_contra hno
    have hother : ∀ i ≤ n, name ≠ logName path i := fun i hi he => hno ⟨i, hi, he⟩
    rw [hs.other name hother] at hname
    exact hno (h.names name hname)
  suffix := by
    obtain ⟨part, hpart, hsuf⟩ := h.suffix
    refine ⟨vacate j part, fun i hi => ?_, suffix_vacate hsuf hj⟩
    -- the file is below the hole, the hole, or above it
    rcases Nat.lt_trichotomy i j with hlt | rfl | hgt
    · rw [hs.below i hlt, vacate_below hlt, hpart i hi]
    · rw [hs.hole, vacate_self]
      rfl
    · obtain ⟨k, rfl⟩ : ∃ k, i = k + 1 := ⟨i - 1, by omega⟩
      rw [hs.above k (by omega) hi, vacate_above (by omega), hpart k (by omega)]

/-- A rotation may be cut short anywhere. -/
theorem run_cut (h : Retains path n lines d) {calls : List DirCall} (hc : calls <+: rotateCalls path n) :
    Retains path n lines (d.run calls) := by
  rcases Shifted.run_cut hc with hd | ⟨j, hj, hs⟩
  · rw [hd]
    exact h
  · exact h.shifted hs hj

/-- The files together are the last lines. -/
theorem cat_eq (h : Retains path n lines d) : ∃ kept, kept <:+ lines ∧ d.cat path n = kept.flatten := by
  obtain ⟨part, hpart, hsuf⟩ := h.suffix
  refine ⟨joined part (n + 1), hsuf, ?_⟩
  rw [flatten_joined]
  exact joined_congr fun i hi => hpart i (by omega)

theorem encard_le (h : Retains path n lines d) : {name | d name ≠ none}.encard ≤ n + 1 := by
  have hsub : {name | d name ≠ none} ⊆ logName path '' (Finset.range (n + 1) : Set ℕ) := by
    intro name hname
    obtain ⟨i, hi, rfl⟩ := h.names name hname
    exact ⟨i, by simpa using Nat.lt_succ_of_le hi, rfl⟩
  calc {name | d name ≠ none}.encard
      ≤ (logName path '' (Finset.range (n + 1) : Set ℕ)).encard := Set.encard_le_encard hsub
    _ ≤ (Finset.range (n + 1) : Set ℕ).encard := Set.encard_image_le ..
    _ = n + 1 := by rw [Set.encard_coe_eq_coe_finsetCard, Finset.card_range]; rfl

end Retains

/-! ### A rotation and a new file -/

/-- The oldest file is gone, every other one is one further, and `path` is empty. -/
structure Rotated (path : String) (n : ℕ) (d d' : Directory) : Prop where
  current : d' path = some []
  moved : ∀ i < n, d' (logName path (i + 1)) = d (logName path i)
  other : ∀ name, (∀ i ≤ n, name ≠ logName path i) → d' name = d name

theorem Shifted.rotated (h : Shifted path n 0 d d') : Rotated path n d (d'.append path []) where
  current := by
    have hole : d' path = none := h.hole
    rw [Directory.append_self, hole]
    rfl
  moved i hi := by
    rw [append_logName_succ]
    exact h.above i i.zero_le hi
  other name hname := by
    have hne : name ≠ path := hname 0 n.zero_le
    rw [Directory.append_of_ne hne, h.other name hname]

/-- There is no gap: with a file there is every newer one. -/
def Gapless (path : String) (n : ℕ) (d : Directory) : Prop :=
  ∀ i < n, d (logName path (i + 1)) ≠ none → d (logName path i) ≠ none

theorem Gapless.append (h : Gapless path n d) (bytes : List UInt8) : Gapless path n (d.append path bytes) := by
  intro i hi hne
  rw [append_logName_succ] at hne
  cases i with
  | zero => simp [logName]
  | succ i =>
    rw [append_logName_succ]
    exact h (i + 1) hi hne

theorem Gapless.rotated (h : Gapless path n d) (hr : Rotated path n d d') : Gapless path n d' := by
  intro i hi hne
  cases i with
  | zero =>
    rw [logName, hr.current]
    exact Option.some_ne_none _
  | succ i =>
    rw [hr.moved (i + 1) hi] at hne
    rw [hr.moved i (by omega)]
    exact h i (by omega) hne

namespace FileSink

variable {s : FileSink} {opts : FileOptions} {line : List UInt8} {a : FileAnswer}

/-! ### The size of the open file -/

/-- The open file as `Logger.lean` has it. -/
def openSize (s : FileSink) : Option ℕ := s.file.map fun _ => s.size

theorem rotate_openSize (s : FileSink) (a : FileAnswer) :
    (s.rotate a).openSize = if a.opens then some 0 else none := by
  have hole : (s.flush.dir.run (rotateCalls s.path s.opts.maxFiles)) s.path = none :=
    (Shifted.run_rotateCalls s.path s.opts.maxFiles s.flush.dir).hole
  cases ha : a.opens with
  | false => simp [rotate, openCurrent, openSize, ha]
  | true => simp [rotate, openCurrent, openSize, fclose, ha, hole]

/-- `write_line` here and in `Logger.lean` leave the same file open: the new file
of a rotation is empty. -/
theorem writeLine_openSize (s : FileSink) (line : List UInt8) (a : FileAnswer) (e : Entry) :
    (s.writeLine line a).openSize =
      (Logger.writeLine s.opts.toLogFileOptions s.openSize e line.length
        (if a.opens then some 0 else none)).1 := by
  cases h : s.file with
  | none => simp [writeLine, Logger.writeLine, openSize, h]
  | some held =>
    obtain ⟨t, -, -, hf, hsize, -, hw⟩ := writeLine_of_open h line a
    have hs : s.openSize = some s.size := by rw [openSize, h]; rfl
    rw [hw, hs, Logger.writeLine]
    by_cases hfull : s.opts.maxSize ≠ 0 ∧ s.size + line.length ≥ s.opts.maxSize
    · rw [if_pos hfull]
      simp only [if_pos hfull]
      rw [rotate_openSize]
      cases a.opens <;> rfl
    · rw [if_neg hfull]
      simp only [if_neg hfull]
      obtain ⟨held', hf⟩ := Option.isSome_iff_exists.mp hf
      rw [openSize, hf, hsize]
      rfl

/-! ### Every run -/

/-- The sink after `open_file` in an empty directory and `write_line` of `lines`,
where every file can be opened. How much of the bytes has gone to the disk after
each of them is left open. -/
inductive After (opts : FileOptions) (path : String) : List (List UInt8) → FileSink → Prop
  | opened : After opts path [] (opened opts path fun _ => none)
  | writeLine {lines : List (List UInt8)} {s : FileSink} (h : After opts path lines s) (line : List UInt8)
      {a : FileAnswer} (ha : a.opens = true) : After opts path (lines ++ [line]) (s.writeLine line a)

/-- What one `write_line` makes of the files: the line is added to `path`, and a
rotation may follow, which keeps the last lines at each of its calls. -/
theorem writeLine_step (h : s.file.isSome) (hr : Retains s.path s.opts.maxFiles lines s.flush.dir)
    (line : List UInt8) (ha : a.opens = true) :
    (s.writeLine line a).flush.dir = s.flush.dir.append s.path line ∨
    Rotated s.path s.opts.maxFiles (s.flush.dir.append s.path line) (s.writeLine line a).flush.dir ∧
      ∀ calls, calls <+: rotateCalls s.path s.opts.maxFiles →
        Retains s.path s.opts.maxFiles (lines ++ [line]) ((s.flush.dir.append s.path line).run calls) := by
  obtain ⟨held, hf⟩ := Option.isSome_iff_exists.mp h
  obtain ⟨-, -, -, hd⟩ := writeLine_dir hf ha line
  rw [hd]
  split
  · exact .inr ⟨(Shifted.run_rotateCalls ..).rotated, fun calls hc => (hr.append_line line).run_cut hc⟩
  · exact .inl rfl

/-- What holds of the sink at every point of a run. -/
structure Inv (opts : FileOptions) (path : String) (lines : List (List UInt8)) (s : FileSink) : Prop where
  opts_eq : s.opts = opts
  path_eq : s.path = path
  isOpen : s.file.isSome
  retains : Retains path opts.maxFiles lines s.flush.dir
  gapless : Gapless path opts.maxFiles s.flush.dir

theorem Inv.opened (opts : FileOptions) (path : String) :
    Inv opts path [] (opened opts path fun _ => none) := by
  have hdir : (FileSink.opened opts path fun _ => none).flush.dir = Directory.append (fun _ => none) path [] :=
    Directory.append_append
  refine ⟨rfl, rfl, rfl, ?_, ?_⟩
  · rw [hdir]
    exact (Retains.empty path opts.maxFiles).create
  · rw [hdir]
    exact Gapless.append (fun i _ hne => absurd rfl hne) []

theorem Inv.writeLine (h : Inv opts path lines s) (line : List UInt8) (ha : a.opens = true) :
    Inv opts path (lines ++ [line]) (s.writeLine line a) := by
  obtain ⟨rfl, rfl, hf, hr, hg⟩ := h
  obtain ⟨held, hheld⟩ := Option.isSome_iff_exists.mp hf
  obtain ⟨ho, hp, hf', hd⟩ := writeLine_dir hheld ha line
  refine ⟨ho, hp, hf', ?_, ?_⟩
  · rw [hd]
    split
    · exact ((hr.append_line line).run_cut List.prefix_rfl).create
    · exact hr.append_line line
  · rcases writeLine_step hf hr line ha with hd | ⟨hrot, -⟩
    · rw [hd]
      exact hg.append line
    · exact (hg.append line).rotated hrot

theorem After.inv (h : After opts path lines s) : Inv opts path lines s := by
  induction h with
  | opened => exact Inv.opened opts path
  | writeLine h line ha ih => exact ih.writeLine line ha

/-- **The log is the last lines.** At every point of every run from an empty
directory, with what the stream holds counted as written: the files `path.n`, …,
`path.1`, `path` are made of whole lines, and one after the other they are a
suffix of all lines, in order; there are at most `n + 1` files, without a gap; and
the next `write_line` adds its line to `path`, and then at most makes a rotation
that discards the oldest file and keeps each of the others, where after any number
of its calls the files still are the last lines. -/
theorem rotation_retains_suffix (h : After opts path lines s) :
    (∃ held, s.flush.dir = s.dir.append path held) ∧
    (∃ kept, kept <:+ lines ∧ s.flush.dir.cat path opts.maxFiles = kept.flatten) ∧
    Retains path opts.maxFiles lines s.flush.dir ∧ Gapless path opts.maxFiles s.flush.dir ∧
    {name | s.flush.dir name ≠ none}.encard ≤ opts.maxFiles + 1 ∧
    ∀ line (a : FileAnswer), a.opens = true →
      (s.writeLine line a).flush.dir = s.flush.dir.append path line ∨
      Rotated path opts.maxFiles (s.flush.dir.append path line) (s.writeLine line a).flush.dir ∧
        ∀ calls, calls <+: rotateCalls path opts.maxFiles →
          Retains path opts.maxFiles (lines ++ [line]) ((s.flush.dir.append path line).run calls) := by
  obtain ⟨rfl, rfl, hf, hr, hg⟩ := h.inv
  obtain ⟨held, hheld⟩ := Option.isSome_iff_exists.mp hf
  exact ⟨⟨held, flush_dir hheld⟩, hr.cat_eq, hr, hg, hr.encard_le, fun line a ha => writeLine_step hf hr line ha⟩

/-- A file is full with 4 bytes, and there is one old file. -/
def tinyOptions : FileOptions := { maxSize := 4, maxFiles := 1 }

theorem rotation_retains_suffix_tiny :
    ∃ s, After tinyOptions "l" [[1, 2, 3], [4, 5], [6, 7, 8, 9], [10]] s ∧
      s.flush.dir "l.1" = some [6, 7, 8, 9] ∧ s.flush.dir "l" = some [10] ∧
      (∃ kept, kept <:+ [[1, 2, 3], [4, 5], [6, 7, 8, 9], [10]] ∧ s.flush.dir.cat "l" 1 = kept.flatten) ∧
      {name | s.flush.dir name ≠ none}.encard ≤ 2 := by
  have h0 : After tinyOptions "l" [] (opened tinyOptions "l" fun _ => none) := .opened
  have h1 := h0.writeLine [1, 2, 3] (a := { spill := 2 }) rfl
  have h2 := h1.writeLine [4, 5] (a := {}) rfl
  have h3 := h2.writeLine [6, 7, 8, 9] (a := { spill := 1 }) rfl
  have h4 := h3.writeLine [10] (a := {}) rfl
  obtain ⟨-, hcat, -, -, hcard, -⟩ := rotation_retains_suffix h4
  exact ⟨_, h4, by decide +kernel, by decide +kernel, hcat, hcard⟩

end FileSink
end Logger
end L4Lb
