/-
# The files of the log

`Sink::open_current`, `rotate`, `write_line` and `flush` of
`src/common/logger.cpp`, with the files they work on. A directory gives each name
the bytes of its file. An open stream appends to the file `path` and holds some
of the bytes back; how many is not up to the logger (`FileAnswer.spill`), and
`fflush` and `fclose` leave none. A rotation closes the stream first and then
makes the calls `rotateCalls`, in this order.

`Logger.lean` has the same functions up to the size of the open file
(`FileSink.writeLine_openSize` in `Logger/Rotation.lean`).
-/
import L4Lb.Logger
import Mathlib.Logic.Function.Basic
import Mathlib.Tactic.Common

namespace L4Lb
namespace Logger

/-! ### The directory -/

/-- The bytes of each file, by its name. -/
abbrev Directory := String → Option (List UInt8)

/-- The calls of a rotation that change the directory. -/
inductive DirCall
  | remove (name : String)
  | rename (source target : String)
  deriving DecidableEq

/-- Removing or renaming a file that does not exist changes nothing; `rename`
replaces a file that has the new name already. -/
def DirCall.run (d : Directory) : DirCall → Directory
  | .remove name => Function.update d name none
  | .rename source target =>
    match d source with
    | none => d
    | some bytes => Function.update (Function.update d source none) target (some bytes)

def Directory.run (d : Directory) (calls : List DirCall) : Directory := calls.foldl DirCall.run d

/-- Writing to the end of a file, which `fopen` in mode `a` creates. -/
def Directory.append (d : Directory) (name : String) (bytes : List UInt8) : Directory :=
  Function.update d name (some ((d name).getD [] ++ bytes))

section Directory

variable {d : Directory} {name source target : String}

@[simp] theorem Directory.append_self {bytes : List UInt8} :
    d.append name bytes name = some ((d name).getD [] ++ bytes) := Function.update_self ..

theorem Directory.append_of_ne {name' : String} {bytes : List UInt8} (h : name' ≠ name) :
    d.append name bytes name' = d name' := Function.update_of_ne h ..

theorem Directory.append_append {a b : List UInt8} :
    (d.append name a).append name b = d.append name (a ++ b) := by
  simp [Directory.append]

theorem DirCall.rename_of_none (h : d source = none) : (DirCall.rename source target).run d = d := by
  simp [DirCall.run, h]

theorem DirCall.rename_target (h : d target = none) : (DirCall.rename source target).run d target = d source := by
  cases hs : d source with
  | none => rw [DirCall.rename_of_none hs, h]
  | some bytes => simp [DirCall.run, hs]

theorem DirCall.rename_source (h : source ≠ target) : (DirCall.rename source target).run d source = none := by
  cases hs : d source with
  | none => rw [DirCall.rename_of_none hs, hs]
  | some bytes => simp [DirCall.run, hs, h]

theorem DirCall.rename_of_ne (hs : name ≠ source) (ht : name ≠ target) :
    (DirCall.rename source target).run d name = d name := by
  cases h : d source with
  | none => rw [DirCall.rename_of_none h]
  | some bytes => simp [DirCall.run, h, hs, ht]

end Directory

/-! ### The calls of a rotation -/

/-- `path + "." + std::to_string(i)`. -/
def oldName (path : String) (i : ℕ) : String := path ++ "." ++ toString i

/-- The loop of `rotate`, from `i` down to 2. -/
def shiftCalls (path : String) : ℕ → List DirCall
  | 0 | 1 => []
  | i + 2 => .rename (oldName path (i + 1)) (oldName path (i + 2)) :: shiftCalls path (i + 1)

def rotateCalls (path : String) (maxFiles : ℕ) : List DirCall :=
  if maxFiles = 0 then [.remove path]
  else .remove (oldName path maxFiles) :: shiftCalls path maxFiles ++ [.rename path (oldName path 1)]

/-! ### The writer's part of the sink -/

/-- `LogFileOptions`, with the number of old files. -/
structure FileOptions extends LogFileOptions where
  maxFiles : ℕ := 5

/-- What is left open by the calls of one `write_line`: how many of the bytes the
stream holds go to the disk, whether the file can be opened after a rotation, and
the text of the notice if it cannot. -/
structure FileAnswer where
  spill : ℕ := 0
  opens : Bool := true
  notice : List UInt8 := []

/-- What only the writer uses of the sink, with the directory and what went to
stderr. -/
structure FileSink where
  opts : FileOptions
  path : String
  dir : Directory
  /-- the bytes that the open stream holds -/
  file : Option (List UInt8) := none
  size : ℕ := 0
  stderr : List UInt8 := []

namespace FileSink

/-- `open_current`, where `opens` says if `fopen` succeeds. -/
def openCurrent (s : FileSink) (opens : Bool) : FileSink :=
  if opens then
    { s with dir := s.dir.append s.path [], file := some [], size := ((s.dir s.path).getD []).length }
  else { s with file := none }

/-- `flush`. -/
def flush (s : FileSink) : FileSink :=
  match s.file with
  | none => s
  | some held => { s with dir := s.dir.append s.path held, file := some [] }

/-- `fclose`, if there is an open stream. -/
def fclose (s : FileSink) : FileSink := { s.flush with file := none }

/-- `fwrite` to the open stream. -/
def fwrite (s : FileSink) (held line : List UInt8) (spill : ℕ) : FileSink :=
  { s with dir := s.dir.append s.path ((held ++ line).take spill), file := some ((held ++ line).drop spill) }

/-- `rotate`. A notice that the file could not be opened has only stderr to go to. -/
def rotate (s : FileSink) (a : FileAnswer) : FileSink :=
  let s := s.fclose
  let s := { s with dir := s.dir.run (rotateCalls s.path s.opts.maxFiles) }
  let s := s.openCurrent a.opens
  if a.opens then s else { s with stderr := s.stderr ++ a.notice }

/-- `write_line`. -/
def writeLine (s : FileSink) (line : List UInt8) (a : FileAnswer) : FileSink :=
  let s := { s with stderr := if s.opts.alsoStderr ∨ s.file = none then s.stderr ++ line else s.stderr }
  match s.file with
  | none => s
  | some held =>
    let s := s.fwrite held line a.spill
    let s := { s with size := s.size + line.length }
    if s.opts.maxSize ≠ 0 ∧ s.size ≥ s.opts.maxSize then s.rotate a else s

/-- The sink that `open_file` leaves in a directory. -/
def opened (opts : FileOptions) (path : String) (dir : Directory) : FileSink :=
  openCurrent { opts, path, dir } true

/-! ### The directory once the stream is flushed -/

variable {s : FileSink} {held line : List UInt8} {a : FileAnswer}

theorem flush_dir (h : s.file = some held) : s.flush.dir = s.dir.append s.path held := by
  rw [flush, h]

/-- The line stands at the end of the file, wherever the stream has cut it. -/
theorem flush_fwrite (h : s.file = some held) (line : List UInt8) (spill : ℕ) :
    (s.fwrite held line spill).flush.dir = s.flush.dir.append s.path line :=
  calc (s.fwrite held line spill).flush.dir
      = (s.dir.append s.path ((held ++ line).take spill)).append s.path ((held ++ line).drop spill) :=
        flush_dir rfl
    _ = s.dir.append s.path (held ++ line) := by rw [Directory.append_append, List.take_append_drop]
    _ = s.flush.dir.append s.path line := by rw [flush_dir h, Directory.append_append]

@[simp] theorem flush_opts : s.flush.opts = s.opts := by
  unfold flush
  split <;> rfl

@[simp] theorem flush_path : s.flush.path = s.path := by
  unfold flush
  split <;> rfl

theorem rotate_dir (ha : a.opens = true) :
    (s.rotate a).opts = s.opts ∧ (s.rotate a).path = s.path ∧ (s.rotate a).file = some [] ∧
    (s.rotate a).dir = (s.flush.dir.run (rotateCalls s.path s.opts.maxFiles)).append s.path [] := by
  simp [rotate, openCurrent, fclose, ha]

/-- `write_line` on an open stream, up to what it writes to stderr. -/
theorem writeLine_of_open (h : s.file = some held) (line : List UInt8) (a : FileAnswer) :
    ∃ t : FileSink,
      t.opts = s.opts ∧ t.path = s.path ∧ t.file.isSome ∧ t.size = s.size + line.length ∧
      t.flush.dir = s.flush.dir.append s.path line ∧
      s.writeLine line a =
        if s.opts.maxSize ≠ 0 ∧ s.size + line.length ≥ s.opts.maxSize then t.rotate a else t := by
  let err := if s.opts.alsoStderr ∨ s.file = none then s.stderr ++ line else s.stderr
  let t : FileSink := { s.fwrite held line a.spill with size := s.size + line.length, stderr := err }
  refine ⟨t, rfl, rfl, rfl, rfl, flush_fwrite h line a.spill, ?_⟩
  simp only [writeLine, h, t, err]
  rfl

/-- All that `write_line` does to the files while they can be opened. -/
theorem writeLine_dir (h : s.file = some held) (ha : a.opens = true) (line : List UInt8) :
    (s.writeLine line a).opts = s.opts ∧ (s.writeLine line a).path = s.path ∧
    (s.writeLine line a).file.isSome ∧
    (s.writeLine line a).flush.dir =
      if s.opts.maxSize ≠ 0 ∧ s.size + line.length ≥ s.opts.maxSize then
        ((s.flush.dir.append s.path line).run (rotateCalls s.path s.opts.maxFiles)).append s.path []
      else s.flush.dir.append s.path line := by
  obtain ⟨t, ho, hp, hf, -, hd, hw⟩ := writeLine_of_open h line a
  rw [hw]
  by_cases hfull : s.opts.maxSize ≠ 0 ∧ s.size + line.length ≥ s.opts.maxSize
  · rw [if_pos hfull, if_pos hfull]
    obtain ⟨hro, hrp, hrf, hrd⟩ := t.rotate_dir ha
    refine ⟨hro.trans ho, hrp.trans hp, by rw [hrf]; rfl, ?_⟩
    rw [flush_dir hrf, hrd, hrp, Directory.append_append, hd, hp, ho]
    rfl
  · rw [if_neg hfull, if_neg hfull]
    exact ⟨ho, hp, hf, hd⟩

end FileSink

end Logger
end L4Lb
