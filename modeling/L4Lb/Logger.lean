/-
# The logger

`src/common/logger.cpp`: the threads of the load balancer put their lines into a
queue, and a thread of its own writes them to the log file, a batch at a time.
`open_file` starts that thread and `shutdown` ends it, from one thread, any
number of times; in between any number of threads call `push`.

Each critical section is one step here, and so is each access to the shared
flags and counters outside of one, and each part of the writer's loop. The steps
of the threads interleave in any order. The writer may wake at any time:
`wait_for` has a timeout. What the file system answers is part of the event
(`Answer`). Of the files there is only the size of the one that is open: their
names and what they hold are in `Logger/Files.lean`. Of a line that `push` refuses
there is only that it is refused: its caller then writes it to stderr.
-/
import Mathlib.Data.Nat.Notation
import Mathlib.Logic.Function.Basic

namespace L4Lb
namespace Logger

/-! ### Writing -/

/-- `LogFileOptions`, as far as they matter here. -/
structure LogFileOptions where
  /-- 0 is no rotation -/
  maxSize : ℕ := 104857600
  alsoStderr : Bool := true
  queueCap : ℕ := 8192
  deriving DecidableEq

/-- What the writer itself has to say. -/
inductive Notice
  | reopened
  | cannotReopen
  | cannotOpenAfterRotation
  /-- so many log messages dropped (queue full) -/
  | dropped (d : ℕ)
  deriving DecidableEq

inductive Entry
  | line (text : String)
  | notice (n : Notice)
  deriving DecidableEq

/-- A call of `write_line`, and where it has written to. -/
structure Written where
  entry : Entry
  file : Bool
  stderr : Bool
  deriving DecidableEq

/-- What the file system and the clock answer: the size of the file that
`open_current` opens, if it does; the same for the one in `rotate`; and the
length of a notice with its time. -/
structure Answer where
  opened : Option ℕ := some 0
  rotated : Option ℕ := some 0
  len : ℕ := 0

/-- `rotate`, up to the names of the files: the size of the new file. A notice
that it could not be opened has no file to go to. -/
def rotate (rotated : Option ℕ) : Option ℕ × List Written :=
  match rotated with
  | some size => (some size, [])
  | none => (none, [⟨.notice .cannotOpenAfterRotation, false, true⟩])

/-- `write_line`, of an entry of `len` bytes; `file` is the size of the open
file. -/
def writeLine (opts : LogFileOptions) (file : Option ℕ) (e : Entry) (len : ℕ) (rotated : Option ℕ) :
    Option ℕ × List Written :=
  match file with
  | none => (none, [⟨e, false, true⟩])
  | some size =>
    let w : Written := ⟨e, true, opts.alsoStderr⟩
    let size := size + len
    if opts.maxSize ≠ 0 ∧ size ≥ opts.maxSize then
      let (file, ws) := rotate rotated
      (file, w :: ws)
    else (some size, [w])

/-! ### The queue -/

structure Sink where
  queue : List String := []
  cap : ℕ := 0
  urgent : Bool := false
  stop : Bool := false
  active : Bool := false
  dropped : ℕ := 0
  dropUnreported : ℕ := 0
  opts : LogFileOptions := {}
  /-- `path` is not empty -/
  path : Bool := false
  /-- the size of the open file -/
  file : Option ℕ := none
  deriving DecidableEq

/-- What a call of `push` comes to. -/
inductive Pushed
  | refused
  | dropped
  | queued
  deriving DecidableEq

/-- What `push` returns. -/
def Pushed.result : Pushed → Bool
  | refused => false
  | dropped | queued => true

/-- The critical section of `push`. -/
def Sink.push (s : Sink) (line : String) (isUrgent : Bool) : Sink × Pushed :=
  if !s.active then (s, .refused)
  else if s.queue.length ≥ s.cap then
    ({ s with dropped := s.dropped + 1, dropUnreported := s.dropUnreported + 1 }, .dropped)
  else ({ s with queue := s.queue ++ [line], urgent := s.urgent || isUrgent }, .queued)

/-- Where the writer is in `run`. -/
inductive Writer
  /-- there is no thread, or it has returned -/
  | absent
  /-- before the critical section -/
  | waiting
  /-- before the exchange of `g_reopen` -/
  | reopen (batch : List String) (stopping : Bool)
  /-- before it tries a file again that could not be opened -/
  | retry (batch : List String) (stopping : Bool)
  /-- before the exchange of `drop_unreported` -/
  | drops (batch : List String) (stopping : Bool)
  /-- in the loop over the batch -/
  | lines (rest : List String) (stopping : Bool)
  /-- before `flush` -/
  | flush (stopping : Bool)
  deriving DecidableEq

/-- The lines it has taken and not yet written. -/
def Writer.batch : Writer → List String
  | absent | waiting | flush _ => []
  | reopen batch _ | retry batch _ | drops batch _ | lines batch _ => batch

/-- Where the thread that opens and closes is. -/
inductive Control
  /-- nothing is open -/
  | closed
  /-- in `open_file`, the writer has been started -/
  | starting
  | opened
  /-- in `shutdown`, waiting for the writer -/
  | joining
  deriving DecidableEq

structure State where
  sink : Sink := {}
  /-- `g_reopen` -/
  reopen : Bool := false
  /-- the line of each thread that is in `push`, behind the first look at `active` -/
  pushing : ℕ → Option (String × Bool) := fun _ => none
  writer : Writer := .absent
  control : Control := .closed

inductive Event
  /-- thread `t` calls `push`, and looks at `active` -/
  | push (t : ℕ) (line : String) (isUrgent : Bool)
  /-- the critical section of that call -/
  | lock (t : ℕ)
  /-- the writer goes on -/
  | write (a : Answer)
  /-- `open_file`, to the start of the writer; `dirs` says that the directory
  is there, `size` is the size of the file, if it can be opened -/
  | openFile (opts : LogFileOptions) (dirs : Bool) (size : Option ℕ)
  /-- the end of `open_file` -/
  | activate
  /-- the critical section of `shutdown` -/
  | stop
  /-- the rest of `shutdown` -/
  | join
  | requestReopen

/-- What can be seen of a step: what a call of `push` came to, and the calls of
`write_line`. -/
inductive Obs
  | pushed (line : String) (p : Pushed)
  | wrote (w : Written)
  deriving DecidableEq

namespace State

/-- `write_line` by the writer, which then is at `next`. -/
def emit (s : State) (e : Entry) (len : ℕ) (rotated : Option ℕ) (next : Writer) : State × List Obs :=
  let (file, ws) := writeLine s.sink.opts s.sink.file e len rotated
  ({ s with sink := { s.sink with file := file }, writer := next }, ws.map .wrote)

/-- A part of the loop of `run`. -/
def write (s : State) (a : Answer) : Option (State × List Obs) :=
  match s.writer with
  | .absent => none
  | .waiting =>
    some ({ s with
      sink := { s.sink with queue := [], urgent := false }
      writer := .reopen s.sink.queue s.sink.stop }, [])
  | .reopen batch stopping =>
    if s.reopen then
      let s := { s with reopen := false, sink := { s.sink with file := a.opened } }
      some (s.emit (.notice (if a.opened.isSome then .reopened else .cannotReopen)) a.len a.rotated
        (.retry batch stopping))
    else some ({ s with writer := .retry batch stopping }, [])
  | .retry batch stopping =>
    if s.sink.file = none ∧ s.sink.path ∧ a.opened.isSome then
      let s := { s with sink := { s.sink with file := a.opened } }
      some (s.emit (.notice .reopened) a.len a.rotated (.drops batch stopping))
    else some ({ s with writer := .drops batch stopping }, [])
  | .drops batch stopping =>
    let d := s.sink.dropUnreported
    let s := { s with sink := { s.sink with dropUnreported := 0 } }
    if d ≠ 0 then some (s.emit (.notice (.dropped d)) a.len a.rotated (.lines batch stopping))
    else some ({ s with writer := .lines batch stopping }, [])
  | .lines [] stopping => some ({ s with writer := .flush stopping }, [])
  | .lines (line :: rest) stopping => some (s.emit (.line line) line.utf8ByteSize a.rotated (.lines rest stopping))
  | .flush stopping => some ({ s with writer := if stopping then .absent else .waiting }, [])

/-- The states and what is seen; `none` is an event that cannot happen. -/
def step (s : State) : Event → Option (State × List Obs)
  | .push t line isUrgent =>
    match s.pushing t with
    | some _ => none
    | none =>
      if !s.sink.active then some (s, [.pushed line .refused])
      else some ({ s with pushing := Function.update s.pushing t (some (line, isUrgent)) }, [])
  | .lock t =>
    match s.pushing t with
    | none => none
    | some (line, isUrgent) =>
      let (sink, p) := s.sink.push line isUrgent
      some ({ s with sink := sink, pushing := Function.update s.pushing t none }, [.pushed line p])
  | .write a => s.write a
  | .openFile opts dirs size =>
    if s.control ≠ .closed then none
    else if !dirs then some (s, [])
    else
      match size with
      | none => some ({ s with sink := { s.sink with opts := opts, path := false, file := none } }, [])
      | some size =>
        some ({ s with
          sink := { s.sink with
            opts := opts, path := true, file := some size
            cap := if opts.queueCap ≠ 0 then opts.queueCap else 1, stop := false, urgent := false }
          reopen := false, writer := .waiting, control := .starting }, [])
  | .activate =>
    if s.control ≠ .starting then none
    else some ({ s with sink := { s.sink with active := true }, control := .opened }, [])
  | .stop =>
    if s.control = .starting ∨ s.control = .joining then none
    else if !s.sink.active then some (s, [])
    else some ({ s with sink := { s.sink with active := false, stop := true }, control := .joining }, [])
  | .join =>
    if s.control = .joining ∧ s.writer = .absent then
      some ({ s with sink := { s.sink with file := none, path := false }, control := .closed }, [])
    else none
  | .requestReopen => some ({ s with reopen := true }, [])

/-- The state after a run, and what was seen in it. -/
def run (s : State) : List Event → Option (State × List Obs)
  | [] => some (s, [])
  | ev :: evs => do
    let (s, obs) ← s.step ev
    let (s, rest) ← run s evs
    return (s, obs ++ rest)

end State
end Logger
end L4Lb
