/-
# No line is lost between the queue and the file

For every interleaving of the threads: the lines that `push` has accepted are
those that were written, then those of the writer's batch, then the queue, in
this order. A call of `push` that returns true has queued its line or counted it
as dropped, and the drops that were counted have been reported or are still to
be (`delivered`).

`shutdown` clears `active` and sets `stop` in one critical section. So from then
on the queue takes no more lines, and the first batch that the writer takes with
`stop` set is the last one; the drops are read behind that, and when the writer
returns nothing is left of either (`Writer.Finishing`). And it does return: after
`stop` only a bounded number of its steps is left (`joining_writes_le`).
-/
import L4Lb.Logger
import Mathlib.Algebra.BigOperators.Group.List.Basic
import Mathlib.Algebra.Ring.Nat

namespace L4Lb
namespace Logger

/-! ### What is seen in a run -/

/-- The lines that `push` put into the queue, in the order of the queue. -/
def accepted (obs : List Obs) : List String :=
  obs.filterMap fun o => match o with
    | .pushed line .queued => some line
    | _ => none

/-- The lines of batches that were passed to `write_line`. -/
def written (obs : List Obs) : List String :=
  obs.filterMap fun o => match o with
    | .wrote ⟨.line text, _, _⟩ => some text
    | _ => none

/-- The drops that the notices report. -/
def reported (obs : List Obs) : ℕ :=
  (obs.map fun o => match o with
    | .wrote ⟨.notice (.dropped d), _, _⟩ => d
    | _ => 0).sum

/-- The calls of `push` that returned true. -/
def returnedTrue (obs : List Obs) : ℕ :=
  obs.countP fun o => match o with
    | .pushed _ p => p.result
    | .wrote _ => false

@[simp] theorem accepted_append (a b : List Obs) : accepted (a ++ b) = accepted a ++ accepted b :=
  List.filterMap_append

@[simp] theorem written_append (a b : List Obs) : written (a ++ b) = written a ++ written b :=
  List.filterMap_append

@[simp] theorem reported_append (a b : List Obs) : reported (a ++ b) = reported a + reported b := by
  simp [reported]

@[simp] theorem returnedTrue_append (a b : List Obs) :
    returnedTrue (a ++ b) = returnedTrue a + returnedTrue b :=
  List.countP_append

/-- Calls of `write_line` alone. -/
structure Writes (obs : List Obs) (lines : List String) (drops : ℕ) : Prop where
  accepted : accepted obs = []
  returnedTrue : returnedTrue obs = 0
  written : written obs = lines
  reported : reported obs = drops

theorem Writes.nil : Writes [] [] 0 := ⟨rfl, rfl, rfl, rfl⟩

/-- The lines and the drops in an entry. -/
def Entry.lines : Entry → List String
  | line text => [text]
  | notice _ => []

def Entry.drops : Entry → ℕ
  | notice (.dropped d) => d
  | _ => 0

/-- `write_line` writes its entry; what `rotate` adds to it is neither a line nor
a report of drops. -/
theorem writeLine_writes (opts : LogFileOptions) (file : Option ℕ) (e : Entry) (len : ℕ) (rotated : Option ℕ) :
    Writes ((writeLine opts file e len rotated).2.map .wrote) e.lines e.drops := by
  have single : ∀ f b, Writes [.wrote ⟨e, f, b⟩] e.lines e.drops := by
    intro f b
    rcases e with text | n
    · exact ⟨rfl, rfl, rfl, rfl⟩
    · cases n <;> exact ⟨rfl, rfl, rfl, rfl⟩
  rcases file with - | size
  · exact single false true
  unfold writeLine
  simp only
  split
  · rcases rotated with - | size'
    · obtain ⟨ha, ht, hw, hr⟩ := single true opts.alsoStderr
      have hnotice : Writes [.wrote ⟨.notice .cannotOpenAfterRotation, false, true⟩] [] 0 := ⟨rfl, rfl, rfl, rfl⟩
      refine ⟨rfl, rfl, ?_, ?_⟩
      · show written ([_] ++ [_]) = _
        rw [written_append, hw, hnotice.written, List.append_nil]
      · show reported ([_] ++ [_]) = _
        rw [reported_append, hr, hnotice.reported, Nat.add_zero]
    · exact single true _
  · exact single true _

/-! ### The invariant -/

/-- A writer that is to go on. -/
def Writer.Running : Writer → Prop
  | absent => False
  | waiting => True
  | reopen _ stopping | retry _ stopping | drops _ stopping | lines _ stopping | flush stopping => stopping = false

/-- A writer that is to stop: with its last batch it has taken all that was in
the queue, and behind the report no drop is left. -/
def Writer.Finishing (sink : Sink) : Writer → Prop
  | waiting => True
  | reopen _ stopping | retry _ stopping | drops _ stopping => stopping = true → sink.queue = []
  | lines _ stopping | flush stopping => stopping = true → sink.queue = [] ∧ sink.dropUnreported = 0
  | absent => sink.queue = [] ∧ sink.dropUnreported = 0

/-- What `active`, `stop` and the writer are at each point of `open_file` and
`shutdown`. -/
def State.InOrder (s : State) : Prop :=
  match s.control with
  | .closed => s.sink.active = false ∧ s.writer = .absent ∧ s.sink.queue = [] ∧ s.sink.dropUnreported = 0
  | .starting => s.sink.active = false ∧ s.sink.stop = false ∧ s.writer.Running
  | .opened => s.sink.active = true ∧ s.sink.stop = false ∧ s.writer.Running
  | .joining => s.sink.active = false ∧ s.sink.stop = true ∧ s.writer.Finishing s.sink

/-- What holds of a state and of what was seen since the counter of drops was
`d0`. -/
structure Inv (d0 : ℕ) (s : State) (obs : List Obs) : Prop where
  order : s.InOrder
  lines : accepted obs = written obs ++ s.writer.batch ++ s.sink.queue
  trues : returnedTrue obs + d0 = (accepted obs).length + s.sink.dropped
  drops : reported obs + s.sink.dropUnreported + d0 = s.sink.dropped

/-- A state with nothing open and nothing left to do, such as the first one. -/
structure State.Idle (s : State) : Prop where
  control : s.control = .closed
  active : s.sink.active = false
  writer : s.writer = .absent
  queue : s.sink.queue = []
  dropUnreported : s.sink.dropUnreported = 0

theorem State.Idle.inv {s : State} (h : s.Idle) : Inv s.sink.dropped s [] := by
  refine ⟨?_, ?_, ?_, ?_⟩
  · rw [State.InOrder, h.control]
    exact ⟨h.active, h.writer, h.queue, h.dropUnreported⟩
  · rw [h.writer, h.queue]
    rfl
  · simp [returnedTrue, accepted]
  · simp [reported, h.dropUnreported]

variable {d0 : ℕ} {s s' : State} {obs new : List Obs}

/-! ### The steps -/

theorem Sink.push_cases (sink : Sink) (line : String) (isUrgent : Bool) :
    sink.active = false ∧ sink.push line isUrgent = (sink, .refused) ∨
    sink.active = true ∧ sink.push line isUrgent =
      ({ sink with dropped := sink.dropped + 1, dropUnreported := sink.dropUnreported + 1 }, .dropped) ∨
    sink.active = true ∧ sink.push line isUrgent =
      ({ sink with queue := sink.queue ++ [line], urgent := sink.urgent || isUrgent }, .queued) := by
  unfold Sink.push
  cases sink.active with
  | false => exact Or.inl ⟨rfl, rfl⟩
  | true =>
    right
    by_cases hfull : sink.queue.length ≥ sink.cap
    · exact Or.inl ⟨rfl, by simp [hfull]⟩
    · exact Or.inr ⟨rfl, by simp [hfull]⟩

/-- Lines are only taken while the logger is open. -/
theorem State.InOrder.opened (h : s.InOrder) (hact : s.sink.active = true) :
    s.control = .opened ∧ s.sink.stop = false ∧ s.writer.Running := by
  unfold State.InOrder at h
  cases hc : s.control with
  | opened =>
    simp only [hc] at h
    exact ⟨rfl, h.2⟩
  | closed | starting | joining =>
    simp only [hc] at h
    exact absurd hact (by simp [h.1])

theorem State.InOrder.of_opened (hc : s.control = .opened) (hact : s.sink.active = true)
    (h : s.sink.stop = false ∧ s.writer.Running) : s.InOrder := by
  rw [State.InOrder, hc]
  exact ⟨hact, h⟩

/-- The critical section of `push`. -/
theorem push_inv (h : Inv d0 s obs) (line : String) (isUrgent : Bool) (pushing : ℕ → Option (String × Bool)) :
    Inv d0 { s with sink := (s.sink.push line isUrgent).1, pushing := pushing }
      (obs ++ [.pushed line (s.sink.push line isUrgent).2]) := by
  obtain ⟨horder, hlines, htrues, hdrops⟩ := h
  rcases s.sink.push_cases line isUrgent with ⟨hact, he⟩ | ⟨hact, he⟩ | ⟨hact, he⟩ <;> rw [he]
  · refine ⟨horder, ?_, ?_, ?_⟩
    · simpa [accepted, written] using hlines
    · simpa [returnedTrue, accepted, Pushed.result] using htrues
    · simpa [reported] using hdrops
  · obtain ⟨hc, hrest⟩ := horder.opened hact
    refine ⟨.of_opened hc hact hrest, ?_, ?_, ?_⟩
    · simpa [accepted, written] using hlines
    · rw [returnedTrue_append, accepted_append]
      show returnedTrue obs + 1 + d0 = (accepted obs ++ []).length + (s.sink.dropped + 1)
      rw [List.append_nil, ← Nat.add_assoc, ← htrues]
      omega
    · rw [reported_append]
      show reported obs + 0 + (s.sink.dropUnreported + 1) + d0 = s.sink.dropped + 1
      omega
  · obtain ⟨hc, hrest⟩ := horder.opened hact
    refine ⟨.of_opened hc hact hrest, ?_, ?_, ?_⟩
    · rw [accepted_append, written_append, hlines]
      simp [accepted, written]
    · rw [returnedTrue_append, accepted_append, List.length_append]
      show returnedTrue obs + 1 + d0 = (accepted obs).length + 1 + s.sink.dropped
      omega
    · simpa [reported] using hdrops

/-- What a part of the writer's loop does that writes `lines` of the batch and
reports `drops`. -/
structure Part (s s' : State) (lines : List String) (drops : ℕ) : Prop where
  there : s.writer ≠ .absent
  control : s'.control = s.control
  active : s'.sink.active = s.sink.active
  stop : s'.sink.stop = s.sink.stop
  running : s.writer.Running → s.sink.stop = false → s'.writer.Running
  finishing : s.writer.Finishing s.sink → s.sink.stop = true → s'.writer.Finishing s'.sink
  lines : s.writer.batch ++ s.sink.queue = lines ++ s'.writer.batch ++ s'.sink.queue
  dropped : s'.sink.dropped = s.sink.dropped
  drops : s.sink.dropUnreported = drops + s'.sink.dropUnreported

theorem Part.inOrder {lines : List String} {drops : ℕ} (h : Part s s' lines drops) (ho : s.InOrder) : s'.InOrder := by
  unfold State.InOrder at ho ⊢
  rw [h.control, h.active, h.stop]
  cases hc : s.control with
  | closed =>
    simp only [hc] at ho
    exact absurd ho.2.1 h.there
  | starting | opened =>
    simp only [hc] at ho ⊢
    exact ⟨ho.1, ho.2.1, h.running ho.2.2 ho.2.1⟩
  | joining =>
    simp only [hc] at ho ⊢
    exact ⟨ho.1, ho.2.1, h.finishing ho.2.2 ho.2.1⟩

theorem Inv.part {lines : List String} {drops : ℕ} (h : Inv d0 s obs) (hw : Writes new lines drops)
    (hp : Part s s' lines drops) : Inv d0 s' (obs ++ new) := by
  refine ⟨hp.inOrder h.order, ?_, ?_, ?_⟩
  · have hlines := hp.lines
    rw [accepted_append, written_append, hw.accepted, hw.written, h.lines, List.append_nil]
    simp only [List.append_assoc] at hlines ⊢
    rw [hlines]
  · rw [returnedTrue_append, accepted_append, hw.returnedTrue, hw.accepted, List.append_nil, hp.dropped, Nat.add_zero]
    exact h.trues
  · rw [reported_append, hw.reported, hp.dropped, ← h.drops, hp.drops]
    omega

theorem emit_eq {e : Entry} {len : ℕ} {rotated : Option ℕ} {next : Writer}
    (hs : s.emit e len rotated next = (s', new)) :
    ∃ file, s' = { s with sink := { s.sink with file := file }, writer := next } ∧ Writes new e.lines e.drops := by
  obtain ⟨rfl, rfl⟩ := Prod.mk.inj hs
  exact ⟨_, rfl, writeLine_writes _ _ e len rotated⟩

theorem write_part {a : Answer} (hs : s.write a = some (s', new)) :
    ∃ lines drops, Writes new lines drops ∧ Part s s' lines drops := by
  obtain ⟨sink, reopen, pushing, writer, control⟩ := s
  unfold State.write at hs
  cases writer with
  | absent => cases hs
  | waiting =>
    obtain ⟨rfl, rfl⟩ := Prod.mk.inj (Option.some.inj hs)
    refine ⟨[], 0, .nil, by simp, rfl, rfl, rfl, fun _ hstop => hstop, fun _ _ _ => rfl, ?_, rfl, (Nat.zero_add _).symm⟩
    exact (List.append_nil _).symm
  | reopen batch stopping =>
    simp only at hs
    split at hs
    · obtain ⟨file, rfl, hw⟩ := emit_eq (Option.some.inj hs)
      refine ⟨_, _, hw, by simp, rfl, rfl, rfl, fun h _ => h, fun h _ => h, rfl, rfl, ?_⟩
      split <;> exact (Nat.zero_add _).symm
    · obtain ⟨rfl, rfl⟩ := Prod.mk.inj (Option.some.inj hs)
      exact ⟨[], 0, .nil, by simp, rfl, rfl, rfl, fun h _ => h, fun h _ => h, rfl, rfl, (Nat.zero_add _).symm⟩
  | retry batch stopping =>
    simp only at hs
    split at hs
    · obtain ⟨file, rfl, hw⟩ := emit_eq (Option.some.inj hs)
      exact ⟨_, _, hw, by simp, rfl, rfl, rfl, fun h _ => h, fun h _ => h, rfl, rfl, (Nat.zero_add _).symm⟩
    · obtain ⟨rfl, rfl⟩ := Prod.mk.inj (Option.some.inj hs)
      exact ⟨[], 0, .nil, by simp, rfl, rfl, rfl, fun h _ => h, fun h _ => h, rfl, rfl, (Nat.zero_add _).symm⟩
  | drops batch stopping =>
    -- the queue has been empty since the last batch was taken; now no drop is left either
    have hfin : ∀ {file : Option ℕ}, Writer.Finishing sink (.drops batch stopping) → sink.stop = true →
        Writer.Finishing { sink with dropUnreported := 0, file := file } (.lines batch stopping) :=
      fun h _ hstopping => ⟨h hstopping, rfl⟩
    simp only at hs
    split at hs
    · obtain ⟨file, rfl, hw⟩ := emit_eq (Option.some.inj hs)
      exact ⟨_, _, hw, by simp, rfl, rfl, rfl, fun h _ => h, hfin, rfl, rfl, rfl⟩
    · rename_i hd
      obtain ⟨rfl, rfl⟩ := Prod.mk.inj (Option.some.inj hs)
      exact ⟨[], 0, .nil, by simp, rfl, rfl, rfl, fun h _ => h, hfin, rfl, rfl, not_not.mp hd⟩
  | lines rest stopping =>
    cases rest with
    | nil =>
      obtain ⟨rfl, rfl⟩ := Prod.mk.inj (Option.some.inj hs)
      exact ⟨[], 0, .nil, by simp, rfl, rfl, rfl, fun h _ => h, fun h _ => h, rfl, rfl, (Nat.zero_add _).symm⟩
    | cons line rest =>
      obtain ⟨file, rfl, hw⟩ := emit_eq (Option.some.inj hs)
      exact ⟨_, _, hw, by simp, rfl, rfl, rfl, fun h _ => h, fun h _ => h, rfl, rfl, (Nat.zero_add _).symm⟩
  | flush stopping =>
    obtain ⟨rfl, rfl⟩ := Prod.mk.inj (Option.some.inj hs)
    refine ⟨[], 0, .nil, by simp, rfl, rfl, rfl, fun h _ => ?_, fun h _ => ?_, ?_, rfl, (Nat.zero_add _).symm⟩
    · obtain rfl : stopping = false := h
      trivial
    · cases stopping with
      | false => trivial
      | true => exact h rfl
    · cases stopping <;> rfl

/-- A step that neither writes nor calls `push`. -/
theorem Inv.control (h : Inv d0 s obs) (horder : s'.InOrder) (hbatch : s'.writer.batch = s.writer.batch)
    (hqueue : s'.sink.queue = s.sink.queue) (hdropped : s'.sink.dropped = s.sink.dropped)
    (hdrops : s'.sink.dropUnreported = s.sink.dropUnreported) : Inv d0 s' (obs ++ []) := by
  rw [List.append_nil]
  refine ⟨horder, ?_, ?_, ?_⟩
  · rw [hbatch, hqueue]
    exact h.lines
  · rw [hdropped]
    exact h.trues
  · rw [hdropped, hdrops]
    exact h.drops

/-- `open_file` starts from a sink without a writer. -/
theorem openFile_inv (h : Inv d0 s obs) {opts : LogFileOptions} {dirs : Bool} {size : Option ℕ}
    (hs : s.step (.openFile opts dirs size) = some (s', new)) : Inv d0 s' (obs ++ new) := by
  simp only [State.step] at hs
  split at hs
  · cases hs
  rename_i hc
  have horder := h.order
  rw [State.InOrder, not_not.mp hc] at horder
  obtain ⟨hact, hwriter, hqueue, hdrops⟩ := horder
  split at hs
  · obtain ⟨rfl, rfl⟩ := Prod.mk.inj (Option.some.inj hs)
    exact h.control h.order rfl rfl rfl rfl
  split at hs
  · obtain ⟨rfl, rfl⟩ := Prod.mk.inj (Option.some.inj hs)
    refine h.control ?_ rfl rfl rfl rfl
    rw [State.InOrder, not_not.mp hc]
    exact ⟨hact, hwriter, hqueue, hdrops⟩
  · obtain ⟨rfl, rfl⟩ := Prod.mk.inj (Option.some.inj hs)
    refine h.control ⟨hact, rfl, trivial⟩ ?_ rfl rfl rfl
    rw [hwriter]
    rfl

/-- `shutdown` asks for one more batch: what the writer has taken so far is not
its last. -/
theorem stop_inv (h : Inv d0 s obs) (hs : s.step .stop = some (s', new)) : Inv d0 s' (obs ++ new) := by
  simp only [State.step] at hs
  split at hs
  · cases hs
  split at hs
  · obtain ⟨rfl, rfl⟩ := Prod.mk.inj (Option.some.inj hs)
    exact h.control h.order rfl rfl rfl rfl
  rename_i hact
  obtain ⟨rfl, rfl⟩ := Prod.mk.inj (Option.some.inj hs)
  obtain ⟨-, -, hrun⟩ := h.order.opened (by simpa using hact)
  refine h.control ⟨rfl, rfl, ?_⟩ rfl rfl rfl rfl
  show Writer.Finishing _ s.writer
  cases hw : s.writer with
  | absent =>
    rw [hw] at hrun
    exact hrun.elim
  | waiting => trivial
  | reopen _ stopping | retry _ stopping | drops _ stopping | lines _ stopping | flush stopping =>
    rw [hw] at hrun
    intro hstopping
    exact absurd (hstopping.symm.trans hrun) (by simp)

/-- **A step keeps the invariant**, whichever thread takes it. -/
theorem step_inv (h : Inv d0 s obs) {ev : Event} (hs : s.step ev = some (s', new)) : Inv d0 s' (obs ++ new) := by
  cases ev with
  | push t line isUrgent =>
    simp only [State.step] at hs
    split at hs
    · cases hs
    split at hs
    · rename_i hact
      obtain ⟨rfl, rfl⟩ := Prod.mk.inj (Option.some.inj hs)
      have hp : s.sink.push line isUrgent = (s.sink, .refused) := if_pos hact
      have := push_inv h line isUrgent s.pushing
      rwa [hp] at this
    · obtain ⟨rfl, rfl⟩ := Prod.mk.inj (Option.some.inj hs)
      exact h.control h.order rfl rfl rfl rfl
  | lock t =>
    simp only [State.step] at hs
    split at hs
    · cases hs
    · obtain ⟨rfl, rfl⟩ := Prod.mk.inj (Option.some.inj hs)
      exact push_inv h _ _ _
  | write a =>
    obtain ⟨lines, drops, hw, hp⟩ := write_part hs
    exact h.part hw hp
  | openFile opts dirs size => exact openFile_inv h hs
  | activate =>
    simp only [State.step] at hs
    split at hs
    · cases hs
    rename_i hc
    obtain ⟨rfl, rfl⟩ := Prod.mk.inj (Option.some.inj hs)
    have horder := h.order
    rw [State.InOrder, not_not.mp hc] at horder
    exact h.control ⟨rfl, horder.2⟩ rfl rfl rfl rfl
  | stop => exact stop_inv h hs
  | join =>
    simp only [State.step] at hs
    split at hs
    · rename_i hc
      obtain ⟨rfl, rfl⟩ := Prod.mk.inj (Option.some.inj hs)
      have horder := h.order
      rw [State.InOrder, hc.1] at horder
      obtain ⟨hact, -, hfin⟩ := horder
      rw [hc.2] at hfin
      exact h.control ⟨hact, hc.2, hfin⟩ rfl rfl rfl rfl
    · cases hs
  | requestReopen =>
    obtain ⟨rfl, rfl⟩ := Prod.mk.inj (Option.some.inj hs)
    exact h.control h.order rfl rfl rfl rfl

/-! ### The runs -/

theorem run_inv {evs : List Event} (h : Inv d0 s obs) (hr : s.run evs = some (s', new)) : Inv d0 s' (obs ++ new) := by
  induction evs generalizing s obs new with
  | nil =>
    obtain ⟨rfl, rfl⟩ := Prod.mk.inj (Option.some.inj hr)
    rwa [List.append_nil]
  | cons ev evs ih =>
    obtain ⟨⟨s1, obs1⟩, h1, hr⟩ := Option.bind_eq_some_iff.mp hr
    obtain ⟨⟨s2, obs2⟩, h2, hr⟩ := Option.bind_eq_some_iff.mp hr
    obtain ⟨rfl, rfl⟩ := Prod.mk.inj (Option.some.inj hr)
    rw [← List.append_assoc]
    exact ih (step_inv h h1) h2

/-- **Every accepted line is written once, in order, and every drop reported.**
For every run from a state with nothing open, whichever the threads and however
their steps interleave: the lines accepted by `push` are those written, the rest
of the writer's batch and the queue, in this order; the calls that returned true
are the accepted lines and the drops that were counted; those are reported or
still to be; and once `shutdown` has returned nothing is left to be written or
reported. -/
theorem delivered {evs : List Event} (h0 : s.Idle) (hr : s.run evs = some (s', obs)) :
    accepted obs = written obs ++ s'.writer.batch ++ s'.sink.queue ∧
    s.sink.dropped ≤ s'.sink.dropped ∧
    returnedTrue obs = (accepted obs).length + (s'.sink.dropped - s.sink.dropped) ∧
    reported obs + s'.sink.dropUnreported = s'.sink.dropped - s.sink.dropped ∧
    (s'.control = .closed → written obs = accepted obs ∧ reported obs = s'.sink.dropped - s.sink.dropped) := by
  obtain ⟨horder, hlines, htrues, hdrops⟩ := run_inv h0.inv hr
  rw [List.nil_append] at hlines htrues hdrops
  refine ⟨hlines, by omega, by omega, by omega, fun hc => ?_⟩
  rw [State.InOrder, hc] at horder
  obtain ⟨-, hwriter, hqueue, hleft⟩ := horder
  constructor
  · rw [hlines, hwriter, hqueue]
    simp [Writer.batch]
  · omega

/-- One line is accepted, the next one finds the queue full, and the logger is
closed. -/
def demoRun : List Event :=
  [.openFile { maxSize := 0, queueCap := 1 } true (some 0), .activate,
    .push 0 "first" false, .push 1 "second" true, .lock 0, .lock 1, .stop, .push 2 "late" false] ++
    List.replicate 7 (.write {}) ++ [.join]

theorem delivered_demoRun : ∃ s obs, State.run {} demoRun = some (s, obs) ∧ s.control = .closed ∧
    written obs = ["first"] ∧ returnedTrue obs = 2 ∧ reported obs = 1 := by
  obtain ⟨s, obs, hr, hc, hacc, hdropped⟩ : ∃ s obs, State.run {} demoRun = some (s, obs) ∧ s.control = .closed ∧
      accepted obs = ["first"] ∧ s.sink.dropped = 1 := ⟨_, _, rfl, rfl, rfl, rfl⟩
  obtain ⟨-, -, htrues, -, hclosed⟩ := delivered ⟨rfl, rfl, rfl, rfl, rfl⟩ hr
  obtain ⟨hw, hrep⟩ := hclosed hc
  rw [hacc, hdropped] at htrues
  rw [hdropped] at hrep
  exact ⟨s, obs, hr, hc, hw.trans hacc, htrues, hrep⟩

/-! ### `shutdown` returns -/

/-- The steps that the writer takes before it returns, once `stop` is set; `q` is
the length of the queue. -/
def Writer.left (q : ℕ) : Writer → ℕ
  | absent => 0
  | waiting => 6 + q
  | reopen batch stopping => 5 + batch.length + if stopping then 0 else 6 + q
  | retry batch stopping => 4 + batch.length + if stopping then 0 else 6 + q
  | drops batch stopping => 3 + batch.length + if stopping then 0 else 6 + q
  | lines rest stopping => 2 + rest.length + if stopping then 0 else 6 + q
  | flush stopping => 1 + if stopping then 0 else 6 + q

def State.left (s : State) : ℕ := s.writer.left s.sink.queue.length

theorem write_left {a : Answer} (hstop : s.sink.stop = true) (hs : s.write a = some (s', new)) :
    s'.left + 1 = s.left := by
  obtain ⟨sink, reopen, pushing, writer, control⟩ := s
  unfold State.write at hs
  cases writer with
  | absent => cases hs
  | waiting =>
    obtain ⟨rfl, rfl⟩ := Prod.mk.inj (Option.some.inj hs)
    simp only [State.left, Writer.left, show sink.stop = true from hstop, ↓reduceIte]
    omega
  | reopen batch stopping | retry batch stopping | drops batch stopping =>
    simp only at hs
    split at hs
    · obtain ⟨file, rfl, -⟩ := emit_eq (Option.some.inj hs)
      simp only [State.left, Writer.left]
      omega
    · obtain ⟨rfl, rfl⟩ := Prod.mk.inj (Option.some.inj hs)
      simp only [State.left, Writer.left]
      omega
  | lines rest stopping =>
    cases rest with
    | nil =>
      obtain ⟨rfl, rfl⟩ := Prod.mk.inj (Option.some.inj hs)
      simp only [State.left, Writer.left, List.length_nil]
      omega
    | cons line rest =>
      obtain ⟨file, rfl, -⟩ := emit_eq (Option.some.inj hs)
      simp only [State.left, Writer.left, List.length_cons]
      omega
  | flush stopping =>
    obtain ⟨rfl, rfl⟩ := Prod.mk.inj (Option.some.inj hs)
    cases stopping with
    | false =>
      simp only [State.left, Writer.left, Bool.false_eq_true, ↓reduceIte]
      omega
    | true => rfl

def Event.isWrite : Event → Bool
  | write _ => true
  | _ => false

/-- While `shutdown` waits, each step of the writer brings its end nearer, and no
other step puts it off. -/
theorem joining_step (h : Inv d0 s obs) (hc : s.control = .joining) {ev : Event} (hev : ev ≠ .join)
    (hs : s.step ev = some (s', new)) :
    s'.control = .joining ∧ s'.left + (if ev.isWrite then 1 else 0) = s.left := by
  have horder := h.order
  rw [State.InOrder, hc] at horder
  obtain ⟨hact, hstop, -⟩ := horder
  cases ev with
  | push t line isUrgent =>
    simp only [State.step, hact, Bool.not_false, ↓reduceIte] at hs
    split at hs
    · cases hs
    · obtain ⟨rfl, rfl⟩ := Prod.mk.inj (Option.some.inj hs)
      exact ⟨hc, rfl⟩
  | lock t =>
    simp only [State.step, Sink.push, hact, Bool.not_false, ↓reduceIte] at hs
    split at hs
    · cases hs
    · obtain ⟨rfl, rfl⟩ := Prod.mk.inj (Option.some.inj hs)
      exact ⟨hc, rfl⟩
  | write a =>
    obtain ⟨lines, drops, -, hp⟩ := write_part hs
    exact ⟨hp.control.trans hc, write_left hstop hs⟩
  | openFile opts dirs size => simp [State.step, hc] at hs
  | activate => simp [State.step, hc] at hs
  | stop => simp [State.step, hc] at hs
  | join => exact absurd rfl hev
  | requestReopen =>
    obtain ⟨rfl, rfl⟩ := Prod.mk.inj (Option.some.inj hs)
    exact ⟨hc, rfl⟩

/-- While `shutdown` waits, the writer takes at most `s.left` steps, and it can take one,
or has returned and lets `shutdown` go on. -/
theorem joining_writes_le {evs : List Event} (h : Inv d0 s obs) (hc : s.control = .joining) (hj : .join ∉ evs)
    (hr : s.run evs = some (s', new)) :
    evs.countP Event.isWrite ≤ s.left ∧ ((s'.step .join).isSome ∨ ∀ a, (s'.step (.write a)).isSome) := by
  induction evs generalizing s obs new with
  | nil =>
    obtain ⟨rfl, rfl⟩ := Prod.mk.inj (Option.some.inj hr)
    refine ⟨Nat.zero_le _, ?_⟩
    cases hw : s.writer with
    | absent => exact Or.inl (by simp [State.step, hc, hw])
    | lines rest stopping => exact Or.inr fun a => by cases rest <;> simp [State.step, State.write, hw]
    | waiting | flush stopping => exact Or.inr fun a => by simp [State.step, State.write, hw]
    | reopen batch stopping | retry batch stopping | drops batch stopping =>
      refine Or.inr fun a => ?_
      simp only [State.step, State.write, hw]
      split <;> rfl
  | cons ev evs ih =>
    obtain ⟨⟨s1, obs1⟩, h1, hr⟩ := Option.bind_eq_some_iff.mp hr
    obtain ⟨⟨s2, obs2⟩, h2, hr⟩ := Option.bind_eq_some_iff.mp hr
    obtain ⟨rfl, rfl⟩ := Prod.mk.inj (Option.some.inj hr)
    have hev : ev ≠ .join := fun he => hj (he ▸ List.mem_cons_self)
    obtain ⟨hc1, hleft⟩ := joining_step h hc hev h1
    obtain ⟨hcount, hnext⟩ := ih (step_inv h h1) hc1 (fun hm => hj (List.mem_cons_of_mem _ hm)) h2
    refine ⟨?_, hnext⟩
    rw [List.countP_cons]
    omega

/-- **`shutdown` returns.** In every run, once it waits for the writer and until it goes
on, the writer takes at most `s.left` steps, whatever the other threads do in between; and
in each of these states the writer can take a step, or has returned and lets `shutdown` go
on. -/
theorem shutdown_returns {s0 : State} {evs0 evs : List Event} (h0 : s0.Idle) (hr0 : s0.run evs0 = some (s, obs))
    (hc : s.control = .joining) (hj : .join ∉ evs) (hr : s.run evs = some (s', new)) :
    evs.countP Event.isWrite ≤ s.left ∧ ((s'.step .join).isSome ∨ ∀ a, (s'.step (.write a)).isSome) :=
  joining_writes_le (run_inv h0.inv hr0) hc hj hr

theorem shutdown_returns_demoRun : ∃ s s' obs new, State.run {} (demoRun.take 8) = some (s, obs) ∧
    s.run (List.replicate 7 (.write {})) = some (s', new) ∧ 7 ≤ s.left ∧
      ((s'.step .join).isSome ∨ ∀ a, (s'.step (.write a)).isSome) := by
  obtain ⟨s, s', obs, new, h1, hc, h2⟩ : ∃ s s' obs new, State.run {} (demoRun.take 8) = some (s, obs) ∧
      s.control = .joining ∧ s.run (List.replicate 7 (.write {})) = some (s', new) :=
    ⟨_, _, _, _, rfl, rfl, rfl⟩
  exact ⟨s, s', obs, new, h1, h2, shutdown_returns ⟨rfl, rfl, rfl, rfl, rfl⟩ h1 hc (by simp) h2⟩

end Logger
end L4Lb
