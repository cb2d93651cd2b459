/-
# The control socket

`ControlServer::run` in `src/ctrl/control.cpp` takes one connection at a time from a
Unix socket, reads a line of it, carries it out and writes the reply, and
`scripts/l4lbctl.py` is the other side (`request`). The bytes of a connection pass
the socket in pieces of any size, any number of clients come and go while the server
is busy, and between two connections it drains the reports of the health checker. A
`Char` stands for one byte.

The invariant says that no byte is lost, that the server is with one client at a
time, and that what it has carried out is what the control thread alone could have
carried out, line by line (`ControlSocket.Inv`).

A client that is interrupted before its reply has been written is not harmless:
`SIGPIPE` has its default action, so the `write` ends the whole program
(`ServerPc.killed`).
-/
import L4Lb.HealthCheck.Loop
import L4Lb.Lib.Calls

open Checked

namespace L4Lb

/-! ### The two sides -/

/-- The condition of the read loop: `line.find('\n') == npos && line.size() < 1024`. -/
def wantsMore (line : List Char) : Bool := !line.contains '\n' && decide (line.length < 1024)

/-- `line.substr(0, line.find('\n'))`. -/
def firstLine (line : List Char) : List Char := line.takeWhile (· ≠ '\n')

/-- A call of `request`, with its connection. -/
structure Client where
  command : List Char
  /-- what `sendall` has left -/
  unsent : List Char
  /-- in the socket, on the way to the server -/
  toServer : List Char := []
  /-- in the socket, on the way back -/
  toClient : List Char := []
  out : List Char := []
  /-- interrupted: it has closed its end early -/
  gone : Bool := false
  /-- the server has closed its end -/
  closed : Bool := false
  /-- a `write` of the reply failed -/
  cut : Bool := false
  /-- what the server has read -/
  taken : List Char := []
  /-- what the server has written -/
  sent : List Char := []
  span : Calls.Span

inductive ClientAct
  | send (n : ℕ)
  | recv (n : ℕ)
  | hangUp

namespace Client

/-- `request` when it connects. -/
def start (command : List Char) (now : ℕ) : Client where
  command := command
  unsent := command ++ ['\n']
  span := { since := now }

/-- A step of the client. It receives only when everything is sent. -/
def act (cl : Client) : ClientAct → Client
  | .send n =>
    if cl.gone ∨ cl.closed then cl
    else { cl with unsent := cl.unsent.drop n, toServer := cl.toServer ++ cl.unsent.take n }
  | .recv n =>
    if cl.gone ∨ cl.unsent ≠ [] then cl
    else { cl with toClient := cl.toClient.drop n, out := cl.out ++ cl.toClient.take n }
  | .hangUp => { cl with gone := true }

/-- `recv` gives nothing: the loop of `request` ends. -/
def atEnd (cl : Client) : Bool :=
  !cl.gone && cl.unsent.isEmpty && cl.closed && cl.toClient.isEmpty && cl.span.till.isNone

end Client

/-- Where the control thread is in `run`. -/
inductive ServerPc
  /-- before `stop_` is looked at -/
  | top
  /-- before `poll` and `accept4` -/
  | polling
  | reading (c : ℕ) (line : List Char)
  /-- with what is left of the reply -/
  | writing (c : ℕ) (rest : List Char)
  | exited
  /-- by `SIGPIPE` -/
  | killed
  deriving DecidableEq

/-- A command that was carried out. -/
structure Served where
  client : ℕ
  line : List Char
  reply : String
  /-- the loop ended because `poll` or `read` had nothing to give -/
  gaveUp : Bool

/-- The control thread and its clients, with what it has carried out so far. -/
structure ControlSocket where
  loop : HealthLoop
  stop : Bool := false
  pc : ServerPc := .top
  backlog : List ℕ := []
  clients : ℕ → Option Client := fun _ => none
  served : List Served := []

inductive SocketEvent
  /-- a client connects -/
  | connect (c : ℕ) (command : List Char)
  | client (c : ℕ) (act : ClientAct)
  /-- `request` returns -/
  | finish (c : ℕ)
  /-- the health checker of the master -/
  | master (ev : LoopEvent)
  /-- the main thread sets `stop_` -/
  | stop
  /-- the top of the loop, when that many reports are seen in the ring -/
  | top (seen : ℕ)
  /-- `poll` or `accept4` has no connection -/
  | noConnection
  | accept
  | read (n : ℕ)
  /-- the read loop ends, early if `gaveUp`, and the line is carried out -/
  | execute (gaveUp : Bool)
  | write (n : ℕ)
  /-- the write loop ends, early if `failed`, and the connection is closed -/
  | close (failed : Bool)

namespace ControlSocket

variable (H : HashFns) (reports : Control → Report → String) (cfg : LbConfig)

def boot : Except Fault ControlSocket := do return { loop := ← HealthLoop.boot H cfg }

def setClient (s : ControlSocket) (c : ℕ) (cl : Client) : ControlSocket :=
  { s with clients := Function.update s.clients c (some cl) }

/-- `read`: at most the size of the buffer. -/
def read (s : ControlSocket) (c : ℕ) (line : List Char) (cl : Client) (n : ℕ) : ControlSocket :=
  { s.setClient c
      { cl with
        toServer := cl.toServer.drop (min n 256), taken := cl.taken ++ cl.toServer.take (min n 256) } with
    pc := .reading c (line ++ cl.toServer.take (min n 256)) }

/-- `execute(line.substr(0, line.find('\n')))`. -/
def execute (s : ControlSocket) (c : ℕ) (line : List Char) (gaveUp : Bool) : Except Fault ControlSocket := do
  let (reply, ctl) ← s.loop.ctl.execute H reports (firstLine line)
  return { s with
    loop := { s.loop with ctl := ctl }, pc := .writing c reply.toList,
    served := s.served ++ [⟨c, firstLine line, reply, gaveUp⟩] }

def write (s : ControlSocket) (c : ℕ) (rest : List Char) (cl : Client) (n : ℕ) : ControlSocket :=
  if cl.gone then { s with pc := .killed }
  else
    { s.setClient c { cl with toClient := cl.toClient ++ rest.take n, sent := cl.sent ++ rest.take n } with
      pc := .writing c (rest.drop n) }

def close (s : ControlSocket) (c : ℕ) (rest : List Char) (cl : Client) : ControlSocket :=
  { s.setClient c { cl with closed := true, cut := !rest.isEmpty } with pc := .top }

/-- One step. An event that cannot happen changes nothing. -/
def step (s : ControlSocket) : SocketEvent → Except Fault ControlSocket
  | .connect c command =>
    if s.clients c = none ∧ s.pc ≠ .exited ∧ s.pc ≠ .killed then
      .ok { s.setClient c (.start command s.served.length) with backlog := s.backlog ++ [c] }
    else .ok s
  | .client c act =>
    match s.clients c with
    | none => .ok s
    | some cl => .ok (s.setClient c (cl.act act))
  | .finish c =>
    match s.clients c with
    | none => .ok s
    | some cl =>
      if cl.atEnd then .ok (s.setClient c { cl with span := { cl.span with till := some s.served.length } }) else .ok s
  | .master ev =>
    if ev.ofControl ∨ s.pc = .killed then .ok s else do return { s with loop := ← s.loop.step H reports ev }
  | .stop => .ok { s with stop := true }
  | .top seen =>
    match s.pc with
    | .top =>
      if s.stop then .ok { s with pc := .exited }
      else do return { s with loop := ← s.loop.step H reports (.drain seen), pc := .polling }
    | _ => .ok s
  | .noConnection =>
    match s.pc with
    | .polling => .ok { s with pc := .top }
    | _ => .ok s
  | .accept =>
    match s.pc, s.backlog with
    | .polling, c :: rest => .ok { s with pc := .reading c [], backlog := rest }
    | _, _ => .ok s
  | .read n =>
    match s.pc with
    | .reading c line =>
      match s.clients c with
      | none => .ok s
      | some cl => if wantsMore line then .ok (s.read c line cl n) else .ok s
    | _ => .ok s
  | .execute gaveUp =>
    match s.pc with
    | .reading c line => if wantsMore line ∧ gaveUp = false then .ok s else s.execute H reports c line gaveUp
    | _ => .ok s
  | .write n =>
    match s.pc with
    | .writing c rest =>
      match s.clients c with
      | none => .ok s
      | some cl => if rest = [] then .ok s else .ok (s.write c rest cl n)
    | _ => .ok s
  | .close failed =>
    match s.pc with
    | .writing c rest =>
      match s.clients c with
      | none => .ok s
      | some cl => if rest ≠ [] ∧ failed = false then .ok s else .ok (s.close c rest cl)
    | _ => .ok s

def run (s : ControlSocket) (evs : List SocketEvent) : Except Fault ControlSocket := evs.foldlM (step H reports) s

def Valid (s : ControlSocket) : SocketEvent → Prop
  | .master ev => s.loop.Valid ev
  | _ => True

inductive Reach : ControlSocket → Prop
  | boot {s : ControlSocket} (h : boot H cfg = .ok s) : Reach s
  | step {s s' : ControlSocket} (ev : SocketEvent) (h : Reach s) (hv : s.Valid ev) (hs : s.step H reports ev = .ok s') :
      Reach s'

/-! ### What holds in every state -/

/-- The commands in the order in which they were carried out, by client. -/
def order (s : ControlSocket) : List ℕ := s.served.map Served.client

def spans (s : ControlSocket) (c : ℕ) : Option Calls.Span := (s.clients c).map Client.span

/-- The lines and their replies. -/
def transcript (s : ControlSocket) : List (List Char × String) := s.served.map fun e => (e.line, e.reply)

/-- A step of the control thread alone, with the lines that it has carried out. -/
def record (x : HealthLoop × List (List Char × String)) :
    LoopEvent → Except Fault (HealthLoop × List (List Char × String))
  | .line text => do
    let (reply, ctl) ← x.1.ctl.execute H reports text
    return ({ x.1 with ctl := ctl }, x.2 ++ [(text, reply)])
  | ev => do return (← x.1.step H reports ev, x.2)

/-- Commands that are carried out one after the other lead to this state, with
these replies. -/
def Sequential (s : ControlSocket) : Prop :=
  ∃ (L : HealthLoop) (evs : List LoopEvent), HealthLoop.boot H cfg = .ok L ∧
    evs.foldlM (record H reports) (L, []) = .ok (s.loop, s.transcript)

end ControlSocket

/-- No byte of the connection is lost or changed. -/
structure Client.Ok (cl : Client) : Prop where
  request : cl.taken ++ (cl.toServer ++ cl.unsent) = cl.command ++ ['\n']
  reply : cl.out ++ cl.toClient = cl.sent
  length : cl.taken.length < 1024 + 256
  returned : ∀ t, cl.span.till = some t → cl.closed = true ∧ cl.toClient = []

/-- What was carried out for the client. -/
structure Served.For (e : Served) (cl : Client) : Prop where
  line : e.line = firstLine cl.taken
  whole : e.gaveUp = false → wantsMore cl.taken = false
  sent : cl.sent <+: e.reply.toList
  all : cl.closed = true → cl.cut = false → cl.sent = e.reply.toList

/-- A step of the client that the server does not see. -/
structure Client.Keeps (cl cl' : Client) : Prop where
  taken : cl'.taken = cl.taken
  sent : cl'.sent = cl.sent
  closed : cl'.closed = cl.closed
  cut : cl'.cut = cl.cut
  span : cl'.span = cl.span
  gone : cl.gone = true → cl'.gone = true

section Steps

variable {cl cl' : Client}

theorem Served.For.keeps {e : Served} (h : e.For cl) (hk : cl.Keeps cl') : e.For cl' :=
  ⟨hk.taken ▸ h.line, hk.taken ▸ h.whole, hk.sent ▸ h.sent, by rw [hk.closed, hk.cut, hk.sent]; exact h.all⟩

theorem Client.keeps_act (cl : Client) (act : ClientAct) : cl.Keeps (cl.act act) := by
  unfold Client.act
  split
  · split <;> exact ⟨rfl, rfl, rfl, rfl, rfl, id⟩
  · split <;> exact ⟨rfl, rfl, rfl, rfl, rfl, id⟩
  · exact ⟨rfl, rfl, rfl, rfl, rfl, fun _ => rfl⟩

theorem Client.Ok.act (h : cl.Ok) (act : ClientAct) : (cl.act act).Ok := by
  unfold Client.act
  split
  · split
    · exact h
    · refine ⟨?_, h.reply, h.length, h.returned⟩
      show cl.taken ++ (cl.toServer ++ cl.unsent.take _ ++ cl.unsent.drop _) = _
      rw [List.append_assoc, List.take_append_drop]
      exact h.request
  · split
    · exact h
    · refine ⟨h.request, ?_, h.length, fun t ht => ⟨(h.returned t ht).1, ?_⟩⟩
      · show cl.out ++ cl.toClient.take _ ++ cl.toClient.drop _ = _
        rw [List.append_assoc, List.take_append_drop]
        exact h.reply
      · show cl.toClient.drop _ = []
        rw [(h.returned t ht).2, List.drop_nil]
  · exact ⟨h.request, h.reply, h.length, h.returned⟩

theorem Client.Ok.start (command : List Char) (now : ℕ) : (Client.start command now).Ok :=
  ⟨rfl, rfl, by simp [Client.start], fun t ht => (nomatch ht)⟩

end Steps

namespace ControlSocket

variable (H : HashFns) (reports : Control → Report → String) (cfg : LbConfig)

/-- The server is with one client, which is no longer waiting. -/
structure AtWork (s : ControlSocket) : Prop where
  reading : ∀ c line, s.pc = .reading c line →
    c ∉ s.order ∧ c ∉ s.backlog ∧ ∃ cl, s.clients c = some cl ∧ cl.taken = line
  writing : ∀ c rest, s.pc = .writing c rest → ∃ cl, s.clients c = some cl ∧ cl.closed = false ∧
    ∃ e ∈ s.served, e.client = c ∧ cl.sent ++ rest = e.reply.toList
  killed : s.pc = .killed → ∃ c cl, s.clients c = some cl ∧ cl.gone = true

structure Inv (s : ControlSocket) : Prop where
  sequential : s.Sequential H reports cfg
  reach : HealthLoop.Reach H reports cfg s.loop
  timed : Calls.WellTimed s.spans s.order
  ok : ∀ c cl, s.clients c = some cl → cl.Ok
  nodup : s.backlog.Nodup
  waiting : ∀ c ∈ s.backlog, c ∉ s.order ∧ ∃ cl, s.clients c = some cl ∧ cl.taken = []
  unserved : ∀ c cl, s.clients c = some cl → c ∉ s.order → cl.sent = [] ∧ cl.closed = false
  served : ∀ e ∈ s.served, ∃ cl, s.clients e.client = some cl ∧ e.For cl
  atWork : s.AtWork

variable {H reports cfg} {s s' : ControlSocket} {c : ℕ} {cl cl' : Client}

/-! ### Steps of one client -/

theorem setClient_eq_some {j : ℕ} {x : Client} (h : (s.setClient c cl').clients j = some x) :
    j = c ∧ x = cl' ∨ j ≠ c ∧ s.clients j = some x := by
  have h : Function.update s.clients c (some cl') j = some x := h
  by_cases hj : j = c
  · subst hj
    rw [Function.update_self] at h
    exact .inl ⟨rfl, (Option.some.inj h).symm⟩
  · rw [Function.update_of_ne hj] at h
    exact .inr ⟨hj, h⟩

@[simp] theorem setClient_self : (s.setClient c cl').clients c = some cl' := Function.update_self ..

theorem setClient_of_ne {j : ℕ} (h : j ≠ c) : (s.setClient c cl').clients j = s.clients j := Function.update_of_ne h ..

theorem spans_setClient : (s.setClient c cl').spans = Function.update s.spans c (some cl'.span) := by
  funext j
  by_cases hj : j = c
  · subst hj
    rw [Function.update_self, spans, setClient_self]
    rfl
  · rw [Function.update_of_ne hj, spans, setClient_of_ne hj]
    rfl

theorem spans_of_some (hc : s.clients c = some cl) : s.spans c = some cl.span := by
  rw [spans, hc]
  rfl

theorem spans_setClient_same (hc : s.clients c = some cl) (h : cl'.span = cl.span) :
    (s.setClient c cl').spans = s.spans := by
  rw [spans_setClient, h, ← spans_of_some hc, Function.update_eq_self]

theorem Inv.timed_setClient (h : Inv H reports cfg s) (hc : s.clients c = some cl) (hspan : cl'.span = cl.span) :
    Calls.WellTimed (s.setClient c cl').spans s.order := by
  rw [spans_setClient_same hc hspan]
  exact h.timed

/-- One connection changes, and the place of the server with it. -/
theorem Inv.update (h : Inv H reports cfg s) (pc : ServerPc) (hok : cl'.Ok)
    (htimed : Calls.WellTimed (s.setClient c cl').spans s.order) (hwait : c ∈ s.backlog → cl'.taken = [])
    (hunserved : c ∉ s.order → cl'.sent = [] ∧ cl'.closed = false) (hserved : ∀ e ∈ s.served, e.client = c → e.For cl')
    (hwork : AtWork { s.setClient c cl' with pc := pc }) :
    Inv H reports cfg { s.setClient c cl' with pc := pc } := by
  refine ⟨h.sequential, h.reach, htimed, fun j x hj => ?_, h.nodup, fun j hj => ?_, fun j x hj hout => ?_,
    fun e he => ?_, hwork⟩
  · rcases setClient_eq_some hj with ⟨rfl, rfl⟩ | ⟨-, hj⟩
    · exact hok
    · exact h.ok j x hj
  · obtain ⟨hout, x, hx, htaken⟩ := h.waiting j hj
    refine ⟨hout, ?_⟩
    by_cases hjc : j = c
    · subst hjc
      exact ⟨cl', setClient_self, hwait hj⟩
    · exact ⟨x, (setClient_of_ne hjc).trans hx, htaken⟩
  · rcases setClient_eq_some hj with ⟨rfl, rfl⟩ | ⟨-, hj⟩
    · exact hunserved hout
    · exact h.unserved j x hj hout
  · by_cases hec : e.client = c
    · exact ⟨cl', by rw [hec]; exact setClient_self, hserved e he hec⟩
    · obtain ⟨x, hx, hfor⟩ := h.served e he
      exact ⟨x, (setClient_of_ne hec).trans hx, hfor⟩

/-- What the server knows of the client stays. -/
theorem Inv.for_of_mem (h : Inv H reports cfg s) (hc : s.clients c = some cl) {e : Served} (he : e ∈ s.served)
    (hec : e.client = c) : e.For cl := by
  obtain ⟨x, hx, hfor⟩ := h.served e he
  rw [hec] at hx
  obtain rfl := Option.some.inj (hc.symm.trans hx)
  exact hfor

theorem AtWork.keeps (h : s.AtWork) (hc : s.clients c = some cl) (hk : cl.Keeps cl') : (s.setClient c cl').AtWork := by
  -- a client that the server knows of is one it still knows the same of
  have hkept : ∀ j x, s.clients j = some x → ∃ y, (s.setClient c cl').clients j = some y ∧ x.Keeps y := by
    intro j x hj
    by_cases hjc : j = c
    · subst hjc
      obtain rfl := Option.some.inj (hc.symm.trans hj)
      exact ⟨cl', setClient_self, hk⟩
    · exact ⟨x, (setClient_of_ne hjc).trans hj, rfl, rfl, rfl, rfl, rfl, id⟩
  refine ⟨fun j line hpc => ?_, fun j rest hpc => ?_, fun hpc => ?_⟩
  · obtain ⟨hout, hback, x, hx, htaken⟩ := h.reading j line hpc
    obtain ⟨y, hy, hxy⟩ := hkept j x hx
    exact ⟨hout, hback, y, hy, hxy.taken.trans htaken⟩
  · obtain ⟨x, hx, hclosed, e, he, hec, hsent⟩ := h.writing j rest hpc
    obtain ⟨y, hy, hxy⟩ := hkept j x hx
    exact ⟨y, hy, hxy.closed.trans hclosed, e, he, hec, by rw [hxy.sent]; exact hsent⟩
  · obtain ⟨j, x, hx, hgone⟩ := h.killed hpc
    obtain ⟨y, hy, hxy⟩ := hkept j x hx
    exact ⟨j, y, hy, hxy.gone hgone⟩

/-- Between two connections there is nothing to say. -/
theorem AtWork.idle (h1 : ∀ c line, s.pc ≠ .reading c line) (h2 : ∀ c rest, s.pc ≠ .writing c rest)
    (h3 : s.pc ≠ .killed) : s.AtWork :=
  ⟨fun c line h => absurd h (h1 c line), fun c rest h => absurd h (h2 c rest), fun h => absurd h h3⟩

theorem Inv.boot (h : boot H cfg = .ok s) : Inv H reports cfg s := by
  obtain ⟨L, hL, h⟩ := bind_eq_ok.mp h
  obtain rfl := Except.ok.inj h
  exact ⟨⟨L, [], hL, rfl⟩, .boot hL, .nil, fun c cl hc => (nomatch hc), List.nodup_nil,
    fun c hc => absurd hc List.not_mem_nil, fun c cl hc => (nomatch hc), fun e he => absurd he List.not_mem_nil,
    .idle (by simp) (by simp) (by simp)⟩

theorem Inv.client (h : Inv H reports cfg s) (hc : s.clients c = some cl) (act : ClientAct) :
    Inv H reports cfg (s.setClient c (cl.act act)) := by
  have hk := Client.keeps_act cl act
  refine h.update s.pc ((h.ok c cl hc).act act) (h.timed_setClient hc hk.span) (fun hw => ?_)
    (fun hout => ?_) (fun e he hec => ?_) (h.atWork.keeps hc hk)
  · obtain ⟨-, x, hx, htaken⟩ := h.waiting c hw
    obtain rfl := Option.some.inj (hc.symm.trans hx)
    exact hk.taken.trans htaken
  · rw [hk.sent, hk.closed]
    exact h.unserved c cl hc hout
  · exact (h.for_of_mem hc he hec).keeps hk

theorem mem_order {e : Served} (he : e ∈ s.served) : e.client ∈ s.order := List.mem_map_of_mem he

theorem Inv.served_unique (h : Inv H reports cfg s) {e e' : Served} (he : e ∈ s.served) (he' : e' ∈ s.served)
    (heq : e.client = e'.client) : e = e' := List.inj_on_of_nodup_map h.timed.nodup he he' heq

theorem Inv.known (h : Inv H reports cfg s) (hc : c ∈ s.order) : ∃ cl, s.clients c = some cl := by
  obtain ⟨e, he, rfl⟩ := List.mem_map.mp hc
  obtain ⟨cl, hcl, -⟩ := h.served e he
  exact ⟨cl, hcl⟩

theorem Inv.connect (h : Inv H reports cfg s) (hc : s.clients c = none) (command : List Char) :
    Inv H reports cfg
      { s.setClient c (.start command s.served.length) with backlog := s.backlog ++ [c] } := by
  -- nobody has heard of the client
  have hne : ∀ j x, s.clients j = some x → j ≠ c := fun j x hj e => Option.some_ne_none x (hj.symm.trans (e ▸ hc))
  have hout : c ∉ s.order := by
    intro hin
    obtain ⟨cl, hcl⟩ := h.known hin
    exact hne c cl hcl rfl
  have hback : c ∉ s.backlog := by
    intro hin
    obtain ⟨-, cl, hcl, -⟩ := h.waiting c hin
    exact hne c cl hcl rfl
  have hnone : s.spans c = none := by rw [spans, hc]; rfl
  have hlen : s.served.length = s.order.length := (List.length_map ..).symm
  have hI : Inv H reports cfg { s.setClient c (.start command s.served.length) with pc := s.pc } := by
    refine h.update s.pc (.start command _) ?_ (fun hw => absurd hw hback) (fun _ => ⟨rfl, rfl⟩)
      (fun e he hec => absurd (hec ▸ mem_order he) hout) ⟨fun j line hpc => ?_, fun j rest hpc => ?_, fun hpc => ?_⟩
    · rw [spans_setClient, hlen]
      exact h.timed.invoke hnone
    · obtain ⟨hj, hjb, x, hx, htaken⟩ := h.atWork.reading j line hpc
      exact ⟨hj, hjb, x, (setClient_of_ne (hne j x hx)).trans hx, htaken⟩
    · obtain ⟨x, hx, hrest⟩ := h.atWork.writing j rest hpc
      exact ⟨x, (setClient_of_ne (hne j x hx)).trans hx, hrest⟩
    · obtain ⟨j, x, hx, hgone⟩ := h.atWork.killed hpc
      exact ⟨j, x, (setClient_of_ne (hne j x hx)).trans hx, hgone⟩
  refine ⟨hI.sequential, hI.reach, hI.timed, hI.ok, h.nodup.append (List.nodup_singleton c) ?_, fun j hj => ?_,
    hI.unserved, hI.served, ⟨fun j line hpc => ?_, hI.atWork.writing, hI.atWork.killed⟩⟩
  · rw [List.disjoint_singleton]
    exact hback
  · rcases List.mem_append.mp hj with hj | hj
    · exact hI.waiting j hj
    · rw [List.mem_singleton.mp hj]
      exact ⟨hout, _, setClient_self, rfl⟩
  · obtain ⟨hj, hjb, hread⟩ := hI.atWork.reading j line hpc
    obtain ⟨-, -, x, hx, -⟩ := h.atWork.reading j line hpc
    refine ⟨hj, fun hmem => ?_, hread⟩
    rcases List.mem_append.mp hmem with hmem | hmem
    · exact hjb hmem
    · exact hne j x hx (List.mem_singleton.mp hmem)

theorem Inv.finish (h : Inv H reports cfg s) (hc : s.clients c = some cl) (hend : cl.atEnd = true) :
    Inv H reports cfg (s.setClient c { cl with span := { cl.span with till := some s.served.length } }) := by
  simp only [Client.atEnd, Bool.and_eq_true, List.isEmpty_iff] at hend
  obtain ⟨⟨⟨-, hclosed⟩, hempty⟩, -⟩ := hend
  have hok := h.ok c cl hc
  have hin : c ∈ s.order := by
    by_contra hout
    exact Bool.false_ne_true ((h.unserved c cl hc hout).2.symm.trans hclosed)
  refine h.update s.pc ⟨hok.request, hok.reply, hok.length, fun t _ => ⟨hclosed, hempty⟩⟩ ?_
    (fun hw => absurd hin (h.waiting c hw).1) (fun hout => absurd hin hout) (fun e he hec => ?_)
    ⟨fun j line hpc => ?_, fun j rest hpc => ?_, fun hpc => ?_⟩
  · rw [spans_setClient, show s.served.length = s.order.length from (List.length_map ..).symm]
    exact h.timed.respond (spans_of_some hc) hin
  · have hfor := h.for_of_mem hc he hec
    exact ⟨hfor.line, hfor.whole, hfor.sent, hfor.all⟩
  · obtain ⟨hj, hjb, x, hx, htaken⟩ := h.atWork.reading j line hpc
    exact ⟨hj, hjb, x, (setClient_of_ne fun e => hj (by rw [e]; exact hin)).trans hx, htaken⟩
  · obtain ⟨x, hx, hopen, hrest⟩ := h.atWork.writing j rest hpc
    have hjc : j ≠ c := by
      rintro rfl
      obtain rfl := Option.some.inj (hc.symm.trans hx)
      exact Bool.false_ne_true (hopen.symm.trans hclosed)
    exact ⟨x, (setClient_of_ne hjc).trans hx, hopen, hrest⟩
  · obtain ⟨j, x, hx, hgone⟩ := h.atWork.killed hpc
    by_cases hjc : j = c
    · subst hjc
      obtain rfl := Option.some.inj (hc.symm.trans hx)
      exact ⟨j, _, setClient_self, hgone⟩
    · exact ⟨j, x, (setClient_of_ne hjc).trans hx, hgone⟩

/-! ### Steps of the server -/

theorem Sequential.step (h : s.Sequential H reports cfg) (ev : LoopEvent)
    (hr : record H reports (s.loop, s.transcript) ev = .ok (s'.loop, s'.transcript)) : s'.Sequential H reports cfg := by
  obtain ⟨L, evs, hboot, hrun⟩ := h
  refine ⟨L, evs ++ [ev], hboot, ?_⟩
  rw [List.foldlM_append, hrun]
  show (record H reports (s.loop, s.transcript) ev >>= fun x => .ok x) = _
  rw [hr]
  rfl

theorem Inv.setPc (h : Inv H reports cfg s) {pc : ServerPc} (hwork : AtWork { s with pc := pc }) :
    Inv H reports cfg { s with pc := pc } :=
  ⟨h.sequential, h.reach, h.timed, h.ok, h.nodup, h.waiting, h.unserved, h.served, hwork⟩

/-- The health checker, or `drain_health`. -/
theorem Inv.setLoop (h : Inv H reports cfg s) (ev : LoopEvent) (hline : ∀ text, ev ≠ .line text)
    (hv : s.loop.Valid ev) {L : HealthLoop} (hs : s.loop.step H reports ev = .ok L) :
    Inv H reports cfg { s with loop := L } := by
  refine ⟨?_, h.reach.step ev hv hs, h.timed, h.ok, h.nodup, h.waiting, h.unserved, h.served,
    ⟨h.atWork.reading, h.atWork.writing, h.atWork.killed⟩⟩
  refine h.sequential.step ev ?_
  unfold record
  split
  · exact absurd rfl (hline _)
  · rw [hs]
    rfl

theorem Inv.accept (h : Inv H reports cfg s) {rest : List ℕ} (hb : s.backlog = c :: rest) :
    Inv H reports cfg { s with pc := .reading c [], backlog := rest } := by
  have hnodup := h.nodup
  rw [hb] at hnodup
  obtain ⟨hcr, hrest⟩ := List.nodup_cons.mp hnodup
  refine ⟨h.sequential, h.reach, h.timed, h.ok, hrest, fun j hj => h.waiting j (hb ▸ List.mem_cons_of_mem c hj),
    h.unserved, h.served, ⟨fun j line hpc => ?_, fun j rest hpc => (nomatch hpc), fun hpc => (nomatch hpc)⟩⟩
  obtain ⟨rfl, rfl⟩ := ServerPc.reading.inj hpc
  obtain ⟨hout, hcl⟩ := h.waiting c (hb ▸ List.mem_cons_self)
  exact ⟨hout, hcr, hcl⟩

theorem Inv.read (h : Inv H reports cfg s) {line : List Char} (hpc : s.pc = .reading c line)
    (hc : s.clients c = some cl) (hmore : wantsMore line = true) (n : ℕ) :
    Inv H reports cfg (s.read c line cl n) := by
  obtain ⟨hout, hback, x, hx, htaken⟩ := h.atWork.reading c line hpc
  obtain rfl := Option.some.inj (hc.symm.trans hx)
  have hok := h.ok c cl hc
  obtain ⟨hsent, hclosed⟩ := h.unserved c cl hc hout
  have hlt : cl.taken.length < 1024 := by
    simp only [wantsMore, Bool.and_eq_true, decide_eq_true_eq] at hmore
    exact htaken ▸ hmore.2
  refine h.update _ ⟨?_, hok.reply, ?_, hok.returned⟩ (h.timed_setClient hc rfl) (fun hw => absurd hw hback)
    (fun _ => ⟨hsent, hclosed⟩) (fun e he hec => absurd (hec ▸ mem_order he) hout)
    ⟨fun j line' hj => ?_, fun j rest hj => (nomatch hj), fun hj => (nomatch hj)⟩
  · show cl.taken ++ cl.toServer.take _ ++ (cl.toServer.drop _ ++ cl.unsent) = _
    rw [List.append_assoc, ← List.append_assoc (cl.toServer.take _), List.take_append_drop]
    exact hok.request
  · show (cl.taken ++ cl.toServer.take (min n 256)).length < _
    rw [List.length_append, List.length_take]
    omega
  · obtain ⟨rfl, rfl⟩ := ServerPc.reading.inj hj
    exact ⟨hout, hback, _, setClient_self, by rw [htaken]⟩

theorem Inv.execute (hcfg : Config.Valid cfg) (h : Inv H reports cfg s) {line : List Char}
    (hpc : s.pc = .reading c line) {gaveUp : Bool} (hstop : gaveUp = false → wantsMore line = false) :
    Returns (s.execute H reports c line gaveUp) fun s' => Inv H reports cfg s' := by
  obtain ⟨hout, hback, cl, hc, htaken⟩ := h.atWork.reading c line hpc
  obtain ⟨hsent, hclosed⟩ := h.unserved c cl hc hout
  obtain ⟨log, hlog⟩ := HealthLoop.reach_inv hcfg h.reach
  obtain ⟨⟨reply, C⟩, he, -⟩ : Returns (s.loop.ctl.execute H reports (firstLine line)) fun p =>
      SnapshotManager.Running H cfg p.2.mgr := Control.execute_running hcfg hlog.logged.running _
  refine ⟨_, by unfold ControlSocket.execute; rw [he]; rfl, ?_⟩
  have hentry : ∀ e ∈ s.served ++ [⟨c, firstLine line, reply, gaveUp⟩],
      e ∈ s.served ∨ e = ⟨c, firstLine line, reply, gaveUp⟩ := by
    intro e hmem
    simpa using hmem
  refine ⟨?_, ?_, ?_, h.ok, h.nodup, fun j hj => ?_, fun j x hj hnot => ?_, fun e hmem => ?_,
    ⟨fun j line' hj => (nomatch hj), fun j rest hj => ?_, fun hj => (nomatch hj)⟩⟩
  · refine h.sequential.step (.line (firstLine line)) ?_
    simp only [record, he, transcript, List.map_append]
    rfl
  · exact h.reach.step (.line (firstLine line)) trivial (by simp only [HealthLoop.step, he]; rfl)
  · show Calls.WellTimed s.spans ((s.served ++ [_]).map Served.client)
    rw [List.map_append]
    exact h.timed.commit (spans_of_some hc) hout
  · obtain ⟨hj', hx⟩ := h.waiting j hj
    refine ⟨fun hmem => ?_, hx⟩
    obtain ⟨e, he', rfl⟩ := List.mem_map.mp hmem
    rcases hentry e he' with he' | rfl
    · exact hj' (mem_order he')
    · exact hback hj
  · refine h.unserved j x hj fun hmem => hnot ?_
    obtain ⟨e, he', rfl⟩ := List.mem_map.mp hmem
    exact List.mem_map_of_mem (List.mem_append_left _ he')
  · rcases hentry e hmem with hmem | rfl
    · exact h.served e hmem
    · refine ⟨cl, hc, by rw [htaken], fun hg => by rw [htaken]; exact hstop hg, ?_, fun hcl => ?_⟩
      · rw [hsent]
        exact List.nil_prefix
      · exact absurd (hclosed.symm.trans hcl) Bool.false_ne_true
  · obtain ⟨rfl, rfl⟩ := ServerPc.writing.inj hj
    exact ⟨cl, hc, hclosed, _, List.mem_append_right _ List.mem_cons_self, rfl, by rw [hsent]; rfl⟩

/-- The client that is written to has been served and still waits for the end. -/
theorem Inv.writing_to (h : Inv H reports cfg s) {rest : List Char} (hpc : s.pc = .writing c rest)
    (hc : s.clients c = some cl) : cl.closed = false ∧ (∀ t, cl.span.till ≠ some t) ∧
      ∃ e ∈ s.served, e.client = c ∧ cl.sent ++ rest = e.reply.toList := by
  obtain ⟨x, hx, hclosed, hserved⟩ := h.atWork.writing c rest hpc
  obtain rfl := Option.some.inj (hc.symm.trans hx)
  refine ⟨hclosed, fun t ht => ?_, hserved⟩
  exact Bool.false_ne_true (hclosed.symm.trans ((h.ok c cl hc).returned t ht).1)

/-- The connection of a client that has been served changes: it has one request only. -/
theorem Inv.update_served (h : Inv H reports cfg s) (hc : s.clients c = some cl) {e : Served} (he : e ∈ s.served)
    (hec : e.client = c) (pc : ServerPc) (hok : cl'.Ok) (hspan : cl'.span = cl.span) (hfor : e.For cl → e.For cl')
    (hwork : AtWork { s.setClient c cl' with pc := pc }) :
    Inv H reports cfg { s.setClient c cl' with pc := pc } := by
  have hin : c ∈ s.order := hec ▸ mem_order he
  refine h.update pc hok (h.timed_setClient hc hspan) (fun hw => absurd hin (h.waiting c hw).1)
    (fun hout => absurd hin hout) (fun e' he' hec' => ?_) hwork
  obtain rfl : e' = e := h.served_unique he' he (hec'.trans hec.symm)
  exact hfor (h.for_of_mem hc he' hec')

theorem Inv.write (h : Inv H reports cfg s) {rest : List Char} (hpc : s.pc = .writing c rest)
    (hc : s.clients c = some cl) (n : ℕ) : Inv H reports cfg (s.write c rest cl n) := by
  unfold ControlSocket.write
  by_cases hgone : cl.gone = true
  · rw [if_pos hgone]
    exact h.setPc ⟨fun j line hj => (nomatch hj), fun j rest hj => (nomatch hj), fun _ => ⟨c, cl, hc, hgone⟩⟩
  rw [if_neg hgone]
  obtain ⟨hclosed, hopen, e, he, hec, hreply⟩ := h.writing_to hpc hc
  have hok := h.ok c cl hc
  have hsum : cl.sent ++ rest.take n ++ rest.drop n = e.reply.toList := by
    rw [List.append_assoc, List.take_append_drop, hreply]
  refine h.update_served hc he hec _ ⟨hok.request, ?_, hok.length, fun t ht => absurd ht (hopen t)⟩ rfl
    (fun hfor => ⟨hfor.line, hfor.whole, ⟨_, hsum⟩, fun hcl => ?_⟩)
    ⟨fun j line hj => (nomatch hj), fun j rest' hj => ?_, fun hj => (nomatch hj)⟩
  · show cl.out ++ (cl.toClient ++ rest.take n) = cl.sent ++ rest.take n
    rw [← List.append_assoc, hok.reply]
  · exact absurd (hclosed.symm.trans hcl) Bool.false_ne_true
  · obtain ⟨rfl, rfl⟩ := ServerPc.writing.inj hj
    exact ⟨_, setClient_self, hclosed, e, he, hec, hsum⟩

theorem Inv.close (h : Inv H reports cfg s) {rest : List Char} (hpc : s.pc = .writing c rest)
    (hc : s.clients c = some cl) : Inv H reports cfg (s.close c rest cl) := by
  obtain ⟨-, hopen, e, he, hec, hreply⟩ := h.writing_to hpc hc
  have hok := h.ok c cl hc
  refine h.update_served hc he hec _ ⟨hok.request, hok.reply, hok.length, fun t ht => absurd ht (hopen t)⟩ rfl
    (fun hfor => ⟨hfor.line, hfor.whole, hfor.sent, fun _ hcut => ?_⟩) (.idle (by simp) (by simp) (by simp))
  have hrest : rest = [] := by simpa using hcut
  rw [hrest, List.append_nil] at hreply
  exact hreply

/-- **Every step returns and keeps the invariant.** -/
theorem Inv.step (hcfg : Config.Valid cfg) (h : Inv H reports cfg s) {ev : SocketEvent} (hv : s.Valid ev) :
    Returns (s.step H reports ev) fun s' => Inv H reports cfg s' := by
  obtain ⟨log, hlog⟩ := HealthLoop.reach_inv hcfg h.reach
  unfold ControlSocket.step
  cases ev with
  | connect c command =>
    dsimp only
    split
    · rename_i hnew
      exact .ok (h.connect hnew.1 command)
    · exact .ok h
  | client c act =>
    dsimp only
    split
    · exact .ok h
    · rename_i cl hc
      exact .ok (h.client hc act)
  | finish c =>
    dsimp only
    split
    · exact .ok h
    rename_i cl hc
    split
    · rename_i hend
      exact .ok (h.finish hc hend)
    · exact .ok h
  | master ev =>
    dsimp only
    split
    · exact .ok h
    · rename_i hnot
      obtain ⟨L, hL, -⟩ : Returns (s.loop.step H reports ev) _ := hlog.step hcfg hv
      refine ⟨_, by rw [hL]; rfl, h.setLoop ev (fun text e => hnot (.inl ?_)) hv hL⟩
      rw [e]
      rfl
  | stop =>
    exact .ok ⟨h.sequential, h.reach, h.timed, h.ok, h.nodup, h.waiting, h.unserved, h.served,
      ⟨h.atWork.reading, h.atWork.writing, h.atWork.killed⟩⟩
  | top seen =>
    dsimp only
    split
    · split
      · exact .ok (h.setPc (.idle (by simp) (by simp) (by simp)))
      · obtain ⟨L, hL, -⟩ : Returns (s.loop.step H reports (.drain seen)) _ := hlog.drain hcfg seen
        exact ⟨_, by rw [hL]; rfl, (h.setLoop (.drain seen) (fun text e => (nomatch e)) trivial hL).setPc
          (.idle (by simp) (by simp) (by simp))⟩
    · exact .ok h
  | noConnection =>
    dsimp only
    split
    · exact .ok (h.setPc (.idle (by simp) (by simp) (by simp)))
    · exact .ok h
  | accept =>
    dsimp only
    split
    · rename_i c rest hpc hb
      exact .ok (h.accept hb)
    · exact .ok h
  | read n =>
    dsimp only
    split
    · rename_i c line hpc
      split
      · exact .ok h
      rename_i cl hc
      split
      · rename_i hmore
        exact .ok (h.read hpc hc hmore n)
      · exact .ok h
    · exact .ok h
  | execute gaveUp =>
    dsimp only
    split
    · rename_i c line hpc
      split
      · exact .ok h
      · rename_i hstop
        exact h.execute hcfg hpc fun hg => Bool.eq_false_iff.mpr fun hmore => hstop ⟨hmore, hg⟩
    · exact .ok h
  | write n =>
    dsimp only
    split
    · rename_i c rest hpc
      split
      · exact .ok h
      rename_i cl hc
      split
      · exact .ok h
      · exact .ok (h.write hpc hc n)
    · exact .ok h
  | close failed =>
    dsimp only
    split
    · rename_i c rest hpc
      split
      · exact .ok h
      rename_i cl hc
      split
      · exact .ok h
      · exact .ok (h.close hpc hc)
    · exact .ok h

theorem reach_inv (hcfg : Config.Valid cfg) (h : Reach H reports cfg s) : Inv H reports cfg s := by
  induction h with
  | boot h => exact Inv.boot h
  | step ev _ hv hs ih =>
    obtain ⟨s1, h1, hI⟩ := ih.step hcfg hv
    obtain rfl := Except.ok.inj (h1.symm.trans hs)
    exact hI

end ControlSocket

end L4Lb
