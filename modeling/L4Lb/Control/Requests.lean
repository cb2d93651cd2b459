/-
# Requests on the control socket

To the clients of the control socket, the commands are carried out one after the
other, each at one point between its connection and its return, and a client gets
the reply of this very point (`ControlSocket.linearized`). What is carried out for a
client is what it has sent up to the first line feed, if this is less than 1024
bytes and came before the server lost patience (`ControlSocket.line_from_request`):
a line that comes too slowly is carried out as far as it has come. And a request
that has come is served, whatever the sizes of the reads and the writes
(`ControlSocket.request_served`).
-/
import L4Lb.Control.Socket

open Checked

namespace L4Lb

namespace ControlSocket

variable {H : HashFns} {reports : Control → Report → String} {cfg : LbConfig} {s s' : ControlSocket} {c : ℕ}
  {cl cl' : Client}

theorem getElem?_order {i : ℕ} (h : s.order[i]? = some c) : ∃ e, s.served[i]? = some e ∧ e.client = c := by
  rw [order, List.getElem?_map] at h
  exact Option.map_eq_some_iff.mp h

/-- **The commands are carried out one at a time.** However the clients, the server
and the health checker have taken turns, and in whatever pieces the bytes have come:
there is a run of the control thread alone that leads to this state and carries out
the same lines with the same replies. A client whose request has returned has its
place in it, once, after its connection and before its return, and has the reply of
this place, unless a `write` of it failed. A request that returned before another
client connected comes before it. -/
theorem linearized (hcfg : Config.Accepted cfg) (h : Reach H reports cfg s) :
    s.Sequential H reports cfg ∧ s.order.Nodup ∧
      (∀ c cl t, s.clients c = some cl → cl.span.till = some t →
        ∃ (i : ℕ) (e : Served), s.served[i]? = some e ∧ e.client = c ∧
        cl.span.since ≤ i ∧ i < t ∧ (cl.cut = false → cl.out = e.reply.toList)) ∧
      ∀ a b cla clb t (j : ℕ), s.clients a = some cla → s.clients b = some clb → cla.span.till = some t →
        t ≤ clb.span.since → s.order[j]? = some b → ∃ i < j, s.order[i]? = some a := by
  have hI := reach_inv hcfg.valid h
  refine ⟨hI.sequential, hI.timed.nodup, fun c cl t hc ht => ?_, fun a b cla clb t j ha hb ht hlt hj => ?_⟩
  · obtain ⟨-, i, hit, hi⟩ := hI.timed.done c cl.span t (spans_of_some hc) ht
    obtain ⟨e, he, hec⟩ := getElem?_order hi
    refine ⟨i, e, he, hec, hI.timed.inside c cl.span i (spans_of_some hc) hi, hit, fun hcut => ?_⟩
    have hok := hI.ok c cl hc
    obtain ⟨hclosed, hempty⟩ := hok.returned t ht
    have hall := (hI.for_of_mem hc (List.mem_of_getElem? he) hec).all hclosed hcut
    rw [← hall, ← hok.reply, hempty, List.append_nil]
  · exact hI.timed.precedes (spans_of_some ha) (spans_of_some hb) ht hlt hj

theorem Reach.run {evs : List SocketEvent} (h : Reach H reports cfg s)
    (hv : ∀ ev ∈ evs, ∀ s : ControlSocket, s.Valid ev)
    (hr : s.run H reports evs = .ok s') : Reach H reports cfg s' := by
  induction evs generalizing s with
  | nil => exact Except.ok.inj hr ▸ h
  | cons ev evs ih =>
    unfold ControlSocket.run at hr
    rw [List.foldlM_cons] at hr
    obtain ⟨s1, h1, hr⟩ := bind_eq_ok.mp hr
    exact ih (.step ev h (hv ev List.mem_cons_self s) h1) (fun e he => hv e (List.mem_cons_of_mem _ he)) hr

/-- A state that a run from the start leads to. -/
theorem exists_reach (H : HashFns) (reports : Control → Report → String) (cfg : LbConfig) (evs : List SocketEvent)
    {P : ControlSocket → Prop} (hv : ∀ ev ∈ evs, ∀ s : ControlSocket, s.Valid ev)
    (h : Returns (ControlSocket.boot H cfg >>= fun s => s.run H reports evs) P) : ∃ s, Reach H reports cfg s ∧ P s := by
  obtain ⟨s, hs, hP⟩ := h
  obtain ⟨s0, h0, hr⟩ := bind_eq_ok.mp hs
  exact ⟨s, Reach.run (.boot h0) hv hr, hP⟩

/-- A client sends its command in two pieces, and another one connects meanwhile. -/
def twoClients : List SocketEvent :=
  [.connect 0 "weight 1 5".toList, .client 0 (.send 4), .top 64, .accept, .read 256,
    .connect 1 "weight 7 5".toList, .client 1 (.send 100), .client 0 (.send 100), .read 256, .execute false,
    .write 2, .write 100, .close false, .client 0 (.recv 65536), .finish 0,
    .top 64, .accept, .read 256, .execute false, .write 100, .close false, .client 1 (.recv 65536), .finish 1]

/-- The second client gets its own reply. -/
theorem linearized_twoClients : ∃ (s : ControlSocket) (cl : Client) (i : ℕ) (e : Served),
    Reach demo.H (fun _ _ => "") (Monitor.webConfig 1 2) s ∧
    s.clients 1 = some cl ∧ s.served[i]? = some e ∧ e.client = 1 ∧ cl.out = e.reply.toList ∧
    cl.out = "error: no such rs 7\n".toList := by
  obtain ⟨s, h, hcl⟩ := exists_reach demo.H (fun _ _ => "") (Monitor.webConfig 1 2) twoClients
    (P := fun s => (s.clients 1).map (fun cl => (cl.span.till, cl.cut, cl.out)) =
      some (some 2, false, "error: no such rs 7\n".toList))
    (by simp [twoClients, Valid]) (by decide +kernel)
  obtain ⟨cl, hc, hfields⟩ := Option.map_eq_some_iff.mp hcl
  obtain ⟨ht, hcut, hout⟩ : cl.span.till = some 2 ∧ cl.cut = false ∧ cl.out = "error: no such rs 7\n".toList := by
    simpa using hfields
  obtain ⟨-, -, hreturned, -⟩ := linearized Monitor.webConfig_accepted h
  obtain ⟨i, e, he, hec, -, -, hreply⟩ := hreturned 1 cl 2 hc ht
  exact ⟨s, cl, i, e, h, hc, he, hec, hreply hcut, hout⟩

/-! ### What is carried out -/

theorem newline_notMem_firstLine (l : List Char) : '\n' ∉ firstLine l := by
  intro hmem
  have := List.mem_takeWhile_imp hmem
  simp at this

/-- The bytes after the line feed do not matter. -/
theorem firstLine_append {l : List Char} (h : '\n' ∈ l) (l' : List Char) : firstLine (l ++ l') = firstLine l := by
  unfold firstLine
  rw [List.takeWhile_append, if_neg]
  intro hlen
  have heq : firstLine l = l := (List.takeWhile_prefix _).eq_of_length hlen
  exact newline_notMem_firstLine l (heq.symm ▸ h)

theorem firstLine_append_of_notMem {l : List Char} (h : '\n' ∉ l) (l' : List Char) :
    firstLine (l ++ l') = l ++ firstLine l' := by
  refine List.takeWhile_append_of_pos fun x hx => ?_
  simpa using fun e : x = '\n' => h (e ▸ hx)

theorem firstLine_concat (l : List Char) : firstLine (l ++ ['\n']) = firstLine l := by
  by_cases h : '\n' ∈ l
  · exact firstLine_append h _
  · calc firstLine (l ++ ['\n']) = l ++ firstLine ['\n'] := firstLine_append_of_notMem h _
      _ = l ++ firstLine [] := rfl
      _ = firstLine (l ++ []) := (firstLine_append_of_notMem h _).symm
      _ = firstLine l := by rw [List.append_nil]

/-- A part of the request without line feed is a part of the command. -/
theorem prefix_command {l command : List Char} (h : l <+: command ++ ['\n']) (hl : '\n' ∉ l) : l <+: command := by
  rcases List.prefix_concat_iff.mp h with rfl | h
  · simp at hl
  · exact h

theorem firstLine_of_whole {l command : List Char} (h : l <+: command ++ ['\n']) (hl : wantsMore l = false)
    (hlen : (firstLine command).length < 1024) : firstLine l = firstLine command := by
  obtain ⟨rest, hrest⟩ := h
  by_cases hmem : '\n' ∈ l
  · rw [← firstLine_append hmem rest, hrest, firstLine_concat]
  · -- then it is too long
    exfalso
    have hlong : 1024 ≤ l.length := by simpa [wantsMore, hmem] using hl
    obtain ⟨rest', hrest'⟩ := prefix_command ⟨rest, hrest⟩ hmem
    have hle : l.length ≤ (firstLine command).length := by
      rw [← hrest', firstLine_append_of_notMem hmem, List.length_append]
      exact Nat.le_add_right ..
    omega

/-- **What is carried out is what was sent.** For each client at most one line is
carried out, and it is a first part of the client's command without line feed, of
less than 1280 bytes. If the server did not give up waiting, and the first line of
the command has less than 1024 bytes, then it is this line as a whole. -/
theorem line_from_request (hcfg : Config.Accepted cfg) (h : Reach H reports cfg s) {e : Served} (he : e ∈ s.served) :
    ∃ cl, s.clients e.client = some cl ∧ e.line <+: cl.command ∧ '\n' ∉ e.line ∧ e.line.length < 1280 ∧
      (e.gaveUp = false → (firstLine cl.command).length < 1024 → e.line = firstLine cl.command) := by
  have hI := reach_inv hcfg.valid h
  obtain ⟨cl, hc, hfor⟩ := hI.served e he
  have hok := hI.ok e.client cl hc
  have htaken : cl.taken <+: cl.command ++ ['\n'] := ⟨_, hok.request⟩
  have hline : e.line <+: cl.taken := hfor.line ▸ List.takeWhile_prefix _
  have hfeed : '\n' ∉ e.line := hfor.line ▸ newline_notMem_firstLine _
  refine ⟨cl, hc, prefix_command (hline.trans htaken) hfeed, hfeed, hline.length_le.trans_lt hok.length,
    fun hg hlen => ?_⟩
  rw [hfor.line]
  exact firstLine_of_whole htaken (hfor.whole hg) hlen

/-- The line of the first client. -/
theorem line_from_request_twoClients : ∃ s e cl, Reach demo.H (fun _ _ => "") (Monitor.webConfig 1 2) s ∧
    e ∈ s.served ∧ s.clients e.client = some cl ∧ e.line <+: cl.command ∧
    (e.gaveUp = false → (firstLine cl.command).length < 1024 → e.line = firstLine cl.command) := by
  obtain ⟨s, h, hlen⟩ := exists_reach demo.H (fun _ _ => "") (Monitor.webConfig 1 2) twoClients
    (P := fun s => s.served.length = 2) (by simp [twoClients, Valid]) (by decide +kernel)
  have he : s.served[0] ∈ s.served := List.getElem_mem _
  obtain ⟨cl, hc, hline, -, -, hwhole⟩ := line_from_request Monitor.webConfig_accepted h he
  exact ⟨s, _, cl, h, he, hc, hline, hwhole⟩

/-! ### A request is served -/

/-- The server has read on, and nothing else has changed. -/
structure ReadsOn (s : ControlSocket) (c : ℕ) (cl : Client) (s' : ControlSocket) (cl' : Client) : Prop where
  pc : s'.pc = .reading c cl'.taken
  client : s'.clients c = some cl'
  bytes : cl'.taken ++ cl'.toServer = cl.taken ++ cl.toServer
  same : s' = { s with pc := s'.pc, clients := s'.clients }
  rest : cl' = { cl with taken := cl'.taken, toServer := cl'.toServer }

theorem ReadsOn.trans {s1 s2 : ControlSocket} {cl1 cl2 : Client} (h1 : ReadsOn s c cl s1 cl1)
    (h2 : ReadsOn s1 c cl1 s2 cl2) : ReadsOn s c cl s2 cl2 := by
  refine ⟨h2.pc, h2.client, h2.bytes.trans h1.bytes, ?_, ?_⟩
  · calc s2 = { s1 with pc := s2.pc, clients := s2.clients } := h2.same
      _ = { s with pc := s2.pc, clients := s2.clients } := by rw [h1.same]
  · calc cl2 = { cl1 with taken := cl2.taken, toServer := cl2.toServer } := h2.rest
      _ = { cl with taken := cl2.taken, toServer := cl2.toServer } := by rw [h1.rest]

theorem readsOn_read (s : ControlSocket) (c : ℕ) (cl : Client) (n : ℕ) :
    ReadsOn s c cl (s.read c cl.taken cl n)
      { cl with
        toServer := cl.toServer.drop (min n 256), taken := cl.taken ++ cl.toServer.take (min n 256) } := by
  refine ⟨rfl, setClient_self, ?_, rfl, rfl⟩
  rw [List.append_assoc, List.take_append_drop]

/-- The loop is over: it reads no more. -/
theorem run_reads_done {line : List Char} (hpc : s.pc = .reading c line) (hc : s.clients c = some cl)
    (hdone : wantsMore line = false) : ∀ reads : List ℕ, s.run H reports (reads.map .read) = .ok s
  | [] => rfl
  | n :: reads => by
    have hstep : s.step H reports (.read n) = .ok s := by simp [step, hpc, hc, hdone]
    rw [List.map_cons, run, List.foldlM_cons, hstep]
    exact run_reads_done hpc hc hdone reads

variable (H reports) in
/-- Reads of any sizes: the server has a whole line, or has got a byte with each. -/
theorem run_reads : ∀ (reads : List ℕ) {s : ControlSocket} {cl : Client}, s.pc = .reading c cl.taken →
    s.clients c = some cl → (∀ n ∈ reads, 0 < n) → ∃ s' cl', s.run H reports (reads.map .read) = .ok s' ∧
      ReadsOn s c cl s' cl' ∧ (wantsMore cl'.taken = false ∨ cl'.toServer.length ≤ cl.toServer.length - reads.length)
  | [], s, cl, hpc, hc, _ => ⟨s, cl, rfl, ⟨hpc, hc, rfl, rfl, rfl⟩, .inr le_rfl⟩
  | n :: reads, s, cl, hpc, hc, hpos => by
    cases hmore : wantsMore cl.taken with
    | false => exact ⟨s, cl, run_reads_done hpc hc hmore _, ⟨hpc, hc, rfl, rfl, rfl⟩, .inl hmore⟩
    | true =>
      have hstep : s.step H reports (.read n) = .ok (s.read c cl.taken cl n) := by
        simp only [step, hpc, hc, hmore, if_true]
      have h1 := readsOn_read s c cl n
      obtain ⟨s2, cl2, hr, h2, hend⟩ := run_reads reads h1.pc h1.client fun m hm => hpos m (List.mem_cons_of_mem n hm)
      refine ⟨s2, cl2, ?_, h1.trans h2, hend.imp id fun hlen => ?_⟩
      · rw [List.map_cons, run, List.foldlM_cons, hstep]
        exact hr
      · have hn := hpos n List.mem_cons_self
        rw [List.length_drop] at hlen
        rw [List.length_cons]
        omega

/-- The server has written on, and nothing else has changed. -/
structure WritesOn (s : ControlSocket) (c : ℕ) (rest : List Char) (cl : Client) (s' : ControlSocket)
    (rest' : List Char) (cl' : Client) : Prop where
  pc : s'.pc = .writing c rest'
  client : s'.clients c = some cl'
  bytes : cl'.toClient ++ rest' = cl.toClient ++ rest
  same : s' = { s with pc := s'.pc, clients := s'.clients }
  gone : cl'.gone = cl.gone

theorem WritesOn.trans {rest rest1 rest2 : List Char} {s1 s2 : ControlSocket} {cl1 cl2 : Client}
    (h1 : WritesOn s c rest cl s1 rest1 cl1) (h2 : WritesOn s1 c rest1 cl1 s2 rest2 cl2) :
    WritesOn s c rest cl s2 rest2 cl2 := by
  refine ⟨h2.pc, h2.client, h2.bytes.trans h1.bytes, ?_, h2.gone.trans h1.gone⟩
  calc s2 = { s1 with pc := s2.pc, clients := s2.clients } := h2.same
    _ = { s with pc := s2.pc, clients := s2.clients } := by rw [h1.same]

theorem writesOn_write (s : ControlSocket) (c : ℕ) (rest : List Char) (hgone : cl.gone = false) (n : ℕ) :
    WritesOn s c rest cl (s.write c rest cl n) (rest.drop n)
      { cl with toClient := cl.toClient ++ rest.take n, sent := cl.sent ++ rest.take n } := by
  unfold ControlSocket.write
  rw [if_neg (by simp [hgone])]
  refine ⟨rfl, setClient_self, ?_, rfl, rfl⟩
  rw [List.append_assoc, List.take_append_drop]

variable (H reports) in
/-- Writes of any sizes: a byte goes with each, as long as there is one and the client
is there. -/
theorem run_writes : ∀ (writes : List ℕ) {s : ControlSocket} {cl : Client} {rest : List Char},
    s.pc = .writing c rest → s.clients c = some cl → (cl.gone = true → rest = []) → (∀ n ∈ writes, 0 < n) →
    ∃ s' rest' cl', s.run H reports (writes.map .write) = .ok s' ∧ WritesOn s c rest cl s' rest' cl' ∧
      rest'.length ≤ rest.length - writes.length
  | [], s, cl, rest, hpc, hc, _, _ => ⟨s, rest, cl, rfl, ⟨hpc, hc, rfl, rfl, rfl⟩, le_rfl⟩
  | n :: writes, s, cl, rest, hpc, hc, hgone, hpos => by
    have hn := hpos n List.mem_cons_self
    have hpos' : ∀ m ∈ writes, 0 < m := fun m hm => hpos m (List.mem_cons_of_mem n hm)
    by_cases hrest : rest = []
    · have hstep : s.step H reports (.write n) = .ok s := by simp [step, hpc, hc, hrest]
      obtain ⟨s2, rest2, cl2, hr, h2, hlen⟩ := run_writes writes hpc hc hgone hpos'
      refine ⟨s2, rest2, cl2, ?_, h2, ?_⟩
      · rw [List.map_cons, run, List.foldlM_cons, hstep]
        exact hr
      · rw [hrest, List.length_nil] at hlen ⊢
        omega
    · have hstep : s.step H reports (.write n) = .ok (s.write c rest cl n) := by
        simp only [step, hpc, hc, if_neg hrest]
      have h1 := writesOn_write s c rest (Bool.eq_false_of_not_eq_true fun hg => hrest (hgone hg)) n
      obtain ⟨s2, rest2, cl2, hr, h2, hlen⟩ := run_writes writes h1.pc h1.client
        (fun hg => absurd (hgone hg) hrest) hpos'
      refine ⟨s2, rest2, cl2, ?_, h1.trans h2, ?_⟩
      · rw [List.map_cons, run, List.foldlM_cons, hstep]
        exact hr
      · rw [List.length_drop] at hlen
        rw [List.length_cons]
        omega

theorem run_append {evs evs' : List SocketEvent} (h : s.run H reports evs = .ok s') :
    s.run H reports (evs ++ evs') = s'.run H reports evs' := by
  unfold run at h ⊢
  rw [List.foldlM_append, h]
  rfl

/-- A whole request ends the read loop. -/
theorem wantsMore_of_all {l command : List Char} (h : l = command ++ ['\n']) : wantsMore l = false := by
  simp [wantsMore, h]

/-- A whole request is read and its line carried out, whatever the sizes of the
reads, if there are enough of them. -/
theorem request_executed (hcfg : Config.Accepted cfg) (h : Reach H reports cfg s) (hpc : s.pc = .polling)
    {rest : List ℕ} (hb : s.backlog = c :: rest) (hc : s.clients c = some cl) (hsent : cl.unsent = [])
    (hfirst : (firstLine cl.command).length < 1024) :
    ∃ reply C, s.loop.ctl.execute H reports (firstLine cl.command) = .ok (reply, C) ∧ ∀ reads : List ℕ,
      (∀ n ∈ reads, 0 < n) → cl.command.length < reads.length →
      Returns (s.run H reports (.accept :: (reads.map .read ++ [.execute false]))) fun s' =>
        s'.pc = .writing c reply.toList ∧ s'.backlog = rest ∧ s'.loop = { s.loop with ctl := C } ∧
          ∃ cl', s'.clients c = some cl' ∧ cl'.toClient = [] ∧ cl'.gone = cl.gone := by
  have hI := reach_inv hcfg.valid h
  obtain ⟨hout, x, hx, htaken⟩ := hI.waiting c (hb ▸ List.mem_cons_self)
  obtain rfl := Option.some.inj (hc.symm.trans hx)
  have hempty : cl.toClient = [] := by
    have hreply := (hI.ok c cl hc).reply
    rw [(hI.unserved c cl hc hout).1] at hreply
    exact (List.append_eq_nil_iff.mp hreply).2
  have hrequest : cl.toServer = cl.command ++ ['\n'] := by
    have hr := (hI.ok c cl hc).request
    rwa [htaken, hsent, List.append_nil, List.nil_append] at hr
  obtain ⟨log, hlog⟩ := HealthLoop.reach_inv hcfg.valid hI.reach
  obtain ⟨⟨reply, C⟩, he, -⟩ : Returns (s.loop.ctl.execute H reports (firstLine cl.command)) _ :=
    Control.execute_running hcfg.valid hlog.logged.running _
  refine ⟨reply, C, he, fun reads hreads hlen => ?_⟩
  have haccept : s.step H reports .accept = .ok { s with pc := .reading c [], backlog := rest } := by
    simp only [step, hpc, hb]
  obtain ⟨s2, cl2, hrun2, h2, hend⟩ := run_reads H reports reads
    (s := { s with pc := .reading c [], backlog := rest }) (by rw [htaken]) hc hreads
  have hbytes : cl2.taken ++ cl2.toServer = cl.command ++ ['\n'] := by
    rw [h2.bytes, htaken, hrequest]
    rfl
  have hwhole : wantsMore cl2.taken = false := by
    rcases hend with hend | hend
    · exact hend
    · rw [hrequest, List.length_append, List.length_singleton] at hend
      have hnil : cl2.toServer = [] := List.length_eq_zero_iff.mp (by omega)
      rw [hnil, List.append_nil] at hbytes
      exact wantsMore_of_all hbytes
  have hline : firstLine cl2.taken = firstLine cl.command := firstLine_of_whole ⟨_, hbytes⟩ hwhole hfirst
  have hloop : s2.loop = s.loop := by rw [h2.same]
  refine ⟨{ s2 with
    loop := { s2.loop with ctl := C }, pc := .writing c reply.toList,
    served := s2.served ++ [⟨c, firstLine cl2.taken, reply, false⟩] }, ?_, rfl, by rw [h2.same], ?_, cl2, h2.client,
    by rw [h2.rest]; exact hempty, by rw [h2.rest]⟩
  · have hexec : s2.step H reports (.execute false) = .ok { s2 with
        loop := { s2.loop with ctl := C }, pc := .writing c reply.toList,
        served := s2.served ++ [⟨c, firstLine cl2.taken, reply, false⟩] } := by
      simp only [step, h2.pc, hwhole, Bool.false_eq_true, false_and, if_false, ControlSocket.execute, hloop, hline, he]
      rfl
    calc s.run H reports (.accept :: (reads.map .read ++ [.execute false]))
        = ControlSocket.run H reports { s with pc := .reading c [], backlog := rest }
            (reads.map .read ++ [.execute false]) := by
          rw [run, List.foldlM_cons, haccept]
          rfl
      _ = s2.run H reports [.execute false] := run_append hrun2
      _ = _ := by
          rw [run, List.foldlM_cons, hexec]
          rfl
  · rw [hloop]

/-- The signal has ended the program. -/
theorem run_killed (hpc : s.pc = .killed) : ∀ writes : List ℕ,
    s.run H reports (writes.map .write ++ [.close false]) = .ok s
  | [] => by simp [run, step, hpc]
  | n :: writes => by
    have hstep : s.step H reports (.write n) = .ok s := by simp [step, hpc]
    rw [List.map_cons, List.cons_append, run, List.foldlM_cons, hstep]
    exact run_killed hpc writes

/-- **A request that has come is served.** The server is ready for the next client,
whose request is in the socket as a whole and has a first line of less than 1024
bytes. Then this line is carried out and the reply is on the way back as a whole when
the server is at the top again, whatever the sizes of the reads and the writes, if
there are enough of them. Unless the client has hung up and there is a reply to write:
then the line is carried out and the write ends the program. -/
theorem request_served (hcfg : Config.Accepted cfg) (h : Reach H reports cfg s) (hpc : s.pc = .polling) {rest : List ℕ}
    (hb : s.backlog = c :: rest) (hc : s.clients c = some cl) (hsent : cl.unsent = [])
    (hfirst : (firstLine cl.command).length < 1024) :
    ∃ reply C, s.loop.ctl.execute H reports (firstLine cl.command) = .ok (reply, C) ∧ ∀ reads writes : List ℕ,
      (∀ n ∈ reads, 0 < n) → (∀ n ∈ writes, 0 < n) → cl.command.length < reads.length →
      reply.toList.length ≤ writes.length →
      Returns (s.run H reports
        (.accept :: (reads.map .read ++ .execute false :: (writes.map .write ++ [.close false])))) fun s' =>
        s'.backlog = rest ∧ s'.loop = { s.loop with ctl := C } ∧
          if cl.gone = true ∧ reply.toList ≠ [] then s'.pc = .killed
          else s'.pc = .top ∧
            ∃ cl', s'.clients c = some cl' ∧ cl'.toClient = reply.toList ∧ cl'.closed = true ∧ cl'.cut = false := by
  obtain ⟨reply, C, he, hexec⟩ := request_executed hcfg h hpc hb hc hsent hfirst
  refine ⟨reply, C, he, fun reads writes hreads hwrites hlenr hlenw => ?_⟩
  obtain ⟨s3, hrun3, hpc3, hback3, hloop3, cl3, hc3, hempty, hgone3⟩ := hexec reads hreads hlenr
  have hrun :
      s.run H reports (.accept :: (reads.map .read ++ .execute false :: (writes.map .write ++ [.close false]))) =
        s3.run H reports (writes.map .write ++ [.close false]) := by
    rw [← run_append hrun3]
    simp
  rw [hrun]
  by_cases hkill : cl.gone = true ∧ reply.toList ≠ []
  · -- the first write
    simp only [if_pos hkill]
    match writes with
    | [] => exact absurd (List.length_eq_zero_iff.mp (Nat.le_zero.mp hlenw)) hkill.2
    | n :: writes =>
      have hstep : s3.step H reports (.write n) = .ok { s3 with pc := .killed } := by
        simp only [step, hpc3, hc3, if_neg hkill.2, ControlSocket.write, hgone3.trans hkill.1, if_true]
      refine ⟨{ s3 with pc := .killed }, ?_, hback3, hloop3, rfl⟩
      rw [List.map_cons, List.cons_append, run, List.foldlM_cons, hstep]
      exact run_killed rfl writes
  · simp only [if_neg hkill]
    have hgone : cl3.gone = true → reply.toList = [] := fun hg => by_contra fun hne => hkill ⟨hgone3 ▸ hg, hne⟩
    obtain ⟨s4, rest4, cl4, hrun4, h4, hlen4⟩ := run_writes H reports writes hpc3 hc3 hgone hwrites
    obtain rfl : rest4 = [] := List.length_eq_zero_iff.mp (by omega)
    have hclose : s4.step H reports (.close false) = .ok (s4.close c [] cl4) := by
      simp [step, h4.pc, h4.client]
    refine ⟨s4.close c [] cl4, ?_, ?_, ?_, rfl, _, setClient_self, ?_, rfl, rfl⟩
    · rw [run_append hrun4, run, List.foldlM_cons, hclose]
      rfl
    · exact (show s4.backlog = s3.backlog by rw [h4.same]).trans hback3
    · exact (show s4.loop = s3.loop by rw [h4.same]).trans hloop3
    · show cl4.toClient = reply.toList
      have hall := h4.bytes
      rwa [List.append_nil, hempty, List.nil_append] at hall

/-- A command is in the socket, and goes through it byte by byte; a client that has
hung up takes the server down. -/
theorem request_served_weight :
    (∃ s s' reads writes, Reach demo.H (fun _ _ => "") (Monitor.webConfig 1 2) s ∧
      s.run demo.H (fun _ _ => "") (.accept :: (reads ++ .execute false :: (writes ++ [.close false]))) = .ok s' ∧
      s'.pc = .top ∧ (s'.clients 0).map Client.toClient = some "ok\n".toList) ∧
    ∃ s s' reads writes, Reach demo.H (fun _ _ => "") (Monitor.webConfig 1 2) s ∧
      s.run demo.H (fun _ _ => "") (.accept :: (reads ++ .execute false :: (writes ++ [.close false]))) = .ok s' ∧
      s'.pc = .killed := by
  have serve : ∀ gone : Bool, ∃ s s' reads writes, Reach demo.H (fun _ _ => "") (Monitor.webConfig 1 2) s ∧
      s.run demo.H (fun _ _ => "") (.accept :: (reads ++ .execute false :: (writes ++ [.close false]))) = .ok s' ∧
      if gone = true then s'.pc = .killed
      else s'.pc = .top ∧ (s'.clients 0).map Client.toClient = some "ok\n".toList := by
    intro gone
    obtain ⟨s, h, hpc, hb, hcl, x, hx, hok⟩ := exists_reach demo.H (fun _ _ => "") (Monitor.webConfig 1 2)
      ([.connect 0 "weight 1 5".toList, .client 0 (.send 100), .top 64] ++ if gone then [.client 0 .hangUp] else [])
      (P := fun s => s.pc = .polling ∧ s.backlog = [0] ∧
        (s.clients 0).map (fun cl => (cl.unsent, cl.gone, cl.command)) = some ([], gone, "weight 1 5".toList) ∧
        Returns (s.loop.ctl.execute demo.H (fun _ _ => "") (firstLine "weight 1 5".toList)) fun x => x.1 = "ok\n")
      (by cases gone <;> simp [Valid]) (by cases gone <;> decide +kernel)
    obtain ⟨cl, hc, hfields⟩ := Option.map_eq_some_iff.mp hcl
    obtain ⟨hsent, rfl, hcommand⟩ : cl.unsent = [] ∧ cl.gone = gone ∧ cl.command = "weight 1 5".toList := by
      simpa using hfields
    obtain ⟨reply, C, he, hserved⟩ := request_served Monitor.webConfig_accepted h hpc hb hc hsent
      (by rw [hcommand]; decide)
    rw [hcommand, hx] at he
    obtain rfl : reply = "ok\n" := (congrArg Prod.fst (Except.ok.inj he)).symm.trans hok
    obtain ⟨s', hrun, -, -, hend⟩ := hserved (List.replicate 11 1) (List.replicate 3 1) (by simp) (by simp)
      (by rw [hcommand]; decide) (by decide)
    refine ⟨s, s', _, _, h, hrun, ?_⟩
    cases hg : cl.gone with
    | true =>
      rw [if_pos ⟨hg, by decide⟩] at hend
      exact hend
    | false =>
      rw [if_neg (by simp [hg])] at hend
      obtain ⟨htop, cl', hc', hreply, -⟩ := hend
      exact ⟨htop, by rw [hc', Option.map_some, hreply]⟩
  obtain ⟨s, s', reads, writes, h⟩ := serve false
  exact ⟨⟨s, s', reads, writes, h⟩, serve true⟩

end ControlSocket

end L4Lb
