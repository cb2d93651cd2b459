/-
# The paths of a packet

`process_packet` looks at the frame and at the snapshot, and sends the packet
down one of a few paths. Four of them need a session and belong to a worker:
packets to a service, packets of real servers, and ICMP errors about either.
`pathOf` says which one a frame takes; it reads nothing of the worker.
`processPacket_onPath` goes through `process_packet` and `pathOf` side by side: on
these paths the owner does its work, and another worker passes the frame on
(`processPacket_path`). On the other paths the worker counts the packet, may post an
event for the master that says what is in the frame (`MasterEvent.Tells`), and leaves
its sessions as they are (`Untouched`).

No path accesses a byte behind the frame (`processPacket_in_frame`).
-/
import L4Lb.Processor.Sessions

open Checked

namespace L4Lb

open SessionTable (Fit)

/-- The paths of a packet; `rest` are those that need no session. -/
inductive Path
  | inbound (p : PacketMeta) (svc : Service)
  | fromServer (p : PacketMeta)
  | errorToClient (p : PacketMeta) (info : IcmpErrorInfo)
  | errorToServer (p : PacketMeta) (info : IcmpErrorInfo)
  | rest

section Paths

variable (dp : Dataplane) (view : NeighView) (snap : Snapshot)

/-- The path of a TCP or UDP packet. -/
def pathL4 (p : PacketMeta) : Except Fault Path := do
  if ← isReturn dp snap p then return .fromServer p
  else if p.dstIp = snap.hcSrc ∧ inHcRange p.dstPort then return .rest
  else
    match ← snap.findService dp.H p.dstIp p.dstPort p.ipProtocol with
    | some svc => return .inbound p svc
    | none => return .rest

/-- The path of an ICMP packet. -/
def pathIcmp (m : Mbuf) (p : PacketMeta) : Except Fault Path := do
  if !(← snap.isLocal dp.H p.dstIp) then return .rest
  if !icmpIsError (← m.load8 p.l4Offset) then return .rest
  match ← parseIcmpError m p with
  | none => return .rest
  | some info =>
    if ← quotesServer dp snap p.dstIp info.inner then return .errorToClient p info
    else if ← quotesClient dp snap p.dstIp info.inner then return .errorToServer p info
    else return .rest

/-- The path of an IPv4 packet. -/
def pathIpv4 (m : Mbuf) (p : PacketMeta) : Except Fault Path :=
  if cksumBad m then .ok .rest
  else if p.srcMac = dp.localMac then .ok .rest
  else if p.ipProtocol = 1 then pathIcmp dp snap m p
  else if p.ipProtocol ≠ 6 ∧ p.ipProtocol ≠ 17 then .ok .rest
  else pathL4 dp snap p

/-- The path of a frame. -/
def pathOf (m : Mbuf) : Except Fault Path := do
  if m.dataLen < 14 then return .rest
  if (← m.etherType) ≠ 0x0800 then return .rest
  match ← parse m with
  | (.ok, p) => pathIpv4 dp snap m p
  | _ => return .rest

namespace Path

/-- The worker a path belongs to. -/
def owner : Path → Option ℕ
  | inbound p _ => some (dp.steering.fwdOwner dp.H p.toFiveTuple)
  | fromServer p => some (dp.steering.retOwner dp.H p.toFiveTuple)
  | errorToClient _ info => some (dp.steering.retOwner dp.H info.inner.reverse)
  | errorToServer _ info => some (dp.steering.fwdOwner dp.H info.inner.reverse)
  | rest => none

/-- The work of the owner. -/
def atOwner (w : WorkerCtx) (m : Mbuf) (redirected : Bool) : Path → Except Fault Outcome
  | inbound p svc => inboundAtOwner dp view w snap svc m p redirected
  | fromServer p => returnAtOwner dp view w snap m p
  | errorToClient p info => icmpToClient dp view w m p info
  | errorToServer p info => icmpToServer dp view w snap m p info
  | rest => .ok (w, m, .consumed)

/-- What is known about a frame on a path. -/
def Taken (m : Mbuf) : Path → Prop
  | inbound p svc => Parsed m p ∧ (p.ipProtocol = 6 ∨ p.ipProtocol = 17) ∧ isReturn dp snap p = .ok false ∧
      ¬ (p.dstIp = snap.hcSrc ∧ inHcRange p.dstPort = true) ∧
      snap.findService dp.H p.dstIp p.dstPort p.ipProtocol = .ok (some svc)
  | fromServer p => Parsed m p ∧ (p.ipProtocol = 6 ∨ p.ipProtocol = 17) ∧ isReturn dp snap p = .ok true
  | errorToClient p info => Parsed m p ∧ p.ipProtocol = 1 ∧ Quoted m p info ∧
      quotesServer dp snap p.dstIp info.inner = .ok true
  | errorToServer p info => Parsed m p ∧ p.ipProtocol = 1 ∧ Quoted m p info ∧
      quotesServer dp snap p.dstIp info.inner = .ok false ∧ quotesClient dp snap p.dstIp info.inner = .ok true
  | rest => True

end Path

end Paths

section Taken

variable {bad : Fault → Prop} {dp : Dataplane} {snap : Snapshot} {m : Mbuf} {p : PacketMeta}

theorem isReturn_avoids (hsafe : snap.LookupSafe bad dp) : ∀ e, isReturn dp snap p = .error e → ¬ bad e := by
  intro e he
  unfold isReturn at he
  split at he
  · simp at he
  cases hl : snap.isLip dp.H p.dstIp with
  | error e' =>
    rw [hl, error_bind] at he
    exact Except.error.inj he ▸ hsafe.isLip _ _ hl
  | ok b =>
    rw [hl, ok_bind] at he
    cases b <;> simp at he

theorem quotesServer_avoids (hsafe : snap.LookupSafe bad dp) (dst : IPv4Addr) (inner : FiveTuple) :
    ∀ e, quotesServer dp snap dst inner = .error e → ¬ bad e := by
  refine (Avoids.ite (fun _ => .ok trivial) fun _ => ?_ : Avoids bad _ fun _ => True).1
  refine Avoids.bind (.named (hsafe.isLip dst)) fun b _ => .ite (fun _ => .ok trivial) fun _ => ?_
  exact Avoids.bind (.named (hsafe.isLip _)) fun b _ => .ite (fun _ => .ok trivial) fun _ => .ok trivial

theorem quotesClient_avoids (hsafe : snap.LookupSafe bad dp) (dst : IPv4Addr) (inner : FiveTuple) :
    ∀ e, quotesClient dp snap dst inner = .error e → ¬ bad e := by
  refine (Avoids.bind (.named (hsafe.isVip dst)) fun b _ => .ite (fun _ => .ok trivial) fun _ => ?_ :
    Avoids bad _ fun _ => True).1
  exact ⟨hsafe.isVip _, fun _ _ => trivial⟩

theorem pathL4_avoids (hsafe : snap.LookupSafe bad dp) (h : Parsed m p)
    (hproto : p.ipProtocol = 6 ∨ p.ipProtocol = 17) :
    Avoids bad (pathL4 dp snap p) (Path.Taken dp snap m) := by
  unfold pathL4
  refine Avoids.bind (.named (isReturn_avoids hsafe)) fun b hb => ?_
  refine Avoids.ite (fun ht => .ok ⟨h, hproto, ?_⟩) fun hf => ?_
  · rw [hb, ht]
  refine Avoids.ite (fun _ => .ok trivial) fun hhc => ?_
  refine Avoids.bind (.named (hsafe.findService _ _ _)) fun found hfound => ?_
  cases found with
  | none => exact .ok trivial
  | some svc => exact .ok ⟨h, hproto, by rw [hb, Bool.eq_false_of_not_eq_true hf], hhc, hfound⟩

theorem pathIcmp_avoids (hsafe : snap.LookupSafe bad dp) (h : Parsed m p) (hicmp : p.ipProtocol = 1) :
    Avoids bad (pathIcmp dp snap m p) (Path.Taken dp snap m) := by
  have hlen := h.icmp hicmp
  have htot := h.total_le
  unfold pathIcmp
  refine Avoids.bind (.named (hsafe.isLocal _)) fun b _ => .ite (fun _ => .ok trivial) fun _ => ?_
  rw [Mbuf.load8_eq (by omega), ok_bind]
  refine Avoids.ite (fun _ => .ok trivial) fun _ => ?_
  refine Avoids.bind (parseIcmpError_returns h hicmp).avoids fun r hr => ?_
  cases r with
  | none => exact .ok trivial
  | some info =>
    refine Avoids.bind (.named (quotesServer_avoids hsafe _ _)) fun b hb => ?_
    refine Avoids.ite (fun ht => .ok ⟨h, hicmp, hr info rfl, by rw [hb, ht]⟩) fun hf => ?_
    refine Avoids.bind (.named (quotesClient_avoids hsafe _ _)) fun c hc => ?_
    refine Avoids.ite (fun ht => .ok ⟨h, hicmp, hr info rfl, ?_, by rw [hc, ht]⟩) fun _ => .ok trivial
    rw [hb, Bool.eq_false_of_not_eq_true hf]

theorem pathIpv4_avoids (hsafe : snap.LookupSafe bad dp) (h : Parsed m p) :
    Avoids bad (pathIpv4 dp snap m p) (Path.Taken dp snap m) := by
  unfold pathIpv4
  refine .ite (fun _ => .ok trivial) fun _ => .ite (fun _ => .ok trivial) fun _ => ?_
  refine .ite (pathIcmp_avoids hsafe h) fun _ => ?_
  refine .ite (fun _ => .ok trivial) fun hproto => pathL4_avoids hsafe h ?_
  tauto

/-- The path of every frame is found, and tells what the handlers rely on. -/
theorem pathOf_avoids (hsafe : snap.LookupSafe bad dp) (m : Mbuf) :
    Avoids bad (pathOf dp snap m) (Path.Taken dp snap m) := by
  unfold pathOf
  refine .ite (fun _ => .ok trivial) fun hlen => ?_
  rw [Mbuf.etherType_eq (by omega), ok_bind]
  refine .ite (fun _ => .ok trivial) fun hip => ?_
  refine Avoids.bind (parse_returns m).avoids ?_
  rintro ⟨_ | _ | _, p⟩ hp
  · obtain ⟨he, hparsed⟩ := hp rfl
    exact pathIpv4_avoids hsafe (hparsed (by rw [he]; exact not_not.mp hip))
  · exact .ok trivial
  · exact .ok trivial

end Taken

/-! ### What a frame tells the master -/

/-- The frame is ARP of kind `op` for one of our addresses, from `ip` with `mac`. -/
structure ArpFrom (dp : Dataplane) (snap : Snapshot) (m : Mbuf) (op : UInt16) (ip : IPv4Addr) (mac : MacAddr) :
    Prop where
  type : bswap16 (m.get16 12) = 0x0806
  format : isEthIpv4 m = .ok true
  kind : bswap16 (m.get16 20) = op
  senderIp : m.get32 28 = ip
  senderMac : m.getMac 22 = mac
  foreign : snap.isLocal dp.H ip = .ok false
  target : snap.isLocal dp.H (m.get32 38) = .ok true

/-- The frame is an IPv4 packet with the fields `p`, which the NIC has not found
damaged and which we have not sent. -/
structure PacketFrom (dp : Dataplane) (m : Mbuf) (p : PacketMeta) : Prop where
  type : bswap16 (m.get16 12) = 0x0800
  parsed : parse m = .ok (.ok, p)
  intact : cksumBad m = false
  foreign : p.srcMac ≠ dp.localMac

/-- The packet answers a health check, with this event. -/
structure HcAnswer (snap : Snapshot) (m : Mbuf) (p : PacketMeta) (ev : MasterEvent) : Prop where
  tcp : p.ipProtocol = 6
  dst : p.dstIp = snap.hcSrc
  range : inHcRange p.dstPort = true
  event : ev = .hcResp p.srcIp (bswap16 p.dstPort) (bswap16 p.srcPort) p.tcpFlags
    (bswap32 (m.get32 (p.l4Offset + 4))) (bswap32 (m.get32 (p.l4Offset + 8)))

/-- The event says what is in the frame. -/
def MasterEvent.Tells (dp : Dataplane) (snap : Snapshot) (m : Mbuf) : MasterEvent → Prop
  | .arpForUs ip mac => ArpFrom dp snap m 1 ip mac ∧ ip ≠ 0 ∧ dp.route.onLink ip = true
  | .arpReply ip mac => ArpFrom dp snap m 2 ip mac
  | .neighHint ip mac => (∃ p, PacketFrom dp m p ∧ p.srcIp = ip) ∧ m.getMac 6 = mac ∧ dp.route.onLink ip = true
  | .neighMiss ip => ip ≠ 0
  | ev@(.hcResp ..) => ∃ p, PacketFrom dp m p ∧ HcAnswer snap m p ev

theorem PacketFrom.isParsed {dp : Dataplane} {m : Mbuf} {p : PacketMeta} (hp : PacketFrom dp m p) : Parsed m p := by
  obtain ⟨r, hr, h⟩ := parse_returns m
  rw [hp.parsed] at hr
  obtain rfl := Except.ok.inj hr
  obtain ⟨hether, hparsed⟩ := h rfl
  exact hparsed (hether.trans hp.type)

/-! ### Work without a session -/

/-- The counters of what comes in, whatever becomes of it. -/
def Stat.arrivals : List Stat := [.arp, .icmp, .tcp, .udp, .hcResp]

/-- A worker counts what comes in and posts events with `P`, and does nothing else. -/
inductive Aside (P : MasterEvent → Prop) (w : WorkerCtx) : WorkerCtx → Prop
  | refl : Aside P w w
  | count {w' : WorkerCtx} {s : Stat} (h : Aside P w w') (hs : s ∈ Stat.arrivals) : Aside P w (w'.count s)
  | post {w' : WorkerCtx} {ev : MasterEvent} (h : Aside P w w') (hev : P ev) : Aside P w (w'.post [ev])

namespace Aside

variable {P : MasterEvent → Prop} {w w' w'' : WorkerCtx}

theorem trans (h : Aside P w w') (h' : Aside P w' w'') : Aside P w w'' := by
  induction h' with
  | refl => exact h
  | count _ hs ih => exact ih.count hs
  | post _ hev ih => exact ih.post hev

theorem same (h : Aside P w w') : SameSessions w w' := by
  induction h with
  | refl => exact .refl w
  | count _ _ ih => exact ih.trans (.count _ _)
  | post _ _ ih => exact ih.trans (.post _ _)

/-- A packet is counted where it comes in, not after it has been passed on. -/
theorem received (P : MasterEvent → Prop) (w : WorkerCtx) (redirected : Bool) {s : Stat} (hs : s ∈ Stat.arrivals) :
    Aside P w (if redirected then w else w.count s) := by
  split
  · exact .refl
  · exact .count .refl hs

end Aside

section Rest

variable {bad : Fault → Prop} {dp : Dataplane} {view : NeighView} {snap : Snapshot} {w : WorkerCtx} {m : Mbuf}
  {p : PacketMeta}

/-- The sessions are as they were, and the frame is not passed on. -/
structure Untouched (dp : Dataplane) (snap : Snapshot) (m : Mbuf) (w : WorkerCtx) (o : Outcome) : Prop where
  aside : Aside (MasterEvent.Tells dp snap m) w o.1
  verdict : o.2.2 = .send ∨ o.2.2 = .consumed ∨ ∃ e ∈ Stat.dropReasons, o.2.2 = .drop e

namespace Untouched

variable {m' : Mbuf} {o : Outcome}

theorem dropped {e : Stat} (he : e ∈ Stat.dropReasons) : Untouched dp snap m w (w, m', .drop e) :=
  ⟨.refl, Or.inr (Or.inr ⟨e, he, rfl⟩)⟩

theorem consumed {w' : WorkerCtx} (h : Aside (MasterEvent.Tells dp snap m) w w') :
    Untouched dp snap m w (w', m', .consumed) := ⟨h, Or.inr (Or.inl rfl)⟩

theorem sent {w' : WorkerCtx} (h : Aside (MasterEvent.Tells dp snap m) w w') :
    Untouched dp snap m w (w', m', .send) := ⟨h, Or.inl rfl⟩

theorem after {w' : WorkerCtx} (h : Untouched dp snap m w' o) (ha : Aside (MasterEvent.Tells dp snap m) w w') :
    Untouched dp snap m w o := ⟨ha.trans h.aside, h.verdict⟩

theorem same (h : Untouched dp snap m w o) : SameSessions w o.1 := h.aside.same

theorem not_redirected (h : Untouched dp snap m w o) (k : ℕ) : o.2.2 ≠ .redirect k := by
  rcases h.verdict with hv | hv | ⟨e, -, hv⟩ <;> simp [hv]

end Untouched

theorem echoReply_returns (h : Parsed m p) (hicmp : p.ipProtocol = 1) :
    Returns (echoReply dp m p) fun _ => True := by
  have hlen := h.icmp hicmp
  have htot := h.total_le
  have hihl := h.ihl
  have hl4 := h.l4
  unfold echoReply
  simp only [h.l3, sizeSub_eq h.l4_le, icmpCalculateChecksum]
  rw [Mbuf.store8_eq (by omega), ok_bind, Mbuf.store8_eq (by rw [Mbuf.dataLen_set8]; omega), ok_bind,
    Mbuf.store16_eq (by simp only [Mbuf.dataLen_set8]; omega), ok_bind,
    calculate_eq (by simp only [Mbuf.dataLen_set8, Mbuf.dataLen_set16]; omega), ok_bind,
    Mbuf.store16_eq (by simp only [Mbuf.dataLen_set8, Mbuf.dataLen_set16]; omega), ok_bind]
  -- from here on only the length of the frame and its IPv4 header length count
  generalize hm : ((((m.set8 p.l4Offset 0).set8 (p.l4Offset + 1) 0).set16 (p.l4Offset + 2) 0).set16
    (p.l4Offset + 2) _) = m1
  have hlen1 : m1.dataLen = m.dataLen := by rw [← hm]; rfl
  have hihl1 : m1.ihlOf 14 = m.ihlOf 14 := by
    rw [← hm]
    apply Mbuf.ihlOf_congr
    simp (disch := omega) only [Mbuf.byte_set8_of, Mbuf.byte_set16_of]
  rw [Mbuf.loadMac_eq (by omega), ok_bind, setMacs_eq (by omega), ok_bind,
    Mbuf.load32_eq (by simp only [Mbuf.dataLen_setMac]; omega), ok_bind,
    Mbuf.load32_eq (by simp only [Mbuf.dataLen_setMac]; omega), ok_bind,
    Mbuf.store32_eq (by simp only [Mbuf.dataLen_setMac]; omega), ok_bind,
    Mbuf.store32_eq (by simp only [Mbuf.dataLen_set32, Mbuf.dataLen_setMac]; omega), ok_bind,
    Mbuf.store8_eq (by simp only [Mbuf.dataLen_set32, Mbuf.dataLen_setMac]; omega), ok_bind]
  generalize hm2 : ((((m1.setMac 0 _).setMac 6 _).set32 (14 + 12) _).set32 (14 + 16) _).set8 (14 + 8) 64 = m2
  have hlen2 : m2.dataLen = m.dataLen := by rw [← hm2, ← hlen1]; rfl
  have hihl2 : m2.ihlOf 14 = m.ihlOf 14 := by
    rw [← hihl1, ← hm2]
    apply Mbuf.ihlOf_congr
    simp (disch := omega) only [Mbuf.byte_set8_of, Mbuf.byte_set32_of, Mbuf.byte_setMac_of]
  rw [ipChecksumUpdate_eq (by omega) (by omega), ok_bind]
  exact .ok trivial

/-- `r` is the ARP request `m` turned into its answer: the address that was
asked for is at `localMac`. -/
structure ArpReplyTo (m : Mbuf) (localMac : MacAddr) (r : Mbuf) : Prop where
  dataLen : r.dataLen = m.dataLen
  ethDst : r.getMac 0 = m.getMac 22
  ethSrc : r.getMac 6 = localMac
  operation : r.be16 20 = 2
  senderMac : r.getMac 22 = localMac
  senderIp : r.get32 28 = m.get32 38
  targetMac : r.getMac 32 = m.getMac 22
  targetIp : r.get32 38 = m.get32 28
  other : ∀ i, 12 ≤ i ∧ i < 20 ∨ 42 ≤ i → r.byte i = m.byte i

theorem makeReply_returns (h : 42 ≤ m.dataLen) (localMac : MacAddr) :
    Returns (makeReply m localMac) (ArpReplyTo m localMac) := by
  unfold makeReply
  simp only
  rw [Mbuf.load32_eq (by omega), ok_bind, Mbuf.loadMac_eq (by omega), ok_bind,
    Mbuf.storeMac_eq (by omega), ok_bind,
    Mbuf.storeMac_eq (by simp only [Mbuf.dataLen_setMac]; omega), ok_bind,
    Mbuf.store16_eq (by simp only [Mbuf.dataLen_setMac]; omega), ok_bind,
    Mbuf.storeMac_eq (by simp only [Mbuf.dataLen_setMac, Mbuf.dataLen_set16]; omega), ok_bind,
    Mbuf.load32_eq (by simp only [Mbuf.dataLen_setMac, Mbuf.dataLen_set16]; omega), ok_bind,
    Mbuf.store32_eq (by simp only [Mbuf.dataLen_setMac, Mbuf.dataLen_set16]; omega), ok_bind,
    Mbuf.storeMac_eq (by simp only [Mbuf.dataLen_setMac, Mbuf.dataLen_set16, Mbuf.dataLen_set32]; omega), ok_bind,
    Mbuf.store32_eq (by simp only [Mbuf.dataLen_setMac, Mbuf.dataLen_set16, Mbuf.dataLen_set32]; omega)]
  generalize hm1 : ((m.setMac 0 _).setMac 6 localMac).set16 (14 + 6) (bswap16 2) = m1
  -- the sender is read before it is written over
  have hip : (m1.setMac (14 + 18) (m.getMac (14 + 8))).get32 (14 + 14) = m.get32 28 := by
    rw [← hm1]
    refine Mbuf.get32_congr fun i hi hlt => ?_
    simp (disch := omega) only [Mbuf.byte_setMac_of, Mbuf.byte_set16_of]
  rw [hip]
  generalize hm2 : m1.setMac (14 + 18) (m.getMac (14 + 8)) = m2
  refine .ok ⟨by rw [← hm2, ← hm1]; rfl, ?_, ?_, ?_, ?_, Mbuf.get32_set32 _ _ _, ?_, ?_, fun i hi => ?_⟩
  · refine (Mbuf.getMac_congr fun i hi hlt => ?_).trans (m.getMac_setMac 0 (m.getMac 22))
    rw [← hm2, ← hm1]
    simp (disch := omega) only [Mbuf.byte_setMac_of, Mbuf.byte_set16_of, Mbuf.byte_set32_of]
  · refine (Mbuf.getMac_congr fun i hi hlt => ?_).trans ((m.setMac 0 (m.getMac 22)).getMac_setMac 6 localMac)
    rw [← hm2, ← hm1]
    simp (disch := omega) only [Mbuf.byte_setMac_of, Mbuf.byte_set16_of, Mbuf.byte_set32_of]
  · have hop : m1.get16 20 = bswap16 2 := hm1 ▸ Mbuf.get16_set16 _ _ _
    rw [← Mbuf.toNat_bswap16_get16, Mbuf.get16_congr (m := m1), hop]
    · rfl
    · rw [← hm2]
      simp (disch := omega) only [Mbuf.byte_setMac_of, Mbuf.byte_set32_of]
    · rw [← hm2]
      simp (disch := omega) only [Mbuf.byte_setMac_of, Mbuf.byte_set32_of]
  · exact (Mbuf.getMac_congr fun i hi hlt => Mbuf.byte_set32_of _ (by omega)).trans (Mbuf.getMac_setMac _ _ _)
  · refine (Mbuf.getMac_congr fun i hi hlt => ?_ : _ = m2.getMac 32).trans (hm2 ▸ Mbuf.getMac_setMac _ _ _)
    simp (disch := omega) only [Mbuf.byte_setMac_of, Mbuf.byte_set32_of]
  · refine (Mbuf.get32_congr fun i hi hlt => ?_).trans (m2.get32_set32 38 (m.get32 28))
    simp (disch := omega) only [Mbuf.byte_setMac_of, Mbuf.byte_set32_of]
  · rw [← hm2, ← hm1]
    simp (disch := omega) only [Mbuf.byte_setMac_of, Mbuf.byte_set16_of, Mbuf.byte_set32_of]

theorem isEthIpv4_returns (h : 42 ≤ m.dataLen) : Returns (isEthIpv4 m) fun _ => True := by
  unfold isEthIpv4
  rw [Mbuf.load16_eq (by omega), ok_bind, Mbuf.load16_eq (by omega), ok_bind, Mbuf.load8_eq (by omega), ok_bind,
    Mbuf.load8_eq (by omega), ok_bind]
  exact .ok trivial

/-- ARP: the master is told of the sender as the message has it. -/
theorem handleArp_avoids (hsafe : snap.LookupSafe bad dp) (htype : bswap16 (m.get16 12) = 0x0806) :
    Avoids bad (handleArp dp w snap m) (Untouched dp snap m w) := by
  unfold handleArp
  refine .ite (fun _ => .ok (.dropped (by decide))) fun hlen => ?_
  refine Avoids.mono (P := Untouched dp snap m (w.count .arp)) ?_ fun o ho => ho.after (.count .refl (by decide))
  generalize w.count .arp = w1
  obtain ⟨b, hb, -⟩ := isEthIpv4_returns (m := m) (by omega)
  rw [hb, ok_bind]
  refine .ite (fun _ => .ok (.consumed .refl)) fun hfmt => ?_
  rw [Mbuf.load32_eq (by omega), ok_bind, Mbuf.load32_eq (by omega), ok_bind]
  refine Avoids.bind (.named (hsafe.isLocal _)) fun own hown => .ite (fun _ => .ok (.consumed .refl)) fun hforeign => ?_
  refine Avoids.bind (.named (hsafe.isLocal _)) fun us hus => .ite (fun _ => .ok (.consumed .refl)) fun htarget => ?_
  obtain rfl : b = true := by simpa using hfmt
  obtain rfl : own = false := by simpa using hforeign
  obtain rfl : us = true := by simpa using htarget
  have hfrom : ∀ k, bswap16 (m.get16 20) = k → ArpFrom dp snap m k (m.get32 28) (m.getMac 22) :=
    fun k hk => ⟨htype, hb, hk, rfl, rfl, hown, hus⟩
  unfold arpForUs
  rw [Mbuf.loadMac_eq (by omega), ok_bind, Mbuf.load16_eq (by omega), ok_bind]
  refine .ite (fun h1 => ?_) fun _ => .ite (fun h2 => .ok (.consumed (.post .refl (hfrom 2 h2)))) fun _ =>
    .ok (.consumed .refl)
  refine Avoids.bind (makeReply_returns (by omega) _).avoids fun m' _ => .ok (.sent ?_)
  split
  · rename_i hsender
    rw [Bool.and_eq_true] at hsender
    exact .post .refl ⟨hfrom 1 h1, by simpa using hsender.1, hsender.2⟩
  · exact .refl

theorem unserved_avoids (hsafe : snap.LookupSafe bad dp) (dst : IPv4Addr) :
    Avoids bad (do return (w, m, ← unserved dp snap dst)) (Untouched dp snap m w) := by
  have h : Avoids bad (unserved dp snap dst) fun r => ∃ e ∈ Stat.dropReasons, r = .drop e := by
    refine Avoids.bind (.named (hsafe.isLocal dst)) fun b _ => .ok ⟨_, ?_, rfl⟩
    cases b <;> decide
  refine Avoids.bind h ?_
  rintro r ⟨e, he, rfl⟩
  exact .ok (.dropped he)

/-- The answer to a health check. -/
theorem handleHcResponse_returns (hp : PacketFrom dp m p) (hdst : p.dstIp = snap.hcSrc)
    (hrange : inHcRange p.dstPort = true) : Returns (handleHcResponse w m p) (Untouched dp snap m w) := by
  unfold handleHcResponse
  split
  · exact .ok (.dropped (by decide))
  · rename_i htcp
    obtain ⟨hdoff, hpay, hle, -⟩ := hp.isParsed.tcp (not_not.mp htcp)
    have htot := hp.isParsed.total_le
    rw [Mbuf.load32_eq (by omega), ok_bind, Mbuf.load32_eq (by omega), ok_bind]
    exact .ok (.consumed (.count (.post .refl ⟨p, hp, not_not.mp htcp, hdst, hrange, rfl⟩) (by decide)))

end Rest

/-! ### The paths of the handlers -/

section Handlers

variable {bad : Fault → Prop} {dp : Dataplane} {view : NeighView} {snap : Snapshot} {w w' : WorkerCtx} {m : Mbuf}
  {p : PacketMeta} {redirected : Bool} {path : Path} {k : ℕ}

/-- What `process_packet` does on a path that belongs to a worker. -/
def Path.run (dp : Dataplane) (view : NeighView) (snap : Snapshot) (w : WorkerCtx) (m : Mbuf) (redirected : Bool)
    (path : Path) (k : ℕ) : Except Fault Outcome :=
  if k ≠ w.idx then .ok (w, m, notOwner redirected k) else path.atOwner dp view snap w m redirected

/-- What a handler does on the path of the packet: it fails if there is none, it
leaves the sessions alone if they are not needed, and otherwise it is the owner's
work or passes the frame on to the owner. -/
inductive OnPath (bad : Fault → Prop) (dp : Dataplane) (view : NeighView) (snap : Snapshot) (m : Mbuf)
    (redirected : Bool) (w : WorkerCtx) : Except Fault Path → Except Fault Outcome → Prop
  | fault {e : Fault} (he : ¬ bad e) : OnPath bad dp view snap m redirected w (.error e) (.error e)
  | rest {x : Except Fault Outcome} (h : Avoids bad x (Untouched dp snap m w)) :
      OnPath bad dp view snap m redirected w (.ok .rest) x
  | owned {path : Path} {k : ℕ} {w' : WorkerCtx} (hk : path.owner dp = some k)
      (hfrom : ∀ p svc, path = .inbound p svc → PacketFrom dp m p)
      (ha : Aside (MasterEvent.Tells dp snap m) w w') :
      OnPath bad dp view snap m redirected w (.ok path) (path.run dp view snap w' m redirected k)

namespace OnPath

variable {α : Type} {c : Prop} {_ : Decidable c} {r r' : Except Fault Path} {x x' : Except Fault Outcome}

theorem bind {v : Except Fault α} {f : α → Except Fault Path} {g : α → Except Fault Outcome}
    (hv : ∀ e, v = .error e → ¬ bad e)
    (h : ∀ a, v = .ok a → OnPath bad dp view snap m redirected w (f a) (g a)) :
    OnPath bad dp view snap m redirected w (v >>= f) (v >>= g) := by
  cases v with
  | error e => exact .fault (hv e rfl)
  | ok a => exact h a rfl

theorem ite (h : c → OnPath bad dp view snap m redirected w r x)
    (h' : ¬ c → OnPath bad dp view snap m redirected w r' x') :
    OnPath bad dp view snap m redirected w (if c then r else r') (if c then x else x') := by
  split
  · exact h ‹_›
  · exact h' ‹_›

theorem after (h : OnPath bad dp view snap m redirected w' r x) (ha : Aside (MasterEvent.Tells dp snap m) w w') :
    OnPath bad dp view snap m redirected w r x := by
  cases h with
  | fault he => exact .fault he
  | rest h => exact .rest (h.mono fun o ho => ho.after ha)
  | owned hk hfrom ha' => exact .owned hk hfrom (ha.trans ha')

/-- What holds after every work without a session and of every path that belongs to
a worker holds of the handler. -/
theorem avoids {Q : Outcome → Prop} (h : OnPath bad dp view snap m redirected w r x)
    (hrest : r = .ok .rest → ∀ o, Untouched dp snap m w o → Q o)
    (howned : ∀ path k w', r = .ok path → path.owner dp = some k →
      (∀ p svc, path = .inbound p svc → PacketFrom dp m p) → Aside (MasterEvent.Tells dp snap m) w w' →
      Avoids bad (path.run dp view snap w' m redirected k) Q) : Avoids bad x Q := by
  cases h with
  | fault he => exact .error he
  | rest h => exact h.mono (hrest rfl)
  | owned hk hfrom ha => exact howned _ _ _ rfl hk hfrom ha

theorem ensures {Q : Outcome → Prop} (h : OnPath bad dp view snap m redirected w r x)
    (hrest : r = .ok .rest → ∀ o, Untouched dp snap m w o → Q o)
    (howned : ∀ path k w', r = .ok path → path.owner dp = some k →
      (∀ p svc, path = .inbound p svc → PacketFrom dp m p) → Aside (MasterEvent.Tells dp snap m) w w' →
      Ensures (path.run dp view snap w' m redirected k) Q) : Ensures x Q := by
  cases h with
  | fault he => exact .error
  | rest h => exact fun o ho => hrest rfl o (h.2 o ho)
  | owned hk hfrom ha => exact howned _ _ _ rfl hk hfrom ha

end OnPath

theorem processL4_onPath (hsafe : snap.LookupSafe bad dp) (hp : PacketFrom dp m p) :
    OnPath bad dp view snap m redirected w (pathL4 dp snap p) (processL4 dp view w snap m p redirected) := by
  unfold pathL4 processL4
  refine .bind (isReturn_avoids hsafe) fun b _ => .ite (fun _ => .owned rfl (by simp) .refl) fun _ => ?_
  refine .ite (fun hhc => .rest (handleHcResponse_returns hp hhc.1 hhc.2).avoids) fun _ => ?_
  refine .bind (hsafe.findService _ _ _) fun found _ => ?_
  cases found with
  | none => exact .rest (unserved_avoids hsafe _)
  | some svc =>
    refine .owned rfl ?_ .refl
    rintro q svc' ⟨⟩
    exact hp

theorem handleIcmp_onPath (hsafe : snap.LookupSafe bad dp) (h : Parsed m p) (hicmp : p.ipProtocol = 1)
    (ha : Aside (MasterEvent.Tells dp snap m) w w') :
    OnPath bad dp view snap m redirected w (pathIcmp dp snap m p) (do
      if !(← snap.isLocal dp.H p.dstIp) then return (w, m, .drop .dropNotLocal)
      handleIcmp dp view w' snap m p redirected) := by
  have hlen := h.icmp hicmp
  have htot := h.total_le
  unfold pathIcmp handleIcmp
  refine .bind (hsafe.isLocal _) fun b _ => .ite (fun _ => .rest (.ok (.dropped (by decide)))) fun _ => .after ?_ ha
  rw [Mbuf.load8_eq (by omega), ok_bind, ok_bind]
  by_cases herr : icmpIsError (m.byte p.l4Offset) = true
  · simp only [herr, Bool.not_true, Bool.false_eq_true, ↓reduceIte]
    unfold handleIcmpError
    refine .bind (parseIcmpError_returns h hicmp).avoids.1 fun r _ => ?_
    cases r with
    | none => exact .rest (.ok (.dropped (by decide)))
    | some info =>
      refine .bind (quotesServer_avoids hsafe _ _) fun a _ => .ite (fun _ => .owned rfl (by simp) .refl) fun _ => ?_
      refine .bind (quotesClient_avoids hsafe _ _) fun a _ => .ite (fun _ => .owned rfl (by simp) .refl) fun _ => ?_
      exact .rest (.ok (.dropped (by decide)))
  · rw [if_pos (by simpa using herr), if_neg herr]
    refine .rest (.ite (fun _ => .ok (.dropped (by decide))) fun _ => ?_)
    exact Avoids.bind (echoReply_returns h hicmp).avoids fun m' _ => .ok (.sent .refl)

theorem processIpv4_onPath (hsafe : snap.LookupSafe bad dp) (htype : bswap16 (m.get16 12) = 0x0800)
    (hparse : parse m = .ok (.ok, p)) :
    OnPath bad dp view snap m redirected w (pathIpv4 dp snap m p) (processIpv4 dp view w snap m p redirected) := by
  unfold pathIpv4 processIpv4
  refine .ite (fun _ => .rest (.ok (.dropped (by decide)))) fun hck => ?_
  refine .ite (fun _ => .rest (.ok (.consumed .refl))) fun hmac => ?_
  have hp : PacketFrom dp m p := ⟨htype, hparse, by simpa using hck, hmac⟩
  refine .ite (fun h1 => handleIcmp_onPath hsafe hp.isParsed h1 (.received _ w _ (by decide))) fun _ => ?_
  refine .ite (fun _ => .rest (unserved_avoids hsafe _)) fun _ => .after (processL4_onPath hsafe hp) ?_
  refine .received _ w _ ?_
  split <;> decide

/-- **`process_packet` is on the path of its packet.** -/
theorem processPacket_onPath (hsafe : snap.LookupSafe bad dp) (view : NeighView) (w : WorkerCtx) (m : Mbuf)
    (redirected : Bool) :
    OnPath bad dp view snap m redirected w (pathOf dp snap m) (processPacket dp view w snap m redirected) := by
  unfold pathOf processPacket
  refine .ite (fun _ => .rest (.ok (.dropped (by decide)))) fun hlen => ?_
  rw [Mbuf.etherType_eq (by omega), ok_bind, ok_bind]
  by_cases harp : bswap16 (m.get16 12) = 0x0806
  · rw [if_pos (by rw [harp]; decide), if_pos harp]
    exact .rest (handleArp_avoids hsafe harp)
  rw [if_neg harp]
  refine .ite (fun _ => .rest (.ok (.dropped (by decide)))) fun hip => .bind (parse_returns m).avoids.1 fun x hx => ?_
  obtain ⟨res, p⟩ := x
  cases res with
  | ok => exact processIpv4_onPath hsafe (not_not.mp hip) hx
  | malformed => exact .rest (.ok (.dropped (by decide)))
  | fragment => exact .rest (.ok (.dropped (by decide)))

/-- The faults are left open. -/
theorem Snapshot.safe_none (dp : Dataplane) (snap : Snapshot) : snap.Safe (fun _ => False) dp :=
  ⟨⟨fun _ _ _ => id, fun _ _ _ => id, fun _ _ _ => id, fun _ _ _ _ _ => id⟩, False.elim,
    fun _ _ _ _ => False.elim, fun _ _ _ _ => False.elim, False.elim⟩

/-- **`process_packet` on a path that belongs to a worker**: the owner does
its work, another worker passes the frame on. -/
theorem processPacket_path (view : NeighView) (w : WorkerCtx) (redirected : Bool)
    (h : pathOf dp snap m = .ok path) (hk : path.owner dp = some k) :
    ∃ w', SameSessions w w' ∧
      processPacket dp view w snap m redirected = path.run dp view snap w' m redirected k := by
  have hon := processPacket_onPath (snap.safe_none dp).toLookupSafe view w m redirected
  rw [h] at hon
  generalize processPacket dp view w snap m redirected = x at hon
  cases hon with
  | rest => cases hk
  | owned hk' hfrom ha =>
    obtain rfl := Option.some.inj (hk.symm.trans hk')
    exact ⟨_, ha.same, rfl⟩

end Handlers

/-! ### Every packet -/

section Packet

variable {bad : Fault → Prop} {dp : Dataplane} {view : NeighView} {snap : Snapshot} {w : WorkerCtx} {m : Mbuf}
  {path : Path} {k : ℕ}

/-- What the owner of a path has done. -/
def Path.Done (dp : Dataplane) (snap : Snapshot) (w : WorkerCtx) (m : Mbuf) (o : Outcome) : Path → Prop
  | inbound p svc => InboundPost dp snap svc w m p o
  | fromServer p => OnSession w p.toFiveTuple (ReturnsTo snap p.toFiveTuple)
      (fun s => Carries p s.client.reverse) o
  | errorToClient _ info => OnSession w info.inner.reverse (·.server = info.inner.reverse) (fun _ _ => True) o
  | errorToServer _ info => OnSession w info.inner.reverse (QuotedBy snap info.inner.reverse) (fun _ _ => True) o
  | rest => Untouched dp snap m w o

/-- What has come of a packet on its path: it is done if the path belongs to
no worker or to this one, and passed on if it belongs to another. -/
structure Processed (dp : Dataplane) (snap : Snapshot) (w : WorkerCtx) (m : Mbuf) (redirected : Bool)
    (path : Path) (o : Outcome) : Prop where
  taken : path.Taken dp snap m
  result : ((∀ k, path.owner dp = some k → k = w.idx) ∧ path.Done dp snap w m o) ∨
    ∃ k, path.owner dp = some k ∧ k ≠ w.idx ∧ SameSessions w o.1 ∧ o.2 = (m, notOwner redirected k)

theorem notOwner_ne_send (redirected : Bool) (k : ℕ) : notOwner redirected k ≠ .send := by
  cases redirected <;> simp [notOwner]

/-- A packet that is sent is not another worker's. -/
theorem Processed.sent {redirected : Bool} {o : Outcome} (h : Processed dp snap w m redirected path o)
    (hsend : o.2.2 = .send) : (∀ k, path.owner dp = some k → k = w.idx) ∧ path.Done dp snap w m o := by
  rcases h.result with hdone | ⟨k, -, -, -, he⟩
  · exact hdone
  · rw [he] at hsend
    exact absurd hsend (notOwner_ne_send redirected k)

theorem Snapshot.findService_mem {H : HashFns} {vip : IPv4Addr} {portBe : Port} {proto : UInt8} {svc : Service}
    (h : snap.findService H vip portBe proto = .ok (some svc)) : svc ∈ snap.services := by
  unfold Snapshot.findService at h
  split at h
  · simp at h
  split at h
  · simp at h
  split at h
  · rename_i hs
    obtain rfl : _ = svc := by simpa using h
    exact List.mem_of_getElem? hs
  · simp at h

theorem Path.Done.of_aside {w' : WorkerCtx} {o : Outcome} (ha : Aside (MasterEvent.Tells dp snap m) w w')
    (h : path.Done dp snap w' m o) : path.Done dp snap w m o := by
  cases path with
  | inbound p svc => exact InboundPost.of_same ha.same h
  | fromServer p => exact OnSession.of_same ha.same h
  | errorToClient p info => exact OnSession.of_same ha.same h
  | errorToServer p info => exact OnSession.of_same ha.same h
  | rest => exact Untouched.after h ha

theorem WorkerCtx.Safe.of_same {w' : WorkerCtx} (hs : SameSessions w w') (h : w.Safe bad) : w'.Safe bad := by
  intro k i hi
  rw [hs.session]
  exact h k i (hs.sessions ▸ hi)

theorem Path.atOwner_avoids (ht : path.Taken dp snap m) (hsafe : snap.Safe bad dp) (hw : w.Safe bad)
    (redirected : Bool) : Avoids bad (path.atOwner dp view snap w m redirected) (path.Done dp snap w m) := by
  cases path with
  | inbound p svc =>
    obtain ⟨h, hproto, -, -, hf⟩ := ht
    exact inboundAtOwner_avoids h hproto hsafe (Snapshot.findService_mem hf) hw redirected
  | fromServer p => exact returnAtOwner_avoids ht.1 ht.2.1 hw
  | errorToClient p info => exact icmpToClient_avoids ht.1 ht.2.2.1
  | errorToServer p info => exact icmpToServer_avoids ht.1 ht.2.2.1
  | rest => exact .ok (.consumed .refl)

/-- **Every packet** takes its path without the faults that the snapshot and
the worker keep away. -/
theorem processPacket_avoids (hsafe : snap.Safe bad dp) (hw : w.Safe bad) (view : NeighView) (m : Mbuf)
    (redirected : Bool) :
    Avoids bad (processPacket dp view w snap m redirected) fun o =>
      ∀ path, pathOf dp snap m = .ok path → Processed dp snap w m redirected path o := by
  have hpath := pathOf_avoids hsafe.toLookupSafe m
  refine (processPacket_onPath hsafe.toLookupSafe view w m redirected).avoids (fun hp o ho path hp' => ?_)
    fun path k w' hp hk _ ha => ?_
  · obtain rfl := Except.ok.inj (hp.symm.trans hp')
    exact ⟨trivial, Or.inl ⟨fun k hk => (nomatch hk), ho⟩⟩
  have ht := hpath.2 path hp
  refine .ite (fun hne => .ok fun path' hp' => ?_) fun heq => ?_
  · obtain rfl := Except.ok.inj (hp.symm.trans hp')
    exact ⟨ht, Or.inr ⟨k, hk, ha.same.idx ▸ hne, ha.same, rfl⟩⟩
  · refine (Path.atOwner_avoids ht hsafe (hw.of_same ha.same) redirected).mono fun o ho path' hp' => ?_
    obtain rfl := Except.ok.inj (hp.symm.trans hp')
    refine ⟨ht, Or.inl ⟨fun k' hk' => ?_, ho.of_aside ha⟩⟩
    rw [← Option.some.inj (hk.symm.trans hk'), ← ha.same.idx]
    exact not_not.mp heq

/-- No snapshot and no worker makes a frame access go wrong. -/
theorem Snapshot.safe_ofFrame (dp : Dataplane) (snap : Snapshot) : snap.Safe Fault.OfFrame dp := by
  have hset : ∀ (set : ℕ → IPv4Addr) ip e, Snapshot.setHas dp.H set ip = .error e → ¬ e.OfFrame := by
    intro set ip e he
    unfold Snapshot.setHas at he
    split at he
    · simp at he
    · exact Except.error.inj he ▸ id
  refine ⟨⟨fun _ => hset _ _, fun _ => hset _ _, fun _ => hset _ _, fun vip portBe proto e he => ?_⟩,
    False.elim, fun _ _ _ _ => False.elim, fun _ _ _ _ => False.elim, False.elim⟩
  unfold Snapshot.findService at he
  split at he
  · exact Except.error.inj he ▸ id
  split at he
  · simp at he
  split at he
  · simp at he
  · exact Except.error.inj he ▸ id

/-- **Frames stay in bounds.** Whatever the bytes of a frame are, neither
`process_packet`, in any state of the worker and with any snapshot, nor the
receiver accesses a byte behind it, or stores a length or an offset that its
field does not hold. -/
theorem processPacket_in_frame (dp : Dataplane) (view : NeighView) (w : WorkerCtx) (snap : Snapshot) (m : Mbuf)
    (redirected : Bool) :
    (∀ e, processPacket dp view w snap m redirected = .error e → ¬ e.OfFrame) ∧
      ∀ d : Dispatcher, Returns (d.target dp.H m) fun k => k < d.st.n :=
  ⟨(processPacket_avoids (snap.safe_ofFrame dp) (fun _ _ _ => False.elim) view m redirected).1,
    fun d => d.target_returns dp.H m⟩

end Packet

end L4Lb
