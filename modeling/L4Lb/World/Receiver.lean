/-
# The receiver and the workers agree

In pipeline mode a receiver takes the frames from the port and gives each one to
a worker. It reads the frame by itself, before any check, and has its own copy
of the local addresses (`Dispatcher::target`); the worker parses the frame and
asks its snapshot (`process_packet`). Here the two are compared: on a packet of
a client or of a real server they come to the same worker, so that no such
packet has to be passed on (`receiver_agrees`). Only 0.0.0.0 is left out, which
a snapshot takes for a local address and the receiver does not.
-/
import L4Lb.Snapshot.Answers
import L4Lb.World.Owners

open Checked

namespace L4Lb

/-- The receiver's view of the data plane. -/
def Dataplane.dispatcher (dp : Dataplane) : Dispatcher := Dispatcher.init dp.steering dp.cfg.mode dp.cfg.localIps

/-- The packet of a path for TCP or UDP. -/
def Path.l4 : Path → Option PacketMeta
  | inbound p _ | fromServer p => some p
  | errorToClient _ _ | errorToServer _ _ | rest => none

section Receiver

variable {dp : Dataplane} {snap : Snapshot} {m : Mbuf} {p : PacketMeta} {path : Path}

theorem Path.Taken.l4 (h : path.Taken dp snap m) (hl : path.l4 = some p) :
    Parsed m p ∧ (p.ipProtocol = 6 ∨ p.ipProtocol = 17) := by
  cases path with
  | inbound q svc =>
    obtain rfl := Option.some.inj hl
    exact ⟨h.1, h.2.1⟩
  | fromServer q =>
    obtain rfl := Option.some.inj hl
    exact ⟨h.1, h.2.1⟩
  | errorToClient q info => cases hl
  | errorToServer q info => cases hl
  | rest => cases hl

theorem ipv4_of_pathOf (h : pathOf dp snap m = .ok path) (hl : path.l4 = some p) :
    14 ≤ m.dataLen ∧ bswap16 (m.get16 12) = 0x0800 := by
  have hne : pathOf dp snap m ≠ .ok .rest := by
    rw [h]
    rintro ⟨⟩
    cases hl
  unfold pathOf at hne
  by_cases hlen : m.dataLen < 14
  · exact absurd (if_pos hlen) hne
  rw [if_neg hlen, Mbuf.etherType_eq (by omega), ok_bind] at hne
  refine ⟨not_lt.mp hlen, ?_⟩
  by_contra hip
  exact hne (if_pos hip)

theorem Parsed.l4_fits (h : Parsed m p) (hproto : p.ipProtocol = 6 ∨ p.ipProtocol = 17) :
    14 + m.ihlOf 14 + 4 ≤ m.dataLen := by
  have hl4 := h.l4
  have htot := h.total_le
  rcases hproto with htcp | hudp
  · obtain ⟨hdoff, hpay, hle, -⟩ := h.tcp htcp
    omega
  · obtain ⟨hlen, hle, -⟩ := h.udp hudp
    omega

/-- On a packet that the worker parses, the receiver finds the same tuple. -/
theorem Dispatcher.target_parsed (H : HashFns) (d : Dispatcher) (h : Parsed m p) (hip : bswap16 (m.get16 12) = 0x0800)
    (hproto : p.ipProtocol = 6 ∨ p.ipProtocol = 17) :
    d.target H m = .ok (if d.fullnat && inNatRange p.dstPort && d.isLip p.dstIp then d.st.retOwner H p.toFiveTuple
      else d.st.fwdOwner H p.toFiveTuple) := by
  by_cases hn : d.st.n = 1
  · -- a single worker owns everything
    rw [target, if_pos hn, Steering.retOwner, if_pos hn, Steering.fwdOwner, if_pos hn, ite_self]
    rfl
  have hfit := h.l4_fits hproto
  have hihl := h.ihl
  obtain ⟨hsport, hdport⟩ := h.ports hproto
  have hl4 : (m.byte 23 = 6 ∨ m.byte 23 = 17) ∧ (bswap16 (m.get16 20)).toNat % 16384 = 0 ∧ m.ihlOf 14 ≥ 20 ∧
      m.dataLen ≥ 14 + m.ihlOf 14 + 4 := ⟨h.protocol ▸ hproto, h.unfragmented, hihl, hfit⟩
  have htuple : p.toFiveTuple = ⟨m.get32 26, m.get32 30, m.get16 (14 + m.ihlOf 14), m.get16 (14 + m.ihlOf 14 + 2),
      m.byte 23⟩ := by
    rw [PacketMeta.toFiveTuple, h.srcIp, h.dstIp, hsport, hdport, h.l4, h.protocol]
  rw [htuple, h.dstIp, hdport, h.l4]
  unfold target
  simp only [pure_eq_ok]
  rw [if_neg hn, if_neg (by omega), Mbuf.etherType_eq (by omega), ok_bind, if_neg (not_not.mpr hip),
    Mbuf.ipHeaderLen_eq (by omega), ok_bind, Mbuf.load16_eq (by omega), ok_bind, Mbuf.load8_eq (by omega), ok_bind,
    Mbuf.load32_eq (by omega), ok_bind, Mbuf.load32_eq (by omega), ok_bind,
    if_neg (by simp only [hl4, and_self, decide_true, Bool.not_true]; decide),
    Mbuf.load16_eq (by omega), ok_bind, Mbuf.load16_eq (by omega), ok_bind]
  split <;> rfl

/-- The receiver's copy of the local addresses has what the snapshots have,
apart from 0.0.0.0. -/
theorem Dataplane.dispatcher_return (hd : p.dstIp ≠ 0) :
    (dp.dispatcher.fullnat && inNatRange p.dstPort && dp.dispatcher.isLip p.dstIp) = true ↔
      dp.cfg.ReturnTo p.dstIp p.dstPort := by
  simp only [dispatcher, Dispatcher.init, Dispatcher.isLip, Bool.and_eq_true, decide_eq_true_eq, List.contains_iff_mem,
    List.mem_mergeSort, LbConfig.ReturnTo, LbConfig.IsLip]
  tauto

theorem Path.Taken.owner_eq (hb : snap.Built dp.H dp.cfg) (h : path.Taken dp snap m) (hl : path.l4 = some p)
    (hd : p.dstIp ≠ 0) :
    path.owner dp = some (if dp.dispatcher.fullnat && inNatRange p.dstPort && dp.dispatcher.isLip p.dstIp
      then dp.steering.retOwner dp.H p.toFiveTuple else dp.steering.fwdOwner dp.H p.toFiveTuple) := by
  cases path with
  | inbound q svc =>
    obtain rfl := Option.some.inj hl
    have hno := hb.noReturn h
    rw [if_neg (mt (Dataplane.dispatcher_return hd).mp hno), Path.owner]
  | fromServer q =>
    obtain rfl := Option.some.inj hl
    obtain ⟨b, hr, hiff⟩ := hb.isReturn_iff q
    rw [h.2.2] at hr
    rw [if_pos ((Dataplane.dispatcher_return hd).mpr (hiff.mp (Except.ok.inj hr).symm)), Path.owner]
  | errorToClient q info => cases hl
  | errorToServer q info => cases hl
  | rest => cases hl

/-- **The receiver gives a packet to its owner.** For every accepted
configuration, number of workers and published snapshot, and every frame: the
receiver picks one of the workers; and if `process_packet` takes the frame for
TCP or UDP from a client or a real server, to an address other than 0.0.0.0,
that worker is the owner it computes from the parsed tuple. So there the packet
is not passed on to another worker. -/
theorem receiver_agrees (hcfg : Config.Accepted dp.cfg) (hs : Snapshot.Published dp.H dp.cfg snap) (m : Mbuf) :
    (∃ k, dp.dispatcher.target dp.H m = .ok k ∧ k < dp.steering.n) ∧
    ∀ path p, pathOf dp snap m = .ok path → path.l4 = some p → m.get32 30 ≠ 0 →
      ∃ k, path.owner dp = some k ∧ dp.dispatcher.target dp.H m = .ok k ∧ ∀ w, ServedBy dp snap w m k path ∧
        (w.idx = k → ∀ view redirected o, processPacket dp view w snap m redirected = .ok o →
          ∀ j, o.2.2 ≠ .redirect j) := by
  have hb := hs.built hcfg.valid
  refine ⟨?_, fun path p hp hl hd => ?_⟩
  · obtain ⟨k, hk, hlt⟩ := dp.dispatcher.target_returns dp.H m
    exact ⟨k, hk, hlt⟩
  have ht : path.Taken dp snap m := by
    obtain ⟨path', hp', ht⟩ := hb.pathOf_returns m
    rw [hp] at hp'
    exact Except.ok.inj hp' ▸ ht
  obtain ⟨hparsed, hproto⟩ := ht.l4 hl
  obtain ⟨-, hip⟩ := ipv4_of_pathOf hp hl
  have ho := ht.owner_eq hb hl (hparsed.dstIp ▸ hd)
  refine ⟨_, ho, Dispatcher.target_parsed dp.H dp.dispatcher hparsed hip hproto, fun w => ?_⟩
  have hserved := servedBy (w := w) hp ho
  refine ⟨hserved, fun hw view redirected o hok j hj => ?_⟩
  rcases (hserved.2 view redirected).2 hw.symm o hok with h | ⟨reason, -, h⟩ <;> rw [hj] at h <;> cases h

end Receiver

/-- The query of a client, for two workers. -/
theorem receiver_agrees_query : ∃ snap, Snapshot.Published demo.H demo.cfg snap ∧
    demo.dispatcher.target demo.H queryFrame = .ok 0 ∧ ∃ path, path.key = some queryTuple ∧
      ∀ w, ServedBy demo snap w queryFrame 0 path := by
  obtain ⟨snap, hs, path, hp, hl, hkey⟩ := exists_published (P := fun snap =>
    Returns (pathOf demo snap queryFrame) fun path => path.l4.isSome = true ∧ path.key = some queryTuple)
    (by decide +kernel)
  obtain ⟨p, hl⟩ := Option.isSome_iff_exists.mp hl
  obtain ⟨k, -, ht, hserved⟩ := (receiver_agrees demo_accepted hs queryFrame).2 path p hp hl (by decide)
  have h0 : demo.dispatcher.target demo.H queryFrame = .ok 0 := rfl
  obtain rfl : k = 0 := Except.ok.inj (ht.symm.trans h0)
  exact ⟨snap, hs, h0, path, hkey, fun w => (hserved w).1⟩

end L4Lb
