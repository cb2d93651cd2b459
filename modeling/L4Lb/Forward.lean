/-
# Rewriting frames

`include/forward/nat_forwarder.h` and `src/forward/nat_forwarder.cpp`: the
FULLNAT rewrite with its TCP option edits, the DR rewrite and the translation
of ICMP errors. A rewrite takes the frame and returns the new one.
-/
import L4Lb.Checksum
import L4Lb.TcpState

namespace L4Lb

structure NatRewrite where
  srcIp : IPv4Addr
  dstIp : IPv4Addr
  srcPort : Port
  dstPort : Port
  srcMac : MacAddr
  dstMac : MacAddr

/-- `txTcpCksum` and `txUdpCksum` are the two bits of `tx_offloads` that a build
with `L4LB_HW_CKSUM` reads; a build without it takes them for 0. -/
structure NatOptions where
  stripTs : Bool := false
  addToa : Bool := false
  toaIp : IPv4Addr := 0
  toaPort : Port := 0
  txTcpCksum : Bool := false
  txUdpCksum : Bool := false
  mtu : ℕ := 1500

inductive RewriteResult
  | ok
  | ttlExceeded
  deriving DecidableEq, Repr

structure RewriteOutcome where
  tsStripped : Bool := false
  toaAdded : Bool := false
  toaNoRoom : Bool := false
  deriving DecidableEq, Repr

/-! ### TCP options -/

/-- The loop of `strip_timestamp` over the options from `opt` up to `stop`. -/
def stripLoop (stop : ℕ) : ℕ → Mbuf → ℕ → Bool → Except Fault (Mbuf × Bool)
  | 0, _, _, _ => throw .endless
  | fuel + 1, m, opt, changed => do
    if opt ≥ stop then return (m, changed)
    let kind ← m.load8 opt
    if kind = 0 then return (m, changed)
    if kind = 1 then stripLoop stop fuel m (opt + 1) changed
    else
      if opt + 1 ≥ stop then return (m, changed)
      let len := (← m.load8 (opt + 1)).toNat
      -- an illegal option length ends the walk
      if len < 2 ∨ opt + len > stop then return (m, changed)
      let m ← if kind = 8 then m.fill opt len 1 else pure m
      -- read again: behind a timestamp it is a NOP by now
      let step := (← m.load8 (opt + 1)).toNat
      stripLoop stop fuel m (opt + step) (changed || kind == 8)

/-- `strip_timestamp`, of the TCP header at `tcp`. Each turn goes at least one
byte on. -/
def stripTimestamp (m : Mbuf) (tcp : ℕ) : Except Fault (Mbuf × Bool) := do
  let headerLen ← m.tcpHeaderLen tcp
  stripLoop (tcp + headerLen) (headerLen + 1) m (tcp + 20) false

/-- The second half of `insert_toa`: the frame has 8 more bytes at its end. -/
def writeToa (m : Mbuf) (p : PacketMeta) (ip : IPv4Addr) (port : Port) (doff ipLen : ℕ) :
    Except Fault (Mbuf × PacketMeta) := do
  let opt := p.l4Offset + 20
  let m ← m.move (opt + 8) opt (sizeSub (p.l3Offset + ipLen) opt)
  let m ← m.store8 opt 254
  let m ← m.store8 (opt + 1) 8
  let m ← m.store16 (opt + 2) port
  let m ← m.store32 (opt + 4) ip
  -- `set_header_len`
  let dataOffset ← m.load8 (p.l4Offset + 12)
  let m ← m.store8 (p.l4Offset + 12) (UInt8.ofNat ((doff + 8) / 4 * 16 + dataOffset.toNat % 16))
  let m ← m.store16 (p.l3Offset + 2) (bswap16 (UInt16.ofNat (ipLen + 8)))
  let total ← narrow (p.totalLen + 8)
  let payload ← narrow (p.payloadOffset + 8)
  return (m, { p with totalLen := total, payloadOffset := payload })

/-- `insert_toa`: the frame, the offsets and whether the option is in. The
padding of the frame is cut off before it is known that there is room. -/
def insertToa (m : Mbuf) (p : PacketMeta) (ip : IPv4Addr) (port : Port) (mtu : ℕ) :
    Except Fault (Mbuf × PacketMeta × Bool) := do
  let doff ← m.tcpHeaderLen p.l4Offset
  let ipLen ← m.ipTotalLength p.l3Offset
  if doff + 8 > 60 ∨ ipLen + 8 > mtu ∨ m.contiguous = false then return (m, p, false)
  let frameLen := p.l3Offset + ipLen
  let m := if m.dataLen > frameLen then m.trim (m.dataLen - frameLen) else m
  match m.append 8 with
  | none => return (m, p, false)
  | some m =>
    let (m, p) ← writeToa m p ip port doff ipLen
    return (m, p, true)

/-! ### FULLNAT -/

/-- `rte_ipv4_phdr_cksum`: the folded sum of the pseudo header. -/
def phdrCksum (m : Mbuf) (ip : ℕ) : Except Fault UInt16 := do
  let len := sizeSub (← m.ipTotalLength ip) (← m.ipHeaderLen ip)
  let sum := L4Checksum.calculatePseudoHeaderSum (← m.load32 (ip + 12)) (← m.load32 (ip + 16))
    (← m.load8 (ip + 9)) (UInt16.ofNat len)
  return UInt16.ofNat (OnesComplement.fold sum)

/-- The frame with the lengths and flags of a TX offload. -/
def Mbuf.withOffload (m : Mbuf) (l2 l3 l4 : ℕ) (flags : OlFlags) : Mbuf :=
  { m with l2Len := l2, l3Len := l3, l4Len := l4, olFlags := flags }

/-- `m->ol_flags = 0`, and `clear_tx_offload`. -/
def clearTxOffload (m : Mbuf) : Mbuf := { m with olFlags := {} }

/-- `l4_checksum_full`, where the NIC completes the checksum. -/
def l4ChecksumOffload (m : Mbuf) (p : PacketMeta) (ip l4 : ℕ) (tcp : Bool) : Except Fault Mbuf := do
  let ihl ← m.ipHeaderLen ip
  let ph ← phdrCksum m ip
  if tcp then
    let doff ← m.tcpHeaderLen l4
    (m.withOffload p.l3Offset ihl doff { txTcp := true }).store16 (l4 + 16) ph
  else (m.withOffload p.l3Offset ihl 8 { txUdp := true }).store16 (l4 + 6) ph

/-- `l4_checksum_full`. -/
def l4ChecksumFull (m : Mbuf) (p : PacketMeta) (ip l4 : ℕ) (opt : NatOptions) : Except Fault Mbuf := do
  let tcp := decide ((← m.load8 (ip + 9)) = 6)
  if if tcp then opt.txTcpCksum else opt.txUdpCksum then l4ChecksumOffload m p ip l4 tcp
  else if tcp then
    let len := sizeSub (← m.ipTotalLength ip) (← m.ipHeaderLen ip)
    L4Checksum.recalculateTcpChecksum (clearTxOffload m) ip l4 len
  else L4Checksum.recalculateUdpChecksum (clearTxOffload m) ip l4

/-- `opt.strip_ts && (tcp->flags & TCP_SYN) && strip_timestamp(tcp)`. -/
def stripOption (m : Mbuf) (tcp : ℕ) (opt : NatOptions) : Except Fault (Mbuf × Bool) := do
  if opt.stripTs = false then return (m, false)
  let flags ← m.load8 (tcp + 13)
  if hasFlag flags TCP_SYN then stripTimestamp m tcp else return (m, false)

/-- `nat_rewrite`, step 1: the TCP options. The last component says that the L4
checksum has to be computed in full. -/
def rewriteOptions (m : Mbuf) (p : PacketMeta) (opt : NatOptions) :
    Except Fault (Mbuf × PacketMeta × RewriteOutcome × Bool) := do
  if (← m.load8 (p.l3Offset + 9)) ≠ 6 then return (m, p, {}, false)
  let (m, stripped) ← stripOption m p.l4Offset opt
  if opt.addToa then
    let (m, p, added) ← insertToa m p opt.toaIp opt.toaPort opt.mtu
    return (m, p, ⟨stripped, added, !added⟩, stripped || added)
  else return (m, p, ⟨stripped, false, false⟩, stripped)

/-- `nat_rewrite`, step 2: addresses, TTL and checksum of the IP header. -/
def rewriteIp (m : Mbuf) (ip : ℕ) (srcIp dstIp : IPv4Addr) : Except Fault Mbuf := do
  let m ← m.store32 (ip + 12) srcIp
  let m ← m.store32 (ip + 16) dstIp
  let ttl ← m.load8 (ip + 8)
  let m ← m.store8 (ip + 8) (ttl - 1)
  IpChecksum.update m ip

/-- `nat_rewrite`, step 3: the ports and the checksum of TCP. -/
def rewriteTcp (m : Mbuf) (p : PacketMeta) (rw : NatRewrite) (opt : NatOptions) (oldSrc oldDst : IPv4Addr)
    (full : Bool) : Except Fault Mbuf := do
  let l4 := p.l4Offset
  let oldSp ← m.load16 l4
  let oldDp ← m.load16 (l4 + 2)
  let m ← m.store16 l4 rw.srcPort
  let m ← m.store16 (l4 + 2) rw.dstPort
  if full ∨ opt.txTcpCksum then l4ChecksumFull m p p.l3Offset l4 opt
  else
    let m ← L4Checksum.updateTcpChecksumIp m l4 oldSrc rw.srcIp
    let m ← L4Checksum.updateTcpChecksumIp m l4 oldDst rw.dstIp
    let m ← L4Checksum.updateTcpChecksumPort m l4 oldSp rw.srcPort
    let m ← L4Checksum.updateTcpChecksumPort m l4 oldDp rw.dstPort
    return clearTxOffload m

/-- `nat_rewrite`, step 3: the ports and the checksum of UDP. -/
def rewriteUdp (m : Mbuf) (p : PacketMeta) (rw : NatRewrite) (opt : NatOptions)
    (oldSrc oldDst : IPv4Addr) : Except Fault Mbuf := do
  let l4 := p.l4Offset
  let oldSp ← m.load16 l4
  let oldDp ← m.load16 (l4 + 2)
  let hadCksum := decide ((← m.load16 (l4 + 6)) ≠ 0)
  let m ← m.store16 l4 rw.srcPort
  let m ← m.store16 (l4 + 2) rw.dstPort
  if opt.txUdpCksum then l4ChecksumFull m p p.l3Offset l4 opt
  else if hadCksum then
    let m ← L4Checksum.updateUdpChecksumIp m l4 oldSrc rw.srcIp
    let m ← L4Checksum.updateUdpChecksumIp m l4 oldDst rw.dstIp
    let m ← L4Checksum.updateUdpChecksumPort m l4 oldSp rw.srcPort
    let m ← L4Checksum.updateUdpChecksumPort m l4 oldDp rw.dstPort
    return clearTxOffload m
  else return clearTxOffload m -- 0 stays 0: no checksum

/-- `nat_rewrite`, step 3. -/
def rewriteL4 (m : Mbuf) (p : PacketMeta) (rw : NatRewrite) (opt : NatOptions) (oldSrc oldDst : IPv4Addr)
    (full : Bool) : Except Fault Mbuf := do
  let protocol ← m.load8 (p.l3Offset + 9)
  if protocol = 6 then rewriteTcp m p rw opt oldSrc oldDst full
  else if protocol = 17 then rewriteUdp m p rw opt oldSrc oldDst
  else return m

/-- `set_dst_mac` and `set_src_mac` of the Ethernet header. -/
def setMacs (m : Mbuf) (srcMac dstMac : MacAddr) : Except Fault Mbuf := do
  let m ← m.storeMac 0 dstMac
  m.storeMac 6 srcMac

def natRewrite (m : Mbuf) (p : PacketMeta) (rw : NatRewrite) (opt : NatOptions) :
    Except Fault (RewriteResult × Mbuf × PacketMeta × RewriteOutcome) := do
  if (← m.load8 (p.l3Offset + 8)) ≤ 1 then return (.ttlExceeded, m, p, {})
  let (m, p, out, full) ← rewriteOptions m p opt
  let oldSrc ← m.load32 (p.l3Offset + 12)
  let oldDst ← m.load32 (p.l3Offset + 16)
  let m ← rewriteIp m p.l3Offset rw.srcIp rw.dstIp
  let m ← rewriteL4 m p rw opt oldSrc oldDst full
  let m ← setMacs m rw.srcMac rw.dstMac
  return (.ok, m, p, out)

/-! ### DR and ICMP errors -/

def drRewrite (m : Mbuf) (srcMac dstMac : MacAddr) : Except Fault Mbuf := do
  let m ← setMacs m srcMac dstMac
  return clearTxOffload m

def natRewriteIcmpError (m : Mbuf) (p : PacketMeta) (info : IcmpErrorInfo) (outerSrc outerDst : IPv4Addr)
    (inner : FiveTuple) (srcMac dstMac : MacAddr) : Except Fault (RewriteResult × Mbuf) := do
  let ip := p.l3Offset
  if (← m.load8 (ip + 8)) ≤ 1 then return (.ttlExceeded, m)
  -- the quoted packet; only 8 bytes of its L4 header are here, so its L4
  -- checksum cannot be recomputed
  let iip := info.innerL3Offset
  let m ← m.store32 (iip + 12) inner.srcIp
  let m ← m.store32 (iip + 16) inner.dstIp
  let m ← IpChecksum.update m iip
  let m ← m.store16 info.innerL4Offset inner.srcPort
  let m ← m.store16 (info.innerL4Offset + 2) inner.dstPort
  let m ← rewriteIp m ip outerSrc outerDst
  let m ← m.store16 (p.l4Offset + 2) 0
  let sum ← icmpCalculateChecksum m p.l4Offset (sizeSub p.totalLen p.l4Offset)
  let m ← m.store16 (p.l4Offset + 2) sum
  let m ← setMacs m srcMac dstMac
  return (.ok, clearTxOffload m)

end L4Lb
