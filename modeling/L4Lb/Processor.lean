/-
# Processing a packet

`src/core/processor.cpp`: the path of a received frame through a worker, from
the checks and the classification to the session and the rewritten frame.
Each handler takes the worker's context and the frame and returns them with
the verdict. A handler that first asks for the owner of the packet is split
after that question: what it does at the owner is `inboundAtOwner`,
`returnAtOwner`, `icmpToClient`, `icmpToServer`. Log lines are left out.
-/
import L4Lb.Context
import L4Lb.Forward

namespace L4Lb

inductive Result
  | send
  | drop (reason : Stat)
  | redirect (target : ℕ)
  | consumed
  deriving DecidableEq, Repr

/-- The context, the frame and the verdict. -/
abbrev Outcome := WorkerCtx × Mbuf × Result

/-- What a worker does with a packet that is not its own. -/
def notOwner (redirected : Bool) (owner : ℕ) : Result :=
  if redirected then .drop .dropOther else .redirect owner

/-! ### Next hops -/

/-- What `resolve_mac` gives: the MAC, the cache and the events it posts. -/
structure Resolved where
  out : Option MacAddr
  cache : MacAddr
  cacheGen : ℕ
  events : List MasterEvent

def resolveMac (view : NeighView) (nextHop : IPv4Addr) (cache : MacAddr) (cacheGen : ℕ)
    (fallback : MacAddr) : Resolved :=
  if cacheGen = view.generation then ⟨some cache, cache, cacheGen, []⟩
  else
    match if nextHop ≠ 0 then view.lookup nextHop else none with
    | some mac => ⟨some mac, mac, view.generation, []⟩
    | none =>
      -- the fallback is not cached
      ⟨if macIsZero fallback then none else some fallback, cache, cacheGen,
        if nextHop ≠ 0 then [.neighMiss nextHop] else []⟩

variable (dp : Dataplane) (view : NeighView)

def resolveRsMac (w : WorkerCtx) (i : ℕ) (rs : RsState) : WorkerCtx × Option MacAddr :=
  if !macIsZero rs.mac then (w, some rs.mac)
  else
    let s := w.session i
    let r := resolveMac view (dp.route.nextHop rs.ip) s.rsMac s.rsMacGen MacAddr.zero
    let w := w.setSession i fun s => { s with rsMac := r.cache, rsMacGen := r.cacheGen }
    (w.post r.events, r.out)

def resolveClientMac (w : WorkerCtx) (i : ℕ) : WorkerCtx × Option MacAddr :=
  let s := w.session i
  let cip := s.client.srcIp
  let fallback := if dp.route.onLink cip then s.cliSrcMac else MacAddr.zero
  let r := resolveMac view (dp.route.nextHop cip) s.cliMac s.cliMacGen fallback
  let w := w.setSession i fun s => { s with cliMac := r.cache, cliMacGen := r.cacheGen }
  (w.post r.events, r.out)

/-! ### Sessions -/

def countFwdIn (w : WorkerCtx) (i : ℕ) (m : Mbuf) : Except Fault WorkerCtx :=
  let len := m.pktLen
  ((w.count .fwdIn).addBytes .fwdIn len).addRs (w.session i).rsId fun c =>
    { c with pktsIn := c.pktsIn + 1, bytesIn := c.bytesIn + len }

def countFwdOut (w : WorkerCtx) (i : ℕ) (m : Mbuf) : Except Fault WorkerCtx :=
  let len := m.pktLen
  ((w.count .fwdOut).addBytes .fwdOut len).addRs (w.session i).rsId fun c =>
    { c with pktsOut := c.pktsOut + 1, bytesOut := c.bytesOut + len }

def closeSession (w : WorkerCtx) (i : ℕ) : WorkerCtx :=
  { w with sessions := w.sessions.remove i }.count .sessClosed

/-- The state of a session after a segment. -/
def Session.advance (s : Session) (flags : UInt8) (dir : Dir) : Session :=
  if s.state = .udp then s
  else
    let (state, finSeen) := tcpNextState s.state flags dir s.finSeen
    { s with state := state, finSeen := finSeen }

def updateState (w : WorkerCtx) (i : ℕ) (flags : UInt8) (dir : Dir) : WorkerCtx :=
  let w := w.setSession i (·.advance flags dir)
  { w with sessions := w.sessions.touch i w.nowTick (stateTimeout (w.session i).state dp.cfg.timeouts) }

/-! ### New sessions -/

/-- The port of the candidate `k`, in 16 bits. -/
def natPort (idx step k : ℕ) : ℕ :=
  (kNatPortMin + k * step + if step > 1 then (idx + step - kNatPortMin % step) % step else 0) % 2 ^ 16

/-- The inner loop of `create_fullnat`, on one local address: the first server
tuple that may be used, and the cursor behind it. -/
def findPort (w : WorkerCtx) (rs : RsState) (lip : IPv4Addr) (proto : UInt8) (step slots : ℕ) :
    ℕ → ℕ → Option FiveTuple × ℕ
  | 0, cur => (none, cur)
  | probes + 1, cur =>
    let port := natPort w.idx step (cur % slots)
    let cur := (cur + 1) % 2 ^ 32
    let server : FiveTuple := ⟨rs.ip, lip, rs.portBe, bswap16 (UInt16.ofNat port), proto⟩
    if port > kNatPortMax then findPort w rs lip proto step slots probes cur
    else if dp.steering.retByRss proto && dp.steering.retOwner dp.H server != w.idx then
      findPort w rs lip proto step slots probes cur
    else if w.sessions.keyInUse server then findPort w rs lip proto step slots probes cur
    else (some server, cur)

/-- The outer loop of `create_fullnat`: `left` local addresses from the `n`-th
on. It gives the position of the address with the tuple, and the cursors. -/
def findServer (w : WorkerCtx) (rs : RsState) (lips : List IPv4Addr) (proto : UInt8) (step slots probes : ℕ) :
    ℕ → ℕ → List ℕ → Option (ℕ × FiveTuple) × List ℕ
  | 0, _, cursors => (none, cursors)
  | left + 1, n, cursors =>
    let li := (w.lipRr + n) % lips.length
    match findPort dp w rs (lips.getD li 0) proto step slots probes (cursors.getD li 0) with
    | (some server, cur) => (some (li, server), cursors.set li cur)
    | (none, cur) => findServer w rs lips proto step slots probes left (n + 1) (cursors.set li cur)

/-- `create_fullnat`: the new session, or why there is none. -/
def createFullnat (w : WorkerCtx) (snap : Snapshot) (client : FiveTuple) (rs : RsState) (timeout : ℕ) :
    Except Fault (WorkerCtx × Except Stat ℕ) := do
  let lips := snap.localIps
  if lips = [] then return (w, .error .dropNoPort)
  let cursors := w.lipCursor ++ List.replicate (lips.length - w.lipCursor.length) 0
  let st := dp.steering
  let proto := client.protocol
  let step := st.portStep proto
  let slots := (kNatPortMax - kNatPortMin + 1) / step
  if slots = 0 then throw .divZero
  let probes := if st.retByRss proto then 64 * st.n else 64
  let (found, cursors) := findServer dp w rs lips proto step slots probes lips.length 0 cursors
  let w := { w with lipCursor := cursors }
  match found with
  | none => return (w, .error .dropNoPort)
  | some (li, server) =>
    let (t, made) := w.sessions.create client (some server) w.nowTick timeout
    let w := { w with sessions := t }
    match made with
    | none => return (w, .error .dropTableFull)
    | some i => return ({ w with lipRr := (li + 1) % 2 ^ 32 }, .ok i)

/-- The part of `new_session` that makes the session, by mode. -/
def createSession (w : WorkerCtx) (snap : Snapshot) (client : FiveTuple) (rs : RsState) (timeout : ℕ) :
    Except Fault (WorkerCtx × Except Stat ℕ) :=
  if snap.mode = .nat then createFullnat dp w snap client rs timeout
  else
    let (t, made) := w.sessions.create client none w.nowTick timeout
    .ok ({ w with sessions := t }, match made with | none => .error .dropTableFull | some i => .ok i)

/-- The fields `new_session` writes. -/
def Session.assigned (s : Session) (rs : RsState) (svc : Service) (srcMac : MacAddr) (tcp toa : Bool) : Session :=
  { s with
    rsId := rs.id
    svcIdx := svc.idx
    state := if tcp then .none else .udp
    cliSrcMac := srcMac
    flags := if toa then s.flags ||| SF_TOA_PENDING else s.flags }

/-- `new_session`: the new session, or why there is none. -/
def newSession (w : WorkerCtx) (snap : Snapshot) (svc : Service) (tuple : FiveTuple) (m : Mbuf) :
    Except Fault (WorkerCtx × Except Stat ℕ) := do
  let (pick, cursor) := svc.sched.pick dp.H tuple (w.cursors svc.idx)
  let w := { w with cursors := Function.update w.cursors svc.idx cursor }
  match pick with
  | none => return (w, .error .dropNoRs)
  | some k =>
    match svc.rs[k]? with
    | none => throw (.index k svc.rs.length)
    | some rs =>
      let tcp := decide (tuple.protocol = 6)
      let timeout := if tcp then dp.cfg.timeouts.tcpSyn else dp.cfg.timeouts.udp
      let (w, made) ← createSession dp w snap tuple rs timeout
      match made with
      | .error fail => return (w, .error fail)
      | .ok i =>
        let srcMac ← m.loadMac 6
        let nat := decide (snap.mode = .nat)
        let w := w.setSession i (·.assigned rs svc srcMac tcp (nat && tcp && dp.cfg.toa))
        let w ← (w.count .sessNew).addRs rs.id fun c => { c with conns := c.conns + 1 }
        if nat && dp.route.onLink tuple.srcIp then
          return (w.post [.neighHint tuple.srcIp srcMac], .ok i)
        else return (w, .ok i)

/-! ### Client to VIP -/

/-- `syn` of `handle_inbound`: a segment that may open a connection. -/
def opensConnection (p : PacketMeta) : Bool :=
  p.ipProtocol == 6 && p.tcpFlags &&& (TCP_SYN ||| TCP_ACK ||| TCP_RST) == TCP_SYN

/-- The comparison of the NIC's RSS hash with the computed one. -/
def rssCheck (w : WorkerCtx) (m : Mbuf) (tuple : FiveTuple) : WorkerCtx :=
  if !m.olFlags.rssHash then w.count .rssNoHash
  else if m.rss ≠ dp.steering.rssHash dp.H tuple (dp.steering.l4Hashed 6) then w.count .rssMismatch
  else w

/-- What `handle_inbound` finds under the client tuple. -/
inductive Found
  | session (i : ℕ) (rs : RsState)
  | none
  | drop (reason : Stat)

/-- The session of a client tuple. It is closed if its real server is gone or
down, or if a new connection takes its place. -/
def findInbound (w : WorkerCtx) (snap : Snapshot) (tuple : FiveTuple) (tcp syn : Bool) : WorkerCtx × Found :=
  match w.sessions.lookup tuple with
  | none => (w, .none)
  | some i =>
    let rs := snap.rs (w.session i).rsId
    let reuse := syn && tcpStateReusable (w.session i).state
    match rs.filter fun r => r.usable && !reuse with
    | some r => (w, .session i r)
    | none =>
      (closeSession w i,
        if !syn && tcp then .drop (if rs.isSome && !reuse then .dropRsDown else .dropNoSession) else .none)

/-- The counters for what a rewrite did to the TCP options. -/
def countOutcome (w : WorkerCtx) (out : RewriteOutcome) : WorkerCtx :=
  let w := if out.tsStripped then w.count .tsStripped else w
  let w := if out.toaAdded then w.count .toaAdded else w
  if out.toaNoRoom then w.count .toaNoRoom else w

/-- The FULLNAT rewrite of a packet from the client. -/
def toServer (s : Session) (rsMac : MacAddr) : NatRewrite where
  srcIp := s.server.dstIp
  srcPort := s.server.dstPort
  dstIp := s.server.srcIp
  dstPort := s.server.srcPort
  srcMac := dp.localMac
  dstMac := rsMac

def toServerOptions (s : Session) (p : PacketMeta) : NatOptions where
  txTcpCksum := dp.txTcpCksum
  txUdpCksum := dp.txUdpCksum
  mtu := dp.mtu
  stripTs := p.ipProtocol == 6 && dp.cfg.stripTcpTimestamp
  -- until the handshake is complete: the third ACK may be sent again
  addToa := hasFlag s.flags SF_TOA_PENDING && !hasFlag p.tcpFlags (TCP_SYN ||| TCP_RST)
  toaIp := s.client.srcIp
  toaPort := s.client.srcPort

/-- `handle_inbound` from the session on. A session that was made for this
packet does not stay if the packet is dropped. -/
def forwardInbound (w : WorkerCtx) (snap : Snapshot) (m : Mbuf) (p : PacketMeta) (i : ℕ) (rs : RsState)
    (isNew : Bool) : Except Fault Outcome := do
  let w := updateState dp w i p.tcpFlags .clientToRs
  let w := w.setSession i fun s => { s with pktsIn := s.pktsIn + 1, bytesIn := s.bytesIn + m.pktLen }
  match resolveRsMac dp view w i rs with
  | (w, none) => return (if isNew then closeSession w i else w, m, .drop .dropNoNeigh)
  | (w, some rsMac) =>
    if snap.mode = .dr then
      let m ← drRewrite m dp.localMac rsMac
      let w ← countFwdIn w i m
      return (w, m, .send)
    else
      let s := w.session i
      let (res, m, _, out) ← natRewrite m p (toServer dp s rsMac) (toServerOptions dp s p)
      if res ≠ .ok then return (if isNew then closeSession w i else w, m, .drop .dropTtl)
      let w ← countFwdIn (countOutcome w out) i m
      return (w, m, .send)

/-- `handle_inbound` at the owner. -/
def inboundAtOwner (w : WorkerCtx) (snap : Snapshot) (svc : Service) (m : Mbuf) (p : PacketMeta)
    (redirected : Bool) : Except Fault Outcome := do
  let tuple := p.toFiveTuple
  let tcp := p.ipProtocol == 6
  let syn := opensConnection p
  let w := if syn && dp.steering.hw && !redirected then rssCheck dp w m tuple else w
  match findInbound w snap tuple tcp syn with
  | (w, .drop reason) => return (w, m, .drop reason)
  | (w, .session i rs) => forwardInbound dp view w snap m p i rs false
  | (w, .none) =>
    -- only a SYN opens a connection
    if tcp && !syn then return (w, m, .drop .dropNoSession)
    let (w, made) ← newSession dp w snap svc tuple m
    match made with
    | .error fail => return (w, m, .drop fail)
    | .ok i =>
      match snap.rs (w.session i).rsId with
      | none => throw .null
      | some rs => forwardInbound dp view w snap m p i rs true

def handleInbound (w : WorkerCtx) (snap : Snapshot) (svc : Service) (m : Mbuf) (p : PacketMeta)
    (redirected : Bool) : Except Fault Outcome :=
  let owner := dp.steering.fwdOwner dp.H p.toFiveTuple
  if owner ≠ w.idx then .ok (w, m, notOwner redirected owner)
  else inboundAtOwner dp view w snap svc m p redirected

/-! ### Real server to client -/

/-- The FULLNAT rewrite of a packet from the real server. -/
def toClient (s : Session) (cliMac : MacAddr) : NatRewrite where
  srcIp := s.client.dstIp
  srcPort := s.client.dstPort
  dstIp := s.client.srcIp
  dstPort := s.client.srcPort
  srcMac := dp.localMac
  dstMac := cliMac

def toClientOptions : NatOptions where
  txTcpCksum := dp.txTcpCksum
  txUdpCksum := dp.txUdpCksum
  mtu := dp.mtu

/-- What `handle_return` writes to the session. A segment of the real server
without SYN shows that it has the third ACK, and the TOA option in it. -/
def Session.returned (s : Session) (flags : UInt8) (len : ℕ) : Session :=
  { s with
    flags := if hasFlag s.flags SF_TOA_PENDING && !hasFlag flags TCP_SYN then s.flags &&& ~~~SF_TOA_PENDING
      else s.flags
    pktsOut := s.pktsOut + 1
    bytesOut := s.bytesOut + len }

/-- `handle_return` at the owner. -/
def returnAtOwner (w : WorkerCtx) (snap : Snapshot) (m : Mbuf) (p : PacketMeta) : Except Fault Outcome := do
  let tuple := p.toFiveTuple
  match w.sessions.lookup tuple with
  | none => return (w, m, .drop .dropNoSession)
  | some i =>
    if !((w.session i).fullnat && (w.session i).server == tuple) then return (w, m, .drop .dropNoSession)
    if !(snap.rs (w.session i).rsId).any (·.usable) then return (closeSession w i, m, .drop .dropRsDown)
    let w := updateState dp w i p.tcpFlags .rsToClient
    let w := w.setSession i (·.returned p.tcpFlags m.pktLen)
    match resolveClientMac dp view w i with
    | (w, none) => return (w, m, .drop .dropNoNeigh)
    | (w, some cliMac) =>
      let (res, m, _, _) ← natRewrite m p (toClient dp (w.session i) cliMac) (toClientOptions dp)
      if res ≠ .ok then return (w, m, .drop .dropTtl)
      let w ← countFwdOut w i m
      return (w, m, .send)

def handleReturn (w : WorkerCtx) (snap : Snapshot) (m : Mbuf) (p : PacketMeta) (redirected : Bool) :
    Except Fault Outcome :=
  let owner := dp.steering.retOwner dp.H p.toFiveTuple
  if owner ≠ w.idx then .ok (w, m, notOwner redirected owner)
  else returnAtOwner dp view w snap m p

/-! ### ICMP -/

/-- Case 1 of `handle_icmp_error`: the error is about a packet to a real server. -/
def quotesServer (snap : Snapshot) (dst : IPv4Addr) (inner : FiveTuple) : Except Fault Bool := do
  if snap.mode ≠ .nat then return false
  if !(← snap.isLip dp.H dst) then return false
  if !(← snap.isLip dp.H inner.srcIp) then return false
  return inNatRange inner.srcPort

/-- Case 2 of `handle_icmp_error`: the error is about a packet to a client. -/
def quotesClient (snap : Snapshot) (dst : IPv4Addr) (inner : FiveTuple) : Except Fault Bool := do
  if !(← snap.isVip dp.H dst) then return false
  snap.isVip dp.H inner.srcIp

/-- Case 1 of `handle_icmp_error` at the owner. -/
def icmpToClient (w : WorkerCtx) (m : Mbuf) (p : PacketMeta) (info : IcmpErrorInfo) : Except Fault Outcome := do
  let key := info.inner.reverse
  match w.sessions.lookup key with
  | none => return (w, m, .drop .dropNoSession)
  | some i =>
    if (w.session i).server ≠ key then return (w, m, .drop .dropNoSession)
    match resolveClientMac dp view w i with
    | (w, none) => return (w, m, .drop .dropNoNeigh)
    | (w, some mac) =>
      let client := (w.session i).client
      let (res, m) ← natRewriteIcmpError m p info client.dstIp client.srcIp client dp.localMac mac
      if res ≠ .ok then return (w, m, .drop .dropTtl)
      return (w.count .icmpErrFwd, m, .send)

/-- Case 2 of `handle_icmp_error` at the owner. -/
def icmpToServer (w : WorkerCtx) (snap : Snapshot) (m : Mbuf) (p : PacketMeta) (info : IcmpErrorInfo) :
    Except Fault Outcome := do
  let key := info.inner.reverse
  match w.sessions.lookup key with
  | none => return (w, m, .drop .dropNoSession)
  | some i =>
    if (w.session i).client ≠ key then return (w, m, .drop .dropNoSession)
    match snap.rs (w.session i).rsId with
    | none => return (w, m, .drop .dropNoNeigh)
    | some rs =>
      match resolveRsMac dp view w i rs with
      | (w, none) => return (w, m, .drop .dropNoNeigh)
      | (w, some mac) =>
        if snap.mode = .dr then
          let m ← drRewrite m dp.localMac mac
          return (w.count .icmpErrFwd, m, .send)
        else
          let server := (w.session i).server
          let (res, m) ← natRewriteIcmpError m p info server.dstIp server.srcIp server dp.localMac mac
          if res ≠ .ok then return (w, m, .drop .dropTtl)
          return (w.count .icmpErrFwd, m, .send)

def handleIcmpError (w : WorkerCtx) (snap : Snapshot) (m : Mbuf) (p : PacketMeta) (redirected : Bool) :
    Except Fault Outcome := do
  match ← parseIcmpError m p with
  | none => return (w, m, .drop .dropMalformed)
  | some info =>
    let key := info.inner.reverse
    if ← quotesServer dp snap p.dstIp info.inner then
      let owner := dp.steering.retOwner dp.H key
      if owner ≠ w.idx then return (w, m, notOwner redirected owner)
      icmpToClient dp view w m p info
    else if ← quotesClient dp snap p.dstIp info.inner then
      let owner := dp.steering.fwdOwner dp.H key
      if owner ≠ w.idx then return (w, m, notOwner redirected owner)
      icmpToServer dp view w snap m p info
    else return (w, m, .drop .dropNoSession)

/-- `IcmpHandler::handle_echo_request` on an echo request, and the answer to
its sender. -/
def echoReply (m : Mbuf) (p : PacketMeta) : Except Fault Mbuf := do
  let icmp := p.l4Offset
  let m ← m.store8 icmp 0
  let m ← m.store8 (icmp + 1) 0
  let m ← m.store16 (icmp + 2) 0
  let sum ← icmpCalculateChecksum m icmp (sizeSub p.totalLen p.l4Offset)
  let m ← m.store16 (icmp + 2) sum
  -- `swap_mac` and `set_src_mac`
  let srcMac ← m.loadMac 6
  let m ← setMacs m dp.localMac srcMac
  let ip := p.l3Offset
  let srcIp ← m.load32 (ip + 12)
  let dstIp ← m.load32 (ip + 16)
  let m ← m.store32 (ip + 12) dstIp
  let m ← m.store32 (ip + 16) srcIp
  let m ← m.store8 (ip + 8) 64
  let m ← IpChecksum.update m ip
  return clearTxOffload m

def handleIcmp (w : WorkerCtx) (snap : Snapshot) (m : Mbuf) (p : PacketMeta) (redirected : Bool) :
    Except Fault Outcome := do
  let type ← m.load8 p.l4Offset
  if icmpIsError type then handleIcmpError dp view w snap m p redirected
  else if type ≠ 8 then return (w, m, .drop .dropOther)
  else
    let m ← echoReply dp m p
    return (w, m, .send)

/-! ### Health checks and ARP -/

/-- `handle_hc_response`: the answer to a probe goes to the master. -/
def handleHcResponse (w : WorkerCtx) (m : Mbuf) (p : PacketMeta) : Except Fault Outcome := do
  if p.ipProtocol ≠ 6 then return (w, m, .drop .dropOther)
  let seq ← m.load32 (p.l4Offset + 4)
  let ack ← m.load32 (p.l4Offset + 8)
  let ev := .hcResp p.srcIp (bswap16 p.dstPort) (bswap16 p.srcPort) p.tcpFlags (bswap32 seq) (bswap32 ack)
  return ((w.post [ev]).count .hcResp, m, .consumed)

/-- `ArpHandler::make_reply`. -/
def makeReply (m : Mbuf) (localMac : MacAddr) : Except Fault Mbuf := do
  let arp := 14
  let localIp ← m.load32 (arp + 24)
  let senderMac ← m.loadMac (arp + 8)
  let m ← m.storeMac 0 senderMac
  let m ← m.storeMac 6 localMac
  let m ← m.store16 (arp + 6) (bswap16 2)
  let m ← m.storeMac (arp + 18) senderMac
  let senderIp ← m.load32 (arp + 14)
  let m ← m.store32 (arp + 24) senderIp
  let m ← m.storeMac (arp + 8) localMac
  m.store32 (arp + 14) localIp

/-- `is_eth_ipv4`, of the ARP header. -/
def isEthIpv4 (m : Mbuf) : Except Fault Bool := do
  let hwType ← m.load16 14
  let protoType ← m.load16 16
  let hwLen ← m.load8 18
  let protoLen ← m.load8 19
  return bswap16 hwType == 1 && bswap16 protoType == 0x0800 && hwLen == 6 && protoLen == 4

/-- `handle_arp` for a frame that asks for or answers one of our addresses. -/
def arpForUs (w : WorkerCtx) (m : Mbuf) (senderIp : IPv4Addr) : Except Fault Outcome := do
  let senderMac ← m.loadMac 22
  let op := bswap16 (← m.load16 20)
  if op = 1 then
    let w := if senderIp ≠ 0 && dp.route.onLink senderIp then w.post [.arpForUs senderIp senderMac] else w
    let m ← makeReply m dp.localMac
    return (w, clearTxOffload m, .send)
  else if op = 2 then return (w.post [.arpReply senderIp senderMac], m, .consumed)
  else return (w, m, .consumed)

def handleArp (w : WorkerCtx) (snap : Snapshot) (m : Mbuf) : Except Fault Outcome := do
  if m.dataLen < 14 + 28 then return (w, m, .drop .dropMalformed)
  let w := w.count .arp
  if !(← isEthIpv4 m) then return (w, m, .consumed)
  let senderIp ← m.load32 28
  let targetIp ← m.load32 38
  -- somebody uses one of our addresses, or our own frame comes back
  if ← snap.isLocal dp.H senderIp then return (w, m, .consumed)
  if !(← snap.isLocal dp.H targetIp) then return (w, m, .consumed)
  arpForUs dp w m senderIp

/-! ### The entry -/

/-- `cksum_bad`. -/
def cksumBad (m : Mbuf) : Bool := m.olFlags.rxIpBad || m.olFlags.rxL4Bad

/-- A return packet of FULLNAT: to a local address, in its SNAT range. -/
def isReturn (snap : Snapshot) (p : PacketMeta) : Except Fault Bool := do
  if snap.mode ≠ .nat then return false
  if !(← snap.isLip dp.H p.dstIp) then return false
  return inNatRange p.dstPort

/-- The counter of a packet nobody serves. -/
def unserved (snap : Snapshot) (dst : IPv4Addr) : Except Fault Result := do
  return .drop (if ← snap.isLocal dp.H dst then .dropNoService else .dropNotLocal)

/-- `process_packet` for TCP and UDP. -/
def processL4 (w : WorkerCtx) (snap : Snapshot) (m : Mbuf) (p : PacketMeta) (redirected : Bool) :
    Except Fault Outcome := do
  if ← isReturn dp snap p then handleReturn dp view w snap m p redirected
  else if p.dstIp = snap.hcSrc ∧ inHcRange p.dstPort then handleHcResponse w m p
  else
    match ← snap.findService dp.H p.dstIp p.dstPort p.ipProtocol with
    | some svc => handleInbound dp view w snap svc m p redirected
    | none => return (w, m, ← unserved dp snap p.dstIp)

/-- `process_packet` for an IPv4 packet that `parse` accepts. -/
def processIpv4 (w : WorkerCtx) (snap : Snapshot) (m : Mbuf) (p : PacketMeta) (redirected : Bool) :
    Except Fault Outcome := do
  if cksumBad m then return (w, m, .drop .dropCksum)
  -- our own frame comes back
  if p.srcMac = dp.localMac then return (w, m, .consumed)
  if p.ipProtocol = 1 then
    if !(← snap.isLocal dp.H p.dstIp) then return (w, m, .drop .dropNotLocal)
    handleIcmp dp view (if redirected then w else w.count .icmp) snap m p redirected
  else if p.ipProtocol ≠ 6 ∧ p.ipProtocol ≠ 17 then return (w, m, ← unserved dp snap p.dstIp)
  else
    let w := if redirected then w else w.count (if p.ipProtocol = 6 then .tcp else .udp)
    processL4 dp view w snap m p redirected

def processPacket (w : WorkerCtx) (snap : Snapshot) (m : Mbuf) (redirected : Bool) : Except Fault Outcome := do
  if m.dataLen < 14 then return (w, m, .drop .dropMalformed)
  let type ← m.etherType
  if type = 0x0806 then handleArp dp w snap m
  else if type ≠ 0x0800 then return (w, m, .drop .dropOther)
  else
    match ← parse m with
    | (.ok, p) => processIpv4 dp view w snap m p redirected
    | (.fragment, _) => return (w, m, .drop .dropFragment)
    | (.malformed, _) => return (w, m, .drop .dropMalformed)

end L4Lb
