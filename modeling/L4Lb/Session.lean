/-
# The session table

`include/lb/session.h` and `src/lb/session.cpp`: a worker's table of
sessions. A session has up to two keys in the hash (client and, in FULLNAT,
server direction), a place in an array whose free indices are kept on a
stack, and a place on one timer list: the list of a slot of the time wheel,
or `pending`, the slot that is being processed. The lists are threaded
through the sessions (`wheel_prev`, `wheel_next`).

A `Session *` is its index in the array. The array is a function of the
index, the free stack a list with its top first. `expire` recurses on a fuel
that is enough for every table whose lists end (`Session/Consistent.lean`);
`none` stands for a loop that does not end.
-/
import L4Lb.Dpdk.Hash
import L4Lb.TcpState
import L4Lb.Lib.IntrusiveList

namespace L4Lb

/-- `SF_TOA_PENDING`: the client's packets still need the TOA option. -/
def SF_TOA_PENDING : UInt8 := 0x01

/-- `SF_FULLNAT`: the session has a server key. -/
def SF_FULLNAT : UInt8 := 0x02

structure Session where
  client : FiveTuple := FiveTuple.zero
  server : FiveTuple := FiveTuple.zero
  rsId : ℕ := 0
  svcIdx : ℕ := 0
  state : TcpState := .none
  finSeen : UInt8 := 0
  flags : UInt8 := 0
  rsMac : MacAddr := MacAddr.zero
  cliMac : MacAddr := MacAddr.zero
  cliSrcMac : MacAddr := MacAddr.zero
  rsMacGen : ℕ := 0
  cliMacGen : ℕ := 0
  createdTick : ℕ := 0
  expireTick : ℕ := 0
  pktsIn : ℕ := 0
  bytesIn : ℕ := 0
  pktsOut : ℕ := 0
  bytesOut : ℕ := 0
  slotTick : ℕ := 0
  wheelPrev : ℕ := 0
  wheelNext : ℕ := 0
  inPending : Bool := false

/-- `s->flags & SF_FULLNAT`. -/
def Session.fullnat (s : Session) : Bool := hasFlag s.flags SF_FULLNAT

/-- The keys a session has in the hash. -/
def Session.HasKey (s : Session) (k : FiveTuple) : Prop :=
  k = s.client ∨ (s.fullnat = true ∧ k = s.server)

instance (s : Session) (k : FiveTuple) : Decidable (s.HasKey k) := by
  unfold Session.HasKey; infer_instance

structure SessionTable where
  hash : RteHash FiveTuple ℕ
  sessions : ℕ → Session
  /-- top first; `free_top_` is its length -/
  freeStack : List ℕ
  capacity : ℕ
  slots : ℕ → ℕ
  pending : ℕ
  curTick : ℕ

namespace SessionTable

/-- `UINT32_MAX`, the end of a list. -/
def kNil : ℕ := 4294967295

/-- `wheel_prev` of a free session. -/
def kFree : ℕ := 4294967294

def kWheelSlots : ℕ := 4096

def kExpireBudget : ℕ := 4096

/-- `deadline`, in 64 bits. -/
def deadline (nowTick timeout : ℕ) : ℕ :=
  (nowTick + (if timeout ≠ 0 then timeout else 1) + 1) % 2 ^ 64

/-- `SessionTable::init`; the allocations succeed. -/
def init (capacity nowTick : ℕ) : SessionTable where
  hash := RteHash.create ((capacity * 2 + capacity / 2) % 2 ^ 32)
  sessions := fun i => if i < capacity then { wheelPrev := kFree } else {}
  freeStack := List.range capacity
  capacity := capacity
  slots := fun _ => kNil
  pending := kNil
  curTick := nowTick

/-- A session is in use: `for_each` visits it. -/
def Live (t : SessionTable) (i : ℕ) : Prop := i < t.capacity ∧ (t.sessions i).wheelPrev ≠ kFree

instance (t : SessionTable) (i : ℕ) : Decidable (t.Live i) := by unfold Live; infer_instance

def active (t : SessionTable) : ℕ := t.capacity - t.freeStack.length

def lookup (t : SessionTable) (key : FiveTuple) : Option ℕ := t.hash.lookupData key

def keyInUse (t : SessionTable) (key : FiveTuple) : Bool := (t.lookup key).isSome

/-- Write to one session of the array. -/
def modify (t : SessionTable) (i : ℕ) (f : Session → Session) : SessionTable :=
  { t with sessions := Function.update t.sessions i (f (t.sessions i)) }

/-! ### The timer lists -/

/-- The list a session is on: a slot of the wheel, or `none` for `pending`. -/
def listOf (t : SessionTable) (i : ℕ) : Option ℕ :=
  if (t.sessions i).inPending then none else some ((t.sessions i).slotTick % kWheelSlots)

def head (t : SessionTable) : Option ℕ → ℕ
  | none => t.pending
  | some slot => t.slots slot

def setHead (t : SessionTable) (k : Option ℕ) (idx : ℕ) : SessionTable :=
  match k with
  | none => { t with pending := idx }
  | some slot => { t with slots := Function.update t.slots slot idx }

/-- `wheel_link`. -/
def wheelLink (t : SessionTable) (idx tick : ℕ) : SessionTable :=
  -- not onto a slot that has been processed
  let tick := if tick < t.curTick then t.curTick else tick
  let slot := tick % kWheelSlots
  let t := t.modify idx fun s =>
    { s with slotTick := tick, inPending := false, wheelPrev := kNil, wheelNext := t.slots slot }
  let next := (t.sessions idx).wheelNext
  let t := if next ≠ kNil then t.modify next fun s => { s with wheelPrev := idx } else t
  t.setHead (some slot) idx

/-- `wheel_unlink`. -/
def wheelUnlink (t : SessionTable) (idx : ℕ) : SessionTable :=
  let prev := (t.sessions idx).wheelPrev
  let next := (t.sessions idx).wheelNext
  let t :=
    if prev ≠ kNil then t.modify prev fun s => { s with wheelNext := next }
    else t.setHead (t.listOf idx) next
  let t := if next ≠ kNil then t.modify next fun s => { s with wheelPrev := prev } else t
  t.modify idx fun s => { s with wheelPrev := kNil, wheelNext := kNil }

/-- `pending_push`. -/
def pendingPush (t : SessionTable) (idx : ℕ) : SessionTable :=
  let pending := t.pending
  let t := t.modify idx fun s =>
    { s with inPending := true, wheelPrev := kNil, wheelNext := pending }
  let t := if pending ≠ kNil then t.modify pending fun s => { s with wheelPrev := idx } else t
  { t with pending := idx }

/-- `pending_pop`: the table after it and the session popped. -/
def pendingPop (t : SessionTable) : SessionTable × ℕ :=
  let idx := t.pending
  ((t.wheelUnlink idx).modify idx fun s => { s with inPending := false }, idx)

/-- The timer list `k`, from its head. -/
def timerList (t : SessionTable) (k : Option ℕ) : List ℕ :=
  IList.walk (fun i => (t.sessions i).wheelNext) kNil t.capacity (t.head k)

/-! ### The operations -/

/-- The table and the new session, if there is one. -/
def create (t : SessionTable) (client : FiveTuple) (server : Option FiveTuple)
    (nowTick timeout : ℕ) : SessionTable × Option ℕ :=
  match t.freeStack with
  | [] => (t, none)
  | idx :: rest =>
    match t.hash.addKeyData client idx with
    | none => (t, none)
    | some hash =>
      match server with
      | none =>
        let expire := deadline nowTick timeout
        let t := { t with hash := hash, freeStack := rest }
        let t := t.modify idx fun _ =>
          { client := client, createdTick := nowTick, expireTick := expire }
        (t.wheelLink idx expire, some idx)
      | some server =>
        match hash.addKeyData server idx with
        | none => ({ t with hash := hash.delKey client }, none)
        | some hash =>
          let expire := deadline nowTick timeout
          let t := { t with hash := hash, freeStack := rest }
          let t := t.modify idx fun _ =>
            { client := client, server := server, flags := SF_FULLNAT,
              createdTick := nowTick, expireTick := expire }
          (t.wheelLink idx expire, some idx)

def remove (t : SessionTable) (idx : ℕ) : SessionTable :=
  let s := t.sessions idx
  let hash := t.hash.delKey s.client
  let hash := if s.fullnat then hash.delKey s.server else hash
  let t := { t with hash := hash }
  let t := t.wheelUnlink idx
  let t := t.modify idx fun s => { s with wheelPrev := kFree }
  { t with freeStack := idx :: t.freeStack }

def touch (t : SessionTable) (idx nowTick timeout : ℕ) : SessionTable :=
  let exp := deadline nowTick timeout
  -- a shorter timeout moves the session to its earlier slot; a longer one
  -- waits until the old slot is processed
  let t :=
    if exp < (t.sessions idx).slotTick ∧ !(t.sessions idx).inPending then
      (t.wheelUnlink idx).wheelLink idx exp
    else t
  t.modify idx fun s => { s with expireTick := exp }

/-- The inner loop of `expire`: move the chain from `head` on to `pending`. -/
def drainSlot : ℕ → SessionTable → ℕ → Option SessionTable
  | 0, _, _ => none
  | fuel + 1, t, head =>
    if head = kNil then some t
    else drainSlot fuel (t.pendingPush head) (t.sessions head).wheelNext

/-- Take the current slot off the wheel and advance the wheel. -/
def takeSlot (t : SessionTable) : Option SessionTable :=
  let slot := t.curTick % kWheelSlots
  let head := t.slots slot
  (drainSlot (t.capacity + 1) (t.setHead (some slot) kNil) head).map fun t =>
    { t with curTick := (t.curTick + 1) % 2 ^ 64 }

/-- What the loop of `expire` leaves: the table, the number of sessions
removed and the budget that is left. -/
structure ExpireResult where
  table : SessionTable
  removed : ℕ
  budget : ℕ

/-- The loop of `expire`. -/
def expireLoop (nowTick : ℕ) : ℕ → ExpireResult → Option ExpireResult
  | 0, _ => none
  | fuel + 1, r =>
    if r.budget = 0 then some r
    else if r.table.pending = kNil then
      if r.table.curTick > nowTick then some r
      else r.table.takeSlot.bind fun t => expireLoop nowTick fuel { r with table := t }
    else
      let (t, idx) := r.table.pendingPop
      if (t.sessions idx).expireTick ≤ nowTick then
        expireLoop nowTick fuel ⟨t.remove idx, r.removed + 1, r.budget - 1⟩
      else
        expireLoop nowTick fuel
          ⟨t.wheelLink idx (t.sessions idx).expireTick, r.removed, r.budget - 1⟩

/-- `expire`: each turn of its loop uses up budget or a tick. -/
def expire (t : SessionTable) (nowTick : ℕ) : Option ExpireResult :=
  expireLoop nowTick (kExpireBudget + (nowTick + 1 - t.curTick) + 1) ⟨t, 0, kExpireBudget⟩

end SessionTable

end L4Lb
