/-
# Frames

The part of an `rte_mbuf` the program uses. The bytes of a frame are a
function of the offset, of which `data_len` belong to the frame; every load
and store of the code is checked against it and faults past the end. A field
of a header is loaded as a little-endian host loads it.

Offsets in the headers, as in `protocol/ethernet.h`, `ip.h`, `icmp.h`, `arp.h`:
* Ethernet: `dst_mac` 0, `src_mac` 6, `ether_type` 12; 14 bytes
* IPv4: `version_ihl` 0, `total_length` 2, `flags_fragment` 6, `ttl` 8,
  `protocol` 9, `checksum` 10, `src_ip` 12, `dst_ip` 16; 20 bytes
* TCP: `src_port` 0, `dst_port` 2, `seq_num` 4, `ack_num` 8, `data_offset` 12,
  `flags` 13, `checksum` 16; 20 bytes
* UDP: `src_port` 0, `dst_port` 2, `length` 4, `checksum` 6; 8 bytes
* ICMP: `type` 0, `code` 1, `checksum` 2; 8 bytes
* ARP: `hw_type` 0, `proto_type` 2, `hw_len` 4, `proto_len` 5, `operation` 6,
  `sender_mac` 8, `sender_ip` 14, `target_mac` 18, `target_ip` 24; 28 bytes
-/
import L4Lb.Types
import L4Lb.Lib.Checked
import L4Lb.Lib.OnesComplement

namespace L4Lb

/-- What the code must not do. -/
inductive Fault
  /-- an access that ends at `stop`, past the `len` bytes of the frame -/
  | frame (stop len : ℕ)
  /-- a length or an offset that its 16-bit field does not hold -/
  | truncated (value : ℕ)
  /-- an access past the end of an array of the program -/
  | index (i len : ℕ)
  /-- a null pointer read -/
  | null
  /-- a remainder by 0 -/
  | divZero
  /-- a loop that does not end -/
  | endless
  deriving DecidableEq, Repr

/-- The faults of frame handling. -/
def Fault.OfFrame : Fault → Prop
  | .frame _ _ | .truncated _ => True
  | _ => False

/-- The offload flags of an mbuf that the program reads or sets. -/
structure OlFlags where
  /-- `RTE_MBUF_F_RX_IP_CKSUM_BAD` -/
  rxIpBad : Bool := false
  /-- `RTE_MBUF_F_RX_L4_CKSUM_BAD` -/
  rxL4Bad : Bool := false
  /-- `RTE_MBUF_F_RX_RSS_HASH` -/
  rssHash : Bool := false
  /-- `RTE_MBUF_F_TX_IPV4` with `RTE_MBUF_F_TX_TCP_CKSUM` -/
  txTcp : Bool := false
  /-- `RTE_MBUF_F_TX_IPV4` with `RTE_MBUF_F_TX_UDP_CKSUM` -/
  txUdp : Bool := false
  deriving DecidableEq, Repr

/-- A received frame. `tailroom` is what `rte_pktmbuf_append` can still add:
the buffer has a 16-bit length. `rest` is the length of the further segments,
if there are any. -/
structure Mbuf where
  byte : ℕ → UInt8
  dataLen : ℕ
  tailroom : ℕ
  rest : Option ℕ
  olFlags : OlFlags
  rss : UInt32
  l2Len : ℕ := 0
  l3Len : ℕ := 0
  l4Len : ℕ := 0
  fits : dataLen + tailroom ≤ 65535

/-- The difference of two `size_t`. -/
def sizeSub (a b : ℕ) : ℕ := if b ≤ a then a - b else 2 ^ 64 + a - b

/-- A value stored in a `uint16_t`; losing its high bits is a fault. -/
def narrow (v : ℕ) : Except Fault ℕ := if v < 65536 then .ok v else .error (.truncated v)

theorem narrow_eq {v : ℕ} (h : v < 65536) : narrow v = .ok v := if_pos h

namespace Mbuf

/-- A received frame in one segment, without a verdict of the NIC. -/
def ofBytes (bytes : List UInt8) (tailroom : ℕ) (fits : bytes.length + tailroom ≤ 65535) : Mbuf where
  byte := fun i => bytes.getD i 0
  dataLen := bytes.length
  tailroom := tailroom
  rest := none
  olFlags := {}
  rss := 0
  fits := fits

/-- `rte_pktmbuf_is_contiguous`. -/
def contiguous (m : Mbuf) : Bool := m.rest.isNone

/-- `rte_pktmbuf_pkt_len`. -/
def pktLen (m : Mbuf) : ℕ := m.dataLen + m.rest.getD 0

/-- `rte_pktmbuf_trim`, of a frame in one segment. -/
def trim (m : Mbuf) (n : ℕ) : Mbuf :=
  { m with
    dataLen := m.dataLen - n
    tailroom := m.tailroom + min n m.dataLen
    fits := by have := m.fits; omega }

/-- `rte_pktmbuf_append`, of a frame in one segment. -/
def append (m : Mbuf) (n : ℕ) : Option Mbuf :=
  if h : n ≤ m.tailroom then
    some { m with
      dataLen := m.dataLen + n
      tailroom := m.tailroom - n
      fits := by have := m.fits; omega }
  else none

/-! ### Values in a frame -/

def get16 (m : Mbuf) (off : ℕ) : UInt16 :=
  UInt16.ofNat ((m.byte off).toNat + 256 * (m.byte (off + 1)).toNat)

def get32 (m : Mbuf) (off : ℕ) : UInt32 :=
  UInt32.ofNat ((m.byte off).toNat + 256 * (m.byte (off + 1)).toNat +
    65536 * (m.byte (off + 2)).toNat + 16777216 * (m.byte (off + 3)).toNat)

def getMac (m : Mbuf) (off : ℕ) : MacAddr := Vector.ofFn fun i => m.byte (off + i)

/-- Write the `n` bytes `f` at `off`. -/
def put (m : Mbuf) (off n : ℕ) (f : ℕ → UInt8) : Mbuf :=
  { m with byte := fun i => if off ≤ i ∧ i < off + n then f (i - off) else m.byte i }

/-- The `k`-th byte of a value in memory. -/
def leByte (v k : ℕ) : UInt8 := UInt8.ofNat (v / 256 ^ k)

def set8 (m : Mbuf) (off : ℕ) (v : UInt8) : Mbuf := m.put off 1 fun _ => v

def set16 (m : Mbuf) (off : ℕ) (v : UInt16) : Mbuf := m.put off 2 (leByte v.toNat)

def set32 (m : Mbuf) (off : ℕ) (v : UInt32) : Mbuf := m.put off 4 (leByte v.toNat)

def setMac (m : Mbuf) (off : ℕ) (mac : MacAddr) : Mbuf := m.put off 6 fun k => mac.toList.getD k 0

/-! ### Checked accesses -/

/-- The frame has the `n` bytes at `off`. -/
def access (m : Mbuf) (off n : ℕ) : Except Fault Unit :=
  if off + n ≤ m.dataLen then .ok () else .error (.frame (off + n) m.dataLen)

def load8 (m : Mbuf) (off : ℕ) : Except Fault UInt8 := do m.access off 1; return m.byte off
def load16 (m : Mbuf) (off : ℕ) : Except Fault UInt16 := do m.access off 2; return m.get16 off
def load32 (m : Mbuf) (off : ℕ) : Except Fault UInt32 := do m.access off 4; return m.get32 off
def loadMac (m : Mbuf) (off : ℕ) : Except Fault MacAddr := do m.access off 6; return m.getMac off

def store8 (m : Mbuf) (off : ℕ) (v : UInt8) : Except Fault Mbuf := do m.access off 1; return m.set8 off v
def store16 (m : Mbuf) (off : ℕ) (v : UInt16) : Except Fault Mbuf := do
  m.access off 2; return m.set16 off v
def store32 (m : Mbuf) (off : ℕ) (v : UInt32) : Except Fault Mbuf := do
  m.access off 4; return m.set32 off v
def storeMac (m : Mbuf) (off : ℕ) (mac : MacAddr) : Except Fault Mbuf := do
  m.access off 6; return m.setMac off mac

/-- `memset`. -/
def fill (m : Mbuf) (off n : ℕ) (v : UInt8) : Except Fault Mbuf := do
  m.access off n; return m.put off n fun _ => v

/-- `memmove`. -/
def move (m : Mbuf) (dst src n : ℕ) : Except Fault Mbuf := do
  m.access src n
  m.access dst n
  return m.put dst n fun k => m.byte (src + k)

/-! ### In bounds the accesses return -/

section Bounds

variable {m : Mbuf} {off n : ℕ}

theorem access_eq (h : off + n ≤ m.dataLen) : m.access off n = .ok () := if_pos h

theorem load8_eq (h : off < m.dataLen) : m.load8 off = .ok (m.byte off) := by
  rw [load8, access_eq h]; rfl

theorem load16_eq (h : off + 2 ≤ m.dataLen) : m.load16 off = .ok (m.get16 off) := by
  rw [load16, access_eq h]; rfl

theorem load32_eq (h : off + 4 ≤ m.dataLen) : m.load32 off = .ok (m.get32 off) := by
  rw [load32, access_eq h]; rfl

theorem loadMac_eq (h : off + 6 ≤ m.dataLen) : m.loadMac off = .ok (m.getMac off) := by
  rw [loadMac, access_eq h]; rfl

theorem store8_eq (h : off < m.dataLen) (v : UInt8) : m.store8 off v = .ok (m.set8 off v) := by
  rw [store8, access_eq h]; rfl

theorem store16_eq (h : off + 2 ≤ m.dataLen) (v : UInt16) : m.store16 off v = .ok (m.set16 off v) := by
  rw [store16, access_eq h]; rfl

theorem store32_eq (h : off + 4 ≤ m.dataLen) (v : UInt32) : m.store32 off v = .ok (m.set32 off v) := by
  rw [store32, access_eq h]; rfl

theorem storeMac_eq (h : off + 6 ≤ m.dataLen) (mac : MacAddr) :
    m.storeMac off mac = .ok (m.setMac off mac) := by
  rw [storeMac, access_eq h]; rfl

theorem fill_eq (h : off + n ≤ m.dataLen) (v : UInt8) : m.fill off n v = .ok (m.put off n fun _ => v) := by
  rw [fill, access_eq h]; rfl

theorem move_eq {dst src : ℕ} (hs : src + n ≤ m.dataLen) (hd : dst + n ≤ m.dataLen) :
    m.move dst src n = .ok (m.put dst n fun k => m.byte (src + k)) := by
  rw [move, access_eq hs, access_eq hd]; rfl

end Bounds

/-! ### What a write does -/

theorem byte_put (m : Mbuf) (off n : ℕ) (f : ℕ → UInt8) (i : ℕ) :
    (m.put off n f).byte i = if off ≤ i ∧ i < off + n then f (i - off) else m.byte i := rfl

@[simp] theorem dataLen_put (m : Mbuf) (off n : ℕ) (f) : (m.put off n f).dataLen = m.dataLen := rfl
@[simp] theorem dataLen_set8 (m : Mbuf) (off : ℕ) (v) : (m.set8 off v).dataLen = m.dataLen := rfl
@[simp] theorem dataLen_set16 (m : Mbuf) (off : ℕ) (v) : (m.set16 off v).dataLen = m.dataLen := rfl
@[simp] theorem dataLen_set32 (m : Mbuf) (off : ℕ) (v) : (m.set32 off v).dataLen = m.dataLen := rfl
@[simp] theorem dataLen_setMac (m : Mbuf) (off : ℕ) (v) : (m.setMac off v).dataLen = m.dataLen := rfl

theorem byte_set8 (m : Mbuf) (off : ℕ) (v : UInt8) (i : ℕ) :
    (m.set8 off v).byte i = if i = off then v else m.byte i := by
  rw [set8, byte_put]
  by_cases h : i = off
  · rw [if_pos (by omega), if_pos h]
  · rw [if_neg (by omega), if_neg h]

theorem get16_toNat (m : Mbuf) (off : ℕ) : (m.get16 off).toNat = OnesComplement.word m.byte off := by
  have := OnesComplement.word_le m.byte off
  rw [get16, UInt16.toNat_ofNat', Nat.mod_eq_of_lt]
  · rfl
  · unfold OnesComplement.word at this
    omega

/-- A write is seen only where it is. -/
theorem byte_put_of_lt (m : Mbuf) {off n i : ℕ} (f : ℕ → UInt8) (h : i < off ∨ off + n ≤ i) :
    (m.put off n f).byte i = m.byte i := by
  rw [byte_put, if_neg (by omega)]

theorem byte_set8_of {m : Mbuf} {off i : ℕ} (v : UInt8) (h : i < off ∨ off + 1 ≤ i) :
    (m.set8 off v).byte i = m.byte i := byte_put_of_lt m _ h

theorem byte_set16_of {m : Mbuf} {off i : ℕ} (v : UInt16) (h : i < off ∨ off + 2 ≤ i) :
    (m.set16 off v).byte i = m.byte i := byte_put_of_lt m _ h

theorem byte_set32_of {m : Mbuf} {off i : ℕ} (v : UInt32) (h : i < off ∨ off + 4 ≤ i) :
    (m.set32 off v).byte i = m.byte i := byte_put_of_lt m _ h

theorem byte_setMac_of {m : Mbuf} {off i : ℕ} (v : MacAddr) (h : i < off ∨ off + 6 ≤ i) :
    (m.setMac off v).byte i = m.byte i := byte_put_of_lt m _ h

theorem leByte_toNat (v k : ℕ) : (leByte v k).toNat = v / 256 ^ k % 256 := by
  rw [leByte, UInt8.toNat_ofNat']

theorem get16_set16 (m : Mbuf) (off : ℕ) (v : UInt16) : (m.set16 off v).get16 off = v := by
  have := v.toNat_lt
  have h0 : ((m.set16 off v).byte off).toNat = v.toNat % 256 := by
    rw [set16, byte_put, if_pos (by omega), leByte_toNat]
    simp
  have h1 : ((m.set16 off v).byte (off + 1)).toNat = v.toNat / 256 := by
    rw [set16, byte_put, if_pos (by omega), leByte_toNat, show off + 1 - off = 1 by omega, pow_one]
    omega
  apply UInt16.toNat_inj.mp
  rw [get16_toNat, OnesComplement.word, h0, h1]
  omega

theorem set16_set16 (m : Mbuf) (off : ℕ) (v w : UInt16) : (m.set16 off v).set16 off w = m.set16 off w := by
  have h : ((m.set16 off v).set16 off w).byte = (m.set16 off w).byte := by
    funext i
    simp only [set16, byte_put]
    split <;> rfl
  unfold set16 put at *
  simp only at h ⊢
  rw [h]

/-- Storing what is there changes nothing. -/
theorem set16_get16 (m : Mbuf) (off : ℕ) : m.set16 off (m.get16 off) = m := by
  have h0 := (m.byte off).toNat_lt
  have h1 := (m.byte (off + 1)).toNat_lt
  have hb : (m.set16 off (m.get16 off)).byte = m.byte := by
    funext i
    rw [set16, byte_put]
    split
    · rename_i hi
      apply UInt8.toNat_inj.mp
      rw [leByte_toNat, get16_toNat, OnesComplement.word]
      obtain rfl | rfl : i = off ∨ i = off + 1 := by omega
      · rw [Nat.sub_self, pow_zero]
        omega
      · rw [show off + 1 - off = 1 by omega, pow_one]
        omega
    · rfl
  unfold set16 put at *
  simp only at hb
  rw [hb]

theorem get16_congr {m m' : Mbuf} {off : ℕ} (h0 : m'.byte off = m.byte off)
    (h1 : m'.byte (off + 1) = m.byte (off + 1)) : m'.get16 off = m.get16 off := by
  rw [get16, get16, h0, h1]

theorem get32_congr {m m' : Mbuf} {off : ℕ} (h : ∀ i, off ≤ i → i < off + 4 → m'.byte i = m.byte i) :
    m'.get32 off = m.get32 off := by
  rw [get32, get32, h off (by omega) (by omega), h (off + 1) (by omega) (by omega),
    h (off + 2) (by omega) (by omega), h (off + 3) (by omega) (by omega)]

theorem get32_set32 (m : Mbuf) (off : ℕ) (v : UInt32) : (m.set32 off v).get32 off = v := by
  have := v.toNat_lt
  have hb : ∀ k, k < 4 → ((m.set32 off v).byte (off + k)).toNat = v.toNat / 256 ^ k % 256 := by
    intro k hk
    rw [set32, byte_put, if_pos (by omega), leByte_toNat, show off + k - off = k by omega]
  have h0 := hb 0 (by omega)
  have h1 := hb 1 (by omega)
  have h2 := hb 2 (by omega)
  have h3 := hb 3 (by omega)
  apply UInt32.toNat_inj.mp
  rw [get32, ← Nat.add_zero off, Nat.add_zero off, h1, h2, h3, UInt32.toNat_ofNat']
  rw [Nat.add_zero] at h0
  rw [h0]
  omega

theorem getMac_congr {m m' : Mbuf} {off : ℕ} (h : ∀ i, off ≤ i → i < off + 6 → m'.byte i = m.byte i) :
    m'.getMac off = m.getMac off := by
  unfold getMac
  congr 1
  funext i
  exact h _ (by omega) (by omega)

theorem getMac_setMac (m : Mbuf) (off : ℕ) (mac : MacAddr) : (m.setMac off mac).getMac off = mac := by
  ext i hi
  have hb : (m.setMac off mac).byte (off + i) = mac.toList.getD i 0 := by
    rw [setMac, byte_put, if_pos (by omega), Nat.add_sub_cancel_left]
  have hlen : i < mac.toList.length := by rwa [Vector.length_toList]
  rw [getMac, Vector.getElem_ofFn, hb, List.getD_eq_getElem?_getD, List.getElem?_eq_getElem hlen,
    Vector.getElem_toList, Option.getD_some]

/-- The frame with other bytes. -/
def withByte (m : Mbuf) (b : ℕ → UInt8) : Mbuf := { m with byte := b }

/-- The two frames differ in their bytes at most. -/
def SameShape (m m' : Mbuf) : Prop := m' = m.withByte m'.byte

theorem SameShape.refl (m : Mbuf) : SameShape m m := rfl

theorem SameShape.dataLen {m m' : Mbuf} (h : SameShape m m') : m'.dataLen = m.dataLen := by
  rw [h]; rfl

theorem SameShape.trans {a b c : Mbuf} (h : SameShape a b) (h' : SameShape b c) : SameShape a c := by
  rw [SameShape, h'] at *
  rw [h]
  rfl

theorem sameShape_put (m : Mbuf) (off n : ℕ) (f : ℕ → UInt8) : SameShape m (m.put off n f) := rfl

end Mbuf
end L4Lb
