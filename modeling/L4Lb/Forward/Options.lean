/-
# What the option edits do to a packet

The options and the payload of a TCP packet as lists of bytes. `strip_timestamp`
blanks the timestamp options that a walk over the options meets, although it
reads the length of each once more after it has been overwritten; `insert_toa`
puts its 8 bytes in front of the options and moves the rest. `Edited` puts
together what step 1 of `nat_rewrite` leaves of a packet.
-/
import L4Lb.Forward.Spec
import L4Lb.Lib.OptionList

open Checked OptionList

namespace L4Lb

/-! ### Pieces of a frame -/

namespace Mbuf

/-- The `n` bytes at `off`. -/
def slice (m : Mbuf) (off n : ℕ) : List UInt8 := (List.range n).map fun i => m.byte (off + i)

variable {m m' : Mbuf} {off off' n : ℕ}

@[simp] theorem length_slice (m : Mbuf) (off n : ℕ) : (m.slice off n).length = n := by
  rw [slice, List.length_map, List.length_range]

theorem slice_zero (m : Mbuf) (off : ℕ) : m.slice off 0 = [] := rfl

theorem slice_succ (m : Mbuf) (off n : ℕ) : m.slice off (n + 1) = m.byte off :: m.slice (off + 1) n := by
  rw [slice, slice, List.range_succ_eq_map, List.map_cons, List.map_map, Nat.add_zero]
  congr 1
  apply List.map_congr_left
  intro i _
  rw [Function.comp_apply, Nat.add_assoc, Nat.add_comm 1 i]

theorem slice_add (m : Mbuf) (off k n : ℕ) : m.slice off (k + n) = m.slice off k ++ m.slice (off + k) n := by
  rw [slice, slice, slice, List.range_add, List.map_append, List.map_map]
  congr 1
  apply List.map_congr_left
  intro i _
  rw [Function.comp_apply, Nat.add_assoc]

theorem slice_congr (h : ∀ i, i < n → m'.byte (off' + i) = m.byte (off + i)) :
    m'.slice off' n = m.slice off n :=
  List.map_congr_left fun i hi => h i (List.mem_range.mp hi)

/-- A piece that has been filled with one value. -/
theorem slice_put_const (m : Mbuf) {a k : ℕ} (v : UInt8) (h : a ≤ off) (h' : off + n ≤ a + k) :
    (m.put a k fun _ => v).slice off n = List.replicate n v := by
  refine List.eq_replicate_iff.mpr ⟨length_slice _ _ _, fun b hb => ?_⟩
  obtain ⟨i, hi, rfl⟩ := List.mem_map.mp hb
  have hi := List.mem_range.mp hi
  rw [byte_put, if_pos (by omega)]

/-- A write behind a piece goes on with it. -/
theorem slice_put_append (m : Mbuf) (off k n : ℕ) (f : ℕ → UInt8) :
    (m.put (off + k) n f).slice off (k + n) = m.slice off k ++ (List.range n).map f := by
  rw [slice_add]
  congr 1
  · exact slice_congr fun i hi => byte_put_of_lt m f (by omega)
  · refine List.map_congr_left fun i hi => ?_
    have hi := List.mem_range.mp hi
    rw [byte_put, if_pos (by omega), Nat.add_sub_cancel_left]

end Mbuf

/-- The TCP options of the packet. -/
def tcpOptions (m : Mbuf) (p : PacketMeta) : List UInt8 :=
  m.slice (p.l4Offset + 20) (p.payloadOffset - (p.l4Offset + 20))

/-! ### Stripping the timestamp -/

section Next

variable {m : Mbuf} {opt n : ℕ}

/-- Where the walk over the options ends. -/
theorem next_slice_none (h : n = 0 ∨ m.byte opt = 0 ∨
      (m.byte opt ≠ 1 ∧ (n = 1 ∨ (m.byte (opt + 1)).toNat < 2 ∨ n < (m.byte (opt + 1)).toNat))) :
    next (m.slice opt n) = none := by
  rcases n with _ | _ | n
  · rfl
  · rw [Mbuf.slice_succ, Mbuf.slice_zero, next]
    refine if_neg fun h1 => ?_
    rcases h with h | h | h
    · omega
    · exact absurd (h.symm.trans h1) (by decide)
    · exact h.1 h1
  · rw [Mbuf.slice_succ, Mbuf.slice_succ, next, Mbuf.length_slice]
    by_cases h0 : m.byte opt = 0
    · rw [if_pos h0]
    rcases h with h | h | ⟨h1, h⟩
    · omega
    · exact absurd h h0
    · rw [if_neg h0, if_neg h1, if_pos (by omega)]

/-- An option of a kind that has a length. -/
theorem next_slice_some (h0 : m.byte opt ≠ 0) (h1 : m.byte opt ≠ 1) (hn : 2 ≤ n)
    (hlen : 2 ≤ (m.byte (opt + 1)).toNat) (hle : (m.byte (opt + 1)).toNat ≤ n) :
    next (m.slice opt n) = some (m.slice opt (m.byte (opt + 1)).toNat,
      m.slice (opt + (m.byte (opt + 1)).toNat) (n - (m.byte (opt + 1)).toNat)) := by
  set len := (m.byte (opt + 1)).toNat with hl
  have hcut : m.slice opt n = m.slice opt len ++ m.slice (opt + len) (n - len) := by
    rw [← Mbuf.slice_add, Nat.add_sub_cancel' hle]
  have htake : (m.slice opt n).take len = m.slice opt len := by
    rw [hcut]
    exact List.take_left' (Mbuf.length_slice _ _ _)
  have hdrop : (m.slice opt n).drop len = m.slice (opt + len) (n - len) := by
    rw [hcut]
    exact List.drop_left' (Mbuf.length_slice _ _ _)
  obtain ⟨k, rfl⟩ : ∃ k, n = k + 1 + 1 := ⟨n - 2, by omega⟩
  rw [← htake, ← hdrop, Mbuf.slice_succ, Mbuf.slice_succ, next, if_neg h0, if_neg h1, Mbuf.length_slice,
    if_neg (by omega)]

end Next

/-- What `strip_timestamp` has to make of the `n` bytes of options at `opt`. -/
def Stripped (m : Mbuf) (opt n : ℕ) (changed : Bool) (r : Mbuf × Bool) : Prop :=
  r.1.slice opt n = blank 8 (m.slice opt n) ∧ r.2 = (changed || met 8 (m.slice opt n))

theorem stripped_none {m : Mbuf} {opt n : ℕ} (h : next (m.slice opt n) = none) (changed : Bool) :
    Stripped m opt n changed (m, changed) := by
  obtain ⟨hb, hm⟩ := blank_of_not_next 8 h
  exact ⟨hb.symm, by rw [hm, Bool.or_false]⟩

section Turn

variable {m : Mbuf} {opt stop len : ℕ} {changed : Bool} {r : Mbuf × Bool}

/-- What the walk makes of an option of a kind that has a length. -/
theorem blank_slice (h0 : m.byte opt ≠ 0) (h1 : m.byte opt ≠ 1) (hl : (m.byte (opt + 1)).toNat = len)
    (h2 : 2 ≤ len) (hle : opt + len ≤ stop) :
    blank 8 (m.slice opt (stop - opt)) = (if m.byte opt = 8 then List.replicate len 1 else m.slice opt len) ++
        blank 8 (m.slice (opt + len) (stop - (opt + len))) ∧
      met 8 (m.slice opt (stop - opt)) =
        (m.byte opt == 8 || met 8 (m.slice (opt + len) (stop - (opt + len)))) := by
  obtain ⟨hb, hm⟩ := blank_of_next 8 (next_slice_some (n := stop - opt) h0 h1 (by omega) (by omega) (by omega))
  have hhead : (m.slice opt len).head? = some (m.byte opt) := by
    rw [show len = len - 1 + 1 by omega, Mbuf.slice_succ, List.head?_cons]
  rw [hl, show stop - opt - len = stop - (opt + len) by omega] at hb hm
  rw [hb, hm, blankOption, hhead, Mbuf.length_slice, Option.some_beq_some]
  simp only [Option.some.injEq, and_self]

/-- A NOP stays. -/
theorem Stripped.nop (hopt : opt < stop) (h1 : m.byte opt = 1) (hb : r.1.byte opt = m.byte opt)
    (h : Stripped m (opt + 1) (stop - (opt + 1)) changed r) : Stripped m opt (stop - opt) changed r := by
  have hcut : ∀ m : Mbuf, m.slice opt (stop - opt) = m.byte opt :: m.slice (opt + 1) (stop - (opt + 1)) :=
    fun m => by rw [← Mbuf.slice_succ, show stop - (opt + 1) + 1 = stop - opt by omega]
  obtain ⟨hb', hm'⟩ := blank_of_next 8 (next_one (m.slice (opt + 1) (stop - (opt + 1))))
  unfold Stripped
  rw [hcut r.1, hcut m, hb, h1, hb', hm', h.1, h.2]
  exact ⟨rfl, rfl⟩

/-- Over a timestamp the code goes on NOP by NOP, with the length that it has
overwritten. -/
theorem Stripped.timestamp (h8 : m.byte opt = 8) (hl : (m.byte (opt + 1)).toNat = len) (h2 : 2 ≤ len)
    (hle : opt + len ≤ stop) (hb : r.1.byte opt = 1)
    (h : Stripped (m.put opt len fun _ => 1) (opt + 1) (stop - (opt + 1)) true r) :
    Stripped m opt (stop - opt) changed r := by
  obtain ⟨hs, hc⟩ := h
  have hrest : (m.put opt len fun _ => 1).slice (opt + 1) (stop - (opt + 1)) =
      List.replicate (len - 1) 1 ++ m.slice (opt + len) (stop - (opt + len)) := by
    have hcut : stop - (opt + 1) = len - 1 + (stop - (opt + len)) := by omega
    rw [hcut, Mbuf.slice_add, Mbuf.slice_put_const m 1 (by omega) (by omega),
      show opt + 1 + (len - 1) = opt + len by omega,
      Mbuf.slice_congr fun i _ => Mbuf.byte_put_of_lt m _ (by omega)]
  obtain ⟨hb', hm'⟩ := blank_slice (m := m) (by rw [h8]; decide) (by rw [h8]; decide) hl h2 hle
  obtain ⟨hbn, -⟩ := blank_ones (show (8 : UInt8) ≠ 1 by decide) (m.slice (opt + len) (stop - (opt + len)))
    (len - 1)
  rw [hrest, hbn] at hs
  constructor
  · calc r.1.slice opt (stop - opt)
        = r.1.byte opt :: r.1.slice (opt + 1) (stop - (opt + 1)) := by
          rw [← Mbuf.slice_succ, show stop - (opt + 1) + 1 = stop - opt by omega]
      _ = 1 :: (List.replicate (len - 1) 1 ++ blank 8 (m.slice (opt + len) (stop - (opt + len)))) := by
          rw [hs, hb]
      _ = List.replicate len 1 ++ blank 8 (m.slice (opt + len) (stop - (opt + len))) := by
          rw [← List.cons_append, ← List.replicate_succ, show len - 1 + 1 = len by omega]
      _ = blank 8 (m.slice opt (stop - opt)) := by rw [hb', if_pos h8]
  · rw [hc, hm', h8]
    simp

/-- Any other option stays as it is. -/
theorem Stripped.other (h0 : m.byte opt ≠ 0) (h1 : m.byte opt ≠ 1) (h8 : m.byte opt ≠ 8)
    (hl : (m.byte (opt + 1)).toNat = len) (h2 : 2 ≤ len) (hle : opt + len ≤ stop)
    (hb : ∀ i, i < opt + len → r.1.byte i = m.byte i)
    (h : Stripped m (opt + len) (stop - (opt + len)) changed r) : Stripped m opt (stop - opt) changed r := by
  obtain ⟨hs, hc⟩ := h
  obtain ⟨hb', hm'⟩ := blank_slice h0 h1 hl h2 hle
  constructor
  · calc r.1.slice opt (stop - opt)
        = r.1.slice opt len ++ r.1.slice (opt + len) (stop - (opt + len)) := by
          rw [← Mbuf.slice_add, show len + (stop - (opt + len)) = stop - opt by omega]
      _ = m.slice opt len ++ blank 8 (m.slice (opt + len) (stop - (opt + len))) := by
          rw [hs, Mbuf.slice_congr fun i _ => hb _ (by omega)]
      _ = blank 8 (m.slice opt (stop - opt)) := by rw [hb', if_neg h8]
  · rw [hc, hm', beq_eq_false_iff_ne.mpr h8, Bool.false_or]

end Turn

/-- The loop does what the walk over the list of options does, by induction on
the turns. -/
theorem stripLoop_blank (stop : ℕ) : ∀ (fuel : ℕ) (m : Mbuf) (opt : ℕ) (changed : Bool),
    stop ≤ m.dataLen → opt ≤ stop → stop < fuel + opt →
    Returns (stripLoop stop fuel m opt changed) (Stripped m opt (stop - opt) changed)
  | 0, _, _, _, _, _, _ => by omega
  | fuel + 1, m, opt, changed, hlen, hopt, hf => by
    have hturn : ∀ (m' : Mbuf) (opt' : ℕ) (c : Bool), stop ≤ m'.dataLen → opt' ≤ stop → opt < opt' →
        Returns (stripLoop stop fuel m' opt' c) fun r =>
          (∀ i, i < opt' → r.1.byte i = m'.byte i) ∧ Stripped m' opt' (stop - opt') c r :=
      fun m' opt' c h1 h2 h3 => by
        obtain ⟨r, hr, -, hb, -⟩ := stripLoop_returns stop fuel m' opt' c h1 h2 (by omega)
        obtain ⟨r', hr', hs⟩ := stripLoop_blank stop fuel m' opt' c h1 h2 (by omega)
        obtain rfl : r = r' := Except.ok.inj (hr.symm.trans hr')
        exact ⟨r, hr, fun i hi => hb i (Or.inl hi), hs⟩
    unfold stripLoop
    by_cases h1 : opt ≥ stop
    · rw [if_pos h1]
      exact .ok (stripped_none (next_slice_none (Or.inl (by omega))) changed)
    rw [if_neg h1, Mbuf.load8_eq (by omega), ok_bind]
    by_cases h2 : m.byte opt = 0
    · rw [if_pos h2]
      exact .ok (stripped_none (next_slice_none (Or.inr (Or.inl h2))) changed)
    rw [if_neg h2]
    by_cases h3 : m.byte opt = 1
    · rw [if_pos h3]
      exact (hturn m (opt + 1) changed hlen (by omega) (by omega)).mono fun r hr =>
        hr.2.nop (by omega) h3 (hr.1 opt (by omega))
    rw [if_neg h3]
    by_cases h4 : opt + 1 ≥ stop
    · rw [if_pos h4]
      exact .ok (stripped_none (next_slice_none (Or.inr (Or.inr ⟨h3, Or.inl (by omega)⟩))) changed)
    rw [if_neg h4, Mbuf.load8_eq (by omega)]
    simp only [ok_bind]
    by_cases h5 : (m.byte (opt + 1)).toNat < 2 ∨ opt + (m.byte (opt + 1)).toNat > stop
    · rw [if_pos h5]
      exact .ok (stripped_none (next_slice_none (Or.inr (Or.inr ⟨h3, by omega⟩))) changed)
    rw [if_neg h5]
    by_cases h6 : m.byte opt = 8
    · simp only [h6, ↓reduceIte, beq_self_eq_true, Bool.or_true]
      rw [Mbuf.fill_eq (by omega), ok_bind, Mbuf.load8_eq (by rw [Mbuf.dataLen_put]; omega), ok_bind,
        Mbuf.byte_put, if_pos (by omega)]
      refine (hturn _ (opt + 1) true (by rw [Mbuf.dataLen_put]; omega) (by omega) (by omega)).mono fun r hr => ?_
      refine hr.2.timestamp h6 rfl (by omega) (by omega) ?_
      rw [hr.1 opt (by omega), Mbuf.byte_put, if_pos (by omega)]
    · simp only [h6, ↓reduceIte, pure_eq_ok, ok_bind, beq_eq_false_iff_ne.mpr h6, Bool.or_false]
      rw [Mbuf.load8_eq (by omega), ok_bind]
      exact (hturn m _ changed hlen (by omega) (by omega)).mono fun r hr =>
        hr.2.other h2 h3 h6 rfl (by omega) (by omega) hr.1

/-- The options of the TCP header at `tcp`. -/
def Mbuf.optionsAt (m : Mbuf) (tcp : ℕ) : List UInt8 := m.slice (tcp + 20) (m.doffOf tcp - 20)

/-- `strip_timestamp` returns, with the timestamp options blanked that a walk
over the options meets, and leaves every other byte alone. -/
theorem stripTimestamp_blank {m : Mbuf} {tcp : ℕ} (hdoff : 20 ≤ m.doffOf tcp)
    (hlen : tcp + m.doffOf tcp ≤ m.dataLen) :
    Returns (stripTimestamp m tcp) fun r =>
      Mbuf.SameShape m r.1 ∧ (∀ i, i < tcp + 20 ∨ tcp + m.doffOf tcp ≤ i → r.1.byte i = m.byte i) ∧
      (r.2 = false → r.1 = m) ∧
      r.1.optionsAt tcp = blank 8 (m.optionsAt tcp) ∧ r.2 = met 8 (m.optionsAt tcp) := by
  unfold stripTimestamp
  rw [Mbuf.tcpHeaderLen_eq (by omega), ok_bind]
  obtain ⟨r, hr, hs, hb, hc⟩ := stripLoop_returns (tcp + m.doffOf tcp) (m.doffOf tcp + 1) m (tcp + 20) false hlen
    (by omega) (by omega)
  obtain ⟨r', hr', hopts, hmet⟩ := stripLoop_blank (tcp + m.doffOf tcp) (m.doffOf tcp + 1) m (tcp + 20) false hlen
    (by omega) (by omega)
  obtain rfl : r = r' := Except.ok.inj (hr.symm.trans hr')
  have hoff : r.1.doffOf tcp = m.doffOf tcp := Mbuf.doffOf_congr (hb _ (by omega))
  have hstop : tcp + m.doffOf tcp - (tcp + 20) = m.doffOf tcp - 20 := by omega
  rw [hstop] at hopts hmet
  refine ⟨r, hr, hs, hb, fun h => (hc h).1, ?_, hmet⟩
  rw [Mbuf.optionsAt, hoff]
  exact hopts

/-- **`strip_timestamp` is its reference.** For every TCP header in the frame and
any option bytes it returns, writes inside the options only, makes of them what
the walk of `OptionList` makes of them, and says whether a timestamp was met. A
second call finds none and changes nothing. -/
theorem stripTimestamp_reference {m : Mbuf} {tcp : ℕ} (hdoff : 20 ≤ m.doffOf tcp)
    (hlen : tcp + m.doffOf tcp ≤ m.dataLen) :
    ∃ r, stripTimestamp m tcp = .ok (r, met 8 (m.optionsAt tcp)) ∧ Mbuf.SameShape m r ∧
      (∀ i, ¬ (tcp + 20 ≤ i ∧ i < tcp + m.doffOf tcp) → r.byte i = m.byte i) ∧
      r.optionsAt tcp = blank 8 (m.optionsAt tcp) ∧
      met 8 (r.optionsAt tcp) = false ∧ stripTimestamp r tcp = .ok (r, false) := by
  obtain ⟨⟨r, changed⟩, hr, hs, hb, -, hopts, hmet⟩ := stripTimestamp_blank hdoff hlen
  simp only at hs hb hopts hmet
  subst hmet
  have hno : met 8 (r.optionsAt tcp) = false := by
    rw [hopts]
    exact met_blank (by decide) _
  refine ⟨r, hr, hs, fun i hi => hb i (by omega), hopts, hno, ?_⟩
  have hoff : r.doffOf tcp = m.doffOf tcp := Mbuf.doffOf_congr (hb _ (by omega))
  have hdoff' : 20 ≤ r.doffOf tcp := hoff ▸ hdoff
  have hlen' : tcp + r.doffOf tcp ≤ r.dataLen := by
    rw [hoff, hs.dataLen]
    exact hlen
  obtain ⟨⟨r', changed'⟩, hr', -, -, hsame, -, hmet'⟩ := stripTimestamp_blank hdoff' hlen'
  obtain rfl : changed' = false := hmet'.trans hno
  obtain rfl : r' = r := hsame rfl
  exact hr'

/-- A TCP header of 36 bytes: its options are an MSS, two timestamps side by
side, a NOP, a third timestamp and a fourth that leaves the header. -/
def stampedHeader : Mbuf :=
  Mbuf.ofBytes
    [4, 210, 0, 80, 0, 0, 0, 1, 0, 0, 0, 0, 144, 2, 255, 255, 0, 0, 0, 0,
      2, 4, 5, 180, 8, 3, 7, 8, 2, 1, 8, 4, 1, 1, 8, 9]
    8 (by decide)

theorem stripTimestamp_reference_stamped :
    ∃ r, stripTimestamp stampedHeader 0 = .ok (r, true) ∧
      r.optionsAt 0 = [2, 4, 5, 180, 1, 1, 1, 1, 1, 1, 1, 1, 1, 1, 8, 9] ∧
      stripTimestamp r 0 = .ok (r, false) := by
  have hmet : met 8 (stampedHeader.optionsAt 0) = true := by decide +kernel
  have hdoff : 20 ≤ stampedHeader.doffOf 0 := by decide +kernel
  have hlen : 0 + stampedHeader.doffOf 0 ≤ stampedHeader.dataLen := by decide +kernel
  obtain ⟨r, hr, -, -, hopts, -, hagain⟩ := stripTimestamp_reference hdoff hlen
  rw [hmet] at hr
  refine ⟨r, hr, ?_, hagain⟩
  rw [hopts]
  decide +kernel

/-- The options of SYNs are to be stripped. -/
def NatOptions.strips (opt : NatOptions) (p : PacketMeta) : Bool := opt.stripTs && hasFlag p.tcpFlags TCP_SYN

/-- The options after the first edit. -/
def strippedOptions (m : Mbuf) (p : PacketMeta) (opt : NatOptions) : List UInt8 :=
  if opt.strips p then blank 8 (tcpOptions m p) else tcpOptions m p

theorem stripOption_blank {m : Mbuf} {p : PacketMeta} (h : Parsed m p) (htcp : p.ipProtocol = 6)
    (opt : NatOptions) :
    Returns (stripOption m p.l4Offset opt) fun r =>
      (∀ i, i < p.l4Offset + 20 ∨ p.payloadOffset ≤ i → r.1.byte i = m.byte i) ∧
      tcpOptions r.1 p = strippedOptions m p opt ∧ r.2 = (opt.strips p && met 8 (tcpOptions m p)) := by
  obtain ⟨hdoff, hpay, hle, hflags⟩ := h.tcp htcp
  have htot := h.total_le
  unfold stripOption strippedOptions NatOptions.strips
  rw [hflags]
  by_cases hts : opt.stripTs = false
  · rw [if_pos hts, hts]
    exact .ok ⟨fun _ _ => rfl, rfl, rfl⟩
  rw [if_neg hts, Mbuf.load8_eq (by omega), ok_bind, Bool.of_not_eq_false hts, Bool.true_and]
  split
  · rename_i hsyn
    have hopts : ∀ m' : Mbuf, m'.doffOf p.l4Offset = m.doffOf p.l4Offset →
        tcpOptions m' p = m'.optionsAt p.l4Offset := fun m' hoff => by
      rw [tcpOptions, Mbuf.optionsAt, hoff, hpay, Nat.add_sub_add_left]
    obtain ⟨r, hr, -, hb, -, hs, hc⟩ := stripTimestamp_blank hdoff (by omega)
    rw [← hpay] at hb
    have hoff : r.1.doffOf p.l4Offset = m.doffOf p.l4Offset := Mbuf.doffOf_congr (hb _ (by omega))
    refine ⟨r, hr, hb, ?_, ?_⟩
    · rw [hopts r.1 hoff, hopts m rfl]
      exact hs
    · rw [hc, hsyn, hopts m rfl]
      rfl
  · rename_i hsyn
    exact .ok ⟨fun _ _ => rfl, rfl, by rw [Bool.of_not_eq_true hsyn]; rfl⟩

/-! ### Inserting the TOA option -/

/-- The TOA option, with the address and the port as they are in memory. -/
def toaOption (ip : IPv4Addr) (port : Port) : List UInt8 :=
  [254, 8] ++ (List.range 2).map (Mbuf.leByte port.toNat) ++ (List.range 4).map (Mbuf.leByte ip.toNat)

section Toa

variable {m : Mbuf} {p : PacketMeta} (ip : IPv4Addr) (port : Port)

theorem toaFrame_option (hl4 : 34 ≤ p.l4Offset) :
    (toaFrame m p ip port).slice (p.l4Offset + 20) 8 = toaOption ip port := by
  -- the last two writes are before the option
  have hlast : ∀ (F : Mbuf) (d : UInt8) (t : UInt16),
      ((F.set8 (p.l4Offset + 12) d).set16 16 t).slice (p.l4Offset + 20) 8 = F.slice (p.l4Offset + 20) 8 :=
    fun F d t => Mbuf.slice_congr fun i _ => by
      simp (disch := omega) only [Mbuf.byte_set16_of, Mbuf.byte_set8_of]
  unfold toaFrame toaOption
  simp only
  rw [hlast, Mbuf.set32, Mbuf.slice_put_append _ _ 4 4, Mbuf.set16, Mbuf.slice_put_append _ _ 2 2, Mbuf.set8,
    Mbuf.slice_put_append _ _ 1 1, Mbuf.set8]
  exact congrArg (· ++ _ ++ _ ++ _) (Mbuf.slice_put_append _ _ 0 1 _)

/-- Behind the fixed part of the TCP header the packet has moved. -/
theorem toaFrame_moved (hl4 : 34 ≤ p.l4Offset) {k : ℕ} (hk : p.l4Offset + 20 + k < p.totalLen) :
    (toaFrame m p ip port).byte (p.l4Offset + 28 + k) = m.byte (p.l4Offset + 20 + k) := by
  unfold toaFrame
  simp (disch := omega) only [Mbuf.byte_set16_of, Mbuf.byte_set8_of, Mbuf.byte_set32_of]
  rw [Mbuf.byte_put, if_pos (by omega), show p.l4Offset + 28 + k - (p.l4Offset + 20 + 8) = k by omega]

/-- The option is the first one; the others follow as they were. -/
theorem toaFrame_options (hl4 : 34 ≤ p.l4Offset) (hpay : p.l4Offset + 20 ≤ p.payloadOffset)
    (hle : p.payloadOffset ≤ p.totalLen) :
    tcpOptions (toaFrame m p ip port) p.addToa = toaOption ip port ++ tcpOptions m p := by
  have hlen : p.payloadOffset + 8 - (p.l4Offset + 20) = 8 + (p.payloadOffset - (p.l4Offset + 20)) := by omega
  show (toaFrame m p ip port).slice (p.l4Offset + 20) (p.payloadOffset + 8 - (p.l4Offset + 20)) = _
  rw [hlen, Mbuf.slice_add, toaFrame_option ip port hl4]
  congr 1
  exact Mbuf.slice_congr fun i hi => toaFrame_moved ip port hl4 (by omega)

end Toa

/-- The option goes in only if the longer packet is inside the MTU. -/
theorem insertToa_mtu {m r : Mbuf} {p p' : PacketMeta} {ip : IPv4Addr} {port : Port} {mtu : ℕ} (h : Parsed m p)
    (htcp : p.ipProtocol = 6) (hr : insertToa m p ip port mtu = .ok (r, p', true)) :
    m.totalOf 14 + 8 ≤ mtu := by
  obtain ⟨hdoff, hpay, hle, -⟩ := h.tcp htcp
  have hl4 := h.l4
  have htotle := h.total_le
  unfold insertToa at hr
  rw [h.l3, Mbuf.tcpHeaderLen_eq (by omega), ok_bind, Mbuf.ipTotalLength_eq (by omega), ok_bind] at hr
  split at hr
  · cases hr
  · omega

/-! ### Both edits -/

/-- Step 1 of `nat_rewrite` has made `m1`, with the offsets `p1`, of the frame
`m`, and reports `out`. -/
structure Edited (m : Mbuf) (p : PacketMeta) (opt : NatOptions) (m1 : Mbuf) (p1 : PacketMeta)
    (out : RewriteOutcome) : Prop where
  offsets : p1 = if out.toaAdded then p.addToa else p
  header : ∀ i, i < p.l4Offset + 20 →
    (out.toaAdded = true → i ≠ 16 ∧ i ≠ 17 ∧ i ≠ p.l4Offset + 12) → m1.byte i = m.byte i
  reserved : (m1.byte (p.l4Offset + 12)).toNat % 16 = (m.byte (p.l4Offset + 12)).toNat % 16
  options : p.ipProtocol = 6 → tcpOptions m1 p1 =
    (if out.toaAdded then toaOption opt.toaIp opt.toaPort else []) ++ strippedOptions m p opt
  payload : ∀ k, p.payloadOffset + k < p.totalLen →
    m1.byte (p1.payloadOffset + k) = m.byte (p.payloadOffset + k)
  stripped : out.tsStripped = (decide (p.ipProtocol = 6) && opt.strips p && met 8 (tcpOptions m p))
  added : out.toaAdded = true → p.ipProtocol = 6 ∧ opt.addToa = true ∧ m.totalOf 14 + 8 ≤ opt.mtu

theorem rewriteOptions_edited {m : Mbuf} {p : PacketMeta} (h : Parsed m p) (opt : NatOptions) :
    Returns (rewriteOptions m p opt) fun r => Edited m p opt r.1 r.2.1 r.2.2.1 := by
  have htot := h.total_le
  have hihl := h.ihl
  have hl4 := h.l4
  have hle := h.l4_le
  unfold rewriteOptions
  rw [Mbuf.load8_eq (by rw [h.l3]; omega), ok_bind, h.l3, ← show _ = m.byte (14 + 9) from h.protocol]
  by_cases htcp : p.ipProtocol = 6
  swap
  · rw [if_pos htcp]
    exact .ok ⟨rfl, fun _ _ _ => rfl, rfl, fun h6 => absurd h6 htcp, fun _ _ => rfl, by simp [htcp], by simp⟩
  obtain ⟨hdoff, hpay, hple, -⟩ := h.tcp htcp
  rw [if_neg (not_not.mpr htcp)]
  obtain ⟨⟨m1, stripped⟩, hm1, h1, -⟩ := stripOption_returns h htcp opt
  obtain ⟨r', hr', hb1, hopts, hstr⟩ := stripOption_blank h htcp opt
  obtain rfl : (m1, stripped) = r' := Except.ok.inj (hm1.symm.trans hr')
  simp only at h1 hb1 hopts hstr
  have hstr' : stripped = (decide (p.ipProtocol = 6) && opt.strips p && met 8 (tcpOptions m p)) := by
    simp [hstr, htcp]
  -- without the option nothing behind the first edit changes
  have hkeep : ∀ (m2 : Mbuf) (noRoom : Bool), m2.byte = m1.byte →
      Edited m p opt m2 p ⟨stripped, false, noRoom⟩ := fun m2 noRoom hb2 =>
    ⟨rfl, fun i hi _ => by rw [hb2]; exact hb1 i (Or.inl hi), by rw [hb2, hb1 _ (by omega)],
      fun _ => (Mbuf.slice_congr fun i _ => congrFun hb2 _).trans hopts,
      fun k _ => by rw [hb2]; exact hb1 _ (by omega), hstr', by simp⟩
  rw [hm1, ok_bind]
  simp only
  split
  · rename_i hadd
    obtain ⟨⟨m2, p2, added⟩, hm2, hno, hyes⟩ := insertToa_returns h1 htcp opt.toaIp opt.toaPort opt.mtu
    rw [hm2, ok_bind]
    cases added with
    | false =>
      obtain ⟨rfl, hb2, -⟩ := hno rfl
      exact .ok (hkeep m2 true hb2)
    | true =>
      have hmtu := insertToa_mtu h1 htcp hm2
      obtain ⟨m3, hb3, -, h60, rfl, rfl⟩ := hyes rfl
      have hb : ∀ i, i < p.l4Offset + 20 ∨ p.payloadOffset ≤ i → m3.byte i = m.byte i := fun i hi => by
        rw [hb3]
        exact hb1 i hi
      have edoff : m3.doffOf p.l4Offset = m1.doffOf p.l4Offset := Mbuf.doffOf_congr (congrFun hb3 _)
      have etot : m1.totalOf 14 = m.totalOf 14 := Mbuf.totalOf_congr fun i _ _ => hb1 i (by omega)
      refine .ok ⟨rfl, fun i hi hne => ?_, ?_, fun _ => ?_, fun k hk => ?_, hstr', fun _ => ⟨htcp, hadd, ?_⟩⟩
      · obtain ⟨h16, h17, h12⟩ := hne rfl
        rw [toaFrame_byte _ _ hi (by omega) h12, hb i (Or.inl hi)]
      · rw [toaFrame_dataOffset _ _ (by omega) (by omega), hb _ (Or.inl (by omega))]
        omega
      · rw [toaFrame_options _ _ (by omega) (by omega) hple, if_pos rfl, ← hopts]
        congr 1
        exact Mbuf.slice_congr fun i _ => congrFun hb3 _
      · obtain ⟨j, hj⟩ : ∃ j, p.payloadOffset + k = p.l4Offset + 20 + j :=
          ⟨p.payloadOffset + k - (p.l4Offset + 20), by omega⟩
        show (toaFrame m3 p _ _).byte (p.payloadOffset + 8 + k) = _
        rw [show p.payloadOffset + 8 + k = p.l4Offset + 28 + j by omega, toaFrame_moved _ _ (by omega) (by omega),
          ← hj, hb _ (Or.inr (by omega))]
      · rw [← etot]
        exact hmtu
  · exact .ok (hkeep m1 false rfl)

end L4Lb
