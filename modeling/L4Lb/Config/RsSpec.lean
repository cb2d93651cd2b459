/-
# Two readers of one address

The configuration (`Config::parse_rs`) and the command `add` (`parse_rs_spec`) both
read `ip:port[:weight]`. On the same fields they do the same, but they do not find
the same fields: `Config::split` drops every empty field, `parse_rs_spec` only one
at the end. And both leave the numbers to `strtoul`, which takes a sign and stops
at a NUL.

Here both are compared with the form as it is documented (`rsGrammar`), for texts
without white space that have no field for an address of the NIC. Each text of that
form is read alike by both. They differ from it precisely on the texts that
are read at all (`ReadableSpec`) and in which a field is empty or a `+`, a `-` or a
NUL occurs (`readers_agree_iff`).
-/
import L4Lb.Config.Parse
import L4Lb.Control

namespace L4Lb

/-! ### The form -/

/-- A number in decimal digits. -/
def decimalField (s : List Char) : Option ℕ := if s ≠ [] ∧ s.all Char.isDigit then some (decimal s) else none

/-- `ip:port` or `ip:port:weight`, with a port from 1 to 65535 and a weight up to
65535. -/
def rsGrammar (s : List Char) : Option RsConf :=
  match s.splitOn ':' with
  | [ip, port] => do
    let ip ← dottedQuad ip
    let port ← (decimalField port).filter fun n => 1 ≤ n ∧ n ≤ 65535
    return { ip := ip, port := UInt16.ofNat port }
  | [ip, port, weight] => do
    let ip ← dottedQuad ip
    let port ← (decimalField port).filter fun n => 1 ≤ n ∧ n ≤ 65535
    let weight ← (decimalField weight).filter (· ≤ 65535)
    return { ip := ip, port := UInt16.ofNat port, weight := weight }
  | _ => none

/-- A character that is read as it stands: no sign for `strtoul`, no end for
`c_str`. -/
def PlainChar (c : Char) : Prop := c ≠ '+' ∧ c ≠ '-' ∧ c ≠ '\x00'

instance (c : Char) : Decidable (PlainChar c) := inferInstanceAs (Decidable (_ ∧ _))

/-- No field is empty, and each character is read as it stands. -/
structure PlainSpec (s : List Char) : Prop where
  fields : [] ∉ s.splitOn ':'
  chars : ∀ c ∈ s, PlainChar c

/-- `strtoul` reads the whole field, and a number from `lo` to `hi` in it. -/
def ReadsIn (lo hi : ℕ) (field : List Char) : Prop :=
  (strtoul (cStr field)).2 = [] ∧ lo ≤ (strtoul (cStr field)).1 ∧ (strtoul (cStr field)).1 ≤ hi

/-- The fields of the text that are not empty are an address, a port and perhaps a
weight, as `inet_pton` and `strtoul` read them. -/
def ReadableSpec (s : List Char) : Prop :=
  match (s.splitOn ':').filter (· ≠ []) with
  | [ip, port] => (dottedQuad (cStr ip)).isSome ∧ ReadsIn 1 65535 port
  | [ip, port, weight] => (dottedQuad (cStr ip)).isSome ∧ ReadsIn 1 65535 port ∧ ReadsIn 0 65535 weight
  | _ => False

/-! ### The fields -/

/-- A number as both readers take it, if `ok` holds of it. -/
def readNumber (ok : ℕ → Bool) (s : List Char) : Option ℕ :=
  let n := strtoul (cStr s)
  if n.2 = [] ∧ ok n.1 then some n.1 else none

def portOk (n : ℕ) : Bool := 1 ≤ n ∧ n ≤ 65535

def weightOk (n : ℕ) : Bool := n ≤ 65535

/-- What both readers do with two or three fields. -/
def readFields : List (List Char) → Option RsConf
  | [ip, port] => do
    let ip ← parseIpv4 ip
    let port ← readNumber portOk port
    return { ip := ip, port := UInt16.ofNat port }
  | [ip, port, weight] => do
    let ip ← parseIpv4 ip
    let port ← readNumber portOk port
    let weight ← readNumber weightOk weight
    return { ip := ip, port := UInt16.ofNat port, weight := weight }
  | _ => none

section Texts

variable {c sep : Char} {s part : List Char}

theorem mem_intercalate_of_mem : ∀ {ls : List (List Char)}, part ∈ ls → c ∈ part → c ∈ [sep].intercalate ls
  | [l], hp, hc => by
    obtain rfl := List.mem_singleton.mp hp
    simpa using hc
  | l :: l' :: ls, hp, hc => by
    rw [List.intercalate_cons_cons]
    rcases List.mem_cons.mp hp with rfl | hp
    · exact List.mem_append_left _ (List.mem_append_left _ hc)
    · exact List.mem_append_right _ (mem_intercalate_of_mem hp hc)

theorem mem_of_mem_intercalate : ∀ {ls : List (List Char)},
    c ∈ [sep].intercalate ls → c = sep ∨ ∃ part ∈ ls, c ∈ part
  | [], h => by simp at h
  | [l], h => Or.inr ⟨l, List.mem_singleton_self l, by simpa using h⟩
  | l :: l' :: ls, h => by
    rw [List.intercalate_cons_cons, List.mem_append, List.mem_append, List.mem_singleton] at h
    rcases h with (h | h) | h
    · exact Or.inr ⟨l, List.mem_cons_self, h⟩
    · exact Or.inl h
    · rcases mem_of_mem_intercalate h with h | ⟨part, hp, hc⟩
      · exact Or.inl h
      · exact Or.inr ⟨part, List.mem_cons_of_mem _ hp, hc⟩

theorem intercalate_splitOn_self (s : List Char) (sep : Char) : [sep].intercalate (s.splitOn sep) = s :=
  List.intercalate_splitOn sep

/-- The parts of a text have characters of the text. -/
theorem mem_of_mem_splitOn (hp : part ∈ s.splitOn sep) (hc : c ∈ part) : c ∈ s := by
  rw [← intercalate_splitOn_self s sep]
  exact mem_intercalate_of_mem hp hc

/-- `getline` misses an empty part at most. -/
theorem filter_getlineParts (s : List Char) (sep : Char) :
    (getlineParts sep s).filter (· ≠ []) = (s.splitOn sep).filter (· ≠ []) := by
  unfold getlineParts
  simp only
  split
  · rename_i hl
    conv_rhs => rw [← List.dropLast_append_getLast? [] hl, List.filter_append]
    simp
  · rfl

theorem mem_getlineParts (hp : part ∈ getlineParts sep s) : part ∈ s.splitOn sep := by
  unfold getlineParts at hp
  simp only at hp
  split at hp
  · exact List.mem_of_mem_dropLast hp
  · exact hp

theorem dropWhile_eq_self {p : Char → Bool} (h : ∀ c ∈ s, p c = false) : s.dropWhile p = s := by
  cases s with
  | nil => rfl
  | cons c s => rw [List.dropWhile_cons_of_neg (by simp [h c List.mem_cons_self])]

theorem cStr_eq_self (h : ∀ c ∈ s, c ≠ '\x00') : cStr s = s :=
  List.takeWhile_eq_self_iff.mpr fun c hc => by simpa using h c hc

theorem Config.trim_eq_self (h : ∀ c ∈ s, isspace c = false) : Config.trim s = s := by
  rw [Config.trim, dropWhile_eq_self h, dropWhile_eq_self fun c hc => h c (List.mem_reverse.mp hc),
    List.reverse_reverse]

/-- The fields of the configuration are those of the command, less the empty
ones. -/
theorem Config.split_eq (h : ∀ c ∈ s, isspace c = false) :
    Config.split s ':' = (getlineParts ':' s).filter (· ≠ []) := by
  show ((getlineParts ':' s).map Config.trim).filter _ = _
  have htrim : (getlineParts ':' s).map Config.trim = (getlineParts ':' s).map id := List.map_congr_left fun part hp =>
    Config.trim_eq_self fun c hc => h c (mem_of_mem_splitOn (mem_getlineParts hp) hc)
  rw [htrim, List.map_id]

end Texts

/-! ### The two readers -/

section Readers

variable {s : List Char}

/-- The tests of the source, and when they let a number pass. -/
theorem readNumber_eq (ok : ℕ → Bool) (part : List Char) {c : Prop} [Decidable c] {e : String}
    (hc : c ↔ ¬ ((strtoul (cStr part)).2 = [] ∧ ok (strtoul (cStr part)).1 = true)) :
    (if c then (.error e : Except String ℕ) else .ok (strtoul (cStr part)).1).toOption = readNumber ok part := by
  unfold readNumber
  by_cases h : (strtoul (cStr part)).2 = [] ∧ ok (strtoul (cStr part)).1 = true
  · rw [if_neg (fun hc' => hc.mp hc' h), if_pos h]
    rfl
  · rw [if_pos (hc.mpr h), if_neg h]
    rfl

theorem Config.rsPort_toOption (key : String) (part : List Char) :
    (Config.rsPort key part).toOption = readNumber portOk part := by
  refine readNumber_eq portOk part ?_
  simp only [portOk, decide_eq_true_eq, not_and_or]
  exact or_congr Iff.rfl (by omega)

theorem Config.rsWeight_toOption (key : String) (part : List Char) :
    (Config.rsWeight key part).toOption = readNumber weightOk part := by
  refine readNumber_eq weightOk part ?_
  simp only [weightOk, decide_eq_true_eq, not_and_or, not_le]

theorem toOption_bind {ε α β : Type} (x : Except ε α) (f : α → Except ε β) :
    (x >>= f).toOption = x.toOption.bind fun a => (f a).toOption := by
  cases x <;> rfl

theorem Config.orError_toOption {α : Type} (x : Option α) (e : String) : (Config.orError x e).toOption = x := by
  cases x <;> rfl

/-- `Config::parse_rs`, on its fields. -/
theorem parseRs_eq (key : String) (hlen : (Config.split s ':').length ≤ 3) :
    (Config.parseRs key s).toOption = readFields (Config.split s ':') := by
  unfold Config.parseRs
  generalize Config.split s ':' = parts at hlen
  match parts, hlen with
  | [], _ => rfl
  | [_], _ => rfl
  | [ip, port], _ =>
    show (Config.orError (parseIpv4 ip) _ >>= fun ip => Config.rsPort key port >>= fun port =>
      .ok { ip := ip, port := UInt16.ofNat port : RsConf }).toOption = _
    simp only [toOption_bind, Config.orError_toOption, Config.rsPort_toOption]
    rfl
  | [ip, port, weight], _ =>
    show (Config.orError (parseIpv4 ip) _ >>= fun ip => Config.rsPort key port >>= fun port =>
      Config.rsWeight key weight >>= fun weight =>
        .ok { ip := ip, port := UInt16.ofNat port, weight := weight : RsConf }).toOption = _
    simp only [toOption_bind, Config.orError_toOption, Config.rsPort_toOption, Config.rsWeight_toOption]
    rfl

/-- `parse_u32` reads a number in range as `strtoul` does. -/
theorem readNumber_eq_filter {ok : ℕ → Bool} (hok : ∀ n, ok n = true → n ≤ 65535) {part : List Char}
    (hne : part ≠ []) : readNumber ok part = (parseU32 part).filter ok := by
  apply Option.ext
  intro v
  rw [Option.filter_eq_some_iff, parseU32_eq_some_iff, readNumber]
  constructor
  · intro h
    split at h
    · rename_i hn
      obtain rfl := Option.some.inj h
      exact ⟨⟨hne, hn.1, rfl, (hok _ hn.2).trans (by decide)⟩, hn.2⟩
    · cases h
  · intro ⟨⟨_, hend, hv, _⟩, hn⟩
    rw [← hv] at hn ⊢
    exact if_pos ⟨hend, hn⟩

theorem portOk_iff {n : ℕ} : portOk n = true ↔ ¬ (n = 0 ∨ n > 65535) := by
  rw [portOk, decide_eq_true_eq]
  omega

theorem weightOk_iff {n : ℕ} : weightOk n = true ↔ ¬ n > 65535 := by
  rw [weightOk, decide_eq_true_eq]
  omega

theorem readNumber_port {part : List Char} (hne : part ≠ []) :
    readNumber portOk part = (parseU32 part).filter portOk :=
  readNumber_eq_filter (fun n h => by rw [portOk_iff] at h; omega) hne

theorem readNumber_weight {part : List Char} (hne : part ≠ []) :
    readNumber weightOk part = (parseU32 part).filter weightOk :=
  readNumber_eq_filter (fun n h => by rw [weightOk_iff] at h; omega) hne

theorem parseIpv4_nil : parseIpv4 [] = none := by decide

/-- `parse_rs_spec`, on its fields. -/
theorem parseRsSpec_eq (s : List Char) :
    parseRsSpec s = if [] ∈ getlineParts ':' s then none else readFields (getlineParts ':' s) := by
  unfold parseRsSpec
  generalize getlineParts ':' s = parts
  match parts with
  | [] => rfl
  | [_] => simp [readFields]
  | [ip, port] =>
    by_cases hip : ip = []
    · simp [hip, parseIpv4_nil]
    by_cases hport : port = []
    · simp [hport, parseU32]
    rw [if_neg (by simp [Ne.symm hip, Ne.symm hport])]
    simp only [readFields, readNumber_port hport]
    cases parseIpv4 ip with
    | none => rfl
    | some ip =>
      cases parseU32 port with
      | none => rfl
      | some port => by_cases hp : port = 0 ∨ port > 65535 <;> simp [hp, Option.filter_some, portOk_iff]
  | [ip, port, weight] =>
    by_cases hip : ip = []
    · simp [hip, parseIpv4_nil]
    by_cases hport : port = []
    · simp [hport, parseU32]
    by_cases hweight : weight = []
    · simp [hweight, parseU32]
    rw [if_neg (by simp [Ne.symm hip, Ne.symm hport, Ne.symm hweight])]
    simp only [readFields, readNumber_port hport, readNumber_weight hweight, List.map_cons, List.map_nil]
    cases parseIpv4 ip with
    | none => rfl
    | some ip =>
      cases parseU32 port with
      | none => rfl
      | some port =>
        cases parseU32 weight with
        | none => by_cases hp : port = 0 ∨ port > 65535 <;> simp [hp, Option.filter_some, portOk_iff]
        | some weight =>
          by_cases hp : port = 0 ∨ port > 65535
          · simp [← or_assoc, hp, Option.filter_some, portOk_iff]
          · by_cases hw : weight > 65535 <;> simp [hp, hw, Option.filter_some, portOk_iff, weightOk_iff]
  | ip :: port :: weight :: more :: rest => simp [readFields]

/-- What the command accepts, the configuration accepts too. -/
theorem parseRs_of_parseRsSpec {r : RsConf} (key : String) (hspace : ∀ c ∈ s, isspace c = false)
    (hlen : (Config.split s ':').length ≤ 3) (h : parseRsSpec s = some r) :
    (Config.parseRs key s).toOption = some r := by
  rw [parseRsSpec_eq] at h
  split at h
  · cases h
  rename_i hne
  rw [parseRs_eq key hlen, Config.split_eq hspace, List.filter_eq_self.mpr, h]
  intro part hp
  simpa using fun he : part = [] => hne (he ▸ hp)

/-! ### Plain texts -/

theorem PlainChar.of_isDigit {c : Char} (h : c.isDigit = true) : PlainChar c := by
  refine ⟨?_, ?_, ?_⟩ <;>
  · rintro rfl
    revert h
    decide

theorem sign_plain (h : ∀ c ∈ s, PlainChar c) : sign s = (false, s) := by
  unfold sign
  split
  · exact absurd rfl (h '-' List.mem_cons_self).2.1
  · exact absurd rfl (h '+' List.mem_cons_self).1
  · rfl

/-- A plain field is read as a number precisely if it has digits only. -/
theorem readNumber_plain {ok : ℕ → Bool} (hok : ∀ n, ok n = true → n ≤ 65535) (hne : s ≠ [])
    (hspace : ∀ c ∈ s, isspace c = false) (hplain : ∀ c ∈ s, PlainChar c) :
    readNumber ok s = (decimalField s).filter ok := by
  have hnumeral : numeral s = if s ≠ [] ∧ s.all Char.isDigit then some (false, decimal s) else none := by
    unfold numeral
    rw [dropWhile_eq_self hspace, sign_plain hplain]
  unfold readNumber decimalField
  rw [cStr_eq_self fun c hc => (hplain c hc).2.2]
  simp only
  by_cases hd : s ≠ [] ∧ s.all Char.isDigit
  · rw [if_pos hd] at hnumeral ⊢
    rw [numeral_eq_some hnumeral]
    simp only [true_and, Bool.false_eq_true, ↓reduceIte]
    by_cases hn : ok (decimal s) = true
    · have hmax : ¬ decimal s > kUlongMax := by
        have := hok _ hn
        unfold kUlongMax
        omega
      rw [if_neg hmax, if_pos hn]
      exact (Option.filter_some_pos hn).symm
    · rw [Option.filter_some_neg (Bool.eq_false_of_not_eq_true hn), if_neg]
      intro hn'
      split at hn'
      · exact absurd (hok _ hn') (by decide)
      · exact hn hn'
  · rw [if_neg hd] at hnumeral ⊢
    rw [if_neg]
    · rfl
    · intro h
      rcases strtoul_end h.1 with he | ⟨p, hp⟩
      · exact hne he
      · rw [hnumeral] at hp
        cases hp

/-- On plain texts the form is what is read. -/
theorem PlainSpec.grammar_eq (h : PlainSpec s) (hspace : ∀ c ∈ s, isspace c = false) :
    rsGrammar s = readFields (s.splitOn ':') := by
  have hip : ∀ part ∈ s.splitOn ':', parseIpv4 part = dottedQuad part := fun part hp => by
    show dottedQuad (cStr part) = _
    rw [cStr_eq_self fun c hc => (h.chars c (mem_of_mem_splitOn hp hc)).2.2]
  have hnum : ∀ {ok : ℕ → Bool}, (∀ n, ok n = true → n ≤ 65535) → ∀ part ∈ s.splitOn ':',
      readNumber ok part = (decimalField part).filter ok := fun hok part hp =>
    readNumber_plain hok (fun he => h.fields (he ▸ hp)) (fun c hc => hspace c (mem_of_mem_splitOn hp hc))
      fun c hc => h.chars c (mem_of_mem_splitOn hp hc)
  have hport : ∀ n, portOk n = true → n ≤ 65535 := fun n hn => by rw [portOk_iff] at hn; omega
  have hweight : ∀ n, weightOk n = true → n ≤ 65535 := fun n hn => by rw [weightOk_iff] at hn; omega
  unfold rsGrammar readFields
  generalize s.splitOn ':' = parts at hip hnum
  match parts with
  | [] => rfl
  | [_] => rfl
  | [ip, port] =>
    simp only [hip ip (by simp), hnum hport port (by simp)]
    rfl
  | [ip, port, weight] =>
    simp only [hip ip (by simp), hnum hport port (by simp), hnum hweight weight (by simp)]
    rfl
  | _ :: _ :: _ :: _ :: _ => rfl

theorem PlainSpec.getlineParts_eq (h : PlainSpec s) : getlineParts ':' s = s.splitOn ':' := by
  unfold getlineParts
  exact if_neg fun hl => h.fields (List.mem_of_getLast? hl)

/-- Both readers read a plain text as the form says. -/
theorem PlainSpec.agree (h : PlainSpec s) (key : String) (hspace : ∀ c ∈ s, isspace c = false)
    (hlen : (Config.split s ':').length ≤ 3) :
    (Config.parseRs key s).toOption = rsGrammar s ∧ parseRsSpec s = rsGrammar s := by
  have hne : [] ∉ getlineParts ':' s := h.getlineParts_eq ▸ h.fields
  rw [parseRs_eq key hlen, Config.split_eq hspace, parseRsSpec_eq, if_neg hne, List.filter_eq_self.mpr,
    h.getlineParts_eq, h.grammar_eq hspace]
  · exact ⟨rfl, rfl⟩
  · intro part hp
    simpa using fun he : part = [] => hne (he ▸ hp)

/-! ### Texts of the form -/

theorem decimalField_plain {part : List Char} {n : ℕ} (h : decimalField part = some n) :
    part ≠ [] ∧ ∀ c ∈ part, PlainChar c := by
  unfold decimalField at h
  split at h
  · rename_i hd
    exact ⟨hd.1, fun c hc => .of_isDigit (List.all_eq_true.mp hd.2 c hc)⟩
  · cases h

theorem octet_plain {part : List Char} {n : ℕ} (h : octet part = some n) : ∀ c ∈ part, PlainChar c := by
  unfold octet at h
  split at h
  · rename_i hd
    exact fun c hc => .of_isDigit (List.all_eq_true.mp hd.2.1 c hc)
  · cases h

theorem dottedQuad_plain {part : List Char} {ip : IPv4Addr} (h : dottedQuad part = some ip) :
    part ≠ [] ∧ ∀ c ∈ part, PlainChar c := by
  constructor
  · rintro rfl
    revert h
    simp [dottedQuad, List.splitOn, octet]
  · intro c hc
    rw [← intercalate_splitOn_self part '.'] at hc
    rcases mem_of_mem_intercalate hc with rfl | ⟨o, ho, hco⟩
    · exact ⟨by decide, by decide, by decide⟩
    · unfold dottedQuad at h
      split at h
      · rename_i a b c' d heq
        have hmem : octet o ∈ [some a, some b, some c', some d] := heq ▸ List.mem_map_of_mem ho
        have hsome : ∃ n, octet o = some n := by
          simp only [List.mem_cons, List.not_mem_nil, or_false] at hmem
          rcases hmem with h | h | h | h <;> exact ⟨_, h⟩
        obtain ⟨n, hn⟩ := hsome
        exact octet_plain hn c hco
      · cases h

/-- A text of the form is plain. -/
theorem plainSpec_of_grammar {r : RsConf} (h : rsGrammar s = some r) : PlainSpec s := by
  have key : (∀ part ∈ s.splitOn ':', part ≠ [] ∧ ∀ c ∈ part, PlainChar c) → PlainSpec s := by
    intro hall
    refine ⟨fun hnil => (hall [] hnil).1 rfl, fun c hc => ?_⟩
    rw [← intercalate_splitOn_self s ':'] at hc
    rcases mem_of_mem_intercalate hc with rfl | ⟨part, hp, hc⟩
    · exact ⟨by decide, by decide, by decide⟩
    · exact (hall part hp).2 c hc
  refine key ?_
  unfold rsGrammar at h
  split at h
  · rename_i ip port heq
    obtain ⟨a, hip, h⟩ := Option.bind_eq_some_iff.mp h
    obtain ⟨n, hport, h⟩ := Option.bind_eq_some_iff.mp h
    rw [heq]
    simp only [List.forall_mem_cons, List.not_mem_nil, false_imp_iff, implies_true, and_true]
    exact ⟨dottedQuad_plain hip, decimalField_plain (Option.eq_some_of_filter_eq_some hport)⟩
  · rename_i ip port weight heq
    obtain ⟨a, hip, h⟩ := Option.bind_eq_some_iff.mp h
    obtain ⟨n, hport, h⟩ := Option.bind_eq_some_iff.mp h
    obtain ⟨w, hweight, h⟩ := Option.bind_eq_some_iff.mp h
    rw [heq]
    simp only [List.forall_mem_cons, List.not_mem_nil, false_imp_iff, implies_true, and_true]
    exact ⟨dottedQuad_plain hip, decimalField_plain (Option.eq_some_of_filter_eq_some hport),
      decimalField_plain (Option.eq_some_of_filter_eq_some hweight)⟩
  · cases h

theorem readNumber_isSome_iff {ok : ℕ → Bool} {lo hi : ℕ} (hok : ∀ n, ok n = true ↔ lo ≤ n ∧ n ≤ hi)
    (field : List Char) : (readNumber ok field).isSome ↔ ReadsIn lo hi field := by
  unfold readNumber ReadsIn
  simp only [hok]
  split
  · rename_i h; simpa using h
  · rename_i h; simpa using h

/-- `Config::parse_rs` accepts the texts whose fields can be read. -/
theorem parseRs_isSome_iff (key : String) (hspace : ∀ c ∈ s, isspace c = false)
    (hlen : (Config.split s ':').length ≤ 3) : (Config.parseRs key s).toOption.isSome ↔ ReadableSpec s := by
  have hport := @readNumber_isSome_iff portOk 1 65535 fun n => by simp [portOk]
  have hweight := @readNumber_isSome_iff weightOk 0 65535 fun n => by simp [weightOk]
  rw [parseRs_eq key hlen, Config.split_eq hspace, filter_getlineParts, ReadableSpec]
  match (s.splitOn ':').filter (· ≠ []) with
  | [] => simp [readFields]
  | [_] => simp [readFields]
  | [ip, port] =>
    simp only [readFields, parseIpv4, ← hport]
    cases dottedQuad (cStr ip) <;> cases readNumber portOk port <;> simp
  | [ip, port, weight] =>
    simp only [readFields, parseIpv4, ← hport, ← hweight]
    cases dottedQuad (cStr ip) <;> cases readNumber portOk port <;> cases readNumber weightOk weight <;> simp
  | _ :: _ :: _ :: _ :: _ => simp [readFields]

/-- **When the two readers agree.** For every text without white space that
`Config::parse_rs` splits into at most three fields: both readers accept it just if
it is `ip:port` or `ip:port:weight` in decimal digits, and then with these values,
if and only if it is not the case that its fields can be read although one of them is
empty, or a `+`, a `-` or a NUL occurs in it. What `parse_rs_spec` accepts,
`Config::parse_rs` accepts with the same values in any case. -/
theorem readers_agree_iff (key : String) (hspace : ∀ c ∈ s, isspace c = false)
    (hlen : (Config.split s ':').length ≤ 3) :
    ((Config.parseRs key s).toOption = rsGrammar s ∧ parseRsSpec s = rsGrammar s ↔
      (ReadableSpec s → PlainSpec s)) ∧
    ∀ r, parseRsSpec s = some r → (Config.parseRs key s).toOption = some r := by
  have hreads := parseRs_isSome_iff key hspace hlen
  refine ⟨⟨fun hagree hread => ?_, fun hplain => ?_⟩, fun r => parseRs_of_parseRsSpec key hspace hlen⟩
  · obtain ⟨r, hr⟩ := Option.isSome_iff_exists.mp (hreads.mpr hread)
    exact plainSpec_of_grammar (hagree.1.symm.trans hr)
  · by_cases hp : PlainSpec s
    · exact hp.agree key hspace hlen
    -- the configuration does not accept it, so the others do not
    have hconf : (Config.parseRs key s).toOption = none :=
      Option.not_isSome_iff_eq_none.mp fun haccepts => hp (hplain (hreads.mp haccepts))
    have hspec : parseRsSpec s = none := Option.eq_none_iff_forall_ne_some.mpr fun r hr =>
      absurd (hconf.symm.trans (parseRs_of_parseRsSpec key hspace hlen hr)) (by simp)
    have hgram : rsGrammar s = none := Option.eq_none_iff_forall_ne_some.mpr fun r hr => hp (plainSpec_of_grammar hr)
    rw [hconf, hspec, hgram]
    exact ⟨rfl, rfl⟩

theorem readers_agree_weight :
    (Config.parseRs "rs" "10.0.0.11:8080:5".toList).toOption =
      some { ip := 0x0B00000A, port := 8080, weight := 5 } ∧
    parseRsSpec "10.0.0.11:8080:5".toList = some { ip := 0x0B00000A, port := 8080, weight := 5 } := by
  have hform : rsGrammar "10.0.0.11:8080:5".toList = some { ip := 0x0B00000A, port := 8080, weight := 5 } := by
    decide +kernel
  have hspace : ("10.0.0.11:8080:5".toList.all fun c => isspace c = false) = true := by decide +kernel
  rw [List.all_eq_true] at hspace
  have h := (readers_agree_iff "rs" (fun c hc => of_decide_eq_true (hspace c hc)) (by decide +kernel)).1.mpr
    fun _ => plainSpec_of_grammar hform
  rwa [hform] at h

/-- An empty field is dropped by one of the readers only; a sign and a colon at the
end are taken by both. -/
theorem readers_differ :
    (Config.split "10.0.0.11::80".toList ':').length = 2 ∧
    (Config.parseRs "rs" "10.0.0.11::80".toList).toOption = some { ip := 0x0B00000A, port := 80 } ∧
    parseRsSpec "10.0.0.11::80".toList = none ∧
    (Config.split "10.0.0.11:+80:".toList ':').length = 2 ∧
    (Config.parseRs "rs" "10.0.0.11:+80:".toList).toOption = some { ip := 0x0B00000A, port := 80 } ∧
    parseRsSpec "10.0.0.11:+80:".toList = some { ip := 0x0B00000A, port := 80 } ∧
    rsGrammar "10.0.0.11:+80:".toList = none := by
  decide +kernel

end Readers

end L4Lb
