/-
# What a reply promises

A reply that starts with `error` promises that nothing has changed, and an `ok`
of `weight`, `enable`, `disable`, `del` or `add` that exactly the real server or
service whose number was typed has changed, and that the change is published
(`Truthful`). The number that was typed is that of the word, with its sign
(`typed`); `parse_u32` reads a negative one modulo 2^64, and `add` cuts the
number of the service to 16 bits. Apart from the commands that these hit
(`Misread`), every reply is truthful, and at these none is.
-/
import L4Lb.Control
import L4Lb.Snapshot.Desired
import L4Lb.World.Owners
import Mathlib.Data.List.TakeWhile

open Checked

namespace L4Lb

/-! ### The typed number -/

/-- The number that was typed, up to a NUL. -/
def typed (w : List Char) : Option ℤ :=
  (numeral (cStr w)).map fun (minus, n) => if minus then -(n : ℤ) else n

/-- `parse_u32` takes the word for `v`, which is not the number typed: that is
negative, or there is none before a NUL. -/
def ReadAs (w : List Char) (v : ℕ) : Prop :=
  (0 < v ∧ typed w = some ((v : ℤ) - 2 ^ 64)) ∨ (w ≠ [] ∧ cStr w = [] ∧ v = 0)

/-- The value of `strtoul` is the number itself, or the one that a minus has
turned round. -/
theorem value_eq_iff {minus : Bool} {n v : ℕ} (hv : v ≤ 0xFFFFFFFF) :
    (if n > kUlongMax then kUlongMax else if minus then (2 ^ 64 - n) % 2 ^ 64 else n) = v ↔
      (if minus then -(n : ℤ) else n) = v ∨ (0 < v ∧ (if minus then -(n : ℤ) else n) = (v : ℤ) - 2 ^ 64) := by
  unfold kUlongMax
  by_cases hn : n > 2 ^ 64 - 1
  · rw [if_pos hn]
    cases minus with
    | false =>
      simp only [Bool.false_eq_true, if_false]
      omega
    | true =>
      simp only [if_true]
      omega
  · rw [if_neg hn]
    cases minus with
    | false =>
      simp only [Bool.false_eq_true, if_false]
      omega
    | true =>
      simp only [if_true]
      omega

/-- **What `parse_u32` reads.** -/
theorem parseU32_eq_some {w : List Char} {v : ℕ} :
    parseU32 w = some v ↔ v ≤ 0xFFFFFFFF ∧ (typed w = some (v : ℤ) ∨ ReadAs w v) := by
  rw [parseU32_eq_some_iff]
  unfold typed ReadAs typed
  cases hn : numeral (cStr w) with
  | none =>
    simp only [Option.map_none, reduceCtorEq, and_false, false_or]
    constructor
    · intro ⟨hw, hend, hv, hle⟩
      rcases strtoul_end hend with he | ⟨p, hp⟩
      · rw [he, strtoul_nil] at hv
        exact ⟨hle, hw, he, hv.symm⟩
      · rw [hn] at hp
        cases hp
    · intro ⟨hle, hw, he, hv⟩
      rw [he, strtoul_nil]
      exact ⟨hw, rfl, hv.symm, hle⟩
  | some p =>
    obtain ⟨minus, n⟩ := p
    have hne : cStr w ≠ [] := by
      intro he
      rw [he] at hn
      cases hn
    have hw : w ≠ [] := by
      intro he
      rw [he] at hne
      exact hne rfl
    rw [numeral_eq_some hn]
    simp only [Option.map_some, Option.some.injEq, hne, false_and, and_false, or_false]
    constructor
    · intro ⟨_, _, hv, hle⟩
      exact ⟨hle, (value_eq_iff hle).mp hv⟩
    · intro ⟨hle, hv⟩
      exact ⟨hw, trivial, (value_eq_iff hle).mpr hv, hle⟩

/-! ### What the commands are for -/

/-- What is done to the real server that a command names. -/
inductive RsChange
  | update (f : DesiredRs → DesiredRs)
  | erase

def RsChange.apply (id : ℕ) : RsChange → List DesiredService → List DesiredService
  | update f, l => l.map (·.onRs id f)
  | erase, l => l.map (·.without id)

def DesiredRs.setWeight (weight : ℕ) (r : DesiredRs) : DesiredRs := { r with conf := { r.conf with weight := weight } }

def DesiredRs.setEnabled (enabled : Bool) (r : DesiredRs) : DesiredRs := { r with enabled := enabled }

/-- What a command does, from the words behind the id; a weight is at most
65535. -/
def rsChange (cmd : List Char) (args : List (List Char)) : Option RsChange :=
  if cmd = "weight".toList then
    match args.map parseU32 with
    | [some w] => if w ≤ 65535 then some (.update (.setWeight w)) else none
    | _ => none
  else if args ≠ [] then none
  else if cmd = "enable".toList then some (.update (.setEnabled true))
  else if cmd = "disable".toList then some (.update (.setEnabled false))
  else if cmd = "del".toList then some .erase
  else none

/-- The commands that name a real server. -/
def rsCommands : List (List Char) := ["weight".toList, "enable".toList, "disable".toList, "del".toList]

namespace SnapshotManager

/-- The services and the next id are these, everything else is as it was, and
it is published. -/
def Published (mgr : SnapshotManager) (services : List DesiredService) (next : ℕ) (mgr' : SnapshotManager) : Prop :=
  ∃ snap, mgr' = { mgr with
    services := services, nextRsId := next, version := mgr.version + 1, cur := some snap } ∧ snap.Shows mgr'

/-- There is room for a real server in service `k`. -/
def Accepts (mgr : SnapshotManager) (k : ℕ) (rs : RsConf) : Prop :=
  ∃ svc, mgr.services[k]? = some svc ∧ svc.rs.length < kMaxRsPerService ∧
    (∀ r ∈ svc.rs, ¬ (r.conf.ip = rs.ip ∧ r.conf.port = rs.port)) ∧ mgr.nextRsId < kMaxRsId

/-- The services with another real server in service `k`. -/
def appended (mgr : SnapshotManager) (k : ℕ) (rs : RsConf) : List DesiredService :=
  mgr.services.modify k fun svc => { svc with rs := svc.rs ++ [{ id := mgr.nextRsId, conf := rs }] }

end SnapshotManager

namespace Control

open SnapshotManager

/-- The promise of an `ok`. -/
def Carried (cmd : List Char) (args : List (List Char)) (mgr mgr' : SnapshotManager) : Prop :=
  (cmd ∈ rsCommands → ∃ (w : List Char) (rest : List (List Char)) (change : RsChange) (id : ℕ),
    args = w :: rest ∧ rsChange cmd rest = some change ∧ typed w = some (id : ℤ) ∧ id ∈ idsOf mgr.services ∧
    mgr.Published (change.apply id mgr.services) mgr.nextRsId mgr') ∧
  (cmd = "add".toList → ∃ (w spec : List Char) (rs : RsConf) (k : ℕ),
    args = [w, spec] ∧ parseRsSpec spec = some rs ∧ typed w = some (k : ℤ) ∧ k < mgr.services.length ∧
    mgr.Published (mgr.appended k rs) (mgr.nextRsId + 1) mgr')

/-- What a reply promises is true. -/
structure Truthful (line : List Char) (mgr : SnapshotManager) (reply : String) (mgr' : SnapshotManager) : Prop where
  error : "error".toList <+: reply.toList → mgr' = mgr
  ok : "ok".toList <+: reply.toList → ∀ cmd args, tokens line = cmd :: args → Carried cmd args mgr mgr'

/-- A command that `execute` carries out on another real server or service
than the typed one. -/
def Misread (line : List Char) (mgr : SnapshotManager) : Prop :=
  ∃ cmd w rest, tokens line = cmd :: w :: rest ∧
    ((cmd ∈ rsCommands ∧ (rsChange cmd rest).isSome ∧ ∃ id ∈ idsOf mgr.services, id ≤ 0xFFFFFFFF ∧ ReadAs w id) ∨
    (cmd = "add".toList ∧ ∃ spec rs, rest = [spec] ∧ parseRsSpec spec = some rs ∧
      ∃ v ≤ 0xFFFFFFFF, (ReadAs w v ∨ (typed w = some (v : ℤ) ∧ 2 ^ 16 ≤ v)) ∧ mgr.Accepts (v % 2 ^ 16) rs))

variable {H : HashFns} {reports : Control → Report → String} {cfg : LbConfig} {C C' : Control}

/-! ### The commands that name a real server -/

theorem publish_published (hc : Config.Valid cfg) {mgr : SnapshotManager} (h : Ok cfg mgr) :
    Returns (mgr.publish H) fun mgr' => Running H cfg mgr' ∧ mgr.Published mgr.services mgr.nextRsId mgr' := by
  obtain ⟨mgr1, h1, hrun, -⟩ := publish_returns (H := H) hc h
  obtain ⟨mgr2, h2, -, -, -, snap, hcur, hshows⟩ := publish_shows (H := H) hc h
  obtain rfl := Except.ok.inj (h1.symm.trans h2)
  refine ⟨mgr1, h1, hrun, snap, ?_, hshows⟩
  unfold publish at h1
  obtain ⟨snap', -, h1⟩ := bind_eq_ok.mp h1
  obtain rfl := Except.ok.inj h1
  obtain rfl := Option.some.inj hcur
  rfl

/-- `x` is what an operation of the manager returns for the real server `id`. -/
theorem commit_returns (hc : Config.Valid cfg) (hrun : Running H cfg C.mgr) {x : Except String SnapshotManager}
    (hx : ∀ mgr, x = .ok mgr → Running H cfg mgr) {id : ℕ} {change : RsChange}
    (hin : id ∈ idsOf C.mgr.services → x = .ok { C.mgr with services := change.apply id C.mgr.services })
    (hout : id ∉ idsOf C.mgr.services → x = .error (noSuchRs id)) :
    Returns (commit H C x) fun p => Running H cfg p.2.mgr ∧
      ((id ∈ idsOf C.mgr.services ∧ p.1 = "ok\n" ∧
        C.mgr.Published (change.apply id C.mgr.services) C.mgr.nextRsId p.2.mgr) ∨
      (id ∉ idsOf C.mgr.services ∧ p.2.mgr = C.mgr ∧ "error".toList <+: p.1.toList)) := by
  by_cases hid : id ∈ idsOf C.mgr.services
  · have hok := hx _ (hin hid)
    rw [hin hid]
    obtain ⟨mgr', hp, hrun', snap, hmgr, hshows⟩ := publish_published (H := H) hc hok.ok
    refine ⟨("ok\n", { C with mgr := mgr' }), ?_, hrun', Or.inl ⟨hid, rfl, snap, hmgr, hshows⟩⟩
    simp only [commit, hp]
    rfl
  · rw [hout hid]
    refine ⟨("error: " ++ noSuchRs id ++ "\n", C), rfl, hrun, Or.inr ⟨hid, rfl, ?_⟩⟩
    rw [String.toList_append, String.toList_append, List.append_assoc]
    exact (show "error".toList <+: "error: ".toList by decide).trans (List.prefix_append _ _)

theorem badCommand_returns (hrun : Running H cfg C.mgr) :
    Returns (badCommand C) fun p => Running H cfg p.2.mgr ∧ p.2.mgr = C.mgr ∧ "error".toList <+: p.1.toList := by
  refine ⟨_, rfl, hrun, rfl, ?_⟩
  rw [String.toList_append]
  exact (show "error".toList <+: "error: bad command\n".toList by decide).trans (List.prefix_append _ _)

theorem setWeight_eq {mgr : SnapshotManager} (hn : (idsOf mgr.services).Nodup) (id weight : ℕ) :
    mgr.setWeight id weight =
      if id ∈ idsOf mgr.services then
        if weight > 65535 then .error "weight must be 0-65535"
        else .ok { mgr with services := (RsChange.update (.setWeight weight)).apply id mgr.services }
      else .error (noSuchRs id) := by
  unfold SnapshotManager.setWeight
  rw [modifyRs_eq hn]
  by_cases hid : id ∈ idsOf mgr.services
  · rw [if_pos hid, if_pos hid]
    rfl
  · rw [if_neg hid, if_neg hid]

theorem setEnabled_eq {mgr : SnapshotManager} (hn : (idsOf mgr.services).Nodup) (id : ℕ) (enabled : Bool) :
    mgr.setEnabled id enabled =
      if id ∈ idsOf mgr.services then
        .ok { mgr with services := (RsChange.update (.setEnabled enabled)).apply id mgr.services }
      else .error (noSuchRs id) := by
  unfold SnapshotManager.setEnabled
  rw [modifyRs_eq hn]
  by_cases hid : id ∈ idsOf mgr.services
  · rw [if_pos hid, if_pos hid]
    rfl
  · rw [if_neg hid, if_neg hid]

theorem delRs_eq {mgr : SnapshotManager} (hn : (idsOf mgr.services).Nodup) (id : ℕ) :
    mgr.delRs id =
      if id ∈ idsOf mgr.services then .ok { mgr with services := RsChange.erase.apply id mgr.services }
      else .error (noSuchRs id) := by
  unfold SnapshotManager.delRs
  rw [eraseRs_eq hn]
  by_cases hid : id ∈ idsOf mgr.services
  · rw [if_pos hid, if_pos hid]
    rfl
  · rw [if_neg hid, if_neg hid]

/-- What comes of a command that names a real server. -/
def RsPost (H : HashFns) (cfg : LbConfig) (mgr : SnapshotManager) (cmd : List Char) (args : List (List Char))
    (p : String × Control) : Prop :=
  Running H cfg p.2.mgr ∧
  ((∃ (w : List Char) (rest : List (List Char)) (change : RsChange) (id : ℕ), args = w :: rest ∧
    rsChange cmd rest = some change ∧ parseU32 w = some id ∧ id ∈ idsOf mgr.services ∧ p.1 = "ok\n" ∧
    mgr.Published (change.apply id mgr.services) mgr.nextRsId p.2.mgr) ∨
  (p.2.mgr = mgr ∧ "error".toList <+: p.1.toList ∧
    ∀ (w : List Char) (rest : List (List Char)) (id : ℕ), args = w :: rest → (rsChange cmd rest).isSome →
      parseU32 w = some id → id ∉ idsOf mgr.services))

/-- The words are no command, or the manager refuses it. -/
theorem RsPost.refused {cmd : List Char} {args : List (List Char)} {x : Except Fault (String × Control)}
    (hx : Returns x fun p => Running H cfg p.2.mgr ∧ p.2.mgr = C.mgr ∧ "error".toList <+: p.1.toList)
    (hno : ∀ (w : List Char) (rest : List (List Char)) (id : ℕ), args = w :: rest → (rsChange cmd rest).isSome →
      parseU32 w = some id → id ∉ idsOf C.mgr.services) : Returns x (RsPost H cfg C.mgr cmd args) :=
  hx.mono fun _ h => ⟨h.1, Or.inr ⟨h.2.1, h.2.2, hno⟩⟩

theorem RsPost.commit (hc : Config.Valid cfg) (hrun : Running H cfg C.mgr) {cmd w : List Char}
    {rest : List (List Char)} {change : RsChange} {id : ℕ} (hchange : rsChange cmd rest = some change)
    (hw : parseU32 w = some id) {x : Except String SnapshotManager} (hx : ∀ mgr, x = .ok mgr → Running H cfg mgr)
    (he : x = if id ∈ idsOf C.mgr.services then .ok { C.mgr with services := change.apply id C.mgr.services }
      else .error (noSuchRs id)) :
    Returns (Control.commit H C x) (RsPost H cfg C.mgr cmd (w :: rest)) := by
  refine (commit_returns hc hrun hx (fun hid => he.trans (if_pos hid)) fun hid => he.trans (if_neg hid)).mono ?_
  rintro p ⟨hp, ⟨hid, hreply, hpub⟩ | ⟨hid, hsame, herr⟩⟩
  · exact ⟨hp, Or.inl ⟨w, rest, change, id, rfl, hchange, hw, hid, hreply, hpub⟩⟩
  · refine ⟨hp, Or.inr ⟨hsame, herr, ?_⟩⟩
    rintro w' rest' id' hargs - hw'
    obtain ⟨rfl, rfl⟩ := List.cons.inj hargs
    obtain rfl := Option.some.inj (hw.symm.trans hw')
    exact hid

/-- An operation of the manager that is carried out leaves it running. -/
theorem running_of_run (hc : Config.Valid cfg) (hrun : Running H cfg C.mgr) {x : Except String SnapshotManager}
    (c : Command) (hx : c.run H C.mgr = .ok (x.toOption.getD C.mgr)) :
    ∀ mgr, x = .ok mgr → Running H cfg mgr := by
  rintro mgr rfl
  obtain ⟨m, hm, hr⟩ := Command.run_returns hc hrun c
  obtain rfl := Except.ok.inj (hx.symm.trans hm)
  exact hr

theorem error_returns (hrun : Running H cfg C.mgr) (err : String) :
    Returns (return ("error: " ++ err ++ "\n", C) : Except Fault (String × Control)) fun p =>
      Running H cfg p.2.mgr ∧ p.2.mgr = C.mgr ∧ "error".toList <+: p.1.toList := by
  refine ⟨_, rfl, hrun, rfl, ?_⟩
  rw [String.toList_append, String.toList_append, List.append_assoc]
  exact (show "error".toList <+: "error: ".toList by decide).trans (List.prefix_append _ _)

theorem rsChange_weight {rest : List (List Char)} (h : (rsChange "weight".toList rest).isSome) :
    ∃ u w, rest = [u] ∧ parseU32 u = some w ∧ w ≤ 65535 := by
  unfold rsChange at h
  rw [if_pos rfl] at h
  split at h
  · rename_i w hrest
    split at h
    · rename_i hw
      obtain ⟨u, rfl, hu⟩ := List.map_eq_singleton_iff.mp hrest
      exact ⟨u, w, rfl, hu, hw⟩
    · exact nomatch h
  · exact nomatch h

/-- `enable`, `disable` and `del` have nothing behind the id. -/
theorem rsChange_nil {cmd : List Char} {rest : List (List Char)} (hcmd : cmd ≠ "weight".toList)
    (h : (rsChange cmd rest).isSome) : rest = [] := by
  unfold rsChange at h
  rw [if_neg hcmd] at h
  by_contra hne
  rw [if_pos hne] at h
  exact nomatch h

theorem weight_post (hc : Config.Valid cfg) (hrun : Running H cfg C.mgr) {line : List Char}
    {args : List (List Char)} (ht : tokens line = "weight".toList :: args) :
    Returns (C.execute H reports line) (RsPost H cfg C.mgr "weight".toList args) := by
  rw [execute_weight H reports C ht]
  split
  · rename_i id w hargs
    obtain ⟨v, args', rfl, hv, hargs⟩ := List.map_eq_cons_iff.mp hargs
    obtain ⟨u, rfl, hu⟩ := List.map_eq_singleton_iff.mp hargs
    have hset := setWeight_eq hrun.ok.ids_nodup id w
    by_cases hw : w ≤ 65535
    · have hle : ¬ w > 65535 := by omega
      have hchange : rsChange "weight".toList [u] = some (.update (.setWeight w)) := by simp [rsChange, hu, hw]
      refine RsPost.commit hc hrun hchange hv (running_of_run hc hrun (.setWeight id w) rfl) ?_
      rw [hset, if_neg hle]
    · have hgt : w > 65535 := by omega
      have herr : ∃ e, C.mgr.setWeight id w = .error e := by
        rw [hset, if_pos hgt]
        split
        · exact ⟨_, rfl⟩
        · exact ⟨_, rfl⟩
      obtain ⟨e, herr⟩ := herr
      rw [herr]
      refine RsPost.refused (error_returns hrun e) ?_
      rintro w' rest id' hargs hsome -
      obtain ⟨rfl, rfl⟩ := List.cons.inj hargs
      obtain ⟨u', w', hu', hw', hle⟩ := rsChange_weight hsome
      obtain rfl := (List.cons.inj hu').1
      obtain rfl := Option.some.inj (hu.symm.trans hw')
      exact absurd hle hw
  · rename_i hargs
    refine RsPost.refused (badCommand_returns hrun) ?_
    rintro w rest id rfl hsome hid
    obtain ⟨u, w', rfl, hu, -⟩ := rsChange_weight hsome
    exact absurd (by simp [hid, hu]) (hargs id w')

/-- `enable`, `disable` and `del`, which differ in the operation of the manager. -/
theorem single_post (hc : Config.Valid cfg) (hrun : Running H cfg C.mgr) {cmd : List Char} {change : RsChange}
    {args : List (List Char)} {op : ℕ → Except String SnapshotManager} (hcmd : cmd ≠ "weight".toList)
    (hchange : rsChange cmd [] = some change) (hop : ∀ id mgr, op id = .ok mgr → Running H cfg mgr)
    (he : ∀ id, op id = if id ∈ idsOf C.mgr.services then
      .ok { C.mgr with services := change.apply id C.mgr.services } else .error (noSuchRs id)) :
    Returns (match args.map parseU32 with
      | [some id] => Control.commit H C (op id)
      | _ => badCommand C) (RsPost H cfg C.mgr cmd args) := by
  split
  · rename_i id hargs
    obtain ⟨v, rfl, hv⟩ := List.map_eq_singleton_iff.mp hargs
    exact RsPost.commit hc hrun hchange hv (hop id) (he id)
  · rename_i hargs
    refine RsPost.refused (badCommand_returns hrun) ?_
    rintro w rest id rfl hsome hid
    obtain rfl := rsChange_nil hcmd hsome
    exact absurd (by simp [hid]) (hargs id)

/-- **A command that names a real server** is carried out on the one whose id
`parse_u32` reads, or it is refused and changes nothing. -/
theorem execute_rs (hc : Config.Valid cfg) (hrun : Running H cfg C.mgr) {line cmd : List Char}
    {args : List (List Char)} (ht : tokens line = cmd :: args) (hcmd : cmd ∈ rsCommands) :
    Returns (C.execute H reports line) (RsPost H cfg C.mgr cmd args) := by
  have hn := hrun.ok.ids_nodup
  simp only [rsCommands, List.mem_cons, List.not_mem_nil, or_false] at hcmd
  rcases hcmd with rfl | rfl | rfl | rfl
  · exact weight_post hc hrun ht
  · have he : C.execute H reports line = match args.map parseU32 with
        | [some id] => Control.commit H C (C.mgr.setEnabled id true)
        | _ => badCommand C := by
      unfold execute
      rw [ht]
      rfl
    rw [he]
    exact single_post hc hrun (by decide) rfl
      (fun id => running_of_run hc hrun (.setEnabled id true) rfl) fun id => setEnabled_eq hn id true
  · have he : C.execute H reports line = match args.map parseU32 with
        | [some id] => Control.commit H C (C.mgr.setEnabled id false)
        | _ => badCommand C := by
      unfold execute
      rw [ht]
      rfl
    rw [he]
    exact single_post hc hrun (by decide) rfl
      (fun id => running_of_run hc hrun (.setEnabled id false) rfl) fun id => setEnabled_eq hn id false
  · have he : C.execute H reports line = match args.map parseU32 with
        | [some id] => Control.commit H C (C.mgr.delRs id)
        | _ => badCommand C := by
      unfold execute
      rw [ht]
      rfl
    rw [he]
    exact single_post hc hrun (by decide) rfl (fun id => running_of_run hc hrun (.delRs id) rfl) (delRs_eq hn)

/-! ### `add` -/

theorem addRs_of_accepts {mgr : SnapshotManager} {k : ℕ} {rs : RsConf} (h : mgr.Accepts k rs) :
    mgr.addRs k rs = .ok ({ mgr with services := mgr.appended k rs, nextRsId := mgr.nextRsId + 1 }, mgr.nextRsId) := by
  obtain ⟨svc, hsvc, hlen, hnew, hid⟩ := h
  have hfind : svc.rs.find? (fun r => r.conf.ip == rs.ip && r.conf.port == rs.port) = none := by
    rw [List.find?_eq_none]
    intro r hr
    simpa using hnew r hr
  unfold SnapshotManager.addRs
  simp only [hsvc, if_neg (Nat.not_le.mpr hlen), hfind, if_neg (Nat.not_le.mpr hid)]
  have happ : mgr.services.set k { svc with rs := svc.rs ++ [{ id := mgr.nextRsId, conf := rs }] } =
      mgr.appended k rs := by
    obtain ⟨hk, rfl⟩ := List.getElem?_eq_some_iff.mp hsvc
    unfold appended
    rw [List.modify_eq_set_get _ hk]
    rfl
  rw [happ]

theorem addRs_of_not_accepts {mgr : SnapshotManager} {k : ℕ} {rs : RsConf} (h : ¬ mgr.Accepts k rs) :
    ∃ err, mgr.addRs k rs = .error err := by
  unfold SnapshotManager.addRs
  split
  · exact ⟨_, rfl⟩
  rename_i svc hsvc
  split
  · exact ⟨_, rfl⟩
  rename_i hlen
  split
  · exact ⟨_, rfl⟩
  rename_i hfind
  split
  · exact ⟨_, rfl⟩
  rename_i hid
  refine absurd ⟨svc, hsvc, by omega, fun r hr => ?_, by omega⟩ h
  simpa using List.find?_eq_none.mp hfind r hr

/-- What comes of `add`. -/
def AddPost (H : HashFns) (cfg : LbConfig) (mgr : SnapshotManager) (args : List (List Char))
    (p : String × Control) : Prop :=
  Running H cfg p.2.mgr ∧
  ((∃ (w spec : List Char) (rs : RsConf) (v : ℕ), args = [w, spec] ∧ parseRsSpec spec = some rs ∧
    parseU32 w = some v ∧ mgr.Accepts (v % 2 ^ 16) rs ∧ "ok".toList <+: p.1.toList ∧
    mgr.Published (mgr.appended (v % 2 ^ 16) rs) (mgr.nextRsId + 1) p.2.mgr) ∨
  (p.2.mgr = mgr ∧ "error".toList <+: p.1.toList ∧
    ∀ (w spec : List Char) (rs : RsConf) (v : ℕ), args = [w, spec] → parseRsSpec spec = some rs →
      parseU32 w = some v → ¬ mgr.Accepts (v % 2 ^ 16) rs))

theorem AddPost.refused {args : List (List Char)} {x : Except Fault (String × Control)}
    (hx : Returns x fun p => Running H cfg p.2.mgr ∧ p.2.mgr = C.mgr ∧ "error".toList <+: p.1.toList)
    (hno : ∀ (w spec : List Char) (rs : RsConf) (v : ℕ), args = [w, spec] → parseRsSpec spec = some rs →
      parseU32 w = some v → ¬ C.mgr.Accepts (v % 2 ^ 16) rs) : Returns x (AddPost H cfg C.mgr args) :=
  hx.mono fun _ h => ⟨h.1, Or.inr ⟨h.2.1, h.2.2, hno⟩⟩

/-- **`add`** appends to the service whose number `parse_u32` reads, modulo
2^16, or it is refused and changes nothing. -/
theorem execute_add (hc : Config.Valid cfg) (hrun : Running H cfg C.mgr) {line : List Char}
    {args : List (List Char)} (ht : tokens line = "add".toList :: args) :
    Returns (C.execute H reports line) (AddPost H cfg C.mgr args) := by
  have he : C.execute H reports line = executeAdd H C args := by
    unfold execute
    rw [ht]
    rfl
  rw [he]
  unfold executeAdd
  split
  · rename_i w spec
    split
    · rename_i hw
      refine AddPost.refused (badCommand_returns hrun) ?_
      rintro w' spec' rs v hargs - hv
      obtain rfl := (List.cons.inj hargs).1
      exact nomatch hw.symm.trans hv
    rename_i v hv
    split
    · rename_i hspec
      refine AddPost.refused ⟨_, rfl, hrun, rfl,
        show "error".toList <+: "error: expected ip:port[:weight]\n".toList by decide⟩ ?_
      rintro w' spec' rs v hargs hrs -
      obtain rfl := (List.cons.inj (List.cons.inj hargs).2).1
      exact nomatch hspec.symm.trans hrs
    rename_i rs hrs
    by_cases hacc : C.mgr.Accepts (v % 2 ^ 16) rs
    · have hadd := addRs_of_accepts hacc
      rw [hadd]
      have hok := running_of_run (x := (C.mgr.addRs (v % 2 ^ 16) rs).map (·.1)) hc hrun (.addRs (v % 2 ^ 16) rs) rfl _
        (by rw [hadd]; rfl)
      obtain ⟨mgr', hp, hrun', snap, hmgr, hshows⟩ := publish_published (H := H) hc hok.ok
      refine ⟨("ok rs " ++ toString C.mgr.nextRsId ++ "\n", { C with mgr := mgr' }), ?_, hrun',
        Or.inl ⟨w, spec, rs, v, rfl, hrs, hv, hacc, ?_, snap, hmgr, hshows⟩⟩
      · simp only [hp]
        rfl
      · rw [String.toList_append, String.toList_append, List.append_assoc]
        exact (show "ok".toList <+: "ok rs ".toList by decide).trans (List.prefix_append _ _)
    · obtain ⟨err, herr⟩ := addRs_of_not_accepts hacc
      rw [herr]
      refine AddPost.refused (error_returns hrun err) ?_
      rintro w' spec' rs' v' hargs hrs' hv'
      simp only [List.cons.injEq, and_true] at hargs
      obtain ⟨rfl, rfl⟩ := hargs
      obtain rfl := Option.some.inj (hrs.symm.trans hrs')
      obtain rfl := Option.some.inj (hv.symm.trans hv')
      exact hacc
  · rename_i hargs
    refine AddPost.refused (badCommand_returns hrun) ?_
    rintro w spec rs v rfl
    exact absurd rfl (hargs w spec)

/-! ### Every command -/

/-- The other commands leave the manager as it is. -/
theorem execute_other {line cmd : List Char} {args : List (List Char)} (ht : tokens line = cmd :: args)
    (hrs : cmd ∉ rsCommands) (hadd : cmd ≠ "add".toList) :
    Returns (C.execute H reports line) fun p => p.2.mgr = C.mgr := by
  simp only [rsCommands, List.mem_cons, List.not_mem_nil, or_false, not_or] at hrs
  obtain ⟨hweight, henable, hdisable, hdel⟩ := hrs
  unfold execute
  simp only [ht, hweight, henable, hdisable, hdel, hadd, if_false, or_self, badCommand]
  repeat' split
  all_goals exact ⟨_, rfl, rfl⟩

theorem execute_nil {line : List Char} (ht : tokens line = []) : C.execute H reports line = .ok (kHelp, C) := by
  unfold execute
  rw [ht]
  rfl

/-- `execute` returns and keeps the manager running. -/
theorem execute_running (hc : Config.Valid cfg) (hrun : Running H cfg C.mgr) (line : List Char) :
    Returns (C.execute H reports line) fun p => Running H cfg p.2.mgr := by
  match ht : tokens line with
  | [] => exact ⟨_, execute_nil ht, hrun⟩
  | cmd :: args =>
    by_cases hrs : cmd ∈ rsCommands
    · exact (execute_rs hc hrun ht hrs).mono fun _ h => h.1
    by_cases hadd : cmd = "add".toList
    · exact (execute_add hc hrun (hadd ▸ ht)).mono fun _ h => h.1
    · exact (execute_other ht hrs hadd).mono fun _ h => h.symm ▸ hrun

theorem drainHealth_running (hc : Config.Valid cfg) (hrun : Running H cfg C.mgr) (evs : List HealthEvent) :
    Returns (C.drainHealth H evs) fun C' => Running H cfg C'.mgr := by
  have hfold : ∀ (evs : List HealthEvent) {mgr : SnapshotManager}, Running H cfg mgr →
      Running H cfg (evs.foldl (fun mgr ev => mgr.setHealth ev.rsId ev.healthy) mgr) := by
    intro evs
    induction evs with
    | nil => exact fun h => h
    | cons ev evs ih =>
      intro mgr h
      obtain ⟨m, hm, hr⟩ := Command.run_returns hc h (.setHealth ev.rsId ev.healthy)
      obtain rfl := Except.ok.inj hm
      exact ih hr
  unfold drainHealth
  split
  · exact .ok hrun
  · exact Returns.bind (publish_returns hc (hfold evs hrun).ok) fun mgr h => .ok h.1

theorem reach_running (hc : Config.Valid cfg) (h : Reach H reports cfg C) : Running H cfg C.mgr := by
  induction h with
  | init h =>
    obtain ⟨m, hm, hr, -⟩ := init_returns (H := H) hc
    exact Except.ok.inj (hm.symm.trans h) ▸ hr
  | execute line reply h he ih =>
    obtain ⟨p, hp, hr⟩ := execute_running hc ih line
    obtain rfl := Except.ok.inj (hp.symm.trans he)
    exact hr
  | drain evs h he ih =>
    obtain ⟨C1, hC, hr⟩ := drainHealth_running hc ih evs
    exact Except.ok.inj (hC.symm.trans he) ▸ hr

/-- An `ok` is no `error`. -/
theorem not_error_of_ok {reply : String} (h : "ok".toList <+: reply.toList) : ¬ "error".toList <+: reply.toList := by
  intro h'
  have := List.prefix_of_prefix_length_le h h' (by decide)
  revert this
  decide

theorem not_typed_of_readAs {w : List Char} {v : ℕ} (h : ReadAs w v) (hv : v ≤ 0xFFFFFFFF) (k : ℕ) :
    typed w ≠ some (k : ℤ) := by
  rcases h with ⟨-, h⟩ | ⟨-, h, -⟩
  · rw [h]
    intro he
    have := Option.some.inj he
    omega
  · rw [typed, h]
    exact fun he => nomatch he

theorem add_not_mem : "add".toList ∉ rsCommands := by decide

/-- A reply to an error is truthful if nothing has changed. -/
theorem truthful_of_same {line : List Char} {mgr mgr' : SnapshotManager} {reply : String} (hsame : mgr' = mgr)
    (herr : "error".toList <+: reply.toList) : Truthful line mgr reply mgr' :=
  ⟨fun _ => hsame, fun hok => absurd herr (not_error_of_ok hok)⟩

theorem rs_truthful_iff {line cmd : List Char} {args : List (List Char)} {mgr : SnapshotManager}
    {p : String × Control} (ht : tokens line = cmd :: args) (hcmd : cmd ∈ rsCommands)
    (h : RsPost H cfg mgr cmd args p) : Truthful line mgr p.1 p.2.mgr ↔ ¬ Misread line mgr := by
  have hne : cmd ≠ "add".toList := fun he => add_not_mem (he ▸ hcmd)
  rcases h.2 with ⟨w, rest, change, id, rfl, hchange, hw, hid, hreply, hpub⟩ | ⟨hsame, herr, hno⟩
  · have hok : "ok".toList <+: p.1.toList := by
      rw [hreply]
      decide
    obtain ⟨hle, htyped | hread⟩ := parseU32_eq_some.mp hw
    · refine iff_of_true ⟨fun he => absurd he (not_error_of_ok hok), fun _ cmd' args' ht' => ?_⟩ ?_
      · obtain ⟨rfl, rfl⟩ := List.cons.inj (ht.symm.trans ht')
        exact ⟨fun _ => ⟨w, rest, change, id, rfl, hchange, htyped, hid, hpub⟩, fun he => absurd he hne⟩
      · rintro ⟨cmd', w', rest', ht', hmis⟩
        simp only [ht, List.cons.injEq] at ht'
        obtain ⟨rfl, rfl, rfl⟩ := ht'
        rcases hmis with ⟨-, -, id', -, hle', hread⟩ | ⟨he, -⟩
        · exact not_typed_of_readAs hread hle' id htyped
        · exact hne he
    · refine iff_of_false (fun htr => ?_) ?_
      · obtain ⟨hrs, -⟩ := htr.ok hok cmd _ ht
        obtain ⟨w', rest', change', id', hargs, -, htyped, -⟩ := hrs hcmd
        obtain ⟨rfl, rfl⟩ := List.cons.inj hargs
        exact not_typed_of_readAs hread hle id' htyped
      · exact fun hm => hm ⟨cmd, w, rest, ht, Or.inl ⟨hcmd, hchange ▸ rfl, id, hid, hle, hread⟩⟩
  · refine iff_of_true (truthful_of_same hsame herr) ?_
    rintro ⟨cmd', w', rest', ht', hmis⟩
    obtain ⟨rfl, rfl⟩ := List.cons.inj (ht.symm.trans ht')
    rcases hmis with ⟨-, hsome, id', hid, hle', hread⟩ | ⟨he, -⟩
    · exact hno w' rest' id' rfl hsome (parseU32_eq_some.mpr ⟨hle', Or.inr hread⟩) hid
    · exact hne he

theorem add_truthful_iff {line : List Char} {args : List (List Char)} {mgr : SnapshotManager}
    {p : String × Control} (ht : tokens line = "add".toList :: args) (hlen : mgr.services.length < 2 ^ 16)
    (h : AddPost H cfg mgr args p) : Truthful line mgr p.1 p.2.mgr ↔ ¬ Misread line mgr := by
  rcases h.2 with ⟨w, spec, rs, v, rfl, hrs, hw, hacc, hok, hpub⟩ | ⟨hsame, herr, hno⟩
  · obtain ⟨hle, hread⟩ := parseU32_eq_some.mp hw
    by_cases hgood : typed w = some (v : ℤ) ∧ v < 2 ^ 16
    · obtain ⟨htyped, hlt⟩ := hgood
      rw [Nat.mod_eq_of_lt hlt] at hacc hpub
      obtain ⟨svc, hsvc, -⟩ := hacc
      refine iff_of_true ⟨fun he => absurd he (not_error_of_ok hok), fun _ cmd' args' ht' => ?_⟩ ?_
      · obtain ⟨rfl, rfl⟩ := List.cons.inj (ht.symm.trans ht')
        refine ⟨fun he => absurd he add_not_mem, fun _ => ⟨w, spec, rs, v, rfl, hrs, htyped, ?_, hpub⟩⟩
        exact (List.getElem?_eq_some_iff.mp hsvc).1
      · rintro ⟨cmd', w', rest', ht', hmis⟩
        simp only [ht, List.cons.injEq] at ht'
        obtain ⟨rfl, rfl, rfl⟩ := ht'
        rcases hmis with ⟨he, -⟩ | ⟨-, spec', rs', -, -, v', hle', hread | ⟨htyped', hge⟩, -⟩
        · exact add_not_mem he
        · exact not_typed_of_readAs hread hle' v htyped
        · have := Option.some.inj (htyped.symm.trans htyped')
          omega
    · have hbad : ReadAs w v ∨ (typed w = some (v : ℤ) ∧ 2 ^ 16 ≤ v) := by
        rcases hread with htyped | hread
        · exact Or.inr ⟨htyped, by by_contra hlt; exact hgood ⟨htyped, by omega⟩⟩
        · exact Or.inl hread
      refine iff_of_false (fun htr => ?_) ?_
      · obtain ⟨-, hadd⟩ := htr.ok hok _ _ ht
        obtain ⟨w', spec', rs', k, hargs, -, htyped, hk, -⟩ := hadd rfl
        obtain ⟨rfl, -⟩ := List.cons.inj hargs
        rcases hbad with hread | ⟨htyped', hge⟩
        · exact not_typed_of_readAs hread hle k htyped
        · have := Option.some.inj (htyped.symm.trans htyped')
          omega
      · exact fun hm => hm ⟨_, w, [spec], ht, Or.inr ⟨rfl, spec, rs, rfl, hrs, v, hle, hbad, hacc⟩⟩
  · refine iff_of_true (truthful_of_same hsame herr) ?_
    rintro ⟨cmd', w', rest', ht', hmis⟩
    obtain ⟨rfl, rfl⟩ := List.cons.inj (ht.symm.trans ht')
    rcases hmis with ⟨he, -⟩ | ⟨-, spec', rs', rfl, hrs, v', hle', hread, hacc⟩
    · exact add_not_mem he
    · refine hno w' spec' rs' v' rfl hrs (parseU32_eq_some.mpr ⟨hle', ?_⟩) hacc
      rcases hread with hread | ⟨htyped, -⟩
      · exact Or.inr hread
      · exact Or.inl htyped

/-- **Every reply is truthful, except to a command that is misread.** -/
theorem execute_truthful_iff (hcfg : Config.Accepted cfg) (h : Reach H reports cfg C) (line : List Char) :
    ∃ reply C', C.execute H reports line = .ok (reply, C') ∧
      (Truthful line C.mgr reply C'.mgr ↔ ¬ Misread line C.mgr) := by
  have hc := hcfg.valid
  have hrun := reach_running hc h
  have hlen : C.mgr.services.length < 2 ^ 16 := by
    have h1 := congrArg List.length hrun.ok.confs
    have h2 := hc.services_le
    rw [List.length_map] at h1
    rw [h1]
    exact lt_of_le_of_lt h2 (by decide)
  match ht : tokens line with
  | [] =>
    refine ⟨kHelp, C, execute_nil ht, iff_of_true ⟨fun _ => rfl, fun _ cmd args ht' => ?_⟩ ?_⟩
    · exact nomatch ht.symm.trans ht'
    · rintro ⟨cmd, w, rest, ht', -⟩
      exact nomatch ht.symm.trans ht'
  | cmd :: args =>
    by_cases hrs : cmd ∈ rsCommands
    · obtain ⟨⟨reply, C'⟩, he, hpost⟩ : Returns (C.execute H reports line) _ := execute_rs hc hrun ht hrs
      exact ⟨reply, C', he, rs_truthful_iff ht hrs hpost⟩
    by_cases hadd : cmd = "add".toList
    · subst hadd
      obtain ⟨⟨reply, C'⟩, he, hpost⟩ : Returns (C.execute H reports line) _ := execute_add hc hrun ht
      exact ⟨reply, C', he, add_truthful_iff ht hlen hpost⟩
    · obtain ⟨⟨reply, C'⟩, he, hsame⟩ : Returns (C.execute H reports line) _ := execute_other ht hrs hadd
      refine ⟨reply, C', he, iff_of_true ⟨fun _ => hsame, fun _ cmd' args' ht' => ?_⟩ ?_⟩
      · obtain ⟨rfl, rfl⟩ := List.cons.inj (ht.symm.trans ht')
        exact ⟨fun he => absurd he hrs, fun he => absurd he hadd⟩
      · rintro ⟨cmd', w, rest, ht', hmis⟩
        obtain ⟨rfl, rfl⟩ := List.cons.inj (ht.symm.trans ht')
        rcases hmis with ⟨he, -⟩ | ⟨he, -⟩
        · exact hrs he
        · exact hadd he

theorem execute_truthful_iff_demo : ∃ C, Reach demo.H (fun _ _ => "") demo.cfg C ∧
    ∃ reply C', C.execute demo.H (fun _ _ => "") "weight 1 5".toList = .ok (reply, C') ∧
      Truthful "weight 1 5".toList C.mgr reply C'.mgr := by
  obtain ⟨mgr, hm, -⟩ := init_returns (H := demo.H) demo_accepted.valid
  obtain ⟨reply, C', he, hiff⟩ := execute_truthful_iff demo_accepted (.init hm) "weight 1 5".toList
  refine ⟨{ mgr := mgr }, .init hm, reply, C', he, hiff.mpr ?_⟩
  rintro ⟨cmd, w, rest, ht, hmis⟩
  have htok : tokens "weight 1 5".toList = ["weight".toList, "1".toList, "5".toList] := by decide
  simp only [htok, List.cons.injEq] at ht
  obtain ⟨rfl, rfl, rfl⟩ := ht
  rcases hmis with ⟨-, -, id, -, hle, hread⟩ | ⟨he, -⟩
  · exact not_typed_of_readAs hread hle 1 (by decide)
  · exact absurd he (by decide)

/-- There is one service, and 65536 is taken for its number. -/
theorem add_beyond_services : ∃ C C', Reach demo.H (fun _ _ => "") demo.cfg C ∧
    C.execute demo.H (fun _ _ => "") "add 65536 10.0.0.9:53".toList = .ok ("ok rs 3\n", C') ∧
    C.mgr.services.map (·.rs.length) = [2] ∧ C'.mgr.services.map (·.rs.length) = [3] ∧
    ¬ Truthful "add 65536 10.0.0.9:53".toList C.mgr "ok rs 3\n" C'.mgr := by
  obtain ⟨mgr, hm, hlen, ⟨reply, C'⟩, he, hreply, hlen'⟩ : Returns (SnapshotManager.init demo.H demo.cfg) fun mgr =>
      mgr.services.map (·.rs.length) = [2] ∧
      Returns (execute demo.H (fun _ _ => "") { mgr := mgr } "add 65536 10.0.0.9:53".toList) fun p =>
        p.1 = "ok rs 3\n" ∧ p.2.mgr.services.map (·.rs.length) = [3] := by decide +kernel
  simp only at hreply hlen'
  subst hreply
  refine ⟨{ mgr := mgr }, C', .init hm, he, hlen, hlen', fun htr => ?_⟩
  have htok : tokens "add 65536 10.0.0.9:53".toList =
    ["add".toList, "65536".toList, "10.0.0.9:53".toList] := by decide
  obtain ⟨-, hadd⟩ := htr.ok (by decide) _ _ htok
  obtain ⟨w, spec, rs, k, hargs, -, htyped, hk, -⟩ := hadd rfl
  obtain rfl := (List.cons.inj hargs).1
  have hnum : typed "65536".toList = some 65536 := by decide
  have hk' : ((65536 : ℕ) : ℤ) = k := Option.some.inj (hnum.symm.trans htyped)
  have hone := congrArg List.length hlen
  simp only [List.length_map, List.length_singleton] at hone
  change k < mgr.services.length at hk
  omega

example : parseU32 "-18446744073709551615".toList = some 1 := by decide

end Control

end L4Lb
