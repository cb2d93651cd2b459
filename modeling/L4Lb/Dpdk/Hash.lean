/-
# `rte_hash`, and the hash functions

DPDK is not part of the repository. What the tables built on `rte_hash` rely on are
the laws of its calls (`RteHash.laws`): it is a finite map whose insertion overwrites
the value of a key that is there, and fails only when a new key would exceed the
`entries` the table was created for (`RTE_HASH_EXTRA_FLAGS_EXT_TABLE`: a full bucket
is extended). A list of the keys with their data stands for the table; it is there to
run the model, and nothing but the laws is used of it.
-/
import L4Lb.Lib.BoundedMap
import Mathlib.Data.List.AList

namespace L4Lb

/-- An `rte_hash` with keys `κ` and data `ν`. -/
structure RteHash (κ ν : Type) where
  /-- `rte_hash_parameters.entries` -/
  entries : ℕ
  map : AList (fun _ : κ => ν)

namespace RteHash

variable {κ ν : Type}

/-- `rte_hash_create`. -/
def create (entries : ℕ) : RteHash κ ν := ⟨entries, ∅⟩

/-- The number of keys in the table. -/
def count (h : RteHash κ ν) : ℕ := h.map.entries.length

variable [DecidableEq κ]

/-- `rte_hash_lookup_data`; `none` is a negative return. -/
def lookupData (h : RteHash κ ν) (k : κ) : Option ν := h.map.lookup k

/-- `rte_hash_add_key_data`; `none` is a negative return. -/
def addKeyData (h : RteHash κ ν) (k : κ) (v : ν) : Option (RteHash κ ν) :=
  if (h.lookupData k).isSome ∨ h.count < h.entries then some { h with map := h.map.insert k v }
  else none

/-- `rte_hash_del_key`. -/
def delKey (h : RteHash κ ν) (k : κ) : RteHash κ ν := { h with map := h.map.erase k }

theorem addKeyData_eq_some {h h' : RteHash κ ν} {k : κ} {v : ν} (he : h.addKeyData k v = some h') :
    h' = { h with map := h.map.insert k v } := by
  unfold addKeyData at he
  split at he
  · exact (Option.some.inj he).symm
  · cases he

/-- The calls keep to what DPDK documents of them. -/
theorem laws : BoundedMap.Laws (σ := RteHash κ ν) create entries count lookupData addKeyData delKey where
  lookup_create _ _ := rfl
  entries_create _ := rfl
  add_isSome h k v := by
    unfold addKeyData
    split
    · rename_i hc
      exact iff_of_true rfl hc
    · rename_i hc
      exact iff_of_false (by simp) hc
  lookup_add he k' := by
    obtain rfl := addKeyData_eq_some he
    split
    · rename_i hk
      rw [hk, lookupData, AList.lookup_insert]
    · rename_i hk
      rw [lookupData, AList.lookup_insert_ne hk, lookupData]
  entries_add he := by rw [addKeyData_eq_some he]
  lookup_del h k k' := by
    split
    · rename_i hk
      rw [hk, lookupData, delKey, AList.lookup_erase]
    · rename_i hk
      rw [lookupData, delKey, AList.lookup_erase_ne hk, lookupData]
  entries_del _ _ := rfl
  keys h := by
    refine ⟨h.map.keys.toFinset, fun k => ?_, ?_⟩
    · rw [List.mem_toFinset, lookupData, AList.lookup_isSome, AList.mem_keys]
    · rw [List.toFinset_card_of_nodup h.map.keys_nodup, AList.keys, List.keys, List.length_map, count]

end RteHash

/-- The hash functions of DPDK that the program calls. What they compute is
left open. -/
structure HashFns where
  /-- `rte_jhash_3words` -/
  jhash3words : UInt32 → UInt32 → UInt32 → UInt32 → UInt32
  /-- `rte_jhash_2words` -/
  jhash2words : UInt32 → UInt32 → UInt32 → UInt32
  /-- `rte_jhash_32b`, of two words -/
  jhash32b : UInt32 → UInt32 → UInt32 → UInt32
  /-- `rte_hash_crc_8byte` -/
  crc8byte : UInt64 → UInt32 → UInt32
  /-- `rte_hash_crc_4byte` -/
  crc4byte : UInt32 → UInt32 → UInt32
  /-- `rte_softrss_be`, of the words and the converted key -/
  softrssBe : List UInt32 → List UInt8 → UInt32

/-- Hash functions that send everything to one cell. -/
def flatHash : HashFns :=
  ⟨fun _ _ _ _ => 0, fun _ _ _ => 0, fun _ _ _ => 0, fun _ _ => 0, fun _ _ => 0, fun _ _ => 0⟩

end L4Lb
