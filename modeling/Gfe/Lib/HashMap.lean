import Mathlib.Data.List.AList

/-! # Hash maps

A hash map is an association list without repeated keys; `AList` has lookup,
insertion and removal. What it lacks, and maps of running things need, is
visiting every entry: dropping some, or changing the values. The order of the
list stands for the unspecified order of iteration.
-/

abbrev HashMap (κ ν : Type) := AList fun _ : κ => ν

namespace HashMap

variable {κ ν ω : Type}

/-- The entries, in the order of iteration. -/
def toList (m : HashMap κ ν) : List (κ × ν) := m.entries.map fun e => (e.1, e.2)

def values (m : HashMap κ ν) : List ν := m.entries.map Sigma.snd

/-- Keep the entries that satisfy `keep`. -/
def retain (keep : κ → ν → Bool) (m : HashMap κ ν) : HashMap κ ν :=
  ⟨m.entries.filter fun e => keep e.1 e.2, m.nodupKeys.sublist List.filter_sublist⟩

def mapValues (f : ν → ω) (m : HashMap κ ν) : HashMap κ ω :=
  ⟨m.entries.map fun e => ⟨e.1, f e.2⟩, by
    have same : (m.entries.map fun e => (⟨e.1, f e.2⟩ : Σ _ : κ, ω)).keys = m.entries.keys := by
      simp [List.keys, Function.comp_def]
    simpa only [List.NodupKeys, same] using m.nodupKeys⟩

variable [DecidableEq κ]

/-- Change the value at `k`, starting from `default` when there is none. -/
def update (m : HashMap κ ν) (k : κ) (default : ν) (f : ν → ν) : HashMap κ ν :=
  m.insert k (f ((m.lookup k).getD default))

/-- Insert every pair in turn, so that the last one for a key stays. -/
def collect (pairs : List (κ × ν)) : HashMap κ ν :=
  pairs.foldl (fun m pair => m.insert pair.1 pair.2) ∅

theorem lookup_insert (m : HashMap κ ν) (k k' : κ) (v : ν) :
    AList.lookup k' (m.insert k v) = if k' = k then some v else m.lookup k' := by
  split
  · rename_i same
    rw [same, AList.lookup_insert]
  · rename_i differ
    exact AList.lookup_insert_ne differ

theorem mem_values {m : HashMap κ ν} {k : κ} {v : ν} (known : m.lookup k = some v) :
    v ∈ m.values :=
  List.mem_map.mpr ⟨⟨k, v⟩, AList.mem_lookup_iff.mp known, rfl⟩

theorem mem_values_insert {m : HashMap κ ν} {k : κ} {v v' : ν}
    (member : v' ∈ values (m.insert k v)) : v' = v ∨ v' ∈ m.values := by
  obtain ⟨entry, listed, rfl⟩ := List.mem_map.mp member
  rw [AList.entries_insert, List.mem_cons] at listed
  cases listed with
  | inl same => exact .inl (by rw [same])
  | inr old => exact .inr (List.mem_map.mpr ⟨entry, (List.kerase_sublist _ _).subset old, rfl⟩)

theorem length_insert (m : HashMap κ ν) (k : κ) (v : ν) :
    (m.insert k v).entries.length =
      if (m.lookup k).isSome then m.entries.length else m.entries.length + 1 := by
  have keys : ∀ m : HashMap κ ν, m.entries.length = m.keys.length :=
    fun m => (List.length_map _).symm
  rw [keys, keys, AList.keys_insert, List.length_cons]
  split
  · rename_i known
    rw [AList.lookup_isSome, AList.mem_keys] at known
    rw [List.length_erase_of_mem known, Nat.sub_add_cancel (List.length_pos_of_mem known)]
  · rename_i unknown
    rw [AList.lookup_isSome, AList.mem_keys] at unknown
    rw [List.erase_of_not_mem unknown]

theorem lookup_erase (m : HashMap κ ν) (k k' : κ) :
    AList.lookup k' (m.erase k) = if k' = k then none else m.lookup k' := by
  split
  · rename_i same
    rw [same, AList.lookup_erase]
  · rename_i differ
    exact AList.lookup_erase_ne differ

theorem lookup_update (m : HashMap κ ν) (k k' : κ) (default : ν) (f : ν → ν) :
    AList.lookup k' (m.update k default f) =
      if k' = k then some (f ((m.lookup k).getD default)) else m.lookup k' :=
  lookup_insert m k k' _

theorem dlookup_cons (k k' : κ) (v : ν) (entries : List (Σ _ : κ, ν)) :
    List.dlookup k (⟨k', v⟩ :: entries) = if k = k' then some v else List.dlookup k entries := by
  split
  · rename_i same
    subst same
    exact List.dlookup_cons_eq entries k v
  · rename_i differ
    exact List.dlookup_cons_ne entries ⟨k', v⟩ differ

theorem lookup_retain (keep : κ → ν → Bool) (m : HashMap κ ν) (k : κ) :
    AList.lookup k (m.retain keep) = Option.filter (keep k) (AList.lookup k m) := by
  obtain ⟨entries, nodup⟩ := m
  simp only [AList.lookup, retain]
  induction entries with
  | nil => rfl
  | cons e entries ih =>
    obtain ⟨k', v⟩ := e
    obtain ⟨fresh, rest⟩ := List.nodupKeys_cons.mp nodup
    rw [dlookup_cons, List.filter_cons]
    cases kept : keep k' v with
    | true =>
      rw [if_pos rfl, dlookup_cons, ih rest]
      split
      · rename_i same
        subst same
        exact (Option.filter_some_pos kept).symm
      · rfl
    | false =>
      rw [if_neg Bool.false_ne_true, ih rest]
      split
      · rename_i same
        subst same
        have gone : List.dlookup k entries = none := List.dlookup_eq_none.mpr fresh
        simp only [gone, Option.filter, kept, Bool.false_eq_true, if_false]
      · rfl

theorem lookup_mapValues (f : ν → ω) (m : HashMap κ ν) (k : κ) :
    AList.lookup k (m.mapValues f) = Option.map f (AList.lookup k m) := by
  obtain ⟨entries, nodup⟩ := m
  simp only [AList.lookup, mapValues]
  clear nodup
  induction entries with
  | nil => rfl
  | cons e entries ih =>
    obtain ⟨k', v⟩ := e
    rw [List.map_cons, dlookup_cons, dlookup_cons, ih]
    split <;> rfl

theorem mem_toList_iff {m : HashMap κ ν} {k : κ} {v : ν} :
    (k, v) ∈ m.toList ↔ m.lookup k = some v := by
  simp only [toList, List.mem_map, Prod.mk.injEq]
  rw [← Option.mem_def, AList.mem_lookup_iff]
  constructor
  · rintro ⟨entry, listed, rfl, rfl⟩
    exact listed
  · intro listed
    exact ⟨⟨k, v⟩, listed, rfl, rfl⟩

theorem find?_toList (m : HashMap κ ν) (k : κ) :
    (m.toList.find? (·.1 = k)).map Prod.snd = AList.lookup k m := by
  obtain ⟨entries, nodup⟩ := m
  simp only [AList.lookup, toList]
  clear nodup
  induction entries with
  | nil => rfl
  | cons e entries ih =>
    obtain ⟨k', v⟩ := e
    rw [List.map_cons, List.find?_cons, dlookup_cons]
    by_cases same : k' = k
    · simp [same]
    · simpa only [same, decide_false, if_neg (Ne.symm same)] using ih

end HashMap
