import Mathlib.Data.List.AList
import Mathlib.Tactic.Tauto

/-!
# Maps that are filled by loops

`AssocMap κ ν` is a finite map.  The lemmas say what a map holds after a loop has put the entries
of another map, or one value under many keys, into it.  `put` keeps the entries in the order in
which their keys came in, which `insert` does not.
-/

set_option autoImplicit false

namespace Conclave.Lib

abbrev AssocMap (κ ν : Type) : Type := AList fun _ : κ => ν

namespace AssocMap

variable {κ ν : Type} [DecidableEq κ]

theorem erase_of_notMem {map : AssocMap κ ν} {key : κ} (unknown : key ∉ map) :
    map.erase key = map :=
  AList.ext (List.kerase_of_notMem_keys unknown)

theorem erase_insert (map : AssocMap κ ν) (key : κ) (value : ν) :
    (map.insert key value).erase key = map.erase key := by
  apply AList.ext
  change List.kerase key (map.insert key value).entries = List.kerase key map.entries
  rw [AList.entries_insert]
  exact List.kerase_cons_eq rfl

theorem erase_insert_ne {key other : κ} (different : key ≠ other) (map : AssocMap κ ν)
    (value : ν) :
    (map.insert other value).erase key = (map.erase key).insert other value := by
  apply AList.ext
  change List.kerase key (map.insert other value).entries = _
  rw [AList.entries_insert, List.kerase_cons_ne different, AList.entries_insert, List.kerase_comm]
  rfl

def putAll (entries : List (Sigma fun _ : κ => ν)) (map : AssocMap κ ν) : AssocMap κ ν :=
  entries.foldl (fun map entry => map.insert entry.1 entry.2) map

def putKeys (keys : List κ) (value : ν) (map : AssocMap κ ν) : AssocMap κ ν :=
  keys.foldl (fun map key => map.insert key value) map

/-- A key that is there keeps its place; a new one comes last. -/
def put (map : AssocMap κ ν) (key : κ) (value : ν) : AssocMap κ ν :=
  if known : key ∈ map then map.replace key value
  else ⟨map.entries ++ [⟨key, value⟩], by
    rw [List.NodupKeys, List.keys, List.map_append, List.map_singleton]
    exact List.nodup_append_comm.mp (List.nodup_cons.mpr ⟨known, map.nodupKeys⟩)⟩

theorem entries_put {map : AssocMap κ ν} {key : κ} (unknown : key ∉ map) (value : ν) :
    (map.put key value).entries = map.entries ++ [⟨key, value⟩] := by
  rw [put, dif_neg unknown]

def putInOrder (entries : List (Sigma fun _ : κ => ν)) (map : AssocMap κ ν) : AssocMap κ ν :=
  entries.foldl (fun map entry => map.put entry.1 entry.2) map

theorem entries_putInOrder {entries : List (Sigma fun _ : κ => ν)} (distinct : entries.NodupKeys)
    (map : AssocMap κ ν) (unknown : ∀ key ∈ entries.keys, key ∉ map) :
    (putInOrder entries map).entries = map.entries ++ entries := by
  induction entries generalizing map with
  | nil => exact (List.append_nil _).symm
  | cons entry rest ih =>
      have split := List.nodupKeys_cons.mp distinct
      have first : (map.put entry.1 entry.2).entries = map.entries ++ [entry] :=
        entries_put (unknown entry.1 List.mem_cons_self) entry.2
      change (putInOrder rest (map.put entry.1 entry.2)).entries = _
      rw [ih split.2, first, List.append_assoc, List.singleton_append]
      intro key member known
      have among : key ∈ (map.entries ++ [entry]).keys := first ▸ known
      rw [List.keys_append, List.mem_append] at among
      rcases among with old | same
      · exact unknown key (List.mem_cons_of_mem _ member) old
      · rw [List.mem_singleton.mp same] at member
        exact split.1 member

/-- The entries of a map, put into an empty one, are the map. -/
theorem putInOrder_entries (map : AssocMap κ ν) : putInOrder map.entries ∅ = map := by
  apply AList.ext
  rw [entries_putInOrder map.nodupKeys ∅ (fun key _ => AList.notMem_empty key)]
  exact List.nil_append map.entries

/-- Every value replaced by a new one, as `replaceAll` does. -/
def replaceAll {μ : Type} (replace : κ → ν → μ) (map : AssocMap κ ν) : AssocMap κ μ :=
  ⟨map.entries.map fun entry => ⟨entry.1, replace entry.1 entry.2⟩, by
    have nodup := map.nodupKeys
    rw [List.NodupKeys, List.keys, List.map_map]
    exact nodup⟩

theorem lookup_replaceAll {μ : Type} (replace : κ → ν → μ) (map : AssocMap κ ν) (key : κ) :
    (map.replaceAll replace).lookup key = (map.lookup key).map (replace key) := by
  obtain ⟨entries, nodup⟩ := map
  change List.dlookup key (entries.map _) = (List.dlookup key entries).map _
  induction entries with
  | nil => rfl
  | cons entry entries ih =>
      obtain ⟨first, value⟩ := entry
      by_cases same : key = first
      · subst same
        rw [List.map_cons, List.dlookup_cons_eq, List.dlookup_cons_eq]
        rfl
      · rw [List.map_cons, List.dlookup_cons_ne _ _ same, List.dlookup_cons_ne _ _ same,
          ih (List.nodupKeys_cons.mp nodup).2]

theorem lookup_putAll {entries : List (Sigma fun _ : κ => ν)} (distinct : entries.NodupKeys)
    (map : AssocMap κ ν) (key : κ) :
    (putAll entries map).lookup key = (entries.dlookup key).or (map.lookup key) := by
  induction entries generalizing map with
  | nil => rfl
  | cons entry rest ih =>
      have split := List.nodupKeys_cons.mp distinct
      change (putAll rest (map.insert entry.1 entry.2)).lookup key = _
      rw [ih split.2]
      by_cases same : key = entry.1
      · subst same
        rw [List.dlookup_eq_none.mpr split.1, AList.lookup_insert]
        exact (congrArg (Option.or · _) (List.dlookup_cons_eq rest entry.1 entry.2)).symm
      · rw [AList.lookup_insert_ne same, List.dlookup_cons_ne rest entry same]

/-- The entries of a map, put into an empty one. -/
theorem lookup_putAll_entries (map : AssocMap κ ν) (key : κ) :
    (putAll map.entries ∅).lookup key = map.lookup key := by
  rw [lookup_putAll map.nodupKeys, AList.lookup_empty, Option.or_none]
  rfl

/-- What a map holds after the loop was put in, or was there before. -/
theorem mem_or_of_lookup_putAll {entries : List (Sigma fun _ : κ => ν)} {map : AssocMap κ ν}
    {key : κ} {value : ν} (found : (putAll entries map).lookup key = some value) :
    ⟨key, value⟩ ∈ entries ∨ map.lookup key = some value := by
  induction entries generalizing map with
  | nil => exact Or.inr found
  | cons entry rest ih =>
      rcases @ih (map.insert entry.1 entry.2) found with later | before
      · exact Or.inl (List.mem_cons_of_mem _ later)
      · by_cases same : key = entry.1
        · subst same
          rw [AList.lookup_insert] at before
          cases before
          exact Or.inl List.mem_cons_self
        · rw [AList.lookup_insert_ne same] at before
          exact Or.inr before

theorem mem_putAll {entries : List (Sigma fun _ : κ => ν)} {map : AssocMap κ ν} {key : κ} :
    key ∈ putAll entries map ↔ key ∈ entries.keys ∨ key ∈ map := by
  induction entries generalizing map with
  | nil => simp [putAll]
  | cons entry rest ih =>
      change key ∈ putAll rest (map.insert entry.1 entry.2) ↔ _
      rw [ih, AList.mem_insert, List.keys_cons, List.mem_cons]
      tauto

theorem lookup_putKeys (keys : List κ) (value : ν) (map : AssocMap κ ν) (key : κ) :
    (putKeys keys value map).lookup key =
      if key ∈ keys then some value else map.lookup key := by
  induction keys generalizing map with
  | nil => rfl
  | cons first rest ih =>
      change (putKeys rest value (map.insert first value)).lookup key = _
      rw [ih]
      by_cases later : key ∈ rest
      · simp [later]
      · by_cases same : key = first
        · subst same
          simp [later, AList.lookup_insert]
        · simp [later, same, AList.lookup_insert_ne same]

end AssocMap

end Conclave.Lib
