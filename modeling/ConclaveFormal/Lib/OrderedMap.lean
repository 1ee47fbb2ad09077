import Mathlib.Data.List.Sort
import Mathlib.Order.Defs.LinearOrder

/-!
# Maps in the order of their keys

The entries stand in a list with increasing keys.  `lower_bound` and `previous` are the two
neighbours of a key, which is what walking such a map with an iterator can reach.
-/

set_option autoImplicit false

namespace Conclave.Lib

structure OrderedMap (κ ν : Type) [LinearOrder κ] where
  entries : List (κ × ν)
  sorted : entries.Pairwise fun first second => first.1 < second.1

namespace OrderedMap

variable {κ ν : Type} [LinearOrder κ]

def empty : OrderedMap κ ν := ⟨[], .nil⟩

def lookup (map : OrderedMap κ ν) (key : κ) : Option ν :=
  (map.entries.find? fun entry => entry.1 = key).map Prod.snd

def below (map : OrderedMap κ ν) (key : κ) : List (κ × ν) :=
  map.entries.filter fun entry => entry.1 < key

def above (map : OrderedMap κ ν) (key : κ) : List (κ × ν) :=
  map.entries.filter fun entry => key < entry.1

def erase (map : OrderedMap κ ν) (key : κ) : OrderedMap κ ν :=
  ⟨map.entries.filter fun entry => entry.1 ≠ key, map.sorted.filter _⟩

theorem sorted_insert (map : OrderedMap κ ν) (key : κ) (value : ν) :
    (map.below key ++ (key, value) :: map.above key).Pairwise fun first second =>
      first.1 < second.1 := by
  refine List.pairwise_append.mpr ⟨map.sorted.filter _, ?_, ?_⟩
  · refine List.pairwise_cons.mpr ⟨?_, map.sorted.filter _⟩
    intro entry member
    exact of_decide_eq_true (List.mem_filter.mp member).2
  · intro first firstMember second secondMember
    have before : first.1 < key := of_decide_eq_true (List.mem_filter.mp firstMember).2
    rcases List.mem_cons.mp secondMember with rfl | secondMember
    · exact before
    · exact before.trans (of_decide_eq_true (List.mem_filter.mp secondMember).2)

/-- The entry of the key is made or replaced. -/
def insert (map : OrderedMap κ ν) (key : κ) (value : ν) : OrderedMap κ ν :=
  ⟨map.below key ++ (key, value) :: map.above key, map.sorted_insert key value⟩

/-- The first entry whose key is not below the given one. -/
def lower_bound (map : OrderedMap κ ν) (key : κ) : Option (κ × ν) :=
  (map.entries.filter fun entry => key ≤ entry.1).head?

/-- The last entry whose key is below the given one. -/
def previous (map : OrderedMap κ ν) (key : κ) : Option (κ × ν) :=
  (map.below key).getLast?

/-! ## What a map holds -/

variable {map : OrderedMap κ ν} {key other : κ} {value : ν} {entry : κ × ν}

theorem eq_of_key {first second : κ × ν} (firstMember : first ∈ map.entries)
    (secondMember : second ∈ map.entries) (same : first.1 = second.1) : first = second := by
  have sorted := map.sorted
  generalize map.entries = entries at firstMember secondMember sorted
  induction entries with
  | nil => cases firstMember
  | cons head tail ih =>
      have split := List.pairwise_cons.mp sorted
      rcases List.mem_cons.mp firstMember with rfl | firstLater
      · rcases List.mem_cons.mp secondMember with rfl | secondLater
        · rfl
        · exact absurd same (ne_of_lt (split.1 second secondLater))
      · rcases List.mem_cons.mp secondMember with rfl | secondLater
        · exact absurd same.symm (ne_of_lt (split.1 first firstLater))
        · exact ih firstLater secondLater split.2

theorem lookup_eq_some : map.lookup key = some value ↔ (key, value) ∈ map.entries := by
  constructor
  · intro found
    obtain ⟨entry, at_key, rfl⟩ := Option.map_eq_some_iff.mp found
    have here : entry.1 = key := by simpa using List.find?_some at_key
    subst here
    exact List.mem_of_find?_eq_some at_key
  · intro member
    have some_entry : (map.entries.find? fun entry => entry.1 = key).isSome :=
      List.find?_isSome.mpr ⟨(key, value), member, decide_eq_true rfl⟩
    obtain ⟨entry, found⟩ := Option.isSome_iff_exists.mp some_entry
    have here : entry.1 = key := by simpa using List.find?_some found
    have same := eq_of_key (List.mem_of_find?_eq_some found) member here
    rw [lookup, found, same]
    rfl

theorem lookup_eq_none : map.lookup key = none ↔ ∀ value, (key, value) ∉ map.entries := by
  rw [Option.eq_none_iff_forall_ne_some]
  exact forall_congr' fun value => not_congr lookup_eq_some

theorem mem_erase : entry ∈ (map.erase key).entries ↔ entry ∈ map.entries ∧ entry.1 ≠ key :=
  List.mem_filter.trans (and_congr_right fun _ => decide_eq_true_iff)

theorem mem_insert :
    entry ∈ (map.insert key value).entries ↔
      entry = (key, value) ∨ entry ∈ map.entries ∧ entry.1 ≠ key := by
  have shape : entry ∈ (map.insert key value).entries ↔
      (entry ∈ map.entries ∧ entry.1 < key) ∨
        entry = (key, value) ∨ (entry ∈ map.entries ∧ key < entry.1) := by
    simp only [insert, below, above, List.mem_append, List.mem_cons, List.mem_filter,
      decide_eq_true_eq]
  rw [shape, ne_iff_lt_or_gt]
  tauto

@[simp] theorem lookup_empty : (empty : OrderedMap κ ν).lookup key = none := rfl

theorem lookup_erase :
    (map.erase key).lookup other = if other = key then none else map.lookup other := by
  apply Option.ext
  intro value
  rw [lookup_eq_some, mem_erase]
  by_cases same : other = key
  · simp [same]
  · simp [same, lookup_eq_some]

theorem lookup_insert :
    (map.insert key value).lookup other = if other = key then some value else map.lookup other := by
  apply Option.ext
  intro found
  rw [lookup_eq_some, mem_insert]
  by_cases same : other = key
  · subst same
    simp [eq_comm]
  · simp [same, lookup_eq_some]

/-! ## The neighbours of a key -/

theorem lower_bound_spec (found : map.lower_bound key = some entry) :
    entry ∈ map.entries ∧ key ≤ entry.1 ∧
      ∀ other ∈ map.entries, key ≤ other.1 → entry.1 ≤ other.1 := by
  have sorted := map.sorted.filter fun entry => decide (key ≤ entry.1)
  obtain ⟨tail, shape⟩ := List.head?_eq_some_iff.mp found
  have member : entry ∈ map.entries.filter fun entry => key ≤ entry.1 := by
    rw [shape]
    exact List.mem_cons_self
  have split := List.mem_filter.mp member
  refine ⟨split.1, of_decide_eq_true split.2, ?_⟩
  intro other otherMember after
  have later : other ∈ map.entries.filter fun entry => key ≤ entry.1 :=
    List.mem_filter.mpr ⟨otherMember, decide_eq_true after⟩
  rw [shape] at later sorted
  rcases List.mem_cons.mp later with rfl | later
  · exact le_refl _
  · exact le_of_lt ((List.pairwise_cons.mp sorted).1 other later)

theorem lower_bound_none (missing : map.lower_bound key = none) :
    ∀ other ∈ map.entries, other.1 < key := by
  intro other member
  have empty := List.head?_eq_none_iff.mp missing
  have := List.filter_eq_nil_iff.mp empty other member
  exact not_le.mp fun after => this (decide_eq_true after)

theorem previous_spec (found : map.previous key = some entry) :
    entry ∈ map.entries ∧ entry.1 < key ∧
      ∀ other ∈ map.entries, other.1 < key → other.1 ≤ entry.1 := by
  have sorted : (map.below key).Pairwise fun first second => first.1 < second.1 :=
    map.sorted.filter _
  obtain ⟨front, shape⟩ := List.getLast?_eq_some_iff.mp found
  have member : entry ∈ map.below key := by
    rw [shape]
    exact List.mem_append_right front List.mem_cons_self
  have split := List.mem_filter.mp member
  refine ⟨split.1, of_decide_eq_true split.2, ?_⟩
  intro other otherMember before
  have earlier : other ∈ map.below key :=
    List.mem_filter.mpr ⟨otherMember, decide_eq_true before⟩
  rw [shape] at earlier sorted
  rcases List.mem_append.mp earlier with earlier | earlier
  · exact le_of_lt ((List.pairwise_append.mp sorted).2.2 other earlier entry List.mem_cons_self)
  · exact le_of_eq (congrArg Prod.fst (List.mem_singleton.mp earlier))

theorem previous_none (missing : map.previous key = none) :
    ∀ other ∈ map.entries, key ≤ other.1 := by
  intro other member
  have empty := List.getLast?_eq_none_iff.mp missing
  have := List.filter_eq_nil_iff.mp empty other member
  exact not_lt.mp fun before => this (decide_eq_true before)

end OrderedMap

end Conclave.Lib
