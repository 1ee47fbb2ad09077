import ConclaveFormal.Lib.OrderedMap
import Mathlib.Algebra.Order.Group.Nat

/-!
# The memory manager

`mmap` and `munmap` are emulated inside the enclave.  Each allocation is a region that counts the
bytes still committed in it, and a region is given back when that count has reached zero.
-/

set_option autoImplicit false

namespace Conclave.Memory

open Conclave.Lib

def page_size : Nat := 4096

/-- The value a 64-bit register holds. -/
def wrap64 (value : Nat) : Nat := value % 2 ^ 64

theorem wrap64_of_lt {value : Nat} (small : value < 2 ^ 64) : wrap64 value = value :=
  Nat.mod_eq_of_lt small

/-! ## Regions -/

structure MemoryRegion where
  initial_size_ : Nat
  committed_ : Nat
  deriving DecidableEq, Repr

namespace MemoryRegion

def new (size : Nat) : MemoryRegion := ⟨size, size⟩

def uncommit (region : MemoryRegion) (size : Nat) : Option MemoryRegion :=
  if size ≤ region.committed_ then some { region with committed_ := region.committed_ - size }
  else none

def is_empty (region : MemoryRegion) : Bool := region.committed_ = 0

end MemoryRegion

/-- `std::map<void*, std::unique_ptr<MemoryRegion>>` -/
abbrev Regions : Type := OrderedMap Nat MemoryRegion

inductive Errno where
  | EINVAL
  deriving DecidableEq, Repr

/-- What a call returns, the error number it sets, and the regions it leaves. -/
structure Outcome (α : Type) where
  returned : α
  errno : Option Errno
  regions_ : Regions

/-- What `memalign` and the bookkeeping after it come to.  An exception gives the block back. -/
inductive Memalign where
  | null
  | block (ret : Nat)
  | exception
  deriving DecidableEq, Repr

/-- `reinterpret_cast<void*>(-1)` -/
def MAP_FAILED : Nat := 2 ^ 64 - 1

namespace MemoryManager

/-- `[p, p + size)` ends in 64 bits before the region does. -/
def within (it : Nat × MemoryRegion) (p size : Nat) : Bool :=
  it.1 ≤ p ∧ wrap64 (p + size) ≤ wrap64 (it.1 + it.2.initial_size_)

/-- The region that the iterator is left on, from `lower_bound` and one step back. -/
def nearest (regions_ : Regions) (p : Nat) : Option (Nat × MemoryRegion) :=
  match regions_.lower_bound p with
  | some cur_region =>
      if cur_region.1 ≠ p then (regions_.previous p).or (some cur_region) else some cur_region
  | none => regions_.previous p

def allocation_size (size : Nat) : Nat :=
  wrap64 (wrap64 (size + page_size - 1) / page_size * page_size)

def alloc (regions_ : Regions) (size p : Nat) (memory : Memalign) : Outcome Nat :=
  if size = 0 then ⟨MAP_FAILED, none, regions_⟩
  else if p ≠ 0 then
    match nearest regions_ p with
    | none => ⟨MAP_FAILED, some .EINVAL, regions_⟩
    | some cur_region =>
        if within cur_region p size then ⟨p, none, regions_⟩
        else ⟨MAP_FAILED, some .EINVAL, regions_⟩
  else
    match memory with
    | .null => ⟨0, none, regions_⟩
    | .block ret => ⟨ret, none, regions_.insert ret (.new (allocation_size size))⟩
    | .exception => ⟨MAP_FAILED, none, regions_⟩

def uncommit_erase (regions_ : Regions) (it : Nat × MemoryRegion) (p size : Nat) : Regions :=
  if within it p size then
    match it.2.uncommit size with
    | some region => if region.is_empty then regions_.erase it.1 else regions_.insert it.1 region
    | none => regions_
  else regions_

def free (regions_ : Regions) (p size : Nat) : Outcome Int :=
  if p % page_size ≠ 0 then ⟨-1, some .EINVAL, regions_⟩
  else
    match nearest regions_ p with
    | none => ⟨0, none, regions_⟩
    | some cur_region => ⟨0, none, uncommit_erase regions_ cur_region p size⟩

def clear : Regions := .empty

/-! ## The region that an address belongs to -/

variable {regions_ : Regions} {p size : Nat} {it other : Nat × MemoryRegion}

theorem nearest_eq_none : nearest regions_ p = none ↔ regions_.entries = [] := by
  constructor
  · intro missing
    rw [nearest] at missing
    cases bound : regions_.lower_bound p with
    | some cur_region =>
        rw [bound] at missing
        by_cases at_p : cur_region.1 = p
        · simp [at_p] at missing
        · simp [at_p] at missing
    | none =>
        rw [bound] at missing
        apply List.eq_nil_iff_forall_not_mem.mpr
        intro entry member
        have below := OrderedMap.lower_bound_none bound entry member
        have above := OrderedMap.previous_none missing entry member
        exact absurd below (not_lt.mpr above)
  · intro empty
    simp [nearest, OrderedMap.lower_bound, OrderedMap.previous, OrderedMap.below, empty]

/-- If some region starts at or before the address, then the nearest one is the last of these. -/
theorem nearest_spec (found : nearest regions_ p = some it) :
    it ∈ regions_.entries ∧
      ∀ other ∈ regions_.entries, other.1 ≤ p → it.1 ≤ p ∧ other.1 ≤ it.1 := by
  rw [nearest] at found
  cases bound : regions_.lower_bound p with
  | none =>
      rw [bound] at found
      obtain ⟨member, before, last⟩ := OrderedMap.previous_spec found
      refine ⟨member, ?_⟩
      intro other otherMember _
      have below := last other otherMember (OrderedMap.lower_bound_none bound other otherMember)
      exact ⟨before.le, below⟩
  | some cur_region =>
      rw [bound] at found
      obtain ⟨curMember, after, first⟩ := OrderedMap.lower_bound_spec bound
      by_cases at_p : cur_region.1 = p
      · simp only [at_p, ne_eq, not_true_eq_false, ↓reduceIte, Option.some.injEq] at found
        subst found
        refine ⟨curMember, ?_⟩
        intro other _ below
        exact ⟨at_p.le, below.trans at_p.ge⟩
      · simp only [ne_eq, at_p, not_false_eq_true, ↓reduceIte] at found
        have later : p < cur_region.1 := lt_of_le_of_ne after (Ne.symm at_p)
        cases earlier : regions_.previous p with
        | some entry =>
            rw [earlier] at found
            cases found
            obtain ⟨member, before, last⟩ := OrderedMap.previous_spec earlier
            refine ⟨member, ?_⟩
            intro other otherMember below
            refine ⟨before.le, last other otherMember (lt_of_not_ge ?_)⟩
            intro reached
            exact absurd (first other otherMember reached) (not_le.mpr (below.trans_lt later))
        | none =>
            rw [earlier] at found
            cases found
            refine ⟨curMember, ?_⟩
            intro other otherMember below
            have reached := OrderedMap.previous_none earlier other otherMember
            exact absurd (first other otherMember reached) (not_le.mpr (below.trans_lt later))

/-! ## Regions that lie apart -/

/-- What `memalign` gives: whole pages, which end below the top of the address space. -/
structure Placed (base size : Nat) : Prop where
  base_aligned : page_size ∣ base
  size_aligned : page_size ∣ size
  addressable : base + size < 2 ^ 64

structure Sound (regions_ : Regions) : Prop where
  placed : ∀ entry ∈ regions_.entries, Placed entry.1 entry.2.initial_size_
  counted : ∀ entry ∈ regions_.entries, entry.2.committed_ ≤ entry.2.initial_size_
  apart : ∀ first ∈ regions_.entries, ∀ second ∈ regions_.entries, first.1 < second.1 →
    first.1 + first.2.initial_size_ ≤ second.1

theorem Sound.empty : Sound OrderedMap.empty where
  placed := by simp [OrderedMap.empty]
  counted := by simp [OrderedMap.empty]
  apart := by simp [OrderedMap.empty]

theorem Sound.nearest_eq (sound : Sound regions_) (member : it ∈ regions_.entries)
    (above : it.1 ≤ p) (below : p < it.1 + it.2.initial_size_) :
    nearest regions_ p = some it := by
  cases found : nearest regions_ p with
  | none =>
      rw [nearest_eq_none.mp found] at member
      cases member
  | some entry =>
      obtain ⟨entryMember, last⟩ := nearest_spec found
      obtain ⟨entryAbove, ordered⟩ := last it member above
      rcases ordered.lt_or_eq with later | same
      · have := sound.apart it member entry entryMember later
        omega
      · rw [OrderedMap.eq_of_key entryMember member same.symm]

theorem Sound.erase (sound : Sound regions_) (base : Nat) : Sound (regions_.erase base) where
  placed entry member := sound.placed entry (OrderedMap.mem_erase.mp member).1
  counted entry member := sound.counted entry (OrderedMap.mem_erase.mp member).1
  apart first firstMember second secondMember :=
    sound.apart first (OrderedMap.mem_erase.mp firstMember).1 second
      (OrderedMap.mem_erase.mp secondMember).1

theorem Sound.insert (sound : Sound regions_) {base : Nat} {region : MemoryRegion}
    (placed : Placed base region.initial_size_)
    (counted : region.committed_ ≤ region.initial_size_)
    (apart : ∀ entry ∈ regions_.entries, entry.1 ≠ base →
      base + region.initial_size_ ≤ entry.1 ∨ entry.1 + entry.2.initial_size_ ≤ base) :
    Sound (regions_.insert base region) where
  placed entry member := by
    rcases OrderedMap.mem_insert.mp member with rfl | old
    · exact placed
    · exact sound.placed entry old.1
  counted entry member := by
    rcases OrderedMap.mem_insert.mp member with rfl | old
    · exact counted
    · exact sound.counted entry old.1
  apart first firstMember second secondMember ordered := by
    rcases OrderedMap.mem_insert.mp firstMember with rfl | firstOld
    · rcases OrderedMap.mem_insert.mp secondMember with rfl | secondOld
      · exact absurd ordered (lt_irrefl _)
      · have := apart second secondOld.1 secondOld.2
        dsimp only at ordered ⊢
        omega
    · rcases OrderedMap.mem_insert.mp secondMember with rfl | secondOld
      · have := apart first firstOld.1 firstOld.2
        dsimp only at ordered ⊢
        omega
      · exact sound.apart first firstOld.1 second secondOld.1 ordered

/-! ## What a call changes -/

/-- The nearest region takes the size off its count. -/
def Uncommits (regions_ : Regions) (p size : Nat) (it : Nat × MemoryRegion) : Prop :=
  nearest regions_ p = some it ∧ within it p size ∧ size ≤ it.2.committed_

theorem free_of_uncommits (aligned : page_size ∣ p) (uncommits : Uncommits regions_ p size it) :
    (free regions_ p size).regions_ =
      if it.2.committed_ = size then regions_.erase it.1
      else regions_.insert it.1 { it.2 with committed_ := it.2.committed_ - size } := by
  obtain ⟨found, inside, enough⟩ := uncommits
  have step_back : p % page_size = 0 := Nat.mod_eq_zero_of_dvd aligned
  have emptied : it.2.committed_ - size = 0 ↔ it.2.committed_ = size := by omega
  simp [free, step_back, found, uncommit_erase, inside, MemoryRegion.uncommit, enough,
    MemoryRegion.is_empty, emptied]

theorem free_of_not_uncommits (kept : ∀ it, ¬Uncommits regions_ p size it) :
    (free regions_ p size).regions_ = regions_ := by
  rw [free]
  split
  · rfl
  · cases found : nearest regions_ p with
    | none => rfl
    | some it =>
        change uncommit_erase regions_ it p size = regions_
        by_cases inside : within it p size
        · have short : ¬size ≤ it.2.committed_ := fun enough => kept it ⟨found, inside, enough⟩
          simp [uncommit_erase, inside, MemoryRegion.uncommit, short]
        · simp [uncommit_erase, inside]

theorem free_unaligned (unaligned : ¬page_size ∣ p) :
    (free regions_ p size).regions_ = regions_ := by
  have off : p % page_size ≠ 0 := fun zero => unaligned (Nat.dvd_of_mod_eq_zero zero)
  rw [free, if_pos off]

/-- A free leaves the regions as they are, erases one or takes the size off its count. -/
theorem free_cases (regions_ : Regions) (p size : Nat) :
    (free regions_ p size).regions_ = regions_ ∨
      ∃ it, page_size ∣ p ∧ Uncommits regions_ p size it ∧
        (it.2.committed_ = size ∧ (free regions_ p size).regions_ = regions_.erase it.1 ∨
          it.2.committed_ ≠ size ∧ (free regions_ p size).regions_ =
            regions_.insert it.1 { it.2 with committed_ := it.2.committed_ - size }) := by
  by_cases aligned : page_size ∣ p
  · by_cases uncommitted : ∃ it, Uncommits regions_ p size it
    · obtain ⟨it, uncommits⟩ := uncommitted
      have after := free_of_uncommits aligned uncommits
      refine Or.inr ⟨it, aligned, uncommits, ?_⟩
      by_cases all : it.2.committed_ = size
      · rw [if_pos all] at after
        exact Or.inl ⟨all, after⟩
      · rw [if_neg all] at after
        exact Or.inr ⟨all, after⟩
    · exact Or.inl (free_of_not_uncommits fun it uncommits => uncommitted ⟨it, uncommits⟩)
  · exact Or.inl (free_unaligned aligned)

theorem Sound.uncommits (sound : Sound regions_) (member : it ∈ regions_.entries)
    (above : it.1 ≤ p) (below : p + size ≤ it.1 + it.2.initial_size_) (some_page : 0 < size)
    (enough : size ≤ it.2.committed_) : Uncommits regions_ p size it := by
  have top := (sound.placed it member).addressable
  refine ⟨sound.nearest_eq member above (by omega), ?_, enough⟩
  rw [within, wrap64_of_lt top, wrap64_of_lt (below.trans_lt top)]
  exact decide_eq_true ⟨above, below⟩

theorem Sound.free (sound : Sound regions_) (p size : Nat) :
    Sound (free regions_ p size).regions_ := by
  rcases free_cases regions_ p size with same | ⟨it, -, uncommits, ⟨-, after⟩ | ⟨-, after⟩⟩
  · rw [same]
    exact sound
  · rw [after]
    exact sound.erase it.1
  · have member := (nearest_spec uncommits.1).1
    rw [after]
    apply sound.insert
    · exact sound.placed it member
    · exact (Nat.sub_le _ _).trans (sound.counted it member)
    · intro entry entryMember other
      rcases Nat.lt_or_gt_of_ne other with before | later
      · exact Or.inr (sound.apart entry entryMember it member before)
      · exact Or.inl (sound.apart it member entry entryMember later)

/-- A hint is answered by the nearest region. -/
theorem alloc_hint (some_bytes : size ≠ 0) (hint : p ≠ 0) (memory : Memalign) :
    alloc regions_ size p memory =
      if ∃ it, nearest regions_ p = some it ∧ within it p size then ⟨p, none, regions_⟩
      else ⟨MAP_FAILED, some .EINVAL, regions_⟩ := by
  unfold alloc
  rw [if_neg some_bytes, if_pos hint]
  cases found : nearest regions_ p with
  | none => simp
  | some it => simp

/-- An allocation keeps the regions or adds the one that `memalign` gives the block for. -/
theorem alloc_regions (regions_ : Regions) (size p : Nat) (memory : Memalign) :
    (alloc regions_ size p memory).regions_ = regions_ ∨
      ∃ ret, memory = .block ret ∧ p = 0 ∧ size ≠ 0 ∧
        (alloc regions_ size p memory).regions_ =
          regions_.insert ret (.new (allocation_size size)) := by
  by_cases zero : size = 0
  · left
    simp [alloc, zero]
  by_cases hint : p = 0
  · cases memory with
    | null =>
        left
        simp [alloc, zero, hint]
    | exception =>
        left
        simp [alloc, zero, hint]
    | block ret =>
        right
        refine ⟨ret, rfl, hint, zero, ?_⟩
        simp [alloc, zero, hint]
  · left
    rw [alloc_hint zero hint]
    split
    · rfl
    · rfl

end MemoryManager

end Conclave.Memory
