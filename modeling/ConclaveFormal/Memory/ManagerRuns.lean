import ConclaveFormal.Memory.PageModel

/-!
# Reachable memory managers

The states that any sequence of allocations, frees and clears leads to, and the last region that
begins at or before an address.
-/

set_option autoImplicit false

namespace Conclave.Memory.MemoryManager

open Conclave.Lib

/-! ## Operations -/

inductive Operation where
  | alloc (size p : UInt64) (memory : Memalign)
  | free (p size : UInt64)
  | clear
  deriving DecidableEq

def operate (regions_ : Regions) : Operation → Option Regions
  | .alloc size p memory => some (alloc regions_ size.toNat p.toNat memory).regions_
  | .free p size => some (free regions_ p.toNat size.toNat).regions_
  | .clear => some clear

/-- What `memalign(page_size, bytes)` promises of the block at `ret`: it is aligned and not null,
its end is an address, and it lies apart from every block that has not been given back.  A block
of no bytes has an address of its own. -/
structure Supplied (regions_ : Regions) (ret bytes : Nat) : Prop where
  aligned : page_size ∣ ret
  not_null : ret ≠ 0
  addressable : ret + bytes < 2 ^ 64
  fresh : ∀ entry ∈ regions_.entries, entry.1 ≠ ret
  apart : ∀ entry ∈ regions_.entries,
    ret + bytes ≤ entry.1 ∨ entry.1 + entry.2.initial_size_ ≤ ret

/-- An allocation that calls `memalign` is given what `memalign` promises. -/
def MemalignKept (regions_ : Regions) : Operation → Prop
  | .alloc size p (.block ret) =>
      p = 0 → size ≠ 0 → Supplied regions_ ret (allocation_size size.toNat)
  | _ => True

def Reachable (regions_ : Regions) : Prop :=
  ∃ operations, Meets operate MemalignKept .empty operations ∧
    run operate .empty operations = some regions_

/-! ## The invariant -/

/-- The regions lie apart, and only a region of no bytes has none committed. -/
structure Kept (regions_ : Regions) : Prop where
  sound : Sound regions_
  emptied : ∀ entry ∈ regions_.entries, entry.2.committed_ = 0 → entry.2.initial_size_ = 0

theorem Kept.empty : Kept OrderedMap.empty where
  sound := .empty
  emptied := by simp [OrderedMap.empty]

theorem page_size_dvd_allocation_size (size : Nat) : page_size ∣ allocation_size size := by
  have whole : page_size ∣ 2 ^ 64 := by decide
  exact (Nat.dvd_mod_iff whole).mpr (Nat.dvd_mul_left page_size _)

variable {regions_ : Regions} {p size ret bytes : Nat} {it : Nat × MemoryRegion}

theorem Kept.insert_new (kept : Kept regions_) (supplied : Supplied regions_ ret bytes)
    (whole : page_size ∣ bytes) : Kept (regions_.insert ret (.new bytes)) where
  sound := by
    apply kept.sound.insert
    · exact ⟨supplied.aligned, whole, supplied.addressable⟩
    · exact Nat.le_refl bytes
    · intro entry member _
      exact supplied.apart entry member
  emptied entry member none_left := by
    rcases OrderedMap.mem_insert.mp member with rfl | old
    · exact none_left
    · exact kept.emptied entry old.1 none_left

theorem Kept.alloc (kept : Kept regions_) {size p : UInt64} {memory : Memalign}
    (supplied : MemalignKept regions_ (.alloc size p memory)) :
    Kept (alloc regions_ size.toNat p.toNat memory).regions_ := by
  rcases alloc_regions regions_ size.toNat p.toNat memory with same |
    ⟨ret, rfl, zero, some_size, after⟩
  · rw [same]
    exact kept
  · have null : p = 0 := UInt64.toNat_inj.mp zero
    have some_bytes : size ≠ 0 := fun same => some_size (UInt64.toNat_inj.mpr same)
    rw [after]
    exact kept.insert_new (supplied null some_bytes) (page_size_dvd_allocation_size _)

theorem Kept.free (kept : Kept regions_) (p size : Nat) : Kept (free regions_ p size).regions_ where
  sound := kept.sound.free p size
  emptied entry member none_left := by
    rcases free_cases regions_ p size with same |
      ⟨it, -, uncommits, ⟨all, after⟩ | ⟨some_left, after⟩⟩
    · rw [same] at member
      exact kept.emptied entry member none_left
    · rw [after] at member
      exact kept.emptied entry (OrderedMap.mem_erase.mp member).1 none_left
    · rw [after] at member
      rcases OrderedMap.mem_insert.mp member with rfl | old
      · have enough := uncommits.2.2
        dsimp only at none_left
        omega
      · exact kept.emptied entry old.1 none_left

theorem Kept.operate (kept : Kept regions_) {operation : Operation} {next : Regions}
    (supplied : MemalignKept regions_ operation)
    (stepped : operate regions_ operation = some next) :
    Kept next := by
  cases operation with
  | alloc size p memory =>
      cases stepped
      exact kept.alloc supplied
  | free p size =>
      cases stepped
      exact kept.free p.toNat size.toNat
  | clear =>
      cases stepped
      exact .empty

theorem Reachable.kept (reachable : Reachable regions_) : Kept regions_ := by
  obtain ⟨operations, supplied, ran⟩ := reachable
  exact run_invariant_of_meets (fun kept given stepped => kept.operate given stepped) .empty
    supplied ran

def twoPagesAt65536 : Regions := OrderedMap.empty.insert 65536 (.new 8192)

theorem reachable_twoPagesAt65536 : Reachable twoPagesAt65536 := by
  refine ⟨[.alloc 5000 0 (.block 65536)], .cons ?_ rfl trivial, rfl⟩
  intro _ _
  exact ⟨by decide, by decide, by decide, by decide, by decide⟩

/-! ## The last region that begins at or before an address -/

structure LastBefore (regions_ : Regions) (p : Nat) (it : Nat × MemoryRegion) : Prop where
  live : it ∈ regions_.entries
  before : it.1 ≤ p
  last : ∀ other ∈ regions_.entries, other.1 ≤ p → other.1 ≤ it.1

theorem LastBefore.nearest (last : LastBefore regions_ p it) : nearest regions_ p = some it := by
  cases found : MemoryManager.nearest regions_ p with
  | none =>
      have member := last.live
      rw [nearest_eq_none.mp found] at member
      cases member
  | some entry =>
      obtain ⟨member, closest⟩ := nearest_spec found
      obtain ⟨entryBefore, ordered⟩ := closest it last.live last.before
      have same := Nat.le_antisymm (last.last entry member entryBefore) ordered
      rw [OrderedMap.eq_of_key member last.live same]

theorem lastBefore_of_nearest (found : nearest regions_ p = some it) (before : it.1 ≤ p) :
    LastBefore regions_ p it where
  live := (nearest_spec found).1
  before := before
  last other member otherBefore := ((nearest_spec found).2 other member otherBefore).2

/-- A range that lies inside a region lies inside the last one that begins at or before it. -/
theorem LastBefore.of_inside (sound : Sound regions_) (member : it ∈ regions_.entries)
    (before : it.1 ≤ p) (inside : p + size ≤ it.1 + it.2.initial_size_) (some_bytes : 0 < size) :
    LastBefore regions_ p it :=
  lastBefore_of_nearest (sound.nearest_eq member before (by omega)) before

theorem LastBefore.within_iff {it : Nat × MemoryRegion} {p size : Nat} (sound : Sound regions_)
    (last : LastBefore regions_ p it) :
    within it p size ↔ wrap64 (p + size) ≤ it.1 + it.2.initial_size_ := by
  have top := (sound.placed it last.live).addressable
  rw [within, wrap64_of_lt top, decide_eq_true_iff]
  exact and_iff_right last.before

/-- The end of a range of 64-bit numbers wraps around at most once. -/
theorem wrap64_end {p size : Nat} (address : p < 2 ^ 64) (bounded : size < 2 ^ 64)
    (wraps : 2 ^ 64 ≤ p + size) : wrap64 (p + size) = p + size - 2 ^ 64 := by
  rw [wrap64]
  omega

end Conclave.Memory.MemoryManager
