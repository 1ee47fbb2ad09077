import ConclaveFormal.Memory.ManagerRuns

/-!
# What an allocation answers

With a hint the call tells whether the range lies in a live region; without one it makes a new
region.  Both computations wrap around at the top of the address space.
-/

set_option autoImplicit false

namespace Conclave.Memory.MemoryManager

open Conclave.Lib

variable {regions_ : Regions}

/-! ## With a hint -/

/-- The range, without wrapping around, lies inside one live region. -/
def InsideOneRegion (regions_ : Regions) (p size : Nat) : Prop :=
  ∃ it ∈ regions_.entries, it.1 ≤ p ∧ p + size ≤ it.1 + it.2.initial_size_

/-- The call returns the hint, with no error, exactly for a range inside one live region; for any
other it returns -1 with `EINVAL`, and it keeps the regions.  The error number is what tells the
hint -1 from a failure. -/
structure HintAnswered (regions_ : Regions) (p size : Nat) (outcome : Outcome Nat) : Prop where
  granted : outcome.returned = p ∧ outcome.errno = none ↔ InsideOneRegion regions_ p size
  refused : ¬InsideOneRegion regions_ p size →
    outcome.returned = MAP_FAILED ∧ outcome.errno = some .EINVAL
  unchanged : outcome.regions_ = regions_

/-- Without wrapping around, the nearest region has the range within it exactly if a live region
has. -/
theorem nearest_within_iff (sound : Sound regions_) {p size : Nat} (some_bytes : 0 < size)
    (small : p + size < 2 ^ 64) :
    (∃ it, nearest regions_ p = some it ∧ within it p size) ↔ InsideOneRegion regions_ p size := by
  constructor
  · rintro ⟨it, found, inside⟩
    have before : it.1 ≤ p := (of_decide_eq_true inside).1
    have last := lastBefore_of_nearest found before
    rw [last.within_iff sound, wrap64_of_lt small] at inside
    exact ⟨it, last.live, before, inside⟩
  · rintro ⟨it, member, before, inside⟩
    have last := LastBefore.of_inside sound member before inside some_bytes
    refine ⟨it, last.nearest, ?_⟩
    rw [last.within_iff sound, wrap64_of_lt small]
    exact inside

theorem not_insideOneRegion_of_wraps (sound : Sound regions_) {p size : Nat}
    (wraps : 2 ^ 64 ≤ p + size) : ¬InsideOneRegion regions_ p size := by
  rintro ⟨it, member, -, inside⟩
  have top := (sound.placed it member).addressable
  omega

theorem hintAnswered_granted {p size : Nat} (inside : InsideOneRegion regions_ p size) :
    HintAnswered regions_ p size ⟨p, none, regions_⟩ where
  granted := iff_of_true ⟨rfl, rfl⟩ inside
  refused outside := absurd inside outside
  unchanged := rfl

theorem hintAnswered_refused {p size : Nat} (outside : ¬InsideOneRegion regions_ p size) :
    HintAnswered regions_ p size ⟨MAP_FAILED, some .EINVAL, regions_⟩ where
  granted := by simp [outside]
  refused _ := ⟨rfl, rfl⟩
  unchanged := rfl

/-- A hint is answered rightly as long as the range does not wrap around to an end that the last
region at or before the hint reaches. -/
theorem hint_answered_iff (reachable : Reachable regions_) (p size : UInt64)
    (hint : p ≠ 0) (some_bytes : size ≠ 0) (memory : Memalign) :
    HintAnswered regions_ p.toNat size.toNat (alloc regions_ size.toNat p.toNat memory) ↔
      p.toNat + size.toNat < 2 ^ 64 ∨
        ∀ it, LastBefore regions_ p.toNat it →
          it.1 + it.2.initial_size_ < p.toNat + size.toNat - 2 ^ 64 := by
  have sound := reachable.kept.sound
  have some_size : size.toNat ≠ 0 := fun same => some_bytes (UInt64.toNat_inj.mp same)
  have some_hint : p.toNat ≠ 0 := fun same => hint (UInt64.toNat_inj.mp same)
  rw [alloc_hint some_size some_hint]
  by_cases small : p.toNat + size.toNat < 2 ^ 64
  · refine iff_of_true ?_ (Or.inl small)
    have agree := nearest_within_iff sound (Nat.pos_of_ne_zero some_size) small
    by_cases inside : InsideOneRegion regions_ p.toNat size.toNat
    · rw [if_pos (agree.mpr inside)]
      exact hintAnswered_granted inside
    · rw [if_neg (fun found => inside (agree.mp found))]
      exact hintAnswered_refused inside
  · have wraps := Nat.le_of_not_lt small
    have outside := not_insideOneRegion_of_wraps sound wraps
    have wrapped := wrap64_end p.toNat_lt size.toNat_lt wraps
    rw [or_iff_right small]
    constructor
    · intro answered it last
      by_contra reached
      have inside : within it p.toNat size.toNat := by
        rw [last.within_iff sound, wrapped]
        exact Nat.le_of_not_lt reached
      rw [if_pos ⟨it, last.nearest, inside⟩] at answered
      exact outside (answered.granted.mp ⟨rfl, rfl⟩)
    · intro beyond
      rw [if_neg]
      · exact hintAnswered_refused outside
      · rintro ⟨it, found, inside⟩
        have last := lastBefore_of_nearest found (of_decide_eq_true inside).1
        rw [last.within_iff sound, wrapped] at inside
        exact absurd inside (Nat.not_le_of_lt (beyond it last))

theorem hint_answered_in_second_page :
    HintAnswered twoPagesAt65536 69632 4096 (alloc twoPagesAt65536 4096 69632 .null) :=
  (hint_answered_iff reachable_twoPagesAt65536 69632 4096 (by decide) (by decide) .null).mpr
    (Or.inl (by decide))

/-- The last page of the address space and the first one are taken to lie in the region. -/
theorem hint_granted_outside :
    ¬∀ (regions_ : Regions), Reachable regions_ → ∀ (p size : UInt64), p ≠ 0 → size ≠ 0 →
      ∀ memory, HintAnswered regions_ p.toNat size.toNat
        (alloc regions_ size.toNat p.toNat memory) := by
  intro holds
  have answered := holds twoPagesAt65536 reachable_twoPagesAt65536 18446744073709547520 8192
    (by decide)
    (by decide) .null
  have inside := answered.granted.mp (by decide)
  exact not_insideOneRegion_of_wraps reachable_twoPagesAt65536.kept.sound (by decide) inside

/-! ## Without a hint -/

/-- Either -1 is returned and the regions are kept, or there is a new region of at least the size
at the address returned, apart from those that were live before. -/
def FreshRegion (regions_ : Regions) (size : Nat) (outcome : Outcome Nat) : Prop :=
  outcome.returned = MAP_FAILED ∧ outcome.regions_ = regions_ ∨
    outcome.returned ≠ 0 ∧ page_size ∣ outcome.returned ∧ ∃ bytes, size ≤ bytes ∧
      outcome.regions_ = regions_.insert outcome.returned (.new bytes) ∧
      ∀ entry ∈ regions_.entries, entry.1 ≠ outcome.returned ∧
        (outcome.returned + bytes ≤ entry.1 ∨
          entry.1 + entry.2.initial_size_ ≤ outcome.returned)

theorem allocation_size_large {size : Nat} (bounded : size < 2 ^ 64)
    (large : 2 ^ 64 < size + page_size) : allocation_size size = 0 := by
  have page : page_size = 4096 := rfl
  have small : wrap64 (size + page_size - 1) / page_size = 0 := by
    rw [wrap64, page]
    omega
  rw [allocation_size, small, Nat.zero_mul]
  rfl

theorem le_allocation_size {size : Nat} (small : size + page_size ≤ 2 ^ 64) :
    size ≤ allocation_size size := by
  have page : page_size = 4096 := rfl
  rw [allocation_size_eq small, wholePages, page]
  omega

theorem insert_new_initial_size {ret first second : Nat}
    (same : regions_.insert ret (.new first) = regions_.insert ret (.new second)) :
    first = second := by
  have found := congrArg (fun map => (map.lookup ret).map MemoryRegion.initial_size_) same
  simpa [OrderedMap.lookup_insert, MemoryRegion.new] using found

/-- A region is made, or -1 is returned, unless `memalign` has no memory left or the size wraps
around to no pages at all. -/
theorem fresh_region_iff (regions_ : Regions) (size : UInt64) (some_bytes : size ≠ 0)
    (memory : Memalign) (supplied : MemalignKept regions_ (.alloc size 0 memory)) :
    FreshRegion regions_ size.toNat (alloc regions_ size.toNat 0 memory) ↔
      memory ≠ .null ∧ (size.toNat + page_size ≤ 2 ^ 64 ∨ memory = .exception) := by
  have some_size : size.toNat ≠ 0 := fun same => some_bytes (UInt64.toNat_inj.mp same)
  cases memory with
  | null =>
      have returned : alloc regions_ size.toNat 0 .null = ⟨0, none, regions_⟩ := by
        simp [alloc, some_size]
      rw [returned]
      simp [FreshRegion, MAP_FAILED]
  | exception =>
      have returned : alloc regions_ size.toNat 0 .exception = ⟨MAP_FAILED, none, regions_⟩ := by
        simp [alloc, some_size]
      rw [returned]
      simp [FreshRegion]
  | block ret =>
      have given : Supplied regions_ ret (allocation_size size.toNat) := supplied rfl some_bytes
      have returned : alloc regions_ size.toNat 0 (.block ret) =
          ⟨ret, none, regions_.insert ret (.new (allocation_size size.toNat))⟩ := by
        simp [alloc, some_size]
      have not_failed : ret ≠ MAP_FAILED := by
        intro same
        have aligned := given.aligned
        rw [same] at aligned
        exact absurd aligned (by decide)
      rw [returned]
      constructor
      · rintro (⟨failed, -⟩ | ⟨-, -, bytes, enough, after, -⟩)
        · exact absurd failed not_failed
        · refine ⟨by simp, Or.inl ?_⟩
          by_contra large
          have none_given := allocation_size_large size.toNat_lt (Nat.lt_of_not_le large)
          have same := insert_new_initial_size after
          omega
      · rintro ⟨-, small | impossible⟩
        · refine Or.inr ⟨given.not_null, given.aligned, _, le_allocation_size small, rfl, ?_⟩
          intro entry member
          exact ⟨given.fresh entry member, given.apart entry member⟩
        · cases impossible

theorem fresh_region_after_twoPages :
    FreshRegion twoPagesAt65536 100 (alloc twoPagesAt65536 100 0 (.block 131072)) := by
  refine (fresh_region_iff twoPagesAt65536 100 (by decide) (.block 131072) ?_).mpr ?_
  · intro _ _
    exact ⟨by decide, by decide, by decide, by decide, by decide⟩
  · exact ⟨by simp, Or.inl (by decide)⟩

/-- The null that `memalign` gives is passed on. -/
theorem null_returned :
    ¬∀ (regions_ : Regions), Reachable regions_ → ∀ (size : UInt64), size ≠ 0 → ∀ memory,
      MemalignKept regions_ (.alloc size 0 memory) →
        FreshRegion regions_ size.toNat (alloc regions_ size.toNat 0 memory) := by
  intro holds
  rcases holds twoPagesAt65536 reachable_twoPagesAt65536 4096 (by decide) .null trivial with
    ⟨failed, -⟩ | ⟨not_null, -⟩
  · exact absurd failed (by decide)
  · exact absurd rfl not_null

end Conclave.Memory.MemoryManager
