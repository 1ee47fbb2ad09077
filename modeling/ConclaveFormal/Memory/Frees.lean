import ConclaveFormal.Memory.ManagerRuns

/-!
# What a free changes

A free takes its size off the count of one region.  The count is what an allocation has rounded up
to whole pages, and the end of the range wraps around at the top of the address space.
-/

set_option autoImplicit false

namespace Conclave.Memory.MemoryManager

open Conclave.Lib

variable {regions_ : Regions} {it : Nat × MemoryRegion}

/-! ## The region that a free touches -/

/-- A region of no bytes still has its first address. -/
def Contains (it : Nat × MemoryRegion) (p : Nat) : Prop :=
  it.1 ≤ p ∧ (p < it.1 + it.2.initial_size_ ∨ p = it.1)

/-- What has changed is the region that contains `p`, and the range lies inside it and is not
larger than what it has committed. -/
def TouchesContainingRegion (regions_ after : Regions) (p size : Nat) : Prop :=
  ∀ base, after.lookup base ≠ regions_.lookup base →
    ∃ region, (base, region) ∈ regions_.entries ∧ Contains (base, region) p ∧
      p + size ≤ base + region.initial_size_ ∧ size ≤ region.committed_

/-- Of what is committed in the last region before the range, a free whose range wraps around
takes its size off too. -/
theorem LastBefore.uncommits_wrapping (kept : Kept regions_) {p size : Nat}
    (last : LastBefore regions_ p it) (address : p < 2 ^ 64) (bounded : size < 2 ^ 64)
    (wraps : 2 ^ 64 ≤ p + size) (enough : size ≤ it.2.committed_) :
    Uncommits regions_ p size it := by
  refine ⟨last.nearest, ?_, enough⟩
  have counted := kept.sound.counted it last.live
  rw [last.within_iff kept.sound, wrap64_end address bounded wraps]
  omega

theorem lookup_free_of_uncommits {p size : Nat} (aligned : page_size ∣ p)
    (uncommits : Uncommits regions_ p size it) :
    (free regions_ p size).regions_.lookup it.1 =
      if it.2.committed_ = size then none
      else some { it.2 with committed_ := it.2.committed_ - size } := by
  rw [free_of_uncommits aligned uncommits]
  split
  · rw [OrderedMap.lookup_erase, if_pos rfl]
  · rw [OrderedMap.lookup_insert, if_pos rfl]

theorem lookup_free_other {p size base : Nat} (aligned : page_size ∣ p)
    (uncommits : Uncommits regions_ p size it) (other : base ≠ it.1) :
    (free regions_ p size).regions_.lookup base = regions_.lookup base := by
  rw [free_of_uncommits aligned uncommits]
  split
  · rw [OrderedMap.lookup_erase, if_neg other]
  · rw [OrderedMap.lookup_insert, if_neg other]

theorem lookup_of_live (live : it ∈ regions_.entries) : regions_.lookup it.1 = some it.2 :=
  OrderedMap.lookup_eq_some.mpr live

/-- A free of no bytes changes only a region that has none. -/
theorem contains_of_changed (kept : Kept regions_) {p size : Nat} (aligned : page_size ∣ p)
    (uncommits : Uncommits regions_ p size it) (last : LastBefore regions_ p it)
    (inside : p + size ≤ it.1 + it.2.initial_size_)
    (changed : (free regions_ p size).regions_.lookup it.1 ≠ regions_.lookup it.1) :
    Contains it p := by
  refine ⟨last.before, ?_⟩
  by_cases none_freed : size = 0
  · rw [lookup_free_of_uncommits aligned uncommits, lookup_of_live last.live, none_freed] at changed
    by_cases none_left : it.2.committed_ = 0
    · have empty := kept.emptied it last.live none_left
      have before := last.before
      right
      omega
    · rw [if_neg none_left] at changed
      exact absurd rfl changed
  · left
    omega

/-- A free touches one region only, unless its range wraps around and the last region that begins
at or before it has as many bytes committed. -/
theorem free_touches_one_region_iff (reachable : Reachable regions_) (p size : UInt64) :
    TouchesContainingRegion regions_ (free regions_ p.toNat size.toNat).regions_ p.toNat
        size.toNat ↔
      ¬page_size ∣ p.toNat ∨ p.toNat + size.toNat < 2 ^ 64 ∨
        ∀ it, LastBefore regions_ p.toNat it → it.2.committed_ < size.toNat := by
  have kept := reachable.kept
  constructor
  · intro touches
    by_contra wrapping
    simp only [not_or, not_not, not_forall, not_lt] at wrapping
    obtain ⟨aligned, wraps, it, last, enough⟩ := wrapping
    have uncommits := last.uncommits_wrapping kept p.toNat_lt size.toNat_lt wraps enough
    have changed : (free regions_ p.toNat size.toNat).regions_.lookup it.1 ≠
        regions_.lookup it.1 := by
      rw [lookup_free_of_uncommits aligned uncommits, lookup_of_live last.live]
      split
      · simp
      · intro same
        have committed := congrArg MemoryRegion.committed_ (Option.some.inj same)
        have address := p.toNat_lt
        dsimp only at committed
        omega
    obtain ⟨region, live, -, inside, -⟩ := touches it.1 changed
    have top := (kept.sound.placed _ live).addressable
    dsimp only at top
    omega
  · intro condition base changed
    rcases free_cases regions_ p.toNat size.toNat with same | ⟨it, aligned, uncommits, -⟩
    · rw [same] at changed
      exact absurd rfl changed
    · have last := lastBefore_of_nearest uncommits.1 (of_decide_eq_true uncommits.2.1).1
      have small : p.toNat + size.toNat < 2 ^ 64 := by
        rcases condition with unaligned | small | short
        · exact absurd aligned unaligned
        · exact small
        · exact absurd uncommits.2.2 (Nat.not_le_of_lt (short it last))
      have inside := (last.within_iff kept.sound).mp uncommits.2.1
      rw [wrap64_of_lt small] at inside
      have here : base = it.1 := by
        by_contra other
        exact changed (lookup_free_other aligned uncommits other)
      subst here
      exact ⟨it.2, last.live, contains_of_changed kept aligned uncommits last inside changed,
        inside, uncommits.2.2⟩

theorem free_touches_second_page :
    TouchesContainingRegion twoPagesAt65536 (free twoPagesAt65536 69632 4096).regions_ 69632
      4096 :=
  (free_touches_one_region_iff reachable_twoPagesAt65536 69632 4096).mpr
    (Or.inr (Or.inl (by decide)))

/-- A free of the last page of the address space takes a page off the region far before it. -/
theorem free_touches_region_before :
    ¬∀ (regions_ : Regions), Reachable regions_ → ∀ p size : UInt64,
      TouchesContainingRegion regions_ (free regions_ p.toNat size.toNat).regions_ p.toNat
        size.toNat := by
  intro holds
  obtain ⟨region, live, -, inside, -⟩ :=
    holds twoPagesAt65536 reachable_twoPagesAt65536 18446744073709547520 4096 65536 (by decide)
  have top := (reachable_twoPagesAt65536.kept.sound.placed _ live).addressable
  exact absurd (inside.trans_lt top) (by decide)

/-! ## An allocation and the free of it -/

/-- The operation is not a free of the region at `ret`: that region is left as it is. -/
def Spares (ret : Nat) (regions_ : Regions) : Operation → Prop
  | .alloc _ _ _ => True
  | .free p size =>
      (free regions_ p.toNat size.toNat).regions_.lookup ret = regions_.lookup ret
  | .clear => False

theorem lookup_operate {ret : Nat} {region : MemoryRegion} {operation : Operation}
    {next : Regions} (live : regions_.lookup ret = some region)
    (supplied : MemalignKept regions_ operation) (spares : Spares ret regions_ operation)
    (stepped : operate regions_ operation = some next) : next.lookup ret = some region := by
  cases operation with
  | clear => cases spares
  | free p size =>
      cases stepped
      exact spares.trans live
  | alloc size p memory =>
      cases stepped
      rcases alloc_regions regions_ size.toNat p.toNat memory with same |
        ⟨other, rfl, zero, some_size, after⟩
      · rw [same]
        exact live
      · have null : p = 0 := UInt64.toNat_inj.mp zero
        have some_bytes : size ≠ 0 := fun same => some_size (UInt64.toNat_inj.mpr same)
        have fresh := (supplied null some_bytes).fresh _ (OrderedMap.lookup_eq_some.mp live)
        rw [after, OrderedMap.lookup_insert, if_neg fresh]
        exact live

theorem lookup_run {ret : Nat} {region : MemoryRegion} {operations : List Operation}
    {final : Regions} (live : regions_.lookup ret = some region)
    (supplied : Meets operate MemalignKept regions_ operations)
    (spared : Meets operate (Spares ret) regions_ operations)
    (ran : run operate regions_ operations = some final) : final.lookup ret = some region :=
  run_invariant_of_meets
    (fun found condition stepped => lookup_operate found condition.1 condition.2 stepped) live
    (supplied.and spared) ran

theorem allocation_size_of_dvd {size : Nat} (bounded : size < 2 ^ 64) (whole : page_size ∣ size) :
    allocation_size size = size := by
  have page : page_size = 4096 := rfl
  have small : size + page_size ≤ 2 ^ 64 := by
    rw [page] at whole ⊢
    omega
  rw [allocation_size_eq small, wholePages]
  rw [page] at whole ⊢
  omega

/-- The region that begins at `p` is erased by a free of as many bytes as it has been made with,
and by no other. -/
theorem free_erases_iff (kept : Kept regions_) {p size bytes : Nat}
    (live : (p, MemoryRegion.new bytes) ∈ regions_.entries) :
    (free regions_ p size).regions_ = regions_.erase p ↔ size = bytes := by
  have aligned : page_size ∣ p := (kept.sound.placed _ live).base_aligned
  have addressable : p + bytes < 2 ^ 64 := (kept.sound.placed _ live).addressable
  have last : LastBefore regions_ p (p, .new bytes) := ⟨live, le_rfl, fun _ _ before => before⟩
  constructor
  · intro erased
    have gone : (free regions_ p size).regions_.lookup p = none := by
      rw [erased, OrderedMap.lookup_erase, if_pos rfl]
    rcases free_cases regions_ p size with same | ⟨it, -, uncommits, -⟩
    · rw [same, lookup_of_live live] at gone
      cases gone
    · have here := uncommits.1
      rw [last.nearest] at here
      cases here
      rw [lookup_free_of_uncommits aligned uncommits] at gone
      split at gone
      · rename_i all
        exact all.symm
      · cases gone
  · intro all
    subst all
    have uncommits : Uncommits regions_ p size (p, .new size) := by
      refine ⟨last.nearest, ?_, le_rfl⟩
      rw [last.within_iff kept.sound, wrap64_of_lt addressable]
      exact le_rfl
    rw [free_of_uncommits aligned uncommits]
    exact if_pos rfl

/-- The region of an allocation is removed by a free of the size rounded up to whole pages, so by
one of the size itself exactly if that is a multiple of the page size. -/
theorem free_removes_region (reachable : Reachable regions_) (size : UInt64)
    (some_bytes : size ≠ 0) {ret : Nat} {operations : List Operation} {allocated final : Regions}
    (supplied : Meets operate MemalignKept regions_ (.alloc size 0 (.block ret) :: operations))
    (allocation : operate regions_ (.alloc size 0 (.block ret)) = some allocated)
    (spared : Meets operate (Spares ret) allocated operations)
    (ran : run operate allocated operations = some final) :
    (∀ freed : UInt64, (free final ret freed.toNat).regions_ = final.erase ret ↔
        freed.toNat = allocation_size size.toNat) ∧
      ((free final ret size.toNat).regions_ = final.erase ret ↔ page_size ∣ size.toNat) := by
  have some_size : size.toNat ≠ 0 := fun same => some_bytes (UInt64.toNat_inj.mp same)
  have made : allocated = regions_.insert ret (.new (allocation_size size.toNat)) := by
    cases allocation
    simp [alloc, some_size]
  have live : allocated.lookup ret = some (.new (allocation_size size.toNat)) := by
    rw [made, OrderedMap.lookup_insert, if_pos rfl]
  have later := supplied.2 allocated allocation
  have kept : Kept final := run_invariant_of_meets
    (fun kept given stepped => kept.operate given stepped)
    (reachable.kept.operate supplied.1 allocation) later ran
  have still := OrderedMap.lookup_eq_some.mp (lookup_run live later spared ran)
  refine ⟨fun freed => free_erases_iff kept still, ?_⟩
  rw [free_erases_iff kept still]
  constructor
  · intro same
    rw [same]
    exact page_size_dvd_allocation_size _
  · intro whole
    exact (allocation_size_of_dvd size.toNat_lt whole).symm

/-- A second region is mapped before the free of the first one. -/
theorem free_removes_region_of_two_pages :
    (free (twoPagesAt65536.insert 131072 (.new 4096)) 65536 8192).regions_ =
      (twoPagesAt65536.insert 131072 (.new 4096)).erase 65536 := by
  have first : Supplied .empty 65536 8192 := ⟨by decide, by decide, by decide, by decide, by decide⟩
  have second : Supplied twoPagesAt65536 131072 4096 :=
    ⟨by decide, by decide, by decide, by decide, by decide⟩
  refine ((@free_removes_region .empty ⟨[], trivial, rfl⟩ 5000 (by decide) 65536
    [.alloc 100 0 (.block 131072)] _ _ ?_ rfl ?_ rfl).1 8192).mpr (by decide)
  · exact .cons (fun _ _ => first) rfl (.cons (fun _ _ => second) rfl trivial)
  · exact .cons trivial rfl trivial

/-- A page that 5000 bytes were rounded up to is still counted after the free. -/
theorem region_of_5000_bytes_left :
    ¬∀ (regions_ : Regions), Reachable regions_ → ∀ (size : UInt64), size ≠ 0 →
      ∀ (ret : Nat) (operations : List Operation) (allocated final : Regions),
        Meets operate MemalignKept regions_ (.alloc size 0 (.block ret) :: operations) →
        operate regions_ (.alloc size 0 (.block ret)) = some allocated →
        Meets operate (Spares ret) allocated operations →
        run operate allocated operations = some final →
        (free final ret size.toNat).regions_ = final.erase ret := by
  intro holds
  have supplied : Supplied .empty 65536 8192 :=
    ⟨by decide, by decide, by decide, by decide, by decide⟩
  have erased := holds .empty ⟨[], trivial, rfl⟩ 5000 (by decide) 65536 [] _ _
    (.cons (fun _ _ => supplied) rfl trivial) rfl trivial rfl
  have gone := congrArg (fun regions => regions.lookup 65536) erased
  revert gone
  decide

end Conclave.Memory.MemoryManager
