import ConclaveFormal.Lib.Transition
import ConclaveFormal.Memory.MemoryManager
import Mathlib.Order.Interval.Finset.Nat

/-!
# Regions as sets of pages

What the memory manager is for: a region lives as long as one of its pages has not been freed
since the allocation.  The manager keeps a count of bytes instead of the pages.  The two agree as
long as no call frees a page again, or frees pages beyond the region it starts in.
-/

set_option autoImplicit false

namespace Conclave.Memory

open Conclave.Lib

/-! ## The pages -/

/-- A region by the pages of it that no call has freed. -/
structure MappedRegion where
  size : Nat
  mapped : Finset Nat
  deriving DecidableEq

/-- The numbers of the pages in `[p, p + size)`. -/
def pages (p size : Nat) : Finset Nat := Finset.Ico (p / page_size) ((p + size) / page_size)

/-- The bytes of the pages that an allocation needs. -/
def wholePages (size : Nat) : Nat := (size + page_size - 1) / page_size * page_size

/-- The regions that have a page left, by their first address. -/
abbrev PageModel : Type := Nat → Option MappedRegion

namespace PageModel

def empty : PageModel := fun _ => none

def alloc (model : PageModel) (ret size : Nat) : PageModel :=
  Function.update model ret (some ⟨wholePages size, pages ret (wholePages size)⟩)

def unmap (freed : Finset Nat) (region : MappedRegion) : Option MappedRegion :=
  if region.mapped \ freed = ∅ then none
  else some { region with mapped := region.mapped \ freed }

def free (model : PageModel) (p size : Nat) : PageModel := fun base =>
  (model base).bind (unmap (pages p size))

end PageModel

/-! ## Runs of the two side by side -/

inductive Call where
  | alloc (size : UInt64) (memory : Memalign)
  | free (p size : UInt64)
  deriving DecidableEq

/-- The manager, and the pages as the calls of the run have left them. -/
structure State where
  regions_ : Regions
  model : PageModel

namespace State

def new : State := ⟨.empty, .empty⟩

def call (state : State) : Call → State
  | .alloc size memory =>
      { regions_ := (MemoryManager.alloc state.regions_ size.toNat 0 memory).regions_
        model := if size.toNat = 0 then state.model else
          match memory with
          | .block ret => state.model.alloc ret size.toNat
          | _ => state.model }
  | .free p size =>
      { regions_ := (MemoryManager.free state.regions_ p.toNat size.toNat).regions_
        model := state.model.free p.toNat size.toNat }

end State

def step (state : State) (call : Call) : Option State := some (state.call call)

/-- Frees are of whole pages.  A block that `memalign` gives is aligned, ends below the top of the
address space and lies apart from the blocks that have not been given back. -/
def Allowed (state : State) : Call → Prop
  | .alloc size (.block ret) =>
      MemoryManager.Placed ret (MemoryManager.allocation_size size.toNat) ∧
        ∀ entry ∈ state.regions_.entries,
          ret + MemoryManager.allocation_size size.toNat ≤ entry.1 ∨
            entry.1 + entry.2.initial_size_ ≤ ret
  | .alloc _ _ => True
  | .free p size => page_size ∣ p.toNat ∧ page_size ∣ size.toNat ∧ 0 < size.toNat

/-- The pages of a free are all still mapped in one region, or none of them is and the manager
leaves its counts alone.  The size of a new region does not wrap around. -/
def FreesOnce (state : State) : Call → Prop
  | .alloc size (.block _) => size.toNat + page_size ≤ 2 ^ 64
  | .alloc _ _ => True
  | .free p size =>
      (∃ base region, state.model base = some region ∧ pages p.toNat size.toNat ⊆ region.mapped) ∨
        (∀ base region, state.model base = some region →
          Disjoint region.mapped (pages p.toNat size.toNat)) ∧
        ∀ it, ¬MemoryManager.Uncommits state.regions_ p.toNat size.toNat it

/-! ## The counts follow the pages -/

section Pages

variable {p size base extent : Nat}

theorem card_pages (aligned : page_size ∣ p) (whole : page_size ∣ size) :
    page_size * (pages p size).card = size := by
  obtain ⟨first, rfl⟩ := aligned
  obtain ⟨count, rfl⟩ := whole
  have positive : 0 < page_size := by decide
  rw [pages, Nat.card_Ico, ← Nat.mul_add, Nat.mul_div_cancel_left _ positive,
    Nat.mul_div_cancel_left _ positive, Nat.add_sub_cancel_left]

/-- A range whose pages belong to another range lies inside it. -/
theorem range_of_pages_subset (aligned : page_size ∣ p) (whole : page_size ∣ size)
    (baseAligned : page_size ∣ base) (extentWhole : page_size ∣ extent) (positive : 0 < size)
    (subset : pages p size ⊆ pages base extent) : base ≤ p ∧ p + size ≤ base + extent := by
  obtain ⟨first, rfl⟩ := aligned
  obtain ⟨count, rfl⟩ := whole
  obtain ⟨start, rfl⟩ := baseAligned
  obtain ⟨number, rfl⟩ := extentWhole
  have page : 0 < page_size := by decide
  have one : 0 < count := Nat.pos_of_mul_pos_left positive
  simp only [pages, ← Nat.mul_add, Nat.mul_div_cancel_left _ page] at subset
  obtain ⟨low, high⟩ := (Finset.Ico_subset_Ico_iff (by omega)).mp subset
  refine ⟨Nat.mul_le_mul_left page_size low, ?_⟩
  rw [← Nat.mul_add, ← Nat.mul_add]
  exact Nat.mul_le_mul_left page_size high

end Pages

def MemoryRegion.counts (region : MemoryRegion) : Nat × Nat :=
  (region.initial_size_, region.committed_)

def MappedRegion.counts (region : MappedRegion) : Nat × Nat :=
  (region.size, page_size * region.mapped.card)

/-- The same regions, each with the bytes of its mapped pages committed. -/
structure Tracks (state : State) : Prop where
  sound : MemoryManager.Sound state.regions_
  counts : ∀ base, (state.regions_.lookup base).map MemoryRegion.counts =
    (state.model base).map MappedRegion.counts
  inside : ∀ base region, state.model base = some region →
    region.mapped ⊆ pages base region.size
  some_page : ∀ base region, state.model base = some region → region.mapped.Nonempty

section Steps

variable {state : State}

theorem Tracks.entry_of_model (tracks : Tracks state) {base : Nat} {region : MappedRegion}
    (found : state.model base = some region) :
    ∃ entry, (base, entry) ∈ state.regions_.entries ∧ entry.counts = region.counts := by
  have same := tracks.counts base
  rw [found] at same
  obtain ⟨entry, looked, equal⟩ := Option.map_eq_some_iff.mp same
  exact ⟨entry, OrderedMap.lookup_eq_some.mp looked, equal⟩

theorem Tracks.model_of_entry (tracks : Tracks state) {it : Nat × MemoryRegion}
    (member : it ∈ state.regions_.entries) :
    ∃ region, state.model it.1 = some region ∧ region.counts = it.2.counts := by
  have same := tracks.counts it.1
  rw [OrderedMap.lookup_eq_some.mpr member] at same
  exact Option.map_eq_some_iff.mp same.symm

theorem Tracks.disjoint (tracks : Tracks state) {first second : Nat}
    {firstRegion secondRegion : MappedRegion} (firstFound : state.model first = some firstRegion)
    (secondFound : state.model second = some secondRegion) (different : first ≠ second) :
    Disjoint firstRegion.mapped secondRegion.mapped := by
  wlog ordered : first < second generalizing first second firstRegion secondRegion
  · have later : second < first := by omega
    exact (this secondFound firstFound (Ne.symm different) later).symm
  obtain ⟨firstEntry, firstMember, firstCounts⟩ := tracks.entry_of_model firstFound
  obtain ⟨secondEntry, secondMember, -⟩ := tracks.entry_of_model secondFound
  have ends := tracks.sound.apart _ firstMember _ secondMember ordered
  have size : firstEntry.initial_size_ = firstRegion.size := congrArg Prod.fst firstCounts
  dsimp only at ends
  rw [size] at ends
  apply Finset.disjoint_left.mpr
  intro page inFirst inSecond
  have below := (Finset.mem_Ico.mp (tracks.inside first firstRegion firstFound inFirst)).2
  have above := (Finset.mem_Ico.mp (tracks.inside second secondRegion secondFound inSecond)).1
  have := Nat.div_le_div_right (c := page_size) ends
  omega

theorem PageModel.unmap_of_disjoint {region : MappedRegion} {freed : Finset Nat}
    (disjoint : Disjoint region.mapped freed) (some_page : region.mapped.Nonempty) :
    unmap freed region = some region := by
  rw [unmap, Finset.sdiff_eq_self_of_disjoint disjoint, if_neg some_page.ne_empty]

theorem PageModel.counts_unmap {region : MappedRegion} {freed : Finset Nat}
    (subset : freed ⊆ region.mapped) :
    (unmap freed region).map MappedRegion.counts =
      if region.mapped.card = freed.card then none
      else some (region.size, page_size * region.mapped.card - page_size * freed.card) := by
  have card : (region.mapped \ freed).card = region.mapped.card - freed.card :=
    Finset.card_sdiff_of_subset subset
  have le : freed.card ≤ region.mapped.card := Finset.card_le_card subset
  by_cases gone : region.mapped \ freed = ∅
  · have zero := Finset.card_eq_zero.mpr gone
    rw [unmap, if_pos gone, if_pos (by omega)]
    rfl
  · have positive : (region.mapped \ freed).card ≠ 0 :=
      fun zero => gone (Finset.card_eq_zero.mp zero)
    rw [unmap, if_neg gone, if_neg (by omega), ← Nat.mul_sub, ← card]
    rfl

theorem PageModel.unmap_eq_some {region left : MappedRegion} {freed : Finset Nat}
    (unmapped : unmap freed region = some left) :
    left.size = region.size ∧ left.mapped ⊆ region.mapped ∧ left.mapped.Nonempty := by
  rw [unmap] at unmapped
  split at unmapped
  · cases unmapped
  · rename_i remaining
    cases unmapped
    exact ⟨rfl, Finset.sdiff_subset, Finset.nonempty_iff_ne_empty.mpr remaining⟩

theorem Tracks.free (tracks : Tracks state) {p size : UInt64}
    (counts : ∀ base,
      ((state.call (.free p size)).regions_.lookup base).map MemoryRegion.counts =
        ((state.call (.free p size)).model base).map MappedRegion.counts) :
    Tracks (state.call (.free p size)) where
  sound := tracks.sound.free p.toNat size.toNat
  counts := counts
  inside base left found := by
    obtain ⟨region, was, unmapped⟩ := Option.bind_eq_some_iff.mp found
    obtain ⟨same, subset, -⟩ := PageModel.unmap_eq_some unmapped
    rw [same]
    exact subset.trans (tracks.inside base region was)
  some_page base left found := by
    obtain ⟨region, -, unmapped⟩ := Option.bind_eq_some_iff.mp found
    exact (PageModel.unmap_eq_some unmapped).2.2

theorem Tracks.free_mapped (tracks : Tracks state) {p size : UInt64}
    (allowed : Allowed state (.free p size)) {base : Nat} {region : MappedRegion}
    (found : state.model base = some region)
    (subset : pages p.toNat size.toNat ⊆ region.mapped) : Tracks (state.call (.free p size)) := by
  obtain ⟨aligned, whole, positive⟩ := allowed
  obtain ⟨entry, member, counts⟩ := tracks.entry_of_model found
  have initial : entry.initial_size_ = region.size := congrArg Prod.fst counts
  have committed : entry.committed_ = page_size * region.mapped.card := congrArg Prod.snd counts
  have placed := tracks.sound.placed _ member
  have bytes := card_pages aligned whole
  obtain ⟨above, below⟩ := range_of_pages_subset aligned whole placed.base_aligned
    placed.size_aligned positive (initial ▸ subset.trans (tracks.inside base region found))
  have enough : size.toNat ≤ entry.committed_ := by
    rw [committed, ← bytes]
    exact Nat.mul_le_mul_left _ (Finset.card_le_card subset)
  have uncommits := tracks.sound.uncommits member above below positive enough
  apply tracks.free
  intro other
  change ((MemoryManager.free state.regions_ p.toNat size.toNat).regions_.lookup other).map _ =
    ((state.model other).bind (PageModel.unmap (pages p.toNat size.toNat))).map _
  rw [MemoryManager.free_of_uncommits aligned uncommits]
  by_cases here : other = base
  · subst here
    have full : entry.committed_ = size.toNat ↔
        region.mapped.card = (pages p.toNat size.toNat).card := by
      have page : 0 < page_size := by decide
      rw [committed]
      constructor
      · intro equal
        exact Nat.eq_of_mul_eq_mul_left page (equal.trans bytes.symm)
      · intro equal
        rw [equal, bytes]
    rw [found, Option.bind_some, PageModel.counts_unmap subset, bytes, ← committed, ← initial]
    by_cases all : entry.committed_ = size.toNat
    · rw [if_pos all, if_pos (full.mp all), OrderedMap.lookup_erase, if_pos rfl]
      rfl
    · rw [if_neg all, if_neg fun equal => all (full.mpr equal), OrderedMap.lookup_insert,
        if_pos rfl]
      rfl
  · have same : (state.model other).bind (PageModel.unmap (pages p.toNat size.toNat)) =
        state.model other := by
      cases elsewhere : state.model other with
      | none => rfl
      | some remaining =>
          have disjoint := tracks.disjoint elsewhere found here
          exact PageModel.unmap_of_disjoint (disjoint.mono_right subset)
            (tracks.some_page other remaining elsewhere)
    rw [same, ← tracks.counts other]
    split
    · rw [OrderedMap.lookup_erase, if_neg here]
    · rw [OrderedMap.lookup_insert, if_neg here]

theorem Tracks.free_unmapped (tracks : Tracks state) {p size : UInt64}
    (disjoint : ∀ base region, state.model base = some region →
      Disjoint region.mapped (pages p.toNat size.toNat))
    (kept : ∀ it, ¬MemoryManager.Uncommits state.regions_ p.toNat size.toNat it) :
    Tracks (state.call (.free p size)) := by
  apply tracks.free
  intro base
  change ((MemoryManager.free state.regions_ p.toNat size.toNat).regions_.lookup base).map _ =
    ((state.model base).bind (PageModel.unmap (pages p.toNat size.toNat))).map _
  rw [MemoryManager.free_of_not_uncommits kept, tracks.counts base]
  cases found : state.model base with
  | none => rfl
  | some region =>
      rw [Option.bind_some, PageModel.unmap_of_disjoint (disjoint base region found)
        (tracks.some_page base region found)]

theorem allocation_size_eq {size : Nat} (small : size + page_size ≤ 2 ^ 64) :
    MemoryManager.allocation_size size = wholePages size := by
  have page : page_size = 4096 := rfl
  have wrapped : wrap64 (size + page_size - 1) = size + page_size - 1 :=
    wrap64_of_lt (by omega)
  rw [MemoryManager.allocation_size, wrapped, wholePages]
  apply wrap64_of_lt
  have := Nat.div_mul_le_self (size + page_size - 1) page_size
  omega

theorem Tracks.alloc (tracks : Tracks state) {size : UInt64} {memory : Memalign}
    (allowed : Allowed state (.alloc size memory)) (once : FreesOnce state (.alloc size memory)) :
    Tracks (state.call (.alloc size memory)) := by
  by_cases zero : size.toNat = 0
  · have same : state.call (.alloc size memory) = state := by
      simp [State.call, MemoryManager.alloc, zero]
    rw [same]
    exact tracks
  cases memory with
  | null =>
      have same : state.call (.alloc size .null) = state := by
        simp [State.call, MemoryManager.alloc, zero]
      rw [same]
      exact tracks
  | exception =>
      have same : state.call (.alloc size .exception) = state := by
        simp [State.call, MemoryManager.alloc, zero]
      rw [same]
      exact tracks
  | block ret =>
      obtain ⟨placed, apart⟩ := allowed
      have whole := allocation_size_eq once
      rw [whole] at placed apart
      have regions : (state.call (.alloc size (.block ret))).regions_ =
          state.regions_.insert ret (.new (wholePages size.toNat)) := by
        simp [State.call, MemoryManager.alloc, zero, whole]
      have model : (state.call (.alloc size (.block ret))).model =
          state.model.alloc ret size.toNat := by
        simp [State.call, zero]
      have bytes := card_pages placed.base_aligned placed.size_aligned
      have positive : 0 < wholePages size.toNat := by
        have page : page_size = 4096 := rfl
        rw [wholePages, page]
        omega
      refine ⟨?_, ?_, ?_, ?_⟩
      · rw [regions]
        exact tracks.sound.insert placed le_rfl fun entry member _ => apart entry member
      · intro base
        rw [regions, model, OrderedMap.lookup_insert, PageModel.alloc, Function.update_apply]
        split
        · simp [MemoryRegion.counts, MappedRegion.counts, MemoryRegion.new, bytes]
        · exact tracks.counts base
      · intro base region found
        rw [model, PageModel.alloc, Function.update_apply] at found
        split at found
        · rename_i here
          cases found
          rw [here]
        · exact tracks.inside base region found
      · intro base region found
        rw [model, PageModel.alloc, Function.update_apply] at found
        split at found
        · cases found
          apply Finset.card_pos.mp
          exact Nat.pos_of_mul_pos_left (bytes ▸ positive)
        · exact tracks.some_page base region found

theorem Tracks.call (tracks : Tracks state) {call : Call} (allowed : Allowed state call)
    (once : FreesOnce state call) : Tracks (state.call call) := by
  cases call with
  | alloc size memory => exact tracks.alloc allowed once
  | free p size =>
      rcases once with ⟨base, region, found, subset⟩ | ⟨disjoint, kept⟩
      · exact tracks.free_mapped allowed found subset
      · exact tracks.free_unmapped disjoint kept

/-- The rounded size of a region that is entered with no bytes would have wrapped around. -/
theorem Tracks.freesOnce_alloc {size : UInt64} {ret : Nat}
    (after : Tracks (state.call (.alloc size (.block ret)))) : size.toNat + page_size ≤ 2 ^ 64 := by
  by_contra large
  have page : page_size = 4096 := rfl
  have bounded := size.toNat_lt
  have wrapped : MemoryManager.allocation_size size.toNat = 0 := by
    have small : wrap64 (size.toNat + page_size - 1) / page_size = 0 := by
      rw [wrap64, page]
      omega
    rw [MemoryManager.allocation_size, small, Nat.zero_mul]
    rfl
  have positive : size.toNat ≠ 0 := by omega
  have counts := after.counts ret
  have rounded : wholePages size.toNat = 2 ^ 64 := by
    rw [wholePages, page]
    omega
  simp [State.call, MemoryManager.alloc, positive, wrapped, OrderedMap.lookup_insert,
    PageModel.alloc, MemoryRegion.counts, MappedRegion.counts, MemoryRegion.new,
    rounded] at counts

section Free

variable {p size : UInt64} (allowed : Allowed state (.free p size))
  (after : Tracks (state.call (.free p size)))

include after

theorem Tracks.counts_free (base : Nat) :
    ((MemoryManager.free state.regions_ p.toNat size.toNat).regions_.lookup base).map
        MemoryRegion.counts =
      ((state.model base).bind (PageModel.unmap (pages p.toNat size.toNat))).map
        MappedRegion.counts :=
  after.counts base

include allowed in
/-- As many pages as the region has lost have been counted off. -/
theorem Tracks.freesOnce_uncommits (tracks : Tracks state) {it : Nat × MemoryRegion}
    (uncommits : MemoryManager.Uncommits state.regions_ p.toNat size.toNat it) :
    ∃ region, state.model it.1 = some region ∧ pages p.toNat size.toNat ⊆ region.mapped := by
  obtain ⟨aligned, whole, positive⟩ := allowed
  have bytes := card_pages aligned whole
  obtain ⟨region, found, same⟩ :=
    tracks.model_of_entry (MemoryManager.nearest_spec uncommits.1).1
  have committed : page_size * region.mapped.card = it.2.committed_ := congrArg Prod.snd same
  have enough := uncommits.2.2
  have here := after.counts_free it.1
  rw [MemoryManager.free_of_uncommits aligned uncommits, found, Option.bind_some] at here
  refine ⟨region, found, ?_⟩
  have left : page_size * (region.mapped \ pages p.toNat size.toNat).card =
      it.2.committed_ - size.toNat := by
    by_cases all : it.2.committed_ = size.toNat
    · rw [if_pos all, OrderedMap.lookup_erase, if_pos rfl] at here
      have gone := Option.map_eq_none_iff.mp here.symm
      have empty : region.mapped \ pages p.toNat size.toNat = ∅ := by
        by_contra remaining
        rw [PageModel.unmap, if_neg remaining] at gone
        cases gone
      rw [empty, all, Nat.sub_self]
      rfl
    · rw [if_neg all, OrderedMap.lookup_insert, if_pos rfl] at here
      obtain ⟨remaining, unmapped, remainingCounts⟩ := Option.map_eq_some_iff.mp here.symm
      rw [PageModel.unmap] at unmapped
      split at unmapped
      · cases unmapped
      · cases unmapped
        exact congrArg Prod.snd remainingCounts
  have split := Finset.card_sdiff_add_card_inter region.mapped (pages p.toNat size.toNat)
  have within : (region.mapped ∩ pages p.toNat size.toNat).card =
      (pages p.toNat size.toNat).card := by
    have page : 0 < page_size := by decide
    apply Nat.eq_of_mul_eq_mul_left page
    have total := congrArg (page_size * ·) split
    simp only [Nat.mul_add] at total
    omega
  exact Finset.inter_eq_right.mp
    (Finset.eq_of_subset_of_card_le Finset.inter_subset_right within.ge)

theorem Tracks.freesOnce_kept (tracks : Tracks state)
    (kept : ∀ it, ¬MemoryManager.Uncommits state.regions_ p.toNat size.toNat it) {base : Nat}
    {region : MappedRegion} (found : state.model base = some region) :
    Disjoint region.mapped (pages p.toNat size.toNat) := by
  have here := after.counts_free base
  rw [MemoryManager.free_of_not_uncommits kept, tracks.counts base, found,
    Option.bind_some, PageModel.unmap] at here
  split at here
  · cases here
  · have card := Nat.eq_of_mul_eq_mul_left (by decide)
      (congrArg Prod.snd (Option.some.inj here))
    exact Finset.sdiff_eq_self_iff_disjoint.mp
      (Finset.eq_of_subset_of_card_le Finset.sdiff_subset card.le)

end Free

/-- The counts stay right only over the calls that free each page once. -/
theorem Tracks.freesOnce (tracks : Tracks state) {call : Call} (allowed : Allowed state call)
    (after : Tracks (state.call call)) : FreesOnce state call := by
  cases call with
  | alloc size memory =>
      cases memory with
      | null => trivial
      | exception => trivial
      | block ret => exact after.freesOnce_alloc
  | free p size =>
      by_cases uncommitted : ∃ it, MemoryManager.Uncommits state.regions_ p.toNat size.toNat it
      · obtain ⟨it, uncommits⟩ := uncommitted
        exact Or.inl ⟨it.1, after.freesOnce_uncommits allowed tracks uncommits⟩
      · have kept : ∀ it, ¬MemoryManager.Uncommits state.regions_ p.toNat size.toNat it :=
          fun it uncommits => uncommitted ⟨it, uncommits⟩
        exact Or.inr ⟨fun base region found => after.freesOnce_kept tracks kept found, kept⟩

end Steps

/-! ## Runs -/

theorem Tracks.new : Tracks State.new where
  sound := .empty
  counts _ := rfl
  inside _ _ found := by cases found
  some_page _ _ found := by cases found

theorem tracks_of_run {calls : List Call} {final : State}
    (allowed : Meets step Allowed .new calls) (once : Meets step FreesOnce .new calls)
    (ran : run step .new calls = some final) : Tracks final := by
  refine run_invariant_of_meets ?_ Tracks.new (allowed.and once) ran
  intro state call next tracks condition stepped
  cases stepped
  exact tracks.call condition.1 condition.2

/-- The manager has a region exactly as long as a page of it has not been freed. -/
theorem regions_have_pages_left {calls : List Call} {final : State}
    (allowed : Meets step Allowed .new calls) (once : Meets step FreesOnce .new calls)
    (ran : run step .new calls = some final) (base : Nat) :
    (final.regions_.lookup base).map MemoryRegion.initial_size_ =
      (final.model base).map MappedRegion.size := by
  have counts := congrArg (Option.map Prod.fst) ((tracks_of_run allowed once ran).counts base)
  rw [Option.map_map, Option.map_map] at counts
  exact counts

def twoPages : List Call := [.alloc 5000 (.block 65536), .free 69632 4096]

theorem allowed_twoPages : Meets step Allowed .new twoPages :=
  .cons ⟨⟨by decide, by decide, by decide⟩, by decide⟩ rfl
    (.cons ⟨by decide, by decide, by decide⟩ rfl trivial)

theorem regions_have_pages_left_twoPages :
    ∃ final, run step .new twoPages = some final ∧
      (final.regions_.lookup 65536).map MemoryRegion.initial_size_ =
        (final.model 65536).map MappedRegion.size := by
  refine ⟨_, rfl, regions_have_pages_left allowed_twoPages ?_ rfl 65536⟩
  refine .cons ?_ rfl (.cons ?_ rfl trivial)
  · change (5000 : UInt64).toNat + page_size ≤ 2 ^ 64
    decide
  · exact Or.inl ⟨65536, _, rfl, by decide⟩

/-- The first page is freed twice, and the region is given back with its second page in use. -/
theorem region_released_with_mapped_page :
    ¬∀ (calls : List Call) (final : State), Meets step Allowed .new calls →
      run step .new calls = some final → ∀ base,
        (final.regions_.lookup base).map MemoryRegion.initial_size_ =
          (final.model base).map MappedRegion.size := by
  intro holds
  have same := holds [.alloc 5000 (.block 65536), .free 65536 4096, .free 65536 4096] _
    (.cons ⟨⟨by decide, by decide, by decide⟩, by decide⟩ rfl
      (.cons ⟨by decide, by decide, by decide⟩ rfl
        (.cons ⟨by decide, by decide, by decide⟩ rfl trivial))) rfl 65536
  revert same
  decide

end Conclave.Memory
