import Mathlib.Data.List.Nodup
import Mathlib.Data.List.Range

/-!
# Tables of two levels

A table lists the numbers below its length in some order.  Two tables permute the
numbers below the product of their lengths: the first moves whole buckets, the
second moves the numbers of a bucket.
-/

set_option autoImplicit false

namespace Conclave.Lib

def IsTable (table : List Nat) : Prop := table.Perm (List.range table.length)

theorem IsTable.of_perm {table : List Nat} {size : Nat} (perm : table.Perm (List.range size)) :
    IsTable table ∧ table.length = size := by
  have length : table.length = size := by
    rw [perm.length_eq, List.length_range]
  refine ⟨?_, length⟩
  rw [IsTable, length]
  exact perm

theorem IsTable.lt {table : List Nat} (isTable : IsTable table) {index value : Nat}
    (found : table[index]? = some value) : value < table.length := by
  have member : value ∈ table := List.mem_of_getElem? found
  exact List.mem_range.mp (isTable.mem_iff.mp member)

theorem IsTable.injective {table : List Nat} (isTable : IsTable table) {first second value : Nat}
    (foundFirst : table[first]? = some value) (foundSecond : table[second]? = some value) :
    first = second := by
  have distinct : table.Nodup := isTable.nodup_iff.mpr List.nodup_range
  obtain ⟨firstBound, firstValue⟩ := List.getElem?_eq_some_iff.mp foundFirst
  obtain ⟨secondBound, secondValue⟩ := List.getElem?_eq_some_iff.mp foundSecond
  apply (List.Nodup.getElem_inj_iff distinct).mp
  rw [firstValue, secondValue]

def twoLevel (buckets offsets : List Nat) (index : Nat) : Option Nat := do
  let bucket ← buckets[index / offsets.length]?
  let offset ← offsets[index % offsets.length]?
  return bucket * offsets.length + offset

theorem twoLevel_eq_some {buckets offsets : List Nat} {index value : Nat}
    (found : twoLevel buckets offsets index = some value) :
    ∃ bucket offset, buckets[index / offsets.length]? = some bucket ∧
      offsets[index % offsets.length]? = some offset ∧
      value = bucket * offsets.length + offset := by
  obtain ⟨bucket, bucketFound, found⟩ := Option.bind_eq_some_iff.mp found
  obtain ⟨offset, offsetFound, found⟩ := Option.bind_eq_some_iff.mp found
  cases found
  exact ⟨bucket, offset, bucketFound, offsetFound, rfl⟩

theorem twoLevel_isSome {buckets offsets : List Nat} (nonempty : 0 < offsets.length) (index : Nat) :
    (∃ value, twoLevel buckets offsets index = some value) ↔
      index < buckets.length * offsets.length := by
  have bucketBound : index / offsets.length < buckets.length ↔
      index < buckets.length * offsets.length := Nat.div_lt_iff_lt_mul nonempty
  constructor
  · rintro ⟨value, found⟩
    obtain ⟨bucket, offset, bucketFound, -, -⟩ := twoLevel_eq_some found
    obtain ⟨bound, -⟩ := List.getElem?_eq_some_iff.mp bucketFound
    exact bucketBound.mp bound
  · intro inside
    have offsetBound : index % offsets.length < offsets.length := Nat.mod_lt _ nonempty
    have bucketFound := List.getElem?_eq_getElem (bucketBound.mpr inside)
    have offsetFound := List.getElem?_eq_getElem offsetBound
    rw [twoLevel, bucketFound, offsetFound]
    exact ⟨_, rfl⟩

theorem twoLevel_lt {buckets offsets : List Nat} (bucketTable : IsTable buckets)
    (offsetTable : IsTable offsets) {index value : Nat}
    (found : twoLevel buckets offsets index = some value) :
    value < buckets.length * offsets.length := by
  obtain ⟨bucket, offset, bucketFound, offsetFound, rfl⟩ := twoLevel_eq_some found
  have bucketBound := bucketTable.lt bucketFound
  have offsetBound := offsetTable.lt offsetFound
  calc bucket * offsets.length + offset
      < bucket * offsets.length + offsets.length := by omega
    _ = (bucket + 1) * offsets.length := (Nat.succ_mul bucket _).symm
    _ ≤ buckets.length * offsets.length := Nat.mul_le_mul_right _ bucketBound

/-- No two numbers are moved to one place. -/
theorem twoLevel_injective {buckets offsets : List Nat} (bucketTable : IsTable buckets)
    (offsetTable : IsTable offsets) {first second value : Nat}
    (foundFirst : twoLevel buckets offsets first = some value)
    (foundSecond : twoLevel buckets offsets second = some value) : first = second := by
  obtain ⟨bucket, offset, bucketFound, offsetFound, place⟩ := twoLevel_eq_some foundFirst
  obtain ⟨bucket', offset', bucketFound', offsetFound', place'⟩ := twoLevel_eq_some foundSecond
  have offsetBound := offsetTable.lt offsetFound
  have offsetBound' := offsetTable.lt offsetFound'
  have sameOffset : offset = offset' := by
    have := congrArg (· % offsets.length) (place.symm.trans place')
    simpa [Nat.add_mod, Nat.mod_eq_of_lt offsetBound, Nat.mod_eq_of_lt offsetBound'] using this
  have sameBucket : bucket = bucket' := by
    have equal : bucket * offsets.length = bucket' * offsets.length := by omega
    exact Nat.eq_of_mul_eq_mul_right (by omega) equal
  subst sameOffset sameBucket
  have sameDiv := bucketTable.injective bucketFound bucketFound'
  have sameMod := offsetTable.injective offsetFound offsetFound'
  rw [← Nat.div_add_mod first offsets.length, ← Nat.div_add_mod second offsets.length, sameDiv,
    sameMod]

end Conclave.Lib
