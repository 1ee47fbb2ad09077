import ConclaveFormal.Filesystem.HandleTables
import Mathlib.Algebra.Ring.Int.Defs

/-!
# The next free handle

`getNewHandle` goes round the range of handles from where it last stopped, at most once.  It finds
a free handle wherever the scan starts, and gives up only when it has seen that all are in use.
-/

set_option autoImplicit false

namespace Conclave.Filesystem.FileManager

open Conclave.Lib

variable {manager : FileManager} {range : HandleRange}

/-- The handles that a scan passes in so many steps, going on from the last one to the first. -/
def Passed (range : HandleRange) (next_handle_ : Int) (steps : Nat) (handle : Int) : Prop :=
  InRange range handle ∧
    (next_handle_ ≤ handle ∧ handle < next_handle_ + steps ∨
      handle < next_handle_ ∧
        handle + (range.last_handle_ - range.first_handle_ + 1) < next_handle_ + steps)

theorem passed_succ {next_handle_ : Int} {steps : Nat} (inside : InRange range next_handle_)
    (once : (steps : Int) + 1 ≤ range.last_handle_ - range.first_handle_ + 1) (handle : Int) :
    Passed range next_handle_ (steps + 1) handle ↔
      handle = next_handle_ ∨
        Passed range (if next_handle_ = range.last_handle_ then range.first_handle_
          else next_handle_ + 1) steps handle := by
  unfold Passed InRange at *
  push_cast
  split <;> omega

theorem passed_numHandles {next_handle_ : Int} (inside : InRange range next_handle_)
    (handle : Int) : Passed range next_handle_ (numHandles range) handle ↔
      InRange range handle := by
  have ordered := range.ordered
  unfold Passed InRange numHandles at *
  omega

theorem scanHandles_eq_zero (files_ : AssocMap FileHandle FIL) {steps : Nat} {next_handle_ : Int}
    (inside : InRange range next_handle_)
    (once : (steps : Int) ≤ range.last_handle_ - range.first_handle_ + 1) :
    (scanHandles files_ range steps next_handle_).1 = 0 ↔
      ∀ handle, Passed range next_handle_ steps handle → (files_.lookup handle).isSome := by
  induction steps generalizing next_handle_ with
  | zero =>
      refine iff_of_true rfl ?_
      intro handle passed
      unfold Passed InRange at *
      omega
  | succ steps ih =>
      have further : InRange range (if next_handle_ = range.last_handle_ then range.first_handle_
          else next_handle_ + 1) := by
        have ordered := range.ordered
        unfold InRange at *
        split <;> omega
      simp only [passed_succ inside once, forall_eq_or_imp]
      rw [scanHandles]
      by_cases used : (files_.lookup next_handle_).isSome
      · rw [if_pos used, and_iff_right used]
        apply ih further
        omega
      · rw [if_neg used]
        exact iff_of_false (Nat.succ_ne_zero steps) fun all => used all.1

def Free (manager : FileManager) (handle : Int) : Prop :=
  InRange manager.range handle ∧ manager.files_.lookup handle = none

/-- A handle is given out if one is free, else `-1`, and the next scan starts in the range or right
behind it. -/
structure Allocates (manager : FileManager) : Prop where
  free : (∃ handle, Free manager handle) → Free manager manager.getNewHandle.1
  exhausted : manager.getNewHandle.1 = -1 ↔
    ∀ handle, InRange manager.range handle → (manager.files_.lookup handle).isSome
  cursor : manager.range.first_handle_ ≤ manager.getNewHandle.2.next_handle_ ∧
    manager.getNewHandle.2.next_handle_ ≤ manager.range.last_handle_ + 1

/-- Where the scan starts. -/
theorem Consistent.start (consistent : Consistent manager) :
    InRange manager.range (if manager.next_handle_ = manager.range.last_handle_ + 1 then
      manager.range.first_handle_ else manager.next_handle_) := by
  have ordered := manager.range.ordered
  have cursor := consistent.next_handle
  unfold InRange
  split <;> omega

theorem Consistent.getNewHandle_eq_error (consistent : Consistent manager)
    (error : ¬InRange manager.range (-1)) :
    manager.getNewHandle.1 = -1 ↔
      ∀ handle, InRange manager.range handle → (manager.files_.lookup handle).isSome := by
  have inside := consistent.start
  have once : (numHandles manager.range : Int) ≤
      manager.range.last_handle_ - manager.range.first_handle_ + 1 := by
    have ordered := manager.range.ordered
    unfold numHandles
    omega
  have full := scanHandles_eq_zero manager.files_ inside once
  simp only [passed_numHandles inside] at full
  obtain ⟨found, -⟩ := scanHandles_spec manager.files_ manager.range
    (numHandles manager.range) inside
  rw [← full, FileManager.getNewHandle]
  generalize scanHandles manager.files_ manager.range (numHandles manager.range) _ = scanned
    at found ⊢
  obtain ⟨left, handle⟩ := scanned
  by_cases stopped : left = 0
  · simp [stopped]
  · have granted : handle ≠ -1 := fun negative => error (negative ▸ found)
    simp [stopped, granted]

theorem Consistent.allocates (consistent : Consistent manager)
    (error : ¬InRange manager.range (-1)) : Allocates manager := by
  have exhausted := consistent.getNewHandle_eq_error error
  obtain ⟨handle, next, allocated, cursor, valid⟩ := consistent.getNewHandle
  refine ⟨?_, exhausted, ?_⟩
  · rintro ⟨other, inside, unused⟩
    have granted : manager.getNewHandle.1 ≠ -1 := by
      intro refused
      have used := exhausted.mp refused other inside
      rw [unused] at used
      cases used
    rw [allocated] at granted ⊢
    exact valid granted
  · rw [allocated]
    exact cursor

/-! ## In the integers of the source -/

/-- A value computed in an `int`; there is none if it overflows. -/
def int (value : Int) : Option Int :=
  if -2 ^ 31 ≤ value ∧ value < 2 ^ 31 then some value else none

/-- The loop of `getNewHandle` in `int`. -/
def scanHandlesInt (files_ : AssocMap FileHandle FIL) (range : HandleRange) :
    Nat → Int → Option (Nat × Int)
  | 0, next_handle_ => some (0, next_handle_)
  | left + 1, next_handle_ =>
      if (files_.lookup next_handle_).isSome then
        (if next_handle_ = range.last_handle_ then some range.first_handle_
          else int (next_handle_ + 1)).bind (scanHandlesInt files_ range left)
      else some (left + 1, next_handle_)

/-- `getNewHandle` in `int`. -/
def getNewHandleInt (manager : FileManager) : Option (Int × FileManager) := do
  let behind ← int (manager.range.last_handle_ + 1)
  let start := if manager.next_handle_ = behind then manager.range.first_handle_
    else manager.next_handle_
  let distance ← int (manager.range.last_handle_ - manager.range.first_handle_)
  let num_handles ← int (distance + 1)
  let scanned ← scanHandlesInt manager.files_ manager.range num_handles.toNat start
  if scanned.1 = 0 then some (-1, { manager with next_handle_ := scanned.2 })
  else
    let next_handle_ ← int (scanned.2 + 1)
    some (scanned.2, { manager with next_handle_ := next_handle_ })

/-- The handle behind the last one and the number of handles are values of `int`. -/
structure FitsInt (range : HandleRange) : Prop where
  first : -2 ^ 31 ≤ range.first_handle_
  behind : range.last_handle_ + 1 < 2 ^ 31
  count : range.last_handle_ - range.first_handle_ + 1 < 2 ^ 31

theorem int_eq_some {value : Int} (lower : -2 ^ 31 ≤ value) (upper : value < 2 ^ 31) :
    int value = some value :=
  if_pos ⟨lower, upper⟩

theorem scanHandlesInt_eq (fits : FitsInt range) (files_ : AssocMap FileHandle FIL) {left : Nat}
    {next_handle_ : Int} (inside : InRange range next_handle_) :
    scanHandlesInt files_ range left next_handle_ =
      some (scanHandles files_ range left next_handle_) := by
  obtain ⟨first, behind, -⟩ := fits
  induction left generalizing next_handle_ with
  | zero => rfl
  | succ left ih =>
      obtain ⟨lower, upper⟩ := inside
      rw [scanHandlesInt, scanHandles]
      by_cases used : (files_.lookup next_handle_).isSome
      · rw [if_pos used, if_pos used]
        by_cases last : next_handle_ = range.last_handle_
        · rw [if_pos last, if_pos last, Option.bind_some]
          exact ih ⟨Int.le_refl _, range.ordered⟩
        · rw [if_neg last, if_neg last, int_eq_some (by omega) (by omega), Option.bind_some]
          exact ih ⟨by omega, by omega⟩
      · rw [if_neg used, if_neg used]

/-- No value overflows. -/
theorem Consistent.getNewHandleInt_eq (consistent : Consistent manager)
    (fits : FitsInt manager.range) :
    manager.getNewHandleInt = some manager.getNewHandle := by
  have ordered := manager.range.ordered
  have inside := consistent.start
  obtain ⟨⟨lower, upper⟩, -⟩ := scanHandles_spec manager.files_ manager.range
    (numHandles manager.range) inside
  have scanned := @scanHandlesInt_eq _ fits manager.files_ (numHandles manager.range) _ inside
  obtain ⟨first, behind, count⟩ := fits
  have behindFits : int (manager.range.last_handle_ + 1) = some _ :=
    int_eq_some (by omega) behind
  have distanceFits : int (manager.range.last_handle_ - manager.range.first_handle_) = some _ :=
    int_eq_some (by omega) (by omega)
  have countFits : int (manager.range.last_handle_ - manager.range.first_handle_ + 1) = some _ :=
    int_eq_some (by omega) count
  have nextFits := int_eq_some (by omega) (Int.lt_of_le_of_lt (Int.add_le_add_right upper 1) behind)
  rw [numHandles] at scanned nextFits
  rw [getNewHandleInt, FileManager.getNewHandle, numHandles]
  simp only [behindFits, distanceFits, countFits, scanned, nextFits, Option.bind_eq_bind,
    Option.bind_some]
  exact (apply_ite some _ _ _).symm

/-- After any run of a file system whose range has no handle `-1` and whose numbers are `int`s,
nothing overflows and the next handle is a free one as long as there is any. -/
theorem getNewHandle_allocates {drive_id : Nat} {mount_path : String}
    {operations : List FileOperation} {final : FileManager} (error : ¬InRange range (-1))
    (fits : FitsInt range)
    (allowed : Meets step Allowed (.new range drive_id mount_path) operations)
    (ran : run step (.new range drive_id mount_path) operations = some final) :
    final.getNewHandleInt = some final.getNewHandle ∧ Allocates final := by
  have kept : Consistent final ∧ final.range = range := by
    refine @run_invariant_of_meets _ _ _ (fun manager => Consistent manager ∧
      manager.range = range) _ ?_ _ _ _ ⟨.new range drive_id mount_path, rfl⟩ allowed ran
    rintro manager operation next ⟨consistent, same⟩ permitted stepped
    cases stepped
    refine ⟨consistent.next permitted, ?_⟩
    rw [(consistent.change_of_step permitted).range, same]
  exact ⟨kept.1.getNewHandleInt_eq (kept.2 ▸ fits), kept.1.allocates (kept.2 ▸ error)⟩

/-- Of three handles the second is in use. -/
theorem getNewHandle_allocates_openTwice :
    ∃ final, run step (.new threeHandles 0 "/") openTwice = some final ∧
      final.getNewHandleInt = some final.getNewHandle ∧ Allocates final := by
  have error : ¬InRange threeHandles (-1) := by
    unfold InRange threeHandles
    decide
  exact ⟨_, rfl, getNewHandle_allocates error ⟨by decide, by decide, by decide⟩
    allowed_openTwice rfl⟩

/-- A file system whose only handle is `-1` gives it out, which its caller takes for a failure. -/
theorem error_as_handle :
    ¬∀ (range : HandleRange) (drive_id : Nat) (mount_path : String)
      (operations : List FileOperation) (final : FileManager),
      Meets step Allowed (.new range drive_id mount_path) operations →
      run step (.new range drive_id mount_path) operations = some final →
        Allocates final := by
  intro stated
  have allocates := stated ⟨-1, -1, Int.le_refl _⟩ 0 "/" [] _ trivial rfl
  have used := allocates.exhausted.mp rfl (-1) ⟨Int.le_refl _, Int.le_refl _⟩
  cases used

end Conclave.Filesystem.FileManager
