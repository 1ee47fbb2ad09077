import ConclaveFormal.Filesystem.HandleTables

/-!
# Renaming open files

A file is not renamed while it is open.  What is asked is the table of the paths, which loses a
path when one of its handles is closed, although the file may be open through others.
-/

set_option autoImplicit false

namespace Conclave.Filesystem.FileManager

open Conclave.Lib

variable {manager : FileManager}

def OpenOn (manager : FileManager) (path : String) : Prop :=
  ∃ handle, manager.inverse_file_paths_.lookup handle = some path

/-- `isFileOpen` tells the truth. -/
def ShownOpen (manager : FileManager) : Prop :=
  ∀ path, manager.isFileOpen path ≠ 0 ↔ OpenOn manager path

/-- No file is renamed from or to a path that a handle is open on. -/
def RenamesClosed (manager : FileManager) : Prop :=
  ∀ oldcpath newcpath stat res, is_file (statWithRoot (oldcpath.getD "") stat) →
    (manager.rename oldcpath newcpath stat res).returned = 0 →
      ¬OpenOn manager (manager.generateFatFsPath oldcpath) ∧
        ¬OpenOn manager (manager.generateFatFsPath newcpath)

def Guarded (manager : FileManager) : Prop := ShownOpen manager ∧ RenamesClosed manager

/-- A handle is closed only when no other one is open on its path. -/
def ClosesLastHandle (manager : FileManager) (operation : FileOperation) : Prop :=
  ∀ handle, closing manager operation = some handle → ∀ other, other ≠ handle →
    manager.inverse_file_paths_.lookup other ≠ manager.inverse_file_paths_.lookup handle

theorem isFileOpen_ne_zero {path : String} :
    manager.isFileOpen path ≠ 0 ↔ (manager.file_paths_.lookup path).isSome := by
  rw [isFileOpen]
  split
  · simp [*]
  · simp [*]

theorem ShownOpen.renamesClosed (shown : ShownOpen manager) : RenamesClosed manager := by
  intro oldcpath newcpath stat res file renamed
  simp only [FileManager.rename, file, ↓reduceIte, renameFileInternal] at renamed
  split at renamed
  · cases renamed
  · split at renamed
    · cases renamed
    · rename_i closed
      have neither := not_or.mp closed
      exact ⟨fun is_open => neither.1 ((shown _).mpr is_open),
        fun is_open => neither.2 ((shown _).mpr is_open)⟩

theorem guarded_iff : Guarded manager ↔ ShownOpen manager :=
  ⟨fun guarded => guarded.1, fun shown => ⟨shown, shown.renamesClosed⟩⟩

theorem ShownOpen.insert (shown : ShownOpen manager) (consistent : Consistent manager)
    {handle : Int} (fil : FIL) (path : String) (unused : manager.files_.lookup handle = none) :
    ShownOpen (manager.insertFileHandle handle fil path) := by
  intro known
  rw [isFileOpen_ne_zero]
  simp only [OpenOn, insertFileHandle]
  by_cases same : known = path
  · subst same
    refine iff_of_true (by rw [AList.lookup_insert]; rfl) ⟨handle, AList.lookup_insert _⟩
  · rw [AList.lookup_insert_ne same, ← isFileOpen_ne_zero, shown known]
    constructor
    · rintro ⟨other, named⟩
      refine ⟨other, ?_⟩
      have other_open := (consistent.pathed other).mpr (by rw [named]; rfl)
      have different : other ≠ handle := by
        rintro rfl
        rw [unused] at other_open
        cases other_open
      rw [AList.lookup_insert_ne different]
      exact named
    · rintro ⟨other, named⟩
      by_cases here : other = handle
      · subst here
        rw [AList.lookup_insert] at named
        exact absurd (Option.some.inj named).symm same
      · rw [AList.lookup_insert_ne here] at named
        exact ⟨other, named⟩

theorem ShownOpen.erase_iff (shown : ShownOpen manager) {handle : Int} {fil : FIL}
    {path : String} (named : manager.inverse_file_paths_.lookup handle = some path) :
    ShownOpen (manager.eraseFileHandle handle fil path) ↔
      ∀ other, other ≠ handle → manager.inverse_file_paths_.lookup other ≠ some path := by
  constructor
  · intro after other different also_named
    have hidden := after path
    rw [isFileOpen_ne_zero] at hidden
    simp only [OpenOn, eraseFileHandle, AList.lookup_erase] at hidden
    have shown_open := hidden.mpr ⟨other, by rw [AList.lookup_erase_ne different, also_named]⟩
    cases shown_open
  · intro last known
    rw [isFileOpen_ne_zero]
    simp only [OpenOn, eraseFileHandle]
    by_cases same : known = path
    · subst same
      rw [AList.lookup_erase]
      refine iff_of_false (by simp) ?_
      rintro ⟨other, also_named⟩
      by_cases here : other = handle
      · subst here
        rw [AList.lookup_erase] at also_named
        cases also_named
      · rw [AList.lookup_erase_ne here] at also_named
        exact last other here also_named
    · rw [AList.lookup_erase_ne same, ← isFileOpen_ne_zero, shown known]
      constructor
      · rintro ⟨other, also_named⟩
        refine ⟨other, ?_⟩
        have different : other ≠ handle := by
          rintro rfl
          exact same (Option.some.inj (also_named.symm.trans named))
        rw [AList.lookup_erase_ne different]
        exact also_named
      · rintro ⟨other, also_named⟩
        by_cases here : other = handle
        · subst here
          rw [AList.lookup_erase] at also_named
          cases also_named
        · rw [AList.lookup_erase_ne here] at also_named
          exact ⟨other, also_named⟩

/-- One operation keeps the paths right exactly if it closes no handle of a file that stays
open. -/
theorem ShownOpen.next_iff (shown : ShownOpen manager) (consistent : Consistent manager)
    {operation : FileOperation} (allowed : Allowed manager operation) :
    ClosesLastHandle manager operation ↔ ShownOpen (manager.next operation) := by
  have change := consistent.change_of_step allowed
  rw [ClosesLastHandle]
  generalize closing manager operation = closed at change ⊢
  generalize manager.next operation = after at change ⊢
  cases change with
  | unchanged => exact iff_of_true (by simp) shown
  | refused next_handle => exact iff_of_true (by simp) shown
  | @opened handle next fil path next_handle inside unused object fresh =>
      have advanced : ShownOpen { manager with next_handle_ := next } := shown
      refine iff_of_true (by simp) ?_
      exact advanced.insert (consistent.advance next_handle) fil path unused
  | closed file recorded =>
      rw [shown.erase_iff recorded]
      constructor
      · intro last other different
        rw [← recorded]
        exact last _ rfl other different
      · intro last handle same other different
        cases same
        rw [recorded]
        exact last other different

theorem ShownOpen.new (range : HandleRange) (drive_id : Nat) (mount_path : String) :
    ShownOpen (FileManager.new range drive_id mount_path) := by
  intro path
  rw [isFileOpen_ne_zero]
  simp [OpenOn, FileManager.new]

/-- Open files are guarded against renaming all along a run exactly if each handle that the run
closes is the last one of its file. -/
theorem always_guarded_iff {range : HandleRange} {drive_id : Nat} {mount_path : String}
    {operations : List FileOperation}
    (allowed : Meets step Allowed (.new range drive_id mount_path) operations) :
    Always step Guarded (.new range drive_id mount_path) operations ↔
      Meets step ClosesLastHandle (.new range drive_id mount_path) operations := by
  have consistent := Consistent.new range drive_id mount_path
  have start := guarded_iff.mpr (ShownOpen.new range drive_id mount_path)
  have total : ∀ manager operation, (step manager operation).isSome := fun _ _ => rfl
  obtain ⟨final, ran⟩ :=
    exists_run_of_total total (FileManager.new range drive_id mount_path) operations
  refine (meets_iff_always ?_ ?_ consistent start allowed ran).symm
  · intro manager operation next consistent allowed stepped
    cases stepped
    exact consistent.next allowed
  · intro manager operation next consistent allowed guarded stepped
    cases stepped
    rw [guarded_iff]
    exact ShownOpen.next_iff (guarded_iff.mp guarded) consistent allowed

theorem always_guarded_iff_openTwice :
    Always step Guarded (.new threeHandles 0 "/") openTwice ↔
      Meets step ClosesLastHandle (.new threeHandles 0 "/") openTwice :=
  always_guarded_iff allowed_openTwice

/-- The file is open twice and one handle is closed, after which it can be renamed away. -/
theorem renamed_while_open :
    ¬∀ (range : HandleRange) (operations : List FileOperation),
      Meets step Allowed (.new range 0 "/") operations →
        Always step Guarded (.new range 0 "/") operations := by
  intro holds
  have guarded := holds threeHandles openTwice allowed_openTwice openTwice [] _ rfl rfl
  have closed := (guarded.2 (some "/f") (some "/g") ⟨.FR_OK, AM_ARC⟩ .FR_OK rfl rfl).1
  exact closed ⟨100001, rfl⟩

end Conclave.Filesystem.FileManager
