import ConclaveFormal.Filesystem.FileManager

/-!
# The four tables of the open files

Handles and `FIL` objects belong together one to one, each open handle has the path it was opened
under, and the path table names one of the handles of a path.  Opening, closing and renaming keep
this up whatever FatFs answers.
-/

set_option autoImplicit false

namespace Conclave.Filesystem.FileManager

open Conclave.Lib

variable {manager : FileManager}

def InRange (range : HandleRange) (handle : Int) : Prop :=
  range.first_handle_ ≤ handle ∧ handle ≤ range.last_handle_

structure Consistent (manager : FileManager) : Prop where
  inverse : ∀ handle fil, manager.files_.lookup handle = some fil ↔
    manager.inverse_files_map_.lookup fil = some handle
  in_range : ∀ handle fil, manager.files_.lookup handle = some fil →
    InRange manager.range handle
  pathed : ∀ handle, (manager.files_.lookup handle).isSome ↔
    (manager.inverse_file_paths_.lookup handle).isSome
  recorded : ∀ path handle, manager.file_paths_.lookup path = some handle →
    manager.inverse_file_paths_.lookup handle = some path
  object : ∀ handle, manager.files_.lookup handle ≠ some nullptr
  next_handle : manager.range.first_handle_ ≤ manager.next_handle_ ∧
    manager.next_handle_ ≤ manager.range.last_handle_ + 1

theorem Consistent.new (range : HandleRange) (drive_id : Nat) (mount_path : String) :
    Consistent (FileManager.new range drive_id mount_path) where
  inverse handle fil := by simp [FileManager.new]
  in_range handle fil found := by simp [FileManager.new] at found
  pathed handle := by simp [FileManager.new]
  recorded path handle found := by simp [FileManager.new] at found
  object handle := by simp [FileManager.new]
  next_handle := by
    have := range.ordered
    simp only [FileManager.new]
    omega

/-! ## A new handle -/

theorem scanHandles_spec (files_ : AssocMap FileHandle FIL) (range : HandleRange) (left : Nat)
    {next_handle_ : Int} (inside : InRange range next_handle_) :
    InRange range (scanHandles files_ range left next_handle_).2 ∧
      ((scanHandles files_ range left next_handle_).1 ≠ 0 →
        files_.lookup (scanHandles files_ range left next_handle_).2 = none) := by
  induction left generalizing next_handle_ with
  | zero => exact ⟨inside, fun positive => absurd rfl positive⟩
  | succ left ih =>
      rw [scanHandles]
      by_cases used : (files_.lookup next_handle_).isSome
      · rw [if_pos used]
        apply ih
        have := range.ordered
        unfold InRange at inside ⊢
        split <;> omega
      · rw [if_neg used]
        exact ⟨inside, fun _ => Option.not_isSome_iff_eq_none.mp used⟩

theorem Consistent.getNewHandle (consistent : Consistent manager) :
    ∃ handle next, manager.getNewHandle = (handle, { manager with next_handle_ := next }) ∧
      (manager.range.first_handle_ ≤ next ∧ next ≤ manager.range.last_handle_ + 1) ∧
      (handle ≠ -1 → InRange manager.range handle ∧ manager.files_.lookup handle = none) := by
  have start : InRange manager.range
      (if manager.next_handle_ = manager.range.last_handle_ + 1 then manager.range.first_handle_
        else manager.next_handle_) := by
    have := manager.range.ordered
    have := consistent.next_handle
    unfold InRange
    split <;> omega
  obtain ⟨inside, free⟩ := scanHandles_spec manager.files_ manager.range
    (numHandles manager.range) start
  rw [FileManager.getNewHandle]
  generalize scanHandles manager.files_ manager.range (numHandles manager.range) _ = scanned
    at inside free ⊢
  obtain ⟨left, found⟩ := scanned
  have bounds : manager.range.first_handle_ ≤ found ∧ found ≤ manager.range.last_handle_ := inside
  by_cases all_used : left = 0
  · refine ⟨-1, found, ?_, by omega, fun valid => absurd rfl valid⟩
    simp [all_used]
  · refine ⟨found, found + 1, ?_, by omega, fun _ => ⟨inside, free all_used⟩⟩
    simp [all_used]

/-! ## What the operations do to the tables -/

/-- The handle that the operation closes, where FatFs closes the file. -/
def closing (manager : FileManager) : FileOperation → Option Int
  | .close fd .FR_OK => if (manager.files_.lookup fd).isSome then some fd else none
  | .fclose fp .FR_OK => if fp = nullptr then none else manager.inverse_files_map_.lookup fp
  | _ => none

/-- At most the next handle is another one, or one file has been opened, or one closed. -/
inductive Change (manager : FileManager) : Option Int → FileManager → Prop where
  | unchanged : Change manager none manager
  | refused {next : Int}
      (next_handle : manager.range.first_handle_ ≤ next ∧ next ≤ manager.range.last_handle_ + 1) :
      Change manager none { manager with next_handle_ := next }
  | opened {handle next : Int} {fil : FIL} {path : String}
      (next_handle : manager.range.first_handle_ ≤ next ∧ next ≤ manager.range.last_handle_ + 1)
      (inside : InRange manager.range handle) (unused : manager.files_.lookup handle = none)
      (object : fil ≠ nullptr) (fresh : ∀ other, manager.files_.lookup other ≠ some fil) :
      Change manager none
        (insertFileHandle { manager with next_handle_ := next } handle fil path)
  | closed {handle : Int} {fil : FIL} {path : String}
      (file : manager.files_.lookup handle = some fil)
      (recorded : manager.inverse_file_paths_.lookup handle = some path) :
      Change manager (some handle) (manager.eraseFileHandle handle fil path)

theorem Change.range {closed : Option Int} {after : FileManager}
    (change : Change manager closed after) : after.range = manager.range := by
  cases change <;> rfl

theorem Consistent.syncOpened (consistent : Consistent manager) (path : String)
    (answer : FRESULT) : ∃ res_sync, manager.syncOpened path answer = .ok res_sync := by
  rw [FileManager.syncOpened]
  cases known : manager.file_paths_.lookup path with
  | none => exact ⟨_, rfl⟩
  | some old_handle =>
      have named := consistent.recorded path old_handle known
      have is_open := (consistent.pathed old_handle).mpr (by rw [named]; rfl)
      obtain ⟨old_fil, found⟩ := Option.isSome_iff_exists.mp is_open
      refine ⟨answer, ?_⟩
      simp only [found]

theorem Consistent.openPath (consistent : Consistent manager) (path : String)
    {answers : OpenAnswers} (object : answers.fil_ptr ≠ nullptr)
    (fresh : ∀ handle, manager.files_.lookup handle ≠ some answers.fil_ptr) :
    ∃ outcome, manager.openPath path answers = .ok outcome ∧
      Change manager none outcome.manager := by
  obtain ⟨handle, next, allocated, bounds, valid⟩ := consistent.getNewHandle
  obtain ⟨res_sync, synced⟩ := consistent.syncOpened path answers.res_sync
  simp only [FileManager.openPath, synced, allocated]
  by_cases flushed : res_sync = .FR_OK
  · rw [if_neg (not_not.mpr flushed)]
    by_cases full : handle = -1
    · rw [if_pos full]
      exact ⟨_, rfl, .refused bounds⟩
    · rw [if_neg full]
      by_cases opened : answers.res = .FR_OK
      · rw [if_neg (not_not.mpr opened)]
        exact ⟨_, rfl, .opened bounds (valid full).1 (valid full).2 object fresh⟩
      · rw [if_pos opened]
        exact ⟨_, rfl, .refused bounds⟩
  · rw [if_pos flushed]
    exact ⟨_, rfl, .unchanged⟩

/-- What `open` returns is no handle, or one of the manager's own. -/
theorem Consistent.open_returned (consistent : Consistent manager) {path_in : Option String}
    {oflag : BitVec 32} {answers : OpenAnswers} {outcome : Outcome Int}
    (opened : manager.open path_in oflag answers = .ok outcome) :
    outcome.returned = -1 ∨ InRange manager.range outcome.returned := by
  obtain ⟨handle, next, allocated, -, valid⟩ := consistent.getNewHandle
  obtain ⟨res_sync, synced⟩ :=
    consistent.syncOpened (manager.generateFatFsPath path_in) answers.res_sync
  rw [FileManager.open] at opened
  split_ifs at opened
  · cases opened
    exact Or.inl rfl
  · cases flag : convertFlag oflag with
    | none =>
        rw [flag] at opened
        cases opened
    | some fatfs_mode_flag =>
        rw [flag] at opened
        simp only [FileManager.openPath, synced, allocated] at opened
        split_ifs at opened with flushed full refused
        · cases opened
          exact Or.inl rfl
        · cases opened
          exact Or.inl rfl
        · cases opened
          exact Or.inl rfl
        · cases opened
          exact Or.inr (valid full).1

theorem Consistent.closeInternal (consistent : Consistent manager) {handle : Int} {fil : FIL}
    (file : manager.files_.lookup handle = some fil) (res : FRESULT) :
    ∃ outcome, manager.closeInternal fil res = .ok outcome ∧
      Change manager (if res = .FR_OK then some handle else none) outcome.manager := by
  have is_open : (manager.files_.lookup handle).isSome := by rw [file]; rfl
  obtain ⟨path, recorded⟩ := Option.isSome_iff_exists.mp ((consistent.pathed handle).mp is_open)
  simp only [FileManager.closeInternal, (consistent.inverse handle fil).mp file]
  by_cases closed : res = .FR_OK
  · simp only [closed, ↓reduceIte, recorded]
    exact ⟨_, rfl, .closed file recorded⟩
  · simp only [closed, ↓reduceIte]
    exact ⟨_, rfl, .unchanged⟩

theorem closing_of_failed {res : FRESULT} (failed : res ≠ .FR_OK) (fd : Int) (fp : FIL) :
    closing manager (.close fd res) = none ∧ closing manager (.fclose fp res) = none := by
  cases res
  case FR_OK => exact absurd rfl failed
  all_goals exact ⟨rfl, rfl⟩

/-- Of the lookups that can throw, the one of the flags alone does. -/
def Performs (manager : FileManager) (operation : FileOperation) : Prop :=
  (∃ outcome, manager.perform operation = .ok outcome ∧
    Change manager (closing manager operation) outcome.manager) ∨
    manager.perform operation = .error .flags ∧ closing manager operation = none

theorem Consistent.performs_open (consistent : Consistent manager) {path_in : Option String}
    {oflag : BitVec 32} {answers : OpenAnswers} (object : answers.fil_ptr ≠ nullptr)
    (fresh : ∀ handle, manager.files_.lookup handle ≠ some answers.fil_ptr) :
    Performs manager (.open path_in oflag answers) := by
  rw [Performs, FileManager.perform, FileManager.open]
  by_cases empty : manager.generateFatFsPath path_in = ""
  · rw [if_pos empty]
    exact Or.inl ⟨_, rfl, .unchanged⟩
  · rw [if_neg empty]
    cases convertFlag oflag with
    | none => exact Or.inr ⟨rfl, rfl⟩
    | some fatfs_mode_flag =>
        obtain ⟨outcome, opened, change⟩ :=
          consistent.openPath (manager.generateFatFsPath path_in) object fresh
        simp only [opened]
        exact Or.inl ⟨_, rfl, change⟩

theorem Consistent.performs_fopen (consistent : Consistent manager) {path_in mode : Option String}
    {answers : OpenAnswers} (object : answers.fil_ptr ≠ nullptr)
    (fresh : ∀ handle, manager.files_.lookup handle ≠ some answers.fil_ptr) :
    Performs manager (.fopen path_in mode answers) := by
  cases mode with
  | none => exact Or.inl ⟨_, rfl, .unchanged⟩
  | some mode =>
      simp only [Performs, FileManager.perform, FileManager.fopen]
      by_cases empty : manager.generateFatFsPath path_in = ""
      · simp only [empty, ↓reduceIte]
        exact Or.inl ⟨_, rfl, .unchanged⟩
      · simp only [empty, ↓reduceIte]
        cases parsePosixModeFlag mode with
        | none => exact Or.inr ⟨rfl, rfl⟩
        | some fatfs_mode =>
            obtain ⟨outcome, opened, change⟩ :=
              consistent.openPath (manager.generateFatFsPath path_in) object fresh
            simp only [opened]
            exact Or.inl ⟨_, rfl, change⟩

theorem Consistent.performs_close (consistent : Consistent manager) (fd : Int) (res : FRESULT) :
    Performs manager (.close fd res) := by
  left
  rw [FileManager.perform, FileManager.close]
  cases file : manager.files_.lookup fd with
  | none =>
      refine ⟨_, rfl, ?_⟩
      have none_closed : closing manager (.close fd res) = none := by
        by_cases closed : res = .FR_OK
        · rw [closed, closing, file]
          rfl
        · exact (closing_of_failed closed fd nullptr).1
      rw [none_closed]
      exact .unchanged
  | some fil_ptr =>
      have object : fil_ptr ≠ nullptr := fun null => consistent.object fd (null ▸ file)
      obtain ⟨outcome, ran, change⟩ := consistent.closeInternal file res
      refine ⟨outcome, ?_, ?_⟩
      · simp only [object, ↓reduceIte, ran]
      · by_cases closed : res = .FR_OK
        · rw [if_pos closed] at change
          rw [closed, closing, file]
          exact change
        · rw [if_neg closed] at change
          rw [(closing_of_failed closed fd nullptr).1]
          exact change

theorem Consistent.performs_fclose (consistent : Consistent manager) {fp : FIL} (res : FRESULT)
    (known : fp = nullptr ∨ ∃ handle, manager.files_.lookup handle = some fp) :
    Performs manager (.fclose fp res) := by
  left
  rw [FileManager.perform, FileManager.fclose]
  by_cases null : fp = nullptr
  · rw [if_pos null]
    refine ⟨_, rfl, ?_⟩
    have none_closed : closing manager (.fclose fp res) = none := by
      by_cases closed : res = .FR_OK
      · rw [closed, closing, if_pos null]
      · exact (closing_of_failed closed 0 fp).2
    rw [none_closed]
    exact .unchanged
  · obtain ⟨handle, file⟩ := known.resolve_left null
    obtain ⟨outcome, ran, change⟩ := consistent.closeInternal file res
    refine ⟨outcome, ?_, ?_⟩
    · rw [if_neg null, ran]
    · by_cases closed : res = .FR_OK
      · rw [if_pos closed] at change
        rw [closed, closing, if_neg null, (consistent.inverse handle fp).mp file]
        exact change
      · rw [if_neg closed] at change
        rw [(closing_of_failed closed 0 fp).2]
        exact change

theorem Consistent.perform (consistent : Consistent manager) {operation : FileOperation}
    (allowed : Allowed manager operation) : Performs manager operation := by
  cases operation with
  | «open» path_in oflag answers => exact consistent.performs_open allowed.1 allowed.2
  | fopen path_in mode answers => exact consistent.performs_fopen allowed.1 allowed.2
  | fdopen fd mode => exact Or.inl ⟨_, rfl, .unchanged⟩
  | close fd res => exact consistent.performs_close fd res
  | fclose fp res => exact consistent.performs_fclose res allowed
  | rename oldcpath newcpath stat res =>
      have unchanged : (manager.rename oldcpath newcpath stat res).manager = manager := by
        simp only [FileManager.rename, renameFileInternal, renameDirInternal]
        split_ifs <;> rfl
      refine Or.inl ⟨_, rfl, ?_⟩
      rw [unchanged]
      exact .unchanged
  | unlink path_in res =>
      have unchanged : (manager.unlink path_in res).manager = manager := by
        rw [FileManager.unlink]
        split_ifs <;> rfl
      refine Or.inl ⟨_, rfl, ?_⟩
      rw [unchanged]
      exact .unchanged
  | read fd buf_null count res read_bytes => exact Or.inl ⟨_, rfl, .unchanged⟩
  | write fd res written_bytes => exact Or.inl ⟨_, rfl, .unchanged⟩

theorem Consistent.change_of_step (consistent : Consistent manager) {operation : FileOperation}
    (allowed : Allowed manager operation) :
    Change manager (closing manager operation) (manager.next operation) := by
  rcases consistent.perform allowed with ⟨outcome, ran, change⟩ | ⟨threw, none_closed⟩
  · rw [FileManager.next, ran]
    exact change
  · rw [FileManager.next, threw, none_closed]
    exact .unchanged

/-! ## What each change keeps -/

theorem Consistent.advance (consistent : Consistent manager) {next : Int}
    (next_handle : manager.range.first_handle_ ≤ next ∧ next ≤ manager.range.last_handle_ + 1) :
    Consistent { manager with next_handle_ := next } :=
  { consistent with next_handle := next_handle }

theorem Consistent.insert (consistent : Consistent manager) {handle : Int} {fil : FIL}
    (path : String) (inside : InRange manager.range handle)
    (unused : manager.files_.lookup handle = none) (object : fil ≠ nullptr)
    (fresh : ∀ other, manager.files_.lookup other ≠ some fil) :
    Consistent (manager.insertFileHandle handle fil path) where
  inverse other object := by
    simp only [insertFileHandle]
    by_cases same : other = handle
    · subst same
      rw [AList.lookup_insert]
      by_cases same_object : object = fil
      · subst same_object
        rw [AList.lookup_insert]
        simp
      · rw [AList.lookup_insert_ne same_object, ← consistent.inverse other object, unused]
        simp [Ne.symm same_object]
    · rw [AList.lookup_insert_ne same]
      by_cases same_object : object = fil
      · subst same_object
        rw [AList.lookup_insert]
        simp [fresh other, Ne.symm same]
      · rw [AList.lookup_insert_ne same_object]
        exact consistent.inverse other object
  in_range other object found := by
    simp only [insertFileHandle] at found
    by_cases same : other = handle
    · exact same ▸ inside
    · rw [AList.lookup_insert_ne same] at found
      exact consistent.in_range other object found
  pathed other := by
    simp only [insertFileHandle]
    by_cases same : other = handle
    · subst same
      rw [AList.lookup_insert, AList.lookup_insert]
      simp
    · rw [AList.lookup_insert_ne same, AList.lookup_insert_ne same]
      exact consistent.pathed other
  recorded known other found := by
    simp only [insertFileHandle] at found ⊢
    by_cases same_path : known = path
    · subst same_path
      rw [AList.lookup_insert] at found
      cases found
      exact AList.lookup_insert _
    · rw [AList.lookup_insert_ne same_path] at found
      have named := consistent.recorded known other found
      have other_open := (consistent.pathed other).mpr (by rw [named]; rfl)
      have different : other ≠ handle := by
        rintro rfl
        rw [unused] at other_open
        cases other_open
      rw [AList.lookup_insert_ne different]
      exact named
  object other := by
    simp only [insertFileHandle]
    by_cases same : other = handle
    · subst same
      rw [AList.lookup_insert]
      simpa using object
    · rw [AList.lookup_insert_ne same]
      exact consistent.object other
  next_handle := consistent.next_handle

theorem Consistent.erase (consistent : Consistent manager) {handle : Int} {fil : FIL}
    {path : String} (file : manager.files_.lookup handle = some fil)
    (named : manager.inverse_file_paths_.lookup handle = some path) :
    Consistent (manager.eraseFileHandle handle fil path) where
  inverse other object := by
    have of_handle := consistent.inverse other object
    simp only [eraseFileHandle]
    by_cases same : other = handle
    · subst same
      rw [AList.lookup_erase]
      by_cases same_object : object = fil
      · subst same_object
        rw [AList.lookup_erase]
        simp
      · rw [AList.lookup_erase_ne same_object, ← of_handle, file]
        simp [Ne.symm same_object]
    · rw [AList.lookup_erase_ne same]
      by_cases same_object : object = fil
      · subst same_object
        rw [AList.lookup_erase, of_handle, (consistent.inverse handle object).mp file]
        simp [Ne.symm same]
      · rw [AList.lookup_erase_ne same_object]
        exact of_handle
  in_range other object found := by
    simp only [eraseFileHandle] at found
    by_cases same : other = handle
    · subst same
      rw [AList.lookup_erase] at found
      cases found
    · rw [AList.lookup_erase_ne same] at found
      exact consistent.in_range other object found
  pathed other := by
    simp only [eraseFileHandle]
    by_cases same : other = handle
    · subst same
      rw [AList.lookup_erase, AList.lookup_erase]
      simp
    · rw [AList.lookup_erase_ne same, AList.lookup_erase_ne same]
      exact consistent.pathed other
  recorded known other found := by
    simp only [eraseFileHandle] at found ⊢
    by_cases same_path : known = path
    · subst same_path
      rw [AList.lookup_erase] at found
      cases found
    · rw [AList.lookup_erase_ne same_path] at found
      have other_named := consistent.recorded known other found
      have different : other ≠ handle := by
        rintro rfl
        exact same_path (Option.some.inj (other_named.symm.trans named))
      rw [AList.lookup_erase_ne different]
      exact other_named
  object other := by
    simp only [eraseFileHandle]
    by_cases same : other = handle
    · subst same
      rw [AList.lookup_erase]
      simp
    · rw [AList.lookup_erase_ne same]
      exact consistent.object other
  next_handle := consistent.next_handle

theorem Consistent.change (consistent : Consistent manager) {closed : Option Int}
    {after : FileManager} (change : Change manager closed after) : Consistent after := by
  cases change with
  | unchanged => exact consistent
  | refused next_handle => exact consistent.advance next_handle
  | opened next_handle inside unused object fresh =>
      exact (consistent.advance next_handle).insert _ inside unused object fresh
  | closed file recorded => exact consistent.erase file recorded

theorem Consistent.next (consistent : Consistent manager) {operation : FileOperation}
    (allowed : Allowed manager operation) : Consistent (manager.next operation) :=
  consistent.change (consistent.change_of_step allowed)

theorem consistent_of_run {range : HandleRange} {drive_id : Nat} {mount_path : String}
    {operations : List FileOperation} {final : FileManager}
    (allowed : Meets step Allowed (.new range drive_id mount_path) operations)
    (ran : run step (.new range drive_id mount_path) operations = some final) :
    Consistent final := by
  refine run_invariant_of_meets ?_ (.new range drive_id mount_path) allowed ran
  intro manager operation next consistent allowed stepped
  cases stepped
  exact consistent.next allowed

/-- After any run the four tables agree, and no operation fails in looking one of them up. -/
theorem tables_consistent {range : HandleRange} {drive_id : Nat} {mount_path : String}
    {operations : List FileOperation} {final : FileManager}
    (allowed : Meets step Allowed (.new range drive_id mount_path) operations)
    (ran : run step (.new range drive_id mount_path) operations = some final) :
    Consistent final ∧ ∀ operation e, Allowed final operation →
      final.perform operation = .error e → e = .flags := by
  have consistent := consistent_of_run allowed ran
  refine ⟨consistent, ?_⟩
  intro operation e permitted threw
  rcases consistent.perform permitted with ⟨outcome, returned, -⟩ | ⟨flags, -⟩
  · rw [threw] at returned
    cases returned
  · rw [threw] at flags
    cases flags
    rfl

theorem fresh_of_entries {files_ : AssocMap Int FIL} {fil : FIL}
    (fresh : files_.entries.all fun entry => entry.2 ≠ fil) (handle : Int) :
    files_.lookup handle ≠ some fil := by
  intro found
  have member := AList.mem_lookup_iff.mp found
  have different := List.all_eq_true.mp fresh _ member
  exact of_decide_eq_true different rfl

def threeHandles : HandleRange := ⟨100000, 100002, by decide⟩

/-- Two handles of one file, of which the first is closed. -/
def openTwice : List FileOperation :=
  [.open (some "/f") (O_RDWR ||| O_CREAT) ⟨.FR_OK, 16, .FR_OK⟩,
    .fopen (some "/f") (some "r") ⟨.FR_OK, 32, .FR_OK⟩,
    .close 100000 .FR_OK]

theorem allowed_openTwice : Meets step Allowed (.new threeHandles 0 "/") openTwice := by
  refine .cons ?_ rfl (.cons ?_ rfl (.cons trivial rfl trivial))
  · exact ⟨by decide, fresh_of_entries rfl⟩
  · exact ⟨by decide, fresh_of_entries rfl⟩

theorem tables_consistent_openTwice :
    ∃ final, run step (.new threeHandles 0 "/") openTwice = some final ∧ Consistent final :=
  ⟨_, rfl, (tables_consistent allowed_openTwice rfl).1⟩

end Conclave.Filesystem.FileManager
