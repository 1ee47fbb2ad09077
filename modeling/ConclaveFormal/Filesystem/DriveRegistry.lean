import ConclaveFormal.Filesystem.Descriptors

/-!
# The registry of the drives

FatFs knows a drive by its number, under which its disk is registered in a vector.  A drive is
unregistered by erasing its element, so that the disks behind it move down by one number.
-/

set_option autoImplicit false

namespace Conclave.Filesystem.DriveRegistry

open Conclave.Lib

def FF_VOLUMES : Nat := 2

inductive DiskInitialization where
  | FORMAT
  | OPEN
  | ERROR
  deriving DecidableEq, Repr

/-- A shared pointer to a disk. -/
structure FatFsDisk where
  address : Nat
  drive_id_ : Nat
  deriving DecidableEq, Repr

/-- An access behind the end of the vector, or a call of a disk that is not there. -/
inductive Fault where
  | outOfRange
  | nullPointer
  deriving DecidableEq, Repr

/-- `registered` is for the specification only: the disk last registered under each number and not
since unregistered. -/
structure Registry where
  disks : List (Option FatFsDisk)
  registered : Nat → Option FatFsDisk

namespace Registry

def new : Registry := ⟨List.replicate FF_VOLUMES none, fun _ => none⟩

variable (registry : Registry)

def disk_register (drive : Nat) (disk : FatFsDisk) : Except Fault (FatFsResult × Registry) :=
  if drive ≥ FF_VOLUMES then .ok (.WRONG_DRIVE_ID, registry)
  else if drive < registry.disks.length then
    .ok (.OK, ⟨registry.disks.set drive (some disk),
      Function.update registry.registered drive (some disk)⟩)
  else .error .outOfRange

def disk_unregister (drive : Nat) : Except Fault (FatFsResult × Registry) :=
  if drive ≥ FF_VOLUMES then .ok (.WRONG_DRIVE_ID, registry)
  else if drive < registry.disks.length then
    .ok (.OK, ⟨registry.disks.eraseIdx drive, Function.update registry.registered drive none⟩)
  else .error .outOfRange

def at_ (drive : Nat) : Except Fault FatFsDisk :=
  match registry.disks[drive]? with
  | none => .error .outOfRange
  | some none => .error .nullPointer
  | some (some disk) => .ok disk

/-- What `disk_initialize`, `disk_status`, `disk_read`, `disk_write` and `disk_ioctl` share: the
disk of the drive is called. -/
def callDisk (drive : Nat) (call : FatFsDisk → DRESULT) : Except Fault DRESULT :=
  if drive ≥ FF_VOLUMES then .ok .RES_PARERR else (registry.at_ drive).map call

def disk_initialize (drive : Nat) : Except Fault DRESULT :=
  registry.callDisk drive fun _ => .RES_OK

def disk_status (drive : Nat) : Except Fault DRESULT :=
  registry.callDisk drive fun _ => .RES_OK

def disk_read (drive : Nat) (diskRead : FatFsDisk → DRESULT) : Except Fault DRESULT :=
  registry.callDisk drive diskRead

def disk_write (drive : Nat) (diskWrite : FatFsDisk → DRESULT) : Except Fault DRESULT :=
  registry.callDisk drive diskWrite

def disk_ioctl (drive : Nat) (diskIoCtl : FatFsDisk → DRESULT) : Except Fault DRESULT :=
  registry.callDisk drive diskIoCtl

/-- The failure that `f_mkfs` ends `disk_start` with. -/
def formatFailure (init_type : DiskInitialization) (res_mkfs : FRESULT) : Option FatFsResult :=
  if init_type = .FORMAT ∧ res_mkfs ≠ .FR_OK then
    some (if res_mkfs = .FR_MKFS_ABORTED then .MKFS_ABORTED else .MKFS_GENERIC_ERROR)
  else none

def disk_start (disk_handler : FatFsDisk) (init_type : DiskInitialization)
    (res_mkfs res_mount : FRESULT) : Except Fault (FatFsResult × Registry) :=
  let drive := disk_handler.drive_id_
  if drive ≥ FF_VOLUMES then .ok (.WRONG_DRIVE_ID, registry)
  else do
    let (result, registry) ← registry.disk_register drive disk_handler
    if result ≠ .OK then return (.DRIVE_REGISTRATION_FAILED, registry)
    else
      match formatFailure init_type res_mkfs with
      | some failure => return (failure, registry)
      | none =>
          let _ ← registry.at_ drive
          return (if res_mount ≠ .FR_OK then .MOUNT_FAILED else .OK, registry)

def disk_stop (drive : Nat) (res_mount : FRESULT) : Except Fault (FatFsResult × Registry) :=
  if drive ≥ FF_VOLUMES then .ok (.WRONG_DRIVE_ID, registry)
  else do
    let (result, registry) ← registry.disk_unregister drive
    if result ≠ .OK then return (.DRIVE_UNREGISTRATION_FAILED, registry)
    else return (if res_mount ≠ .FR_OK then .UMOUNT_FAILED else .OK, registry)

end Registry

inductive Call where
  | disk_register (drive : Nat) (disk : FatFsDisk)
  | disk_unregister (drive : Nat)
  | disk_start (disk_handler : FatFsDisk) (init_type : DiskInitialization)
      (res_mkfs res_mount : FRESULT)
  | disk_stop (drive : Nat) (res_mount : FRESULT)
  | disk_initialize_drive (drive : Nat)
  | disk_status (drive : Nat)
  | disk_read (drive : Nat) (diskRead : FatFsDisk → DRESULT)
  | disk_write (drive : Nat) (diskWrite : FatFsDisk → DRESULT)
  | disk_ioctl (drive : Nat) (diskIoCtl : FatFsDisk → DRESULT)

namespace Registry

variable (registry : Registry)

/-- The registry after the call. -/
def perform : Call → Except Fault Registry
  | .disk_register drive disk => (registry.disk_register drive disk).map Prod.snd
  | .disk_unregister drive => (registry.disk_unregister drive).map Prod.snd
  | .disk_start disk_handler init_type res_mkfs res_mount =>
      (registry.disk_start disk_handler init_type res_mkfs res_mount).map Prod.snd
  | .disk_stop drive res_mount => (registry.disk_stop drive res_mount).map Prod.snd
  | .disk_initialize_drive drive =>
      Except.map (fun _ => registry) <| disk_initialize registry drive
  | .disk_status drive => (registry.disk_status drive).map fun _ => registry
  | .disk_read drive diskRead => (registry.disk_read drive diskRead).map fun _ => registry
  | .disk_write drive diskWrite => (registry.disk_write drive diskWrite).map fun _ => registry
  | .disk_ioctl drive diskIoCtl => (registry.disk_ioctl drive diskIoCtl).map fun _ => registry

end Registry

/-- A run does not go on from a fault. -/
def step (registry : Registry) (call : Call) : Option Registry := (registry.perform call).toOption

/-! ## What the calls do -/

/-- A call registers a disk, unregisters a drive or looks a drive up. -/
inductive Access where
  | registers (drive : Nat) (disk : FatFsDisk)
  | unregisters (drive : Nat)
  | looksUp (drive : Nat)

def Call.access : Call → Access
  | .disk_register drive disk => .registers drive disk
  | .disk_start disk_handler _ _ _ => .registers disk_handler.drive_id_ disk_handler
  | .disk_unregister drive | .disk_stop drive _ => .unregisters drive
  | .disk_initialize_drive drive | .disk_status drive | .disk_read drive _ | .disk_write drive _
  | .disk_ioctl drive _ => .looksUp drive

def Access.drive : Access → Nat
  | registers drive _ | unregisters drive | looksUp drive => drive

/-- Every registered drive resolves to its disk. -/
def Resolves (registry : Registry) : Prop :=
  ∀ drive disk, registry.registered drive = some disk → registry.disks[drive]? = some (some disk)

/-- The access stays within the vector, after it each registered drive resolves to its disk, and if
it unregisters a drive, the others resolve to what they did before. -/
structure Aligned (registry : Registry) (access : Access) (result : Except Fault Registry) :
    Prop where
  inRange : result ≠ .error .outOfRange
  resolves : ∀ next, result = .ok next → Resolves next
  others : ∀ next drive, result = .ok next → access = .unregisters drive →
    ∀ other < FF_VOLUMES, other ≠ drive → next.disks[other]? = registry.disks[other]?

def KeepsAligned (registry : Registry) (call : Call) : Prop :=
  Aligned registry call.access (registry.perform call)

def Access.InLine (registry : Registry) : Access → Prop
  | registers drive _ | looksUp drive => drive < registry.disks.length
  | unregisters drive => drive + 1 = registry.disks.length

/-- The drive is in the vector still, and is the last one there if it is unregistered. -/
def LastGoesFirst (registry : Registry) (call : Call) : Prop :=
  call.access.drive < FF_VOLUMES → call.access.InLine registry

structure Sound (registry : Registry) : Prop where
  length : registry.disks.length ≤ FF_VOLUMES
  resolves : Resolves registry

theorem Sound.new : Sound Registry.new where
  length := List.length_replicate.le
  resolves drive disk registered := by cases registered

/-- How a call that is carried out changes the registry. -/
inductive Performed (registry : Registry) : Access → Except Fault Registry → Prop where
  | wrongDrive {access : Access} (wrong : FF_VOLUMES ≤ access.drive) :
      Performed registry access (.ok registry)
  | outOfRange {access : Access} (below : access.drive < FF_VOLUMES)
      (behind : registry.disks.length ≤ access.drive) :
      Performed registry access (.error .outOfRange)
  | registered {drive : Nat} {disk : FatFsDisk} (below : drive < FF_VOLUMES)
      (inside : drive < registry.disks.length) :
      Performed registry (.registers drive disk)
        (.ok ⟨registry.disks.set drive (some disk),
          Function.update registry.registered drive (some disk)⟩)
  | unregistered {drive : Nat} (below : drive < FF_VOLUMES)
      (inside : drive < registry.disks.length) :
      Performed registry (.unregisters drive)
        (.ok ⟨registry.disks.eraseIdx drive, Function.update registry.registered drive none⟩)
  | missing {drive : Nat} (below : drive < FF_VOLUMES)
      (inside : drive < registry.disks.length) :
      Performed registry (.looksUp drive) (.error .nullPointer)
  | lookedUp {drive : Nat} (below : drive < FF_VOLUMES)
      (inside : drive < registry.disks.length) :
      Performed registry (.looksUp drive) (.ok registry)

variable {registry : Registry}

theorem performed_register (drive : Nat) (disk : FatFsDisk) :
    Performed registry (.registers drive disk)
      ((registry.disk_register drive disk).map Prod.snd) := by
  rw [Registry.disk_register]
  split_ifs with wrong inside
  · exact .wrongDrive wrong
  · exact .registered (not_le.mp wrong) inside
  · exact .outOfRange (not_le.mp wrong) (not_lt.mp inside)

theorem performed_unregister (drive : Nat) :
    Performed registry (.unregisters drive)
      ((registry.disk_unregister drive).map Prod.snd) := by
  rw [Registry.disk_unregister]
  split_ifs with wrong inside
  · exact .wrongDrive wrong
  · exact .unregistered (not_le.mp wrong) inside
  · exact .outOfRange (not_le.mp wrong) (not_lt.mp inside)

theorem performed_callDisk (drive : Nat) (call : FatFsDisk → DRESULT) :
    Performed registry (.looksUp drive)
      ((registry.callDisk drive call).map fun _ => registry) := by
  rw [Registry.callDisk]
  split_ifs with wrong
  · exact .wrongDrive wrong
  · rw [Registry.at_]
    cases found : registry.disks[drive]? with
    | none => exact .outOfRange (not_le.mp wrong) (List.getElem?_eq_none_iff.mp found)
    | some entry =>
        obtain ⟨inside, -⟩ := List.getElem?_eq_some_iff.mp found
        cases entry with
        | none => exact .missing (not_le.mp wrong) inside
        | some disk => exact .lookedUp (not_le.mp wrong) inside

/-- What comes after the registration in `disk_start` finds the disk that was registered. -/
theorem disk_start_eq (disk_handler : FatFsDisk) (init_type : DiskInitialization)
    (res_mkfs res_mount : FRESULT) :
    (registry.disk_start disk_handler init_type res_mkfs res_mount).map Prod.snd =
      (registry.disk_register disk_handler.drive_id_ disk_handler).map Prod.snd := by
  rw [Registry.disk_start]
  by_cases wrong : disk_handler.drive_id_ ≥ FF_VOLUMES
  · simp only [Registry.disk_register, if_pos wrong]
  · rw [if_neg wrong, Registry.disk_register, if_neg wrong]
    by_cases inside : disk_handler.drive_id_ < registry.disks.length
    · rw [if_pos inside]
      have found : (registry.disks.set disk_handler.drive_id_ (some disk_handler))[
          disk_handler.drive_id_]? = some (some disk_handler) := List.getElem?_set_self inside
      cases failure : Registry.formatFailure init_type res_mkfs with
      | some result => simp [bind, Except.bind, pure, Except.pure, Except.map]
      | none =>
          simp [bind, Except.bind, pure, Except.pure, Except.map, Registry.at_, found]
    · rw [if_neg inside]
      rfl

theorem disk_stop_eq (drive : Nat) (res_mount : FRESULT) :
    (registry.disk_stop drive res_mount).map Prod.snd =
      (registry.disk_unregister drive).map Prod.snd := by
  rw [Registry.disk_stop]
  by_cases wrong : drive ≥ FF_VOLUMES
  · simp only [Registry.disk_unregister, if_pos wrong]
  · rw [if_neg wrong, Registry.disk_unregister, if_neg wrong]
    by_cases inside : drive < registry.disks.length
    · rw [if_pos inside]
      rfl
    · rw [if_neg inside]
      rfl

theorem performed (registry : Registry) (call : Call) :
    Performed registry call.access (registry.perform call) := by
  cases call with
  | disk_register drive disk => exact performed_register drive disk
  | disk_unregister drive => exact performed_unregister drive
  | disk_start disk_handler init_type res_mkfs res_mount =>
      rw [Registry.perform, disk_start_eq]
      exact performed_register disk_handler.drive_id_ disk_handler
  | disk_stop drive res_mount =>
      rw [Registry.perform, disk_stop_eq]
      exact performed_unregister drive
  | disk_initialize_drive drive => exact performed_callDisk drive _
  | disk_status drive => exact performed_callDisk drive _
  | disk_read drive diskRead => exact performed_callDisk drive diskRead
  | disk_write drive diskWrite => exact performed_callDisk drive diskWrite
  | disk_ioctl drive diskIoCtl => exact performed_callDisk drive diskIoCtl

/-! ## One call -/

theorem Resolves.set (resolves : Resolves registry) {drive : Nat}
    (inside : drive < registry.disks.length) (disk : FatFsDisk) :
    Resolves ⟨registry.disks.set drive (some disk),
      Function.update registry.registered drive (some disk)⟩ := by
  intro other otherDisk registered
  simp only at registered ⊢
  by_cases same : other = drive
  · subst same
    rw [Function.update_self] at registered
    cases registered
    exact List.getElem?_set_self inside
  · rw [Function.update_of_ne same] at registered
    rw [List.getElem?_set_ne (Ne.symm same)]
    exact resolves other otherDisk registered

/-- Without its last element, the vector resolves the other drives as before. -/
theorem eraseIdx_last {drive : Nat} (last : drive + 1 = registry.disks.length) {other : Nat}
    (different : other ≠ drive) : (registry.disks.eraseIdx drive)[other]? =
      registry.disks[other]? := by
  rw [List.getElem?_eraseIdx]
  split_ifs with before
  · rfl
  · rw [List.getElem?_eq_none (by omega), List.getElem?_eq_none (by omega)]

theorem Resolves.erase (resolves : Resolves registry) {drive : Nat}
    (last : drive + 1 = registry.disks.length) :
    Resolves ⟨registry.disks.eraseIdx drive, Function.update registry.registered drive none⟩ := by
  intro other otherDisk registered
  simp only at registered ⊢
  by_cases same : other = drive
  · subst same
    rw [Function.update_self] at registered
    cases registered
  · rw [Function.update_of_ne same] at registered
    rw [eraseIdx_last last same]
    exact resolves other otherDisk registered

/-- Erasing another element than the last one takes the drive of the last one out of the vector. -/
theorem last_of_others {drive : Nat} (length : registry.disks.length ≤ FF_VOLUMES)
    (inside : drive < registry.disks.length)
    (others : ∀ other < FF_VOLUMES, other ≠ drive →
      (registry.disks.eraseIdx drive)[other]? = registry.disks[other]?) :
    drive + 1 = registry.disks.length := by
  by_contra notLast
  have kept := others (registry.disks.length - 1) (by omega) (by omega)
  have shortened := List.length_eraseIdx_of_lt inside
  rw [List.getElem?_eq_none (by omega), List.getElem?_eq_getElem (by omega)] at kept
  cases kept

theorem Performed.aligned_iff {access : Access} {result : Except Fault Registry}
    (did : Performed registry access result) (sound : Sound registry) :
    Aligned registry access result ↔ (access.drive < FF_VOLUMES → access.InLine registry) := by
  cases did with
  | wrongDrive wrong =>
      refine iff_of_true ⟨by simp, ?_, ?_⟩ fun below => absurd below (not_lt.mpr wrong)
      · rintro next same
        cases same
        exact sound.resolves
      · rintro next drive same - other - -
        cases same
        rfl
  | outOfRange below behind =>
      refine iff_of_false (fun aligned => aligned.inRange rfl) ?_
      intro inLine
      have inside := inLine below
      cases access with
      | registers drive disk => exact absurd inside (not_lt.mpr behind)
      | looksUp drive => exact absurd inside (not_lt.mpr behind)
      | unregisters drive =>
          have last : drive + 1 = registry.disks.length := inside
          have beyond : registry.disks.length ≤ drive := behind
          omega
  | @registered drive disk below inside =>
      refine iff_of_true ⟨by simp, ?_, ?_⟩ fun _ => inside
      · rintro next same
        cases same
        exact sound.resolves.set inside disk
      · rintro next other - unregisters
        cases unregisters
  | @unregistered drive below inside =>
      constructor
      · intro aligned _
        exact last_of_others sound.length inside (aligned.others _ drive rfl rfl)
      · intro inLine
        have last := inLine below
        refine ⟨by simp, ?_, ?_⟩
        · rintro next same
          cases same
          exact sound.resolves.erase last
        · rintro next other same unregisters kept - different
          cases same
          cases unregisters
          exact eraseIdx_last last different
  | missing below inside =>
      refine iff_of_true ⟨by simp, ?_, ?_⟩ fun _ => inside
      · rintro next same
        cases same
      · rintro next other same
        cases same
  | lookedUp below inside =>
      refine iff_of_true ⟨by simp, ?_, ?_⟩ fun _ => inside
      · rintro next same
        cases same
        exact sound.resolves
      · rintro next other - unregisters
        cases unregisters

theorem Performed.length_le {access : Access} {next : Registry}
    (did : Performed registry access (.ok next)) :
    next.disks.length ≤ registry.disks.length := by
  cases did with
  | wrongDrive wrong => exact le_rfl
  | registered below inside => exact List.length_set.le
  | unregistered below inside =>
      rw [List.length_eraseIdx_of_lt inside]
      exact Nat.sub_le _ _
  | lookedUp below inside => exact le_rfl

theorem Sound.preserved (sound : Sound registry) {call : Call} {next : Registry}
    (inLine : LastGoesFirst registry call) (stepped : step registry call = some next) :
    Sound next := by
  have did := performed registry call
  have aligned := (did.aligned_iff sound).mpr inLine
  rw [step] at stepped
  cases result : registry.perform call with
  | error fault =>
      rw [result] at stepped
      cases stepped
  | ok after =>
      rw [result] at stepped did aligned
      cases stepped
      exact ⟨did.length_le.trans sound.length, aligned.resolves _ rfl⟩

/-! ## Runs -/

/-- The drives of a run resolve to their disks exactly as long as they are unregistered from the
last one down, and not used afterwards. -/
theorem keepsAligned_iff (calls : List Call) :
    Meets step KeepsAligned .new calls ↔ Meets step LastGoesFirst .new calls := by
  refine Meets.congr ?_ ?_ Sound.new
  · intro registry call next sound inLine stepped
    exact sound.preserved inLine stepped
  · intro registry call sound
    exact (performed registry call).aligned_iff sound

/-- Two drives are registered, and the first one is unregistered.  The second one is then found
under the number of the first. -/
theorem wrong_disk :
    ¬∀ calls : List Call, (∀ call ∈ calls, call.access.drive < FF_VOLUMES) →
      Meets step KeepsAligned .new calls := by
  intro stated
  have meets := stated [.disk_register 0 ⟨16, 0⟩, .disk_register 1 ⟨32, 1⟩, .disk_unregister 0]
    (by decide)
  obtain ⟨-, later⟩ := meets
  obtain ⟨-, later⟩ := later _ rfl
  obtain ⟨⟨-, -, others⟩, -⟩ := later _ rfl
  have moved := others _ 0 rfl rfl 1 (by decide) (by decide)
  revert moved
  decide

end Conclave.Filesystem.DriveRegistry
