import ConclaveFormal.Filesystem.HandleTables
import ConclaveFormal.Filesystem.PersistentDisk
import Mathlib.Data.Finset.Basic
import Mathlib.Data.List.Infix

/-!
# The file descriptors of the enclave

Each file system has a range of handles of its own.  The descriptors of a socket pair are dummies
that start where the ranges end, so that a descriptor tells by its value what it belongs to.  The
next file system takes the range in which dummies have been handed out.
-/

set_option autoImplicit false

namespace Conclave.Filesystem

open Conclave.Lib

/-! ## The file systems -/

inductive FatFsResult where
  | OK
  | ERROR
  | MOUNT_FAILED
  | UMOUNT_FAILED
  | MKFS_GENERIC_ERROR
  | MKFS_ABORTED
  | WRONG_DRIVE_ID
  | DRIVE_REGISTRATION_FAILED
  | DRIVE_UNREGISTRATION_FAILED
  | ROOT_DIRECTORY_MOUNT_FAILED
  deriving DecidableEq, Repr

def kMaxNumFiles : Int := 500000

def kMaxInMemorySize : Nat := UINT_MAX * SECTOR_SIZE

def INT_MAX : Int := 2147483647

structure Descriptors where
  currentFirstAvailableHandle : Int
  currentDummyHandle : Int
  dummyHandles : Finset Int
  filesystems : List FileManager

/-- The arguments of `setupFileSystems`, the size of the file on the host (`-1` where the host has
thrown), and what the initialisations come to. -/
structure Setup where
  in_memory_size : UInt64
  persistent_size : UInt64
  in_memory_mount_path : String
  persistent_mount_path : String
  encryption_key : Option Bytes
  host_file_size : Int
  persistent_init : FatFsResult
  in_memory_init : FatFsResult
  deriving DecidableEq

namespace Descriptors

def new : Descriptors where
  currentFirstAvailableHandle := 100000
  currentDummyHandle := 100000
  dummyHandles := ∅
  filesystems := []

theorem handles_ordered (first_handle : Int) : first_handle ≤ first_handle + kMaxNumFiles - 1 := by
  rw [kMaxNumFiles]
  omega

def createFileSystem (state : Descriptors) (drive : Nat) (mount_path : String) :
    FileManager × Descriptors :=
  let first_handle := state.currentFirstAvailableHandle
  (.new ⟨first_handle, first_handle + kMaxNumFiles - 1, handles_ordered first_handle⟩ drive
      mount_path,
    { state with
      currentFirstAvailableHandle := state.currentFirstAvailableHandle + kMaxNumFiles
      currentDummyHandle := state.currentFirstAvailableHandle + kMaxNumFiles })

def getJniMountPath (path : String) : String :=
  if 0 < path.length ∧ path.toList.getLast? ≠ some '/' then path ++ "/" else path

def initException (result : FatFsResult) (fsType : String) : String :=
  match result with
  | .MKFS_ABORTED =>
      "Wrong " ++ fsType ++ " filesystem's sizes have been provided, please choose a value bigger than 97791 bytes"
  | .WRONG_DRIVE_ID | .MOUNT_FAILED =>
      "Unable to initialize the enclave's " ++ fsType ++ " filesystem, potentially corrupted or unencryptable filesystem"
  | _ => "Unable to initialize the enclave's " ++ fsType ++ " filesystem"

/-- A file system that has been created and initialised is put into service.  Otherwise its
handles are not given back. -/
def mount (state : Descriptors) (drive : Nat) (mount_path : String) (initResult : FatFsResult)
    (fsType : String) : Except String Unit × Descriptors :=
  let (filesystem, state) := state.createFileSystem drive mount_path
  if initResult ≠ .OK then (.error (initException initResult fsType), state)
  else (.ok (), { state with filesystems := state.filesystems ++ [filesystem] })

def mountInMemory (state : Descriptors) (setup : Setup) (drive : Nat) :
    Except String Unit × Descriptors :=
  if setup.in_memory_size.toNat > 0 then
    state.mount drive (getJniMountPath setup.in_memory_mount_path) setup.in_memory_init "in-memory"
  else (.ok (), state)

/-- The persistent file system comes first, since its drive tells the host which file it is in. -/
def mountAll (state : Descriptors) (setup : Setup) : Except String Unit × Descriptors :=
  if setup.persistent_size.toNat > 0 then
    if setup.host_file_size = -1 then (.error "Filesystems not initialized", state)
    else
      let mounted := state.mount 0 (getJniMountPath setup.persistent_mount_path)
        setup.persistent_init "persistent"
      match mounted.1 with
      | .error message => (.error message, mounted.2)
      | .ok _ => mounted.2.mountInMemory setup 1
  else state.mountInMemory setup 0

/-- The message of the exception that is raised in Java, and the file systems it leaves. -/
def setupFileSystems (state : Descriptors) (setup : Setup) : Except String Unit × Descriptors :=
  match setup.encryption_key with
  | none => (.error "Filesystems not initialized, key not passed in", state)
  | some encryption_key =>
      if encryption_key.length ≠ 16 then
        (.error "Filesystems not initialized, key not retrieved", state)
      else if setup.in_memory_size.toNat > kMaxInMemorySize then
        (.error ("Wrong in-memory filesystem's sizes have been provided, please choose a value smaller than "
          ++ toString (kMaxInMemorySize + 1) ++ " bytes"), state)
      else if setup.persistent_size.toNat > kMaxPersistentSize then
        (.error ("Wrong persistent filesystem's sizes have been provided, please choose a value smaller than "
          ++ toString (kMaxPersistentSize + 1) ++ " bytes"), state)
      else state.mountAll setup

/-! ## Which file system a call goes to -/

def normalizePath (path : String) : String :=
  if path.toList.head? ≠ some '/' then "/" ++ path else path

def isPathOwner (path : String) (manager : FileManager) : Bool :=
  0 < path.length ∧
    (manager.mount_path_.toList <+: path.toList ∨
      path.toList = manager.mount_path_.toList.take (manager.mount_path_.toList.length - 1))

def getFatFsInstanceFromPath (state : Descriptors) (path_in : Option String) :
    Option (FileManager × Nat) :=
  match path_in with
  | none => none
  | some path_in =>
      if path_in = "" then none
      else
        let found_instances := state.filesystems.zipIdx.filter fun found =>
          isPathOwner (normalizePath path_in) found.1
        if found_instances.length = 1 then found_instances.head?
        else if found_instances.length = 2 then
          found_instances.find? fun found => found.1.mount_path_ ≠ "/"
        else none

def getFatFsInstanceFromHandle (state : Descriptors) (fd : Int) : Option (FileManager × Nat) :=
  if fd = -1 then none
  else state.filesystems.zipIdx.find? fun found => found.1.isHandleOwner fd

/-! ## Replacement of Posix calls -/

def open_impl (state : Descriptors) (path : Option String) (oflag : BitVec 32)
    (answers : OpenAnswers) : Except OutOfRange Int × Descriptors :=
  match state.getFatFsInstanceFromPath path with
  | none => (.ok (-1), state)
  | some (file_manager, index) =>
      match file_manager.open path oflag answers with
      | .error e => (.error e, state)
      | .ok outcome =>
          (.ok outcome.returned,
            { state with filesystems := state.filesystems.set index outcome.manager })

def close_impl (state : Descriptors) (fd : Int) (res : FRESULT) :
    Except OutOfRange Int × Descriptors :=
  if fd ≥ state.currentFirstAvailableHandle then
    (.ok 0, { state with dummyHandles := state.dummyHandles.erase fd })
  else
    match state.getFatFsInstanceFromHandle fd with
    | none => (.ok (-1), state)
    | some (file_manager, index) =>
        match file_manager.close fd res with
        | .error e => (.error e, state)
        | .ok outcome =>
            (.ok outcome.returned,
              { state with filesystems := state.filesystems.set index outcome.manager })

def socketpair_impl (state : Descriptors) : (Int × Int) × Descriptors :=
  let handle1 := state.currentDummyHandle
  let handle2 := state.currentDummyHandle + 1
  ((handle1, handle2),
    { state with
      currentDummyHandle := state.currentDummyHandle + 2
      dummyHandles := insert handle2 (insert handle1 state.dummyHandles) })

end Descriptors

inductive PosixCall where
  | setupFileSystems (setup : Setup)
  | socketpair_impl
  | open_impl (path : Option String) (oflag : BitVec 32) (answers : OpenAnswers)
  | close_impl (fd : Int) (res : FRESULT)
  deriving DecidableEq

namespace Descriptors

def next (state : Descriptors) : PosixCall → Descriptors
  | .setupFileSystems setup => (state.setupFileSystems setup).2
  | .socketpair_impl => state.socketpair_impl.2
  | .open_impl path oflag answers => (state.open_impl path oflag answers).2
  | .close_impl fd res => (state.close_impl fd res).2

/-- The counters are of type `int`, for which there is no behaviour beyond the largest one. -/
def step (state : Descriptors) (call : PosixCall) : Option Descriptors :=
  if (state.next call).currentFirstAvailableHandle ≤ INT_MAX ∧
      (state.next call).currentDummyHandle ≤ INT_MAX then some (state.next call)
  else none

/-! ## Dummies and files -/

/-- What holds of the file systems whatever the order of the calls. -/
structure Sound (state : Descriptors) : Prop where
  below : ∀ manager ∈ state.filesystems,
    manager.range.last_handle_ < state.currentFirstAvailableHandle
  above : ∀ manager ∈ state.filesystems, 0 ≤ manager.range.first_handle_
  first : 0 ≤ state.currentFirstAvailableHandle
  dummies : state.currentFirstAvailableHandle ≤ state.currentDummyHandle
  positive : ∀ fd ∈ state.dummyHandles, 0 ≤ fd
  consistent : ∀ manager ∈ state.filesystems, manager.Consistent

/-- No dummy is a handle that a file system may give out. -/
def NoDummyInService (state : Descriptors) : Prop :=
  ∀ manager ∈ state.filesystems, ∀ fd ∈ state.dummyHandles, manager.isHandleOwner fd = false

/-- Dummies and open files have different descriptors, neither kind is given out while it is in use
as the other, and closing the one leaves the other alone. -/
structure Separate (state : Descriptors) : Prop where
  apart : ∀ manager ∈ state.filesystems, ∀ fd ∈ state.dummyHandles,
    manager.files_.lookup fd = none
  opens : ∀ path oflag answers fd, (state.open_impl path oflag answers).1 = .ok fd →
    fd ∉ state.dummyHandles
  pairs : ∀ manager ∈ state.filesystems, ∀ handle : Int, handle ∈ manager.files_.keys →
    handle ≠ state.socketpair_impl.1.1 ∧ handle ≠ state.socketpair_impl.1.2
  closes_dummy : ∀ fd ∈ state.dummyHandles, ∀ res,
    (state.close_impl fd res).2.filesystems = state.filesystems
  closes_file : ∀ manager ∈ state.filesystems, ∀ fd : Int, fd ∈ manager.files_.keys → ∀ res,
    (state.close_impl fd res).2.dummyHandles = state.dummyHandles

/-- `new` makes an object that no file system has in use. -/
def Allowed (state : Descriptors) : PosixCall → Prop
  | .open_impl _ _ answers => answers.fil_ptr ≠ nullptr ∧
      ∀ manager ∈ state.filesystems, ∀ handle,
        manager.files_.lookup handle ≠ some answers.fil_ptr
  | _ => True

def accepted (setup : Setup) : Prop :=
  (∃ key, setup.encryption_key = some key ∧ key.length = 16) ∧
    setup.in_memory_size.toNat ≤ kMaxInMemorySize ∧
    setup.persistent_size.toNat ≤ kMaxPersistentSize

def servesPersistent (setup : Setup) : Prop :=
  accepted setup ∧ 0 < setup.persistent_size.toNat ∧ setup.host_file_size ≠ -1 ∧
    setup.persistent_init = .OK

def servesInMemory (setup : Setup) : Prop :=
  accepted setup ∧ (setup.persistent_size.toNat = 0 ∨ servesPersistent setup) ∧
    0 < setup.in_memory_size.toNat ∧ setup.in_memory_init = .OK

/-- `fd` lies in the next range of handles, or in the one behind it. -/
def InNextRange (state : Descriptors) (ranges : Int) (fd : Int) : Prop :=
  state.currentFirstAvailableHandle ≤ fd ∧
    fd < state.currentFirstAvailableHandle + ranges * kMaxNumFiles

/-- No dummy is in use in the ranges of the file systems that are put into service. -/
def FreshRanges (state : Descriptors) : PosixCall → Prop
  | .setupFileSystems setup => ∀ fd ∈ state.dummyHandles,
      (servesPersistent setup ∨ servesInMemory setup → ¬InNextRange state 1 fd) ∧
        (servesPersistent setup ∧ servesInMemory setup → ¬InNextRange state 2 fd)
  | _ => True

variable {state : Descriptors}

theorem isHandleOwner_iff {manager : FileManager} (above : 0 ≤ manager.range.first_handle_)
    (fd : Int) : manager.isHandleOwner fd = true ↔ FileManager.InRange manager.range fd := by
  rw [FileManager.isHandleOwner, decide_eq_true_iff, FileManager.InRange]
  omega

/-! ## Creating a file system -/

theorem mount_filesystems (drive : Nat) (mount_path : String) (initResult : FatFsResult)
    (fsType : String) :
    (state.mount drive mount_path initResult fsType).2.filesystems =
      if initResult = .OK then
        state.filesystems ++ [(state.createFileSystem drive mount_path).1]
      else state.filesystems := by
  simp only [mount]
  by_cases ok : initResult = .OK
  · simp [ok, createFileSystem]
  · simp [ok, createFileSystem]

theorem mount_counters (drive : Nat) (mount_path : String) (initResult : FatFsResult)
    (fsType : String) :
    (state.mount drive mount_path initResult fsType).2.currentFirstAvailableHandle =
        state.currentFirstAvailableHandle + kMaxNumFiles ∧
      (state.mount drive mount_path initResult fsType).2.currentDummyHandle =
        state.currentFirstAvailableHandle + kMaxNumFiles ∧
      (state.mount drive mount_path initResult fsType).2.dummyHandles = state.dummyHandles := by
  simp only [mount]
  split
  · exact ⟨rfl, rfl, rfl⟩
  · exact ⟨rfl, rfl, rfl⟩

theorem Sound.mount (sound : Sound state) (drive : Nat) (mount_path : String)
    (initResult : FatFsResult) (fsType : String) :
    Sound (state.mount drive mount_path initResult fsType).2 := by
  obtain ⟨first, dummy, dummies⟩ :=
    @mount_counters state drive mount_path initResult fsType
  have known : ∀ manager ∈ (state.mount drive mount_path initResult fsType).2.filesystems,
      manager ∈ state.filesystems ∨ manager = (state.createFileSystem drive mount_path).1 := by
    intro manager member
    rw [mount_filesystems] at member
    split at member
    · simpa using member
    · exact Or.inl member
  have room : (0 : Int) < kMaxNumFiles := by decide
  refine ⟨?_, ?_, ?_, ?_, ?_, ?_⟩
  · intro manager member
    rw [first]
    rcases known manager member with old | rfl
    · have := sound.below manager old
      omega
    · simp only [createFileSystem, FileManager.new]
      omega
  · intro manager member
    rcases known manager member with old | rfl
    · exact sound.above manager old
    · exact sound.first
  · rw [first]
    have := sound.first
    omega
  · rw [first, dummy]
  · rw [dummies]
    exact sound.positive
  · intro manager member
    rcases known manager member with old | rfl
    · exact sound.consistent manager old
    · exact .new _ drive mount_path

theorem noDummyInService_mount (sound : Sound state) (drive : Nat) (mount_path : String)
    (initResult : FatFsResult) (fsType : String) :
    NoDummyInService (state.mount drive mount_path initResult fsType).2 ↔
      NoDummyInService state ∧
        (initResult = .OK → ∀ fd ∈ state.dummyHandles, ¬InNextRange state 1 fd) := by
  have owns (fd : Int) :
      (state.createFileSystem drive mount_path).1.isHandleOwner fd = false ↔
        ¬InNextRange state 1 fd := by
    rw [← Bool.not_eq_true, isHandleOwner_iff sound.first]
    simp only [createFileSystem, FileManager.new, FileManager.InRange, InNextRange]
    omega
  rw [NoDummyInService, mount_filesystems, (mount_counters drive mount_path initResult fsType).2.2]
  by_cases ok : initResult = .OK
  · simp only [ok, ↓reduceIte, List.mem_append, List.mem_singleton, forall_const]
    constructor
    · intro separate
      exact ⟨fun manager member => separate manager (Or.inl member),
        fun fd dummy => (owns fd).mp (separate _ (Or.inr rfl) fd dummy)⟩
    · rintro ⟨separate, fresh⟩ manager (old | rfl) fd dummy
      · exact separate manager old fd dummy
      · exact (owns fd).mpr (fresh fd dummy)
  · simp only [ok, ↓reduceIte, false_implies, and_true]
    rfl

theorem mount_result (drive : Nat) (mount_path : String) (initResult : FatFsResult)
    (fsType : String) :
    (state.mount drive mount_path initResult fsType).1 =
      if initResult = .OK then .ok () else .error (initException initResult fsType) := by
  simp only [mount]
  by_cases ok : initResult = .OK
  · simp [ok]
  · simp [ok]

theorem noDummyInService_mountInMemory (sound : Sound state) (setup : Setup) (drive : Nat) :
    NoDummyInService (state.mountInMemory setup drive).2 ↔
      NoDummyInService state ∧
        (0 < setup.in_memory_size.toNat ∧ setup.in_memory_init = .OK →
          ∀ fd ∈ state.dummyHandles, ¬InNextRange state 1 fd) := by
  rw [mountInMemory]
  by_cases wanted : 0 < setup.in_memory_size.toNat
  · rw [if_pos wanted, noDummyInService_mount sound]
    simp only [wanted, true_and]
  · rw [if_neg wanted]
    simp only [wanted, false_and, false_implies, and_true]

theorem setupFileSystems_of_accepted {setup : Setup} (ok : accepted setup) :
    state.setupFileSystems setup = state.mountAll setup := by
  obtain ⟨⟨key, given, length⟩, small, large⟩ := ok
  simp only [setupFileSystems, given, length, ne_eq, not_true_eq_false, ↓reduceIte,
    not_lt.mpr small, not_lt.mpr large]

theorem setupFileSystems_of_not_accepted {setup : Setup} (refused : ¬accepted setup) :
    (state.setupFileSystems setup).2 = state := by
  rw [setupFileSystems]
  cases given : setup.encryption_key with
  | none => rfl
  | some key =>
      simp only
      split_ifs with short small large
      · rfl
      · rfl
      · rfl
      · exact absurd ⟨⟨key, given, not_not.mp short⟩, not_lt.mp small, not_lt.mp large⟩ refused

/-- What every mounting preserves, `setupFileSystems` preserves. -/
theorem setupFileSystems_preserves {P : Descriptors → Prop}
    (mounts : ∀ {state : Descriptors}, P state →
      ∀ drive mount_path initResult fsType, P (state.mount drive mount_path initResult fsType).2)
    (holds : P state) (setup : Setup) : P (state.setupFileSystems setup).2 := by
  have inMemory {state : Descriptors} (holds : P state) (drive : Nat) :
      P (state.mountInMemory setup drive).2 := by
    rw [mountInMemory]
    split_ifs
    · exact mounts holds drive _ _ _
    · exact holds
  by_cases ok : accepted setup
  · rw [setupFileSystems_of_accepted ok, mountAll]
    split_ifs with persistent failed
    · exact holds
    · have mounted := mounts holds 0 (getJniMountPath setup.persistent_mount_path)
        setup.persistent_init "persistent"
      simp only
      split
      · exact mounted
      · exact inMemory mounted 1
    · exact inMemory holds 0
  · rw [setupFileSystems_of_not_accepted ok]
    exact holds

theorem Sound.setupFileSystems (sound : Sound state) (setup : Setup) :
    Sound (state.setupFileSystems setup).2 :=
  setupFileSystems_preserves
    (fun sound drive mount_path initResult fsType => sound.mount drive mount_path initResult fsType)
    sound setup

theorem noDummyInService_setupFileSystems (sound : Sound state) (setup : Setup) :
    NoDummyInService (state.setupFileSystems setup).2 ↔
      NoDummyInService state ∧ FreshRanges state (.setupFileSystems setup) := by
  by_cases ok : accepted setup
  · rw [setupFileSystems_of_accepted ok, mountAll]
    by_cases persistent : 0 < setup.persistent_size.toNat
    · have sized : setup.persistent_size.toNat ≠ 0 := by omega
      rw [if_pos persistent]
      by_cases failed : setup.host_file_size = -1
      · simp [FreshRanges, servesPersistent, servesInMemory, failed, sized]
      · rw [if_neg failed]
        have mounted := sound.mount 0 (getJniMountPath setup.persistent_mount_path)
          setup.persistent_init "persistent"
        have persists := noDummyInService_mount sound 0
          (getJniMountPath setup.persistent_mount_path) setup.persistent_init "persistent"
        obtain ⟨first, -, dummies⟩ := @mount_counters state 0
          (getJniMountPath setup.persistent_mount_path) setup.persistent_init "persistent"
        simp only [mount_result]
        by_cases init : setup.persistent_init = .OK
        · rw [init] at first dummies mounted persists
          have behind (fd : Int) :
              InNextRange (state.mount 0 (getJniMountPath setup.persistent_mount_path)
                .OK "persistent").2 1 fd ↔
                InNextRange state 2 fd ∧ ¬InNextRange state 1 fd := by
            simp only [InNextRange, first, kMaxNumFiles]
            omega
          have within (fd : Int) (inside : InNextRange state 1 fd) : InNextRange state 2 fd := by
            simp only [InNextRange, kMaxNumFiles] at inside ⊢
            omega
          rw [if_pos init, init]
          simp only
          rw [noDummyInService_mountInMemory mounted, persists, dummies]
          simp only [behind, FreshRanges, servesPersistent, servesInMemory, ok, init, failed,
            persistent, true_and, ne_eq, not_false_eq_true, and_true, or_true, true_or,
            forall_const]
          constructor
          · rintro ⟨⟨separate, one⟩, two⟩
            refine ⟨separate, fun fd dummy => ⟨one fd dummy, fun both inside => ?_⟩⟩
            exact two both fd dummy ⟨inside, one fd dummy⟩
          · rintro ⟨separate, fresh⟩
            refine ⟨⟨separate, fun fd dummy => (fresh fd dummy).1⟩, fun both fd dummy => ?_⟩
            exact fun inside => (fresh fd dummy).2 both inside.1
        · rw [if_neg init]
          simp only
          rw [persists]
          simp [FreshRanges, servesPersistent, servesInMemory, init, sized]
    · have unsized : setup.persistent_size.toNat = 0 := by omega
      rw [if_neg persistent, noDummyInService_mountInMemory sound]
      simp only [FreshRanges, servesPersistent, servesInMemory, ok, unsized, lt_irrefl,
        false_and, and_false, false_or, true_and, true_or, and_true, false_implies]
      constructor
      · rintro ⟨separate, fresh⟩
        exact ⟨separate, fun fd dummy served => fresh served fd dummy⟩
      · rintro ⟨separate, fresh⟩
        exact ⟨separate, fun served fd dummy => fresh fd dummy served⟩
  · rw [setupFileSystems_of_not_accepted ok]
    simp [FreshRanges, servesPersistent, servesInMemory, ok]

/-! ## Opening and closing -/

theorem getElem?_of_getFatFsInstanceFromPath {path : Option String} {found : FileManager × Nat}
    (located : state.getFatFsInstanceFromPath path = some found) :
    state.filesystems[found.2]? = some found.1 := by
  cases path with
  | none => cases located
  | some path =>
      simp only [getFatFsInstanceFromPath] at located
      split_ifs at located
      · exact List.mem_zipIdx_iff_getElem?.mp
          (List.mem_of_mem_filter (List.mem_of_head? located))
      · exact List.mem_zipIdx_iff_getElem?.mp
          (List.mem_of_mem_filter (List.mem_of_find?_eq_some located))

theorem getElem?_of_getFatFsInstanceFromHandle {fd : Int} {found : FileManager × Nat}
    (located : state.getFatFsInstanceFromHandle fd = some found) :
    state.filesystems[found.2]? = some found.1 := by
  rw [getFatFsInstanceFromHandle] at located
  split_ifs at located
  exact List.mem_zipIdx_iff_getElem?.mp (List.mem_of_find?_eq_some located)

theorem of_getFatFsInstanceFromHandle {fd : Int} {found : FileManager × Nat}
    (located : state.getFatFsInstanceFromHandle fd = some found) :
    found.1 ∈ state.filesystems ∧ found.1.isHandleOwner fd := by
  refine ⟨List.mem_of_getElem? (getElem?_of_getFatFsInstanceFromHandle located), ?_⟩
  rw [getFatFsInstanceFromHandle] at located
  split_ifs at located
  have owner := List.find?_some located
  exact owner

/-- One file manager takes the place of another, with the same range of handles. -/
theorem Sound.set (sound : Sound state) {manager after : FileManager}
    (member : manager ∈ state.filesystems) (range : after.range = manager.range)
    (consistent : after.Consistent) (index : Nat) :
    Sound { state with filesystems := state.filesystems.set index after } := by
  have known : ∀ other ∈ state.filesystems.set index after,
      other ∈ state.filesystems ∨ other = after := fun other => List.mem_or_eq_of_mem_set
  refine ⟨?_, ?_, sound.first, sound.dummies, sound.positive, ?_⟩
  · intro other otherMember
    rcases known other otherMember with old | rfl
    · exact sound.below other old
    · rw [range]
      exact sound.below manager member
  · intro other otherMember
    rcases known other otherMember with old | rfl
    · exact sound.above other old
    · rw [range]
      exact sound.above manager member
  · intro other otherMember
    rcases known other otherMember with old | rfl
    · exact sound.consistent other old
    · exact consistent

theorem NoDummyInService.set (separate : NoDummyInService state) {manager after : FileManager}
    (member : manager ∈ state.filesystems) (range : after.range = manager.range) (index : Nat) :
    NoDummyInService { state with filesystems := state.filesystems.set index after } := by
  intro other otherMember fd dummy
  rcases List.mem_or_eq_of_mem_set otherMember with old | rfl
  · exact separate other old fd dummy
  · have owned := separate manager member fd dummy
    rw [FileManager.isHandleOwner] at owned ⊢
    rw [range]
    exact owned

/-- The calls other than `setupFileSystems` and `socketpair` leave the file systems as they are,
forget a dummy, or change the tables of one file system. -/
inductive Posix (state : Descriptors) : Descriptors → Prop where
  | unchanged : Posix state state
  | forgotten (fd : Int) :
      Posix state { state with dummyHandles := state.dummyHandles.erase fd }
  | managed {manager after : FileManager} {closed : Option Int} (index : Nat)
      (member : manager ∈ state.filesystems) (change : manager.Change closed after) :
      Posix state { state with filesystems := state.filesystems.set index after }

/-- Opening or closing a file does nothing, or changes the tables of the file system it finds. -/
inductive Managed (state : Descriptors) : Descriptors → Prop where
  | unchanged : Managed state state
  | managed {manager after : FileManager} {closed : Option Int} {index : Nat}
      (located : state.filesystems[index]? = some manager) (change : manager.Change closed after) :
      Managed state { state with filesystems := state.filesystems.set index after }

theorem Managed.posix {after : Descriptors} (managed : Managed state after) :
    Posix state after := by
  cases managed with
  | unchanged => exact .unchanged
  | managed located change => exact .managed _ (List.mem_of_getElem? located) change

theorem Sound.managed_open_impl (sound : Sound state) {path : Option String} {oflag : BitVec 32}
    {answers : OpenAnswers} (allowed : Allowed state (.open_impl path oflag answers)) :
    Managed state (state.open_impl path oflag answers).2 := by
  rw [Descriptors.open_impl]
  cases found : state.getFatFsInstanceFromPath path with
  | none => exact .unchanged
  | some file_system =>
      obtain ⟨file_manager, index⟩ := file_system
      have located := getElem?_of_getFatFsInstanceFromPath found
      have member := List.mem_of_getElem? located
      have permitted : file_manager.Allowed (.open path oflag answers) :=
        ⟨allowed.1, allowed.2 file_manager member⟩
      rcases (sound.consistent file_manager member).perform permitted with
        ⟨outcome, ran, change⟩ | ⟨threw, -⟩
      · rw [FileManager.perform] at ran
        simp only [ran]
        exact .managed located change
      · rw [FileManager.perform] at threw
        simp only [threw]
        exact .unchanged

theorem Sound.managed_close_impl (sound : Sound state) {fd : Int} (res : FRESULT)
    (file : ¬fd ≥ state.currentFirstAvailableHandle) :
    Managed state (state.close_impl fd res).2 := by
  rw [Descriptors.close_impl, if_neg file]
  cases found : state.getFatFsInstanceFromHandle fd with
  | none => exact .unchanged
  | some file_system =>
      obtain ⟨file_manager, index⟩ := file_system
      have located := getElem?_of_getFatFsInstanceFromHandle found
      have permitted : file_manager.Allowed (.close fd res) := trivial
      rcases (sound.consistent file_manager (List.mem_of_getElem? located)).perform permitted with
        ⟨outcome, ran, change⟩ | ⟨threw, -⟩
      · rw [FileManager.perform] at ran
        simp only [ran]
        exact .managed located change
      · rw [FileManager.perform] at threw
        simp only [threw]
        exact .unchanged

theorem Sound.close_impl (sound : Sound state) (fd : Int) (res : FRESULT) :
    Posix state (state.close_impl fd res).2 := by
  by_cases dummy : fd ≥ state.currentFirstAvailableHandle
  · rw [Descriptors.close_impl, if_pos dummy]
    exact .forgotten fd
  · exact (sound.managed_close_impl res dummy).posix

theorem Sound.posix (sound : Sound state) {after : Descriptors} (posix : Posix state after) :
    Sound after := by
  cases posix with
  | unchanged => exact sound
  | forgotten fd =>
      exact { sound with
        positive := fun other member => sound.positive other (Finset.mem_of_mem_erase member) }
  | managed index member change =>
      exact sound.set member change.range ((sound.consistent _ member).change change) index

theorem NoDummyInService.posix (separate : NoDummyInService state) {after : Descriptors}
    (posix : Posix state after) : NoDummyInService after := by
  cases posix with
  | unchanged => exact separate
  | forgotten fd =>
      intro manager member other dummy
      exact separate manager member other (Finset.mem_of_mem_erase dummy)
  | managed index member change => exact separate.set member change.range index

/-! ## Socket pairs -/

theorem Sound.socketpair_impl (sound : Sound state) : Sound state.socketpair_impl.2 := by
  have first := sound.first
  have dummies := sound.dummies
  refine ⟨sound.below, sound.above, sound.first, ?_, ?_, sound.consistent⟩
  · simp only [Descriptors.socketpair_impl]
    omega
  · intro fd member
    simp only [Descriptors.socketpair_impl, Finset.mem_insert] at member
    rcases member with rfl | rfl | old
    · omega
    · omega
    · exact sound.positive fd old

theorem NoDummyInService.socketpair_impl (separate : NoDummyInService state)
    (sound : Sound state) : NoDummyInService state.socketpair_impl.2 := by
  intro manager member fd dummy
  have below := sound.below manager member
  have dummies := sound.dummies
  simp only [Descriptors.socketpair_impl, Finset.mem_insert] at member dummy
  rcases dummy with rfl | rfl | old
  · rw [FileManager.isHandleOwner, decide_eq_false_iff_not]
    omega
  · rw [FileManager.isHandleOwner, decide_eq_false_iff_not]
    omega
  · exact separate manager member fd old

/-! ## Runs -/

theorem Sound.new : Sound Descriptors.new where
  below manager member := by cases member
  above manager member := by cases member
  first := by decide
  dummies := le_rfl
  positive fd member := by simp [Descriptors.new] at member
  consistent manager member := by cases member

theorem Sound.next (sound : Sound state) {call : PosixCall} (allowed : Allowed state call) :
    Sound (state.next call) := by
  cases call with
  | setupFileSystems setup => exact sound.setupFileSystems setup
  | socketpair_impl => exact sound.socketpair_impl
  | open_impl path oflag answers => exact sound.posix (sound.managed_open_impl allowed).posix
  | close_impl fd res => exact sound.posix (sound.close_impl fd res)

theorem noDummyInService_next (separate : NoDummyInService state) (sound : Sound state)
    {call : PosixCall} (allowed : Allowed state call) :
    FreshRanges state call ↔ NoDummyInService (state.next call) := by
  cases call with
  | setupFileSystems setup =>
      rw [next, noDummyInService_setupFileSystems sound]
      exact (and_iff_right separate).symm
  | socketpair_impl => exact iff_of_true trivial (separate.socketpair_impl sound)
  | open_impl path oflag answers =>
      exact iff_of_true trivial (separate.posix (sound.managed_open_impl allowed).posix)
  | close_impl fd res => exact iff_of_true trivial (separate.posix (sound.close_impl fd res))

theorem NoDummyInService.separate (none_served : NoDummyInService state) (sound : Sound state) :
    Separate state := by
  have owned {manager : FileManager} (member : manager ∈ state.filesystems) {fd : Int}
      (is_open : fd ∈ manager.files_.keys) : FileManager.InRange manager.range fd := by
    obtain ⟨fil, found⟩ := Option.isSome_iff_exists.mp (AList.lookup_isSome.mpr is_open)
    exact (sound.consistent manager member).in_range fd fil found
  have foreign {manager : FileManager} (member : manager ∈ state.filesystems) {fd : Int}
      (dummy : fd ∈ state.dummyHandles) : ¬FileManager.InRange manager.range fd := by
    rw [← isHandleOwner_iff (sound.above manager member), none_served manager member fd dummy]
    exact Bool.false_ne_true
  refine ⟨?_, ?_, ?_, ?_, ?_⟩
  · intro manager member fd dummy
    apply Option.eq_none_iff_forall_ne_some.mpr
    intro fil found
    exact foreign member dummy ((sound.consistent manager member).in_range fd fil found)
  · intro path oflag answers fd returned dummy
    have negative : (-1 : Int) ∉ state.dummyHandles := fun member => by
      have := sound.positive (-1) member
      omega
    rw [Descriptors.open_impl] at returned
    cases located : state.getFatFsInstanceFromPath path with
    | none =>
        rw [located] at returned
        cases returned
        exact negative dummy
    | some found =>
        obtain ⟨file_manager, index⟩ := found
        have member := List.mem_of_getElem? (getElem?_of_getFatFsInstanceFromPath located)
        rw [located] at returned
        simp only at returned
        cases opened : file_manager.open path oflag answers with
        | error e =>
            rw [opened] at returned
            cases returned
        | ok outcome =>
            rw [opened] at returned
            cases returned
            rcases (sound.consistent file_manager member).open_returned opened with failed | inside
            · exact negative (failed ▸ dummy)
            · exact foreign member dummy inside
  · intro manager member handle is_open
    have inside := owned member is_open
    have below := sound.below manager member
    have dummies := sound.dummies
    unfold FileManager.InRange at inside
    simp only [Descriptors.socketpair_impl]
    omega
  · intro fd dummy res
    rw [Descriptors.close_impl]
    split_ifs
    · rfl
    · cases located : state.getFatFsInstanceFromHandle fd with
      | none => rfl
      | some found =>
          obtain ⟨member, owner⟩ := of_getFatFsInstanceFromHandle located
          rw [none_served found.1 member fd dummy] at owner
          cases owner
  · intro manager member fd is_open res
    have inside := owned member is_open
    have below := sound.below manager member
    have threshold : ¬fd ≥ state.currentFirstAvailableHandle := by
      unfold FileManager.InRange at inside
      omega
    rw [Descriptors.close_impl, if_neg threshold]
    cases located : state.getFatFsInstanceFromHandle fd with
    | none => rfl
    | some found =>
        obtain ⟨file_manager, index⟩ := found
        simp only
        split <;> rfl

/-- No dummy lies in a range that a file system serves, all along a run, exactly if no file system
is put into service with a range in which one does. -/
theorem always_noDummyInService_iff {calls : List PosixCall} {final : Descriptors}
    (allowed : Meets step Allowed .new calls) (ran : run step .new calls = some final) :
    Always step NoDummyInService .new calls ↔ Meets step FreshRanges .new calls := by
  have start : NoDummyInService .new := fun manager member => by cases member
  refine (meets_iff_always ?_ ?_ Sound.new start allowed ran).symm
  · intro state call next sound allowed stepped
    simp only [step, Option.ite_none_right_eq_some, Option.some.injEq] at stepped
    rw [← stepped.2]
    exact sound.next allowed
  · intro state call next sound allowed separate stepped
    simp only [step, Option.ite_none_right_eq_some, Option.some.injEq] at stepped
    rw [← stepped.2]
    exact noDummyInService_next separate sound allowed

/-- A fresh range for each file system is enough for dummies and files to be kept apart. -/
theorem separate_of_freshRanges {calls : List PosixCall}
    (allowed : Meets step Allowed .new calls) (fresh : Meets step FreshRanges .new calls) :
    Always step Separate .new calls := by
  have kept : ∀ {state call next}, Sound state ∧ NoDummyInService state →
      Allowed state call ∧ FreshRanges state call → step state call = some next →
      Sound next ∧ NoDummyInService next := by
    intro state call next ⟨sound, none_served⟩ ⟨allowed, fresh⟩ stepped
    simp only [step, Option.ite_none_right_eq_some, Option.some.injEq] at stepped
    rw [← stepped.2]
    exact ⟨sound.next allowed, (noDummyInService_next none_served sound allowed).mp fresh⟩
  have start : Sound .new ∧ NoDummyInService .new :=
    ⟨.new, fun manager member => by cases member⟩
  refine always_of_meets kept ?_ start (allowed.and fresh)
  intro state ⟨sound, none_served⟩
  exact none_served.separate sound

/-- Dummies and files are kept apart all along a run exactly if each file system that is put into
service takes a range in which no dummy is in use. -/
theorem always_separate_iff {calls : List PosixCall} {final : Descriptors}
    (allowed : Meets step Allowed .new calls) (ran : run step .new calls = some final) :
    Always step (fun state => NoDummyInService state ∧ Separate state) .new calls ↔
      Meets step FreshRanges .new calls := by
  rw [always_and, always_noDummyInService_iff allowed ran]
  exact and_iff_left_of_imp (separate_of_freshRanges allowed)

def inMemoryOnly : Setup where
  in_memory_size := 1048576
  persistent_size := 0
  in_memory_mount_path := "/"
  persistent_mount_path := "/"
  encryption_key := some (List.replicate 16 0)
  host_file_size := 0
  persistent_init := .OK
  in_memory_init := .OK

def setupFirst : List PosixCall :=
  [.setupFileSystems inMemoryOnly, .socketpair_impl,
    .open_impl (some "/f") (O_RDWR ||| O_CREAT) ⟨.FR_OK, 16, .FR_OK⟩,
    .close_impl 600000 .FR_OK, .close_impl 100000 .FR_OK]

theorem always_separate_setupFirst :
    Always step (fun state => NoDummyInService state ∧ Separate state) .new setupFirst := by
  refine (always_separate_iff ?_ rfl).mpr ?_
  · refine .cons trivial rfl (.cons trivial rfl (.cons ⟨by decide, ?_⟩ rfl
      (.cons trivial rfl (.cons trivial rfl trivial))))
    intro manager member
    rw [List.mem_singleton.mp member]
    exact FileManager.fresh_of_entries rfl
  · refine .cons ?_ rfl (.cons trivial rfl (.cons trivial rfl
      (.cons trivial rfl (.cons trivial rfl trivial))))
    intro fd dummy
    simp [new] at dummy

/-- The file system is set up after the socket pair, and its first file gets the descriptor of a
dummy that is still open. -/
theorem dummy_opened_as_file :
    ¬∀ (calls : List PosixCall) (final : Descriptors), Meets step Allowed .new calls →
      run step .new calls = some final → Separate final := by
  intro holds
  have separate := holds [.socketpair_impl, .setupFileSystems inMemoryOnly] _
    (.cons trivial rfl (.cons trivial rfl trivial)) rfl
  have fresh := separate.opens (some "/f") (O_RDWR ||| O_CREAT) ⟨.FR_OK, 16, .FR_OK⟩ 100000 rfl
  exact fresh (by decide)

end Descriptors

end Conclave.Filesystem
