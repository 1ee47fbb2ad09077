import ConclaveFormal.Filesystem.HandleRanges
import ConclaveFormal.Filesystem.OpenFiles

/-!
# Calls on descriptors that are not open

A call goes to the file system in whose range its descriptor lies, whether the descriptor is open
there or not, and each call has a way of its own to tell.
-/

set_option autoImplicit false

namespace Conclave.Filesystem

open Conclave.Lib

/-! ## Replacement of Posix calls -/

inductive Crash where
  | nullDereference
  | assertion
  deriving DecidableEq, Repr

structure EnclaveFiles extends Descriptors where
  objects : FIL → FileObject

structure ImplOutcome where
  returned : Except Crash Int
  err : Option IoErrno
  state : EnclaveFiles

namespace EnclaveFiles

/-- What the replacements have in common, where they differ in what they do without a file
system. -/
def viaHandle (state : EnclaveFiles) (fd : Int) (unowned : Except Crash Int)
    (err : Option IoErrno) (call : OpenFiles → IoOutcome) : ImplOutcome :=
  match state.getFatFsInstanceFromHandle fd with
  | none => ⟨unowned, err, state⟩
  | some (file_manager, _) =>
      let out := call ⟨file_manager, state.objects⟩
      ⟨.ok out.returned, out.err, { state with objects := out.files.objects }⟩

def read_impl (state : EnclaveFiles) (fd : Int) (buf_null : Bool) (count : BitVec 64)
    (answer : TransferAnswer) : ImplOutcome :=
  state.viaHandle fd (.ok (-1)) none fun files => files.read fd buf_null count answer

/-- There is no check that a file system has been found. -/
def pread_impl (state : EnclaveFiles) (fd : Int) (buf_null : Bool) (count offset : BitVec 64)
    (seek : SeekAnswer) (answer : TransferAnswer) : ImplOutcome :=
  state.viaHandle fd (.error .nullDereference) none fun files =>
    files.pread fd buf_null count offset seek answer

def lseek64_impl (state : EnclaveFiles) (fd : Int) (offset : BitVec 64) (whence : Int)
    (answer : SeekAnswer) : ImplOutcome :=
  state.viaHandle fd (.ok (-1)) none fun files => files.lseek fd offset whence answer

def write_impl (state : EnclaveFiles) (fd : Int) (count : BitVec 64) (answer : TransferAnswer) :
    ImplOutcome :=
  state.viaHandle fd (.ok (-1)) none fun files => files.write fd count answer

def pwrite_impl (NDEBUG : Bool) (state : EnclaveFiles) (fd : Int) (buf_null : Bool)
    (count offset : BitVec 64) (seek : SeekAnswer) (answer : TransferAnswer) : ImplOutcome :=
  if NDEBUG = false ∧ INT_MAX < count.toNat then ⟨.error .assertion, none, state⟩
  else
    state.viaHandle fd (.ok (-1)) none fun files =>
      files.pwrite fd buf_null count offset seek answer

def fxstat64_impl (state : EnclaveFiles) (fd : Int) (stat : Stat) : ImplOutcome :=
  state.viaHandle fd (.ok (-1)) none fun files => files.fstat fd stat

def ftruncate_impl (state : EnclaveFiles) (fd : Int) (offset : BitVec 64) (seek : SeekAnswer)
    (answer : TruncateAnswer) : ImplOutcome :=
  state.viaHandle fd (.ok (-1)) (some .EBADF) fun files => files.ftruncate fd offset seek answer

def fchown_impl (state : EnclaveFiles) (fd : Int) (owner group : BitVec 32) : ImplOutcome :=
  state.viaHandle fd (.ok (-1)) (some .EBADF) fun files => files.fchown fd owner group

def fchmod_impl (state : EnclaveFiles) (fd : Int) (mode : BitVec 32) : ImplOutcome :=
  state.viaHandle fd (.ok (-1)) (some .EBADF) fun files => files.fchmod fd mode

end EnclaveFiles

/-- A call on a descriptor. -/
inductive IoCall where
  | read (buf_null : Bool) (count : BitVec 64) (answer : TransferAnswer)
  | pread (buf_null : Bool) (count offset : BitVec 64) (seek : SeekAnswer)
      (answer : TransferAnswer)
  | write (buf_null : Bool) (count : BitVec 64) (answer : TransferAnswer)
  | pwrite (buf_null : Bool) (count offset : BitVec 64) (seek : SeekAnswer)
      (answer : TransferAnswer)
  | lseek64 (offset : BitVec 64) (whence : Int) (answer : SeekAnswer)
  | ftruncate (offset : BitVec 64) (seek : SeekAnswer) (answer : TruncateAnswer)
  | fstat (stat : Stat)
  | fchmod (mode : BitVec 32)
  | fchown (owner group : BitVec 32)
  deriving DecidableEq

namespace IoCall

/-- The bytes to be transferred, if any. -/
def Proper : IoCall → Prop
  | .read buf_null count _ | .write buf_null count _ => ¬buf_null ∧ count ≠ 0
  | .pread buf_null count _ _ _ | .pwrite buf_null count _ _ _ => ¬buf_null ∧ count ≠ 0
  | _ => True

/-- FatFs fails to transfer bytes, or to seek the place where they are to be transferred. -/
def Fails (fp : FileObject) : IoCall → Prop
  | .read _ count answer => (fp.f_read (count.setWidth 32) answer).1 ≠ .FR_OK
  | .write _ count answer => (fp.f_write (count.setWidth 32) answer).1 ≠ .FR_OK
  | .pread _ count offset seek answer =>
      let sought := fp.f_lseek (offset.setWidth 32) seek
      sought.1 ≠ .FR_OK ∨ (sought.2.f_read (count.setWidth 32) answer).1 ≠ .FR_OK
  | .pwrite _ count offset seek answer =>
      let sought := fp.f_lseek (offset.setWidth 32) seek
      sought.1 ≠ .FR_OK ∨ (sought.2.f_write (count.setWidth 32) answer).1 ≠ .FR_OK
  | _ => False

end IoCall

namespace EnclaveFiles

def io (NDEBUG : Bool) (state : EnclaveFiles) (fd : Int) : IoCall → ImplOutcome
  | .read buf_null count answer => state.read_impl fd buf_null count answer
  | .pread buf_null count offset seek answer =>
      state.pread_impl fd buf_null count offset seek answer
  | .write _ count answer => state.write_impl fd count answer
  | .pwrite buf_null count offset seek answer =>
      pwrite_impl NDEBUG state fd buf_null count offset seek answer
  | .lseek64 offset whence answer => state.lseek64_impl fd offset whence answer
  | .ftruncate offset seek answer => state.ftruncate_impl fd offset seek answer
  | .fstat stat => state.fxstat64_impl fd stat
  | .fchmod mode => state.fchmod_impl fd mode
  | .fchown owner group => state.fchown_impl fd owner group

/-! ## Runs -/

def new (objects : FIL → FileObject) : EnclaveFiles where
  toDescriptors := Descriptors.new
  objects := objects

/-- The calls that manage descriptors, those that use one, and what the other calls do to the
tables of a file system.  A file that is opened fills an object. -/
inductive Call where
  | posix (call : PosixCall) (fp : FileObject)
  | io (fd : Int) (call : IoCall)
  | file (index : Nat) (operation : FileOperation) (fp : FileObject)

def openedObject : FileOperation → Option FIL
  | .open _ _ answers | .fopen _ _ answers => some answers.fil_ptr
  | _ => none

def fill (objects : FIL → FileObject) (fil_ptr : Option FIL) (fp : FileObject) :
    FIL → FileObject :=
  match fil_ptr with
  | none => objects
  | some fil_ptr => Function.update objects fil_ptr fp

def step (NDEBUG : Bool) (state : EnclaveFiles) : Call → Option EnclaveFiles
  | .posix call fp =>
      (state.toDescriptors.step call).map fun descriptors =>
        ⟨descriptors,
          match call with
          | .open_impl _ _ answers => fill state.objects (some answers.fil_ptr) fp
          | _ => state.objects⟩
  | .io fd call => some (state.io NDEBUG fd call).state
  | .file index operation fp =>
      match state.filesystems[index]? with
      | none => some state
      | some manager =>
          some { state with
            filesystems := state.filesystems.set index (manager.next operation)
            objects := fill state.objects (openedObject operation) fp }

def Allowed (state : EnclaveFiles) : Call → Prop
  | .posix call _ => state.toDescriptors.Allowed call
  | .io _ _ => True
  | .file index operation _ => ∀ manager, state.filesystems[index]? = some manager →
      manager.Allowed operation

/-- What holds of the file systems in every run. -/
structure InOrder (state : EnclaveFiles) : Prop where
  sound : state.toDescriptors.Sound
  ascending : state.toDescriptors.Ascending

theorem InOrder.new (objects : FIL → FileObject) : InOrder (new objects) :=
  ⟨Descriptors.Sound.new, Descriptors.Ascending.new⟩

variable {NDEBUG : Bool} {state next : EnclaveFiles} {fd : Int} {call : IoCall}

theorem viaHandle_descriptors (unowned : Except Crash Int) (err : Option IoErrno)
    (on : OpenFiles → IoOutcome) :
    (state.viaHandle fd unowned err on).state.toDescriptors = state.toDescriptors := by
  rw [viaHandle]
  cases state.getFatFsInstanceFromHandle fd with
  | none => rfl
  | some found => rfl

theorem io_descriptors : (state.io NDEBUG fd call).state.toDescriptors = state.toDescriptors := by
  cases call with
  | pwrite buf_null count offset seek answer =>
      rw [io, pwrite_impl]
      split_ifs
      · rfl
      · exact viaHandle_descriptors _ _ _
  | read | pread | write | lseek64 | ftruncate | fstat | fchmod | fchown =>
      exact viaHandle_descriptors _ _ _

theorem InOrder.step (inOrder : InOrder state) {input : Call} (allowed : state.Allowed input)
    (stepped : state.step NDEBUG input = some next) : InOrder next := by
  obtain ⟨sound, ascending⟩ := inOrder
  cases input with
  | posix call fp =>
      obtain ⟨descriptors, moved, rfl⟩ := Option.map_eq_some_iff.mp stepped
      rw [Descriptors.step] at moved
      split_ifs at moved
      cases moved
      exact ⟨sound.next allowed, ascending.next sound allowed⟩
  | io fd call =>
      cases stepped
      refine ⟨?_, ?_⟩
      · rw [io_descriptors]
        exact sound
      · rw [io_descriptors]
        exact ascending
  | file index operation fp =>
      simp only [EnclaveFiles.step] at stepped
      cases located : state.filesystems[index]? with
      | none =>
          rw [located] at stepped
          cases stepped
          exact ⟨sound, ascending⟩
      | some manager =>
          rw [located] at stepped
          cases stepped
          have member := List.mem_of_getElem? located
          have consistent := sound.consistent manager member
          have range := (consistent.change_of_step (allowed manager located)).range
          refine ⟨sound.set member range (consistent.next (allowed manager located)) index, ?_⟩
          have same := Descriptors.ranges_set located range
          rw [Descriptors.Ascending, Descriptors.ranges]
          exact same.symm ▸ ascending

/-! ## Rejected calls -/

/-- A call on a descriptor that is not open fails and changes nothing, and one whose transfer fails
does not return a number of bytes. -/
def Rejects (NDEBUG : Bool) (state : EnclaveFiles) (fd : Int) (call : IoCall) : Prop :=
  (¬state.IsOpen fd →
    (state.io NDEBUG fd call).returned = .ok (-1) ∧ (state.io NDEBUG fd call).state = state) ∧
  ∀ manager ∈ state.filesystems, ∀ fil, manager.files_.lookup fd = some fil →
    call.Fails (state.objects fil) → (state.io NDEBUG fd call).returned = .ok (-1)

/-- A file system has the descriptor in its range. -/
def Owned (state : EnclaveFiles) (fd : Int) : Prop :=
  ∃ manager ∈ state.filesystems, manager.isHandleOwner fd

/-- The call can tell that the descriptor is not open. -/
def Notices (NDEBUG : Bool) (state : EnclaveFiles) (fd : Int) : IoCall → Prop
  | .write _ _ _ => ¬state.Owned fd
  | .lseek64 offset whence _ => ¬(state.Owned fd ∧ whence = SEEK_CUR ∧ offset = 0)
  | .pread _ _ _ _ _ => state.Owned fd
  | .pwrite _ count _ _ _ => NDEBUG ∨ count.toNat ≤ INT_MAX
  | _ => True

/-- What the calls do when there is no file system. -/
def unowned : IoCall → Except Crash Int
  | .pread _ _ _ _ _ => .error .nullDereference
  | _ => .ok (-1)

def unownedErr : IoCall → Option IoErrno
  | .ftruncate _ _ _ | .fchmod _ | .fchown _ _ => some .EBADF
  | _ => none

/-- What they do in the file system that there is. -/
def on (files : OpenFiles) (fd : Int) : IoCall → IoOutcome
  | .read buf_null count answer => files.read fd buf_null count answer
  | .pread buf_null count offset seek answer => files.pread fd buf_null count offset seek answer
  | .write _ count answer => files.write fd count answer
  | .pwrite buf_null count offset seek answer => files.pwrite fd buf_null count offset seek answer
  | .lseek64 offset whence answer => files.lseek fd offset whence answer
  | .ftruncate offset seek answer => files.ftruncate fd offset seek answer
  | .fstat stat => files.fstat fd stat
  | .fchmod mode => files.fchmod fd mode
  | .fchown owner group => files.fchown fd owner group

def Asserts (NDEBUG : Bool) : IoCall → Prop
  | .pwrite _ count _ _ _ => NDEBUG = false ∧ INT_MAX < count.toNat
  | _ => False

theorem io_of_asserts (asserts : Asserts NDEBUG call) :
    state.io NDEBUG fd call = ⟨.error .assertion, none, state⟩ := by
  cases call with
  | pwrite buf_null count offset seek answer =>
      rw [io, pwrite_impl]
      exact if_pos asserts
  | read | pread | write | lseek64 | ftruncate | fstat | fchmod | fchown => cases asserts

theorem io_of_not_asserts (passes : ¬Asserts NDEBUG call) :
    state.io NDEBUG fd call =
      state.viaHandle fd (unowned call) (unownedErr call) fun files => on files fd call := by
  cases call with
  | pwrite buf_null count offset seek answer =>
      rw [io, pwrite_impl]
      exact if_neg passes
  | read | pread | write | lseek64 | ftruncate | fstat | fchmod | fchown => rfl

/-- On a descriptor that is not open nothing is done, and all but two kinds of calls say so. -/
theorem on_closed {files : OpenFiles} (consistent : files.toFileManager.Consistent)
    (closed : files.files_.lookup fd = none) (proper : call.Proper) :
    (on files fd call).files = files ∧
      ((on files fd call).returned = -1 ↔
        match call with
        | .write _ _ _ => False
        | .lseek64 offset whence _ => ¬(whence = SEEK_CUR ∧ offset = 0)
        | _ => True) := by
  cases call with
  | read buf_null count answer =>
      have asks : ¬(buf_null = true ∨ count = 0) := not_or.mpr proper
      rw [on, OpenFiles.read, if_neg asks, closed]
      exact ⟨rfl, iff_of_true rfl trivial⟩
  | pread buf_null count offset seek answer =>
      have asks : ¬(count = 0 ∨ buf_null = true) := not_or.mpr proper.symm
      rw [on, OpenFiles.pread, if_neg asks, closed]
      exact ⟨rfl, iff_of_true rfl trivial⟩
  | write buf_null count answer =>
      rw [on, OpenFiles.write, closed]
      exact ⟨rfl, iff_of_false (by simp) id⟩
  | pwrite buf_null count offset seek answer =>
      have asks : ¬(count = 0 ∨ buf_null = true) := not_or.mpr proper.symm
      rw [on, OpenFiles.pwrite, if_neg asks, closed]
      exact ⟨rfl, iff_of_true rfl trivial⟩
  | lseek64 offset whence answer =>
      rw [on, OpenFiles.lseek, OpenFiles.lseekInternal]
      by_cases idle : whence = SEEK_CUR ∧ offset = 0
      · rw [if_pos idle]
        exact ⟨rfl, iff_of_false (by simp) (not_not_intro idle)⟩
      · rw [if_neg idle, closed]
        exact ⟨rfl, iff_of_true rfl idle⟩
  | ftruncate offset seek answer =>
      have moves : ¬(SEEK_SET = SEEK_CUR ∧ offset = 0) := fun both => absurd both.1 (by decide)
      rw [on, OpenFiles.ftruncate, OpenFiles.lseekInternal, if_neg moves, closed]
      exact ⟨rfl, iff_of_true rfl trivial⟩
  | fstat stat =>
      have pathless : files.inverse_file_paths_.lookup fd = none := by
        rw [← Option.not_isSome_iff_eq_none, ← consistent.pathed, closed]
        simp
      rw [on, OpenFiles.fstat, pathless]
      exact ⟨rfl, iff_of_true rfl trivial⟩
  | fchmod mode =>
      rw [on, OpenFiles.fchmod, OpenFiles.changeNothing, closed]
      exact ⟨rfl, iff_of_true rfl trivial⟩
  | fchown owner group =>
      rw [on, OpenFiles.fchown, OpenFiles.changeNothing, closed]
      exact ⟨rfl, iff_of_true rfl trivial⟩

theorem owned_of_located {found : FileManager × Nat}
    (located : state.getFatFsInstanceFromHandle fd = some found) : state.Owned fd :=
  ⟨found.1, Descriptors.of_getFatFsInstanceFromHandle located⟩

theorem not_owned_of_none (located : state.getFatFsInstanceFromHandle fd = none) :
    ¬state.Owned fd := by
  rintro ⟨manager, member, owner⟩
  obtain ⟨found, there⟩ := Descriptors.exists_getFatFsInstanceFromHandle member owner
  rw [located] at there
  cases there

theorem release_or_small {count : BitVec 64}
    (passes : ¬(NDEBUG = false ∧ INT_MAX < (count.toNat : Int))) :
    NDEBUG ∨ (count.toNat : Int) ≤ INT_MAX := by
  rcases Bool.eq_false_or_eq_true NDEBUG with release | debug
  · exact Or.inl release
  · exact Or.inr (not_lt.mp fun large => passes ⟨debug, large⟩)

theorem io_closed_iff (inOrder : InOrder state) (closed : ¬state.IsOpen fd)
    (proper : call.Proper) :
    ((state.io NDEBUG fd call).returned = .ok (-1) ∧ (state.io NDEBUG fd call).state = state) ↔
      Notices NDEBUG state fd call := by
  by_cases asserts : Asserts NDEBUG call
  · rw [io_of_asserts asserts]
    refine iff_of_false (by simp) ?_
    cases call with
    | pwrite buf_null count offset seek answer =>
        obtain ⟨build, large⟩ := asserts
        rintro (release | small)
        · rw [build] at release
          cases release
        · omega
    | read | pread | write | lseek64 | ftruncate | fstat | fchmod | fchown => cases asserts
  · rw [io_of_not_asserts asserts, viaHandle]
    cases located : state.getFatFsInstanceFromHandle fd with
    | none =>
        have foreign := not_owned_of_none located
        simp only [and_true]
        cases call with
        | pread buf_null count offset seek answer =>
            exact iff_of_false (by simp [unowned]) foreign
        | write buf_null count answer => exact iff_of_true rfl foreign
        | lseek64 offset whence answer => exact iff_of_true rfl fun both => foreign both.1
        | pwrite buf_null count offset seek answer =>
            exact iff_of_true rfl (release_or_small asserts)
        | read | ftruncate | fstat | fchmod | fchown => exact iff_of_true rfl trivial
    | some found =>
        obtain ⟨manager, index⟩ := found
        have owned := owned_of_located located
        have member := (Descriptors.of_getFatFsInstanceFromHandle located).1
        have unopened : manager.files_.lookup fd = none := by
          rw [← Option.not_isSome_iff_eq_none]
          exact fun opened => closed ⟨manager, member, opened⟩
        obtain ⟨same, returned⟩ := @on_closed fd call ⟨manager, state.objects⟩
          (inOrder.sound.consistent manager member) unopened proper
        simp only [same, and_true, Except.ok.injEq, returned]
        cases call with
        | pread buf_null count offset seek answer => exact iff_of_true trivial owned
        | write buf_null count answer => exact iff_of_false id (not_not_intro owned)
        | lseek64 offset whence answer =>
            exact not_congr (and_iff_right owned).symm
        | pwrite buf_null count offset seek answer =>
            exact iff_of_true trivial (release_or_small asserts)
        | read | ftruncate | fstat | fchmod | fchown => exact iff_of_true trivial trivial

theorem on_failed {files : OpenFiles} {fil : FIL} (opened : files.files_.lookup fd = some fil)
    (proper : call.Proper) (fails : call.Fails (files.objects fil)) :
    (on files fd call).returned = 0 := by
  cases call with
  | read buf_null count answer =>
      have asks : ¬(buf_null = true ∨ count = 0) := not_or.mpr proper
      rw [on, OpenFiles.read, if_neg asks, opened]
      exact if_neg fails
  | write buf_null count answer =>
      rw [on, OpenFiles.write, opened]
      exact if_neg fails
  | pread buf_null count offset seek answer =>
      have asks : ¬(count = 0 ∨ buf_null = true) := not_or.mpr proper.symm
      rw [on, OpenFiles.pread, if_neg asks, opened]
      simp only
      split_ifs with failed
      · rfl
      · have transfer := fails.resolve_left failed
        simp only [OpenFiles.readAt, OpenFiles.objects_setObject]
        exact if_neg transfer
  | pwrite buf_null count offset seek answer =>
      have asks : ¬(count = 0 ∨ buf_null = true) := not_or.mpr proper.symm
      rw [on, OpenFiles.pwrite, if_neg asks, opened]
      simp only [OpenFiles.lseekInternal_set opened]
      by_cases sought : ((files.objects fil).f_lseek (offset.setWidth 32) seek).1 = .FR_OK
      · have transfer := fails.resolve_left (not_not_intro sought)
        rw [if_pos sought, if_neg (by decide)]
        simp only [OpenFiles.writeAt, OpenFiles.objects_setObject]
        exact if_neg transfer
      · rw [if_neg sought, if_pos rfl]
  | lseek64 | ftruncate | fstat | fchmod | fchown => cases fails

theorem io_failed (inOrder : InOrder state) {manager : FileManager}
    (member : manager ∈ state.filesystems) {fil : FIL}
    (opened : manager.files_.lookup fd = some fil) (proper : call.Proper)
    (fails : call.Fails (state.objects fil)) :
    (state.io NDEBUG fd call).returned ≠ .ok (-1) := by
  by_cases asserts : Asserts NDEBUG call
  · rw [io_of_asserts asserts]
    simp
  · obtain ⟨index, located⟩ := Descriptors.getFatFsInstanceFromHandle_of_open inOrder.sound
      inOrder.ascending member opened
    have returned := @on_failed fd call ⟨manager, state.objects⟩ fil opened proper fails
    rw [io_of_not_asserts asserts, viaHandle, located]
    simp [returned]

/-- A call that is proper is rejected exactly if it can tell that its descriptor is not open and
FatFs does not fail on one that is. -/
theorem rejects_iff {objects : FIL → FileObject} {inputs : List Call}
    (allowed : Meets (step NDEBUG) Allowed (new objects) inputs)
    (reached : run (step NDEBUG) (new objects) inputs = some state) (fd : Int)
    (proper : call.Proper) :
    Rejects NDEBUG state fd call ↔
      (¬state.IsOpen fd → Notices NDEBUG state fd call) ∧
        ∀ manager ∈ state.filesystems, ∀ fil, manager.files_.lookup fd = some fil →
          ¬call.Fails (state.objects fil) := by
  have inOrder : InOrder state :=
    run_invariant_of_meets (fun inOrder allowed stepped => inOrder.step allowed stepped)
      (.new objects) allowed reached
  refine and_congr ?_ ?_
  · exact forall_congr' fun closed => io_closed_iff inOrder closed proper
  · refine forall₄_congr fun manager member fil opened => ?_
    constructor
    · intro rejects fails
      exact io_failed inOrder member opened proper fails (rejects fails)
    · intro works fails
      exact absurd fails works

def blank : FileObject := ⟨0, 0, FA_READ ||| FA_WRITE, .FR_OK⟩

def justSetUp : List Call := [.posix (.setupFileSystems Descriptors.inMemoryOnly) blank]

/-- An in-memory file system, which has the handles from 100000 on. -/
def mounted : EnclaveFiles where
  toDescriptors := (Descriptors.new.setupFileSystems Descriptors.inMemoryOnly).2
  objects := fun _ => blank

theorem allowed_justSetUp :
    Meets (step true) Allowed (new fun _ => blank) justSetUp := .cons trivial rfl trivial

theorem reached_mounted : run (step true) (new fun _ => blank) justSetUp = some mounted := rfl

theorem closed_mounted (fd : Int) : ¬mounted.IsOpen fd := by
  rintro ⟨manager, member, opened⟩
  rw [List.mem_singleton.mp member] at opened
  cases opened

def goesWell : TransferAnswer := ⟨.FR_OK, none⟩

theorem rejects_readClosed : Rejects true mounted 100000 (.read false 1 goesWell) := by
  have proper : (IoCall.read false 1 goesWell).Proper := ⟨by decide, by decide⟩
  refine (rejects_iff allowed_justSetUp reached_mounted 100000 proper).mpr ⟨fun _ => trivial, ?_⟩
  intro manager member fil opened fails
  have works : (blank.f_read 1 goesWell).1 = .FR_OK := by decide
  exact fails works

/-- A byte is reported as written to a file that is not open. -/
theorem write_to_closed :
    ¬∀ (NDEBUG : Bool) (objects : FIL → FileObject) (inputs : List Call) (state : EnclaveFiles)
      (fd : Int) (call : IoCall), Meets (step NDEBUG) Allowed (new objects) inputs →
        run (step NDEBUG) (new objects) inputs = some state → call.Proper →
          Rejects NDEBUG state fd call := by
  intro stated
  have proper : (IoCall.write false 1 goesWell).Proper := ⟨by decide, by decide⟩
  have rejected := stated true (fun _ => blank) justSetUp mounted 100000 _ allowed_justSetUp
    reached_mounted proper
  have returned := (rejected.1 (closed_mounted 100000)).1
  cases returned

end EnclaveFiles

end Conclave.Filesystem
