import ConclaveFormal.Filesystem.FileOperations

/-!
# Lock discipline

`dup2` closes a descriptor by the public operation, which locks the mutex that `dup2` has already.
No other operation does so, and a thread that does waits for ever, as does every thread that comes
to lock the mutex after it.
-/

set_option autoImplicit false

namespace Conclave.Filesystem

open Conclave.Lib Program

/-! ## The public operations -/

inductive PublicOperation where
  | getMountPath
  | init (res_disk_start : FatFsResult) (res : FRESULT)
  | isPathOwner (path : String)
  | isHandleOwner (handle : Int)
  | isDirOwner (dir : DIR)
  | isDirOpen (path : String)
  | isFileOpen (path : String)
  | isFileInDirOpen (path : String)
  | «open» (path_in : Option String) (oflag : BitVec 32) (answers : OpenAnswers) (fp : FileObject)
  | lseek (fd : Int) (offset : BitVec 64) (whence : Int) (answer : SeekAnswer)
  | read (fd : Int) (buf_null : Bool) (count : BitVec 64) (answer : TransferAnswer)
  | fread (buf_null : Bool) (size count : BitVec 64) (fp : FIL) (answer : TransferAnswer)
  | pread (fd : Int) (buf_null : Bool) (count offset : BitVec 64) (seek : SeekAnswer)
      (answer : TransferAnswer)
  | fdopen (fd : Int) (mode : Option String)
  | fopen (path_in mode : Option String) (answers : OpenAnswers) (fp : FileObject)
  | fwrite (size count : BitVec 64) (fp : FIL) (answer : TransferAnswer)
  | pwrite (fd : Int) (buf_null : Bool) (count offset : BitVec 64) (seek : SeekAnswer)
      (answer : TransferAnswer)
  | write (fd : Int) (count : BitVec 64) (answer : TransferAnswer)
  | fclose (fp : FIL) (res : FRESULT)
  | close (fd : Int) (res : FRESULT)
  | fstat (fd : Int) (answer : Stat)
  | stat (path_in : Option String) (info : FILINFO)
  | lstat64 (path_in : Option String) (info : FILINFO)
  | lstat (path_in : Option String) (info : FILINFO)
  | mkdir (path_in : Option String) (res : FRESULT)
  | access (path_in : Option String) (res : FRESULT)
  | unlink (path_in : Option String) (res : FRESULT)
  | rmdir (path_in : Option String) (res : FRESULT)
  | remove (path_in : Option String) (res : FRESULT)
  | rename (oldcpath newcpath : Option String) (answer : Stat) (res : FRESULT)
  | chdir (path_in : Option String) (res : FRESULT)
  | getcwd (buf_null : Bool) (res : FRESULT)
  | dup2 (oldfd newfd : Int) (res : FRESULT)
  | opendir (path_in : Option String) (dir_ptr : DIR) (res : FRESULT)
  | readdir (dirp : DIR) (info : DirectoryStreams.FilInfo)
  | readdir64 (dirp : DIR) (info : DirectoryStreams.FilInfo)
  | closedir (dirp : DIR) (res : FRESULT)
  | ftruncate (fd : Int) (length : BitVec 64) (seek : SeekAnswer) (answer : TruncateAnswer)
  | fchown (fd : Int) (owner group : BitVec 32)
  | fchmod (fd : Int) (mode : BitVec 32)
  | utimes (path_in : Option String) (res : FRESULT)

namespace PublicOperation

/-- What an operation does, without what it returns. -/
def code : PublicOperation → Operating Unit
  | .getMountPath => FatFsFileManager.getMountPath.discard
  | .init res_disk_start res => (FatFsFileManager.init res_disk_start res).discard
  | .isPathOwner path => (FatFsFileManager.isPathOwner path).discard
  | .isHandleOwner handle => (FatFsFileManager.isHandleOwner handle).discard
  | .isDirOwner dir => (FatFsFileManager.isDirOwner dir).discard
  | .isDirOpen path => (FatFsFileManager.isDirOpen path).discard
  | .isFileOpen path => (FatFsFileManager.isFileOpen path).discard
  | .isFileInDirOpen path => (FatFsFileManager.isFileInDirOpen path).discard
  | .open path_in oflag answers fp => (FatFsFileManager.open path_in oflag answers fp).discard
  | .lseek fd offset whence answer => (FatFsFileManager.lseek fd offset whence answer).discard
  | .read fd buf_null count answer => (FatFsFileManager.read fd buf_null count answer).discard
  | .fread buf_null size count fp answer =>
      (FatFsFileManager.fread buf_null size count fp answer).discard
  | .pread fd buf_null count offset seek answer =>
      (FatFsFileManager.pread fd buf_null count offset seek answer).discard
  | .fdopen fd mode => (FatFsFileManager.fdopen fd mode).discard
  | .fopen path_in mode answers fp => (FatFsFileManager.fopen path_in mode answers fp).discard
  | .fwrite size count fp answer => (FatFsFileManager.fwrite size count fp answer).discard
  | .pwrite fd buf_null count offset seek answer =>
      (FatFsFileManager.pwrite fd buf_null count offset seek answer).discard
  | .write fd count answer => (FatFsFileManager.write fd count answer).discard
  | .fclose fp res => (FatFsFileManager.fclose fp res).discard
  | .close fd res => (FatFsFileManager.close fd res).discard
  | .fstat fd answer => (FatFsFileManager.fstat fd answer).discard
  | .stat path_in info => (FatFsFileManager.stat path_in info).discard
  | .lstat64 path_in info => (FatFsFileManager.lstat64 path_in info).discard
  | .lstat path_in info => (FatFsFileManager.lstat path_in info).discard
  | .mkdir path_in res => (FatFsFileManager.mkdir path_in res).discard
  | .access path_in res => (FatFsFileManager.access path_in res).discard
  | .unlink path_in res => (FatFsFileManager.unlink path_in res).discard
  | .rmdir path_in res => (FatFsFileManager.rmdir path_in res).discard
  | .remove path_in res => (FatFsFileManager.remove path_in res).discard
  | .rename oldcpath newcpath answer res =>
      (FatFsFileManager.rename oldcpath newcpath answer res).discard
  | .chdir path_in res => (FatFsFileManager.chdir path_in res).discard
  | .getcwd buf_null res => (FatFsFileManager.getcwd buf_null res).discard
  | .dup2 oldfd newfd res => (FatFsFileManager.dup2 oldfd newfd res).discard
  | .opendir path_in dir_ptr res => (FatFsFileManager.opendir path_in dir_ptr res).discard
  | .readdir dirp info => (FatFsFileManager.readdir dirp info).discard
  | .readdir64 dirp info => (FatFsFileManager.readdir64 dirp info).discard
  | .closedir dirp res => (FatFsFileManager.closedir dirp res).discard
  | .ftruncate fd length seek answer =>
      (FatFsFileManager.ftruncate fd length seek answer).discard
  | .fchown fd owner group => (FatFsFileManager.fchown fd owner group).discard
  | .fchmod fd mode => (FatFsFileManager.fchmod fd mode).discard
  | .utimes path_in res => (FatFsFileManager.utimes path_in res).discard

def IsDup2 : PublicOperation → Prop
  | .dup2 _ _ _ => True
  | _ => False

end PublicOperation

/-! ## What each operation does with the mutex -/

namespace FatFsFileManager

/-- Making the directory is the last thing that `init` does, and it does not have the mutex. -/
theorem disciplined_init (res_disk_start : FatFsResult) (res : FRESULT) :
    (init res_disk_start res).Disciplined false false := by
  rw [init]
  split_ifs with failed
  · exact rfl
  · apply Disciplined.bind (disciplined_act _)
    intro mount_path_
    split_ifs with root
    · apply Disciplined.bind (disciplined_lockGuard (disciplined_act _))
      intro res_mkdir
      exact rfl
    · exact rfl

end FatFsFileManager

namespace PublicOperation

open FatFsFileManager

theorem disciplined_of_not_dup2 {operation : PublicOperation} (other : ¬ operation.IsDup2) :
    operation.code.Disciplined false false := by
  have guarded : ∀ {α : Type} (run : FatFsFileManager → Ending Thrown α × FatFsFileManager),
      (lockGuard (act run)).discard.Disciplined false false :=
    fun run => (disciplined_lockGuard (disciplined_act run)).discard
  have looks : ∀ {α : Type} (look : FatFsFileManager → Ending Thrown α),
      (inspect look).discard.Disciplined false false :=
    fun look => (disciplined_act _).discard
  cases operation with
  | dup2 oldfd newfd res => exact absurd trivial other
  | init res_disk_start res => exact (disciplined_init res_disk_start res).discard
  | getMountPath | isPathOwner | isHandleOwner | isDirOwner | isDirOpen | isFileOpen
  | isFileInDirOpen => exact looks _
  | «open» | fopen | fdopen | close | fclose | lseek | read | fread | pread | fwrite | pwrite
  | write | fstat | stat | lstat64 | lstat | mkdir | access | unlink | rmdir | remove | rename
  | chdir | getcwd | opendir | readdir | readdir64 | closedir | ftruncate | fchown | fchmod
  | utimes => exact guarded _

theorem relocks_dup2 (oldfd newfd : Int) (res : FRESULT) :
    (PublicOperation.dup2 oldfd newfd res).code.Relocks false := by
  have inner : (FatFsFileManager.close newfd res).Relocks true := relocks_lockGuard_held _
  exact (relocks_lockGuard inner).bind _

/-- No path through an operation locks the mutex that it has, exactly if it is not `dup2`. -/
theorem not_relocks_iff (operation : PublicOperation) :
    ¬ operation.code.Relocks false ↔ ¬ operation.IsDup2 := by
  constructor
  · intro keeps isDup2
    cases operation with
    | dup2 oldfd newfd res => exact keeps (relocks_dup2 oldfd newfd res)
    | _ => exact isDup2
  · intro other
    exact (disciplined_of_not_dup2 other).not_relocks

theorem relocks_dup2_opened :
    (PublicOperation.dup2 100000 100001 .FR_OK).code.Relocks false :=
  relocks_dup2 100000 100001 .FR_OK

end PublicOperation

/-- The replacement of the Posix call looks at the first descriptor only. -/
def Descriptors.dup2_impl (state : Descriptors) (oldfd newfd : Int) (res : FRESULT) :
    Operating (Int × Option Errno) :=
  match state.getFatFsInstanceFromHandle oldfd with
  | none => pure (-1, none)
  | some _ => FatFsFileManager.dup2 oldfd newfd res

theorem Descriptors.relocks_dup2_impl_iff (state : Descriptors) (oldfd newfd : Int)
    (res : FRESULT) :
    (state.dup2_impl oldfd newfd res).Relocks false ↔
      (state.getFatFsInstanceFromHandle oldfd).isSome := by
  rw [dup2_impl]
  cases state.getFatFsInstanceFromHandle oldfd with
  | none => exact iff_of_false id (by simp)
  | some found => exact iff_of_true (relocks_lockGuard (relocks_lockGuard_held _)) rfl

/-! ## Threads -/

namespace PublicOperation

variable {Thread : Type} [DecidableEq Thread]
  {threads after later : Threads Thread FatFsFileManager Thrown} {thread : Thread}

/-- As long as `dup2` is not called, no thread ever waits for a mutex that it has. -/
theorem always_of_not_dup2 {inputs : List (ThreadStep Thread PublicOperation)}
    (manager : FatFsFileManager)
    (others : ∀ thread operation, .call thread operation ∈ inputs → ¬ operation.IsDup2) :
    Always (Threads.step code) (fun threads => ∀ thread, ¬ threads.SelfWaits thread)
      (Threads.idle manager) inputs :=
  Threads.always_not_selfWaits manager fun thread operation member =>
    disciplined_of_not_dup2 (others thread operation member)

/-- Once `dup2` has the mutex, its thread waits for itself, whatever all the threads do. -/
theorem selfWaits_of_dup2 {oldfd newfd : Int} {res : FRESULT}
    {inputs : List (ThreadStep Thread PublicOperation)}
    (called : run (Threads.step code) threads
      [.call thread (.dup2 oldfd newfd res), .proceed thread] = some after)
    (ran : run (Threads.step code) after inputs = some later) : later.SelfWaits thread := by
  have waits : after.SelfWaits thread := Threads.selfWaits_of_lock_lock rfl called
  exact waits.run ran

end PublicOperation

end Conclave.Filesystem
