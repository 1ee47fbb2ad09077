import ConclaveFormal.Filesystem.Descriptors
import ConclaveFormal.Filesystem.DirectoryStreams
import ConclaveFormal.Filesystem.OpenFiles
import ConclaveFormal.Lib.Mutex

/-!
# The operations of a file manager

All public operations of a file system with the mutex that they lock.  Most of them hold it from
their beginning to their end.
-/

set_option autoImplicit false

namespace Conclave.Filesystem

open Conclave.Lib Program

structure FatFsFileManager extends OpenFiles, DirectoryStreams

/-- The container whose `at` threw. -/
inductive Thrown where
  | tables (e : OutOfRange)
  | inverse_dir_paths_
  deriving DecidableEq, Repr

/-- What `f_stat` answers, with the entry in `FILINFO`. -/
structure FILINFO extends Stat where
  fsize : FSIZE_t
  deriving DecidableEq

/-- The times are zero. -/
structure StatBuf where
  st_size : BitVec 64
  st_mode : BitVec 32
  deriving DecidableEq, Repr

def S_IFDIR : BitVec 32 := 0x4000
def S_IFREG : BitVec 32 := 0x8000

abbrev Operating (α : Type) : Type := Program FatFsFileManager Thrown α

namespace OpenFiles

/-- The pointer that is given is the object. -/
def fread (files : OpenFiles) (buf_null : Bool) (size count : BitVec 64) (fp : FIL)
    (answer : TransferAnswer) : IoOutcome :=
  if size = 0 ∨ count = 0 ∨ buf_null ∨ fp = nullptr then ⟨0, none, files, none⟩
  else files.readAt fp count answer

def fwrite (files : OpenFiles) (size count : BitVec 64) (fp : FIL) (answer : TransferAnswer) :
    IoOutcome :=
  if size = 0 ∨ count = 0 ∨ fp = nullptr then ⟨0, none, files, none⟩
  else files.writeAt fp count answer

end OpenFiles

namespace FatFsFileManager

/-! ## Work on the parts of a manager -/

def setTables (manager : FatFsFileManager) (tables : FileManager) : FatFsFileManager :=
  { manager with toOpenFiles := ⟨tables, manager.objects⟩ }

def setStreams (manager : FatFsFileManager) (streams : DirectoryStreams) : FatFsFileManager :=
  { manager.setTables streams.toFileManager with
    inverse_dir_paths_ := streams.inverse_dir_paths_
    dirents_ := streams.dirents_
    dirents64_ := streams.dirents64_ }

variable {α : Type}

def inspect (look : FatFsFileManager → Ending Thrown α) : Operating α :=
  act fun manager => (look manager, manager)

def onTables (call : FileManager → Except OutOfRange (Outcome α)) :
    Operating (α × Option Errno) :=
  act fun manager =>
    match call manager.toFileManager with
    | .error e => (.threw (.tables e), manager)
    | .ok out => (.returned (out.returned, out.err), manager.setTables out.manager)

/-- `f_open` fills the object of the file. -/
def onTablesOpening (answers : OpenAnswers) (fp : FileObject)
    (call : FileManager → Except OutOfRange (Outcome α)) : Operating (α × Option Errno) :=
  act fun manager =>
    match call manager.toFileManager with
    | .error e => (.threw (.tables e), manager)
    | .ok out =>
        (.returned (out.returned, out.err),
          { manager.setTables out.manager with
            objects := Function.update manager.objects answers.fil_ptr fp })

def onFiles (call : OpenFiles → IoOutcome) : Operating (Int × Option IoErrno) :=
  act fun manager =>
    let out := call manager.toOpenFiles
    (.returned (out.returned, out.err), { manager with toOpenFiles := out.files })

def onStreams (call : DirectoryStreams → DirectoryStreams.Outcome (Except Thrown α)) :
    Operating (α × Option DirectoryStreams.DirErrno) :=
  act fun manager =>
    let out := call manager.toDirectoryStreams
    (match out.returned with
      | .error e => .threw e
      | .ok value => .returned (value, out.err),
      manager.setStreams out.streams)

/-! ## Paths -/

/-- FatFs is not asked about the root directory. -/
def statWithRoot (path_in : String) (info : FILINFO) : FILINFO :=
  if path_in = "/" then ⟨⟨.FR_OK, AM_DIR⟩, 0⟩ else info

theorem statWithRoot_toStat (path_in : String) (info : FILINFO) :
    (statWithRoot path_in info).toStat = FileManager.statWithRoot path_in info.toStat := by
  rw [statWithRoot, FileManager.statWithRoot]
  split_ifs
  · rfl
  · rfl

/-- What `statInternal` and `statInternal64` do, whose buffers have the same fields.  The comparison
with the root directory does not survive a null pointer. -/
def statInternal (path_in : Option String) (info : FILINFO) :
    Ending Thrown (Int × Option StatBuf × Option IoErrno) :=
  match path_in with
  | none => .crashed
  | some path_in =>
      let found := statWithRoot path_in info
      if found.res = .FR_OK then
        .returned (0, some
          { st_size := found.fsize.setWidth 64
            st_mode := (if found.fattrib &&& AM_DIR ≠ 0 then S_IFDIR else 0) |||
              (if found.fattrib &&& AM_ARC ≠ 0 then S_IFREG else 0) }, none)
      else if found.res = .FR_NO_FILE ∨ found.res = .FR_NO_PATH ∨ found.res = .FR_INVALID_NAME then
        .returned (-1, none, some .ENOENT)
      else .returned (-1, none, none)

def lstat (path_in : Option String) (info : FILINFO) :
    Operating (Int × Option StatBuf × Option IoErrno) :=
  lockGuard (inspect fun _ => statInternal path_in info)

def lstat64 (path_in : Option String) (info : FILINFO) :
    Operating (Int × Option StatBuf × Option IoErrno) :=
  lockGuard (inspect fun _ => statInternal path_in info)

def stat (path_in : Option String) (info : FILINFO) :
    Operating (Int × Option StatBuf × Option IoErrno) :=
  lockGuard (inspect fun _ => statInternal path_in info)

def mkdir (path_in : Option String) (res : FRESULT) : Operating Int :=
  lockGuard (inspect fun _ =>
    match path_in with
    | none => .returned (-1)
    | some path_in =>
        if path_in = "/" then .returned 0
        else if res = .FR_OK then .returned 0
        else .returned (-1))

/-- The check for a null pointer comes behind the comparison with the root directory. -/
def access (path_in : Option String) (res : FRESULT) : Operating (Int × Option IoErrno) :=
  lockGuard (inspect fun _ =>
    match path_in with
    | none => .crashed
    | some path_in =>
        if path_in = "/" then .returned (0, none)
        else if res = .FR_OK then .returned (0, none)
        else .returned (-1, some .ENOENT))

/-- What `unlink`, `rmdir` and `remove` do. -/
def unlinkInternal (path_in : Option String) (res : FRESULT) : Operating (Int × Option Errno) :=
  onTables fun tables => .ok (tables.unlink path_in res)

def unlink (path_in : Option String) (res : FRESULT) : Operating (Int × Option Errno) :=
  lockGuard (unlinkInternal path_in res)

def rmdir (path_in : Option String) (res : FRESULT) : Operating (Int × Option Errno) :=
  lockGuard (unlinkInternal path_in res)

def remove (path_in : Option String) (res : FRESULT) : Operating (Int × Option Errno) :=
  lockGuard (unlinkInternal path_in res)

def rename (oldcpath newcpath : Option String) (stat : Stat) (res : FRESULT) :
    Operating (Int × Option Errno) :=
  lockGuard (onTables fun tables => .ok (tables.rename oldcpath newcpath stat res))

def chdir (path_in : Option String) (res : FRESULT) : Operating Int :=
  lockGuard (inspect fun manager =>
    if manager.generateFatFsPath path_in = "" then .returned (-1)
    else if res = .FR_OK then .returned 0
    else .returned (-1))

/-- Whether the buffer is returned. -/
def getcwd (buf_null : Bool) (res : FRESULT) : Operating Bool :=
  lockGuard (inspect fun _ =>
    if buf_null then .returned false
    else if res = .FR_OK then .returned true
    else .returned false)

/-- The times are not changed. -/
def utimes (path_in : Option String) (res : FRESULT) : Operating (Int × Option IoErrno) :=
  lockGuard (inspect fun manager =>
    if manager.generateFatFsPath path_in = "" then .returned (-1, some .ENOENT)
    else if res = .FR_OK then .returned (0, none)
    else .returned (-1, some .ENOENT))

/-! ## Handles -/

def «open» (path_in : Option String) (oflag : BitVec 32) (answers : OpenAnswers)
    (fp : FileObject) : Operating (Int × Option Errno) :=
  lockGuard (onTablesOpening answers fp fun tables => tables.open path_in oflag answers)

def fopen (path_in mode : Option String) (answers : OpenAnswers) (fp : FileObject) :
    Operating (FIL × Option Errno) :=
  lockGuard (onTablesOpening answers fp fun tables => tables.fopen path_in mode answers)

def fdopen (fd : Int) (mode : Option String) : Operating FIL :=
  lockGuard (inspect fun manager => .returned (manager.toFileManager.fdopen fd mode))

def close (fd : Int) (res : FRESULT) : Operating (Int × Option Errno) :=
  lockGuard (onTables fun tables => tables.close fd res)

def fclose (fp : FIL) (res : FRESULT) : Operating (Int × Option Errno) :=
  lockGuard (onTables fun tables => tables.fclose fp res)

/-- The descriptor is closed by the public operation. -/
def dup2 (_oldfd newfd : Int) (res : FRESULT) : Operating (Int × Option Errno) :=
  lockGuard (close newfd res)

/-! ## Open files -/

def lseek (fd : Int) (offset : BitVec 64) (whence : Int) (answer : SeekAnswer) :
    Operating (Int × Option IoErrno) :=
  lockGuard (onFiles fun files => files.lseek fd offset whence answer)

def read (fd : Int) (buf_null : Bool) (count : BitVec 64) (answer : TransferAnswer) :
    Operating (Int × Option IoErrno) :=
  lockGuard (onFiles fun files => files.read fd buf_null count answer)

def fread (buf_null : Bool) (size count : BitVec 64) (fp : FIL) (answer : TransferAnswer) :
    Operating (Int × Option IoErrno) :=
  lockGuard (onFiles fun files => files.fread buf_null size count fp answer)

def pread (fd : Int) (buf_null : Bool) (count offset : BitVec 64) (seek : SeekAnswer)
    (answer : TransferAnswer) : Operating (Int × Option IoErrno) :=
  lockGuard (onFiles fun files => files.pread fd buf_null count offset seek answer)

def fwrite (size count : BitVec 64) (fp : FIL) (answer : TransferAnswer) :
    Operating (Int × Option IoErrno) :=
  lockGuard (onFiles fun files => files.fwrite size count fp answer)

def pwrite (fd : Int) (buf_null : Bool) (count offset : BitVec 64) (seek : SeekAnswer)
    (answer : TransferAnswer) : Operating (Int × Option IoErrno) :=
  lockGuard (onFiles fun files => files.pwrite fd buf_null count offset seek answer)

def write (fd : Int) (count : BitVec 64) (answer : TransferAnswer) :
    Operating (Int × Option IoErrno) :=
  lockGuard (onFiles fun files => files.write fd count answer)

def fstat (fd : Int) (stat : Stat) : Operating (Int × Option IoErrno) :=
  lockGuard (onFiles fun files => files.fstat fd stat)

def ftruncate (fd : Int) (length : BitVec 64) (seek : SeekAnswer) (answer : TruncateAnswer) :
    Operating (Int × Option IoErrno) :=
  lockGuard (onFiles fun files => files.ftruncate fd length seek answer)

def fchown (fd : Int) (owner group : BitVec 32) : Operating (Int × Option IoErrno) :=
  lockGuard (onFiles fun files => files.fchown fd owner group)

def fchmod (fd : Int) (mode : BitVec 32) : Operating (Int × Option IoErrno) :=
  lockGuard (onFiles fun files => files.fchmod fd mode)

/-! ## Directories -/

def opendir (path_in : Option String) (dir_ptr : DIR) (res : FRESULT) :
    Operating (DIR × Option DirectoryStreams.DirErrno) :=
  lockGuard (onStreams fun streams =>
    let out := streams.opendir path_in dir_ptr res
    { out with returned := .ok out.returned })

def readdir (dirp : DIR) (info : DirectoryStreams.FilInfo) :
    Operating (Option DirectoryStreams.Dirent × Option DirectoryStreams.DirErrno) :=
  lockGuard (onStreams fun streams =>
    let out := streams.readdir dirp info
    { out with returned := .ok out.returned })

def readdir64 (dirp : DIR) (info : DirectoryStreams.FilInfo) :
    Operating (Option DirectoryStreams.Dirent × Option DirectoryStreams.DirErrno) :=
  lockGuard (onStreams fun streams =>
    let out := streams.readdir64 dirp info
    { out with returned := .ok out.returned })

def closedir (dirp : DIR) (res : FRESULT) :
    Operating (Int × Option DirectoryStreams.DirErrno) :=
  lockGuard (onStreams fun streams =>
    let out := streams.closedir dirp res
    { out with
      returned := match out.returned with
        | none => .error .inverse_dir_paths_
        | some value => .ok value })

/-! ## Without the mutex -/

def getMountPath : Operating String :=
  inspect fun manager => .returned manager.mount_path_

def isPathOwner (path : String) : Operating Bool :=
  inspect fun manager => .returned (Descriptors.isPathOwner path manager.toFileManager)

def isHandleOwner (handle : Int) : Operating Bool :=
  inspect fun manager => .returned (manager.toFileManager.isHandleOwner handle)

def isDirOwner (dir : DIR) : Operating Bool :=
  inspect fun manager => .returned (manager.inverse_dir_paths_.lookup dir).isSome

def isDirOpen (path : String) : Operating Int :=
  inspect fun manager => .returned (manager.toFileManager.isDirOpen path)

def isFileOpen (path : String) : Operating Int :=
  inspect fun manager => .returned (manager.toFileManager.isFileOpen path)

def isFileInDirOpen (path : String) : Operating Int :=
  inspect fun manager => .returned (manager.toFileManager.isFileInDirOpen path)

/-- The disk is started, and the directory of the mount path made by the public operation. -/
def init (res_disk_start : FatFsResult) (res : FRESULT) : Operating FatFsResult :=
  if res_disk_start ≠ .OK then pure res_disk_start
  else do
    let mount_path_ ← getMountPath
    if mount_path_ ≠ "/" then
      let res_mkdir ← mkdir (some mount_path_) res
      pure (if res_mkdir ≠ 0 then .ROOT_DIRECTORY_MOUNT_FAILED else .OK)
    else pure .OK

end FatFsFileManager

end Conclave.Filesystem
