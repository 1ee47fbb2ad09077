import ConclaveFormal.Lib.AssocMap
import ConclaveFormal.Lib.Transition
import Mathlib.Data.List.Infix

/-!
# The file manager

One file system of the enclave: the handles of the open files, the `FIL` objects that FatFs works
on, and the paths the files were opened under.  What FatFs answers is an input of each operation.
-/

set_option autoImplicit false

namespace Conclave.Filesystem

open Conclave.Lib

/-! ## What FatFs answers -/

inductive FRESULT where
  | FR_OK
  | FR_DISK_ERR
  | FR_INT_ERR
  | FR_NOT_READY
  | FR_NO_FILE
  | FR_NO_PATH
  | FR_INVALID_NAME
  | FR_DENIED
  | FR_EXIST
  | FR_INVALID_OBJECT
  | FR_WRITE_PROTECTED
  | FR_INVALID_DRIVE
  | FR_NOT_ENABLED
  | FR_NO_FILESYSTEM
  | FR_MKFS_ABORTED
  | FR_TIMEOUT
  | FR_LOCKED
  | FR_NOT_ENOUGH_CORE
  | FR_TOO_MANY_OPEN_FILES
  | FR_INVALID_PARAMETER
  deriving DecidableEq, Repr

abbrev FileHandle : Type := Int

/-- The address of a `FIL` object, which the caller of `fopen` holds as a `FILE*`. -/
abbrev FIL : Type := Nat

def nullptr : FIL := 0

def EOF : Int := -1

inductive Errno where
  | ENOENT
  | EMFILE
  | EBUSY
  | ENOTEMPTY
  deriving DecidableEq, Repr

def Errno.value : Errno → Int
  | .ENOENT => 2
  | .EMFILE => 24
  | .EBUSY => 16
  | .ENOTEMPTY => 39

/-- The container whose `at` threw `std::out_of_range`. -/
inductive OutOfRange where
  | flags
  | files_
  | inverse_files_map_
  | inverse_file_paths_
  deriving DecidableEq, Repr

def AM_DIR : BitVec 8 := 0x10
def AM_ARC : BitVec 8 := 0x20

/-- `f_stat` of the old path of a renaming, with the attributes it finds. -/
structure Stat where
  res : FRESULT
  fattrib : BitVec 8
  deriving DecidableEq

/-- `f_sync` of a handle that is open on the path, the object `new FIL()` makes, and `f_open`. -/
structure OpenAnswers where
  res_sync : FRESULT
  fil_ptr : FIL
  res : FRESULT
  deriving DecidableEq

/-! ## Flags -/

def O_RDONLY : BitVec 32 := 0
def O_WRONLY : BitVec 32 := 1
def O_RDWR : BitVec 32 := 2
def O_CREAT : BitVec 32 := 64
def O_EXCL : BitVec 32 := 128
def O_TRUNC : BitVec 32 := 512
def O_APPEND : BitVec 32 := 1024

def FA_READ : BitVec 8 := 0x01
def FA_WRITE : BitVec 8 := 0x02
def FA_CREATE_NEW : BitVec 8 := 0x04
def FA_CREATE_ALWAYS : BitVec 8 := 0x08
def FA_OPEN_ALWAYS : BitVec 8 := 0x10
def FA_OPEN_APPEND : BitVec 8 := 0x30

def createFlagMap : List (BitVec 32 × BitVec 8) :=
  [(O_RDONLY, FA_READ),
    (O_RDWR, FA_READ ||| FA_WRITE),
    (O_WRONLY ||| O_CREAT ||| O_TRUNC, FA_CREATE_ALWAYS ||| FA_WRITE),
    (O_RDWR ||| O_CREAT ||| O_TRUNC, FA_CREATE_ALWAYS ||| FA_WRITE ||| FA_READ),
    (O_WRONLY ||| O_CREAT ||| O_APPEND, FA_OPEN_APPEND ||| FA_WRITE),
    (O_RDWR ||| O_CREAT ||| O_APPEND, FA_OPEN_APPEND ||| FA_WRITE ||| FA_READ),
    (O_WRONLY ||| O_CREAT ||| O_EXCL, FA_CREATE_NEW ||| FA_WRITE),
    (O_RDWR ||| O_CREAT ||| O_EXCL, FA_CREATE_NEW ||| FA_WRITE ||| FA_READ),
    (O_WRONLY ||| O_CREAT, FA_OPEN_ALWAYS ||| FA_WRITE),
    (O_RDWR ||| O_CREAT, FA_OPEN_ALWAYS ||| FA_WRITE ||| FA_READ)]

def convertFlag (posix_flag : BitVec 32) : Option (BitVec 8) :=
  let mask := O_RDONLY ||| O_RDWR ||| O_WRONLY ||| O_CREAT ||| O_TRUNC ||| O_APPEND ||| O_EXCL
  createFlagMap.lookup (mask &&& posix_flag)

def createPosixModeFlagMap : List (String × BitVec 8) :=
  [("r", FA_READ),
    ("r+", FA_READ ||| FA_WRITE),
    ("w", FA_CREATE_ALWAYS ||| FA_WRITE),
    ("w+", FA_CREATE_ALWAYS ||| FA_WRITE ||| FA_READ),
    ("a", FA_OPEN_APPEND ||| FA_WRITE),
    ("a+", FA_OPEN_APPEND ||| FA_WRITE ||| FA_READ),
    ("wx", FA_CREATE_NEW ||| FA_WRITE),
    ("w+x", FA_CREATE_NEW ||| FA_WRITE ||| FA_READ)]

/-- The letters `b`, `e`, `m` and `c` of a mode are ignored. -/
def parsePosixModeFlag (mode : String) : Option (BitVec 8) :=
  createPosixModeFlagMap.lookup
    (String.ofList (mode.toList.filter fun c => c ≠ 'b' ∧ c ≠ 'e' ∧ c ≠ 'm' ∧ c ≠ 'c'))

/-! ## The manager -/

structure HandleRange where
  first_handle_ : Int
  last_handle_ : Int
  ordered : first_handle_ ≤ last_handle_

structure FileManager where
  files_ : AssocMap FileHandle FIL
  file_paths_ : AssocMap String FileHandle
  inverse_files_map_ : AssocMap FIL FileHandle
  inverse_file_paths_ : AssocMap FileHandle String
  dir_paths_ : AssocMap String Nat
  range : HandleRange
  next_handle_ : Int
  mount_path_ : String
  drive_text_id_ : String

/-- What a call returns, the error it reports, and the manager it leaves. -/
structure Outcome (α : Type) where
  returned : α
  err : Option Errno
  manager : FileManager

namespace FileManager

def new (range : HandleRange) (drive_id : Nat) (mount_path : String) : FileManager where
  files_ := ∅
  file_paths_ := ∅
  inverse_files_map_ := ∅
  inverse_file_paths_ := ∅
  dir_paths_ := ∅
  range := range
  next_handle_ := range.first_handle_
  mount_path_ := mount_path
  drive_text_id_ := toString drive_id ++ ":"

def isHandleOwner (manager : FileManager) (handle : Int) : Bool :=
  handle ≠ -1 ∧ handle ≥ manager.range.first_handle_ ∧ handle ≤ manager.range.last_handle_

def generateFatFsPath (manager : FileManager) : Option String → String
  | none => ""
  | some path => manager.drive_text_id_ ++ path

def numHandles (range : HandleRange) : Nat := (range.last_handle_ - range.first_handle_ + 1).toNat

/-- The loop of `getNewHandle`, with the number of handles it may still look at. -/
def scanHandles (files_ : AssocMap FileHandle FIL) (range : HandleRange) :
    Nat → Int → Nat × Int
  | 0, next_handle_ => (0, next_handle_)
  | left + 1, next_handle_ =>
      if (files_.lookup next_handle_).isSome then
        scanHandles files_ range left
          (if next_handle_ = range.last_handle_ then range.first_handle_ else next_handle_ + 1)
      else (left + 1, next_handle_)

def getNewHandle (manager : FileManager) : Int × FileManager :=
  let start :=
    if manager.next_handle_ = manager.range.last_handle_ + 1 then manager.range.first_handle_
    else manager.next_handle_
  let scanned := scanHandles manager.files_ manager.range (numHandles manager.range) start
  if scanned.1 = 0 then (-1, { manager with next_handle_ := scanned.2 })
  else (scanned.2, { manager with next_handle_ := scanned.2 + 1 })

def insertFileHandle (manager : FileManager) (handle : Int) (fil_ptr : FIL)
    (path : String) : FileManager :=
  { manager with
    files_ := manager.files_.insert handle fil_ptr
    file_paths_ := manager.file_paths_.insert path handle
    inverse_files_map_ := manager.inverse_files_map_.insert fil_ptr handle
    inverse_file_paths_ := manager.inverse_file_paths_.insert handle path }

def eraseFileHandle (manager : FileManager) (handle : Int) (fil_ptr : FIL)
    (path : String) : FileManager :=
  { manager with
    files_ := manager.files_.erase handle
    file_paths_ := manager.file_paths_.erase path
    inverse_files_map_ := manager.inverse_files_map_.erase fil_ptr
    inverse_file_paths_ := manager.inverse_file_paths_.erase handle }

/-- A file that is open already is flushed before it is opened again. -/
def syncOpened (manager : FileManager) (path : String) (res_sync : FRESULT) :
    Except OutOfRange FRESULT :=
  match manager.file_paths_.lookup path with
  | none => .ok .FR_OK
  | some old_handle =>
      match manager.files_.lookup old_handle with
      | none => .error .files_
      | some _ => .ok res_sync

/-- What `open` and `fopen` do once they have the mode: the new handle and its object. -/
def openPath (manager : FileManager) (path : String) (answers : OpenAnswers) :
    Except OutOfRange (Outcome (Option (Int × FIL))) :=
  match manager.syncOpened path answers.res_sync with
  | .error e => .error e
  | .ok res_sync =>
      if res_sync ≠ .FR_OK then .ok ⟨none, some .ENOENT, manager⟩
      else
        let (file_handle, manager) := manager.getNewHandle
        if file_handle = -1 then .ok ⟨none, some .EMFILE, manager⟩
        else if answers.res ≠ .FR_OK then .ok ⟨none, some .ENOENT, manager⟩
        else
          .ok ⟨some (file_handle, answers.fil_ptr), none,
            manager.insertFileHandle file_handle answers.fil_ptr path⟩

def «open» (manager : FileManager) (path_in : Option String) (oflag : BitVec 32)
    (answers : OpenAnswers) : Except OutOfRange (Outcome Int) :=
  let path := manager.generateFatFsPath path_in
  if path = "" then .ok ⟨-1, none, manager⟩
  else
    match convertFlag oflag with
    | none => .error .flags
    | some _ =>
        (manager.openPath path answers).map fun outcome =>
          { outcome with returned := (outcome.returned.map Prod.fst).getD (-1) }

def fopen (manager : FileManager) (path_in mode : Option String) (answers : OpenAnswers) :
    Except OutOfRange (Outcome FIL) :=
  let path := manager.generateFatFsPath path_in
  match mode with
  | none => .ok ⟨nullptr, none, manager⟩
  | some mode =>
      if path = "" then .ok ⟨nullptr, none, manager⟩
      else
        match parsePosixModeFlag mode with
        | none => .error .flags
        | some _ =>
            (manager.openPath path answers).map fun outcome =>
              { outcome with returned := (outcome.returned.map Prod.snd).getD nullptr }

def fdopen (manager : FileManager) (fd : Int) (mode : Option String) : FIL :=
  if mode = none then nullptr else (manager.files_.lookup fd).getD nullptr

def closeInternal (manager : FileManager) (fil_ptr : FIL) (res : FRESULT) :
    Except OutOfRange (Outcome Int) :=
  match manager.inverse_files_map_.lookup fil_ptr with
  | none => .error .inverse_files_map_
  | some file_handle =>
      if res = .FR_OK then
        match manager.inverse_file_paths_.lookup file_handle with
        | none => .error .inverse_file_paths_
        | some path => .ok ⟨0, none, manager.eraseFileHandle file_handle fil_ptr path⟩
      else .ok ⟨-1, none, manager⟩

def fclose (manager : FileManager) (fp : FIL) (res : FRESULT) :
    Except OutOfRange (Outcome Int) :=
  if fp = nullptr then .ok ⟨EOF, none, manager⟩ else manager.closeInternal fp res

/-- Closing a handle that is not open is no error. -/
def close (manager : FileManager) (fd : Int) (res : FRESULT) : Except OutOfRange (Outcome Int) :=
  match manager.files_.lookup fd with
  | none => .ok ⟨0, none, manager⟩
  | some fil_ptr =>
      if fil_ptr = nullptr then
        .ok ⟨-1, none, { manager with
          files_ := manager.files_.erase fd
          inverse_file_paths_ := manager.inverse_file_paths_.erase fd }⟩
      else manager.closeInternal fil_ptr res

/-! ## Renaming -/

def isDirOpen (manager : FileManager) (path : String) : Int :=
  if (manager.dir_paths_.lookup path).isSome then -1 else 0

def isFileOpen (manager : FileManager) (path : String) : Int :=
  if (manager.file_paths_.lookup path).isSome then -1 else 0

/-- A slash behind the directory keeps it from being found in the name of a sibling. -/
def isFileInDirOpen (manager : FileManager) (path : String) : Int :=
  let path_dir := if path.toList.getLast? = some '/' then path.toList else path.toList ++ ['/']
  if manager.file_paths_.keys.any fun file_path => path_dir <:+: file_path.toList then -1
  else 0

def renameFileInternal (manager : FileManager) (oldpath newpath : String) (res : FRESULT) :
    Outcome Int :=
  if manager.isFileOpen oldpath ≠ 0 ∨ manager.isFileOpen newpath ≠ 0 then
    ⟨-1, some .EBUSY, manager⟩
  else if res ≠ .FR_OK then ⟨-1, some .ENOENT, manager⟩
  else ⟨0, none, manager⟩

def renameDirInternal (manager : FileManager) (oldpath newpath : String) (res : FRESULT) :
    Outcome Int :=
  if manager.isDirOpen oldpath ≠ 0 ∨ manager.isDirOpen newpath ≠ 0 ∨
      manager.isFileInDirOpen oldpath ≠ 0 ∨ manager.isFileInDirOpen newpath ≠ 0 then
    ⟨-1, some .EBUSY, manager⟩
  else if res ≠ .FR_OK then ⟨-1, some .ENOENT, manager⟩
  else ⟨0, none, manager⟩

/-- FatFs is not asked about the root directory. -/
def statWithRoot (path_in : String) (stat : Stat) : Stat :=
  if path_in = "/" then ⟨.FR_OK, AM_DIR⟩ else stat

def is_file (stat : Stat) : Bool :=
  stat.res = .FR_OK ∧ stat.fattrib &&& AM_ARC ≠ 0 ∧ stat.fattrib &&& AM_DIR = 0

def is_dir (stat : Stat) : Bool :=
  stat.res = .FR_OK ∧ stat.fattrib &&& AM_ARC = 0 ∧ stat.fattrib &&& AM_DIR ≠ 0

def rename (manager : FileManager) (oldcpath newcpath : Option String) (stat : Stat)
    (res : FRESULT) : Outcome Int :=
  let oldpath := manager.generateFatFsPath oldcpath
  let newpath := manager.generateFatFsPath newcpath
  if oldpath = "" ∨ newpath = "" then ⟨-1, some .ENOENT, manager⟩
  else
    let result_stat := statWithRoot (oldcpath.getD "") stat
    if is_file result_stat then manager.renameFileInternal oldpath newpath res
    else if is_dir result_stat then manager.renameDirInternal oldpath newpath res
    else ⟨Errno.ENOENT.value, none, manager⟩

def unlink (manager : FileManager) (path_in : Option String) (res : FRESULT) : Outcome Int :=
  if manager.generateFatFsPath path_in = "" then ⟨-1, none, manager⟩
  else if res = .FR_OK then ⟨0, none, manager⟩
  else if res = .FR_DENIED then ⟨-1, some .ENOTEMPTY, manager⟩
  else if res = .FR_NO_PATH then ⟨-1, some .ENOENT, manager⟩
  else ⟨-1, none, manager⟩

/-! ## Reading and writing -/

def read (manager : FileManager) (fd : Int) (buf_null : Bool) (count : Nat) (res : FRESULT)
    (read_bytes : Nat) : Int :=
  if buf_null ∨ count = 0 then 0
  else if (manager.files_.lookup fd).isNone then -1
  else if res = .FR_OK then read_bytes
  else 0

def write (manager : FileManager) (fd : Int) (res : FRESULT) (written_bytes : Nat) : Int :=
  if (manager.files_.lookup fd).isNone then 1
  else if res = .FR_OK then written_bytes
  else 0

end FileManager

/-! ## Runs -/

inductive FileOperation where
  | «open» (path_in : Option String) (oflag : BitVec 32) (answers : OpenAnswers)
  | fopen (path_in mode : Option String) (answers : OpenAnswers)
  | fdopen (fd : Int) (mode : Option String)
  | close (fd : Int) (res : FRESULT)
  | fclose (fp : FIL) (res : FRESULT)
  | rename (oldcpath newcpath : Option String) (stat : Stat) (res : FRESULT)
  | unlink (path_in : Option String) (res : FRESULT)
  | read (fd : Int) (buf_null : Bool) (count : Nat) (res : FRESULT) (read_bytes : Nat)
  | write (fd : Int) (res : FRESULT) (written_bytes : Nat)
  deriving DecidableEq

namespace FileManager

/-- The integer that an operation returns, where a pointer is its address. -/
def perform (manager : FileManager) : FileOperation → Except OutOfRange (Outcome Int)
  | .open path_in oflag answers => manager.open path_in oflag answers
  | .fopen path_in mode answers =>
      (manager.fopen path_in mode answers).map fun outcome =>
        { outcome with returned := outcome.returned }
  | .fdopen fd mode => .ok ⟨manager.fdopen fd mode, none, manager⟩
  | .close fd res => manager.close fd res
  | .fclose fp res => manager.fclose fp res
  | .rename oldcpath newcpath stat res => .ok (manager.rename oldcpath newcpath stat res)
  | .unlink path_in res => .ok (manager.unlink path_in res)
  | .read fd buf_null count res read_bytes =>
      .ok ⟨manager.read fd buf_null count res read_bytes, none, manager⟩
  | .write fd res written_bytes => .ok ⟨manager.write fd res written_bytes, none, manager⟩

/-- An operation that throws has changed nothing. -/
def next (manager : FileManager) (operation : FileOperation) : FileManager :=
  match manager.perform operation with
  | .ok outcome => outcome.manager
  | .error _ => manager

def step (manager : FileManager) (operation : FileOperation) : Option FileManager :=
  some (manager.next operation)

/-- `new` makes an object that is not in use, and a pointer given to `fclose` is null or that of
an open file. -/
def Allowed (manager : FileManager) : FileOperation → Prop
  | .open _ _ answers => answers.fil_ptr ≠ nullptr ∧
      ∀ handle, manager.files_.lookup handle ≠ some answers.fil_ptr
  | .fopen _ _ answers => answers.fil_ptr ≠ nullptr ∧
      ∀ handle, manager.files_.lookup handle ≠ some answers.fil_ptr
  | .fclose fp _ => fp = nullptr ∨ ∃ handle, manager.files_.lookup handle = some fp
  | _ => True

end FileManager

end Conclave.Filesystem
