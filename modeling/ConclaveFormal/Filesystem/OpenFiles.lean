import ConclaveFormal.Filesystem.FileObject
import Mathlib.Logic.Function.Basic

/-!
# The open files of a manager

The calls on a handle look up its `FIL` object and have FatFs work on it.  The calls that are given
an offset seek the one pointer of the object, and the ones that are not go on where it stands.
-/

set_option autoImplicit false

namespace Conclave.Filesystem

open Conclave.Lib

inductive IoErrno where
  | EBADF
  | ENOENT
  deriving DecidableEq, Repr

structure OpenFiles extends FileManager where
  objects : FIL → FileObject

/-- What a call returns and reports, the files it leaves, and where the pointer stands when FatFs is
asked to transfer bytes or to cut the file. -/
structure IoOutcome where
  returned : Int
  err : Option IoErrno
  files : OpenFiles
  transfer : Option FSIZE_t

def SEEK_SET : Int := 0

def SEEK_CUR : Int := 1

def SEEK_END : Int := 2

namespace OpenFiles

def setObject (files : OpenFiles) (fil_ptr : FIL) (fp : FileObject) : OpenFiles :=
  { files with objects := Function.update files.objects fil_ptr fp }

/-- Where the offset counts from. -/
def base (fp : FileObject) (whence : Int) : FSIZE_t :=
  if whence = SEEK_CUR then fp.f_tell else if whence = SEEK_END then fp.f_size else 0

def lseekInternal (files : OpenFiles) (fd : Int) (offset : BitVec 64) (whence : Int)
    (answer : SeekAnswer) : Int × OpenFiles :=
  if whence = SEEK_CUR ∧ offset = 0 then (0, files)
  else
    match files.files_.lookup fd with
    | none => (-1, files)
    | some fil_ptr =>
        let fp := files.objects fil_ptr
        let offset := (base fp whence).setWidth 64 + offset
        -- `FSIZE_t` has half the bits of `off_t`.
        let (res, fp) := fp.f_lseek (offset.setWidth 32) answer
        (if res = .FR_OK then 0 else -1, files.setObject fil_ptr fp)

def lseek (files : OpenFiles) (fd : Int) (offset : BitVec 64) (whence : Int)
    (answer : SeekAnswer) : IoOutcome :=
  let (returned, files) := files.lseekInternal fd offset whence answer
  ⟨returned, none, files, none⟩

def readAt (files : OpenFiles) (fil_ptr : FIL) (count : BitVec 64) (answer : TransferAnswer) :
    IoOutcome :=
  let (res, read_bytes, fp) := (files.objects fil_ptr).f_read (count.setWidth 32) answer
  ⟨if res = .FR_OK then read_bytes.toNat else 0, none, files.setObject fil_ptr fp,
    some (files.objects fil_ptr).fptr⟩

def writeAt (files : OpenFiles) (fil_ptr : FIL) (count : BitVec 64) (answer : TransferAnswer) :
    IoOutcome :=
  let (res, written_bytes, fp) := (files.objects fil_ptr).f_write (count.setWidth 32) answer
  ⟨if res = .FR_OK then written_bytes.toNat else 0, none, files.setObject fil_ptr fp,
    some (files.objects fil_ptr).fptr⟩

def read (files : OpenFiles) (fd : Int) (buf_null : Bool) (count : BitVec 64)
    (answer : TransferAnswer) : IoOutcome :=
  if buf_null ∨ count = 0 then ⟨0, none, files, none⟩
  else
    match files.files_.lookup fd with
    | none => ⟨-1, none, files, none⟩
    | some fil_ptr => files.readAt fil_ptr count answer

def write (files : OpenFiles) (fd : Int) (count : BitVec 64) (answer : TransferAnswer) :
    IoOutcome :=
  match files.files_.lookup fd with
  | none => ⟨1, none, files, none⟩
  | some fil_ptr => files.writeAt fil_ptr count answer

def pread (files : OpenFiles) (fd : Int) (buf_null : Bool) (count offset : BitVec 64)
    (seek : SeekAnswer) (answer : TransferAnswer) : IoOutcome :=
  if count = 0 ∨ buf_null then ⟨0, none, files, none⟩
  else
    match files.files_.lookup fd with
    | none => ⟨-1, none, files, none⟩
    | some fil_ptr =>
        let (res, fp) := (files.objects fil_ptr).f_lseek (offset.setWidth 32) seek
        let files := files.setObject fil_ptr fp
        if res ≠ .FR_OK then ⟨0, none, files, none⟩
        else files.readAt fil_ptr count answer

def pwrite (files : OpenFiles) (fd : Int) (buf_null : Bool) (count offset : BitVec 64)
    (seek : SeekAnswer) (answer : TransferAnswer) : IoOutcome :=
  if count = 0 ∨ buf_null then ⟨0, none, files, none⟩
  else
    match files.files_.lookup fd with
    | none => ⟨-1, none, files, none⟩
    | some fil_ptr =>
        let (sought, files) := files.lseekInternal fd offset SEEK_SET seek
        if sought = -1 then ⟨0, none, files, none⟩
        else files.writeAt fil_ptr count answer

/-- What `f_truncate` fails with goes to the global `errno`, and not to the caller. -/
def ftruncate (files : OpenFiles) (fd : Int) (length : BitVec 64) (seek : SeekAnswer)
    (answer : TruncateAnswer) : IoOutcome :=
  let (sought, files) := files.lseekInternal fd length SEEK_SET seek
  if sought = -1 then ⟨-1, some .EBADF, files, none⟩
  else
    match files.files_.lookup fd with
    | none => ⟨-1, some .EBADF, files, none⟩
    | some fil_ptr =>
        let position := (files.objects fil_ptr).fptr
        let (res, fp) := (files.objects fil_ptr).f_truncate answer
        ⟨if res ≠ .FR_OK then -1 else 0, none, files.setObject fil_ptr fp, some position⟩

def fstat (files : OpenFiles) (fd : Int) (stat : Stat) : IoOutcome :=
  match files.inverse_file_paths_.lookup fd with
  | none => ⟨-1, none, files, none⟩
  | some path =>
      -- The file is known to FatFs by its path behind the drive.
      let path := String.ofList (path.toList.drop files.drive_text_id_.length)
      let res := (FileManager.statWithRoot path stat).res
      if res = .FR_OK then ⟨0, none, files, none⟩
      else if res = .FR_NO_FILE ∨ res = .FR_NO_PATH ∨ res = .FR_INVALID_NAME then
        ⟨-1, some .ENOENT, files, none⟩
      else ⟨-1, none, files, none⟩

/-- What `fchown` and `fchmod` do: a file that is open is left as it is. -/
def changeNothing (files : OpenFiles) (fd : Int) : IoOutcome :=
  match files.files_.lookup fd with
  | none => ⟨-1, some .EBADF, files, none⟩
  | some _ => ⟨0, none, files, none⟩

def fchown (files : OpenFiles) (fd : Int) (_owner _group : BitVec 32) : IoOutcome :=
  files.changeNothing fd

def fchmod (files : OpenFiles) (fd : Int) (_mode : BitVec 32) : IoOutcome :=
  files.changeNothing fd

end OpenFiles

/-! ## The calls that are given an offset -/

inductive PositionalCall where
  | pread (buf_null : Bool) (count offset : BitVec 64) (seek : SeekAnswer)
      (answer : TransferAnswer)
  | pwrite (buf_null : Bool) (count offset : BitVec 64) (seek : SeekAnswer)
      (answer : TransferAnswer)
  | ftruncate (length : BitVec 64) (seek : SeekAnswer) (answer : TruncateAnswer)
  deriving DecidableEq

namespace PositionalCall

def offset : PositionalCall → BitVec 64
  | .pread _ _ offset _ _ | .pwrite _ _ offset _ _ => offset
  | .ftruncate length _ _ => length

def seek : PositionalCall → SeekAnswer
  | .pread _ _ _ seek _ | .pwrite _ _ _ seek _ => seek
  | .ftruncate _ seek _ => seek

/-- There is something to be done. -/
def Asks : PositionalCall → Prop
  | .pread buf_null count _ _ _ | .pwrite buf_null count _ _ _ => ¬(count = 0 ∨ buf_null)
  | .ftruncate _ _ _ => True

/-- By how much FatFs moves the pointer of an object on its own. -/
def moved (fp : FileObject) : PositionalCall → BitVec 32
  | .pread _ count _ _ answer => fp.bytesRead (count.setWidth 32) answer
  | .pwrite _ count _ _ answer => fp.bytesWritten (count.setWidth 32) answer
  | .ftruncate _ _ _ => 0

def IsTruncation : PositionalCall → Prop
  | .ftruncate _ _ _ => True
  | _ => False

end PositionalCall

namespace OpenFiles

def positional (files : OpenFiles) (fd : Int) : PositionalCall → IoOutcome
  | .pread buf_null count offset seek answer => files.pread fd buf_null count offset seek answer
  | .pwrite buf_null count offset seek answer => files.pwrite fd buf_null count offset seek answer
  | .ftruncate length seek answer => files.ftruncate fd length seek answer

/-- What becomes of a call whose seeking comes to this. -/
inductive Positioned (fp : FileObject) (fil : FIL) (call : PositionalCall) (out : IoOutcome) :
    FileObject.Sought → Prop where
  | refused (none : out.transfer = none) (failed : out.returned = -1 ↔ call.IsTruncation)
      (fptr : (out.files.objects fil).fptr = fp.fptr) : Positioned fp fil call out .refused
  | aborted {left : FSIZE_t} (none : out.transfer = none)
      (failed : out.returned = -1 ↔ call.IsTruncation)
      (fptr : (out.files.objects fil).fptr = left) : Positioned fp fil call out (.aborted left)
  | reached {position : FSIZE_t} (begins : out.transfer = some position)
      (fptr : (out.files.objects fil).fptr = position + call.moved (fp.moveTo position)) :
      Positioned fp fil call out (.reached position)

variable {files : OpenFiles} {fd : Int} {fil : FIL}

@[simp]
theorem objects_setObject (fp : FileObject) : (files.setObject fil fp).objects fil = fp := by
  rw [setObject]
  exact Function.update_self fil fp files.objects

theorem lseekInternal_eq (opened : files.files_.lookup fd = some fil) {offset : BitVec 64}
    {whence : Int} (moves : ¬(whence = SEEK_CUR ∧ offset = 0)) (answer : SeekAnswer) :
    files.lseekInternal fd offset whence answer =
      let sought := (files.objects fil).f_lseek
        (((base (files.objects fil) whence).setWidth 64 + offset).setWidth 32) answer
      (if sought.1 = .FR_OK then 0 else -1, files.setObject fil sought.2) := by
  rw [lseekInternal, if_neg moves, opened]

/-- Seeking from the top of the file. -/
theorem lseekInternal_set (opened : files.files_.lookup fd = some fil) (offset : BitVec 64)
    (answer : SeekAnswer) :
    files.lseekInternal fd offset SEEK_SET answer =
      let sought := (files.objects fil).f_lseek (offset.setWidth 32) answer
      (if sought.1 = .FR_OK then 0 else -1, files.setObject fil sought.2) := by
  have moves : ¬(SEEK_SET = SEEK_CUR ∧ offset = 0) := fun both => absurd both.1 (by decide)
  have top : (base (files.objects fil) SEEK_SET).setWidth 64 + offset = offset :=
    BitVec.zero_add offset
  rw [lseekInternal_eq opened moves, top]

/-- A call that seeks first, and goes on where that has succeeded. -/
theorem positioned_of_seek {call : PositionalCall} {out : IoOutcome}
    (failed : ((files.objects fil).f_lseek (call.offset.setWidth 32) call.seek).1 ≠ .FR_OK →
      out.transfer = none ∧ (out.returned = -1 ↔ call.IsTruncation) ∧
        out.files.objects fil =
          ((files.objects fil).f_lseek (call.offset.setWidth 32) call.seek).2)
    (done : ∀ position,
      (files.objects fil).f_lseek (call.offset.setWidth 32) call.seek =
          (.FR_OK, (files.objects fil).moveTo position) →
        out.transfer = some position ∧
          (out.files.objects fil).fptr =
            position + call.moved ((files.objects fil).moveTo position)) :
    Positioned (files.objects fil) fil call out
      ((files.objects fil).sought (call.offset.setWidth 32) call.seek) := by
  have result := (files.objects fil).f_lseek_result (call.offset.setWidth 32) call.seek
  generalize (files.objects fil).sought (call.offset.setWidth 32) call.seek = sought at result ⊢
  cases result with
  | refused bad same =>
      obtain ⟨nothing, returned, object⟩ := failed bad
      exact .refused nothing returned (by rw [object, same])
  | aborted bad fptr =>
      obtain ⟨nothing, returned, object⟩ := failed bad
      exact .aborted nothing returned (by rw [object, fptr])
  | reached ok =>
      obtain ⟨begins, fptr⟩ := done _ ok
      exact .reached begins fptr

theorem positioned_readAt {fp : FileObject} (count : BitVec 64) (answer : TransferAnswer) :
    ((files.setObject fil fp).readAt fil count answer).transfer = some fp.fptr ∧
      (((files.setObject fil fp).readAt fil count answer).files.objects fil).fptr =
        fp.fptr + fp.bytesRead (count.setWidth 32) answer := by
  simp only [readAt, objects_setObject]
  exact ⟨trivial, fp.f_read_fptr (count.setWidth 32) answer⟩

theorem positioned_writeAt {fp : FileObject} (count : BitVec 64) (answer : TransferAnswer) :
    ((files.setObject fil fp).writeAt fil count answer).transfer = some fp.fptr ∧
      (((files.setObject fil fp).writeAt fil count answer).files.objects fil).fptr =
        fp.fptr + fp.bytesWritten (count.setWidth 32) answer := by
  simp only [writeAt, objects_setObject]
  exact ⟨trivial, fp.f_write_fptr (count.setWidth 32) answer⟩

/-- `pread` and `pwrite` seek and then transfer bytes. -/
theorem positioned_of_transfer {call : PositionalCall} (go : OpenFiles → IoOutcome)
    (bytes : ¬call.IsTruncation)
    (called : files.positional fd call =
      let sought := (files.objects fil).f_lseek (call.offset.setWidth 32) call.seek
      if sought.1 ≠ .FR_OK then ⟨0, none, files.setObject fil sought.2, none⟩
      else go (files.setObject fil sought.2))
    (goes : ∀ fp : FileObject, (go (files.setObject fil fp)).transfer = some fp.fptr ∧
      ((go (files.setObject fil fp)).files.objects fil).fptr = fp.fptr + call.moved fp) :
    Positioned (files.objects fil) fil call (files.positional fd call)
      ((files.objects fil).sought (call.offset.setWidth 32) call.seek) := by
  rw [called]
  apply positioned_of_seek
  · intro failed
    simp only
    rw [if_pos failed]
    exact ⟨rfl, iff_of_false (by simp) bytes, objects_setObject _⟩
  · intro position ok
    simp only
    rw [ok, if_neg (not_not_intro rfl)]
    exact goes ((files.objects fil).moveTo position)

theorem positioned (opened : files.files_.lookup fd = some fil) {call : PositionalCall}
    (asks : call.Asks) :
    Positioned (files.objects fil) fil call (files.positional fd call)
      ((files.objects fil).sought (call.offset.setWidth 32) call.seek) := by
  cases call with
  | pread buf_null count offset seek answer =>
      refine positioned_of_transfer (fun files => files.readAt fil count answer) id ?_
        fun fp => positioned_readAt count answer
      rw [positional, pread, if_neg asks, opened]
      rfl
  | pwrite buf_null count offset seek answer =>
      refine positioned_of_transfer (fun files => files.writeAt fil count answer) id ?_
        fun fp => positioned_writeAt count answer
      rw [positional, pwrite, if_neg asks, opened, lseekInternal_set opened]
      by_cases ok : ((files.objects fil).f_lseek (offset.setWidth 32) seek).1 = .FR_OK
      · simp [PositionalCall.offset, PositionalCall.seek, ok]
      · simp [PositionalCall.offset, PositionalCall.seek, ok]
  | ftruncate length seek answer =>
      apply positioned_of_seek
      · intro failed
        simp only [PositionalCall.offset, PositionalCall.seek] at failed ⊢
        simp only [positional, ftruncate, lseekInternal_set opened, if_neg failed, if_true]
        exact ⟨trivial, iff_of_true trivial trivial, objects_setObject _⟩
      · intro position ok
        simp only [PositionalCall.offset, PositionalCall.seek] at ok ⊢
        have kept : (files.setObject fil ((files.objects fil).moveTo position)).files_.lookup fd =
            some fil := opened
        have sought : files.lseekInternal fd length SEEK_SET seek =
            (0, files.setObject fil ((files.objects fil).moveTo position)) := by
          rw [lseekInternal_set opened, ok]
          rfl
        rw [positional, ftruncate, sought]
        simp only [kept, objects_setObject]
        rw [if_neg (by decide)]
        refine ⟨rfl, ?_⟩
        simp only [objects_setObject, FileObject.f_truncate_fptr]
        exact (BitVec.add_zero position).symm

/-! ## The calls that go on where the pointer stands -/

/-- Reading returns what the manager returns that is told what FatFs has read. -/
theorem read_returned (buf_null : Bool) (count : BitVec 64) (answer : TransferAnswer) :
    ∃ res read_bytes, (files.read fd buf_null count answer).returned =
      files.toFileManager.read fd buf_null count.toNat res read_bytes := by
  have zero : count = 0 ↔ count.toNat = 0 := BitVec.toNat_inj.symm
  by_cases idle : buf_null ∨ count = 0
  · refine ⟨.FR_OK, 0, ?_⟩
    rw [read, if_pos idle, FileManager.read, if_pos (by rwa [← zero])]
  · cases found : files.files_.lookup fd with
    | none =>
        refine ⟨.FR_OK, 0, ?_⟩
        rw [read, if_neg idle, found, FileManager.read, if_neg (by rwa [← zero]), found]
        rfl
    | some fil_ptr =>
        refine ⟨((files.objects fil_ptr).f_read (count.setWidth 32) answer).1,
          ((files.objects fil_ptr).f_read (count.setWidth 32) answer).2.1.toNat, ?_⟩
        rw [read, if_neg idle, found, FileManager.read, if_neg (by rwa [← zero]), found]
        rfl

theorem write_returned (count : BitVec 64) (answer : TransferAnswer) :
    ∃ res written_bytes, (files.write fd count answer).returned =
      files.toFileManager.write fd res written_bytes := by
  cases found : files.files_.lookup fd with
  | none =>
      refine ⟨.FR_OK, 0, ?_⟩
      rw [write, found, FileManager.write, found]
      rfl
  | some fil_ptr =>
      refine ⟨((files.objects fil_ptr).f_write (count.setWidth 32) answer).1,
        ((files.objects fil_ptr).f_write (count.setWidth 32) answer).2.1.toNat, ?_⟩
      rw [write, found, FileManager.write, found]
      rfl

theorem read_transfer (opened : files.files_.lookup fd = some fil) {count : BitVec 64}
    (asks : count ≠ 0) (answer : TransferAnswer) :
    (files.read fd false count answer).transfer = some (files.objects fil).fptr := by
  have idle : ¬((false : Bool) = true ∨ count = 0) := by simpa using asks
  rw [read, if_neg idle, opened]
  rfl

theorem write_transfer (opened : files.files_.lookup fd = some fil) (count : BitVec 64)
    (answer : TransferAnswer) :
    (files.write fd count answer).transfer = some (files.objects fil).fptr := by
  rw [write, opened]
  rfl

end OpenFiles

end Conclave.Filesystem
