import ConclaveFormal.Filesystem.FileManager

/-!
# The read/write pointer of an open file

FatFs reads, writes and cuts a file where the pointer of its `FIL` object stands, and moves the
pointer by the bytes that it transfers.  What the volume and the disk have to say is an input.
-/

set_option autoImplicit false

namespace Conclave.Filesystem

/-- `FSIZE_t`, which has 32 bits without exFAT. -/
abbrev FSIZE_t : Type := BitVec 32

/-- What of a `FIL` object the calls go by. -/
structure FileObject where
  fptr : FSIZE_t
  objsize : FSIZE_t
  flag : BitVec 8
  err : FRESULT
  deriving DecidableEq

/-! ## What FatFs meets with -/

/-- The ways in which FatFs gives up, and leaves the error in the object. -/
inductive Abort where
  | FR_INT_ERR
  | FR_DISK_ERR
  deriving DecidableEq

def Abort.res : Abort → FRESULT
  | FR_INT_ERR => .FR_INT_ERR
  | FR_DISK_ERR => .FR_DISK_ERR

theorem Abort.res_ne (abort : Abort) : abort.res ≠ .FR_OK := by
  cases abort with
  | FR_INT_ERR => decide
  | FR_DISK_ERR => decide

/-- Where no cluster is left a transfer ends early without an error. -/
inductive Stop where
  | full
  | abort (abort : Abort)
  deriving DecidableEq

/-- What `validate` finds, and after how many bytes the transfer stops if it has not ended. -/
structure TransferAnswer where
  validate : FRESULT
  stop : Option (BitVec 32 × Stop)
  deriving DecidableEq

/-- How far the pointer gets along the clusters. -/
inductive SeekOutcome where
  | moved
  | full (fptr : FSIZE_t)
  | aborted (abort : Abort) (fptr objsize : FSIZE_t)
  deriving DecidableEq

structure SeekAnswer where
  validate : FRESULT
  outcome : SeekOutcome
  deriving DecidableEq

structure TruncateAnswer where
  validate : FRESULT
  abort : Option Abort
  deriving DecidableEq

namespace FileObject

/-! ## The calls -/

def f_tell (fp : FileObject) : FSIZE_t := fp.fptr

def f_size (fp : FileObject) : FSIZE_t := fp.objsize

/-- Every call begins with this check. -/
def valid (fp : FileObject) (validate : FRESULT) : FRESULT :=
  if validate ≠ .FR_OK then validate else fp.err

def abortWith (fp : FileObject) (abort : Abort) : FRESULT × FileObject :=
  (abort.res, { fp with err := abort.res })

/-- A file that is not written to is not extended by seeking. -/
def clip (fp : FileObject) (ofs : FSIZE_t) : FSIZE_t :=
  if ofs > fp.objsize ∧ fp.flag &&& FA_WRITE = 0 then fp.objsize else ofs

def moveTo (fp : FileObject) (fptr : FSIZE_t) : FileObject :=
  { fp with
    fptr := fptr
    objsize := if fptr > fp.objsize then fptr else fp.objsize }

def f_lseek (fp : FileObject) (ofs : FSIZE_t) (answer : SeekAnswer) : FRESULT × FileObject :=
  let res := fp.valid answer.validate
  if res ≠ .FR_OK then (res, fp)
  else
    let ofs := fp.clip ofs
    -- The top of the file is reached without looking at a cluster.
    if ofs = 0 then (.FR_OK, fp.moveTo 0)
    else
      match answer.outcome with
      | .moved => (.FR_OK, fp.moveTo ofs)
      | .full fptr =>
          (.FR_OK, fp.moveTo (if fp.flag &&& FA_WRITE ≠ 0 ∧ fptr < ofs then fptr else ofs))
      | .aborted abort fptr objsize =>
          { fp with fptr := fptr, objsize := objsize }.abortWith abort

/-- The bytes that are read, and how it ends if not well. -/
def readable (fp : FileObject) (btr : BitVec 32) (stop : Option (BitVec 32 × Stop)) :
    BitVec 32 × Option Abort :=
  let remain := fp.objsize - fp.fptr
  let btr := if btr > remain then remain else btr
  match stop with
  | some (done, .abort abort) => if done < btr then (done, some abort) else (btr, none)
  | _ => (btr, none)

def f_read (fp : FileObject) (btr : BitVec 32) (answer : TransferAnswer) :
    FRESULT × BitVec 32 × FileObject :=
  let res := fp.valid answer.validate
  if res ≠ .FR_OK then (res, 0, fp)
  else if fp.flag &&& FA_READ = 0 then (.FR_DENIED, 0, fp)
  else
    let (br, abort) := fp.readable btr answer.stop
    let fp := { fp with fptr := fp.fptr + br }
    match abort with
    | none => (.FR_OK, br, fp)
    | some abort => ((fp.abortWith abort).1, br, (fp.abortWith abort).2)

/-- The bytes that are written, and how it ends if not well. -/
def room (fp : FileObject) (btw : BitVec 32) (stop : Option (BitVec 32 × Stop)) :
    BitVec 32 × Option Abort :=
  let btw := if fp.fptr + btw < fp.fptr then 0xFFFFFFFF - fp.fptr else btw
  match stop with
  | some (done, .abort abort) => if done < btw then (done, some abort) else (btw, none)
  | some (done, .full) => (if done < btw then done else btw, none)
  | none => (btw, none)

def f_write (fp : FileObject) (btw : BitVec 32) (answer : TransferAnswer) :
    FRESULT × BitVec 32 × FileObject :=
  let res := fp.valid answer.validate
  if res ≠ .FR_OK then (res, 0, fp)
  else if fp.flag &&& FA_WRITE = 0 then (.FR_DENIED, 0, fp)
  else
    let (bw, abort) := fp.room btw answer.stop
    let fp := if bw = 0 then fp else fp.moveTo (fp.fptr + bw)
    match abort with
    | none => (.FR_OK, bw, fp)
    | some abort => ((fp.abortWith abort).1, bw, (fp.abortWith abort).2)

def f_truncate (fp : FileObject) (answer : TruncateAnswer) : FRESULT × FileObject :=
  let res := fp.valid answer.validate
  if res ≠ .FR_OK then (res, fp)
  else if fp.flag &&& FA_WRITE = 0 then (.FR_DENIED, fp)
  else if fp.fptr < fp.objsize then
    let fp := { fp with objsize := fp.fptr }
    match answer.abort with
    | none => (.FR_OK, fp)
    | some abort => fp.abortWith abort
  else (.FR_OK, fp)

/-! ## Where the pointer goes -/

/-- What seeking comes to: nothing is done, the pointer is left somewhere on the way, or it gets
to a position. -/
inductive Sought where
  | refused
  | aborted (left : FSIZE_t)
  | reached (position : FSIZE_t)
  deriving DecidableEq

/-- The pointer stops before the position if the disk is full, and the file can be extended. -/
def furthest (fp : FileObject) (ofs : FSIZE_t) : SeekOutcome → Sought
  | .moved => .reached ofs
  | .full fptr => .reached (if fp.flag &&& FA_WRITE ≠ 0 ∧ fptr < ofs then fptr else ofs)
  | .aborted _ fptr _ => .aborted fptr

def sought (fp : FileObject) (ofs : FSIZE_t) (answer : SeekAnswer) : Sought :=
  if fp.valid answer.validate ≠ .FR_OK then .refused
  else if fp.clip ofs = 0 then .reached 0
  else fp.furthest (fp.clip ofs) answer.outcome

def bytesRead (fp : FileObject) (btr : BitVec 32) (answer : TransferAnswer) : BitVec 32 :=
  if fp.valid answer.validate ≠ .FR_OK ∨ fp.flag &&& FA_READ = 0 then 0
  else (fp.readable btr answer.stop).1

def bytesWritten (fp : FileObject) (btw : BitVec 32) (answer : TransferAnswer) : BitVec 32 :=
  if fp.valid answer.validate ≠ .FR_OK ∨ fp.flag &&& FA_WRITE = 0 then 0
  else (fp.room btw answer.stop).1

/-- How the answer of `f_lseek` goes with the pointer. -/
inductive SeekResult (fp : FileObject) (result : FRESULT × FileObject) : Sought → Prop where
  | refused (failed : result.1 ≠ .FR_OK) (same : result.2 = fp) : SeekResult fp result .refused
  | aborted {left : FSIZE_t} (failed : result.1 ≠ .FR_OK) (fptr : result.2.fptr = left) :
      SeekResult fp result (.aborted left)
  | reached {position : FSIZE_t} (ok : result = (.FR_OK, fp.moveTo position)) :
      SeekResult fp result (.reached position)

variable {fp : FileObject}

theorem f_lseek_result (ofs : FSIZE_t) (answer : SeekAnswer) :
    SeekResult fp (fp.f_lseek ofs answer) (fp.sought ofs answer) := by
  simp only [f_lseek, sought]
  by_cases usable : fp.valid answer.validate = .FR_OK
  · rw [if_neg (not_not_intro usable), if_neg (not_not_intro usable)]
    by_cases top : fp.clip ofs = 0
    · rw [if_pos top, if_pos top]
      exact .reached rfl
    · rw [if_neg top, if_neg top]
      cases answer.outcome with
      | moved => exact .reached rfl
      | full fptr => exact .reached rfl
      | aborted abort fptr objsize => exact .aborted abort.res_ne rfl
  · rw [if_pos usable, if_pos usable]
    exact .refused usable rfl

theorem f_read_fptr (btr : BitVec 32) (answer : TransferAnswer) :
    (fp.f_read btr answer).2.2.fptr = fp.fptr + fp.bytesRead btr answer := by
  simp only [f_read, bytesRead]
  by_cases usable : fp.valid answer.validate = .FR_OK
  · by_cases mode : fp.flag &&& FA_READ = 0
    · simp [usable, mode]
    · simp only [usable, mode, ne_eq, not_true, if_false, or_self]
      cases (fp.readable btr answer.stop).2 with
      | none => rfl
      | some abort => rfl
  · simp [usable]

theorem f_write_fptr (btw : BitVec 32) (answer : TransferAnswer) :
    (fp.f_write btw answer).2.2.fptr = fp.fptr + fp.bytesWritten btw answer := by
  simp only [f_write, bytesWritten]
  by_cases usable : fp.valid answer.validate = .FR_OK
  · by_cases mode : fp.flag &&& FA_WRITE = 0
    · simp [usable, mode]
    · simp only [usable, mode, ne_eq, not_true, if_false, or_self]
      have moved : (if (fp.room btw answer.stop).1 = 0 then fp
          else fp.moveTo (fp.fptr + (fp.room btw answer.stop).1)).fptr =
            fp.fptr + (fp.room btw answer.stop).1 := by
        split_ifs with nothing
        · rw [nothing]
          exact (BitVec.add_zero fp.fptr).symm
        · rfl
      cases (fp.room btw answer.stop).2 with
      | none => exact moved
      | some abort => exact moved
  · simp [usable]

theorem f_truncate_fptr (answer : TruncateAnswer) :
    (fp.f_truncate answer).2.fptr = fp.fptr := by
  simp only [f_truncate]
  split_ifs
  · rfl
  · rfl
  · cases answer.abort with
    | none => rfl
    | some abort => rfl
  · rfl

end FileObject

end Conclave.Filesystem
