import ConclaveFormal.Filesystem.OpenFiles
import Mathlib.Data.Int.Basic

/-!
# Where a file is read and written

The calls that are given an offset share the pointer of the file with those that are not, and leave
it where they end.  Seeking reports no position, and an offset is cut to 32 bits.
-/

set_option autoImplicit false

namespace Conclave.Filesystem.Positions

open OpenFiles

variable {files : OpenFiles} {fd : Int} {fil : FIL}

/-! ## The place that sequential calls go on from -/

/-- The call leaves the pointer where it was. -/
def Undisturbed (files : OpenFiles) (fd : Int) (fil : FIL) (call : PositionalCall) : Prop :=
  ((files.positional fd call).files.objects fil).fptr = (files.objects fil).fptr

/-- There is nothing to be done, FatFs refuses to seek or is cut off where the pointer stood, or
the bytes that it transfers lead from the offset back to there. -/
def ComesBack (fp : FileObject) (call : PositionalCall) : Prop :=
  call.Asks →
    match fp.sought (call.offset.setWidth 32) call.seek with
    | .refused => True
    | .aborted left => left = fp.fptr
    | .reached position => position + call.moved (fp.moveTo position) = fp.fptr

theorem positional_of_not_asks {call : PositionalCall} (idle : ¬call.Asks) :
    (files.positional fd call) = ⟨0, none, files, none⟩ := by
  cases call with
  | pread buf_null count offset seek answer =>
      rw [positional, pread, if_pos (not_not.mp idle)]
  | pwrite buf_null count offset seek answer =>
      rw [positional, pwrite, if_pos (not_not.mp idle)]
  | ftruncate length seek answer => exact absurd trivial idle

/-- A call that is given an offset disturbs the calls that are not, unless it comes back. -/
theorem undisturbed_iff (opened : files.files_.lookup fd = some fil) (call : PositionalCall) :
    Undisturbed files fd fil call ↔ ComesBack (files.objects fil) call := by
  rw [Undisturbed, ComesBack]
  by_cases asks : call.Asks
  · have result := positioned opened asks
    generalize (files.objects fil).sought (call.offset.setWidth 32) call.seek = sought at result ⊢
    cases result with
    | refused _ _ fptr => simp [asks, fptr]
    | aborted _ _ fptr => simp [asks, fptr]
    | reached _ fptr => simp [asks, fptr]
  · rw [positional_of_not_asks asks]
    simp [asks]

/-- One file of ten bytes, which is open for reading and writing at the fifth. -/
def oneFile : OpenFiles where
  toFileManager :=
    (FileManager.new ⟨1, 10, by decide⟩ 0 "/").insertFileHandle 1 1 "0:/data"
  objects := fun _ => ⟨5, 10, FA_READ ||| FA_WRITE, .FR_OK⟩

def moved : SeekAnswer := ⟨.FR_OK, .moved⟩

def transferred : TransferAnswer := ⟨.FR_OK, none⟩

theorem opened_oneFile : oneFile.files_.lookup 1 = some 1 := AList.lookup_insert _

/-- The two bytes in front of the pointer. -/
theorem undisturbed_readBehind :
    Undisturbed oneFile 1 1 (.pread false 2 3 moved transferred) :=
  (undisturbed_iff opened_oneFile _).mpr fun _ => rfl

/-- One byte is read from the top of the file, and the pointer stays behind it. -/
theorem pointer_left_behind :
    ¬∀ (files : OpenFiles) (fd : Int) (fil : FIL) (call : PositionalCall),
      files.files_.lookup fd = some fil → Undisturbed files fd fil call := by
  intro stated
  have kept := stated oneFile 1 1 (.pread false 1 0 moved transferred) opened_oneFile
  have after : ((oneFile.positional 1 (.pread false 1 0 moved transferred)).files.objects 1).fptr =
      1 := by
    rfl
  rw [Undisturbed, after] at kept
  cases kept

/-! ## Seeking -/

/-- The position that an offset stands for. -/
def target (fp : FileObject) (offset : BitVec 64) (whence : Int) : Int :=
  (base fp whence).toNat + offset.toInt

/-- The next bytes that are read or written without an offset are those at the position. -/
def NextAt (files : OpenFiles) (fd : Int) (position : Int) : Prop :=
  ∀ (count : BitVec 64) (answer : TransferAnswer), count ≠ 0 →
    ∃ begins : FSIZE_t, (files.read fd false count answer).transfer = some begins ∧
      (files.write fd count answer).transfer = some begins ∧ (begins.toNat : Int) = position

/-- `lseek` fails and does nothing, or returns the position that it gets to. -/
def SeeksLikePosix (files : OpenFiles) (fd : Int) (fil : FIL) (offset : BitVec 64) (whence : Int)
    (answer : SeekAnswer) : Prop :=
  let out := files.lseek fd offset whence answer
  (out.returned = -1 ∧ (out.files.objects fil).fptr = (files.objects fil).fptr) ∨
    (out.returned = target (files.objects fil) offset whence ∧
      NextAt out.files fd (target (files.objects fil) offset whence))

/-- The offset leads to the top of the file, or FatFs fails and leaves the pointer alone. -/
def SeeksToTop (fp : FileObject) (offset : BitVec 64) (whence : Int) (answer : SeekAnswer) :
    Prop :=
  if whence = SEEK_CUR ∧ offset = 0 then fp.fptr = 0
  else
    match fp.sought (((base fp whence).setWidth 64 + offset).setWidth 32) answer with
    | .refused => True
    | .aborted left => left = fp.fptr
    | .reached _ => target fp offset whence = 0

theorem nextAt_iff (opened : files.files_.lookup fd = some fil) {position : Int} :
    NextAt files fd position ↔ ((files.objects fil).fptr.toNat : Int) = position := by
  constructor
  · intro next
    obtain ⟨begins, reads, -, found⟩ := next 1 transferred (by decide)
    rw [read_transfer opened (by decide)] at reads
    cases reads
    exact found
  · intro stands count answer asks
    exact ⟨_, read_transfer opened asks answer, write_transfer opened count answer, stands⟩

theorem narrowed_of_target_zero {fp : FileObject} {offset : BitVec 64} {whence : Int}
    (top : target fp offset whence = 0) :
    ((base fp whence).setWidth 64 + offset).setWidth 32 = (0 : BitVec 32) := by
  have whole : (base fp whence).setWidth 64 + offset = 0 := by
    have same : (base fp whence).setWidth 64 + offset =
        BitVec.ofInt 64 (target fp offset whence) := by
      rw [target, BitVec.ofInt_add, BitVec.ofInt_toInt, BitVec.ofInt_natCast, BitVec.ofNat_toNat]
    rw [same, top]
    rfl
  rw [whole]
  rfl

theorem sought_zero {fp : FileObject} {answer : SeekAnswer} {position : FSIZE_t}
    (reached : fp.sought 0 answer = .reached position) : position = 0 := by
  have top : fp.clip 0 = 0 := by
    rw [FileObject.clip, if_neg]
    rintro ⟨beyond, -⟩
    exact absurd beyond (BitVec.not_lt_zero)
  rw [FileObject.sought] at reached
  split_ifs at reached
  · cases reached
    rfl

theorem seeksLikePosix_iff (opened : files.files_.lookup fd = some fil) (offset : BitVec 64)
    (whence : Int) (answer : SeekAnswer) :
    SeeksLikePosix files fd fil offset whence answer ↔
      SeeksToTop (files.objects fil) offset whence answer := by
  rw [SeeksLikePosix, SeeksToTop]
  by_cases idle : whence = SEEK_CUR ∧ offset = 0
  · have out : files.lseek fd offset whence answer = ⟨0, none, files, none⟩ := by
      rw [lseek, lseekInternal, if_pos idle]
    have here : target (files.objects fil) offset whence =
        ((files.objects fil).fptr.toNat : Int) := by
      obtain ⟨rfl, rfl⟩ := idle
      exact Int.add_zero _
    simp only [out, here, nextAt_iff opened, if_pos idle]
    constructor
    · rintro (⟨failed, -⟩ | ⟨top, -⟩)
      · cases failed
      · exact BitVec.eq_of_toNat_eq (Int.ofNat.inj top.symm)
    · intro top
      rw [top]
      exact Or.inr ⟨rfl, trivial⟩
  · rw [if_neg idle]
    simp only [lseek, lseekInternal_eq opened idle]
    have narrow := @narrowed_of_target_zero (files.objects fil) offset whence
    generalize ((base (files.objects fil) whence).setWidth 64 + offset).setWidth 32 = ofs
      at narrow ⊢
    have result := (files.objects fil).f_lseek_result ofs answer
    have stillOpened (fp : FileObject) : (files.setObject fil fp).files_.lookup fd = some fil :=
      opened
    generalize found : (files.objects fil).sought ofs answer = sought at result ⊢
    cases result with
    | refused failed same =>
        rw [if_neg failed, same]
        exact iff_of_true (Or.inl ⟨rfl, by rw [objects_setObject]⟩) trivial
    | aborted failed fptr =>
        rw [if_neg failed, nextAt_iff (stillOpened _), objects_setObject, fptr]
        refine ⟨?_, fun same => Or.inl ⟨rfl, same⟩⟩
        rintro (⟨-, same⟩ | ⟨negative, position⟩)
        · exact same
        · rw [← negative] at position
          omega
    | reached ok =>
        rw [ok, if_pos rfl, nextAt_iff (stillOpened _), objects_setObject]
        constructor
        · rintro (⟨failed, -⟩ | ⟨top, -⟩)
          · cases failed
          · exact top.symm
        · intro top
          rw [narrow top] at found
          rw [top, sought_zero found]
          exact Or.inr ⟨rfl, rfl⟩

/-- FatFs is asked to transfer or to cut at exactly the offset, or the call fails and leaves the
pointer alone. -/
def ExactOrFails (files : OpenFiles) (fd : Int) (fil : FIL) (call : PositionalCall) : Prop :=
  let out := files.positional fd call
  call.Asks →
    (∃ position, out.transfer = some position ∧ (position.toNat : Int) = call.offset.toInt) ∨
      (out.transfer = none ∧ out.returned = -1 ∧
        (out.files.objects fil).fptr = (files.objects fil).fptr)

/-- FatFs gets to the offset, of which there are 32 bits.  Only `ftruncate` fails properly. -/
def GetsThere (fp : FileObject) (call : PositionalCall) : Prop :=
  call.Asks →
    match fp.sought (call.offset.setWidth 32) call.seek with
    | .refused => call.IsTruncation
    | .aborted left => call.IsTruncation ∧ left = fp.fptr
    | .reached position => (position.toNat : Int) = call.offset.toInt

theorem exactOrFails_iff (opened : files.files_.lookup fd = some fil) (call : PositionalCall) :
    ExactOrFails files fd fil call ↔ GetsThere (files.objects fil) call := by
  rw [ExactOrFails, GetsThere]
  refine forall_congr' fun asks => ?_
  have result := positioned opened asks
  generalize (files.objects fil).sought (call.offset.setWidth 32) call.seek = sought at result ⊢
  cases result with
  | refused nothing failed fptr => simp [nothing, failed, fptr]
  | aborted nothing failed fptr => simp [nothing, failed, fptr]
  | reached begins fptr => simp [begins]

/-- `lseek` follows Posix only where it gets to the top of the file or fails, and the calls that are
given an offset only where FatFs gets to it. -/
theorem seeks_exactly_iff (opened : files.files_.lookup fd = some fil) :
    (∀ offset whence answer, whence ∈ [SEEK_SET, SEEK_CUR, SEEK_END] →
      (SeeksLikePosix files fd fil offset whence answer ↔
        SeeksToTop (files.objects fil) offset whence answer)) ∧
      ∀ call, ExactOrFails files fd fil call ↔ GetsThere (files.objects fil) call :=
  ⟨fun offset whence answer _ => seeksLikePosix_iff opened offset whence answer,
    fun call => exactOrFails_iff opened call⟩

theorem seeks_exactly_oneFile :
    SeeksLikePosix oneFile 1 1 (-5) SEEK_CUR moved ∧
      ExactOrFails oneFile 1 1 (.pwrite false 1 7 moved transferred) := by
  have exactly := seeks_exactly_iff opened_oneFile
  exact ⟨(exactly.1 _ _ _ (by decide)).mpr rfl, (exactly.2 _).mpr fun _ => rfl⟩

/-- The pointer gets to the seventh byte, and zero is returned. -/
theorem position_not_returned :
    ¬∀ (files : OpenFiles) (fd : Int) (fil : FIL), files.files_.lookup fd = some fil →
      (∀ offset whence answer, whence ∈ [SEEK_SET, SEEK_CUR, SEEK_END] →
        SeeksLikePosix files fd fil offset whence answer) ∧
      ∀ call, ExactOrFails files fd fil call := by
  intro stated
  have law := (stated oneFile 1 1 opened_oneFile).1 7 SEEK_SET moved (by decide)
  have zero : (oneFile.lseek 1 7 SEEK_SET moved).returned = 0 := by rfl
  have seventh : target (oneFile.objects 1) 7 SEEK_SET = 7 := by rfl
  rw [SeeksLikePosix] at law
  simp only [zero, seventh] at law
  rcases law with ⟨failed, -⟩ | ⟨same, -⟩
  · cases failed
  · cases same

end Conclave.Filesystem.Positions
