import ConclaveFormal.Filesystem.FileManager
import ConclaveFormal.Lib.Frame

/-!
# Directory streams

An open directory is named by four maps.  `opendir` fills two of them, and each variant of `readdir`
fills one of the others at its first call.  What `closedir` goes by are the latter two.
-/

set_option autoImplicit false

namespace Conclave.Filesystem

open Conclave.Lib

/-- The address of a `DIR` object, which the caller of `opendir` holds. -/
abbrev DIR : Type := Nat

namespace DirectoryStreams

inductive DirErrno where
  | EBADF
  | ENOTDIR
  | EACCES
  | ENOENT
  deriving DecidableEq, Repr

/-- `struct dirent`, and `struct dirent64`, which has the same fields. -/
structure Dirent where
  d_ino : BitVec 64
  d_off : BitVec 64
  d_reclen : BitVec 16
  d_type : BitVec 8
  d_name : String
  deriving DecidableEq, Repr

/-- What `f_readdir` answers, with the entry in `FILINFO`. -/
structure FilInfo where
  res : FRESULT
  fattrib : BitVec 8
  fname : String
  deriving DecidableEq

def DT_DIR : BitVec 32 := 0x4000
def DT_REG : BitVec 32 := 0x8000

end DirectoryStreams

open DirectoryStreams

structure DirectoryStreams extends FileManager where
  inverse_dir_paths_ : AssocMap DIR String
  dirents_ : AssocMap DIR Dirent
  dirents64_ : AssocMap DIR Dirent

namespace DirectoryStreams

/-! ## The calls -/

structure Outcome (α : Type) where
  returned : α
  err : Option DirErrno
  streams : DirectoryStreams

def new (manager : FileManager) : DirectoryStreams where
  toFileManager := { manager with dir_paths_ := ∅ }
  inverse_dir_paths_ := ∅
  dirents_ := ∅
  dirents64_ := ∅

def addDirHandle (streams : DirectoryStreams) (dir_ptr : DIR) (path : String) :
    DirectoryStreams :=
  { streams with
    dir_paths_ := streams.dir_paths_.insert path dir_ptr
    inverse_dir_paths_ := streams.inverse_dir_paths_.insert dir_ptr path }

def opendir (streams : DirectoryStreams) (path_in : Option String) (dir_ptr : DIR)
    (res : FRESULT) : Outcome DIR :=
  let path := streams.generateFatFsPath path_in
  if path = "" then ⟨nullptr, some .ENOTDIR, streams⟩
  else if (streams.dir_paths_.lookup path).isSome then ⟨nullptr, some .EACCES, streams⟩
  else if res ≠ .FR_OK then ⟨nullptr, some .ENOENT, streams⟩
  else ⟨dir_ptr, none, streams.addDirHandle dir_ptr path⟩

/-- `calloc`. -/
def blank : Dirent := ⟨0, 0, 0, 0, ""⟩

/-- The type does not fit into the eight bits that there are for it. -/
def filled (info : FilInfo) : Dirent where
  d_ino := 0
  d_off := 0
  d_reclen := BitVec.ofNat 16 info.fname.utf8ByteSize
  d_type := (if info.fattrib &&& AM_DIR ≠ 0 then DT_DIR else DT_REG).setWidth 8
  d_name := info.fname

/-- The scratch space of a directory, which its first call makes. -/
def allocate (scratch : AssocMap DIR Dirent) (dirp : DIR) : AssocMap DIR Dirent :=
  if (scratch.lookup dirp).isSome then scratch else scratch.insert dirp blank

/-- What both variants do: the entry they return, the error, and the scratch space they leave. -/
def readEntry (scratch : AssocMap DIR Dirent) (dirp : DIR) (info : FilInfo) :
    Option Dirent × Option DirErrno × AssocMap DIR Dirent :=
  if dirp = nullptr then (none, some .EBADF, scratch)
  else
    let allocated := allocate scratch dirp
    if info.res ≠ .FR_OK then (none, some .EBADF, allocated)
    else if info.fname = "" then (none, none, allocated)
    else (some (filled info), none, allocated.insert dirp (filled info))

def readdir64 (streams : DirectoryStreams) (dirp : DIR) (info : FilInfo) :
    Outcome (Option Dirent) :=
  let (entry, err, scratch) := readEntry streams.dirents64_ dirp info
  ⟨entry, err, { streams with dirents64_ := scratch }⟩

def readdir (streams : DirectoryStreams) (dirp : DIR) (info : FilInfo) :
    Outcome (Option Dirent) :=
  let (entry, err, scratch) := readEntry streams.dirents_ dirp info
  ⟨entry, err, { streams with dirents_ := scratch }⟩

def freeDirents (streams : DirectoryStreams) (dirp : DIR) : DirectoryStreams :=
  { streams with
    dirents_ := streams.dirents_.erase dirp
    dirents64_ := streams.dirents64_.erase dirp }

def eraseDirHandle (streams : DirectoryStreams) (dirp : DIR) (path : String) :
    DirectoryStreams :=
  { streams with
    dir_paths_ := streams.dir_paths_.erase path
    inverse_dir_paths_ := streams.inverse_dir_paths_.erase dirp }

/-- Nothing is returned where `inverse_dir_paths_.at` throws. -/
def closedir (streams : DirectoryStreams) (dirp : DIR) (res : FRESULT) : Outcome (Option Int) :=
  if dirp = nullptr then ⟨some (-1), some .EBADF, streams⟩
  else if (streams.dirents_.lookup dirp).isNone ∧ (streams.dirents64_.lookup dirp).isNone then
    ⟨some (-1), some .EBADF, streams⟩
  else
    let freed := streams.freeDirents dirp
    if res ≠ .FR_OK then ⟨some (-1), some .EBADF, freed⟩
    else
      match freed.inverse_dir_paths_.lookup dirp with
      | none => ⟨none, none, freed⟩
      | some path => ⟨some 0, none, freed.eraseDirHandle dirp path⟩

/-! ## Runs -/

inductive DirOperation where
  | opendir (path_in : Option String) (dir_ptr : DIR) (res : FRESULT)
  | readdir (dirp : DIR) (info : FilInfo)
  | readdir64 (dirp : DIR) (info : FilInfo)
  | closedir (dirp : DIR) (res : FRESULT)
  deriving DecidableEq

def next (streams : DirectoryStreams) : DirOperation → DirectoryStreams
  | .opendir path_in dir_ptr res => (streams.opendir path_in dir_ptr res).streams
  | .readdir dirp info => (streams.readdir dirp info).streams
  | .readdir64 dirp info => (streams.readdir64 dirp info).streams
  | .closedir dirp res => (streams.closedir dirp res).streams

def step (streams : DirectoryStreams) (operation : DirOperation) : Option DirectoryStreams :=
  some (streams.next operation)

/-- No map names the object. -/
def Unused (streams : DirectoryStreams) (dir : DIR) : Prop :=
  dir ∉ streams.inverse_dir_paths_ ∧ dir ∉ streams.dirents_ ∧ dir ∉ streams.dirents64_

/-- `new DIR()` makes an object that is not in use. -/
def Allowed (streams : DirectoryStreams) : DirOperation → Prop
  | .opendir _ dir_ptr _ => dir_ptr ≠ nullptr ∧ streams.Unused dir_ptr
  | _ => True

/-! ## Both maps of paths -/

/-- The two maps of paths are inverse to each other. -/
def Paired (streams : DirectoryStreams) : Prop :=
  ∀ path dir, streams.dir_paths_.lookup path = some dir ↔
    streams.inverse_dir_paths_.lookup dir = some path

theorem paired_new (manager : FileManager) : (new manager).Paired := by
  intro path dir
  exact iff_of_false (by simp [new]) (by simp [new])

section Calls

variable {streams : DirectoryStreams} {path : String} {dirp : DIR}

theorem opendir_streams (path_in : Option String) (dir_ptr : DIR) (res : FRESULT) :
    (streams.opendir path_in dir_ptr res).streams = streams ∨
      streams.dir_paths_.lookup (streams.generateFatFsPath path_in) = none ∧
        (streams.opendir path_in dir_ptr res).streams =
          streams.addDirHandle dir_ptr (streams.generateFatFsPath path_in) := by
  simp only [opendir]
  split_ifs with empty twice failed
  · exact Or.inl rfl
  · exact Or.inl rfl
  · exact Or.inl rfl
  · exact Or.inr ⟨Option.not_isSome_iff_eq_none.mp twice, rfl⟩

theorem closedir_streams (dirp : DIR) (res : FRESULT) :
    (streams.closedir dirp res).streams = streams ∨
      (streams.closedir dirp res).streams = streams.freeDirents dirp ∨
        ∃ path, streams.inverse_dir_paths_.lookup dirp = some path ∧
          (streams.closedir dirp res).streams =
            (streams.freeDirents dirp).eraseDirHandle dirp path := by
  simp only [closedir]
  split_ifs with null unknown failed
  · exact Or.inl rfl
  · exact Or.inl rfl
  · exact Or.inr (Or.inl rfl)
  · cases named : (streams.freeDirents dirp).inverse_dir_paths_.lookup dirp with
    | none => exact Or.inr (Or.inl rfl)
    | some path => exact Or.inr (Or.inr ⟨path, named, rfl⟩)

theorem Paired.addDirHandle (paired : streams.Paired)
    (unopened : streams.dir_paths_.lookup path = none)
    (unused : streams.inverse_dir_paths_.lookup dirp = none) :
    (streams.addDirHandle dirp path).Paired := by
  intro other dir
  change (streams.dir_paths_.insert path dirp).lookup other = some dir ↔
    (streams.inverse_dir_paths_.insert dirp path).lookup dir = some other
  by_cases samePath : other = path
  · by_cases sameDir : dir = dirp
    · rw [samePath, sameDir, AList.lookup_insert, AList.lookup_insert]
      exact iff_of_true rfl rfl
    · rw [samePath, AList.lookup_insert, AList.lookup_insert_ne sameDir]
      refine iff_of_false (fun same => sameDir (Option.some.inj same).symm) ?_
      intro found
      rw [(paired path dir).mpr found] at unopened
      cases unopened
  · by_cases sameDir : dir = dirp
    · rw [sameDir, AList.lookup_insert, AList.lookup_insert_ne samePath]
      refine iff_of_false ?_ (fun same => samePath (Option.some.inj same).symm)
      intro found
      rw [(paired other dirp).mp found] at unused
      cases unused
    · rw [AList.lookup_insert_ne samePath, AList.lookup_insert_ne sameDir]
      exact paired other dir

theorem Paired.eraseDirHandle (paired : streams.Paired)
    (named : streams.inverse_dir_paths_.lookup dirp = some path) :
    (streams.eraseDirHandle dirp path).Paired := by
  have opened := (paired path dirp).mpr named
  intro other dir
  change (streams.dir_paths_.erase path).lookup other = some dir ↔
    (streams.inverse_dir_paths_.erase dirp).lookup dir = some other
  by_cases samePath : other = path
  · subst samePath
    rw [AList.lookup_erase]
    refine iff_of_false (by simp) ?_
    by_cases sameDir : dir = dirp
    · rw [sameDir, AList.lookup_erase]
      simp
    · rw [AList.lookup_erase_ne sameDir, ← paired, opened]
      exact fun same => sameDir (Option.some.inj same).symm
  · rw [AList.lookup_erase_ne samePath]
    by_cases sameDir : dir = dirp
    · subst sameDir
      rw [AList.lookup_erase, paired, named]
      exact iff_of_false (fun same => samePath (Option.some.inj same).symm) (by simp)
    · rw [AList.lookup_erase_ne sameDir]
      exact paired other dir

theorem Paired.next (paired : streams.Paired) {operation : DirOperation}
    (allowed : streams.Allowed operation) : (streams.next operation).Paired := by
  cases operation with
  | opendir path_in dir_ptr res =>
      change (streams.opendir path_in dir_ptr res).streams.Paired
      rcases opendir_streams path_in dir_ptr res with same | ⟨unopened, added⟩
      · rwa [same]
      · rw [added]
        exact paired.addDirHandle unopened (AList.lookup_eq_none.mpr allowed.2.1)
  | readdir dirp info => exact paired
  | readdir64 dirp info => exact paired
  | closedir dirp res =>
      change (streams.closedir dirp res).streams.Paired
      rcases closedir_streams dirp res with same | freed | ⟨path, named, erased⟩
      · rwa [same]
      · rw [freed]
        exact paired
      · rw [erased]
        exact Paired.eraseDirHandle paired named

end Calls

/-! ## One directory -/

/-- The operation is given the path of the directory or its object. -/
def Concerns (manager : FileManager) (path : String) (dirp : DIR) : DirOperation → Prop
  | .opendir path_in _ _ => manager.generateFatFsPath path_in = path
  | .readdir dir _ => dir = dirp
  | .readdir64 dir _ => dir = dirp
  | .closedir dir _ => dir = dirp

instance (manager : FileManager) (path : String) (dirp : DIR) :
    DecidablePred (Concerns manager path dirp) := by
  intro operation
  cases operation with
  | opendir path_in dir_ptr res =>
      exact inferInstanceAs (Decidable (manager.generateFatFsPath path_in = path))
  | readdir dir info => exact inferInstanceAs (Decidable (dir = dirp))
  | readdir64 dir info => exact inferInstanceAs (Decidable (dir = dirp))
  | closedir dir res => exact inferInstanceAs (Decidable (dir = dirp))

/-- One variant of `readdir` is called on the directory. -/
def Reads (dirp : DIR) (operation : DirOperation) : Prop :=
  ∃ info, operation = .readdir dirp info ∨ operation = .readdir64 dirp info

def Closes (dirp : DIR) (operation : DirOperation) : Prop :=
  ∃ res, operation = .closedir dirp res

/-- FatFs does not close the directory. -/
def StaysOpen (dirp : DIR) (operation : DirOperation) : Prop :=
  operation ≠ .closedir dirp .FR_OK

/-- The state without the directory. -/
def forget (path : String) (dirp : DIR) (streams : DirectoryStreams) : DirectoryStreams :=
  (streams.freeDirents dirp).eraseDirHandle dirp path

def HasScratch (dirp : DIR) (streams : DirectoryStreams) : Prop :=
  dirp ∈ streams.dirents_ ∨ dirp ∈ streams.dirents64_

/-- The directory is open, since the state `before` in which it was not. -/
structure HoldsOpen (before : DirectoryStreams) (path : String) (dirp : DIR)
    (streams : DirectoryStreams) : Prop where
  paired : streams.Paired
  notNull : dirp ≠ nullptr
  named : streams.inverse_dir_paths_.lookup dirp = some path
  drive : streams.drive_text_id_ = before.drive_text_id_

variable {before streams : DirectoryStreams} {path : String} {dirp : DIR}
  {operation : DirOperation}

/-! ### Reading -/

section Reading

variable {scratch : AssocMap DIR Dirent} {dir : DIR} {info : FilInfo}

theorem mem_allocate : dirp ∈ allocate scratch dir ↔ dir = dirp ∨ dirp ∈ scratch := by
  rw [allocate]
  split_ifs with known
  · refine ⟨Or.inr, ?_⟩
    rintro (rfl | member)
    · exact AList.lookup_isSome.mp known
    · exact member
  · rw [AList.mem_insert, eq_comm]

theorem erase_allocate : (allocate scratch dirp).erase dirp = scratch.erase dirp := by
  rw [allocate]
  split_ifs
  · rfl
  · exact AssocMap.erase_insert scratch dirp blank

theorem erase_allocate_ne (different : dir ≠ dirp) :
    (allocate scratch dir).erase dirp = allocate (scratch.erase dirp) dir := by
  rw [allocate, allocate, AList.lookup_erase_ne different]
  split_ifs
  · rfl
  · exact AssocMap.erase_insert_ne different.symm scratch blank

theorem mem_readEntry_iff (notNull : dirp ≠ nullptr) :
    dirp ∈ (readEntry scratch dir info).2.2 ↔ dir = dirp ∨ dirp ∈ scratch := by
  simp only [readEntry]
  split_ifs with null failed ends
  · rw [null]
    exact (or_iff_right notNull.symm).symm
  · exact mem_allocate
  · exact mem_allocate
  · rw [AList.mem_insert, mem_allocate]
    tauto

theorem erase_readEntry : (readEntry scratch dirp info).2.2.erase dirp = scratch.erase dirp := by
  simp only [readEntry]
  split_ifs
  · rfl
  · exact erase_allocate
  · exact erase_allocate
  · rw [AssocMap.erase_insert, erase_allocate]

theorem erase_readEntry_ne (different : dir ≠ dirp) :
    (readEntry scratch dir info).2.2.erase dirp =
      (readEntry (scratch.erase dirp) dir info).2.2 := by
  simp only [readEntry]
  split_ifs
  · rfl
  · exact erase_allocate_ne different
  · exact erase_allocate_ne different
  · rw [AssocMap.erase_insert_ne different.symm, erase_allocate_ne different]

end Reading

/-! ### One step -/

theorem drive_next : (streams.next operation).drive_text_id_ = streams.drive_text_id_ := by
  cases operation with
  | opendir path_in dir_ptr res =>
      change (streams.opendir path_in dir_ptr res).streams.drive_text_id_ = _
      rcases opendir_streams path_in dir_ptr res with same | ⟨-, added⟩
      · rw [same]
      · rw [added]
        rfl
  | readdir dir info => rfl
  | readdir64 dir info => rfl
  | closedir dir res =>
      change (streams.closedir dir res).streams.drive_text_id_ = _
      rcases closedir_streams dir res with same | freed | ⟨path, -, erased⟩
      · rw [same]
      · rw [freed]
        rfl
      · rw [erased]
        rfl

theorem generateFatFsPath_eq (drive : streams.drive_text_id_ = before.drive_text_id_)
    (path_in : Option String) :
    streams.generateFatFsPath path_in = before.generateFatFsPath path_in := by
  cases path_in with
  | none => rfl
  | some path =>
      rw [FileManager.generateFatFsPath, FileManager.generateFatFsPath, drive]

theorem HoldsOpen.ne_of_allowed (opened : HoldsOpen before path dirp streams)
    {path_in : Option String} {dir_ptr : DIR} {res : FRESULT}
    (allowed : streams.Allowed (.opendir path_in dir_ptr res)) : dir_ptr ≠ dirp := by
  rintro rfl
  exact allowed.2.1 (AList.lookup_isSome.mp (by rw [opened.named]; rfl))

theorem HoldsOpen.next (opened : HoldsOpen before path dirp streams)
    (allowed : streams.Allowed operation) (stays : StaysOpen dirp operation) :
    HoldsOpen before path dirp (streams.next operation) := by
  refine ⟨opened.paired.next allowed, opened.notNull, ?_, drive_next.trans opened.drive⟩
  cases operation with
  | opendir path_in dir_ptr res =>
      change (streams.opendir path_in dir_ptr res).streams.inverse_dir_paths_.lookup dirp = _
      rcases opendir_streams path_in dir_ptr res with same | ⟨-, added⟩
      · rw [same, opened.named]
      · rw [added]
        exact (AList.lookup_insert_ne (opened.ne_of_allowed allowed).symm).trans opened.named
  | readdir dir info => exact opened.named
  | readdir64 dir info => exact opened.named
  | closedir dir res =>
      by_cases own : dir = dirp
      · subst own
        have failed : res ≠ .FR_OK := fun ok => stays (by rw [ok])
        change (streams.closedir dir res).streams.inverse_dir_paths_.lookup dir = _
        simp only [closedir]
        split_ifs
        · exact opened.named
        · exact opened.named
        · exact opened.named
      · change (streams.closedir dir res).streams.inverse_dir_paths_.lookup dirp = _
        rcases closedir_streams dir res with same | freed | ⟨other, -, erased⟩
        · rw [same, opened.named]
        · rw [freed]
          exact opened.named
        · rw [erased]
          exact (AList.lookup_erase_ne (Ne.symm own)).trans opened.named

theorem freeDirents_freeDirents :
    (streams.freeDirents dirp).freeDirents dirp = streams.freeDirents dirp := by
  have freed (scratch : AssocMap DIR Dirent) :
      (scratch.erase dirp).erase dirp = scratch.erase dirp :=
    AssocMap.erase_of_notMem fun member => (AList.mem_erase.mp member).1 rfl
  rw [freeDirents, freeDirents, freed, freed]

theorem forget_next_of_concerns (opened : HoldsOpen before path dirp streams)
    (own : Concerns before.toFileManager path dirp operation)
    (stays : StaysOpen dirp operation) :
    forget path dirp (streams.next operation) = forget path dirp streams := by
  cases operation with
  | opendir path_in dir_ptr res =>
      change forget path dirp (streams.opendir path_in dir_ptr res).streams = _
      rcases opendir_streams path_in dir_ptr res with same | ⟨unopened, -⟩
      · rw [same]
      · have asked : streams.generateFatFsPath path_in = path :=
          (generateFatFsPath_eq opened.drive path_in).trans own
        rw [asked, (opened.paired path dirp).mpr opened.named] at unopened
        cases unopened
  | readdir dir info =>
      have same : dir = dirp := own
      subst same
      change forget path dir { streams with
        dirents_ := (readEntry streams.dirents_ dir info).2.2 } = _
      rw [forget, forget, freeDirents, freeDirents, erase_readEntry]
  | readdir64 dir info =>
      have same : dir = dirp := own
      subst same
      change forget path dir { streams with
        dirents64_ := (readEntry streams.dirents64_ dir info).2.2 } = _
      rw [forget, forget, freeDirents, freeDirents, erase_readEntry]
  | closedir dir res =>
      have same : dir = dirp := own
      subst same
      have failed : res ≠ .FR_OK := fun ok => stays (by rw [ok])
      change forget path dir (streams.closedir dir res).streams = _
      simp only [closedir]
      split_ifs
      · rfl
      · rfl
      · rw [forget, freeDirents_freeDirents]
        rfl

theorem opendir_commutes {path_in : Option String} {dir_ptr : DIR} (res : FRESULT)
    (different : dir_ptr ≠ dirp) (elsewhere : streams.generateFatFsPath path_in ≠ path) :
    ((forget path dirp streams).opendir path_in dir_ptr res).streams =
      forget path dirp (streams.opendir path_in dir_ptr res).streams := by
  have asked : (forget path dirp streams).generateFatFsPath path_in =
      streams.generateFatFsPath path_in := generateFatFsPath_eq rfl path_in
  have known : (forget path dirp streams).dir_paths_.lookup
      (streams.generateFatFsPath path_in) =
        streams.dir_paths_.lookup (streams.generateFatFsPath path_in) :=
    AList.lookup_erase_ne elsewhere
  simp only [opendir]
  rw [asked, known]
  split_ifs
  · rfl
  · rfl
  · rfl
  · simp only [forget, freeDirents, eraseDirHandle, addDirHandle,
      AssocMap.erase_insert_ne different.symm, AssocMap.erase_insert_ne elsewhere.symm]

theorem closedir_commutes {dir : DIR} (res : FRESULT) (different : dir ≠ dirp) :
    ((forget path dirp streams).closedir dir res).streams =
      forget path dirp (streams.closedir dir res).streams := by
  have entry : (forget path dirp streams).dirents_.lookup dir =
      streams.dirents_.lookup dir := AList.lookup_erase_ne different
  have entry64 : (forget path dirp streams).dirents64_.lookup dir =
      streams.dirents64_.lookup dir := AList.lookup_erase_ne different
  have found : (forget path dirp (streams.freeDirents dir)).inverse_dir_paths_.lookup dir =
      (streams.freeDirents dir).inverse_dir_paths_.lookup dir :=
    AList.lookup_erase_ne different
  have freed : (forget path dirp streams).freeDirents dir =
      forget path dirp (streams.freeDirents dir) := by
    simp only [forget, freeDirents, eraseDirHandle, AList.erase_erase]
  simp only [closedir]
  rw [entry, entry64, freed]
  split_ifs
  · rfl
  · rfl
  · rfl
  · rw [found]
    cases named : (streams.freeDirents dir).inverse_dir_paths_.lookup dir with
    | none => rfl
    | some elsewhere => simp only [forget, freeDirents, eraseDirHandle, AList.erase_erase]

theorem next_forget (opened : HoldsOpen before path dirp streams)
    (allowed : streams.Allowed operation)
    (other : ¬Concerns before.toFileManager path dirp operation) :
    (forget path dirp streams).next operation = forget path dirp (streams.next operation) := by
  cases operation with
  | opendir path_in dir_ptr res =>
      have elsewhere : streams.generateFatFsPath path_in ≠ path := by
        rw [generateFatFsPath_eq opened.drive]
        exact other
      exact opendir_commutes res (opened.ne_of_allowed allowed) elsewhere
  | readdir dir info =>
      have moved := @erase_readEntry_ne dirp streams.dirents_ dir info other
      change { forget path dirp streams with
        dirents_ := (readEntry (streams.dirents_.erase dirp) dir info).2.2 } = _
      rw [← moved]
      rfl
  | readdir64 dir info =>
      have moved := @erase_readEntry_ne dirp streams.dirents64_ dir info other
      change { forget path dirp streams with
        dirents64_ := (readEntry (streams.dirents64_.erase dirp) dir info).2.2 } = _
      rw [← moved]
      rfl
  | closedir dir res => exact closedir_commutes res other

/-! ### Scratch spaces -/

theorem hasScratch_freeDirents {dir : DIR} :
    HasScratch dirp (streams.freeDirents dir) ↔ dirp ≠ dir ∧ HasScratch dirp streams := by
  rw [HasScratch, freeDirents, AList.mem_erase, AList.mem_erase, ← and_or_left]
  rfl

theorem hasScratch_closedir {dir : DIR} {res : FRESULT} (notNull : dirp ≠ nullptr) :
    HasScratch dirp (streams.closedir dir res).streams ↔
      HasScratch dirp streams ∧ dir ≠ dirp := by
  by_cases own : dir = dirp
  · subst own
    refine iff_of_false ?_ (fun both => both.2 rfl)
    simp only [closedir]
    rw [if_neg notNull]
    split_ifs with unknown failed
    · rintro (member | member)
      · rw [← AList.lookup_isSome, ← Option.not_isNone, unknown.1] at member
        cases member
      · rw [← AList.lookup_isSome, ← Option.not_isNone, unknown.2] at member
        cases member
    · exact fun member => (hasScratch_freeDirents.mp member).1 rfl
    · have freed : ¬HasScratch dir (streams.freeDirents dir) :=
        fun member => (hasScratch_freeDirents.mp member).1 rfl
      cases (streams.freeDirents dir).inverse_dir_paths_.lookup dir with
      | none => exact freed
      | some path => exact freed
  · have kept : HasScratch dirp (streams.freeDirents dir) ↔ HasScratch dirp streams :=
      hasScratch_freeDirents.trans (and_iff_right (Ne.symm own))
    rw [and_iff_left own]
    rcases closedir_streams dir res with same | freed | ⟨path, -, erased⟩
    · rw [same]
    · rw [freed, kept]
    · rw [erased]
      exact kept

theorem hasScratch_next (notNull : dirp ≠ nullptr) :
    HasScratch dirp (streams.next operation) ↔
      Reads dirp operation ∨ HasScratch dirp streams ∧ ¬Closes dirp operation := by
  cases operation with
  | opendir path_in dir_ptr res =>
      have kept : HasScratch dirp (streams.opendir path_in dir_ptr res).streams ↔
          HasScratch dirp streams := by
        rcases opendir_streams path_in dir_ptr res with same | ⟨-, added⟩
        · rw [same]
        · rw [added]
          rfl
      refine kept.trans ?_
      simp [Reads, Closes]
  | readdir dir info =>
      have entry := @mem_readEntry_iff dirp streams.dirents_ dir info notNull
      change dirp ∈ (readEntry streams.dirents_ dir info).2.2 ∨ dirp ∈ streams.dirents64_ ↔ _
      rw [entry]
      simp [Reads, Closes, HasScratch, or_assoc]
  | readdir64 dir info =>
      have entry := @mem_readEntry_iff dirp streams.dirents64_ dir info notNull
      change dirp ∈ streams.dirents_ ∨ dirp ∈ (readEntry streams.dirents64_ dir info).2.2 ↔ _
      rw [entry]
      simp [Reads, Closes, HasScratch, or_left_comm]
  | closedir dir res =>
      refine (hasScratch_closedir notNull).trans ?_
      simp [Reads, Closes]

/-! ## Opening, using and closing -/

theorem step_eq {next : DirectoryStreams} (stepped : step streams operation = some next) :
    streams.next operation = next :=
  Option.some.inj stepped

/-- The directory is opened, FatFs does not close it in between, and then it does. -/
structure ClosedAtLast (before : DirectoryStreams) (path_in : Option String) (dirp : DIR)
    (between : List DirOperation) (used : DirectoryStreams) : Prop where
  allowed : before.Allowed (.opendir path_in dirp .FR_OK)
  opened : (before.opendir path_in dirp .FR_OK).returned = dirp
  betweenAllowed : Meets step (fun streams operation => streams.Allowed operation ∧
    StaysOpen dirp operation) (before.opendir path_in dirp .FR_OK).streams between
  ran : run step (before.opendir path_in dirp .FR_OK).streams between = some used

/-- `closedir` succeeds and leaves the state that the operations which do not concern the
directory lead to without it, and in which it can be opened again. -/
def ClosesCleanly (before : DirectoryStreams) (path_in : Option String) (dirp : DIR)
    (between : List DirOperation) (used : DirectoryStreams) : Prop :=
  let path := before.generateFatFsPath path_in
  let closed := used.closedir dirp .FR_OK
  closed.returned = some 0 ∧
    run step before (between.filter fun operation =>
      ¬Concerns before.toFileManager path dirp operation) = some closed.streams ∧
    ∀ again, (closed.streams.opendir path_in again .FR_OK).returned = again

theorem opendir_returned {path_in : Option String} (notNull : dirp ≠ nullptr)
    (opened : (before.opendir path_in dirp .FR_OK).returned = dirp) :
    before.generateFatFsPath path_in ≠ "" ∧
      before.dir_paths_.lookup (before.generateFatFsPath path_in) = none ∧
        (before.opendir path_in dirp .FR_OK).streams =
          before.addDirHandle dirp (before.generateFatFsPath path_in) := by
  simp only [opendir] at opened ⊢
  split_ifs at opened ⊢ with empty twice failed
  · exact absurd opened.symm notNull
  · exact absurd opened.symm notNull
  · exact absurd rfl failed
  · exact ⟨empty, Option.not_isSome_iff_eq_none.mp twice, rfl⟩

theorem forget_addDirHandle (unopened : before.dir_paths_.lookup path = none)
    (unused : before.Unused dirp) : forget path dirp (before.addDirHandle dirp path) = before := by
  have unknown : path ∉ before.dir_paths_ := AList.lookup_eq_none.mp unopened
  simp only [forget, freeDirents, eraseDirHandle, addDirHandle, AssocMap.erase_insert]
  rw [AssocMap.erase_of_notMem unknown, AssocMap.erase_of_notMem unused.1,
    AssocMap.erase_of_notMem unused.2.1, AssocMap.erase_of_notMem unused.2.2]

theorem holdsOpen_addDirHandle (paired : before.Paired) (notNull : dirp ≠ nullptr)
    (unopened : before.dir_paths_.lookup path = none) (unused : before.Unused dirp) :
    HoldsOpen before path dirp (before.addDirHandle dirp path) where
  paired := paired.addDirHandle unopened (AList.lookup_eq_none.mpr unused.1)
  notNull := notNull
  named := AList.lookup_insert before.inverse_dir_paths_
  drive := rfl

theorem closedir_of_hasScratch (opened : HoldsOpen before path dirp streams)
    (scratch : HasScratch dirp streams) :
    streams.closedir dirp .FR_OK = ⟨some 0, none, forget path dirp streams⟩ := by
  have known : ¬((streams.dirents_.lookup dirp).isNone ∧
      (streams.dirents64_.lookup dirp).isNone) := by
    rintro ⟨entry, entry64⟩
    rw [Option.isNone_iff_eq_none, AList.lookup_eq_none] at entry entry64
    exact scratch.elim entry entry64
  have named : (streams.freeDirents dirp).inverse_dir_paths_.lookup dirp = some path :=
    opened.named
  simp only [closedir]
  rw [if_neg opened.notNull, if_neg known, if_neg (not_not_intro rfl), named]
  rfl

theorem closedir_of_not_hasScratch (notNull : dirp ≠ nullptr)
    (scratch : ¬HasScratch dirp streams) (res : FRESULT) :
    streams.closedir dirp res = ⟨some (-1), some .EBADF, streams⟩ := by
  have unknown : (streams.dirents_.lookup dirp).isNone ∧
      (streams.dirents64_.lookup dirp).isNone := by
    rw [Option.isNone_iff_eq_none, Option.isNone_iff_eq_none, AList.lookup_eq_none,
      AList.lookup_eq_none]
    exact not_or.mp scratch
  rw [closedir, if_neg notNull, if_pos unknown]

theorem opendir_forget {path_in : Option String} {again : DIR}
    (opened : HoldsOpen before (before.generateFatFsPath path_in) dirp streams)
    (nonempty : before.generateFatFsPath path_in ≠ "") :
    ((forget (before.generateFatFsPath path_in) dirp streams).opendir path_in again
      .FR_OK).returned = again := by
  have asked : (forget (before.generateFatFsPath path_in) dirp streams).generateFatFsPath path_in =
      before.generateFatFsPath path_in := generateFatFsPath_eq opened.drive path_in
  have unopened : (forget (before.generateFatFsPath path_in) dirp streams).dir_paths_.lookup
      (before.generateFatFsPath path_in) = none :=
    AList.lookup_erase (before.generateFatFsPath path_in) streams.dir_paths_
  simp only [opendir]
  rw [asked, if_neg nonempty, unopened]
  rfl

/-- A directory can be closed exactly if it was read since it was opened, and since `closedir`
was last called on it in vain. -/
theorem closesCleanly_iff {manager : FileManager} {history between : List DirOperation}
    {used : DirectoryStreams} {path_in : Option String}
    (historyAllowed : Meets step Allowed (new manager) history)
    (reached : run step (new manager) history = some before)
    (use : ClosedAtLast before path_in dirp between used) :
    ClosesCleanly before path_in dirp between used ↔
      LeftSet (Reads dirp) (Closes dirp) between := by
  obtain ⟨⟨notNull, unused⟩, opened, betweenAllowed, ran⟩ := use
  have paired : before.Paired :=
    run_invariant_of_meets
      (fun paired allowed stepped => step_eq stepped ▸ paired.next allowed)
      (paired_new manager) historyAllowed reached
  obtain ⟨nonempty, unopened, added⟩ := opendir_returned notNull opened
  rw [added] at betweenAllowed ran
  have preserved {state next : DirectoryStreams} {operation : DirOperation}
      (holds : HoldsOpen before (before.generateFatFsPath path_in) dirp state)
      (allowed : state.Allowed operation ∧ StaysOpen dirp operation)
      (stepped : step state operation = some next) :
      HoldsOpen before (before.generateFatFsPath path_in) dirp next :=
    step_eq stepped ▸ holds.next allowed.1 allowed.2
  have start := holdsOpen_addDirHandle paired notNull unopened unused
  have last := run_invariant_of_meets preserved start betweenAllowed ran
  have others := run_forget preserved
    (fun holds allowed own stepped =>
      step_eq stepped ▸ forget_next_of_concerns holds own allowed.2)
    (fun holds allowed other stepped =>
      step_eq stepped ▸ congrArg some (next_forget holds allowed.1 other))
    start betweenAllowed ran
  rw [forget_addDirHandle unopened unused] at others
  have scratch := flag_run_iff preserved
    (fun holds _ stepped => step_eq stepped ▸ hasScratch_next holds.notNull)
    start betweenAllowed ran
  have fresh : ¬HasScratch dirp (before.addDirHandle dirp (before.generateFatFsPath path_in)) :=
    not_or.mpr unused.2
  rw [or_iff_left (fun both => fresh both.1)] at scratch
  rw [← scratch]
  constructor
  · intro clean
    by_contra unread
    have returned := clean.1
    rw [closedir_of_not_hasScratch notNull unread] at returned
    cases returned
  · intro read
    rw [ClosesCleanly, closedir_of_hasScratch last read]
    exact ⟨rfl, others, fun again => opendir_forget last nonempty⟩

def manager : FileManager := .new ⟨100000, 100999, by decide⟩ 0 "/"

theorem unused_new : (new manager).Unused 1 :=
  ⟨AList.notMem_empty 1, AList.notMem_empty 1, AList.notMem_empty 1⟩

def readTwice : List DirOperation :=
  [.readdir 1 ⟨.FR_OK, AM_ARC, "file"⟩, .readdir64 1 ⟨.FR_DISK_ERR, AM_ARC, ""⟩]

theorem closesCleanly_readTwice :
    ∃ used, ClosesCleanly (new manager) (some "/data") 1 readTwice used := by
  have allowed : (new manager).Allowed (.opendir (some "/data") 1 .FR_OK) :=
    ⟨by decide, unused_new⟩
  have betweenAllowed : Meets step (fun streams operation => streams.Allowed operation ∧
      StaysOpen 1 operation) ((new manager).opendir (some "/data") 1 .FR_OK).streams
        readTwice := by
    apply Meets.of_forall
    intro operation member streams
    rcases List.mem_pair.mp member with rfl | rfl
    · exact ⟨trivial, by simp [StaysOpen]⟩
    · exact ⟨trivial, by simp [StaysOpen]⟩
  have read : LeftSet (Reads 1) (Closes 1) readTwice := by
    refine ⟨[.readdir 1 ⟨.FR_OK, AM_ARC, "file"⟩], _, [], rfl, ⟨_, Or.inr rfl⟩, ?_⟩
    simp
  exact ⟨_, (@closesCleanly_iff (new manager) 1 manager [] readTwice _ (some "/data") trivial rfl
    ⟨allowed, by decide, betweenAllowed, rfl⟩).mpr read⟩

/-- A directory that was not read is not closed. -/
theorem unread_left_open :
    ¬∀ (manager : FileManager) (history between : List DirOperation)
      (before used : DirectoryStreams) (path_in : Option String) (dirp : DIR),
      Meets step Allowed (new manager) history →
        run step (new manager) history = some before →
          ClosedAtLast before path_in dirp between used →
            ClosesCleanly before path_in dirp between used := by
  intro stated
  have notNull : 1 ≠ nullptr := by decide
  have clean := stated manager [] [] (new manager) _ (some "/data") 1 trivial rfl
    ⟨⟨notNull, unused_new⟩, by decide, trivial, rfl⟩
  have unread : ¬HasScratch 1 ((new manager).opendir (some "/data") 1 .FR_OK).streams :=
    not_or.mpr unused_new.2
  have returned := clean.1
  rw [closedir_of_not_hasScratch notNull unread] at returned
  cases returned

end DirectoryStreams

end Conclave.Filesystem
