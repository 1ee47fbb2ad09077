import Mathlib.Data.List.GetD
import ConclaveFormal.Lib.Attempt
import ConclaveFormal.Filesystem.FileManager
import ConclaveFormal.Filesystem.PersistentDisk

/-!
# The window of a FAT volume

FatFs has one sector of a volume in memory, the window.  It writes the window
back before it moves on, and to the second FAT as well if there is one.  What a
volume holds is what its drive holds, but for the sector in the window.
-/

set_option autoImplicit false

namespace Conclave.Filesystem

open Conclave.Lib Attempt

/-! ## Sectors -/

namespace Sector

def get (sector : Sector) (offset : Nat) : UInt8 := sector.bytes.getD offset 0

/-- The bytes from `offset` on are replaced. -/
def patch (sector : Sector) (offset : Nat) (bytes : Bytes) : Sector where
  bytes := sector.bytes.take offset ++ bytes.take (SECTOR_SIZE - offset) ++
    sector.bytes.drop (offset + bytes.length)
  size := by
    have size := sector.size
    simp only [List.length_append, List.length_take, List.length_drop, size]
    omega

theorem get_patch (sector : Sector) {offset : Nat} {bytes : Bytes}
    (fits : offset + bytes.length ≤ SECTOR_SIZE) (index : Nat) :
    (sector.patch offset bytes).get index =
      if offset ≤ index ∧ index < offset + bytes.length then bytes.getD (index - offset) 0
      else sector.get index := by
  have size := sector.size
  have all : bytes.take (SECTOR_SIZE - offset) = bytes := List.take_of_length_le (by omega)
  have front : (sector.bytes.take offset).length = offset := by
    rw [List.length_take, size]
    omega
  simp only [get, patch, all, List.getD_eq_getElem?_getD, List.append_assoc,
    List.getElem?_append, front, List.getElem?_take, List.getElem?_drop]
  by_cases before : index < offset
  · rw [if_pos before, if_pos before, if_neg (by omega)]
  · rw [if_neg before]
    by_cases inside : index - offset < bytes.length
    · rw [if_pos inside, if_pos (by omega)]
    · rw [if_neg inside, if_neg (by omega)]
      congr 2
      omega

end Sector

/-! ## Drives -/

/-- The sectors of a drive, and which of the accesses to come fail.  One that
fails changes nothing. -/
structure Drive where
  sectors : Nat → Sector
  fails : Nat → Bool

namespace Drive

def later (drive : Drive) : Drive :=
  { drive with fails := fun count => drive.fails (count + 1) }

def disk_read (drive : Drive) (sector : Nat) : Option Sector × Drive :=
  (if drive.fails 0 then none else some (drive.sectors sector), drive.later)

def disk_write (drive : Drive) (buff : Sector) (sector : Nat) : DRESULT × Drive :=
  if drive.fails 0 then (.RES_ERROR, drive.later)
  else (.RES_OK, { drive.later with sectors := Function.update drive.sectors sector buff })

/-- No access fails. -/
def Steady (drive : Drive) : Prop := ∀ count, drive.fails count = false

/-- What the drive is like `count` accesses later, but for its sectors. -/
def After (before : Drive) (count : Nat) (after : Drive) : Prop :=
  ∀ access, after.fails access = before.fails (access + count)

/-- The drive after some accesses. -/
def Since (before after : Drive) : Prop := ∃ count, before.After count after

/-- The drive after some accesses of which one has failed. -/
def Failing (before after : Drive) : Prop :=
  ∃ count, before.After count after ∧ ∃ access, access < count ∧ before.fails access = true

theorem Since.refl (drive : Drive) : drive.Since drive := ⟨0, fun _ => rfl⟩

theorem Since.later (drive : Drive) : drive.Since drive.later := ⟨1, fun _ => rfl⟩

theorem Since.trans {first second third : Drive} (one : first.Since second)
    (other : second.Since third) : first.Since third := by
  obtain ⟨count, shifted⟩ := one
  obtain ⟨more, shiftedMore⟩ := other
  refine ⟨more + count, fun access => ?_⟩
  rw [shiftedMore, shifted, Nat.add_assoc]

theorem Failing.of_first {drive : Drive} (fails : drive.fails 0 = true) :
    drive.Failing drive.later :=
  ⟨1, fun _ => rfl, 0, Nat.one_pos, fails⟩

theorem Failing.earlier {first second third : Drive} (since : first.Since second)
    (failing : second.Failing third) : first.Failing third := by
  obtain ⟨count, shifted⟩ := since
  obtain ⟨more, shiftedMore, access, inside, fails⟩ := failing
  refine ⟨more + count, fun access => ?_, access + count, by omega, ?_⟩
  · rw [shiftedMore, shifted, Nat.add_assoc]
  · rw [← shifted, fails]

theorem Since.steady {before after : Drive} (since : before.Since after)
    (steady : before.Steady) : after.Steady := by
  obtain ⟨count, shifted⟩ := since
  intro access
  rw [shifted, steady]

theorem Failing.not_steady {before after : Drive} (failing : before.Failing after) :
    ¬before.Steady := by
  obtain ⟨_, _, access, _, fails⟩ := failing
  intro steady
  rw [steady access] at fails
  cases fails

theorem disk_write_other (drive : Drive) (buff : Sector) {sector other : Nat}
    (different : other ≠ sector) :
    (drive.disk_write buff sector).2.sectors other = drive.sectors other := by
  rw [disk_write]
  split
  · rfl
  · exact Function.update_of_ne different _ _

theorem disk_write_self {drive : Drive} (works : drive.fails 0 = false) (buff : Sector)
    (sector : Nat) : (drive.disk_write buff sector).2.sectors sector = buff := by
  rw [disk_write, works]
  exact Function.update_self _ _ _

theorem Since.disk_write (drive : Drive) (buff : Sector) (sector : Nat) :
    drive.Since (drive.disk_write buff sector).2 := by
  rw [Drive.disk_write]
  split <;> exact Since.later drive

end Drive

/-! ## Volumes -/

inductive FatType where
  | FS_FAT12
  | FS_FAT16
  | FS_FAT32
  deriving DecidableEq, Repr

namespace FatType

/-- `MAX_FAT12`, `MAX_FAT16` and `MAX_FAT32`. -/
def maxClusters : FatType → Nat
  | FS_FAT12 => 0xFF5
  | FS_FAT16 => 0xFFF5
  | FS_FAT32 => 0x0FFFFFF5

/-- `szbfat`, the bytes that are needed for so many entries. -/
def szbfat (n_fatent : Nat) : FatType → Nat
  | FS_FAT12 => n_fatent * 3 / 2 + n_fatent % 2
  | FS_FAT16 => n_fatent * 2
  | FS_FAT32 => n_fatent * 4

end FatType

/-- Where things are on a volume, as `mount_volume` has checked it: the FATs are
large enough for their entries. -/
structure Volume where
  fs_type : FatType
  n_fats : Nat
  csize : Nat
  n_fatent : Nat
  fsize : Nat
  fatbase : Nat
  fats : n_fats = 1 ∨ n_fats = 2
  csize_pos : 0 < csize
  entries_low : 2 < n_fatent
  entries_high : n_fatent - 2 ≤ fs_type.maxClusters
  fits : fs_type.szbfat n_fatent ≤ fsize * SECTOR_SIZE

/-- A sector of the second FAT. -/
def Volume.Mirror (volume : Volume) (sect : Nat) : Prop :=
  volume.n_fats = 2 ∧ volume.fatbase + volume.fsize ≤ sect ∧
    sect < volume.fatbase + 2 * volume.fsize

/-- `winsect` is `none` where the source has 0xFFFFFFFF, the number of no sector. -/
structure FATFS where
  volume : Volume
  drive : Drive
  win : Sector
  winsect : Option Nat
  wflag : Bool
  last_clst : Nat
  free_clst : Nat

namespace FATFS

def sync_window : Attempt FATFS FRESULT Unit := do
  let fs ← get
  if fs.wflag then
    match fs.winsect with
    | none => throw .FR_DISK_ERR
    | some winsect =>
        let (res, drive) := fs.drive.disk_write fs.win winsect
        modify fun fs => { fs with drive }
        if res ≠ .RES_OK then throw .FR_DISK_ERR
        else
          modify fun fs => { fs with wflag := false }
          -- Is it in the first FAT?
          if fs.volume.fatbase ≤ winsect ∧ winsect - fs.volume.fatbase < fs.volume.fsize then
            if fs.volume.n_fats = 2 then
              modify fun fs =>
                { fs with drive := (fs.drive.disk_write fs.win (winsect + fs.volume.fsize)).2 }

def move_window (sect : Nat) : Attempt FATFS FRESULT Unit := do
  let fs ← get
  if fs.winsect ≠ some sect then
    sync_window
    let fs ← get
    match fs.drive.disk_read sect with
    | (some win, drive) => modify fun fs => { fs with win, winsect := some sect, drive }
    | (none, drive) =>
        modify fun fs => { fs with winsect := none, drive }
        throw .FR_DISK_ERR

/-! ## What the volume holds -/

def sector (fs : FATFS) (sect : Nat) : Sector :=
  if fs.winsect = some sect then fs.win else fs.drive.sectors sect

/-- A window without changes is a copy of its sector, and it never shows the second FAT. -/
structure Coherent (fs : FATFS) : Prop where
  clean : ∀ {sect}, fs.winsect = some sect → fs.wflag = false → fs.win = fs.drive.sectors sect
  dirty : fs.wflag = true → ∃ sect, fs.winsect = some sect
  primary : ∀ {sect}, fs.winsect = some sect → ¬fs.volume.Mirror sect

/-- The second FAT is a copy of the first, but for a sector that is still to be written. -/
def Mirrored (fs : FATFS) : Prop :=
  fs.volume.n_fats = 2 → ∀ index, index < fs.volume.fsize →
    ¬(fs.wflag = true ∧ fs.winsect = some (fs.volume.fatbase + index)) →
    fs.drive.sectors (fs.volume.fatbase + fs.volume.fsize + index) =
      fs.drive.sectors (fs.volume.fatbase + index)

/-- The window may be another one, but the volume holds the same. -/
structure Same (before after : FATFS) : Prop where
  volume : after.volume = before.volume
  last_clst : after.last_clst = before.last_clst
  free_clst : after.free_clst = before.free_clst
  sector : ∀ {sect}, ¬before.volume.Mirror sect → after.sector sect = before.sector sect
  since : before.drive.Since after.drive
  mirrored : before.drive.Steady → Mirrored before → Mirrored after

namespace Same

theorem refl (fs : FATFS) : Same fs fs :=
  ⟨rfl, rfl, rfl, fun _ => rfl, Drive.Since.refl _, fun _ mirrored => mirrored⟩

theorem trans {first second third : FATFS} (one : Same first second) (other : Same second third) :
    Same first third where
  volume := other.volume.trans one.volume
  last_clst := other.last_clst.trans one.last_clst
  free_clst := other.free_clst.trans one.free_clst
  sector unmirrored := by
    rw [← one.sector unmirrored]
    exact other.sector (by rwa [one.volume])
  since := one.since.trans other.since
  mirrored steady mirrored :=
    other.mirrored (one.since.steady steady) (one.mirrored steady mirrored)

end Same

theorem not_mirror_of_low {volume : Volume} {sect : Nat}
    (low : sect < volume.fatbase + volume.fsize) : ¬volume.Mirror sect := by
  rintro ⟨_, high, _⟩
  omega

/-! ## Moving the window -/

variable {fs : FATFS}

theorem sector_of_winsect {sect : Nat} (at_ : fs.winsect = some sect) :
    fs.sector sect = fs.win := by
  rw [sector, if_pos at_]

theorem sector_clean (coherent : Coherent fs) (clean : fs.wflag = false) (sect : Nat) :
    fs.sector sect = fs.drive.sectors sect := by
  rw [sector]
  split
  · rename_i here
    exact coherent.clean here clean
  · rfl

/-- The drive once the window has been written back to its sector. -/
def written (fs : FATFS) (winsect : Nat) : Drive :=
  let drive := (fs.drive.disk_write fs.win winsect).2
  if fs.volume.fatbase ≤ winsect ∧ winsect - fs.volume.fatbase < fs.volume.fsize then
    if fs.volume.n_fats = 2 then (drive.disk_write fs.win (winsect + fs.volume.fsize)).2
    else drive
  else drive

theorem sync_window_clean (clean : fs.wflag = false) : sync_window fs = (.ok (), fs) := by
  simp [sync_window, clean]

theorem sync_window_failed {winsect : Nat} (dirty : fs.wflag = true)
    (at_ : fs.winsect = some winsect) (fails : fs.drive.fails 0 = true) :
    sync_window fs = (.error .FR_DISK_ERR, { fs with drive := fs.drive.later }) := by
  simp [sync_window, dirty, at_, Drive.disk_write, fails]

theorem sync_window_written {winsect : Nat} (dirty : fs.wflag = true)
    (at_ : fs.winsect = some winsect) (works : fs.drive.fails 0 = false) :
    sync_window fs = (.ok (), { fs with drive := fs.written winsect, wflag := false }) := by
  by_cases first : fs.volume.fatbase ≤ winsect ∧ winsect - fs.volume.fatbase < fs.volume.fsize
  · by_cases two : fs.volume.n_fats = 2
    · simp [sync_window, dirty, at_, Drive.disk_write, works, written, first, two]
    · simp [sync_window, dirty, at_, Drive.disk_write, works, written, first, two]
  · simp only [sync_window, get_bind, dirty, if_true, at_, Drive.disk_write, works,
      Bool.false_eq_true, if_false, written, if_neg first, modify_bind, ne_eq, not_true_eq_false]
    rfl

/-- A write-back changes its sector and the one in the second FAT. -/
theorem written_spec {winsect : Nat} (works : fs.drive.fails 0 = false) :
    (fs.written winsect).sectors winsect = fs.win ∧
      (∀ {sect}, sect ≠ winsect → ¬fs.volume.Mirror sect →
        (fs.written winsect).sectors sect = fs.drive.sectors sect) ∧
      fs.drive.Since (fs.written winsect) := by
  have own := Drive.disk_write_self works fs.win winsect
  by_cases mirrored : (fs.volume.fatbase ≤ winsect ∧
      winsect - fs.volume.fatbase < fs.volume.fsize) ∧ fs.volume.n_fats = 2
  · obtain ⟨first, two⟩ := mirrored
    rw [written, if_pos first, if_pos two]
    refine ⟨?_, ?_, (Drive.Since.disk_write _ _ _).trans (Drive.Since.disk_write _ _ _)⟩
    · rw [Drive.disk_write_other _ _ (by omega), own]
    · intro sect different unmirrored
      have elsewhere : sect ≠ winsect + fs.volume.fsize := by
        rintro rfl
        exact unmirrored ⟨two, by omega, by omega⟩
      rw [Drive.disk_write_other _ _ elsewhere, Drive.disk_write_other _ _ different]
  · have once : fs.written winsect = (fs.drive.disk_write fs.win winsect).2 := by
      rw [written]
      split
      · rename_i first
        rw [if_neg fun two => mirrored ⟨first, two⟩]
      · rfl
    rw [once]
    exact ⟨own, fun different _ => Drive.disk_write_other _ _ different,
      Drive.Since.disk_write _ _ _⟩

/-- A write-back that does not fail is made to both FATs. -/
theorem written_mirrored {winsect : Nat} (steady : fs.drive.Steady)
    (at_ : fs.winsect = some winsect) (primary : ¬fs.volume.Mirror winsect)
    (mirrored : Mirrored fs) :
    Mirrored { fs with drive := fs.written winsect, wflag := false } := by
  intro two index inside _
  change fs.volume.n_fats = 2 at two
  change index < fs.volume.fsize at inside
  change (fs.written winsect).sectors (fs.volume.fatbase + fs.volume.fsize + index) =
    (fs.written winsect).sectors (fs.volume.fatbase + index)
  have notMirror : fs.volume.fatbase + fs.volume.fsize + index ≠ winsect := by
    rintro rfl
    exact primary ⟨two, by omega, by omega⟩
  have again := (Drive.Since.disk_write fs.drive fs.win winsect).steady steady 0
  by_cases here : fs.volume.fatbase + index = winsect
  · have copy : fs.volume.fatbase + fs.volume.fsize + index = winsect + fs.volume.fsize := by
      omega
    rw [written, if_pos (by omega), if_pos two, here, copy, Drive.disk_write_self again,
      Drive.disk_write_other _ _ (by omega), Drive.disk_write_self (steady 0)]
  · have before := mirrored two index inside fun dirty =>
      here (Option.some.inj (dirty.2.symm.trans at_))
    by_cases first : fs.volume.fatbase ≤ winsect ∧ winsect - fs.volume.fatbase < fs.volume.fsize
    · rw [written, if_pos first, if_pos two, Drive.disk_write_other _ _ (by omega),
        Drive.disk_write_other _ _ notMirror, Drive.disk_write_other _ _ (by omega),
        Drive.disk_write_other _ _ here, before]
    · rw [written, if_neg first, Drive.disk_write_other _ _ notMirror,
        Drive.disk_write_other _ _ here, before]

/-- `after` shows the window of `before`, and its drive holds what it showed elsewhere. -/
theorem Same.of_drive {before after : FATFS} (volume : after.volume = before.volume)
    (last_clst : after.last_clst = before.last_clst)
    (free_clst : after.free_clst = before.free_clst) (win : after.win = before.win)
    (winsect : after.winsect = before.winsect)
    (sectors : ∀ {sect}, before.winsect ≠ some sect → ¬before.volume.Mirror sect →
      after.drive.sectors sect = before.drive.sectors sect)
    (since : before.drive.Since after.drive)
    (mirrored : before.drive.Steady → Mirrored before → Mirrored after) : Same before after := by
  refine ⟨volume, last_clst, free_clst, ?_, since, mirrored⟩
  intro sect unmirrored
  by_cases here : before.winsect = some sect
  · rw [sector_of_winsect here, sector_of_winsect (winsect.trans here), win]
  · have there : after.winsect ≠ some sect := by rwa [winsect]
    change (if after.winsect = some sect then _ else _) =
      if before.winsect = some sect then _ else _
    rw [if_neg here, if_neg there, sectors here unmirrored]

theorem sync_window_spec (coherent : Coherent fs) :
    let ran := sync_window fs
    Coherent ran.2 ∧ Same fs ran.2 ∧ ran.2.winsect = fs.winsect ∧ ran.2.win = fs.win ∧
      (ran.1 = .ok () → ran.2.wflag = false) ∧
      ∀ res, ran.1 = .error res → res = .FR_DISK_ERR ∧ fs.drive.Failing ran.2.drive := by
  by_cases dirty : fs.wflag = true
  · obtain ⟨winsect, at_⟩ := coherent.dirty dirty
    by_cases works : fs.drive.fails 0 = false
    · obtain ⟨own, others, since⟩ := @written_spec _ winsect works
      rw [sync_window_written dirty at_ works]
      refine ⟨⟨?_, ?_, coherent.primary⟩,
        Same.of_drive rfl rfl rfl rfl rfl ?_ since fun steady =>
          written_mirrored steady at_ (coherent.primary at_),
        rfl, rfl, fun _ => rfl, ?_⟩
      · intro sect here _
        rw [Option.some.inj (here.symm.trans at_)]
        exact own.symm
      · intro still
        cases still
      · intro sect elsewhere unmirrored
        exact others (fun here => elsewhere (here ▸ at_)) unmirrored
      · intro res error
        cases error
    · have fails : fs.drive.fails 0 = true := by simpa using works
      rw [sync_window_failed dirty at_ fails]
      refine ⟨⟨coherent.clean, coherent.dirty, coherent.primary⟩,
        Same.of_drive rfl rfl rfl rfl rfl (fun _ _ => rfl) (Drive.Since.later _) fun steady =>
          absurd (steady 0) works,
        rfl, rfl, ?_, ?_⟩
      · intro ok
        cases ok
      · rintro res ⟨⟩
        exact ⟨rfl, .of_first fails⟩
  · have clean : fs.wflag = false := by simpa using dirty
    rw [sync_window_clean clean]
    refine ⟨coherent, Same.refl fs, rfl, rfl, fun _ => clean, ?_⟩
    intro res error
    cases error

/-- The window moves, or the volume is as it was. -/
theorem move_window_spec (coherent : Coherent fs) {sect : Nat}
    (unmirrored : ¬fs.volume.Mirror sect) :
    let ran := move_window sect fs
    Coherent ran.2 ∧ Same fs ran.2 ∧
      (ran.1 = .ok () → ran.2.winsect = some sect ∧ ran.2.win = fs.sector sect) ∧
      ∀ res, ran.1 = .error res → res = .FR_DISK_ERR ∧ fs.drive.Failing ran.2.drive := by
  by_cases here : fs.winsect = some sect
  · have stays : move_window sect fs = (.ok (), fs) := by
      simp [move_window, here]
    rw [stays]
    refine ⟨coherent, Same.refl fs, fun _ => ⟨here, (sector_of_winsect here).symm⟩, ?_⟩
    intro res error
    cases error
  · obtain ⟨synced, same, winsect, win, clean, raises⟩ := sync_window_spec coherent
    rw [move_window, get_bind, if_pos here]
    cases ran : sync_window fs with
    | mk outcome middle =>
        rw [ran] at synced same winsect win clean raises
        cases outcome with
        | error e =>
            rw [bind_error ran]
            refine ⟨synced, same, ?_, raises⟩
            intro ok
            cases ok
        | ok =>
            rw [bind_ok ran, get_bind]
            have copies := sector_clean synced (clean rfl)
            have drives : middle.drive.later.sectors = middle.drive.sectors := rfl
            by_cases works : middle.drive.fails 0 = false
            · simp only [Drive.disk_read, works, Bool.false_eq_true, if_false]
              have shown : ∀ other, FATFS.sector { middle with
                  win := middle.drive.sectors sect, winsect := some sect,
                  drive := middle.drive.later } other = middle.sector other := by
                intro other
                rw [copies]
                by_cases there : sect = other
                · rw [there]
                  exact if_pos rfl
                · exact if_neg fun equal => there (Option.some.inj equal)
              have copied : Mirrored middle → Mirrored { middle with
                  win := middle.drive.sectors sect, winsect := some sect,
                  drive := middle.drive.later } := by
                intro mirrored two index inside _
                refine mirrored two index inside ?_
                rintro ⟨dirty, _⟩
                cases (clean rfl).symm.trans dirty
              refine ⟨⟨?_, ?_, ?_⟩, same.trans ⟨rfl, rfl, rfl, fun _ => shown _,
                Drive.Since.later _, fun _ => copied⟩, fun _ => ⟨rfl, ?_⟩, ?_⟩
              · rintro other ⟨⟩ _
                rfl
              · intro dirty
                cases (clean rfl).symm.trans dirty
              · rintro other ⟨⟩
                exact same.volume ▸ unmirrored
              · rw [← same.sector unmirrored, copies]
                rfl
              · intro res error
                cases error
            · have fails : middle.drive.fails 0 = true := by simpa using works
              simp only [Drive.disk_read, fails, if_true]
              refine ⟨⟨?_, ?_, ?_⟩, same.trans ⟨rfl, rfl, rfl, ?_, Drive.Since.later _,
                fun steady => absurd (steady 0) works⟩, ?_, ?_⟩
              · rintro other ⟨⟩
              · intro dirty
                cases (clean rfl).symm.trans dirty
              · rintro other ⟨⟩
              · intro other _
                rw [copies]
                exact if_neg (Option.some_ne_none _).symm
              · intro ok
                cases ok
              · rintro res ⟨⟩
                exact ⟨rfl, .earlier same.since (.of_first fails)⟩

end FATFS

end Conclave.Filesystem
