import ConclaveFormal.Filesystem.FatEntries

/-!
# A FAT as a table of numbers

On a coherent volume `get_fat` reads the table and `put_fat` changes one entry
of it, wherever the window is and whichever sectors the entry lies in.  If the
drive fails the table is as it was, but for an entry of 12 bits that was being
written.
-/

set_option autoImplicit false

namespace Conclave.Filesystem

open Conclave.Lib Attempt

namespace FATFS

/-- An access to the drive on the way from `before` has failed, and left a volume with `holds`. -/
def Failed (before : FATFS) (holds : FATFS → Prop) (res : FRESULT) (after : FATFS) : Prop :=
  res = .FR_DISK_ERR ∧ before.drive.Failing after.drive ∧ holds after

theorem Failed.earlier {first second : FATFS} {one other : FATFS → Prop} {res : FRESULT}
    {after : FATFS} (failed : Failed second one res after)
    (since : first.drive.Since second.drive) (holds : one after → other after) :
    Failed first other res after :=
  ⟨failed.1, failed.2.1.earlier since, holds failed.2.2⟩

/-! ## The bytes of a FAT -/

theorem inside_fat (volume : Volume) {clst : Nat} (inRange : clst < volume.n_fatent) :
    match volume.fs_type with
    | .FS_FAT12 => clst + clst / 2 + 1 < volume.fsize * SECTOR_SIZE
    | .FS_FAT16 => clst * 2 + 1 < volume.fsize * SECTOR_SIZE
    | .FS_FAT32 => clst * 4 + 3 < volume.fsize * SECTOR_SIZE := by
  have fits := volume.fits
  cases type : volume.fs_type <;> rw [type] at fits <;> simp only [FatType.szbfat] at fits ⊢ <;>
    omega

/-- Entries in range are read from the bytes of the FAT. -/
theorem entry_congr (volume : Volume) {one other : Nat → UInt8}
    (same : ∀ index, index < volume.fsize * SECTOR_SIZE → one index = other index) {clst : Nat}
    (inRange : clst < volume.n_fatent) :
    volume.fs_type.entry one clst = volume.fs_type.entry other clst := by
  have inside := inside_fat volume inRange
  cases type : volume.fs_type with
  | FS_FAT12 =>
      simp only [type] at inside
      simp only [FatType.entry]
      rw [same _ (by omega), same _ (by omega)]
  | FS_FAT16 =>
      simp only [type] at inside
      exact congrArg ofLittleEndian (FatType.read_congr fun index _ _ => same index (by omega))
  | FS_FAT32 =>
      simp only [type] at inside
      exact congrArg (fun bytes => ofLittleEndian bytes % 2 ^ 28)
        (FatType.read_congr fun index _ _ => same index (by omega))

theorem Same.table {before after : FATFS} (same : Same before after) {clst : Nat}
    (inRange : clst < before.volume.n_fatent) : after.table clst = before.table clst := by
  rw [FATFS.table, same.volume]
  exact entry_congr before.volume (fun _ inside => same.fatByte inside) inRange

/-- The volume is coherent, and shows other bytes in the first FAT at most. -/
structure Stored (before : FATFS) (bytes : Nat → UInt8) (after : FATFS) : Prop where
  coherent : Coherent after
  fatOnly : FatOnly before after
  bytes : ∀ index, index < before.volume.fsize * SECTOR_SIZE → after.fatByte index = bytes index

namespace Stored

variable {before middle after : FATFS} {bytes : Nat → UInt8}

theorem start (coherent : Coherent before) : Stored before before.fatByte before :=
  ⟨coherent, (Same.refl before).fatOnly, fun _ _ => rfl⟩

theorem moved (stored : Stored before bytes middle) (coherent : Coherent after)
    (same : Same middle after) : Stored before bytes after := by
  refine ⟨coherent, stored.fatOnly.trans same.fatOnly, ?_⟩
  intro index inside
  rw [same.fatByte (by rwa [stored.fatOnly.volume]), stored.bytes index inside]

theorem table (stored : Stored before bytes after) {clst : Nat}
    (inRange : clst < before.volume.n_fatent) :
    after.table clst = before.volume.fs_type.entry bytes clst := by
  rw [FATFS.table, stored.fatOnly.volume]
  exact entry_congr before.volume stored.bytes inRange

end Stored

/-! ## The window on a FAT -/

variable {fs : FATFS}

theorem move_fat (coherent : Coherent fs) {offset : Nat}
    (inside : offset < fs.volume.fsize * SECTOR_SIZE) :
    Ends (move_window (fs.volume.fatbase + offset / SECTOR_SIZE)) fs
      (fun _ after => Coherent after ∧ Same fs after ∧
        after.winsect = some (after.volume.fatbase + offset / SECTOR_SIZE))
      (Failed fs fun after => Coherent after ∧ Same fs after) := by
  have low : offset / SECTOR_SIZE < fs.volume.fsize := Nat.div_lt_of_lt_mul (by
    rwa [Nat.mul_comm])
  obtain ⟨moved, same, shown, raises⟩ := move_window_spec coherent
    (not_mirror_of_low (Nat.add_lt_add_left low _))
  cases ran : move_window (fs.volume.fatbase + offset / SECTOR_SIZE) fs with
  | mk outcome after =>
      rw [ran] at moved same shown raises
      cases outcome with
      | ok => exact Ends.of_ok ran ⟨moved, same, same.volume ▸ (shown rfl).1⟩
      | error e => exact Ends.of_error ran ⟨(raises e rfl).1, (raises e rfl).2, moved, same⟩

/-- The source counts entries to a sector, where an entry does not go over its end. -/
theorem word_sector (clst : Nat) : clst / (SECTOR_SIZE / 2) = clst * 2 / SECTOR_SIZE := by
  simp only [SECTOR_SIZE]
  omega

theorem dword_sector (clst : Nat) : clst / (SECTOR_SIZE / 4) = clst * 4 / SECTOR_SIZE := by
  simp only [SECTOR_SIZE]
  omega

/-- The window shows the bytes of its sector. -/
theorem win_get {offset : Nat} (at_ : fs.winsect = some (fs.volume.fatbase + offset / SECTOR_SIZE))
    {index : Nat} (same : index / SECTOR_SIZE = offset / SECTOR_SIZE) :
    fs.win.get (index % SECTOR_SIZE) = fs.fatByte index := by
  rw [fatByte, same, sector_of_winsect at_]

/-- Four bytes of the FAT do not go over the end of a sector. -/
theorem ld_dword_fat {clst : Nat}
    (at_ : fs.winsect = some (fs.volume.fatbase + clst * 4 / SECTOR_SIZE)) :
    fs.win.ld_dword (clst * 4 % SECTOR_SIZE) = ofLittleEndian [fs.fatByte (clst * 4),
      fs.fatByte (clst * 4 + 1), fs.fatByte (clst * 4 + 2), fs.fatByte (clst * 4 + 3)] := by
  have next : ∀ index < 4, clst * 4 % SECTOR_SIZE + index = (clst * 4 + index) % SECTOR_SIZE ∧
      (clst * 4 + index) / SECTOR_SIZE = clst * 4 / SECTOR_SIZE := by
    simp only [SECTOR_SIZE]
    omega
  rw [Sector.ld_dword, (next 1 (by decide)).1, (next 2 (by decide)).1, (next 3 (by decide)).1,
    win_get at_ rfl, win_get at_ (next 1 (by decide)).2, win_get at_ (next 2 (by decide)).2,
    win_get at_ (next 3 (by decide)).2]

/-! ## Reading an entry -/

theorem get_fat_outside {clst : Nat} (outside : clst < 2 ∨ fs.volume.n_fatent ≤ clst) :
    get_fat clst fs = (.ok 1, fs) := by
  rw [get_fat, get_bind, if_pos outside]
  rfl

theorem get_fat_spec (coherent : Coherent fs) {clst : Nat} (low : 2 ≤ clst)
    (inRange : clst < fs.volume.n_fatent) :
    Ends (get_fat clst) fs
      (fun val after => val = fs.table clst ∧ Coherent after ∧ Same fs after)
      (Failed fs fun after => Coherent after ∧ Same fs after) := by
  have inside := inside_fat fs.volume inRange
  refine Ends.bind (Ends.of_ok rfl ?_)
  rw [if_neg (by omega)]
  cases type : fs.volume.fs_type with
  | FS_FAT12 =>
      simp only [type] at inside
      refine Ends.bind ((move_fat coherent (by omega)).imp ?_ fun _ _ failed => failed)
      rintro ⟨⟩ middle ⟨movedTo, same, at_⟩
      have insideMiddle : clst + clst / 2 + 1 < middle.volume.fsize * SECTOR_SIZE := by
        rwa [same.volume]
      refine Ends.bind (Ends.of_ok rfl ?_)
      simp only
      rw [← same.volume]
      refine Ends.bind ((move_fat movedTo insideMiddle).imp ?_
        fun _ _ failed => failed.earlier same.since fun holds =>
          ⟨holds.1, same.trans holds.2⟩)
      rintro ⟨⟩ after ⟨movedOn, sameAgain, atNext⟩
      have all := same.trans sameAgain
      refine Ends.of_ok rfl ⟨?_, movedOn, all⟩
      rw [win_get at_ rfl, win_get atNext rfl, same.fatByte (by omega), all.fatByte (by omega),
        FATFS.table, type]
      have first := (fs.fatByte (clst + clst / 2)).toNat_lt
      have wc := or_shiftLeft (show (fs.fatByte (clst + clst / 2)).toNat < 2 ^ 8 from first)
        (fs.fatByte (clst + clst / 2 + 1)).toNat
      have mask (value : Nat) : value &&& 0xFFF = value % 4096 :=
        Nat.and_two_pow_sub_one_eq_mod value 12
      rw [wc, mask, Nat.shiftRight_eq_div_pow, FatType.entry, Nat.mul_comm _ (2 ^ 8)]
      rfl
  | FS_FAT16 =>
      simp only [type] at inside
      simp only [word_sector]
      refine Ends.bind ((move_fat coherent (by omega)).imp ?_ fun _ _ failed => failed)
      rintro ⟨⟩ after ⟨moved, same, at_⟩
      refine Ends.bind (Ends.of_ok rfl (Ends.of_ok rfl ⟨?_, moved, same⟩))
      have second : clst * 2 % SECTOR_SIZE + 1 = (clst * 2 + 1) % SECTOR_SIZE := by
        simp only [SECTOR_SIZE]
        omega
      rw [Sector.ld_word, second, win_get at_ rfl, win_get at_ (by simp only [SECTOR_SIZE]; omega),
        same.fatByte (by omega), same.fatByte inside, FATFS.table, type]
      rfl
  | FS_FAT32 =>
      simp only [type] at inside
      simp only [dword_sector]
      refine Ends.bind ((move_fat coherent (by omega)).imp ?_ fun _ _ failed => failed)
      rintro ⟨⟩ after ⟨moved, same, at_⟩
      refine Ends.bind (Ends.of_ok rfl (Ends.of_ok rfl ⟨?_, moved, same⟩))
      rw [ld_dword_fat at_, same.fatByte (by omega), same.fatByte (by omega),
        same.fatByte (by omega), same.fatByte inside, FATFS.table, type]
      exact Nat.and_two_pow_sub_one_eq_mod _ 28

/-! ## Changing an entry -/

theorem Stored.put {before middle : FATFS} {bytes : Nat → UInt8} {offset : Nat} {new : Bytes}
    (stored : Stored before bytes middle)
    (at_ : middle.winsect = some (middle.volume.fatbase + offset / SECTOR_SIZE))
    (inside : offset < before.volume.fsize * SECTOR_SIZE)
    (fits : offset % SECTOR_SIZE + new.length ≤ SECTOR_SIZE) {change : Sector → Sector}
    (changed : change middle.win = middle.win.patch (offset % SECTOR_SIZE) new)
    {raises : FRESULT → FATFS → Prop} :
    Ends (putWin change) middle (fun _ after => Stored before (overlay bytes offset new) after)
      raises := by
  obtain ⟨ran, coherent, fatOnly, overlaid⟩ := putWin_spec stored.coherent at_
    (stored.fatOnly.volume ▸ inside) fits changed
  refine Ends.of_ok ran ⟨coherent, stored.fatOnly.trans fatOnly, ?_⟩
  intro index insideIndex
  rw [overlaid, overlay, overlay, stored.bytes index insideIndex]

theorem put_fat_outside {clst val : Nat} (outside : clst < 2 ∨ fs.volume.n_fatent ≤ clst) :
    put_fat clst val fs = (.error .FR_INT_ERR, fs) := by
  rw [put_fat, get_bind, if_pos outside]
  rfl

/-- The entry is `val`, in the bits that it has. -/
structure Put (before : FATFS) (clst val : Nat) (after : FATFS) : Prop where
  coherent : Coherent after
  fatOnly : FatOnly before after
  table : ∀ {other}, other < before.volume.n_fatent → after.table other =
    if other = clst then val % 2 ^ before.volume.fs_type.bits else before.table other

/-- The entry may be torn. -/
structure Torn (before : FATFS) (clst : Nat) (after : FATFS) : Prop where
  coherent : Coherent after
  fatOnly : FatOnly before after
  table : ∀ {other}, other < before.volume.n_fatent →
    other ≠ clst ∨ before.volume.fs_type ≠ .FS_FAT12 → after.table other = before.table other

/-- The upper four bits of the old entry stay. -/
theorem masked_mod (val old : Nat) :
    (val &&& 0x0FFFFFFF ||| old &&& 0xF0000000) % 2 ^ 28 = val % 2 ^ 28 := by
  rw [Nat.or_mod_two_pow, Nat.and_mod_two_pow, Nat.and_mod_two_pow]
  change val % 2 ^ 28 &&& 2 ^ 28 - 1 ||| old % 2 ^ 28 &&& 0 = _
  rw [Nat.and_zero, Nat.or_zero, Nat.and_two_pow_sub_one_eq_mod, Nat.mod_mod]

theorem put_fat_spec (coherent : Coherent fs) {clst : Nat} (val : Nat) (low : 2 ≤ clst)
    (inRange : clst < fs.volume.n_fatent) :
    Ends (put_fat clst val) fs (fun _ after => Put fs clst val after)
      (Failed fs (Torn fs clst)) := by
  have inside := inside_fat fs.volume inRange
  have start := Stored.start coherent
  have untouched : ∀ {after}, Stored fs fs.fatByte after → Torn fs clst after :=
    fun stored => ⟨stored.coherent, stored.fatOnly, fun inRange _ => stored.table inRange⟩
  refine Ends.bind (Ends.of_ok rfl ?_)
  rw [if_neg (by omega)]
  cases type : fs.volume.fs_type with
  | FS_FAT12 =>
      simp only [type] at inside
      refine Ends.bind ((move_fat coherent (by omega)).imp ?_ fun _ _ failed =>
        failed.earlier (Drive.Since.refl _) fun holds =>
          untouched (start.moved holds.1 holds.2))
      rintro ⟨⟩ one ⟨moved, same, at_⟩
      have stored := start.moved moved same
      refine Ends.bind ((stored.put at_ (by omega)
        (Nat.succ_le_of_lt (Nat.mod_lt _ (by decide))) rfl).imp ?_ fun _ _ failed => failed)
      rw [win_get at_ rfl, stored.bytes _ (by omega)]
      rintro ⟨⟩ two first
      change Stored fs (FatType.storeFirst fs.fatByte clst val) two at first
      have torn : ∀ {after}, Stored fs (FatType.storeFirst fs.fatByte clst val) after →
          Torn fs clst after := by
        intro after stored
        refine ⟨stored.coherent, stored.fatOnly, ?_⟩
        intro other inRange spared
        rw [stored.table inRange, FATFS.table, type,
          FatType.entry_storeFirst val (spared.resolve_right fun other => other type)]
      have volume := first.fatOnly.volume
      simp only
      rw [← volume]
      refine Ends.bind ((move_fat first.coherent (by rwa [volume])).imp ?_ fun _ _ failed =>
        failed.earlier first.fatOnly.since fun holds => torn (first.moved holds.1 holds.2))
      rintro ⟨⟩ three ⟨moved, same, at_⟩
      have stored := first.moved moved same
      refine (stored.put at_ inside (Nat.succ_le_of_lt (Nat.mod_lt _ (by decide))) rfl).imp ?_
        fun _ _ failed => failed
      rw [win_get at_ rfl, stored.bytes _ inside]
      rintro ⟨⟩ after second
      change Stored fs (FatType.storeSecond (FatType.storeFirst fs.fatByte clst val) clst val) after
        at second
      refine ⟨second.coherent, second.fatOnly, ?_⟩
      intro other inRange
      rw [second.table inRange, FATFS.table, type, FatType.entry_store]
      rfl
  | FS_FAT16 =>
      simp only [type] at inside
      simp only [word_sector]
      refine Ends.bind ((move_fat coherent (by omega)).imp ?_ fun _ _ failed =>
        failed.earlier (Drive.Since.refl _) fun holds =>
          untouched (start.moved holds.1 holds.2))
      rintro ⟨⟩ middle ⟨moved, same, at_⟩
      have fits : clst * 2 % SECTOR_SIZE + (littleEndian 2 val).length ≤ SECTOR_SIZE := by
        rw [littleEndian_length]
        simp only [SECTOR_SIZE]
        omega
      refine ((start.moved moved same).put at_ (by omega) fits rfl).imp ?_ fun _ _ failed => failed
      rintro ⟨⟩ after stored
      refine ⟨stored.coherent, stored.fatOnly, ?_⟩
      intro other inRange
      rw [stored.table inRange, FATFS.table, type, FatType.entry_word]
      rfl
  | FS_FAT32 =>
      simp only [type] at inside
      simp only [dword_sector]
      refine Ends.bind ((move_fat coherent (by omega)).imp ?_ fun _ _ failed =>
        failed.earlier (Drive.Since.refl _) fun holds =>
          untouched (start.moved holds.1 holds.2))
      rintro ⟨⟩ middle ⟨moved, same, at_⟩
      have fits (value : Nat) :
          clst * 4 % SECTOR_SIZE + (littleEndian 4 value).length ≤ SECTOR_SIZE := by
        rw [littleEndian_length]
        simp only [SECTOR_SIZE]
        omega
      refine ((start.moved moved same).put at_ (by omega) (fits _) rfl).imp ?_
        fun _ _ failed => failed
      rintro ⟨⟩ after stored
      refine ⟨stored.coherent, stored.fatOnly, ?_⟩
      intro other inRange
      rw [stored.table inRange, FATFS.table, type, FatType.entry_dword, masked_mod]
      rfl

end FATFS

end Conclave.Filesystem
