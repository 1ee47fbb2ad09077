import ConclaveFormal.Lib.LittleEndian
import ConclaveFormal.Filesystem.FatVolume

/-!
# The entries of a FAT

An entry has 12, 16 or 32 bits.  Two entries of 12 bits share a byte, and one of
them may begin in one sector and end in the next, so that writing it can stop
half-way.
-/

set_option autoImplicit false

namespace Conclave.Filesystem

open Conclave.Lib Attempt

namespace Sector

def ld_word (sector : Sector) (offset : Nat) : Nat :=
  ofLittleEndian [sector.get offset, sector.get (offset + 1)]

def ld_dword (sector : Sector) (offset : Nat) : Nat :=
  ofLittleEndian [sector.get offset, sector.get (offset + 1), sector.get (offset + 2),
    sector.get (offset + 3)]

def st_word (sector : Sector) (offset val : Nat) : Sector :=
  sector.patch offset (littleEndian 2 val)

def st_dword (sector : Sector) (offset val : Nat) : Sector :=
  sector.patch offset (littleEndian 4 val)

end Sector

namespace FATFS

/-! ## Reading and writing an entry -/

/-- Throws FR_DISK_ERR where the source returns 0xFFFFFFFF. -/
def get_fat (clst : Nat) : Attempt FATFS FRESULT Nat := do
  let fs ← get
  if clst < 2 ∨ fs.volume.n_fatent ≤ clst then return 1
  else
    match fs.volume.fs_type with
    | .FS_FAT12 =>
        let bc := clst + clst / 2
        move_window (fs.volume.fatbase + bc / SECTOR_SIZE)
        let wc := ((← get).win.get (bc % SECTOR_SIZE)).toNat
        let bc := bc + 1
        move_window (fs.volume.fatbase + bc / SECTOR_SIZE)
        let wc := wc ||| ((← get).win.get (bc % SECTOR_SIZE)).toNat <<< 8
        return if clst % 2 = 1 then wc >>> 4 else wc &&& 0xFFF
    | .FS_FAT16 =>
        move_window (fs.volume.fatbase + clst / (SECTOR_SIZE / 2))
        return (← get).win.ld_word (clst * 2 % SECTOR_SIZE)
    | .FS_FAT32 =>
        move_window (fs.volume.fatbase + clst / (SECTOR_SIZE / 4))
        return (← get).win.ld_dword (clst * 4 % SECTOR_SIZE) &&& 0x0FFFFFFF

/-- The window is changed, to be written back. -/
def putWin (change : Sector → Sector) : Attempt FATFS FRESULT Unit :=
  modify fun fs => { fs with win := change fs.win, wflag := true }

/-- The byte `*p`. -/
def putByte (offset : Nat) (change : UInt8 → UInt8) : Attempt FATFS FRESULT Unit :=
  putWin fun win => win.patch offset [change (win.get offset)]

def put_fat (clst val : Nat) : Attempt FATFS FRESULT Unit := do
  let fs ← get
  if clst < 2 ∨ fs.volume.n_fatent ≤ clst then throw .FR_INT_ERR
  else
    match fs.volume.fs_type with
    | .FS_FAT12 =>
        let bc := clst + clst / 2
        move_window (fs.volume.fatbase + bc / SECTOR_SIZE)
        putByte (bc % SECTOR_SIZE) fun p =>
          if clst % 2 = 1 then (p &&& (0x0F : UInt8)) ||| (UInt8.ofNat val <<< (4 : UInt8))
          else UInt8.ofNat val
        let bc := bc + 1
        move_window (fs.volume.fatbase + bc / SECTOR_SIZE)
        putByte (bc % SECTOR_SIZE) fun p =>
          if clst % 2 = 1 then UInt8.ofNat (val >>> 4)
          else (p &&& (0xF0 : UInt8)) ||| (UInt8.ofNat (val >>> 8) &&& (0x0F : UInt8))
    | .FS_FAT16 =>
        move_window (fs.volume.fatbase + clst / (SECTOR_SIZE / 2))
        putWin fun win => win.st_word (clst * 2 % SECTOR_SIZE) val
    | .FS_FAT32 =>
        move_window (fs.volume.fatbase + clst / (SECTOR_SIZE / 4))
        putWin fun win =>
          win.st_dword (clst * 4 % SECTOR_SIZE)
            (val &&& 0x0FFFFFFF ||| win.ld_dword (clst * 4 % SECTOR_SIZE) &&& 0xF0000000)

/-! ## The table -/

/-- The bytes of the first FAT. -/
def fatByte (fs : FATFS) (offset : Nat) : UInt8 :=
  (fs.sector (fs.volume.fatbase + offset / SECTOR_SIZE)).get (offset % SECTOR_SIZE)

end FATFS

namespace FatType

def bits : FatType → Nat
  | FS_FAT12 => 12
  | FS_FAT16 => 16
  | FS_FAT32 => 28

/-- So many bytes from `offset` on. -/
def read (bytes : Nat → UInt8) (offset width : Nat) : Bytes :=
  (List.range width).map fun index => bytes (offset + index)

/-- An entry in the bytes of a FAT. -/
def entry (bytes : Nat → UInt8) (clst : Nat) : FatType → Nat
  | FS_FAT12 =>
      let wc := (bytes (clst + clst / 2)).toNat + 256 * (bytes (clst + clst / 2 + 1)).toNat
      if clst % 2 = 1 then wc / 16 else wc % 4096
  | FS_FAT16 => ofLittleEndian (read bytes (clst * 2) 2)
  | FS_FAT32 => ofLittleEndian (read bytes (clst * 4) 4) % 2 ^ 28

end FatType

namespace FATFS

def table (fs : FATFS) (clst : Nat) : Nat := fs.volume.fs_type.entry fs.fatByte clst

/-- A sector of one of the FATs. -/
def InFats (volume : Volume) (sect : Nat) : Prop :=
  volume.fatbase ≤ sect ∧ sect < volume.fatbase + volume.n_fats * volume.fsize

/-- Only the FATs are not what they were. -/
structure FatOnly (before after : FATFS) : Prop where
  volume : after.volume = before.volume
  last_clst : after.last_clst = before.last_clst
  free_clst : after.free_clst = before.free_clst
  sector : ∀ {sect}, ¬InFats before.volume sect → after.sector sect = before.sector sect
  since : before.drive.Since after.drive
  mirrored : before.drive.Steady → Mirrored before → Mirrored after

namespace FatOnly

theorem trans {first second third : FATFS} (one : FatOnly first second)
    (other : FatOnly second third) : FatOnly first third where
  volume := other.volume.trans one.volume
  last_clst := other.last_clst.trans one.last_clst
  free_clst := other.free_clst.trans one.free_clst
  sector outside := by
    rw [← one.sector outside]
    exact other.sector (by rwa [one.volume])
  since := one.since.trans other.since
  mirrored steady mirrored :=
    other.mirrored (one.since.steady steady) (one.mirrored steady mirrored)

end FatOnly

theorem Same.fatOnly {before after : FATFS} (same : Same before after) : FatOnly before after := by
  refine ⟨same.volume, same.last_clst, same.free_clst, ?_, same.since, same.mirrored⟩
  intro sect outside
  refine same.sector ?_
  rintro ⟨two, low, high⟩
  refine outside ⟨by omega, ?_⟩
  rw [two]
  exact high

theorem Same.fatByte {before after : FATFS} (same : Same before after) {offset : Nat}
    (inside : offset < before.volume.fsize * SECTOR_SIZE) :
    after.fatByte offset = before.fatByte offset := by
  have low : offset / SECTOR_SIZE < before.volume.fsize := Nat.div_lt_of_lt_mul (by
    rwa [Nat.mul_comm])
  rw [FATFS.fatByte, FATFS.fatByte, same.volume, same.sector (not_mirror_of_low (by omega))]

/-! ## Bytes over the bytes of a FAT -/

def overlay (bytes : Nat → UInt8) (offset : Nat) (new : Bytes) (index : Nat) : UInt8 :=
  if offset ≤ index ∧ index < offset + new.length then new.getD (index - offset) 0
  else bytes index

/-- A change to the window, where it shows the first FAT. -/
theorem putWin_spec {fs : FATFS} (coherent : Coherent fs) {offset : Nat} {new : Bytes}
    (at_ : fs.winsect = some (fs.volume.fatbase + offset / SECTOR_SIZE))
    (inside : offset < fs.volume.fsize * SECTOR_SIZE)
    (fits : offset % SECTOR_SIZE + new.length ≤ SECTOR_SIZE) {change : Sector → Sector}
    (changed : change fs.win = fs.win.patch (offset % SECTOR_SIZE) new) :
    let after := (putWin change fs).2
    putWin change fs = (.ok (), after) ∧ Coherent after ∧ FatOnly fs after ∧
      after.fatByte = overlay fs.fatByte offset new := by
  have low : offset / SECTOR_SIZE < fs.volume.fsize := Nat.div_lt_of_lt_mul (by
    rwa [Nat.mul_comm])
  have first : 0 < fs.volume.n_fats := by
    have fats := fs.volume.fats
    omega
  have room : fs.volume.fsize ≤ fs.volume.n_fats * fs.volume.fsize := Nat.le_mul_of_pos_left _ first
  have marked : Mirrored fs → Mirrored { fs with win := change fs.win, wflag := true } :=
    fun mirrored two index inside clean => mirrored two index inside fun dirty =>
      clean ⟨rfl, dirty.2⟩
  refine ⟨rfl, ⟨?_, fun _ => ⟨_, at_⟩, coherent.primary⟩,
    ⟨rfl, rfl, rfl, ?_, Drive.Since.refl _, fun _ => marked⟩, ?_⟩
  · intro sect _ clean
    cases clean
  · intro sect outside
    have elsewhere : fs.winsect ≠ some sect := by
      rw [at_]
      rintro ⟨⟩
      exact outside ⟨Nat.le_add_right _ _, Nat.add_lt_add_left (lt_of_lt_of_le low room) _⟩
    exact (if_neg elsewhere).trans (if_neg elsewhere).symm
  · funext index
    have shown := sector_of_winsect at_
    change (FATFS.sector { fs with win := change fs.win, wflag := true }
      (fs.volume.fatbase + index / SECTOR_SIZE)).get (index % SECTOR_SIZE) = _
    have indexDiv := Nat.div_add_mod index SECTOR_SIZE
    have offsetDiv := Nat.div_add_mod offset SECTOR_SIZE
    have indexLt := Nat.mod_lt index (show 0 < SECTOR_SIZE by decide)
    by_cases same : index / SECTOR_SIZE = offset / SECTOR_SIZE
    · have here : fs.winsect = some (fs.volume.fatbase + index / SECTOR_SIZE) := by
        rw [same, at_]
      rw [same] at indexDiv
      rw [FATFS.sector, if_pos here, changed, Sector.get_patch _ fits, overlay, fatByte, same,
        shown]
      by_cases covered : offset ≤ index ∧ index < offset + new.length
      · rw [if_pos covered, if_pos (by omega)]
        congr 1
        omega
      · rw [if_neg covered, if_neg (by omega)]
    · have elsewhere : fs.winsect ≠ some (fs.volume.fatbase + index / SECTOR_SIZE) := by
        rw [at_]
        intro equal
        have := Option.some.inj equal
        omega
      have uncovered : ¬(offset ≤ index ∧ index < offset + new.length) := by
        rintro ⟨above, below⟩
        have ge := Nat.div_le_div_right (c := SECTOR_SIZE) above
        have next : offset / SECTOR_SIZE + 1 ≤ index / SECTOR_SIZE := by omega
        have scaled := Nat.mul_le_mul_left SECTOR_SIZE next
        rw [Nat.mul_add, Nat.mul_one] at scaled
        omega
      rw [overlay, if_neg uncovered, fatByte, FATFS.sector, FATFS.sector, if_neg elsewhere,
        if_neg elsewhere]

end FATFS

/-! ## One entry at a time -/

namespace FatType

open FATFS

variable {bytes : Nat → UInt8} {clst other val : Nat}

theorem read_overlay_self (offset : Nat) (new : Bytes) :
    read (overlay bytes offset new) offset new.length = new := by
  refine List.ext_getElem (by simp [read]) ?_
  intro index _ inside
  simp only [read, List.getElem_map, List.getElem_range, overlay]
  rw [if_pos (by omega), Nat.add_sub_cancel_left, List.getD_eq_getElem _ _ inside]

theorem read_congr {other : Nat → UInt8} {offset width : Nat}
    (same : ∀ index, offset ≤ index → index < offset + width → other index = bytes index) :
    read other offset width = read bytes offset width := by
  refine List.map_congr_left ?_
  intro index member
  have inside := List.mem_range.mp member
  exact same _ (by omega) (by omega)

theorem read_overlay_other {offset place width : Nat} {new : Bytes}
    (apart : place + width ≤ offset ∨ offset + new.length ≤ place) :
    read (overlay bytes offset new) place width = read bytes place width := by
  refine read_congr ?_
  intro index low high
  rw [overlay, if_neg (by omega)]

/-- Entries of whole bytes, side by side. -/
theorem read_entries {width : Nat} {new : Bytes} (length : new.length = width) (other : Nat) :
    read (overlay bytes (clst * width) new) (other * width) width =
      if other = clst then new else read bytes (other * width) width := by
  split
  · rename_i equal
    rw [equal, ← length]
    exact read_overlay_self _ _
  · rename_i different
    refine read_overlay_other ?_
    rw [length]
    rcases Nat.lt_or_gt_of_ne different with below | above
    · left
      rw [← Nat.succ_mul]
      exact Nat.mul_le_mul_right width below
    · right
      rw [← Nat.succ_mul]
      exact Nat.mul_le_mul_right width above

theorem entry_word (other : Nat) :
    FS_FAT16.entry (overlay bytes (clst * 2) (littleEndian 2 val)) other =
      if other = clst then val % 2 ^ 16 else FS_FAT16.entry bytes other := by
  rw [entry, read_entries (littleEndian_length 2 val)]
  split
  · rw [ofLittleEndian_littleEndian]
    rfl
  · rfl

theorem entry_dword (other : Nat) :
    FS_FAT32.entry (overlay bytes (clst * 4) (littleEndian 4 val)) other =
      if other = clst then val % 2 ^ 28 else FS_FAT32.entry bytes other := by
  rw [entry, read_entries (littleEndian_length 4 val)]
  split
  · rw [ofLittleEndian_littleEndian]
    omega
  · rfl

/-! ## Entries that share a byte -/

/-- The low half of `p` stays. -/
theorem toNat_high (p value : UInt8) :
    ((p &&& (0x0F : UInt8)) ||| (value <<< (4 : UInt8))).toNat =
      p.toNat % 16 + value.toNat % 16 * 16 := by
  have low : p.toNat &&& 15 = p.toNat % 16 := Nat.and_two_pow_sub_one_eq_mod p.toNat 4
  have high : (value <<< (4 : UInt8)).toNat = (value.toNat % 16) <<< 4 := by
    rw [UInt8.toNat_shiftLeft, Nat.shiftLeft_eq, Nat.shiftLeft_eq]
    have exponent : (4 : UInt8).toNat % 8 = 4 := rfl
    rw [exponent]
    omega
  rw [UInt8.toNat_or, UInt8.toNat_and, high]
  change p.toNat &&& 15 ||| _ = _
  rw [low]
  exact or_shiftLeft (show p.toNat % 16 < 2 ^ 4 from Nat.mod_lt _ (by decide)) _

/-- The high half of `p` stays. -/
theorem toNat_low (p value : UInt8) :
    ((p &&& (0xF0 : UInt8)) ||| (value &&& (0x0F : UInt8))).toNat =
      p.toNat / 16 * 16 + value.toNat % 16 := by
  have low : value.toNat &&& 15 = value.toNat % 16 :=
    Nat.and_two_pow_sub_one_eq_mod value.toNat 4
  have high : p.toNat &&& 240 = (p.toNat / 16) <<< 4 := by
    have parts := @and_add_two_pow (p.toNat / 16) 15 (p.toNat % 16) 0 4
      (Nat.mod_lt _ (by decide)) (by decide)
    have whole : p.toNat / 16 * 2 ^ 4 + p.toNat % 16 = p.toNat := by omega
    have nibble : p.toNat / 16 &&& 15 = p.toNat / 16 := by
      have small := p.toNat_lt
      exact (Nat.and_two_pow_sub_one_eq_mod (p.toNat / 16) 4).trans (Nat.mod_eq_of_lt (by omega))
    rw [whole, nibble, Nat.and_zero, Nat.add_zero] at parts
    rw [Nat.shiftLeft_eq]
    exact parts
  rw [UInt8.toNat_or, UInt8.toNat_and, UInt8.toNat_and]
  change p.toNat &&& 240 ||| value.toNat &&& 15 = _
  rw [high, low, Nat.or_comm, Nat.add_comm]
  exact or_shiftLeft (show value.toNat % 16 < 2 ^ 4 from Nat.mod_lt _ (by decide)) _

/-- The first byte of an entry, and then the second one. -/
def storeFirst (bytes : Nat → UInt8) (clst val : Nat) : Nat → UInt8 :=
  overlay bytes (clst + clst / 2)
    [if clst % 2 = 1 then
        (bytes (clst + clst / 2) &&& (0x0F : UInt8)) ||| (UInt8.ofNat val <<< (4 : UInt8))
      else UInt8.ofNat val]

def storeSecond (bytes : Nat → UInt8) (clst val : Nat) : Nat → UInt8 :=
  overlay bytes (clst + clst / 2 + 1)
    [if clst % 2 = 1 then UInt8.ofNat (val >>> 4)
      else (bytes (clst + clst / 2 + 1) &&& (0xF0 : UInt8)) |||
        (UInt8.ofNat (val >>> 8) &&& (0x0F : UInt8))]

theorem overlay_single (offset : Nat) (byte : UInt8) (index : Nat) :
    overlay bytes offset [byte] index = if index = offset then byte else bytes index := by
  rw [overlay]
  by_cases here : index = offset
  · rw [if_pos here, if_pos (by rw [List.length_singleton]; omega), here, Nat.sub_self]
    rfl
  · rw [if_neg here, if_neg (by rw [List.length_singleton]; omega)]

/-- The halves of its bytes that an entry does not share decide it. -/
theorem entry_halves {changed : Nat → UInt8} (other : Nat)
    (odd : other % 2 = 1 →
      (changed (other + other / 2)).toNat / 16 = (bytes (other + other / 2)).toNat / 16 ∧
        changed (other + other / 2 + 1) = bytes (other + other / 2 + 1))
    (even : other % 2 = 0 → changed (other + other / 2) = bytes (other + other / 2) ∧
      (changed (other + other / 2 + 1)).toNat % 16 = (bytes (other + other / 2 + 1)).toNat % 16) :
    FS_FAT12.entry changed other = FS_FAT12.entry bytes other := by
  rcases Nat.mod_two_eq_zero_or_one other with isEven | isOdd
  · obtain ⟨first, second⟩ := even isEven
    simp only [entry, isEven, Nat.zero_ne_one, if_false, first]
    omega
  · obtain ⟨first, second⟩ := odd isOdd
    simp only [entry, isOdd, if_true, second]
    omega

theorem entry_storeFirst (val : Nat) {other : Nat} (different : other ≠ clst) :
    FS_FAT12.entry (storeFirst bytes clst val) other = FS_FAT12.entry bytes other := by
  refine entry_halves other ?_ ?_
  · intro odd
    refine ⟨?_, ?_⟩
    · rw [storeFirst, overlay_single, if_neg (by omega)]
    · rw [storeFirst, overlay_single, if_neg (by omega)]
  · intro even
    refine ⟨?_, ?_⟩
    · rw [storeFirst, overlay_single, if_neg (by omega)]
    · rw [storeFirst, overlay_single]
      split
      · rename_i shared
        rw [if_pos (show clst % 2 = 1 by omega), toNat_high, shared]
        omega
      · rfl

theorem entry_storeSecond (val : Nat) {other : Nat} (different : other ≠ clst) :
    FS_FAT12.entry (storeSecond bytes clst val) other = FS_FAT12.entry bytes other := by
  refine entry_halves other ?_ ?_
  · intro odd
    refine ⟨?_, ?_⟩
    · rw [storeSecond, overlay_single]
      split
      · rename_i shared
        rw [if_neg (show ¬clst % 2 = 1 by omega), toNat_low, shared]
        omega
      · rfl
    · rw [storeSecond, overlay_single, if_neg (by omega)]
  · intro even
    refine ⟨?_, ?_⟩
    · rw [storeSecond, overlay_single, if_neg (by omega)]
    · rw [storeSecond, overlay_single, if_neg (by omega)]

theorem entry_store (val other : Nat) :
    FS_FAT12.entry (storeSecond (storeFirst bytes clst val) clst val) other =
      if other = clst then val % 2 ^ 12 else FS_FAT12.entry bytes other := by
  split
  · rename_i here
    rw [here]
    have second : storeSecond (storeFirst bytes clst val) clst val (clst + clst / 2) =
        storeFirst bytes clst val (clst + clst / 2) := by
      rw [storeSecond, overlay_single, if_neg (by omega)]
    have shift4 : val >>> 4 = val / 16 := Nat.shiftRight_eq_div_pow val 4
    have shift8 : val >>> 8 = val / 256 := Nat.shiftRight_eq_div_pow val 8
    simp only [entry, second]
    rw [storeSecond, overlay_single, if_pos rfl, storeFirst, overlay_single, if_pos rfl]
    split
    · rw [toNat_high, UInt8.toNat_ofNat', UInt8.toNat_ofNat', shift4]
      omega
    · rw [toNat_low, UInt8.toNat_ofNat', UInt8.toNat_ofNat', shift8]
      omega
  · rename_i different
    rw [entry_storeSecond val different, entry_storeFirst val different]

end FatType

end Conclave.Filesystem
