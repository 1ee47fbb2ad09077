import Mathlib.Data.List.Perm.Subperm
import ConclaveFormal.Lib.LinkedCells
import ConclaveFormal.Lib.Transition
import ConclaveFormal.Filesystem.FatTable

/-!
# Cluster chains

`create_chain` looks for a free cluster and links it to a chain, `remove_chain`
frees the clusters of one.  Whoever has chains of a volume, and in whatever order
they grow and shrink, no cluster is ever in two of them.
-/

set_option autoImplicit false

namespace Conclave.Filesystem

open Conclave.Lib Attempt

namespace FATFS

/-! ## Freeing a chain -/

/-- FSINFO counts another free cluster, if it counts at all. -/
def countFreed : Attempt FATFS FRESULT Unit :=
  modify fun fs =>
    { fs with
      free_clst :=
        if fs.free_clst < fs.volume.n_fatent - 2 then fs.free_clst + 1 else fs.free_clst }

def freeCluster (clst : Nat) : Attempt FATFS FRESULT Unit := do
  put_fat clst 0
  countFreed

/-- The loop of `remove_chain`, which comes to each cluster once. -/
def removeLoop : Nat → Nat → Attempt FATFS FRESULT Unit
  | 0, _ => throw .FR_INT_ERR
  | fuel + 1, clst => do
      let nxt ← get_fat clst
      -- An empty cluster?
      if nxt = 0 then return ()
      else if nxt = 1 then throw .FR_INT_ERR
      else
        freeCluster clst
        let fs ← get
        if nxt < fs.volume.n_fatent then removeLoop fuel nxt
        else return ()

def remove_chain (clst pclst : Nat) : Attempt FATFS FRESULT Unit := do
  let fs ← get
  if clst < 2 ∨ fs.volume.n_fatent ≤ clst then throw .FR_INT_ERR
  else
    -- Mark the previous cluster 'EOC' on the FAT if it exists
    if pclst = 0 then removeLoop fs.volume.n_fatent clst
    else
      put_fat pclst 0xFFFFFFFF
      removeLoop fs.volume.n_fatent clst

/-! ## Making a chain longer -/

/-- The cluster behind, or the first one behind the last. -/
def nextCluster (volume : Volume) (clst : Nat) : Nat :=
  if volume.n_fatent ≤ clst + 1 then 2 else clst + 1

/-- The search for a free cluster from behind `before` round to `scl`. -/
def scan (scl : Nat) : Nat → Nat → Attempt FATFS FRESULT Nat
  | 0, _ => throw .FR_INT_ERR
  | fuel + 1, before => do
      let fs ← get
      let ncl := nextCluster fs.volume before
      -- No free cluster found, having come round?
      if fs.volume.n_fatent ≤ before + 1 ∧ scl < ncl then return 0
      else
        let cs ← get_fat ncl
        if cs = 0 then return ncl
        else if cs = 1 then throw .FR_INT_ERR
        else if ncl = scl then return 0
        else scan scl fuel ncl

/-- A free cluster, the next one if a chain is stretched, or 0. -/
def findFree (clst scl : Nat) : Attempt FATFS FRESULT Nat := do
  let fs ← get
  if scl = clst then
    let ncl := nextCluster fs.volume scl
    let cs ← get_fat ncl
    if cs = 1 then throw .FR_INT_ERR
    else if cs = 0 then return ncl
    else
      let fs ← get
      scan (if 2 ≤ fs.last_clst ∧ fs.last_clst < fs.volume.n_fatent then fs.last_clst else scl)
        fs.volume.n_fatent
        (if 2 ≤ fs.last_clst ∧ fs.last_clst < fs.volume.n_fatent then fs.last_clst else scl)
  else scan scl fs.volume.n_fatent scl

/-- FSINFO knows of the last cluster given out, and of one free cluster less. -/
def countTaken (ncl : Nat) : Attempt FATFS FRESULT Unit :=
  modify fun fs =>
    { fs with
      last_clst := ncl
      free_clst :=
        if fs.free_clst ≤ fs.volume.n_fatent - 2 then fs.free_clst - 1 else fs.free_clst }

/-- The new cluster is linked from the previous one if there is one. -/
def allocate (clst scl : Nat) : Attempt FATFS FRESULT Nat := do
  let fs ← get
  if fs.free_clst = 0 then return 0
  else
    let ncl ← findFree clst scl
    if ncl = 0 then return 0
    else
      put_fat ncl 0xFFFFFFFF
      if clst = 0 then
        countTaken ncl
        return ncl
      else
        put_fat clst ncl
        countTaken ncl
        return ncl

/-- 0 is a volume without a free cluster; throws where the source returns 1 or 0xFFFFFFFF. -/
def create_chain (clst : Nat) : Attempt FATFS FRESULT Nat := do
  let fs ← get
  if clst = 0 then
    allocate 0
      (if fs.last_clst = 0 ∨ fs.volume.n_fatent ≤ fs.last_clst then 1 else fs.last_clst)
  else
    let cs ← get_fat clst
    if cs < 2 then throw .FR_INT_ERR
    -- It is already followed by next cluster
    else if cs < fs.volume.n_fatent then return cs
    else allocate clst clst

end FATFS

/-! ## Chains -/

/-- What an entry says of its cluster. -/
def Volume.link (volume : Volume) (entry : Nat) : Link Nat :=
  if entry = 0 then .free else if entry < volume.n_fatent then .next entry else .last

namespace Volume

variable (volume : Volume)

theorem link_zero : volume.link 0 = .free := if_pos rfl

theorem link_cluster {entry : Nat} (low : 2 ≤ entry) (inRange : entry < volume.n_fatent) :
    volume.link entry = .next entry := by
  rw [link, if_neg (by omega), if_pos inRange]

theorem link_end {entry : Nat} (outside : volume.n_fatent ≤ entry) : volume.link entry = .last := by
  have low := volume.entries_low
  rw [link, if_neg (by omega), if_neg (by omega)]

theorem link_next {entry next : Nat} (linked : volume.link entry = .next next) :
    entry = next ∧ next < volume.n_fatent := by
  rw [link] at linked
  by_cases free : entry = 0
  · rw [if_pos free] at linked
    cases linked
  · by_cases inRange : entry < volume.n_fatent
    · rw [if_neg free, if_pos inRange] at linked
      cases linked
      exact ⟨rfl, inRange⟩
    · rw [if_neg free, if_neg inRange] at linked
      cases linked

theorem link_last {entry : Nat} (linked : volume.link entry = .last) :
    volume.n_fatent ≤ entry := by
  rw [link] at linked
  by_cases free : entry = 0
  · rw [if_pos free] at linked
    cases linked
  · by_cases inRange : entry < volume.n_fatent
    · rw [if_neg free, if_pos inRange] at linked
      cases linked
    · omega

/-- Numbers of clusters are entries of the table, and the end of a chain is none of them. -/
theorem entries_bits : volume.n_fatent ≤ 2 ^ volume.fs_type.bits - 1 := by
  have high := volume.entries_high
  cases type : volume.fs_type <;> rw [type] at high <;>
    simp only [FatType.maxClusters, FatType.bits] at high ⊢ <;> omega

/-- 'EOC' in the bits of an entry. -/
theorem link_eoc : volume.link (0xFFFFFFFF % 2 ^ volume.fs_type.bits) = .last := by
  refine volume.link_end ?_
  have high := volume.entries_bits
  cases type : volume.fs_type <;> rw [type] at high <;>
    simp only [FatType.bits] at high ⊢ <;> omega

end Volume

namespace FATFS

/-- What the table says of a cluster; numbers of no cluster are never in use. -/
def links (fs : FATFS) (clst : Nat) : Link Nat :=
  if 2 ≤ clst ∧ clst < fs.volume.n_fatent then fs.volume.link (fs.table clst) else .free

variable {fs : FATFS}

theorem links_cluster {clst : Nat} (low : 2 ≤ clst) (inRange : clst < fs.volume.n_fatent) :
    fs.links clst = fs.volume.link (fs.table clst) :=
  if_pos ⟨low, inRange⟩

theorem links_used {clst : Nat} (used : fs.links clst ≠ .free) :
    2 ≤ clst ∧ clst < fs.volume.n_fatent ∧ fs.table clst ≠ 0 := by
  by_cases inRange : 2 ≤ clst ∧ clst < fs.volume.n_fatent
  · refine ⟨inRange.1, inRange.2, ?_⟩
    intro free
    rw [links_cluster inRange.1 inRange.2, free, Volume.link_zero] at used
    exact used rfl
  · rw [links, if_neg inRange] at used
    exact absurd rfl used

/-! ## What stays -/

/-- Everything outside the FATs is what it was, and a copy of the first FAT is kept up. -/
structure Spares (before after : FATFS) : Prop where
  volume : after.volume = before.volume
  sector : ∀ {sect}, ¬InFats before.volume sect → after.sector sect = before.sector sect
  since : before.drive.Since after.drive
  mirrored : before.drive.Steady → Mirrored before → Mirrored after

namespace Spares

theorem refl (fs : FATFS) : Spares fs fs :=
  ⟨rfl, fun _ => rfl, Drive.Since.refl _, fun _ mirrored => mirrored⟩

theorem trans {first second third : FATFS} (one : Spares first second)
    (other : Spares second third) : Spares first third where
  volume := other.volume.trans one.volume
  sector outside := by
    rw [← one.sector outside]
    exact other.sector (by rwa [one.volume])
  since := one.since.trans other.since
  mirrored steady mirrored :=
    other.mirrored (one.since.steady steady) (one.mirrored steady mirrored)

end Spares

theorem FatOnly.spares {before after : FATFS} (fatOnly : FatOnly before after) :
    Spares before after :=
  ⟨fatOnly.volume, fatOnly.sector, fatOnly.since, fatOnly.mirrored⟩

/-- No entry is the invalid link. -/
structure Sane (fs : FATFS) : Prop where
  coherent : Coherent fs
  valid : ∀ {clst}, 2 ≤ clst → clst < fs.volume.n_fatent → fs.table clst ≠ 1

/-- The volume is sane, has these links and is otherwise as before. -/
structure Became (before : FATFS) (changed : Nat → Link Nat) (after : FATFS) : Prop where
  sane : Sane after
  spares : Spares before after
  links : after.links = changed

namespace Became

theorem refl (sane : Sane fs) : Became fs fs.links fs := ⟨sane, Spares.refl fs, rfl⟩

theorem trans {first second third : FATFS} {one other : Nat → Link Nat}
    (became : Became first one second) (later : Became second other third) :
    Became first other third :=
  ⟨later.sane, became.spares.trans later.spares, later.links⟩

theorem same {after : FATFS} (sane : Sane fs) (coherent : Coherent after) (same : Same fs after) :
    Became fs fs.links after := by
  refine ⟨⟨coherent, ?_⟩, same.fatOnly.spares, ?_⟩
  · intro clst low inRange
    rw [same.volume] at inRange
    rw [same.table inRange]
    exact sane.valid low inRange
  · funext clst
    rw [FATFS.links, FATFS.links, same.volume]
    by_cases inRange : 2 ≤ clst ∧ clst < fs.volume.n_fatent
    · rw [if_pos inRange, if_pos inRange, same.table inRange.2]
    · rw [if_neg inRange, if_neg inRange]

theorem put {after : FATFS} {clst val : Nat} (sane : Sane fs) (put : Put fs clst val after)
    (low : 2 ≤ clst) (inRange : clst < fs.volume.n_fatent)
    (valid : val % 2 ^ fs.volume.fs_type.bits ≠ 1) :
    Became fs (Function.update fs.links clst
      (fs.volume.link (val % 2 ^ fs.volume.fs_type.bits))) after := by
  have volume := put.fatOnly.volume
  refine ⟨⟨put.coherent, ?_⟩, put.fatOnly.spares, ?_⟩
  · intro other lowOther inRangeOther
    rw [volume] at inRangeOther
    rw [put.table inRangeOther]
    by_cases here : other = clst
    · rwa [if_pos here]
    · rw [if_neg here]
      exact sane.valid lowOther inRangeOther
  · funext other
    by_cases here : other = clst
    · subst here
      rw [Function.update_self, links_cluster low (volume ▸ inRange), volume, put.table inRange,
        if_pos rfl]
    · rw [Function.update_of_ne here, FATFS.links, FATFS.links, volume]
      by_cases inside : 2 ≤ other ∧ other < fs.volume.n_fatent
      · rw [if_pos inside, if_pos inside, put.table inside.2, if_neg here]
      · rw [if_neg inside, if_neg inside]

/-- What FSINFO knows is not in the table. -/
theorem recount (sane : Sane fs) (last_clst free_clst : Nat) :
    Became fs fs.links { fs with last_clst, free_clst } :=
  ⟨⟨⟨sane.coherent.clean, sane.coherent.dirty, sane.coherent.primary⟩,
    sane.valid⟩, ⟨rfl, fun _ => rfl, Drive.Since.refl _, fun _ mirrored => mirrored⟩, rfl⟩

theorem stay {middle after : FATFS} (became : Became fs fs.links middle)
    (later : Became middle middle.links after) : Became fs fs.links after := by
  have all := became.trans later
  rwa [became.links] at all

end Became

/-- An access to the drive has failed on the way. -/
def DiskError (before : FATFS) : FRESULT → FATFS → Prop := Failed before fun _ => True

theorem Failed.diskError {holds : FATFS → Prop} {res : FRESULT} {after : FATFS}
    (failed : Failed fs holds res after) : DiskError fs res after :=
  failed.earlier (Drive.Since.refl _) fun _ => trivial

theorem Became.diskError {changed : Nat → Link Nat} {middle after : FATFS} {res : FRESULT}
    (became : Became fs changed middle) (failed : DiskError middle res after) :
    DiskError fs res after :=
  Failed.earlier failed became.spares.since fun _ => trivial

/-! ## Entries as links -/

theorem get_fat_links (sane : Sane fs) {clst : Nat} (low : 2 ≤ clst)
    (inRange : clst < fs.volume.n_fatent) :
    Ends (get_fat clst) fs
      (fun val after => val = fs.table clst ∧ Became fs fs.links after ∧ Same fs after)
      (DiskError fs) := by
  refine (get_fat_spec sane.coherent low inRange).imp ?_ fun _ _ failed => failed.diskError
  rintro val after ⟨value, coherent, same⟩
  exact ⟨value, Became.same sane coherent same, same⟩

theorem put_fat_free (sane : Sane fs) {clst : Nat} (low : 2 ≤ clst)
    (inRange : clst < fs.volume.n_fatent) :
    Ends (put_fat clst 0) fs
      (fun _ after => Became fs (Function.update fs.links clst .free) after) (DiskError fs) := by
  refine (put_fat_spec sane.coherent 0 low inRange).imp ?_ fun _ _ failed => failed.diskError
  rintro ⟨⟩ after put
  have became := Became.put sane put low inRange (by rw [Nat.zero_mod]; decide)
  rwa [Nat.zero_mod, Volume.link_zero] at became

theorem put_fat_eoc (sane : Sane fs) {clst : Nat} (low : 2 ≤ clst)
    (inRange : clst < fs.volume.n_fatent) :
    Ends (put_fat clst 0xFFFFFFFF) fs
      (fun _ after => Became fs (Function.update fs.links clst .last) after) (DiskError fs) := by
  refine (put_fat_spec sane.coherent _ low inRange).imp ?_ fun _ _ failed => failed.diskError
  rintro ⟨⟩ after put
  have eoc := fs.volume.link_eoc
  have valid : 0xFFFFFFFF % 2 ^ fs.volume.fs_type.bits ≠ 1 := by
    have high := fs.volume.link_last eoc
    have low := fs.volume.entries_low
    omega
  have became := Became.put sane put low inRange valid
  rwa [eoc] at became

theorem put_fat_next (sane : Sane fs) {clst next : Nat} (low : 2 ≤ clst)
    (inRange : clst < fs.volume.n_fatent) (lowNext : 2 ≤ next)
    (inRangeNext : next < fs.volume.n_fatent) :
    Ends (put_fat clst next) fs
      (fun _ after => Became fs (Function.update fs.links clst (.next next)) after)
      (DiskError fs) := by
  refine (put_fat_spec sane.coherent next low inRange).imp ?_ fun _ _ failed => failed.diskError
  rintro ⟨⟩ after put
  have entry : next % 2 ^ fs.volume.fs_type.bits = next := by
    have high := fs.volume.entries_bits
    exact Nat.mod_eq_of_lt (by omega)
  have became := Became.put sane put low inRange (by rw [entry]; omega)
  rwa [entry, Volume.link_cluster _ lowNext inRangeNext] at became

/-! ## Removing -/

theorem freeCluster_spec (sane : Sane fs) {clst : Nat} (used : fs.links clst ≠ .free) :
    Ends (freeCluster clst) fs
      (fun _ after => Became fs (Function.update fs.links clst .free) after) (DiskError fs) := by
  obtain ⟨low, inRange, _⟩ := links_used used
  refine Ends.bind ((put_fat_free sane low inRange).imp ?_ fun _ _ failed => failed)
  rintro ⟨⟩ middle became
  have counted := became.trans (Became.recount became.sane middle.last_clst
    (if middle.free_clst < middle.volume.n_fatent - 2 then middle.free_clst + 1
      else middle.free_clst))
  rw [became.links] at counted
  exact Ends.of_ok rfl counted

/-- One round of the loop. -/
theorem removeLoop_round (sane : Sane fs) {clst fuel : Nat} (used : fs.links clst ≠ .free)
    {returns : Unit → FATFS → Prop}
    (next : ∀ freed, Became fs (Function.update fs.links clst .free) freed →
      Ends (if fs.table clst < fs.volume.n_fatent then removeLoop fuel (fs.table clst)
        else pure ()) freed returns (DiskError fs)) :
    Ends (removeLoop (fuel + 1) clst) fs returns (DiskError fs) := by
  obtain ⟨low, inRange, occupied⟩ := links_used used
  rw [removeLoop]
  refine Ends.bind ((get_fat_links sane low inRange).imp ?_ fun _ _ failed => failed)
  rintro nxt middle ⟨rfl, became, _⟩
  rw [if_neg occupied, if_neg (sane.valid low inRange)]
  have stillUsed : middle.links clst ≠ .free := by rwa [became.links]
  refine Ends.bind ((freeCluster_spec became.sane stillUsed).imp ?_
    fun _ _ failed => became.diskError failed)
  rintro ⟨⟩ freed one
  rw [became.links] at one
  have all := became.trans one
  refine Ends.bind (Ends.of_ok rfl ?_)
  rw [all.spares.volume]
  exact next freed all

theorem removeLoop_spec {rest : List Nat} :
    ∀ {fs : FATFS} {clst fuel : Nat}, Sane fs → Linked fs.links (clst :: rest) →
      rest.length < fuel →
      Ends (removeLoop fuel clst) fs
        (fun _ after => Became fs
          (fun cell => if cell ∈ clst :: rest then .free else fs.links cell) after)
        (DiskError fs) := by
  induction rest with
  | nil =>
      intro fs clst fuel sane linked enough
      cases fuel with
      | zero => omega
      | succ fuel =>
          have used := linked.not_free List.mem_cons_self
          obtain ⟨low, inRange, _⟩ := links_used used
          refine removeLoop_round sane used ?_
          intro freed became
          have last : fs.volume.link (fs.table clst) = .last :=
            (links_cluster low inRange).symm.trans linked
          rw [if_neg (by have := fs.volume.link_last last; omega)]
          refine Ends.of_ok rfl ⟨became.sane, became.spares, ?_⟩
          rw [became.links]
          funext cell
          by_cases here : cell = clst <;> simp [here]
  | cons next rest ih =>
      intro fs clst fuel sane linked enough
      cases fuel with
      | zero => omega
      | succ fuel =>
          have used := linked.not_free List.mem_cons_self
          obtain ⟨low, inRange, _⟩ := links_used used
          refine removeLoop_round sane used ?_
          intro freed became
          obtain ⟨entry, lowNext⟩ := fs.volume.link_next
            ((links_cluster low inRange).symm.trans linked.1)
          rw [entry, if_pos lowNext]
          have later : Linked freed.links (next :: rest) := by
            refine linked.2.congr ?_
            intro cell member
            have apart : cell ≠ clst := by
              rintro rfl
              exact (List.nodup_cons.mp linked.nodup).1 member
            rw [became.links, Function.update_of_ne apart]
          refine (ih became.sane later (Nat.lt_of_succ_lt_succ enough)).imp ?_
            fun _ _ failed => became.diskError failed
          rintro ⟨⟩ after removed
          refine ⟨removed.sane, became.spares.trans removed.spares, ?_⟩
          rw [removed.links, became.links]
          funext cell
          by_cases here : cell = clst <;> by_cases there : cell ∈ next :: rest <;>
            simp [here, there]

/-- `front` is still a chain, `back` is free, and nothing else has changed. -/
structure CutOff (before : FATFS) (front back : List Nat) (after : FATFS) : Prop where
  sane : Sane after
  spares : Spares before after
  kept : Linked after.links front
  freed : ∀ cell ∈ back, after.links cell = .free
  others : ∀ {cell}, cell ∉ front ++ back → after.links cell = before.links cell

/-- No cluster, or the last one of some. -/
theorem getLastD_cases (cells : List Nat) :
    cells = [] ∧ cells.getLastD 0 = 0 ∨ ∃ front, cells = front ++ [cells.getLastD 0] := by
  rcases List.eq_nil_or_concat cells with rfl | ⟨front, clst, rfl⟩
  · exact .inl ⟨rfl, rfl⟩
  · exact .inr ⟨front, by rw [List.concat_eq_append, List.getLastD_concat]⟩

/-- A chain has no more clusters than there are. -/
theorem linked_length {cells : List Nat} (linked : Linked fs.links cells) :
    cells.length ≤ fs.volume.n_fatent := by
  have inside : cells ⊆ List.range fs.volume.n_fatent := fun cell member =>
    List.mem_range.mpr (links_used (linked.not_free member)).2.1
  have length := (List.subperm_of_subset linked.nodup inside).length_le
  rwa [List.length_range] at length

theorem remove_chain_spec (sane : Sane fs) {front back : List Nat} {clst : Nat}
    (linked : Linked fs.links (front ++ clst :: back)) :
    Ends (remove_chain clst (front.getLastD 0)) fs
      (fun _ after => CutOff fs front (clst :: back) after) (DiskError fs) := by
  obtain ⟨low, inRange, _⟩ := links_used
    (linked.not_free (List.mem_append_right front List.mem_cons_self))
  have enough : back.length < fs.volume.n_fatent := linked_length linked.drop
  refine Ends.bind (Ends.of_ok rfl ?_)
  rw [if_neg (by omega)]
  rcases getLastD_cases front with ⟨rfl, none⟩ | ⟨rest, some⟩
  · rw [if_pos none]
    refine (removeLoop_spec sane linked enough).imp ?_ fun _ _ failed => failed
    rintro ⟨⟩ after removed
    refine ⟨removed.sane, removed.spares, trivial, ?_, ?_⟩
    · intro cell member
      rw [removed.links]
      exact if_pos member
    · intro cell outside
      rw [removed.links]
      exact if_neg outside
  · generalize front.getLastD 0 = pclst at some ⊢
    subst some
    rw [List.append_assoc, List.singleton_append] at linked
    have nodup := linked.nodup
    obtain ⟨lowLast, inRangeLast, _⟩ := links_used
      (linked.not_free (List.mem_append_right rest List.mem_cons_self))
    rw [if_neg (by omega)]
    refine Ends.bind ((put_fat_eoc sane lowLast inRangeLast).imp ?_ fun _ _ failed => failed)
    rintro ⟨⟩ middle became
    have apart : ∀ cell ∈ clst :: back, cell ≠ pclst := by
      rintro cell member rfl
      exact (List.nodup_cons.mp (List.nodup_append.mp nodup).2.1).1 member
    have behind : Linked middle.links (clst :: back) := by
      refine linked.drop.tail.congr ?_
      intro cell member
      rw [became.links, Function.update_of_ne (apart cell member)]
    refine (removeLoop_spec became.sane behind (became.spares.volume ▸ enough)).imp ?_
      fun _ _ failed => became.diskError failed
    rintro ⟨⟩ after removed
    have outside : ∀ {cell}, cell ∉ clst :: back → cell ≠ pclst →
        after.links cell = fs.links cell := by
      intro cell notBehind different
      rw [removed.links]
      refine (if_neg notBehind).trans ?_
      rw [became.links, Function.update_of_ne different]
    refine ⟨removed.sane, became.spares.trans removed.spares, ?_, ?_, ?_⟩
    · refine linked.splice ?_ ?_
      · intro other member
        have distinct := (List.nodup_append.mp nodup).2.2 other member
        refine outside (fun again => ?_) (distinct pclst List.mem_cons_self)
        exact distinct other (List.mem_cons_of_mem _ again) rfl
      · change after.links pclst = .last
        rw [removed.links]
        refine (if_neg fun again => apart pclst again rfl).trans ?_
        rw [became.links, Function.update_self]
    · intro cell member
      rw [removed.links]
      exact if_pos member
    · intro cell absent
      rw [List.append_assoc, List.mem_append, List.mem_append, List.mem_singleton] at absent
      exact outside (fun behind => absent (.inr (.inr behind)))
        fun last => absent (.inr (.inl last))

/-! ## Looking for a free cluster -/

/-- On the way from `before` round to `scl`. -/
def Ahead (scl before clst : Nat) : Prop :=
  if before < scl then before < clst ∧ clst ≤ scl else before < clst ∨ clst ≤ scl

/-- A free cluster, or 0 where those in `looked` are all in use. -/
def Found (fs : FATFS) (looked : Nat → Prop) (ncl : Nat) : Prop :=
  (ncl = 0 ∧ ∀ clst, 2 ≤ clst → clst < fs.volume.n_fatent → looked clst → fs.links clst ≠ .free) ∨
    2 ≤ ncl ∧ ncl < fs.volume.n_fatent ∧ fs.links ncl = .free

/-- A cluster comes next, the one behind if there is one. -/
theorem nextCluster_spec (volume : Volume) {clst : Nat} (low : 1 ≤ clst)
    (inRange : clst < volume.n_fatent) :
    2 ≤ nextCluster volume clst ∧ nextCluster volume clst < volume.n_fatent ∧
      (nextCluster volume clst = clst + 1 ∨
        volume.n_fatent = clst + 1 ∧ nextCluster volume clst = 2) := by
  have entries := volume.entries_low
  rw [nextCluster]
  by_cases last : volume.n_fatent ≤ clst + 1
  · rw [if_pos last]
    omega
  · rw [if_neg last]
    omega

theorem links_of_entry {clst : Nat} (low : 2 ≤ clst) (inRange : clst < fs.volume.n_fatent) :
    fs.links clst = .free ↔ fs.table clst = 0 := by
  constructor
  · intro free
    by_contra occupied
    rw [links_cluster low inRange, Volume.link, if_neg occupied] at free
    by_cases next : fs.table clst < fs.volume.n_fatent
    · rw [if_pos next] at free
      cases free
    · rw [if_neg next] at free
      cases free
  · intro entry
    rw [links_cluster low inRange, entry, Volume.link_zero]

theorem Became.found {looked : Nat → Prop} {ncl : Nat} {middle : FATFS}
    (became : Became fs fs.links middle) (found : Found middle looked ncl) :
    Found fs looked ncl := by
  rwa [Found, became.links, became.spares.volume] at found

theorem scan_spec {scl : Nat} :
    ∀ {fuel before : Nat} {fs : FATFS}, Sane fs → 1 ≤ scl → scl < fs.volume.n_fatent →
      1 ≤ before → before < fs.volume.n_fatent →
      (if before < scl then scl - before else fs.volume.n_fatent - 1 - before + scl) ≤ fuel →
      Ends (scan scl fuel before) fs
        (fun ncl after => Found fs (Ahead scl before) ncl ∧ Became fs fs.links after)
        (DiskError fs) := by
  intro fuel
  induction fuel with
  | zero =>
      intro before fs _ low high _ _ enough
      split at enough <;> omega
  | succ fuel ih =>
      intro before fs sane low high lowBefore highBefore enough
      obtain ⟨lowNext, inRange, isNext⟩ := nextCluster_spec fs.volume lowBefore highBefore
      refine Ends.bind (Ends.of_ok rfl ?_)
      simp only
      generalize nextCluster fs.volume before = ncl at lowNext inRange isNext ⊢
      by_cases round : fs.volume.n_fatent ≤ before + 1 ∧ scl < ncl
      · rw [if_pos round]
        refine Ends.of_ok rfl ⟨.inl ⟨rfl, ?_⟩, Became.refl sane⟩
        intro clst lowClst highClst ahead
        rw [Ahead, if_neg (by omega)] at ahead
        omega
      · rw [if_neg round]
        refine Ends.bind ((get_fat_links sane lowNext inRange).imp ?_ fun _ _ failed => failed)
        rintro cs middle ⟨rfl, became, _⟩
        by_cases free : fs.table ncl = 0
        · rw [if_pos free]
          exact Ends.of_ok rfl
            ⟨.inr ⟨lowNext, inRange, (links_of_entry lowNext inRange).mpr free⟩, became⟩
        · have used : fs.links ncl ≠ .free := fun isFree =>
            free ((links_of_entry lowNext inRange).mp isFree)
          -- The way from `before` is the next cluster and the way from there.
          have way : ∀ clst, 2 ≤ clst → clst < fs.volume.n_fatent → Ahead scl before clst →
              clst = ncl ∨ ncl ≠ scl ∧ Ahead scl ncl clst := by
            intro clst lowClst highClst ahead
            unfold Ahead at ahead ⊢
            split at ahead <;> split <;> omega
          rw [if_neg free, if_neg (sane.valid lowNext inRange)]
          by_cases there : ncl = scl
          · rw [if_pos there]
            refine Ends.of_ok rfl ⟨.inl ⟨rfl, ?_⟩, became⟩
            intro clst lowClst highClst ahead
            rcases way clst lowClst highClst ahead with rfl | ⟨further, _⟩
            · exact used
            · exact absurd there further
          · rw [if_neg there]
            have volume := became.spares.volume
            have less : (if ncl < scl then scl - ncl
                else middle.volume.n_fatent - 1 - ncl + scl) ≤ fuel := by
              rw [volume]
              split at enough <;> split <;> omega
            refine (ih became.sane low (volume ▸ high) (by omega) (volume ▸ inRange) less).imp ?_
              fun _ _ failed => became.diskError failed
            rintro result after ⟨found, later⟩
            refine ⟨?_, ?_⟩
            · rcases became.found found with ⟨none, all⟩ | some
              · refine .inl ⟨none, ?_⟩
                intro clst lowClst highClst ahead
                rcases way clst lowClst highClst ahead with rfl | ⟨_, further⟩
                · exact used
                · exact all clst lowClst highClst further
              · exact .inr some
            · exact became.stay later

theorem Found.all {scl ncl : Nat} (found : Found fs (Ahead scl scl) ncl) :
    Found fs (fun _ => True) ncl := by
  rcases found with ⟨none, all⟩ | some
  · refine .inl ⟨none, ?_⟩
    intro clst low inRange _
    refine all clst low inRange ?_
    rw [Ahead, if_neg (Nat.lt_irrefl scl)]
    omega
  · exact .inr some

/-- The search comes to every cluster. -/
theorem scan_all (sane : Sane fs) {scl : Nat} (low : 1 ≤ scl) (high : scl < fs.volume.n_fatent) :
    Ends (scan scl fs.volume.n_fatent scl) fs
      (fun ncl after => Found fs (fun _ => True) ncl ∧ Became fs fs.links after)
      (DiskError fs) := by
  have enough : (if scl < scl then scl - scl else fs.volume.n_fatent - 1 - scl + scl) ≤
      fs.volume.n_fatent := by
    rw [if_neg (Nat.lt_irrefl scl)]
    omega
  refine (scan_spec sane low high low high enough).imp ?_ fun _ _ failed => failed
  rintro ncl after ⟨found, became⟩
  exact ⟨found.all, became⟩

theorem findFree_spec (sane : Sane fs) {clst scl : Nat} (low : 1 ≤ scl)
    (high : scl < fs.volume.n_fatent) :
    Ends (findFree clst scl) fs
      (fun ncl after => Found fs (fun _ => True) ncl ∧ Became fs fs.links after)
      (DiskError fs) := by
  refine Ends.bind (Ends.of_ok rfl ?_)
  by_cases stretched : scl = clst
  · rw [if_pos stretched]
    obtain ⟨lowNext, inRange, _⟩ := nextCluster_spec fs.volume low high
    simp only
    refine Ends.bind ((get_fat_links sane lowNext inRange).imp ?_ fun _ _ failed => failed)
    rintro cs middle ⟨rfl, became, same⟩
    rw [if_neg (sane.valid lowNext inRange)]
    by_cases free : fs.table (nextCluster fs.volume scl) = 0
    · rw [if_pos free]
      exact Ends.of_ok rfl
        ⟨.inr ⟨lowNext, inRange, (links_of_entry lowNext inRange).mpr free⟩, became⟩
    · rw [if_neg free]
      refine Ends.bind (Ends.of_ok rfl ?_)
      have volume := became.spares.volume
      have starts : ∀ {start}, start = (if 2 ≤ middle.last_clst ∧
          middle.last_clst < middle.volume.n_fatent then middle.last_clst else scl) →
          1 ≤ start ∧ start < middle.volume.n_fatent := by
        intro start isStart
        rw [volume] at isStart ⊢
        split at isStart <;> omega
      refine (scan_all became.sane (starts rfl).1 (starts rfl).2).imp ?_
        fun _ _ failed => became.diskError failed
      rintro result after ⟨found, later⟩
      exact ⟨became.found found, became.stay later⟩
  · rw [if_neg stretched]
    exact scan_all sane low high

/-! ## Stretching -/

/-- The links once `ncl` is the last cluster of the chain that ended in `clst`, if any did. -/
def appended (fs : FATFS) (clst ncl : Nat) : Nat → Link Nat :=
  if clst = 0 then Function.update fs.links ncl .last
  else Function.update (Function.update fs.links ncl .last) clst (.next ncl)

theorem appended_other {clst ncl cell : Nat} (notNew : cell ≠ ncl) (notLast : cell ≠ clst) :
    fs.appended clst ncl cell = fs.links cell := by
  rw [appended]
  split
  · rw [Function.update_of_ne notNew]
  · rw [Function.update_of_ne notLast, Function.update_of_ne notNew]

theorem appended_linked {cells : List Nat} (linked : Linked fs.links cells) {ncl : Nat}
    (free : fs.links ncl = .free) :
    Linked (fs.appended (cells.getLastD 0) ncl) (cells ++ [ncl]) := by
  rcases getLastD_cases cells with ⟨rfl, _⟩ | ⟨front, some⟩
  · change fs.appended 0 ncl ncl = .last
    rw [appended, if_pos rfl, Function.update_self]
  · generalize cells.getLastD 0 = clst at some ⊢
    subst some
    rw [List.append_assoc, List.singleton_append]
    have used := linked.not_free (List.mem_append_right front (List.mem_singleton_self clst))
    have low := (links_used used).1
    have apart : ncl ≠ clst := by
      rintro rfl
      exact used free
    refine linked.splice ?_ ⟨?_, ?_⟩
    · intro other member
      refine appended_other ?_ ?_
      · rintro rfl
        exact linked.not_free (List.mem_append_left _ member) free
      · exact (List.nodup_append.mp linked.nodup).2.2 other member clst
          (List.mem_singleton_self clst)
    · rw [appended, if_neg (by omega), Function.update_self]
    · change fs.appended clst ncl ncl = .last
      rw [appended, if_neg (by omega), Function.update_of_ne apart, Function.update_self]

/-- A chain that ends in `clst` is given a free cluster, or none as FSINFO or the table say that
there is none. -/
inductive Granted (before : FATFS) (clst : Nat) : Nat → FATFS → Prop
  | full {after : FATFS}
      (none : before.free_clst = 0 ∨
        ∀ other, 2 ≤ other → other < before.volume.n_fatent → before.links other ≠ .free)
      (became : Became before before.links after) : Granted before clst 0 after
  | taken {ncl : Nat} {after : FATFS} (low : 2 ≤ ncl) (free : before.links ncl = .free)
      (became : Became before (before.appended clst ncl) after) : Granted before clst ncl after

theorem countTaken_spec (sane : Sane fs) (ncl : Nat) {raises : FRESULT → FATFS → Prop} :
    Ends (countTaken ncl) fs (fun _ after => Became fs fs.links after) raises :=
  Ends.of_ok rfl (Became.recount sane _ _)

theorem allocate_spec (sane : Sane fs) {clst scl : Nat} (low : 1 ≤ scl)
    (high : scl < fs.volume.n_fatent) (previous : clst = 0 ∨ fs.links clst = .last) :
    Ends (allocate clst scl) fs (Granted fs clst) (DiskError fs) := by
  refine Ends.bind (Ends.of_ok rfl ?_)
  by_cases full : fs.free_clst = 0
  · rw [if_pos full]
    exact Ends.of_ok rfl (.full (.inl full) (Became.refl sane))
  · rw [if_neg full]
    refine Ends.bind ((findFree_spec sane low high).imp ?_ fun _ _ failed => failed)
    rintro ncl middle ⟨⟨rfl, all⟩ | ⟨lowNew, inRange, free⟩, became⟩
    · rw [if_pos rfl]
      exact Ends.of_ok rfl
        (.full (.inr fun other low inRange => all other low inRange trivial) became)
    · rw [if_neg (by omega)]
      have volume := became.spares.volume
      refine Ends.bind ((put_fat_eoc became.sane lowNew (volume ▸ inRange)).imp ?_
        fun _ _ failed => became.diskError failed)
      rintro ⟨⟩ marked new
      rw [became.links] at new
      have soFar := became.trans new
      by_cases first : clst = 0
      · rw [if_pos first]
        refine Ends.bind ((countTaken_spec soFar.sane ncl).imp ?_ fun _ _ failed => failed)
        rintro ⟨⟩ after counted
        refine Ends.of_ok rfl (.taken lowNew free ?_)
        rw [appended, if_pos first, ← soFar.links]
        exact soFar.trans counted
      · rw [if_neg first]
        have last := previous.resolve_left first
        obtain ⟨lowLast, inRangeLast, _⟩ := @links_used fs clst (by simp [last])
        refine Ends.bind ((put_fat_next soFar.sane lowLast (soFar.spares.volume ▸ inRangeLast)
          lowNew (soFar.spares.volume ▸ inRange)).imp ?_ fun _ _ failed => soFar.diskError failed)
        rintro ⟨⟩ linked link
        rw [soFar.links] at link
        have all := soFar.trans link
        refine Ends.bind ((countTaken_spec all.sane ncl).imp ?_
          fun _ _ failed => all.diskError failed)
        rintro ⟨⟩ after counted
        refine Ends.of_ok rfl (.taken lowNew free ?_)
        rw [appended, if_neg first, ← all.links]
        exact all.trans counted

theorem create_chain_spec (sane : Sane fs) {clst : Nat}
    (previous : clst = 0 ∨ fs.links clst = .last) :
    Ends (create_chain clst) fs (Granted fs clst) (DiskError fs) := by
  have entries := fs.volume.entries_low
  refine Ends.bind (Ends.of_ok rfl ?_)
  rcases previous with rfl | last
  · rw [if_pos rfl]
    exact allocate_spec sane (by split <;> omega) (by split <;> omega) (.inl rfl)
  · obtain ⟨low, inRange, _⟩ := @links_used fs clst (by simp [last])
    have outside := fs.volume.link_last ((links_cluster low inRange).symm.trans last)
    rw [if_neg (by omega)]
    refine Ends.bind ((get_fat_links sane low inRange).imp ?_ fun _ _ failed => failed)
    rintro cs middle ⟨rfl, became, same⟩
    rw [if_neg (by omega), if_neg (by omega)]
    have volume := became.spares.volume
    have lastNow : middle.links clst = .last := by rwa [became.links]
    refine (allocate_spec became.sane (by omega) (volume ▸ inRange) (.inr lastNow)).imp ?_
      fun _ _ failed => became.diskError failed
    rintro ncl after granted
    cases granted with
    | full none later =>
        rw [same.free_clst, volume, became.links] at none
        exact .full none (became.stay later)
    | taken lowNew free later =>
        rw [became.links] at free
        refine .taken lowNew free ?_
        rw [appended, ← became.links]
        exact became.trans later

/-- A cluster in the middle of a chain has its next one. -/
theorem create_chain_next (sane : Sane fs) {clst next : Nat} (linked : fs.links clst = .next next) :
    Ends (create_chain clst) fs (fun ncl after => ncl = next ∧ Became fs fs.links after)
      (DiskError fs) := by
  obtain ⟨low, inRange, occupied⟩ := @links_used fs clst (by simp [linked])
  obtain ⟨rfl, inRangeNext⟩ := fs.volume.link_next
    ((links_cluster low inRange).symm.trans linked)
  have valid := sane.valid low inRange
  refine Ends.bind (Ends.of_ok rfl ?_)
  rw [if_neg (by omega)]
  refine Ends.bind ((get_fat_links sane low inRange).imp ?_ fun _ _ failed => failed)
  rintro cs middle ⟨rfl, became, _⟩
  rw [if_neg (by omega), if_pos inRangeNext]
  exact Ends.of_ok rfl ⟨rfl, became⟩

end FATFS

/-! ## Files -/

/-- A volume and the chains that its files have. -/
structure Files (ι : Type) where
  fs : FATFS
  chain : ι → List Nat

inductive ChainCall (ι : Type) where
  | advance (owner : ι) (passed : Nat)
  | cut (owner : ι) (keep : Nat)

namespace Files

open FATFS

variable {ι : Type} {files : Files ι}

/-- Each file has its chain, and no cluster is in two of them. -/
structure Sound (files : Files ι) : Prop where
  sane : Sane files.fs
  allocated : Allocated files.fs.links files.chain

/-- The chains of sound files end. -/
theorem Sound.last (sound : Sound files) (owner : ι) :
    (files.chain owner).getLastD 0 = 0 ∨
      files.fs.links ((files.chain owner).getLastD 0) = .last := by
  have linked := sound.allocated.linked owner
  rcases getLastD_cases (files.chain owner) with ⟨_, none⟩ | ⟨front, some⟩
  · exact .inl none
  · rw [some] at linked
    exact .inr linked.last

theorem Sound.next (sound : Sound files) {owner : ι} {passed : Nat} (pos : 0 < passed)
    (inside : passed < (files.chain owner).length) :
    files.fs.links (((files.chain owner).take passed).getLastD 0) =
      .next (files.chain owner)[passed] := by
  rcases getLastD_cases ((files.chain owner).take passed) with ⟨empty, _⟩ | ⟨front, some⟩
  · have length := congrArg List.length empty
    rw [List.length_take, List.length_nil] at length
    omega
  · have whole : files.chain owner =
        front ++ ((files.chain owner).take passed).getLastD 0 ::
          (files.chain owner)[passed] :: (files.chain owner).drop (passed + 1) := by
      rw [List.append_cons, ← some, ← List.drop_eq_getElem_cons inside, List.take_append_drop]
    have linked := sound.allocated.linked owner
    rw [whole] at linked
    exact linked.next

/-- The clusters that a file goes by once `ncl` comes behind the first `passed`, if it is one. -/
def told (cells : List Nat) (passed ncl : Nat) : List Nat :=
  if ncl = 0 then cells else cells.take passed ++ ncl :: cells.drop (passed + 1)

variable [DecidableEq ι]

def give (files : Files ι) (owner : ι) (cells : List Nat) (fs : FATFS) : Files ι where
  fs := fs
  chain := Function.update files.chain owner cells

/-- One call by a file, on a cluster that it has come to or on the first that it gives up;
none if the volume reports an error. -/
def step (files : Files ι) : ChainCall ι → Option (Files ι)
  | .advance owner passed =>
      -- The first cluster is in the directory entry.
      if passed = 0 ∧ files.chain owner ≠ [] then some files
      else
        match create_chain (((files.chain owner).take passed).getLastD 0) files.fs with
        | (.ok ncl, fs) => some (files.give owner (told (files.chain owner) passed ncl) fs)
        | (.error _, _) => none
  | .cut owner keep =>
      match (files.chain owner).drop keep with
      | [] => some files
      | clst :: _ =>
          match remove_chain clst (((files.chain owner).take keep).getLastD 0) files.fs with
          | (.ok _, fs) => some (files.give owner ((files.chain owner).take keep) fs)
          | (.error _, _) => none

theorem Sound.unchanged (sound : Sound files) (owner : ι) {after : FATFS}
    (became : Became files.fs files.fs.links after) :
    Sound (files.give owner (files.chain owner) after) := by
  refine ⟨became.sane, ?_⟩
  rw [give, Function.update_eq_self]
  exact sound.allocated.congr fun _ _ _ => congrFun became.links _

theorem Sound.stretched (sound : Sound files) {owner : ι} {ncl : Nat} {after : FATFS}
    (granted : Granted files.fs ((files.chain owner).getLastD 0) ncl after) :
    Sound (files.give owner
      (if ncl = 0 then files.chain owner else files.chain owner ++ [ncl]) after) ∧
      Spares files.fs after := by
  cases granted with
  | full none became =>
      rw [if_pos rfl]
      exact ⟨sound.unchanged owner became, became.spares⟩
  | taken low free became =>
      refine ⟨⟨became.sane, ?_⟩, became.spares⟩
      rw [if_neg (by omega)]
      have linked := sound.allocated.linked
      have result := appended_linked (linked owner) free
      rw [← became.links] at result
      refine sound.allocated.update result ?_ ?_
      · intro cell member
        rcases List.mem_append.mp member with own | new
        · exact .inl own
        · rw [List.mem_singleton.mp new]
          exact .inr free
      · intro other different cell member
        change after.links cell = files.fs.links cell
        rw [became.links]
        refine appended_other ?_ ?_
        · rintro rfl
          exact (linked other).not_free member free
        · rintro rfl
          -- The last cluster of the chain is its owner's.
          have occupied := (links_used ((linked other).not_free member)).1
          rcases getLastD_cases (files.chain owner) with ⟨_, none⟩ | ⟨front, some⟩
          · omega
          · have own := List.mem_append_right front
              (List.mem_singleton_self ((files.chain owner).getLastD 0))
            rw [← some] at own
            exact different (sound.allocated.disjoint member own)

theorem Sound.advanced (sound : Sound files) {owner : ι} {passed : Nat}
    (unknown : ¬(passed = 0 ∧ files.chain owner ≠ [])) :
    Ends (create_chain (((files.chain owner).take passed).getLastD 0)) files.fs
      (fun ncl after => Sound (files.give owner (told (files.chain owner) passed ncl) after) ∧
        Spares files.fs after)
      (DiskError files.fs) := by
  by_cases inside : passed < (files.chain owner).length
  · have pos : 0 < passed := by
      rcases Nat.eq_zero_or_pos passed with rfl | pos
      · exact absurd ⟨rfl, List.ne_nil_of_length_pos inside⟩ unknown
      · exact pos
    refine (create_chain_next sound.sane (sound.next pos inside)).imp ?_ fun _ _ failed => failed
    rintro ncl after ⟨rfl, became⟩
    have used := (links_used
      ((sound.allocated.linked owner).not_free (List.getElem_mem inside))).1
    have same : told (files.chain owner) passed (files.chain owner)[passed] =
        files.chain owner := by
      rw [told, if_neg (by omega), ← List.drop_eq_getElem_cons inside, List.take_append_drop]
    rw [same]
    exact ⟨sound.unchanged owner became, became.spares⟩
  · have whole : (files.chain owner).take passed = files.chain owner :=
      List.take_of_length_le (by omega)
    rw [whole]
    refine (create_chain_spec sound.sane (sound.last owner)).imp ?_ fun _ _ failed => failed
    intro ncl after granted
    have longer : told (files.chain owner) passed ncl =
        if ncl = 0 then files.chain owner else files.chain owner ++ [ncl] := by
      rw [told, whole, List.drop_of_length_le (by omega)]
    rw [longer]
    exact sound.stretched granted

theorem Sound.cut (sound : Sound files) {owner : ι} {front back : List Nat} {after : FATFS}
    (whole : files.chain owner = front ++ back) (cutOff : CutOff files.fs front back after) :
    Sound (files.give owner front after) := by
  refine ⟨cutOff.sane, sound.allocated.update cutOff.kept ?_ ?_⟩
  · intro cell member
    rw [whole]
    exact .inl (List.mem_append_left back member)
  · intro other different cell member
    refine cutOff.others ?_
    intro own
    rw [← whole] at own
    exact different (sound.allocated.disjoint member own)

/-- A call keeps the files sound, unless the drive fails. -/
theorem Sound.step (sound : Sound files) (call : ChainCall ι) :
    (∃ next, files.step call = some next ∧ Sound next ∧ Spares files.fs next.fs) ∨
      files.step call = none ∧ ¬files.fs.drive.Steady := by
  cases call with
  | advance owner passed =>
      by_cases known : passed = 0 ∧ files.chain owner ≠ []
      · refine .inl ⟨files, ?_, sound, Spares.refl files.fs⟩
        simp only [Files.step, if_pos known]
      · have ends := sound.advanced known
        cases ran : create_chain (((files.chain owner).take passed).getLastD 0) files.fs with
        | mk outcome after =>
            cases outcome with
            | ok ncl =>
                obtain ⟨next, spares⟩ := ends.ok ran
                refine .inl ⟨_, ?_, next, spares⟩
                simp only [Files.step, if_neg known, ran]
            | error e =>
                refine .inr ⟨?_, (ends.error ran).2.1.not_steady⟩
                simp only [Files.step, if_neg known, ran]
  | cut owner keep =>
      cases rest : (files.chain owner).drop keep with
      | nil =>
          refine .inl ⟨files, ?_, sound, Spares.refl files.fs⟩
          simp only [Files.step, rest]
      | cons clst back =>
          have whole : files.chain owner = (files.chain owner).take keep ++ clst :: back := by
            rw [← rest, List.take_append_drop]
          have linked := sound.allocated.linked owner
          rw [whole] at linked
          have ends := remove_chain_spec sound.sane linked
          cases ran : remove_chain clst (((files.chain owner).take keep).getLastD 0) files.fs with
          | mk outcome after =>
              cases outcome with
              | ok =>
                  have cutOff := ends.ok ran
                  refine .inl ⟨_, ?_, sound.cut whole cutOff, cutOff.spares⟩
                  simp only [Files.step, rest, ran]
              | error e =>
                  refine .inr ⟨?_, (ends.error ran).2.1.not_steady⟩
                  simp only [Files.step, rest, ran]

/-- However files grow and shrink: their chains end, no cluster is in two of them, nothing
outside the FATs changes, and a second FAT stays a copy of the first if no access fails.  An error
is reported only if the drive fails. -/
theorem run_allocated (sound : Sound files) (calls : List (ChainCall ι)) :
    (∀ final, run step files calls = some final →
      Sound final ∧ Spares files.fs final.fs) ∧
      (files.fs.drive.Steady → ∃ final, run step files calls = some final) := by
  induction calls generalizing files with
  | nil =>
      refine ⟨?_, fun _ => ⟨files, rfl⟩⟩
      intro final ran
      cases ran
      exact ⟨sound, Spares.refl files.fs⟩
  | cons call calls ih =>
      rw [run]
      rcases sound.step call with ⟨next, stepped, soundNext, spares⟩ | ⟨stopped, unsteady⟩
      · rw [stepped, Option.bind_some]
        obtain ⟨keeps, goesOn⟩ := ih soundNext
        refine ⟨?_, fun steady => goesOn (spares.since.steady steady)⟩
        intro final ran
        obtain ⟨soundFinal, later⟩ := keeps final ran
        exact ⟨soundFinal, spares.trans later⟩
      · rw [stopped, Option.bind_none]
        refine ⟨?_, fun steady => absurd steady unsteady⟩
        intro final ran
        cases ran

/-! ## A new volume -/

def blank : Sector where
  bytes := List.replicate SECTOR_SIZE 0
  size := List.length_replicate

/-- Eight clusters, all of them free. -/
def newVolume : Files Bool where
  fs :=
    { volume :=
        { fs_type := .FS_FAT12, n_fats := 2, csize := 1, n_fatent := 10, fsize := 1, fatbase := 1,
          fats := .inr rfl, csize_pos := Nat.one_pos, entries_low := by decide,
          entries_high := by decide, fits := by decide }
      drive := { sectors := fun _ => blank, fails := fun _ => false }
      win := blank
      winsect := none
      wflag := false
      last_clst := 0
      free_clst := 8 }
  chain := fun _ => []

theorem blank_get (offset : Nat) : blank.get offset = 0 := by
  rw [Sector.get, blank, List.getD_eq_getElem?_getD, List.getElem?_replicate]
  split <;> rfl

theorem newVolume_sound : Sound newVolume := by
  refine ⟨⟨⟨?_, ?_, ?_⟩, ?_⟩, ⟨fun _ => trivial, ?_⟩⟩
  · rintro sect ⟨⟩
  · rintro ⟨⟩
  · rintro sect ⟨⟩
  · intro clst _ _
    have bytes : newVolume.fs.fatByte = fun _ => 0 := funext fun offset => blank_get _
    rw [FATFS.table, bytes]
    change FatType.entry _ _ _ ≠ 1
    simp [FatType.entry, newVolume]
  · intro one other cell member
    cases member

theorem run_allocated_newVolume :
    ∃ final,
      run step newVolume [.advance true 0, .advance false 0, .advance true 1, .cut true 1] =
        some final ∧ Sound final ∧ Spares newVolume.fs final.fs := by
  obtain ⟨keeps, goesOn⟩ := run_allocated newVolume_sound
    [.advance true 0, .advance false 0, .advance true 1, .cut true 1]
  obtain ⟨final, ran⟩ := goesOn fun _ => rfl
  exact ⟨final, ran, keeps final ran⟩

end Files

end Conclave.Filesystem
