import ConclaveFormal.Filesystem.Descriptors
import ConclaveFormal.Lib.PathResolution

/-!
# Which file system a path goes to

With the in-memory file system at `/tmp/`, a path is sent there by the text it begins with.  FatFs
resolves repeated slashes and dots in it only afterwards, so that the text may say otherwise than
where the path leads.
-/

set_option autoImplicit false

namespace Conclave.Filesystem.PathRouting

open Conclave.Lib

/-! ## Where a path leads -/

def moveOf (piece : List Char) : Move (List Char) :=
  if piece = [] ∨ piece = ['.'] then .stay
  else if piece = ['.', '.'] then .up
  else .down piece

/-- The moves of an absolute path, whose first character is a slash. -/
def movesOf (path : String) : List (Move (List Char)) :=
  (pieces '/' path.toList.tail).map moveOf

def IsAbsolute (path : String) : Prop := path.toList.head? = some '/'

instance (path : String) : Decidable (IsAbsolute path) :=
  inferInstanceAs (Decidable (_ = _))

/-- The directory a path leads to, the innermost name first. -/
def resolve (path : String) : List (List Char) := walk [] (movesOf path)

def tmp : List Char := ['t', 'm', 'p']

/-- Resolved, the path is `/tmp` or lies below it. -/
def LeadsToTmp (path : String) : Prop := (resolve path).getLast? = some tmp

instance (path : String) : Decidable (LeadsToTmp path) :=
  inferInstanceAs (Decidable (_ = _))

/-! ## The two file systems -/

/-- The persistent file system is at the root and the in-memory one at `/tmp/`. -/
structure Mounted (state : Descriptors) (persistent inMemory : FileManager) : Prop where
  filesystems : state.filesystems = [persistent, inMemory]
  persistent_path : persistent.mount_path_ = "/"
  inMemory_path : inMemory.mount_path_ = "/tmp/"

/-- The path reaches the in-memory file system exactly if it leads below `/tmp`, and otherwise the
persistent one. -/
def RoutedByMeaning (state : Descriptors) (persistent inMemory : FileManager) (path : String) :
    Prop :=
  state.getFatFsInstanceFromPath (some path) =
    some (if LeadsToTmp path then (inMemory, 1) else (persistent, 0))

/-- The path goes down into `/tmp` for good, but not by its first piece: what stands before the
piece `tmp` only comes back to the root, by pieces that stay there or climb, or by directories that
it leaves again. -/
def ComesByDetour (path : String) : Prop :=
  ∃ first before after, movesOf path = first :: before ++ .down tmp :: after ∧
    first ≠ .down tmp ∧ depthAfter 0 (first :: before) = 0 ∧ StaysBelow 1 after

/-- The first piece is `tmp`, but later ones climb back to the root, and from there the path stays
or goes down by another name. -/
def ClimbsOut (path : String) : Prop :=
  ∃ before after, movesOf path = .down tmp :: before ++ after ∧ depthAfter 1 before = 0 ∧
    (depthAfter 0 after = 0 ∨ ∃ name, name ≠ tmp ∧ GoesDownBy name after)

/-- A path without the two. -/
def GoesStraight (path : String) : Prop := ¬ComesByDetour path ∧ ¬ClimbsOut path

variable {state : Descriptors} {persistent inMemory : FileManager} {path : String}

theorem moveOf_eq_down_tmp_iff {piece : List Char} : moveOf piece = .down tmp ↔ piece = tmp := by
  unfold moveOf
  split_ifs with stays climbs
  · refine iff_of_false (by simp) ?_
    rintro rfl
    revert stays
    decide
  · refine iff_of_false (by simp) ?_
    rintro rfl
    revert climbs
    decide
  · exact ⟨Move.down.inj, congrArg Move.down⟩

theorem head?_movesOf_iff : (movesOf path).head? = some (.down tmp) ↔
    tmp ++ ['/'] <+: path.toList.tail ∨ path.toList.tail = tmp := by
  have first : (movesOf path).head? = some (moveOf (piecesFrom '/' path.toList.tail).1) := rfl
  rw [first, Option.some.injEq, moveOf_eq_down_tmp_iff]
  exact firstPiece_eq_iff (by decide)

theorem IsAbsolute.toList_eq (absolute : IsAbsolute path) :
    path.toList = '/' :: path.toList.tail := by
  cases text : path.toList with
  | nil =>
      rw [IsAbsolute, text] at absolute
      cases absolute
  | cons first rest =>
      rw [IsAbsolute, text] at absolute
      cases absolute
      rfl

theorem isPathOwner_inMemory (absolute : IsAbsolute path)
    (mount : inMemory.mount_path_ = "/tmp/") :
    Descriptors.isPathOwner path inMemory = true ↔
      (movesOf path).head? = some (.down tmp) := by
  have text := absolute.toList_eq
  have nonempty : 0 < path.length := by
    rw [← String.length_toList, text]
    exact Nat.succ_pos _
  have mountText : "/tmp/".toList = '/' :: (tmp ++ ['/']) := rfl
  rw [head?_movesOf_iff, Descriptors.isPathOwner, decide_eq_true_iff, and_iff_right nonempty, mount,
    mountText, text]
  simp [tmp]

theorem isPathOwner_persistent (absolute : IsAbsolute path)
    (mount : persistent.mount_path_ = "/") :
    Descriptors.isPathOwner path persistent = true := by
  have text := absolute.toList_eq
  have nonempty : 0 < path.length := by
    rw [← String.length_toList, text]
    exact Nat.succ_pos _
  have mountText : "/".toList = ['/'] := rfl
  rw [Descriptors.isPathOwner, decide_eq_true_iff, and_iff_right nonempty, mount, mountText, text]
  exact Or.inl (List.prefix_append ['/'] _)

/-- The text alone decides. -/
theorem getFatFsInstanceFromPath_eq (mounted : Mounted state persistent inMemory)
    (absolute : IsAbsolute path) :
    state.getFatFsInstanceFromPath (some path) =
      some (if (movesOf path).head? = some (.down tmp) then (inMemory, 1)
        else (persistent, 0)) := by
  have text := absolute.toList_eq
  have nonempty : path ≠ "" := by
    rintro rfl
    cases text
  have normal : Descriptors.normalizePath path = path := by
    rw [Descriptors.normalizePath, if_neg]
    rw [IsAbsolute] at absolute
    simp [absolute]
  have atRoot := isPathOwner_persistent absolute mounted.persistent_path
  have atTmp := isPathOwner_inMemory absolute mounted.inMemory_path
  rw [Descriptors.getFatFsInstanceFromPath]
  simp only [nonempty, if_false, normal, mounted.filesystems]
  by_cases below : (movesOf path).head? = some (.down tmp)
  · have owner := atTmp.mpr below
    simp [List.zipIdx, atRoot, owner, below, mounted.persistent_path, mounted.inMemory_path]
  · have foreign : Descriptors.isPathOwner path inMemory = false := by
      rw [← Bool.not_eq_true]
      exact fun owner => below (atTmp.mp owner)
    simp [List.zipIdx, atRoot, foreign, below]

theorem comesByDetour_iff :
    ComesByDetour path ↔
      (movesOf path).head? ≠ some (.down tmp) ∧ GoesDownBy tmp (movesOf path) := by
  constructor
  · rintro ⟨first, before, after, moves, other, atRoot, below⟩
    refine ⟨?_, first :: before, after, moves, atRoot, below⟩
    rw [moves]
    exact fun begins => other (Option.some.inj begins)
  · rintro ⟨other, before, after, moves, atRoot, below⟩
    cases before with
    | nil =>
        rw [moves] at other
        exact absurd rfl other
    | cons first before =>
        refine ⟨first, before, after, moves, ?_, atRoot, below⟩
        rintro rfl
        rw [moves] at other
        exact other rfl

theorem climbsOut_iff :
    ClimbsOut path ↔ (movesOf path).head? = some (.down tmp) ∧ ¬GoesDownBy tmp (movesOf path) := by
  constructor
  · rintro ⟨before, after, moves, atRoot, ends⟩
    refine ⟨by rw [moves]; rfl, ?_⟩
    have restart : walk [] (movesOf path) = walk [] after := by
      rw [moves]
      exact walk_append_of_depthAfter_eq_zero atRoot
    rw [← getLast?_walk_eq_some_iff, restart]
    rcases ends with root | ⟨name, other, down⟩
    · rw [walk_eq_nil_iff.mpr root]
      simp
    · rw [getLast?_walk_eq_some_iff.mpr down]
      exact fun same => other (Option.some.inj same)
  · rintro ⟨begins, elsewhere⟩
    obtain ⟨rest, moves⟩ := List.head?_eq_some_iff.mp begins
    -- Were it never back at the root, it would have gone down by its first piece.
    have back : ¬StaysBelow 1 rest := fun below => elsewhere ⟨[], rest, moves, rfl, below⟩
    obtain ⟨before, ⟨after, rfl⟩, atRoot⟩ :
        ∃ before, before <+: rest ∧ depthAfter 1 before = 0 := by
      simpa [StaysBelow] using back
    refine ⟨before, after, moves, atRoot, ?_⟩
    have restart : walk [] (movesOf path) = walk [] after := by
      rw [moves]
      exact @walk_append_of_depthAfter_eq_zero _ (.down tmp :: before) after atRoot
    cases last : (walk [] after).getLast? with
    | none => exact Or.inl (walk_eq_nil_iff.mp (List.getLast?_eq_none_iff.mp last))
    | some name =>
        refine Or.inr ⟨name, ?_, getLast?_walk_eq_some_iff.mp last⟩
        rintro rfl
        rw [← restart] at last
        exact elsewhere (getLast?_walk_eq_some_iff.mp last)

theorem routedByMeaning_iff (mounted : Mounted state persistent inMemory)
    (absolute : IsAbsolute path) :
    RoutedByMeaning state persistent inMemory path ↔ GoesStraight path := by
  have leads : LeadsToTmp path ↔ GoesDownBy tmp (movesOf path) := getLast?_walk_eq_some_iff
  rw [RoutedByMeaning, getFatFsInstanceFromPath_eq mounted absolute, GoesStraight,
    comesByDetour_iff, climbsOut_iff, ← leads]
  by_cases begins : (movesOf path).head? = some (.down tmp)
  · by_cases below : LeadsToTmp path
    · simp [begins, below]
    · simp [begins, below]
  · by_cases below : LeadsToTmp path
    · simp [begins, below]
    · simp [begins, below]

/-- A path goes to the file system that it leads to exactly if it neither comes to `/tmp` by a
detour nor climbs out of it.  Two spellings of one path that both go straight are sent to the same
file system. -/
theorem routed_iff (mounted : Mounted state persistent inMemory) :
    (∀ path, IsAbsolute path →
      (RoutedByMeaning state persistent inMemory path ↔ ¬ComesByDetour path ∧ ¬ClimbsOut path)) ∧
    ∀ first second, IsAbsolute first → IsAbsolute second → resolve first = resolve second →
      GoesStraight first → GoesStraight second →
        state.getFatFsInstanceFromPath (some first) =
          state.getFatFsInstanceFromPath (some second) := by
  refine ⟨fun path absolute => routedByMeaning_iff mounted absolute, ?_⟩
  intro first second firstAbsolute secondAbsolute same firstStraight secondStraight
  have firstRouted := (routedByMeaning_iff mounted firstAbsolute).mpr firstStraight
  have secondRouted := (routedByMeaning_iff mounted secondAbsolute).mpr secondStraight
  rw [RoutedByMeaning] at firstRouted secondRouted
  have meaning : LeadsToTmp first ↔ LeadsToTmp second := by
    rw [LeadsToTmp, LeadsToTmp, same]
  rw [firstRouted, secondRouted]
  simp only [meaning]

def persistentAtRoot : FileManager :=
  .new ⟨100000, 599999, by decide⟩ 0 "/"

def inMemoryAtTmp : FileManager :=
  .new ⟨600000, 1099999, by decide⟩ 1 "/tmp/"

def bothMounted : Descriptors :=
  { Descriptors.new with filesystems := [persistentAtRoot, inMemoryAtTmp] }

theorem routed_plainPath :
    RoutedByMeaning bothMounted persistentAtRoot inMemoryAtTmp "/tmp//a" ∧
      bothMounted.getFatFsInstanceFromPath (some "/tmp//a") =
        bothMounted.getFatFsInstanceFromPath (some "/tmp/./a") := by
  have mounted : Mounted bothMounted persistentAtRoot inMemoryAtTmp := ⟨rfl, rfl, rfl⟩
  have first : GoesStraight "/tmp//a" := by
    rw [GoesStraight, comesByDetour_iff, climbsOut_iff, ← getLast?_walk_eq_some_iff]
    decide
  have second : GoesStraight "/tmp/./a" := by
    rw [GoesStraight, comesByDetour_iff, climbsOut_iff, ← getLast?_walk_eq_some_iff]
    decide
  refine ⟨((routed_iff mounted).1 _ (by decide)).mpr first, ?_⟩
  exact (routed_iff mounted).2 _ _ (by decide) (by decide) (by decide) first second

/-- The file is below `/tmp`, and is kept on the disk of the host. -/
theorem secret_on_disk :
    ¬∀ (state : Descriptors) (persistent inMemory : FileManager) (path : String),
      Mounted state persistent inMemory → IsAbsolute path →
        RoutedByMeaning state persistent inMemory path := by
  intro stated
  have mounted : Mounted bothMounted persistentAtRoot inMemoryAtTmp := ⟨rfl, rfl, rfl⟩
  have absolute : IsAbsolute "/data/../tmp/secret" := by decide
  have routed := stated bothMounted persistentAtRoot inMemoryAtTmp _ mounted absolute
  have below : LeadsToTmp "/data/../tmp/secret" := by decide
  have elsewhere : (movesOf "/data/../tmp/secret").head? ≠ some (.down tmp) := by decide
  rw [RoutedByMeaning, getFatFsInstanceFromPath_eq mounted absolute, if_neg elsewhere,
    if_pos below] at routed
  have index := congrArg Prod.snd (Option.some.inj routed)
  cases index

end Conclave.Filesystem.PathRouting
