import ConclaveFormal.Filesystem.Descriptors

/-!
# The ranges of the handles

Every file system is given the range behind those of the file systems before it, so that a handle
belongs to one file system only, and a call on an open handle finds the one that has opened it.
-/

set_option autoImplicit false

namespace Conclave.Filesystem.Descriptors

open Conclave.Lib

variable {state : Descriptors}

def ranges (state : Descriptors) : List HandleRange := state.filesystems.map (·.range)

def Ascending (state : Descriptors) : Prop :=
  state.ranges.Pairwise fun first later => first.last_handle_ < later.first_handle_

/-! ## Creating a file system -/

theorem Ascending.mount (ascending : state.Ascending) (sound : Sound state) (drive : Nat)
    (mount_path : String) (initResult : FatFsResult) (fsType : String) :
    (state.mount drive mount_path initResult fsType).2.Ascending := by
  rw [Ascending, ranges, mount_filesystems]
  split_ifs
  · rw [List.map_append, List.pairwise_append]
    refine ⟨ascending, List.pairwise_singleton _ _, ?_⟩
    intro first firstMember later laterMember
    obtain ⟨manager, member, rfl⟩ := List.mem_map.mp firstMember
    rw [List.mem_map] at laterMember
    obtain ⟨created, same, rfl⟩ := laterMember
    rw [List.mem_singleton.mp same]
    exact sound.below manager member
  · exact ascending

/-! ## Opening and closing -/

theorem ranges_set {manager after : FileManager} {index : Nat}
    (located : state.filesystems[index]? = some manager) (range : after.range = manager.range) :
    (state.filesystems.set index after).map (·.range) = state.ranges := by
  obtain ⟨bound, same⟩ := List.getElem?_eq_some_iff.mp located
  have bound' : index < state.ranges.length := by
    rw [ranges, List.length_map]
    exact bound
  have here : state.ranges[index] = manager.range := by
    simp only [ranges, List.getElem_map, same]
  rw [List.map_set, range, ← here]
  exact List.set_getElem_self bound'

theorem Managed.ranges {after : Descriptors} (managed : Managed state after) :
    after.ranges = state.ranges := by
  cases managed with
  | unchanged => rfl
  | managed located change => exact ranges_set located change.range

theorem ranges_close_impl (sound : Sound state) (fd : Int) (res : FRESULT) :
    (state.close_impl fd res).2.ranges = state.ranges := by
  by_cases dummy : fd ≥ state.currentFirstAvailableHandle
  · rw [close_impl, if_pos dummy]
    rfl
  · exact (sound.managed_close_impl res dummy).ranges

/-! ## Runs -/

theorem Ascending.new : Descriptors.new.Ascending := List.Pairwise.nil

theorem Ascending.next (ascending : state.Ascending) (sound : Sound state) {call : PosixCall}
    (allowed : Allowed state call) : (state.next call).Ascending := by
  cases call with
  | setupFileSystems setup =>
      have both := @setupFileSystems_preserves state
        (fun state => Sound state ∧ state.Ascending)
        (fun holds drive mount_path initResult fsType =>
          ⟨holds.1.mount drive mount_path initResult fsType,
            holds.2.mount holds.1 drive mount_path initResult fsType⟩)
        ⟨sound, ascending⟩ setup
      exact both.2
  | socketpair_impl => exact ascending
  | open_impl path oflag answers =>
      rw [Ascending, Descriptors.next, (sound.managed_open_impl allowed).ranges]
      exact ascending
  | close_impl fd res =>
      rw [Ascending, Descriptors.next, ranges_close_impl sound fd res]
      exact ascending

/-! ## Open handles -/

def IsOpen (state : Descriptors) (fd : Int) : Prop :=
  ∃ manager ∈ state.filesystems, (manager.files_.lookup fd).isSome

theorem eq_of_isHandleOwner (ascending : state.Ascending) {first second : FileManager}
    (firstMember : first ∈ state.filesystems) (secondMember : second ∈ state.filesystems)
    {fd : Int} (firstOwns : first.isHandleOwner fd) (secondOwns : second.isHandleOwner fd) :
    first = second := by
  have below := List.pairwise_iff_getElem.mp (List.pairwise_map.mp ascending)
  simp only [FileManager.isHandleOwner, decide_eq_true_eq] at firstOwns secondOwns
  obtain ⟨index, bound, rfl⟩ := List.getElem_of_mem firstMember
  obtain ⟨other, otherBound, rfl⟩ := List.getElem_of_mem secondMember
  rcases lt_trichotomy index other with earlier | same | later
  · have apart := below index other bound otherBound earlier
    omega
  · simp only [same]
  · have apart := below other index otherBound bound later
    omega

/-- A call on a handle in the range of a file system finds one. -/
theorem exists_getFatFsInstanceFromHandle {manager : FileManager}
    (member : manager ∈ state.filesystems) {fd : Int} (owner : manager.isHandleOwner fd) :
    ∃ found, state.getFatFsInstanceFromHandle fd = some found := by
  have valid : fd ≠ -1 := by
    simp only [FileManager.isHandleOwner, decide_eq_true_eq] at owner
    exact owner.1
  rw [getFatFsInstanceFromHandle, if_neg valid, ← Option.isSome_iff_exists, List.find?_isSome]
  obtain ⟨index, bound, same⟩ := List.getElem_of_mem member
  exact ⟨(manager, index),
    List.mem_zipIdx_iff_getElem?.mpr (List.getElem?_eq_some_iff.mpr ⟨bound, same⟩), owner⟩

/-- A call on an open handle finds the file system that has opened it. -/
theorem getFatFsInstanceFromHandle_of_open (sound : Sound state) (ascending : state.Ascending)
    {manager : FileManager} (member : manager ∈ state.filesystems) {fd : Int} {fil : FIL}
    (opened : manager.files_.lookup fd = some fil) :
    ∃ index, state.getFatFsInstanceFromHandle fd = some (manager, index) := by
  have owner : manager.isHandleOwner fd = true :=
    (isHandleOwner_iff (sound.above manager member) fd).mpr
      ((sound.consistent manager member).in_range fd fil opened)
  obtain ⟨⟨other, index⟩, located⟩ := exists_getFatFsInstanceFromHandle member owner
  obtain ⟨otherMember, otherOwns⟩ := of_getFatFsInstanceFromHandle located
  have same : other = manager :=
    eq_of_isHandleOwner ascending otherMember member otherOwns owner
  exact ⟨index, by rw [located, same]⟩

end Conclave.Filesystem.Descriptors
