import Mathlib.Data.List.Perm.Subperm

/-!
# Entries picked out of a list by their positions

Entries that carry distinct positions of a list are a sub-multiset of it.
-/

set_option autoImplicit false

namespace Conclave.Lib

variable {α : Type}

theorem filterMap_range_getElem? (whole : List α) :
    (List.range whole.length).filterMap (fun index => whole[index]?) = whole := by
  induction whole with
  | nil => rfl
  | cons first rest ih =>
      rw [List.length_cons, List.range_succ_eq_map, List.filterMap_cons]
      simp only [List.getElem?_cons_zero, List.filterMap_map, Function.comp_def,
        Nat.succ_eq_add_one, List.getElem?_cons_succ, ih]

theorem filterMap_positions {whole : List α} {picked : List (α × Nat)}
    (valid : ∀ entry ∈ picked, whole[entry.2]? = some entry.1) :
    (picked.map Prod.snd).filterMap (fun index => whole[index]?) = picked.map Prod.fst := by
  induction picked with
  | nil => rfl
  | cons entry rest ih =>
      rw [List.map_cons, List.map_cons, List.filterMap_cons, valid entry (by simp),
        ih fun other member => valid other (by simp [member])]

theorem subperm_of_positions {whole : List α} {picked : List (α × Nat)}
    (once : (picked.map Prod.snd).Nodup)
    (valid : ∀ entry ∈ picked, whole[entry.2]? = some entry.1) :
    (picked.map Prod.fst).Subperm whole := by
  have inside : picked.map Prod.snd ⊆ List.range whole.length := by
    intro index member
    obtain ⟨entry, isPicked, same⟩ := List.mem_map.mp member
    subst same
    exact List.mem_range.mpr (List.getElem?_eq_some_iff.mp (valid entry isPicked)).1
  obtain ⟨chosen, perm, part⟩ := List.subperm_of_subset once inside
  refine ⟨chosen.filterMap fun index => whole[index]?, ?_, ?_⟩
  · rw [← filterMap_positions valid]
    exact perm.filterMap _
  · have mapped := part.filterMap fun index => whole[index]?
    rw [filterMap_range_getElem?] at mapped
    exact mapped

/-- An event of a longer log is an old one or the last. -/
theorem append_singleton_split {log before after : List α} {last event : α}
    (split : log ++ [last] = before ++ event :: after) :
    (∃ rest, log = before ++ event :: rest) ∨ (log = before ∧ last = event) := by
  rcases List.eq_nil_or_concat after with rfl | ⟨rest, final, rfl⟩
  · right
    obtain ⟨same, final⟩ := List.append_inj' split rfl
    exact ⟨same, List.head_eq_of_cons_eq final⟩
  · left
    rw [List.concat_eq_append, ← List.cons_append, ← List.append_assoc] at split
    exact ⟨rest, (List.append_inj' split rfl).1⟩

end Conclave.Lib
