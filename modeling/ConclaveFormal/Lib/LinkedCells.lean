import Mathlib.Data.List.Nodup
import Mathlib.Logic.Function.Basic

/-!
# Chains of cells in a table

A table says of each cell that it is free, that it is the last of its chain, or
which cell comes next.  Chains that end have no cell twice, and a change to the
table leaves every chain alone whose cells it does not touch.
-/

set_option autoImplicit false

namespace Conclave.Lib

inductive Link (α : Type) where
  | free
  | last
  | next (cell : α)
  deriving DecidableEq

variable {α ι : Type} {table changed : α → Link α}

/-- These cells are a chain, in this order. -/
def Linked (table : α → Link α) : List α → Prop
  | [] => True
  | [cell] => table cell = .last
  | cell :: after :: rest => table cell = .next after ∧ Linked table (after :: rest)

namespace Linked

theorem tail {cell : α} {rest : List α} (linked : Linked table (cell :: rest)) :
    Linked table rest := by
  cases rest with
  | nil => trivial
  | cons after rest => exact linked.2

theorem drop {front back : List α} (linked : Linked table (front ++ back)) :
    Linked table back := by
  induction front with
  | nil => exact linked
  | cons cell front ih => exact ih linked.tail

theorem congr {cells : List α} (linked : Linked table cells)
    (same : ∀ cell ∈ cells, changed cell = table cell) : Linked changed cells := by
  induction cells with
  | nil => trivial
  | cons cell rest ih =>
      have inRest := ih linked.tail fun other member => same other (List.mem_cons_of_mem _ member)
      cases rest with
      | nil => exact (same cell (List.mem_singleton_self _)).trans linked
      | cons after rest => exact ⟨(same cell List.mem_cons_self).trans linked.1, inRest⟩

theorem next {front back : List α} {cell after : α}
    (linked : Linked table (front ++ cell :: after :: back)) : table cell = .next after :=
  linked.drop.1

theorem last {front : List α} {cell : α} (linked : Linked table (front ++ [cell])) :
    table cell = .last :=
  linked.drop

theorem not_free {cells : List α} {cell : α} (linked : Linked table cells)
    (member : cell ∈ cells) : table cell ≠ .free := by
  obtain ⟨front, back, rfl⟩ := List.append_of_mem member
  have suffix := linked.drop
  intro free
  cases back with
  | nil => cases free.symm.trans suffix
  | cons after back => cases free.symm.trans suffix.1

/-- A cell has one chain from it on. -/
theorem unique {cell : α} {first second : List α} (one : Linked table (cell :: first))
    (other : Linked table (cell :: second)) : first = second := by
  induction first generalizing cell second with
  | nil =>
      cases second with
      | nil => rfl
      | cons after second => cases Eq.trans (Eq.symm one) other.1
  | cons after first ih =>
      cases second with
      | nil => cases one.1.symm.trans other
      | cons after' second =>
          obtain rfl := Link.next.inj (one.1.symm.trans other.1)
          rw [ih one.2 other.2]

theorem nodup {cells : List α} (linked : Linked table cells) : cells.Nodup := by
  induction cells with
  | nil => exact List.nodup_nil
  | cons cell rest ih =>
      refine List.nodup_cons.mpr ⟨?_, ih linked.tail⟩
      intro again
      -- The chain from the second occurrence on would be as long as the whole one.
      obtain ⟨front, back, rfl⟩ := List.append_of_mem again
      have lengths := congrArg List.length (linked.unique (linked.tail.drop))
      rw [List.length_append, List.length_cons] at lengths
      omega

/-- A chain that is cut behind `cell`, or made longer there. -/
theorem splice {front back rest : List α} {cell : α}
    (linked : Linked table (front ++ cell :: back)) (same : ∀ other ∈ front, changed other =
      table other) (linkedRest : Linked changed (cell :: rest)) :
    Linked changed (front ++ cell :: rest) := by
  induction front with
  | nil => exact linkedRest
  | cons first front ih =>
      have inFront := ih linked.tail fun other member => same other (List.mem_cons_of_mem _ member)
      have kept := same first List.mem_cons_self
      cases front with
      | nil => exact ⟨kept.trans linked.1, inFront⟩
      | cons second front => exact ⟨kept.trans linked.1, inFront⟩

end Linked

/-! ## Owners -/

/-- Each owner has a chain, and no cell is in two of them. -/
structure Allocated (table : α → Link α) (chain : ι → List α) : Prop where
  linked : ∀ owner, Linked table (chain owner)
  disjoint : ∀ {one other cell}, cell ∈ chain one → cell ∈ chain other → one = other

namespace Allocated

variable {chain : ι → List α}

theorem congr (allocated : Allocated table chain)
    (same : ∀ owner, ∀ cell ∈ chain owner, changed cell = table cell) :
    Allocated changed chain where
  linked owner := (allocated.linked owner).congr (same owner)
  disjoint := allocated.disjoint

/-- One owner gets another chain, made of cells that it had and of free ones. -/
theorem update [DecidableEq ι] (allocated : Allocated table chain) {owner : ι} {cells : List α}
    (linked : Linked changed cells)
    (fresh : ∀ cell ∈ cells, cell ∈ chain owner ∨ table cell = .free)
    (same : ∀ other, other ≠ owner → ∀ cell ∈ chain other, changed cell = table cell) :
    Allocated changed (Function.update chain owner cells) := by
  have apart : ∀ other, other ≠ owner → ∀ cell ∈ cells, cell ∉ chain other := by
    intro other different cell member elsewhere
    rcases fresh cell member with own | free
    · exact different (allocated.disjoint elsewhere own)
    · exact (allocated.linked other).not_free elsewhere free
  refine ⟨?_, ?_⟩
  · intro other
    by_cases different : other = owner
    · rw [different, Function.update_self]
      exact linked
    · rw [Function.update_of_ne different]
      exact (allocated.linked other).congr (same other different)
  · intro one other cell first second
    by_cases isOne : one = owner <;> by_cases isOther : other = owner
    · rw [isOne, isOther]
    · rw [isOne, Function.update_self] at first
      rw [Function.update_of_ne isOther] at second
      exact absurd second (apart other isOther cell first)
    · rw [Function.update_of_ne isOne] at first
      rw [isOther, Function.update_self] at second
      exact absurd first (apart one isOne cell second)
    · rw [Function.update_of_ne isOne] at first
      rw [Function.update_of_ne isOther] at second
      exact allocated.disjoint first second

end Allocated

end Conclave.Lib
