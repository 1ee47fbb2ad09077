import Mathlib.Data.Fintype.Card
import Mathlib.Data.Fintype.EquivFin
import Mathlib.Logic.Relation

/-!
# References that do not go in circles

In a finite graph the walks from a node all end exactly if none of the nodes that they reach is on
a cycle.
-/

set_option autoImplicit false

namespace Conclave.Lib

open Relation

variable {α : Type} {refers : α → α → Prop} {root node : α}

/-- Every walk from the node comes to an end. -/
abbrev WalksEnd (refers : α → α → Prop) (node : α) : Prop :=
  Acc (fun target source => refers source target) node

def OnCycle (refers : α → α → Prop) (node : α) : Prop := TransGen refers node node

theorem WalksEnd.reaches (ends : WalksEnd refers root) (reaches : ReflTransGen refers root node) :
    WalksEnd refers node := by
  induction reaches with
  | refl => exact ends
  | tail _ reference ih => exact ih.inv reference

theorem WalksEnd.not_onCycle (ends : WalksEnd refers node) : ¬OnCycle refers node := by
  have later : Acc (TransGen fun target source => refers source target) node := ends.transGen
  clear ends
  induction later with
  | intro node _ ih =>
      intro cycle
      have back : TransGen (fun target source => refers source target) node node :=
        transGen_swap.mpr cycle
      exact ih node back cycle

theorem walksEnd_of_no_cycle [Finite α]
    (none : ∀ node, ReflTransGen refers root node → ¬OnCycle refers node) :
    WalksEnd refers root := by
  let later (first second : { node // ReflTransGen refers root node }) : Prop :=
    TransGen refers second.val first.val
  have transitive : IsTrans _ later := ⟨fun _ _ _ first second => second.trans first⟩
  have irreflexive : Std.Irrefl later := ⟨fun node => none node.val node.property⟩
  have wellFounded := Finite.wellFounded_of_trans_of_irrefl later
  have general : ∀ node : { node // ReflTransGen refers root node }, WalksEnd refers node.val := by
    intro node
    induction node using wellFounded.induction with
    | _ node ih =>
        constructor
        intro target reference
        have reached := node.property.tail reference
        exact ih ⟨target, reached⟩ (TransGen.single reference)
  exact general ⟨root, .refl⟩

/-- In a finite graph walks end exactly if they cannot go in a circle. -/
theorem walksEnd_iff_no_cycle [Finite α] :
    WalksEnd refers root ↔ ∀ node, ReflTransGen refers root node → ¬OnCycle refers node := by
  constructor
  · intro ends node reaches
    exact (ends.reaches reaches).not_onCycle
  · exact walksEnd_of_no_cycle

end Conclave.Lib
