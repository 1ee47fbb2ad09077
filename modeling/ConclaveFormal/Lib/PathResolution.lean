import Mathlib.Data.List.Infix

/-!
# Where a path leads

A path is a list of moves: it stays in a directory, goes up, or goes down by a name, and at the root
going up stays there.  By which name it leads down from the root is decided at its last step down
from there that is not taken back.
-/

set_option autoImplicit false

namespace Conclave.Lib

/-! ## Pieces between separators -/

section Pieces

variable {α : Type} [DecidableEq α]

/-- The first piece, and those behind it. -/
def piecesFrom (separator : α) : List α → List α × List (List α)
  | [] => ([], [])
  | symbol :: rest =>
      let later := piecesFrom separator rest
      if symbol = separator then ([], later.1 :: later.2) else (symbol :: later.1, later.2)

def pieces (separator : α) (text : List α) : List (List α) :=
  (piecesFrom separator text).1 :: (piecesFrom separator text).2

theorem firstPiece_eq_iff {separator : α} {name text : List α} (whole : separator ∉ name) :
    (piecesFrom separator text).1 = name ↔ name ++ [separator] <+: text ∨ text = name := by
  induction text generalizing name with
  | nil =>
      rw [piecesFrom]
      simp
  | cons symbol rest ih =>
      simp only [piecesFrom]
      by_cases ends : symbol = separator
      · subst ends
        rw [if_pos rfl]
        cases name with
        | nil => simp
        | cons head tail =>
            have different : head ≠ symbol := fun same => whole (by simp [same])
            simp [different, Ne.symm different]
      · rw [if_neg ends]
        cases name with
        | nil => simp [Ne.symm ends]
        | cons head tail =>
            have tailWhole : separator ∉ tail := fun member => whole (List.mem_cons_of_mem _ member)
            by_cases same : symbol = head
            · subst same
              simp [ih tailWhole]
            · simp [same, Ne.symm same]

end Pieces

/-! ## Moves -/

inductive Move (ν : Type) where
  | stay
  | up
  | down (name : ν)
  deriving DecidableEq, Repr

variable {ν : Type}

/-- A directory is given by its names, the innermost one first. -/
def Move.apply (directory : List ν) : Move ν → List ν
  | stay => directory
  | up => directory.tail
  | down name => name :: directory

def walk (directory : List ν) (moves : List (Move ν)) : List ν := moves.foldl Move.apply directory

@[simp]
theorem walk_nil (directory : List ν) : walk directory [] = directory := rfl

@[simp]
theorem walk_cons (directory : List ν) (move : Move ν) (rest : List (Move ν)) :
    walk directory (move :: rest) = walk (move.apply directory) rest := rfl

theorem walk_append (directory : List ν) (first later : List (Move ν)) :
    walk directory (first ++ later) = walk (walk directory first) later :=
  List.foldl_append

/-- Only how deep the path goes, without the names. -/
def Move.deepen (depth : Nat) : Move ν → Nat
  | stay => depth
  | up => depth - 1
  | down _ => depth + 1

def depthAfter (depth : Nat) (moves : List (Move ν)) : Nat := moves.foldl Move.deepen depth

@[simp]
theorem depthAfter_nil (depth : Nat) : depthAfter depth ([] : List (Move ν)) = depth := rfl

@[simp]
theorem depthAfter_cons (depth : Nat) (move : Move ν) (rest : List (Move ν)) :
    depthAfter depth (move :: rest) = depthAfter (move.deepen depth) rest := rfl

theorem depthAfter_append (depth : Nat) (first later : List (Move ν)) :
    depthAfter depth (first ++ later) = depthAfter (depthAfter depth first) later :=
  List.foldl_append

theorem length_apply (directory : List ν) (move : Move ν) :
    (move.apply directory).length = move.deepen directory.length := by
  cases move with
  | stay => rfl
  | up => exact List.length_tail
  | down name => rfl

theorem length_walk (directory : List ν) (moves : List (Move ν)) :
    (walk directory moves).length = depthAfter directory.length moves := by
  induction moves generalizing directory with
  | nil => rfl
  | cons move rest ih => rw [walk_cons, depthAfter_cons, ih, length_apply]

theorem walk_eq_nil_iff {moves : List (Move ν)} : walk [] moves = [] ↔ depthAfter 0 moves = 0 := by
  rw [← List.length_eq_zero_iff, length_walk, List.length_nil]

/-- Back at the root, what came before is forgotten. -/
theorem walk_append_of_depthAfter_eq_zero {before after : List (Move ν)}
    (atRoot : depthAfter 0 before = 0) : walk [] (before ++ after) = walk [] after := by
  rw [walk_append, walk_eq_nil_iff.mpr atRoot]

/-! ## The way down from the root -/

/-- The path never climbs back to the root from so deep. -/
def StaysBelow (depth : Nat) (moves : List (Move ν)) : Prop :=
  ∀ first, first <+: moves → 0 < depthAfter depth first

/-- The path goes down from the root by the name, and does not come back. -/
def GoesDownBy (name : ν) (moves : List (Move ν)) : Prop :=
  ∃ before after, moves = before ++ .down name :: after ∧ depthAfter 0 before = 0 ∧
    StaysBelow 1 after

theorem StaysBelow.of_cons {depth : Nat} {move : Move ν} {rest : List (Move ν)}
    (below : StaysBelow depth (move :: rest)) :
    0 < move.deepen depth ∧ StaysBelow (move.deepen depth) rest := by
  constructor
  · exact below [move] (List.prefix_append [move] rest)
  · intro first isPrefix
    exact below (move :: first) ((List.prefix_cons_inj move).mpr isPrefix)

theorem StaysBelow.concat {depth : Nat} {moves : List (Move ν)} {move : Move ν}
    (below : StaysBelow depth moves) (last : 0 < depthAfter depth (moves ++ [move])) :
    StaysBelow depth (moves ++ [move]) := by
  intro first isPrefix
  rcases List.prefix_concat_iff.mp isPrefix with whole | before
  · rw [whole]
    exact last
  · exact below first before

/-- What the path does below a directory leaves the names above it alone. -/
theorem walk_concat {directory : List ν} {name : ν} {moves : List (Move ν)}
    (below : StaysBelow (directory.length + 1) moves) :
    walk (directory ++ [name]) moves = walk directory moves ++ [name] := by
  induction moves generalizing directory with
  | nil => rfl
  | cons move rest ih =>
      obtain ⟨positive, later⟩ := below.of_cons
      have moved : move.apply (directory ++ [name]) = move.apply directory ++ [name] := by
        cases move with
        | stay => rfl
        | down other => rfl
        | up =>
            cases directory with
            | nil => cases positive
            | cons head tail => rfl
      have deeper : (move.apply directory).length + 1 = move.deepen (directory.length + 1) := by
        rw [length_apply]
        cases move with
        | stay => rfl
        | down other => rfl
        | up =>
            cases directory with
            | nil => cases positive
            | cons head tail => rfl
      rw [walk_cons, moved, ih (deeper ▸ later), walk_cons]

/-- The outermost name of where the path leads. -/
theorem getLast?_walk_eq_some_iff {name : ν} {moves : List (Move ν)} :
    (walk [] moves).getLast? = some name ↔ GoesDownBy name moves := by
  constructor
  · intro leads
    induction moves using List.reverseRecOn with
    | nil => cases leads
    | append_singleton moves move ih =>
        have extend (earlier : (walk [] moves).getLast? = some name)
            (deep : 0 < depthAfter 0 (moves ++ [move])) :
            GoesDownBy name (moves ++ [move]) := by
          obtain ⟨before, after, rfl, atRoot, below⟩ := ih earlier
          refine ⟨before, after ++ [move], by simp, atRoot, below.concat ?_⟩
          rw [List.append_assoc, depthAfter_append, atRoot] at deep
          exact deep
        have deep : 0 < depthAfter 0 (moves ++ [move]) := by
          rw [← @List.length_nil ν, ← length_walk]
          exact List.length_pos_of_mem (List.mem_of_getLast? leads)
        rw [walk_append] at leads
        cases move with
        | stay => exact extend leads deep
        | up =>
            refine extend ?_ deep
            obtain ⟨inner, found⟩ := List.getLast?_eq_some_iff.mp leads
            have whole : (walk [] moves).tail = inner ++ [name] := found
            cases walked : walk [] moves with
            | nil =>
                rw [walked] at whole
                simp at whole
            | cons head tail =>
                rw [walked] at whole
                have tailIs : tail = inner ++ [name] := whole
                rw [tailIs, ← List.cons_append]
                exact List.getLast?_concat
        | down other =>
            cases walked : walk [] moves with
            | nil =>
                rw [walked] at leads
                cases leads
                refine ⟨moves, [], rfl, ?_, ?_⟩
                · rw [← @List.length_nil ν, ← length_walk, walked]
                · intro first isPrefix
                  rw [List.prefix_nil.mp isPrefix]
                  exact Nat.one_pos
            | cons head tail =>
                refine extend ?_ deep
                rw [walked] at leads ⊢
                exact leads
  · rintro ⟨before, after, rfl, atRoot, below⟩
    rw [walk_append_of_depthAfter_eq_zero atRoot, walk_cons]
    have kept : walk ([] ++ [name]) after = walk [] after ++ [name] := walk_concat below
    change (walk ([] ++ [name]) after).getLast? = some name
    rw [kept]
    exact List.getLast?_concat

end Conclave.Lib
