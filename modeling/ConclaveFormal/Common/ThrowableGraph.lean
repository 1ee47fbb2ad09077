import ConclaveFormal.Common.ThrowableSizes
import ConclaveFormal.Lib.Cycles

/-!
# Exceptions that refer to each other

The objects are the nodes of a graph, in which the causes and the suppressed exceptions may go in
circles.  Nothing remembers the exceptions that have been visited.
-/

set_option autoImplicit false

namespace Conclave.Common

open Conclave.Lib Conclave.Lib.Json Relation

structure ThrowableGraph (ν : Type) where
  className : ν → JString
  message : ν → Option JString
  stackTrace : ν → List StackTraceElement
  cause : ν → Option ν
  suppressed : ν → List ν

namespace ThrowableGraph

open ThrowableSerialisation

variable {ν : Type} (graph : ThrowableGraph ν)

/-! ## Serialising -/

/-- Nothing has come out yet after as many steps, or an exception has. -/
inductive Stop where
  | unfinished
  | thrown (error : SerialiseError)
  deriving DecidableEq

/-- `generateSequence(root, Throwable::cause).toList()` -/
def causeChain : Nat → ν → Except Stop (List ν)
  | 0, _ => .error .unfinished
  | fuel + 1, node =>
      match graph.cause node with
      | none => .ok [node]
      | some cause => (causeChain fuel cause).map (node :: ·)

def writeNode (writeSuppressed : ν → Except Stop Bytes) (node : ν) : Except Stop Bytes := do
  let className ← (writeString (graph.className node)).mapError .thrown
  let message ← (writeNullableString (graph.message node)).mapError .thrown
  let elements ← (writeElements (graph.stackTrace node)).mapError .thrown
  let chains ← (graph.suppressed node).mapM writeSuppressed
  return className ++ (message ++ (writeInt (graph.stackTrace node).length ++ elements ++
    (writeInt (graph.suppressed node).length ++ chains.flatten)))

/-- `serialise(dos, root)`. -/
def writeRoot : Nat → ν → Except Stop Bytes
  | 0, _ => .error .unfinished
  | fuel + 1, root => do
      let throwableChain ← graph.causeChain fuel root
      let entries ← throwableChain.reverse.mapM (graph.writeNode (writeRoot fuel))
      return writeInt throwableChain.length ++ entries.flatten

def serialise (fuel : Nat) (root : ν) : Except Stop Bytes := do
  let serialised ← graph.writeRoot fuel root
  if serialised.length ≤ 2147483647 then .ok serialised else .error (.thrown .outOfMemory)

/-! ## The tree of a node -/

def Refers (source target : ν) : Prop :=
  graph.cause source = some target ∨ target ∈ graph.suppressed source

mutual

/-- The exception seen from a node, with its own copy of each one that is referred to twice. -/
inductive Unfolds : ν → Throwable → Prop where
  | mk {node : ν} {cause : Option Throwable} {suppressed : List Throwable}
      (causes : UnfoldsCause (graph.cause node) cause)
      (suppression : UnfoldsAll (graph.suppressed node) suppressed) :
      Unfolds node
        (.mk (graph.className node) (graph.message node) (graph.stackTrace node) cause suppressed)

inductive UnfoldsCause : Option ν → Option Throwable → Prop where
  | none : UnfoldsCause none none
  | some {node : ν} {cause : Throwable} (unfolds : Unfolds node cause) :
      UnfoldsCause (some node) (some cause)

inductive UnfoldsAll : List ν → List Throwable → Prop where
  | nil : UnfoldsAll [] []
  | cons {node : ν} {first : Throwable} {nodes : List ν} {rest : List Throwable}
      (unfolds : Unfolds node first) (later : UnfoldsAll nodes rest) :
      UnfoldsAll (node :: nodes) (first :: rest)

end

variable {graph}

theorem exists_unfoldsAll {nodes : List ν}
    (each : ∀ node ∈ nodes, ∃ tree, graph.Unfolds node tree) :
    ∃ trees, graph.UnfoldsAll nodes trees := by
  induction nodes with
  | nil => exact ⟨[], .nil⟩
  | cons node nodes ih =>
      obtain ⟨first, unfolds⟩ := each node List.mem_cons_self
      obtain ⟨rest, later⟩ := ih fun other member => each other (List.mem_cons_of_mem node member)
      exact ⟨first :: rest, .cons unfolds later⟩

theorem exists_unfolds {node : ν} (ends : WalksEnd graph.Refers node) :
    ∃ tree, graph.Unfolds node tree := by
  induction ends with
  | intro node _ ih =>
      obtain ⟨suppressed, suppression⟩ :=
        exists_unfoldsAll fun target member => ih target (Or.inr member)
      cases found : graph.cause node with
      | none =>
          have causes : graph.UnfoldsCause (graph.cause node) none := by
            rw [found]
            exact .none
          exact ⟨_, .mk causes suppression⟩
      | some target =>
          obtain ⟨cause, unfolds⟩ := ih target (Or.inl found)
          have causes : graph.UnfoldsCause (graph.cause node) (some cause) := by
            rw [found]
            exact .some unfolds
          exact ⟨_, .mk causes suppression⟩

theorem Unfolds.walksEnd {node : ν} {tree : Throwable} (unfolds : graph.Unfolds node tree) :
    WalksEnd graph.Refers node := by
  induction tree using Throwable.induction (Q := fun trees =>
    ∀ nodes, graph.UnfoldsAll nodes trees → ∀ node ∈ nodes, WalksEnd graph.Refers node)
    generalizing node with
  | root className message stackTrace suppressed ofSuppressed =>
      obtain ⟨causes, suppression⟩ := unfolds
      constructor
      rintro target (found | member)
      · rw [found] at causes
        cases causes
      · exact ofSuppressed _ suppression target member
  | caused className message stackTrace cause suppressed ofCause ofSuppressed =>
      obtain ⟨causes, suppression⟩ := unfolds
      constructor
      rintro target (found | member)
      · rw [found] at causes
        cases causes with
        | some unfolds => exact ofCause unfolds
      · exact ofSuppressed _ suppression target member
  | nil nodes unfolds node member =>
      cases unfolds
      cases member
  | cons first rest ofFirst ofRest nodes unfolds node member =>
      cases unfolds with
      | cons unfolds later =>
          rcases List.mem_cons.mp member with rfl | member
          · exact ofFirst unfolds
          · exact ofRest _ later node member

theorem exists_unfolds_iff {node : ν} :
    (∃ tree, graph.Unfolds node tree) ↔ WalksEnd graph.Refers node := by
  constructor
  · rintro ⟨tree, unfolds⟩
    exact unfolds.walksEnd
  · exact exists_unfolds

theorem Unfolds.unique {node : ν} {tree other : Throwable} (first : graph.Unfolds node tree)
    (second : graph.Unfolds node other) : tree = other := by
  induction tree using Throwable.induction (Q := fun trees =>
    ∀ nodes others, graph.UnfoldsAll nodes trees → graph.UnfoldsAll nodes others →
      trees = others) generalizing node other with
  | root className message stackTrace suppressed ofSuppressed =>
      obtain ⟨causes, suppression⟩ := first
      obtain ⟨otherCauses, otherSuppression⟩ := second
      rw [ofSuppressed _ _ suppression otherSuppression]
      generalize graph.cause node = found at causes otherCauses
      cases causes
      cases otherCauses
      rfl
  | caused className message stackTrace cause suppressed ofCause ofSuppressed =>
      obtain ⟨causes, suppression⟩ := first
      obtain ⟨otherCauses, otherSuppression⟩ := second
      rw [ofSuppressed _ _ suppression otherSuppression]
      generalize graph.cause node = found at causes otherCauses
      cases causes with
      | some unfolds =>
          cases otherCauses with
          | some otherUnfolds => rw [ofCause unfolds otherUnfolds]
  | nil nodes others unfolds otherUnfolds =>
      cases unfolds
      cases otherUnfolds
      rfl
  | cons first rest ofFirst ofRest nodes others unfolds otherUnfolds =>
      cases unfolds with
      | cons unfolds later =>
          cases otherUnfolds with
          | cons otherUnfolds otherLater =>
              rw [ofFirst unfolds otherUnfolds, ofRest _ _ later otherLater]

/-! ## What is written of a node and of its tree -/

theorem writeNode_eq_ok {writeSuppressed : ν → Except Stop Bytes} {node : ν} {own : Bytes} :
    graph.writeNode writeSuppressed node = .ok own ↔
      ∃ name text elements chains, writeString (graph.className node) = .ok name ∧
        writeNullableString (graph.message node) = .ok text ∧
        writeElements (graph.stackTrace node) = .ok elements ∧
        (graph.suppressed node).mapM writeSuppressed = .ok chains ∧
        own = name ++ (text ++ (writeInt (graph.stackTrace node).length ++ elements ++
          (writeInt (graph.suppressed node).length ++ chains.flatten))) := by
  rw [writeNode]
  constructor
  · intro written
    obtain ⟨name, writtenName, written⟩ := bind_eq_ok written
    obtain ⟨text, writtenText, written⟩ := bind_eq_ok written
    obtain ⟨elements, writtenElements, written⟩ := bind_eq_ok written
    obtain ⟨chains, writtenChains, written⟩ := bind_eq_ok written
    cases written
    exact ⟨name, text, elements, chains, mapError_eq_ok.mp writtenName,
      mapError_eq_ok.mp writtenText, mapError_eq_ok.mp writtenElements, writtenChains, rfl⟩
  · rintro ⟨name, text, elements, chains, writtenName, writtenText, writtenElements, writtenChains,
      rfl⟩
    rw [bind_of_ok (mapError_eq_ok.mpr writtenName), bind_of_ok (mapError_eq_ok.mpr writtenText),
      bind_of_ok (mapError_eq_ok.mpr writtenElements), bind_of_ok writtenChains]
    rfl

theorem mapM_append_single {writeEntry : ν → Except Stop Bytes} {nodes : List ν} {node : ν}
    {entries : List Bytes} {own : Bytes} (before : nodes.mapM writeEntry = .ok entries)
    (last : writeEntry node = .ok own) :
    (nodes ++ [node]).mapM writeEntry = .ok (entries ++ [own]) := by
  apply mapM_eq_ok.mpr
  apply List.rel_append (mapM_eq_ok.mp before)
  exact .cons last .nil

theorem writeRoot_of_entries {fuel : Nat} {node : ν} {chain : List ν} {entries : List Bytes}
    (found : graph.causeChain fuel node = .ok chain)
    (written : chain.reverse.mapM (graph.writeNode (graph.writeRoot fuel)) = .ok entries) :
    graph.writeRoot (fuel + 1) node = .ok (writeInt chain.length ++ entries.flatten) := by
  rw [writeRoot, bind_of_ok found, bind_of_ok written]
  rfl

/-- With enough steps the cause chain is found, and the bytes of the tree are written. -/
def WritesTree (graph : ThrowableGraph ν) (node : ν) (tree : Throwable) (bytes : Bytes) : Prop :=
  ∃ enough chain, chain.length = chainLength tree ∧
    (∀ fuel, enough ≤ fuel → graph.causeChain fuel node = .ok chain) ∧
    ∀ fuel, enough ≤ fuel → ∃ entries,
      chain.reverse.mapM (graph.writeNode (graph.writeRoot fuel)) = .ok entries ∧
        entries.flatten = bytes

def WritesTrees (graph : ThrowableGraph ν) (nodes : List ν) (bytes : Bytes) : Prop :=
  ∃ enough, ∀ fuel, enough ≤ fuel → ∃ chains,
    nodes.mapM (graph.writeRoot fuel) = .ok chains ∧ chains.flatten = bytes

theorem UnfoldsAll.length_eq {nodes : List ν} {trees : List Throwable}
    (unfolds : graph.UnfoldsAll nodes trees) : nodes.length = trees.length := by
  induction trees generalizing nodes with
  | nil =>
      cases unfolds
      rfl
  | cons first rest ih =>
      cases unfolds with
      | cons _ later => rw [List.length_cons, List.length_cons, ih later]

theorem writesTree_root {node : ν} {name text elements chains : Bytes}
    {suppressed : List Throwable} (ended : graph.cause node = none)
    (writtenName : writeString (graph.className node) = .ok name)
    (writtenText : writeNullableString (graph.message node) = .ok text)
    (writtenElements : writeElements (graph.stackTrace node) = .ok elements)
    (suppression : graph.UnfoldsAll (graph.suppressed node) suppressed)
    (written : graph.WritesTrees (graph.suppressed node) chains) :
    graph.WritesTree node
      (.mk (graph.className node) (graph.message node) (graph.stackTrace node) none suppressed)
      (name ++ (text ++ (writeInt (graph.stackTrace node).length ++ elements ++
        (writeInt suppressed.length ++ chains)))) := by
  obtain ⟨enough, later⟩ := written
  refine ⟨enough + 1, [node], rfl, ?_, ?_⟩
  · intro fuel fueled
    cases fuel with
    | zero => omega
    | succ fuel => rw [causeChain, ended]
  · intro fuel fueled
    obtain ⟨writtenAll, ran, rfl⟩ := later fuel (by omega)
    have own := writeNode_eq_ok.mpr
      ⟨name, text, elements, writtenAll, writtenName, writtenText, writtenElements, ran, rfl⟩
    refine ⟨[_], mapM_append_single (mapM_eq_ok.mpr .nil) own, ?_⟩
    rw [suppression.length_eq, List.flatten_singleton]

theorem writesTree_caused {node target : ν} {before name text elements chains : Bytes}
    {cause : Throwable} {suppressed : List Throwable} (caused : graph.cause node = some target)
    (earlier : graph.WritesTree target cause before)
    (writtenName : writeString (graph.className node) = .ok name)
    (writtenText : writeNullableString (graph.message node) = .ok text)
    (writtenElements : writeElements (graph.stackTrace node) = .ok elements)
    (suppression : graph.UnfoldsAll (graph.suppressed node) suppressed)
    (written : graph.WritesTrees (graph.suppressed node) chains) :
    graph.WritesTree node
      (.mk (graph.className node) (graph.message node) (graph.stackTrace node) (some cause)
        suppressed)
      (before ++ (name ++ (text ++ (writeInt (graph.stackTrace node).length ++ elements ++
        (writeInt suppressed.length ++ chains))))) := by
  obtain ⟨enough, later⟩ := written
  obtain ⟨enoughCause, chain, count, found, entriesWritten⟩ := earlier
  refine ⟨enough + enoughCause + 1, node :: chain, congrArg (· + 1) count, ?_, ?_⟩
  · intro fuel fueled
    cases fuel with
    | zero => omega
    | succ fuel =>
        rw [causeChain, caused]
        dsimp only
        rw [found fuel (by omega)]
        rfl
  · intro fuel fueled
    obtain ⟨writtenAll, ran, rfl⟩ := later fuel (by omega)
    obtain ⟨entries, writtenEntries, rfl⟩ := entriesWritten fuel (by omega)
    have own := writeNode_eq_ok.mpr
      ⟨name, text, elements, writtenAll, writtenName, writtenText, writtenElements, ran, rfl⟩
    have all := mapM_append_single writtenEntries own
    rw [← List.reverse_cons] at all
    refine ⟨_, all, ?_⟩
    rw [suppression.length_eq, List.flatten_append, List.flatten_singleton]

theorem writesTrees_cons {node : ν} {nodes : List ν} {first : Throwable} {chain later : Bytes}
    (written : graph.WritesTree node first chain) (writtenLater : graph.WritesTrees nodes later) :
    graph.WritesTrees (node :: nodes) (writeInt (chainLength first) ++ chain ++ later) := by
  obtain ⟨enough, throwableChain, count, found, entriesWritten⟩ := written
  obtain ⟨enoughRest, restWritten⟩ := writtenLater
  refine ⟨enough + enoughRest + 1, ?_⟩
  intro fuel fueled
  obtain ⟨chains, ran, rfl⟩ := restWritten fuel (by omega)
  cases fuel with
  | zero => omega
  | succ fuel =>
      obtain ⟨entries, writtenEntries, rfl⟩ := entriesWritten fuel (by omega)
      have root := writeRoot_of_entries (found fuel (by omega)) writtenEntries
      refine ⟨_ :: chains, mapM_eq_ok.mpr (.cons root (mapM_eq_ok.mp ran)), ?_⟩
      rw [count, List.flatten_cons]

theorem Unfolds.writesTree {node : ν} {tree : Throwable} {bytes : Bytes}
    (unfolds : graph.Unfolds node tree) (written : writeChain tree = .ok bytes) :
    graph.WritesTree node tree bytes := by
  induction tree using Throwable.induction (Q := fun trees =>
    ∀ nodes bytes, graph.UnfoldsAll nodes trees → writeSuppressed trees = .ok bytes →
      graph.WritesTrees nodes bytes) generalizing node bytes with
  | root className message stackTrace suppressed ofSuppressed =>
      obtain ⟨causes, suppression⟩ := unfolds
      obtain ⟨before, name, text, elements, chains, writtenCauses, writtenName, writtenText,
        writtenElements, writtenChains, rfl⟩ := writeChain_eq_ok written
      cases writtenCauses
      have later := ofSuppressed _ chains suppression writtenChains
      cases found : graph.cause node with
      | none =>
          exact writesTree_root found writtenName writtenText writtenElements suppression later
      | some target =>
          rw [found] at causes
          cases causes
  | caused className message stackTrace cause suppressed ofCause ofSuppressed =>
      obtain ⟨causes, suppression⟩ := unfolds
      obtain ⟨before, name, text, elements, chains, writtenCauses, writtenName, writtenText,
        writtenElements, writtenChains, rfl⟩ := writeChain_eq_ok written
      have later := ofSuppressed _ chains suppression writtenChains
      cases found : graph.cause node with
      | none =>
          rw [found] at causes
          cases causes
      | some target =>
          rw [found] at causes
          cases causes with
          | some unfolds =>
              exact writesTree_caused found (ofCause unfolds writtenCauses) writtenName writtenText
                writtenElements suppression later
  | nil nodes bytes unfolds written =>
      cases unfolds
      cases written
      exact ⟨0, fun fuel _ => ⟨[], rfl, rfl⟩⟩
  | cons first rest ofFirst ofRest nodes bytes unfolds written =>
      cases unfolds with
      | cons unfolds unfoldsRest =>
          rw [writeSuppressed] at written
          obtain ⟨chain, writtenChain, written⟩ := bind_eq_ok written
          obtain ⟨later, writtenLater, written⟩ := bind_eq_ok written
          cases written
          exact writesTrees_cons (ofFirst unfolds writtenChain)
            (ofRest _ later unfoldsRest writtenLater)

/-! ## What has been written is a tree -/

theorem writeChain_of_parts {className : JString} {message : Option JString}
    {stackTrace : List StackTraceElement} {cause : Option Throwable} {suppressed : List Throwable}
    {before name text elements chains : Bytes} (writtenCauses : writeCause cause = .ok before)
    (writtenName : writeString className = .ok name)
    (writtenText : writeNullableString message = .ok text)
    (writtenElements : writeElements stackTrace = .ok elements)
    (writtenChains : writeSuppressed suppressed = .ok chains) :
    writeChain (.mk className message stackTrace cause suppressed) =
      .ok (before ++ (name ++ (text ++ (writeInt stackTrace.length ++ elements ++
        (writeInt suppressed.length ++ chains))))) := by
  rw [writeChain, bind_of_ok writtenCauses, bind_of_ok writtenName, bind_of_ok writtenText,
    bind_of_ok writtenElements, bind_of_ok writtenChains]
  simp only [pure, Except.pure, List.append_assoc]

theorem mapM_append_single_eq_ok {writeEntry : ν → Except Stop Bytes} {nodes : List ν} {node : ν}
    {entries : List Bytes} (written : (nodes ++ [node]).mapM writeEntry = .ok entries) :
    ∃ before own, nodes.mapM writeEntry = .ok before ∧ writeEntry node = .ok own ∧
      entries = before ++ [own] := by
  rw [List.mapM_append] at written
  obtain ⟨before, writtenBefore, written⟩ := bind_eq_ok written
  obtain ⟨last, writtenLast, written⟩ := bind_eq_ok written
  cases written
  obtain ⟨own, rest, writtenOwn, none, rfl⟩ :=
    List.forall₂_cons_left_iff.mp (mapM_eq_ok.mp writtenLast)
  rw [List.forall₂_nil_left_iff.mp none]
  exact ⟨before, own, writtenBefore, writtenOwn, rfl⟩

/-- A root is written as its tree is. -/
def WrittenAsTree (graph : ThrowableGraph ν) (root : ν) (bytes : Bytes) : Prop :=
  ∃ tree chain, graph.Unfolds root tree ∧ writeChain tree = .ok chain ∧
    bytes = writeInt (chainLength tree) ++ chain

theorem suppressed_of_written {nodes : List ν} {chains : List Bytes}
    (written : List.Forall₂ graph.WrittenAsTree nodes chains) :
    ∃ trees, graph.UnfoldsAll nodes trees ∧ writeSuppressed trees = .ok chains.flatten := by
  induction written with
  | nil => exact ⟨[], .nil, rfl⟩
  | cons first _ ih =>
      obtain ⟨tree, chain, unfolds, writtenTree, rfl⟩ := first
      obtain ⟨trees, unfoldsAll, writtenAll⟩ := ih
      refine ⟨tree :: trees, .cons unfolds unfoldsAll, ?_⟩
      rw [writeSuppressed, bind_of_ok writtenTree, bind_of_ok writtenAll]
      rfl

/-- What has been written of a node and of its cause is written of its tree. -/
theorem node_of_written {writeSuppressed : ν → Except Stop Bytes}
    (ofSuppressed : ∀ node bytes, writeSuppressed node = .ok bytes →
      graph.WrittenAsTree node bytes)
    {node : ν} {cause : Option Throwable} {before own : Bytes}
    (writtenCauses : writeCause cause = .ok before)
    (written : graph.writeNode writeSuppressed node = .ok own) :
    ∃ suppressed, graph.UnfoldsAll (graph.suppressed node) suppressed ∧
      writeChain (.mk (graph.className node) (graph.message node) (graph.stackTrace node) cause
        suppressed) = .ok (before ++ own) := by
  obtain ⟨name, text, elements, chains, writtenName, writtenText, writtenElements,
    writtenChains, rfl⟩ := writeNode_eq_ok.mp written
  obtain ⟨trees, suppression, writtenTrees⟩ := suppressed_of_written
    ((mapM_eq_ok.mp writtenChains).imp fun _ _ => ofSuppressed _ _)
  refine ⟨trees, suppression, ?_⟩
  rw [suppression.length_eq]
  exact writeChain_of_parts writtenCauses writtenName writtenText writtenElements writtenTrees

theorem chain_of_written {writeSuppressed : ν → Except Stop Bytes}
    (ofSuppressed : ∀ node bytes, writeSuppressed node = .ok bytes →
      graph.WrittenAsTree node bytes)
    {fuel : Nat} {node : ν} {chain : List ν} {entries : List Bytes}
    (found : graph.causeChain fuel node = .ok chain)
    (written : chain.reverse.mapM (graph.writeNode writeSuppressed) = .ok entries) :
    ∃ tree, graph.Unfolds node tree ∧ writeChain tree = .ok entries.flatten ∧
      chainLength tree = chain.length := by
  induction fuel generalizing node chain entries with
  | zero => cases found
  | succ fuel ih =>
      rw [causeChain] at found
      cases caused : graph.cause node with
      | none =>
          rw [caused] at found
          cases found
          rw [List.reverse_cons] at written
          obtain ⟨before, own, none_before, writtenOwn, rfl⟩ := mapM_append_single_eq_ok written
          rw [List.forall₂_nil_left_iff.mp (mapM_eq_ok.mp none_before)]
          have causes : graph.UnfoldsCause (graph.cause node) none := by
            rw [caused]
            exact .none
          have writtenCauses : writeCause none = .ok [] := rfl
          obtain ⟨trees, suppression, writtenTree⟩ :=
            node_of_written ofSuppressed writtenCauses writtenOwn
          refine ⟨_, .mk causes suppression, ?_, rfl⟩
          rw [writtenTree, List.flatten_append, List.flatten_singleton]
          rfl
      | some target =>
          rw [caused] at found
          obtain ⟨later, foundLater, rfl⟩ := map_eq_ok found
          rw [List.reverse_cons] at written
          obtain ⟨before, own, writtenBefore, writtenOwn, rfl⟩ := mapM_append_single_eq_ok written
          obtain ⟨cause, unfolds, writtenCause, count⟩ := ih foundLater writtenBefore
          have causes : graph.UnfoldsCause (graph.cause node) (some cause) := by
            rw [caused]
            exact .some unfolds
          have writtenCauses : writeCause (some cause) = .ok before.flatten := writtenCause
          obtain ⟨trees, suppression, writtenTree⟩ :=
            node_of_written ofSuppressed writtenCauses writtenOwn
          refine ⟨_, .mk causes suppression, ?_, congrArg (· + 1) count⟩
          rw [writtenTree, List.flatten_append, List.flatten_singleton]

theorem writtenAsTree {fuel : Nat} {root : ν} {bytes : Bytes}
    (written : graph.writeRoot fuel root = .ok bytes) : graph.WrittenAsTree root bytes := by
  induction fuel generalizing root bytes with
  | zero => cases written
  | succ fuel ih =>
      rw [writeRoot] at written
      obtain ⟨chain, found, written⟩ := bind_eq_ok written
      obtain ⟨entries, writtenEntries, written⟩ := bind_eq_ok written
      cases written
      obtain ⟨tree, unfolds, writtenTree, count⟩ :=
        chain_of_written (fun node bytes => ih) found writtenEntries
      rw [← count]
      exact ⟨tree, entries.flatten, unfolds, writtenTree, rfl⟩

/-- The bytes come out if the tree is finite and can be written. -/
theorem exists_serialise_iff {root : ν} :
    (∃ fuel bytes, graph.serialise fuel root = .ok bytes) ↔
      ∃ tree bytes,
        graph.Unfolds root tree ∧ ThrowableSerialisation.serialise tree = .ok bytes := by
  constructor
  · rintro ⟨fuel, bytes, returned⟩
    rw [serialise] at returned
    obtain ⟨serialised, written, returned⟩ := bind_eq_ok returned
    obtain ⟨tree, chain, unfolds, writtenTree, rfl⟩ := writtenAsTree written
    split at returned
    · rename_i fits
      refine ⟨tree, writeInt (chainLength tree) ++ chain, unfolds, ?_⟩
      rw [ThrowableSerialisation.serialise, bind_of_ok writtenTree]
      exact if_pos fits
    · cases returned
  · rintro ⟨tree, bytes, unfolds, returned⟩
    rw [ThrowableSerialisation.serialise] at returned
    obtain ⟨chain, written, returned⟩ := bind_eq_ok returned
    obtain ⟨enough, nodes, count, found, entriesWritten⟩ := unfolds.writesTree written
    obtain ⟨entries, writtenEntries, rfl⟩ := entriesWritten enough le_rfl
    have root := writeRoot_of_entries (found enough le_rfl) writtenEntries
    rw [count] at root
    dsimp only at returned
    split at returned
    · rename_i fits
      refine ⟨enough + 1, writeInt (chainLength tree) ++ entries.flatten, ?_⟩
      rw [serialise, bind_of_ok root]
      exact if_pos fits
    · cases returned

/-! ## Which exceptions are written -/

/-- The texts of one exception. -/
structure NodeFits (graph : ThrowableGraph ν) (node : ν) : Prop where
  className : StringFits (graph.className node)
  message : ∀ text ∈ graph.message node, StringFits text
  stackTrace : ∀ element ∈ graph.stackTrace node, ElementFits element

theorem nodeFits_of_written {node : ν} {name text elements : Bytes}
    (writtenName : writeString (graph.className node) = .ok name)
    (writtenText : writeNullableString (graph.message node) = .ok text)
    (writtenElements : writeElements (graph.stackTrace node) = .ok elements) :
    graph.NodeFits node where
  className := ((sized_writeString _).written writtenName).1
  message := ((sized_writeNullableString _).written writtenText).1
  stackTrace := ((sized_writeElements _).written writtenElements).1

/-- What an exception refers to is written, and its own texts fit. -/
theorem NodeFits.exists_written {node : ν} {cause : Option Throwable} {suppressed : List Throwable}
    {before chains : Bytes} (fits : graph.NodeFits node)
    (writtenCauses : writeCause cause = .ok before)
    (writtenChains : writeSuppressed suppressed = .ok chains) :
    ∃ bytes, writeChain (.mk (graph.className node) (graph.message node) (graph.stackTrace node)
      cause suppressed) = .ok bytes := by
  obtain ⟨name, writtenName⟩ := (sized_writeString _).writes fits.className
  obtain ⟨text, writtenText⟩ := (sized_writeNullableString _).writes fits.message
  obtain ⟨elements, writtenElements⟩ := (sized_writeElements _).writes fits.stackTrace
  exact ⟨_, writeChain_of_parts writtenCauses writtenName writtenText writtenElements
    writtenChains⟩

theorem Unfolds.fits {node target : ν} {tree : Throwable} {bytes : Bytes}
    (unfolds : graph.Unfolds node tree) (written : writeChain tree = .ok bytes)
    (reaches : ReflTransGen graph.Refers node target) : graph.NodeFits target := by
  induction tree using Throwable.induction (Q := fun trees =>
    ∀ nodes bytes, graph.UnfoldsAll nodes trees → writeSuppressed trees = .ok bytes →
      ∀ node ∈ nodes, ReflTransGen graph.Refers node target → graph.NodeFits target)
    generalizing node bytes with
  | root className message stackTrace suppressed ofSuppressed =>
      obtain ⟨causes, suppression⟩ := unfolds
      obtain ⟨before, name, text, elements, chains, -, writtenName, writtenText, writtenElements,
        writtenChains, rfl⟩ := writeChain_eq_ok written
      rcases reaches.cases_head with rfl | ⟨next, caused | member, later⟩
      · exact nodeFits_of_written writtenName writtenText writtenElements
      · rw [caused] at causes
        cases causes
      · exact ofSuppressed _ chains suppression writtenChains next member later
  | caused className message stackTrace cause suppressed ofCause ofSuppressed =>
      obtain ⟨causes, suppression⟩ := unfolds
      obtain ⟨before, name, text, elements, chains, writtenCauses, writtenName, writtenText,
        writtenElements, writtenChains, rfl⟩ := writeChain_eq_ok written
      rcases reaches.cases_head with rfl | ⟨next, caused | member, later⟩
      · exact nodeFits_of_written writtenName writtenText writtenElements
      · rw [caused] at causes
        cases causes with
        | some unfolds => exact ofCause unfolds writtenCauses later
      · exact ofSuppressed _ chains suppression writtenChains next member later
  | nil nodes bytes unfolds written node member =>
      cases unfolds
      cases member
  | cons first rest ofFirst ofRest nodes bytes unfolds written node member reaches =>
      rw [writeSuppressed] at written
      obtain ⟨chain, writtenChain, written⟩ := bind_eq_ok written
      obtain ⟨after, writtenAfter, written⟩ := bind_eq_ok written
      cases unfolds with
      | cons unfolds unfoldsRest =>
          rcases List.mem_cons.mp member with rfl | member
          · exact ofFirst unfolds writtenChain reaches
          · exact ofRest _ after unfoldsRest writtenAfter node member reaches

theorem Unfolds.exists_written {node : ν} {tree : Throwable} (unfolds : graph.Unfolds node tree)
    (fits : ∀ target, ReflTransGen graph.Refers node target → graph.NodeFits target) :
    ∃ bytes, writeChain tree = .ok bytes := by
  induction tree using Throwable.induction (Q := fun trees =>
    ∀ nodes, graph.UnfoldsAll nodes trees →
      (∀ node ∈ nodes, ∀ target, ReflTransGen graph.Refers node target → graph.NodeFits target) →
        ∃ bytes, writeSuppressed trees = .ok bytes) generalizing node with
  | root className message stackTrace suppressed ofSuppressed =>
      obtain ⟨causes, suppression⟩ := unfolds
      obtain ⟨chains, writtenChains⟩ := ofSuppressed _ suppression fun next member target later =>
        fits target (.head (Or.inr member) later)
      have writtenCauses : writeCause none = .ok [] := rfl
      exact (fits node .refl).exists_written writtenCauses writtenChains
  | caused className message stackTrace cause suppressed ofCause ofSuppressed =>
      obtain ⟨causes, suppression⟩ := unfolds
      obtain ⟨chains, writtenChains⟩ := ofSuppressed _ suppression fun next member target later =>
        fits target (.head (Or.inr member) later)
      obtain ⟨next, found, unfolds⟩ : ∃ next, graph.cause node = some next ∧
          graph.Unfolds next cause := by
        generalize graph.cause node = found at causes
        cases causes with
        | some unfolds => exact ⟨_, rfl, unfolds⟩
      obtain ⟨before, writtenBefore⟩ := ofCause unfolds fun target later =>
        fits target (.head (Or.inl found) later)
      have writtenCauses : writeCause (some cause) = .ok before := writtenBefore
      exact (fits node .refl).exists_written writtenCauses writtenChains
  | nil nodes unfolds fits => exact ⟨[], rfl⟩
  | cons first rest ofFirst ofRest nodes unfolds fits =>
      cases unfolds with
      | cons unfolds unfoldsRest =>
          obtain ⟨chain, writtenChain⟩ := ofFirst unfolds (fits _ List.mem_cons_self)
          obtain ⟨later, writtenLater⟩ := ofRest _ unfoldsRest fun node member =>
            fits node (List.mem_cons_of_mem _ member)
          refine ⟨writeInt (chainLength first) ++ chain ++ later, ?_⟩
          rw [writeSuppressed, bind_of_ok writtenChain, bind_of_ok writtenLater]
          rfl

/-- The tree of a root is written if all of its texts fit and its size does. -/
theorem Unfolds.serialise_iff {root : ν} {tree : Throwable} (unfolds : graph.Unfolds root tree) :
    (∃ bytes, ThrowableSerialisation.serialise tree = .ok bytes) ↔
      (∀ node, ReflTransGen graph.Refers root node → graph.NodeFits node) ∧
        serialisedSize tree ≤ 2147483647 := by
  constructor
  · rintro ⟨bytes, returned⟩
    rw [ThrowableSerialisation.serialise] at returned
    obtain ⟨chain, written, returned⟩ := bind_eq_ok returned
    refine ⟨fun node reaches => unfolds.fits written reaches, ?_⟩
    dsimp only at returned
    split at returned
    · rename_i small
      rw [List.length_append, length_writeInt, chainSize_eq written] at small
      exact small
    · cases returned
  · rintro ⟨fits, small⟩
    obtain ⟨chain, written⟩ := unfolds.exists_written fits
    refine ⟨writeInt (chainLength tree) ++ chain, ?_⟩
    rw [ThrowableSerialisation.serialise, bind_of_ok written]
    apply if_pos
    rw [List.length_append, length_writeInt, chainSize_eq written]
    exact small

/-- An exception of a finite graph is turned into bytes exactly if no exception that it reaches is
on a cycle, all the texts fit and the bytes fit into an array. -/
theorem serialise_returns_iff [Finite ν] (graph : ThrowableGraph ν) (root : ν) :
    (∃ fuel bytes, graph.serialise fuel root = .ok bytes) ↔
      (∀ node, ReflTransGen graph.Refers root node → ¬OnCycle graph.Refers node) ∧
        (∀ node, ReflTransGen graph.Refers root node → graph.NodeFits node) ∧
          ∀ tree, graph.Unfolds root tree → serialisedSize tree ≤ 2147483647 := by
  rw [exists_serialise_iff, ← walksEnd_iff_no_cycle]
  constructor
  · rintro ⟨tree, bytes, unfolds, returned⟩
    obtain ⟨fits, small⟩ := unfolds.serialise_iff.mp ⟨bytes, returned⟩
    refine ⟨unfolds.walksEnd, fits, ?_⟩
    intro other otherUnfolds
    rw [← unfolds.unique otherUnfolds]
    exact small
  · rintro ⟨ends, fits, small⟩
    obtain ⟨tree, unfolds⟩ := exists_unfolds ends
    obtain ⟨bytes, returned⟩ := unfolds.serialise_iff.mpr ⟨fits, small tree unfolds⟩
    exact ⟨tree, bytes, unfolds, returned⟩

/-- An exception with a cause.  Both of them have suppressed the third one. -/
def sharedSuppressed : ThrowableGraph (Fin 3) where
  className _ := jstring "E"
  message node := if node = 0 then some (jstring "m") else none
  stackTrace node := if node = 1 then [⟨jstring "C", jstring "f", none, 7⟩] else []
  cause node := if node = 0 then some 1 else none
  suppressed node := if node = 2 then [] else [2]

theorem sharedSuppressed_later {source target : Fin 3}
    (refers : sharedSuppressed.Refers source target) : source < target := by
  revert refers
  revert source target
  unfold Refers
  decide

theorem sharedSuppressed_later_trans {source target : Fin 3}
    (reaches : TransGen sharedSuppressed.Refers source target) : source < target := by
  induction reaches with
  | single refers => exact sharedSuppressed_later refers
  | tail _ refers ih => exact ih.trans (sharedSuppressed_later refers)

theorem sharedSuppressed_returns :
    ∃ fuel bytes, sharedSuppressed.serialise fuel 0 = .ok bytes := by
  refine (serialise_returns_iff sharedSuppressed 0).mpr ⟨?_, ?_, ?_⟩
  · intro node _ cycle
    exact lt_irrefl node (sharedSuppressed_later_trans cycle)
  · intro node _
    have names : ∀ node, StringFits (sharedSuppressed.className node) := by decide
    have messages : ∀ node, ∀ text ∈ sharedSuppressed.message node, StringFits text := by decide
    refine ⟨names node, messages node, ?_⟩
    intro element member
    by_cases caused : node = 1
    · subst caused
      rw [List.mem_singleton.mp member]
      exact ⟨by decide, by decide, by decide⟩
    · simp [sharedSuppressed, caused] at member
  · intro tree unfolds
    have last : sharedSuppressed.Unfolds 2 (.mk (jstring "E") none [] none []) := .mk .none .nil
    have caused : sharedSuppressed.Unfolds 1 (.mk (jstring "E") none
        [⟨jstring "C", jstring "f", none, 7⟩] none [.mk (jstring "E") none [] none []]) :=
      .mk .none (.cons last .nil)
    rw [unfolds.unique (.mk (.some caused) (.cons last .nil))]
    decide

/-- Two exceptions that are each other's cause. -/
def mutualCauses : ThrowableGraph Bool where
  className _ := jstring "E"
  message _ := none
  stackTrace _ := []
  cause node := some !node
  suppressed _ := []

theorem mutualCauses_never_returns :
    ¬∀ (ν : Type) [Finite ν] (graph : ThrowableGraph ν) (root : ν),
      ∃ fuel bytes, graph.serialise fuel root = .ok bytes := by
  intro holds
  obtain ⟨tree, -, unfolds, -⟩ := exists_serialise_iff.mp (holds Bool mutualCauses true)
  have there : mutualCauses.Refers true false := Or.inl rfl
  have back : mutualCauses.Refers false true := Or.inl rfl
  exact unfolds.walksEnd.not_onCycle (.tail (.single there) back)

end ThrowableGraph

end Conclave.Common
