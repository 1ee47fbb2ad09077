import Mathlib.Init

/-!
# Trees of nested calls

Two parties call each other on one thread.  A `Behaviour` is what a party does when it is
called: it makes calls, goes on depending on their answers, and answers itself at last.
What the other party does when it is called is part of the tree.  `execute` runs a tree
with an implementation of the calls, `answer` says what it should come to.
-/

set_option autoImplicit false

namespace Conclave.Lib

inductive Behaviour {Party : Type} (other : Party → Party) (Request : Party → Type)
    (Answer : Type) : Party → Type where
  | done {party : Party} (answer : Answer) : Behaviour other Request Answer party
  | call {party : Party} (request : Request party)
      (callee : Behaviour other Request Answer (other party))
      (next : Answer → Behaviour other Request Answer party) :
      Behaviour other Request Answer party

namespace Behaviour

variable {Party : Type} {other : Party → Party} {Request : Party → Type} {Answer σ : Type}

/-- `perform` is given how the callee runs. -/
def execute (perform : ∀ {party : Party}, Request party → (σ → Answer × σ) → σ → Answer × σ)
    {party : Party} : Behaviour other Request Answer party → σ → Answer × σ
  | done answer, state => (answer, state)
  | call request callee next, state =>
      let (answer, state) := perform request (callee.execute perform) state
      (next answer).execute perform state

/-- `receive` is what the caller gets to know of the callee's answer. -/
def answer (receive : ∀ {party : Party}, Request party → Answer → Answer) {party : Party} :
    Behaviour other Request Answer party → Answer
  | done answer => answer
  | call request callee next => (next (receive request (callee.answer receive))).answer receive

/-- The condition holds of every call with the answer of its callee. -/
def Everywhere (receive : ∀ {party : Party}, Request party → Answer → Answer)
    (condition : ∀ {party : Party}, Request party → Answer → Prop) {party : Party} :
    Behaviour other Request Answer party → Prop
  | done _ => True
  | call request callee next =>
      callee.Everywhere receive condition ∧ condition request (callee.answer receive) ∧
        (next (receive request (callee.answer receive))).Everywhere receive condition

/-- The condition holds of every call that enters its callee. -/
def Throughout (receive : ∀ {party : Party}, Request party → Answer → Answer)
    (enters : ∀ {party : Party}, Request party → Prop)
    (condition : ∀ {party : Party}, Request party → Answer → Prop) {party : Party} :
    Behaviour other Request Answer party → Prop
  | done _ => True
  | call request callee next =>
      (enters request → callee.Throughout receive enters condition ∧
        condition request (callee.answer receive)) ∧
        (next (receive request (callee.answer receive))).Throughout receive enters condition

/-! ## Calls that are routed -/

section Routing

variable (Request : Party → Type) (Answer Scope Target : Type)

/-- Whom a call reaches in a scope, the scope of what the callee does, and what the caller gets. -/
structure Routing where
  route : ∀ {party : Party}, Request party → Scope → Except Answer Target
  inside : ∀ {party : Party}, Request party → Scope
  receive : ∀ {party : Party}, Request party → Target → Answer → Answer

/-- A call that has ended, with whom it has reached and what that one has answered. -/
structure Routed where
  party : Party
  request : Request party
  reached : Option (Target × Answer)
  result : Answer

end Routing

variable {Scope Target : Type}

/-- The callee's answer and calls are given for each scope. -/
def Routing.call (routing : Routing Request Answer Scope Target) {party : Party}
    (request : Request party) (callee : Scope → Answer × List (Routed Request Answer Target))
    (scope : Scope) : Answer × List (Routed Request Answer Target) :=
  match routing.route request scope with
  | .error result => (result, [⟨party, request, none, result⟩])
  | .ok target =>
      let (answer, calls) := callee (routing.inside request)
      let result := routing.receive request target answer
      (result, calls ++ [⟨party, request, some (target, answer), result⟩])

theorem Routing.call_refused {routing : Routing Request Answer Scope Target} {party : Party}
    {request : Request party} {scope : Scope} {result : Answer}
    (callee : Scope → Answer × List (Routed Request Answer Target))
    (refused : routing.route request scope = .error result) :
    routing.call request callee scope = (result, [] ++ [⟨party, request, none, result⟩]) := by
  rw [Routing.call, refused]
  rfl

theorem Routing.call_reached {routing : Routing Request Answer Scope Target} {party : Party}
    {request : Request party} {scope : Scope} {target : Target}
    (callee : Scope → Answer × List (Routed Request Answer Target))
    (reached : routing.route request scope = .ok target) :
    routing.call request callee scope =
      (routing.receive request target (callee (routing.inside request)).1,
        (callee (routing.inside request)).2 ++
          [⟨party, request, some (target, (callee (routing.inside request)).1),
            routing.receive request target (callee (routing.inside request)).1⟩]) := by
  rw [Routing.call, reached]

/-- The answer of a tree and all its calls, in the order in which they end. -/
def routed (routing : Routing Request Answer Scope Target) {party : Party} :
    Behaviour other Request Answer party → Scope → Answer × List (Routed Request Answer Target)
  | done answer, _ => (answer, [])
  | call request callee next, scope =>
      let (result, calls) := routing.call request (callee.routed routing) scope
      let (answer, later) := (next result).routed routing scope
      (answer, calls ++ later)

/-- What holds of a call that is refused and of one that is answered holds of all. -/
theorem routed_all {routing : Routing Request Answer Scope Target}
    {P : Routed Request Answer Target → Prop}
    (refused : ∀ {party : Party} (request : Request party) (scope : Scope) (result : Answer),
      routing.route request scope = .error result → P ⟨party, request, none, result⟩)
    (reached : ∀ {party : Party} (request : Request party) (target : Target) (answer : Answer),
      P ⟨party, request, some (target, answer), routing.receive request target answer⟩)
    {party : Party} (tree : Behaviour other Request Answer party) (scope : Scope) :
    ∀ call ∈ (tree.routed routing scope).2, P call := by
  induction tree generalizing scope with
  | done answer =>
      intro call isIn
      cases isIn
  | call request callee next calleeAll nextAll =>
      intro call isIn
      rw [routed, Routing.call] at isIn
      cases found : routing.route request scope with
      | error result =>
          simp only [found, List.singleton_append, List.mem_cons] at isIn
          rcases isIn with rfl | later
          · exact refused request scope result found
          · exact nextAll result scope call later
      | ok target =>
          simp only [found, List.append_assoc, List.singleton_append, List.mem_append,
            List.mem_cons] at isIn
          rcases isIn with inner | rfl | later
          · exact calleeAll _ call inner
          · exact reached request target _
          · exact nextAll _ scope call later

section Follows

variable (Ready : Party → Scope → σ → Prop) (calls : σ → List (Routed Request Answer Target))
  (Back : σ → σ → Prop)

/-- In every scope the run answers and calls as expected, and comes back. -/
def Follows (party : Party) (run : σ → Answer × σ)
    (expected : Scope → Answer × List (Routed Request Answer Target)) : Prop :=
  ∀ scope state, Ready party scope state →
    (run state).1 = (expected scope).1 ∧
      calls (run state).2 = calls state ++ (expected scope).2 ∧ Back state (run state).2

variable {Ready calls Back}

/-- What is left to show is that one call is routed when its callee's calls are. -/
theorem execute_follows {routing : Routing Request Answer Scope Target}
    {perform : ∀ {party : Party}, Request party → (σ → Answer × σ) → σ → Answer × σ}
    (refl : ∀ state, Back state state)
    (trans : ∀ {first second third}, Back first second → Back second third → Back first third)
    (ready : ∀ {party scope before after}, Ready party scope before → Back before after →
      Ready party scope after)
    (performs : ∀ {party : Party} (request : Request party) (callee : σ → Answer × σ)
      (expected : Scope → Answer × List (Routed Request Answer Target)),
      Follows Ready calls Back (other party) callee expected →
      Follows Ready calls Back party (perform request callee) (routing.call request expected))
    {party : Party} (tree : Behaviour other Request Answer party) :
    Follows Ready calls Back party (tree.execute perform) (tree.routed routing) := by
  induction tree with
  | done answer =>
      intro scope state _
      exact ⟨rfl, (List.append_nil _).symm, refl state⟩
  | call request callee next calleeFollows nextFollows =>
      intro scope state start
      obtain ⟨answered, called, back⟩ :=
        performs request (callee.execute perform) _ calleeFollows scope state start
      obtain ⟨answered', called', back'⟩ := nextFollows
        (perform request (callee.execute perform) state).1 scope
        (perform request (callee.execute perform) state).2 (ready start back)
      rw [answered] at answered' called' back'
      have ran : (call request callee next).execute perform state =
          (next (perform request (callee.execute perform) state).1).execute perform
            (perform request (callee.execute perform) state).2 := rfl
      rw [ran, answered]
      refine ⟨answered', ?_, trans back back'⟩
      rw [called', called, List.append_assoc]
      rfl

end Follows

end Behaviour

end Conclave.Lib
