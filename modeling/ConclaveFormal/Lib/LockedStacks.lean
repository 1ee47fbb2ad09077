import ConclaveFormal.Lib.ReentrantLock
import Mathlib.Data.List.Count

/-!
# Stacks of activations under one lock

Every thread has a stack of activations, some of which hold the lock.  An activation that awaits a
condition has let go of it for the whole thread.  The lemmas say which moves of one thread keep the
lock and the calls in line.
-/

set_option autoImplicit false

namespace Conclave.Lib

structure LockUse (Frame : Type) where
  holds : Frame → Bool
  awaits : Frame → Bool

namespace LockUse

variable {Thread Frame : Type} (use : LockUse Frame)

def count (stack : List Frame) : Nat := stack.countP use.holds

/-- How often the lock is held by a thread with this stack, innermost activation first. -/
def held : List Frame → Nat
  | [] => 0
  | frame :: rest => if use.awaits frame then 0 else use.count (frame :: rest)

variable {use}

@[simp] theorem count_nil : use.count [] = 0 := rfl

theorem count_cons (frame : Frame) (rest : List Frame) :
    use.count (frame :: rest) = use.count rest + if use.holds frame then 1 else 0 :=
  List.countP_cons

theorem held_cons {frame : Frame} (goesOn : use.awaits frame = false) (rest : List Frame) :
    use.held (frame :: rest) = use.count rest + if use.holds frame then 1 else 0 := by
  rw [held, goesOn, if_neg Bool.false_ne_true, count_cons]

theorem held_awaiting {frame : Frame} (awaits : use.awaits frame = true) (rest : List Frame) :
    use.held (frame :: rest) = 0 := by
  rw [held, if_pos awaits]

/-- No activation of this stack awaits anything, as on every stack but for its top. -/
theorem held_of_none {stack : List Frame} (none : ∀ frame ∈ stack, use.awaits frame = false) :
    use.held stack = use.count stack := by
  cases stack with
  | nil => rfl
  | cons frame rest => rw [held_cons (none frame List.mem_cons_self), count_cons]

theorem count_pos {stack : List Frame} {frame : Frame} (member : frame ∈ stack)
    (holds : use.holds frame = true) : 0 < use.count stack :=
  List.countP_pos_iff.mpr ⟨frame, member, holds⟩

variable [DecidableEq Thread]

variable (use) in
/-- Every thread holds the lock as often as its stack says. -/
def Matches (lock : ReentrantLock Thread) (calls : Thread → List Frame) : Prop :=
  ∀ thread, lock.heldBy thread = use.held (calls thread)

namespace Matches

variable {lock : ReentrantLock Thread} {calls : Thread → List Frame} {thread : Thread}
  {stack : List Frame}

theorem exclusive (inLine : use.Matches lock calls) {first second : Thread}
    (holdsFirst : 0 < use.held (calls first)) (holdsSecond : 0 < use.held (calls second)) :
    first = second := by
  rw [← inLine] at holdsFirst holdsSecond
  exact ReentrantLock.exclusive holdsFirst holdsSecond

theorem update {lock' : ReentrantLock Thread} (own : lock'.heldBy thread = use.held stack)
    (others : ∀ other, other ≠ thread → lock'.heldBy other = use.held (calls other)) :
    use.Matches lock' (Function.update calls thread stack) := by
  intro other
  by_cases same : other = thread
  · subst same
    rw [Function.update_self, own]
  · rw [Function.update_of_ne same, others other same]

theorem keep (inLine : use.Matches lock calls) (same : use.held stack = use.held (calls thread)) :
    use.Matches lock (Function.update calls thread stack) :=
  update ((inLine thread).trans same.symm) fun other _ => inLine other

theorem acquire (inLine : use.Matches lock calls) (free : lock.available thread = true)
    (more : use.held stack = use.held (calls thread) + 1) :
    use.Matches (lock.acquire thread) (Function.update calls thread stack) := by
  apply update
  · rw [ReentrantLock.heldBy_acquire free, if_pos rfl, inLine, more]
  · intro other different
    rw [ReentrantLock.heldBy_acquire free, if_neg different, inLine, Nat.add_zero]

theorem release (inLine : use.Matches lock calls)
    (fewer : use.held (calls thread) = use.held stack + 1) :
    use.Matches lock.release (Function.update calls thread stack) := by
  have held : 0 < lock.heldBy thread := by
    rw [inLine, fewer]
    exact Nat.succ_pos _
  apply update
  · rw [ReentrantLock.heldBy_release held, if_pos rfl, inLine, fewer, Nat.add_sub_cancel]
  · intro other different
    rw [ReentrantLock.heldBy_release held, if_neg different, inLine, Nat.sub_zero]

theorem releaseAll (inLine : use.Matches lock calls) (held : 0 < use.held (calls thread))
    (nothing : use.held stack = 0) :
    use.Matches lock.releaseAll (Function.update calls thread stack) := by
  apply update
  · exact nothing.symm
  · intro other different
    have free : ¬ 0 < use.held (calls other) := fun holds =>
      different (inLine.exclusive holds held)
    change 0 = _
    omega

theorem acquireTimes (inLine : use.Matches lock calls) (free : lock.available thread = true)
    (nothing : use.held (calls thread) = 0) :
    use.Matches (lock.acquireTimes thread (use.held stack))
      (Function.update calls thread stack) := by
  have acquired := ReentrantLock.heldBy_acquireTimes free (use.held stack)
  apply update
  · rw [(acquired thread).2, if_pos rfl, inLine, nothing, Nat.zero_add]
  · intro other different
    rw [(acquired other).2, if_neg different, inLine, Nat.add_zero]

end Matches

end LockUse

/-! ## What holds of each activation above the ones that wait for it -/

/-- `P below frame` holds of every frame of the stack and the frames below it. -/
def EachAbove {Frame : Type} (P : List Frame → Frame → Prop) : List Frame → Prop
  | [] => True
  | frame :: rest => P rest frame ∧ EachAbove P rest

theorem EachAbove.imp {Frame : Type} {P Q : List Frame → Frame → Prop} {stack : List Frame}
    (implies : ∀ below, ∀ frame ∈ stack, P below frame → Q below frame)
    (each : EachAbove P stack) : EachAbove Q stack := by
  induction stack with
  | nil => trivial
  | cons frame rest ih =>
      refine ⟨implies rest frame List.mem_cons_self each.1, ih ?_ each.2⟩
      intro below other member
      exact implies below other (List.mem_cons_of_mem _ member)

/-- At most one frame takes the place of the innermost one. -/
theorem EachAbove.replace {Frame : Type} {P : List Frame → Frame → Prop}
    {replacing rest : List Frame} (single : replacing.length ≤ 1)
    (added : ∀ frame ∈ replacing, P rest frame) (below : EachAbove P rest) :
    EachAbove P (replacing ++ rest) := by
  cases replacing with
  | nil => exact below
  | cons frame others =>
      have none : others = [] := by
        rw [List.length_cons] at single
        exact List.eq_nil_of_length_eq_zero (by omega)
      subst none
      exact ⟨added frame List.mem_cons_self, below⟩

theorem EachAbove.of_mem {Frame : Type} {P : List Frame → Frame → Prop} {stack : List Frame}
    (each : EachAbove P stack) {frame : Frame} (member : frame ∈ stack) :
    ∃ below, P below frame := by
  induction stack with
  | nil => cases member
  | cons top rest ih =>
      rcases List.mem_cons.mp member with rfl | under
      · exact ⟨rest, each.1⟩
      · exact ih each.2 under

end Conclave.Lib
