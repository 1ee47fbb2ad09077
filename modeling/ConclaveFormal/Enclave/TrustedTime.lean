import ConclaveFormal.Lib.Transition
import Mathlib.Data.UInt
import Mathlib.Logic.Function.Basic

/-!
# The time that the host provides

The host writes its time into memory that the enclave reads at any moment.  A call of `real_time`
reads it without a lock and then, under the lock, moves the last time on: to the host's time where
that is later, and by a microsecond where it is not.
-/

set_option autoImplicit false

namespace Conclave.Enclave.TrustedTime

open Conclave.Lib

/-! ## A call of `real_time` -/

def ONE_USEC : UInt64 := 1000

def nullptr : UInt64 := 0

inductive Phase where
  | idle
  | initialising
  | locking
  | asking
  | reading
  | entering (local_real_time : UInt64)
  | entered (local_real_time : UInt64)
  | comparing (local_real_time local_last_time : UInt64)
  deriving DecidableEq, Repr

/-- The call has the spinlock. -/
def Phase.isLocked : Phase → Bool
  | asking | entered _ | comparing _ _ => true
  | _ => false

def nextTime (local_real_time local_last_time : UInt64) : UInt64 :=
  if local_real_time > local_last_time then local_real_time
  else local_last_time + ONE_USEC

section State

variable (Thread : Type)

/-- `memory` is the host's, with the field `real_time` of the structure at each address.  `returned`
is for the proofs only. -/
structure EnclaveSharedData where
  shared_data_ : UInt64
  last_time_ : UInt64
  spinlock_ : Option Thread
  calls : Thread → Phase
  memory : UInt64 → UInt64
  aborted : Bool
  returned : List UInt64

def EnclaveSharedData.new (memory : UInt64 → UInt64) : EnclaveSharedData Thread where
  shared_data_ := nullptr
  last_time_ := 0
  spinlock_ := none
  calls := fun _ => .idle
  memory := memory
  aborted := false
  returned := []

/-- What the host does and the parts of a call of `real_time`, each of which is atomic. -/
inductive Action where
  | hostWrites (address real_time : UInt64)
  | real_time (thread : Thread)
  | loadPointer (thread : Thread)
  | lockInit (thread : Thread)
  | shared_data_ocall (thread : Thread) (success : Bool) (p : UInt64)
  | getSharedData (thread : Thread)
  | lock (thread : Thread)
  | loadLastTime (thread : Thread)
  | storeLastTime (thread : Thread)
  deriving DecidableEq, Repr

end State

variable {Thread : Type} [DecidableEq Thread]

namespace EnclaveSharedData

variable (state : EnclaveSharedData Thread)

def goesTo (thread : Thread) (phase : Phase) : EnclaveSharedData Thread :=
  { state with calls := Function.update state.calls thread phase }

def acquires (thread : Thread) (phase : Phase) : EnclaveSharedData Thread :=
  { state.goesTo thread phase with spinlock_ := some thread }

def releases (thread : Thread) (phase : Phase) : EnclaveSharedData Thread :=
  { state.goesTo thread phase with spinlock_ := none }

def abort : EnclaveSharedData Thread := { state with aborted := true }

/-- The host's answer to the call out of the enclave.  Where it fails, `jni_throw` leaves the
pointer null. -/
def init (outside : UInt64 → Bool) (thread : Thread) (success : Bool) (p : UInt64) :
    EnclaveSharedData Thread :=
  if success then
    if outside p then { state with shared_data_ := p }.releases thread .reading
    else state.abort
  else state.releases thread .reading

def store (thread : Thread) (local_last_time : UInt64) : EnclaveSharedData Thread :=
  { state.releases thread .idle with
    last_time_ := local_last_time
    returned := state.returned ++ [local_last_time] }

end EnclaveSharedData

/-- `outside` is `sgx_is_outside_enclave` of a structure at the address.  The result is `none` where
the thread is not at that place, waits for the lock, or the enclave has aborted. -/
def step (outside : UInt64 → Bool) (state : EnclaveSharedData Thread) :
    Action Thread → Option (EnclaveSharedData Thread)
  | .hostWrites address real_time =>
      some { state with memory := Function.update state.memory address real_time }
  | .real_time thread =>
      if state.aborted = false ∧ state.calls thread = .idle then
        some (state.goesTo thread .initialising)
      else none
  | .loadPointer thread =>
      if state.aborted = false ∧ state.calls thread = .initialising then
        some (state.goesTo thread (if state.shared_data_ = nullptr then .locking else .reading))
      else none
  | .lockInit thread =>
      if state.aborted = false ∧ state.calls thread = .locking ∧ state.spinlock_ = none then
        some (if state.shared_data_ = nullptr then state.acquires thread .asking
          else state.goesTo thread .reading)
      else none
  | .shared_data_ocall thread success p =>
      if state.aborted = false ∧ state.calls thread = .asking then
        some (state.init outside thread success p)
      else none
  | .getSharedData thread =>
      if state.aborted = false ∧ state.calls thread = .reading then
        some (if state.shared_data_ = nullptr ∨ outside state.shared_data_ = false then state.abort
          else state.goesTo thread (.entering (state.memory state.shared_data_)))
      else none
  | .lock thread =>
      match state.calls thread with
      | .entering local_real_time =>
          if state.aborted = false ∧ state.spinlock_ = none then
            some (state.acquires thread (.entered local_real_time))
          else none
      | _ => none
  | .loadLastTime thread =>
      match state.calls thread with
      | .entered local_real_time =>
          if state.aborted = false then
            some (state.goesTo thread (.comparing local_real_time state.last_time_))
          else none
      | _ => none
  | .storeLastTime thread =>
      match state.calls thread with
      | .comparing local_real_time local_last_time =>
          if state.aborted = false then
            some (state.store thread (nextTime local_real_time local_last_time))
          else none
      | _ => none

/-! ## What the lock keeps -/

/-- Each call returned a later time than the ones before it. -/
def StrictlyIncreasing (state : EnclaveSharedData Thread) : Prop :=
  state.returned.Pairwise (· < ·)

/-- The last time is not moved on by a microsecond beyond the largest number. -/
def StaysBelow (state : EnclaveSharedData Thread) : Action Thread → Prop
  | .storeLastTime thread => ∀ local_real_time local_last_time,
      state.calls thread = .comparing local_real_time local_last_time →
        local_real_time ≤ local_last_time →
          local_last_time.toNat + ONE_USEC.toNat < UInt64.size
  | _ => True

/-- A thread that compares times has the lock, so that no other one moves the last time on. -/
structure Sound (state : EnclaveSharedData Thread) : Prop where
  locked : ∀ thread, (state.calls thread).isLocked = true → state.spinlock_ = some thread
  loaded : ∀ thread local_real_time local_last_time,
    state.calls thread = .comparing local_real_time local_last_time →
      local_last_time = state.last_time_
  latest : state.returned = [] ∧ state.last_time_ = 0 ∨
    state.returned.getLast? = some state.last_time_

variable {outside : UInt64 → Bool} {state next : EnclaveSharedData Thread} {thread : Thread}
  {phase : Phase}

omit [DecidableEq Thread] in
theorem Sound.new (memory : UInt64 → UInt64) : Sound (EnclaveSharedData.new Thread memory) where
  locked thread held := by cases held
  loaded thread local_real_time local_last_time compares := by cases compares
  latest := Or.inl ⟨rfl, rfl⟩

/-- A thread goes on with the lock if it has it, and without it if it does not. -/
theorem Sound.goesTo (sound : Sound state) (same : phase.isLocked = (state.calls thread).isLocked)
    (loaded : ∀ local_real_time local_last_time,
      phase = .comparing local_real_time local_last_time → local_last_time = state.last_time_) :
    Sound (state.goesTo thread phase) where
  locked other held := by
    simp only [EnclaveSharedData.goesTo] at held ⊢
    by_cases here : other = thread
    · subst here
      rw [Function.update_self, same] at held
      exact sound.locked other held
    · rw [Function.update_of_ne here] at held
      exact sound.locked other held
  loaded other local_real_time local_last_time compares := by
    simp only [EnclaveSharedData.goesTo] at compares ⊢
    by_cases here : other = thread
    · subst here
      rw [Function.update_self] at compares
      exact loaded local_real_time local_last_time compares
    · rw [Function.update_of_ne here] at compares
      exact sound.loaded other local_real_time local_last_time compares
  latest := sound.latest

theorem Sound.acquires (sound : Sound state) (free : state.spinlock_ = none)
    (loaded : ∀ local_real_time local_last_time,
      phase ≠ .comparing local_real_time local_last_time) :
    Sound (state.acquires thread phase) where
  locked other held := by
    by_cases here : other = thread
    · rw [here]
      rfl
    · simp only [EnclaveSharedData.acquires, EnclaveSharedData.goesTo,
        Function.update_of_ne here] at held
      have taken := sound.locked other held
      rw [free] at taken
      cases taken
  loaded other local_real_time local_last_time compares := by
    simp only [EnclaveSharedData.acquires, EnclaveSharedData.goesTo] at compares ⊢
    by_cases here : other = thread
    · subst here
      rw [Function.update_self] at compares
      exact absurd compares (loaded local_real_time local_last_time)
    · rw [Function.update_of_ne here] at compares
      exact sound.loaded other local_real_time local_last_time compares
  latest := sound.latest

/-- When the thread with the lock gives it back, no other one is in its part of the code. -/
theorem Sound.unlocked (sound : Sound state) (held : (state.calls thread).isLocked = true)
    (unlocks : phase.isLocked = false) (other : Thread) :
    ((state.releases thread phase).calls other).isLocked = false := by
  simp only [EnclaveSharedData.releases, EnclaveSharedData.goesTo]
  by_cases here : other = thread
  · rw [here, Function.update_self]
    exact unlocks
  · rw [Function.update_of_ne here, ← Bool.not_eq_true]
    intro also
    have taken := (sound.locked other also).symm.trans (sound.locked thread held)
    exact here (Option.some.inj taken)

omit [DecidableEq Thread] in
theorem Sound.of_unlocked (unlocked : ∀ thread, (state.calls thread).isLocked = false)
    (latest : state.returned = [] ∧ state.last_time_ = 0 ∨
      state.returned.getLast? = some state.last_time_) : Sound state where
  locked thread held := by
    rw [unlocked thread] at held
    cases held
  loaded thread local_real_time local_last_time compares := by
    have free := unlocked thread
    rw [compares] at free
    cases free
  latest := latest

theorem Sound.releases (sound : Sound state) (held : (state.calls thread).isLocked = true)
    (unlocks : phase.isLocked = false) : Sound (state.releases thread phase) :=
  .of_unlocked (sound.unlocked held unlocks) sound.latest

theorem Sound.store (sound : Sound state) (held : (state.calls thread).isLocked = true)
    (local_last_time : UInt64) : Sound (state.store thread local_last_time) :=
  .of_unlocked (sound.unlocked held rfl) (Or.inr List.getLast?_concat)

/-! ## One step -/

theorem Sound.init (sound : Sound state) (asking : state.calls thread = .asking)
    (success : Bool) (p : UInt64) : Sound (state.init outside thread success p) := by
  have held : (state.calls thread).isLocked = true := by
    rw [asking]
    rfl
  unfold EnclaveSharedData.init
  split_ifs
  · have known : Sound { state with shared_data_ := p } :=
      ⟨sound.locked, sound.loaded, sound.latest⟩
    exact known.releases held rfl
  · exact ⟨sound.locked, sound.loaded, sound.latest⟩
  · exact sound.releases held rfl

theorem Sound.preserved (sound : Sound state) {action : Action Thread}
    (stepped : step outside state action = some next) : Sound next := by
  have elsewhere {phase : Phase} (differs : ∀ local_real_time local_last_time,
      phase ≠ .comparing local_real_time local_last_time) :
      ∀ local_real_time local_last_time,
        phase = .comparing local_real_time local_last_time → local_last_time = state.last_time_ :=
    fun local_real_time local_last_time same =>
      absurd same (differs local_real_time local_last_time)
  cases action with
  | hostWrites address real_time =>
      cases stepped
      exact ⟨sound.locked, sound.loaded, sound.latest⟩
  | real_time thread =>
      obtain ⟨⟨-, idle⟩, stepped⟩ := Option.ite_none_right_eq_some.mp stepped
      cases stepped
      exact sound.goesTo (by rw [idle]; rfl) (elsewhere (by simp))
  | loadPointer thread =>
      obtain ⟨⟨-, initialising⟩, stepped⟩ := Option.ite_none_right_eq_some.mp stepped
      cases stepped
      split_ifs
      · exact sound.goesTo (by rw [initialising]; rfl) (elsewhere (by simp))
      · exact sound.goesTo (by rw [initialising]; rfl) (elsewhere (by simp))
  | lockInit thread =>
      obtain ⟨⟨-, locking, free⟩, stepped⟩ := Option.ite_none_right_eq_some.mp stepped
      cases stepped
      split_ifs
      · exact sound.acquires free (by simp)
      · exact sound.goesTo (by rw [locking]; rfl) (elsewhere (by simp))
  | shared_data_ocall thread success p =>
      obtain ⟨⟨-, asking⟩, stepped⟩ := Option.ite_none_right_eq_some.mp stepped
      cases stepped
      exact sound.init asking success p
  | getSharedData thread =>
      obtain ⟨⟨-, reading⟩, stepped⟩ := Option.ite_none_right_eq_some.mp stepped
      cases stepped
      split_ifs
      · exact ⟨sound.locked, sound.loaded, sound.latest⟩
      · exact sound.goesTo (by rw [reading]; rfl) (elsewhere (by simp))
  | lock thread =>
      rw [step] at stepped
      split at stepped
      · obtain ⟨⟨-, free⟩, stepped⟩ := Option.ite_none_right_eq_some.mp stepped
        cases stepped
        exact sound.acquires free (by simp)
      · cases stepped
  | loadLastTime thread =>
      rw [step] at stepped
      split at stepped
      · rename_i local_real_time entered
        obtain ⟨-, stepped⟩ := Option.ite_none_right_eq_some.mp stepped
        cases stepped
        refine sound.goesTo (by rw [entered]; rfl) ?_
        rintro _ _ same
        cases same
        rfl
      · cases stepped
  | storeLastTime thread =>
      rw [step] at stepped
      split at stepped
      · rename_i local_real_time local_last_time comparing
        obtain ⟨-, stepped⟩ := Option.ite_none_right_eq_some.mp stepped
        cases stepped
        exact sound.store (by rw [comparing]; rfl) _
      · cases stepped

/-- Only the last part of a call adds to what has been returned. -/
theorem returned_of_step {action : Action Thread}
    (stepped : step outside state action = some next) :
    next.returned = state.returned ∧ StaysBelow state action ∨
      ∃ thread local_real_time local_last_time, action = .storeLastTime thread ∧
        state.calls thread = .comparing local_real_time local_last_time ∧
        next = state.store thread (nextTime local_real_time local_last_time) := by
  cases action with
  | storeLastTime thread =>
      rw [step] at stepped
      split at stepped
      · rename_i local_real_time local_last_time comparing
        obtain ⟨-, stepped⟩ := Option.ite_none_right_eq_some.mp stepped
        cases stepped
        exact Or.inr ⟨thread, local_real_time, local_last_time, rfl, comparing, rfl⟩
      · cases stepped
  | hostWrites address real_time =>
      cases stepped
      exact Or.inl ⟨rfl, trivial⟩
  | real_time thread =>
      obtain ⟨-, stepped⟩ := Option.ite_none_right_eq_some.mp stepped
      cases stepped
      exact Or.inl ⟨rfl, trivial⟩
  | loadPointer thread =>
      obtain ⟨-, stepped⟩ := Option.ite_none_right_eq_some.mp stepped
      cases stepped
      exact Or.inl ⟨rfl, trivial⟩
  | lockInit thread =>
      obtain ⟨-, stepped⟩ := Option.ite_none_right_eq_some.mp stepped
      cases stepped
      refine Or.inl ⟨?_, trivial⟩
      split_ifs <;> rfl
  | shared_data_ocall thread success p =>
      obtain ⟨-, stepped⟩ := Option.ite_none_right_eq_some.mp stepped
      cases stepped
      refine Or.inl ⟨?_, trivial⟩
      unfold EnclaveSharedData.init
      split_ifs <;> rfl
  | getSharedData thread =>
      obtain ⟨-, stepped⟩ := Option.ite_none_right_eq_some.mp stepped
      cases stepped
      refine Or.inl ⟨?_, trivial⟩
      split_ifs <;> rfl
  | lock thread =>
      rw [step] at stepped
      split at stepped
      · obtain ⟨-, stepped⟩ := Option.ite_none_right_eq_some.mp stepped
        cases stepped
        exact Or.inl ⟨rfl, trivial⟩
      · cases stepped
  | loadLastTime thread =>
      rw [step] at stepped
      split at stepped
      · obtain ⟨-, stepped⟩ := Option.ite_none_right_eq_some.mp stepped
        cases stepped
        exact Or.inl ⟨rfl, trivial⟩
      · cases stepped

/-! ## Times -/

theorem lt_nextTime_iff (local_real_time local_last_time : UInt64) :
    local_last_time < nextTime local_real_time local_last_time ↔
      (local_real_time ≤ local_last_time →
        local_last_time.toNat + ONE_USEC.toNat < UInt64.size) := by
  rw [nextTime]
  split_ifs with later
  · refine iff_of_true later ?_
    intro notLater
    exact absurd (UInt64.lt_of_lt_of_le later notLater) (UInt64.lt_irrefl _)
  · have notLater : local_real_time ≤ local_last_time := UInt64.not_lt.mp later
    have added : (local_last_time + ONE_USEC).toNat =
        (local_last_time.toNat + ONE_USEC.toNat) % UInt64.size := UInt64.toNat_add _ _
    have small : ONE_USEC.toNat = 1000 := rfl
    have bound : local_last_time.toNat < UInt64.size := UInt64.toNat_lt_size _
    have size : UInt64.size = 18446744073709551616 := rfl
    simp only [notLater, true_implies]
    rw [UInt64.lt_iff_toNat_lt, added, small, size]
    rw [size] at bound
    omega

/-- Against times that increase up to the last one, another one is later than all exactly if it is
later than that. -/
theorem pairwise_concat_iff {times : List UInt64} {last new : UInt64}
    (increasing : times.Pairwise (· < ·)) (latest : times.getLast? = some last) :
    (times ++ [new]).Pairwise (· < ·) ↔ last < new := by
  obtain ⟨earlier, rfl⟩ := List.getLast?_eq_some_iff.mp latest
  have before := (List.pairwise_append.mp increasing).2.2
  rw [List.pairwise_append]
  constructor
  · intro all
    exact all.2.2 last (by simp) new (by simp)
  · intro later
    refine ⟨increasing, List.pairwise_singleton _ _, ?_⟩
    intro time member other isNew
    rw [List.mem_singleton.mp isNew]
    rcases List.mem_append.mp member with old | same
    · exact UInt64.lt_trans (before time old last (by simp)) later
    · rw [List.mem_singleton.mp same]
      exact later

theorem Sound.staysBelow_iff (sound : Sound state)
    (increasing : StrictlyIncreasing state) {action : Action Thread}
    (stepped : step outside state action = some next) :
    StaysBelow state action ↔ StrictlyIncreasing next := by
  rcases returned_of_step stepped with ⟨same, below⟩ |
    ⟨thread, local_real_time, local_last_time, rfl, comparing, rfl⟩
  · refine iff_of_true below ?_
    rw [StrictlyIncreasing, same]
    exact increasing
  · have below : StaysBelow state (.storeLastTime thread) ↔
        local_last_time < nextTime local_real_time local_last_time := by
      rw [lt_nextTime_iff]
      constructor
      · intro holds
        exact holds local_real_time local_last_time comparing
      · intro holds real last also
        rw [comparing] at also
        cases also
        exact holds
    have current := sound.loaded thread local_real_time local_last_time comparing
    rw [below, StrictlyIncreasing, EnclaveSharedData.store]
    rcases sound.latest with ⟨none_returned, zero⟩ | latest
    · rw [none_returned]
      refine iff_of_true ?_ (List.pairwise_singleton _ _)
      rw [lt_nextTime_iff, current, zero]
      exact fun _ => by decide
    · rw [current]
      exact (pairwise_concat_iff increasing latest).symm

/-! ## Runs -/

/-- Whatever the host writes and however calls overlap, the times they return increase exactly as
long as no call moves the last time on by a microsecond beyond the largest number. -/
theorem strictlyIncreasing_iff (outside : UInt64 → Bool) (memory : UInt64 → UInt64)
    {actions : List (Action Thread)} {final : EnclaveSharedData Thread}
    (ran : run (step outside) (.new Thread memory) actions = some final) :
    Meets (step outside) StaysBelow (.new Thread memory) actions ↔
      Always (step outside) StrictlyIncreasing (.new Thread memory) actions := by
  have permitted : Meets (step outside) (fun _ _ => True) (EnclaveSharedData.new Thread memory)
      actions := .of_forall fun _ _ _ => trivial
  refine meets_iff_always ?_ ?_ (Sound.new memory) List.Pairwise.nil permitted ran
  · intro state action next sound _ stepped
    exact sound.preserved stepped
  · intro state action next sound _ increasing stepped
    exact sound.staysBelow_iff increasing stepped

def call (thread : Bool) : List (Action Bool) :=
  [.real_time thread, .loadPointer thread, .getSharedData thread, .lock thread,
    .loadLastTime thread, .storeLastTime thread]

/-- The first call of all, which asks for the host's memory. -/
def firstCall (thread : Bool) : List (Action Bool) :=
  [.real_time thread, .loadPointer thread, .lockInit thread, .shared_data_ocall thread true 4096,
    .getSharedData thread, .lock thread, .loadLastTime thread, .storeLastTime thread]

/-- One thread reads the host's time before the other one, and returns after it. -/
def overtaken : List (Action Bool) :=
  [.real_time false, .loadPointer false, .lockInit false, .shared_data_ocall false true 4096,
    .getSharedData false, .hostWrites 4096 7000] ++ call true ++
    [.lock false, .loadLastTime false, .storeLastTime false]

theorem strictlyIncreasing_overtaken :
    Always (step fun _ => true) StrictlyIncreasing (.new Bool fun _ => 5000) overtaken := by
  refine (strictlyIncreasing_iff _ _ rfl).mp ?_
  have stays {state : EnclaveSharedData Bool} {thread : Bool} {real last : UInt64}
      (comparing : state.calls thread = .comparing real last)
      (below : last.toNat + ONE_USEC.toNat < UInt64.size) :
      StaysBelow state (.storeLastTime thread) := by
    intro other otherLast also _
    rw [comparing] at also
    cases also
    exact below
  exact .cons trivial rfl (.cons trivial rfl (.cons trivial rfl (.cons trivial rfl
    (.cons trivial rfl (.cons trivial rfl (.cons trivial rfl (.cons trivial rfl
    (.cons trivial rfl (.cons trivial rfl (.cons trivial rfl (.cons (stays rfl (by decide)) rfl
    (.cons trivial rfl (.cons trivial rfl (.cons (stays rfl (by decide)) rfl trivial))))))))))))))

/-- The host leaves the largest number where its time is.  The first call returns it, and the second
one returns 999. -/
theorem time_goes_back :
    ¬∀ (outside : UInt64 → Bool) (memory : UInt64 → UInt64) (actions : List (Action Bool))
      (final : EnclaveSharedData Bool),
      run (step outside) (.new Bool memory) actions = some final → StrictlyIncreasing final := by
  intro stated
  have increasing := stated (fun _ => true) (fun _ => 18446744073709551615)
    (firstCall true ++ call true) _ rfl
  have returned : ([18446744073709551615, 999] : List UInt64).Pairwise (· < ·) := increasing
  revert returned
  decide

end Conclave.Enclave.TrustedTime
