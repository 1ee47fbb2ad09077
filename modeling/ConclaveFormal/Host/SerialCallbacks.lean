import ConclaveFormal.Host.CallbackSteps

/-!
# Serial callbacks

The sealed state is sent under the lock of the enclave, so that callbacks that are invoked with it
are serial.  The others are if the threads never have commands outstanding at the same time.
-/

set_option autoImplicit false

namespace Conclave.Host.CommandsCallback

open Conclave.Lib

variable {Thread Place : Type} [DecidableEq Thread]

/-! ## The order of the mail -/

/-- Mail that waits comes behind all that has been handed over, and the mail of one place waits on
one thread only. -/
structure Ordered (state : State Thread Place) : Prop where
  handedOver : state.handedOver.Pairwise InOrder
  waiting : ∀ thread, (state.handedOver ++ state.mails thread).Pairwise InOrder
  places : ∀ first second, ∀ mail ∈ state.mails first, ∀ other ∈ state.mails second,
    mail.place = other.place → first = second
  posted : ∀ thread, ∀ mail ∈ state.handedOver ++ state.mails thread, mail ∈ state.posted

namespace Ordered

variable {state next : State Thread Place} {thread : Thread}

omit [DecidableEq Thread] in
theorem of_same (ordered : Ordered state) (mails : next.mails = state.mails)
    (posted : next.posted = state.posted) (handedOver : next.handedOver = state.handedOver) :
    Ordered next := by
  constructor
  · rw [handedOver]
    exact ordered.handedOver
  · rw [handedOver, mails]
    exact ordered.waiting
  · rw [mails]
    exact ordered.places
  · rw [handedOver, mails, posted]
    exact ordered.posted

theorem mails_onMail (mail : Option (NumberedMail Place)) :
    (state.onMail thread mail).mails =
      Function.update state.mails thread (state.mails thread ++ mail.toList) := by
  funext other
  by_cases same : other = thread
  · subst same
    cases mail <;>
      simp [State.mails, State.onMail, State.addMailCommand, List.filterMap_append,
        MailCommand.numbered]
  · simp [State.mails, State.onMail, State.addMailCommand, same]

theorem mails_fireMailCommands :
    (state.fireMailCommands thread).mails = Function.update state.mails thread [] := by
  funext other
  by_cases same : other = thread
  · subst same
    simp [State.mails, State.fireMailCommands]
  · simp [State.mails, State.fireMailCommands, same]

theorem mails_storeSealedState :
    (state.addMailCommand thread .storeSealedState).mails = state.mails := by
  funext other
  by_cases same : other = thread
  · subst same
    simp [State.mails, State.addMailCommand, List.filterMap_append, MailCommand.numbered]
  · simp [State.mails, State.addMailCommand, same]

theorem posts_none (ordered : Ordered state) : Ordered (state.onMail thread none) := by
  apply ordered.of_same
  · rw [mails_onMail, Option.toList_none, List.append_nil, Function.update_eq_self]
  · exact List.append_nil _
  · rfl

theorem posts_some {mail : NumberedMail Place} (ordered : Ordered state)
    (condition : Next state thread mail) : Ordered (state.onMail thread (some mail)) := by
  obtain ⟨last, alone⟩ := condition
  have mails := @mails_onMail _ _ _ state thread (some mail)
  have here : (state.onMail thread (some mail)).mails thread = state.mails thread ++ [mail] := by
    rw [mails, Function.update_self]
    rfl
  have there : ∀ other, other ≠ thread →
      (state.onMail thread (some mail)).mails other = state.mails other := by
    intro other different
    rw [mails, Function.update_of_ne different]
  have elsewhere : ∀ other, other ≠ thread →
      ∀ waiting ∈ state.mails other, ∀ own ∈ state.mails thread ++ [mail],
        own.place ≠ waiting.place := by
    intro other different waiting member own ownMember same
    rcases List.mem_append.mp ownMember with before | new
    · exact different (ordered.places thread other own before waiting member same).symm
    · rw [List.mem_singleton.mp new] at same
      exact alone other different waiting member same.symm
  constructor
  · exact ordered.handedOver
  · intro other
    by_cases own : other = thread
    · rw [own, here, ← List.append_assoc]
      refine List.pairwise_append.mpr ⟨ordered.waiting thread, List.pairwise_singleton _ _, ?_⟩
      intro earlier member later new
      rw [List.mem_singleton.mp new]
      exact last earlier (ordered.posted thread earlier member)
    · rw [there other own]
      exact ordered.waiting other
  · intro first second
    by_cases one : first = thread
    · by_cases two : second = thread
      · intro _ _ _ _ _
        rw [one, two]
      · rw [one, here, there second two]
        intro own ownMember waiting member same
        exact absurd same (elsewhere second two waiting member own ownMember)
    · by_cases two : second = thread
      · rw [two, here, there first one]
        intro waiting member own ownMember same
        exact absurd same.symm (elsewhere first one waiting member own ownMember)
      · rw [there first one, there second two]
        exact ordered.places first second
  · intro other mailOf member
    by_cases own : other = thread
    · rw [own, here, ← List.append_assoc] at member
      rcases List.mem_append.mp member with before | new
      · exact List.mem_append_left _ (ordered.posted thread mailOf before)
      · exact List.mem_append_right _ new
    · rw [there other own] at member
      exact List.mem_append_left _ (ordered.posted other mailOf member)

theorem fires (ordered : Ordered state) : Ordered (state.fireMailCommands thread) := by
  have here : (state.fireMailCommands thread).mails thread = [] := by
    rw [mails_fireMailCommands, Function.update_self]
  have there : ∀ other, other ≠ thread →
      (state.fireMailCommands thread).mails other = state.mails other := by
    intro other different
    rw [mails_fireMailCommands, Function.update_of_ne different]
  have sublist : ∀ other, (state.fireMailCommands thread).mails other ⊆ state.mails other := by
    intro other
    by_cases own : other = thread
    · rw [own, here]
      exact List.nil_subset _
    · rw [there other own]
      exact List.Subset.refl _
  have whole : (state.fireMailCommands thread).handedOver =
      state.handedOver ++ state.mails thread := rfl
  constructor
  · exact ordered.waiting thread
  · intro other
    by_cases own : other = thread
    · rw [own, here, List.append_nil]
      exact ordered.waiting thread
    · obtain ⟨-, waits, behind⟩ := List.pairwise_append.mp (ordered.waiting other)
      rw [there other own, whole]
      refine List.pairwise_append.mpr ⟨ordered.waiting thread, waits, ?_⟩
      intro earlier member later waiting same
      rcases List.mem_append.mp member with handed | now
      · exact behind earlier handed later waiting same
      · exact absurd (ordered.places thread other earlier now later waiting same).symm own
  · intro first second mail member other otherMember
    exact ordered.places first second mail (sublist first member) other (sublist second otherMember)
  · intro other mail member
    rcases List.mem_append.mp member with handed | waiting
    · exact ordered.posted thread mail handed
    · exact ordered.posted other mail (List.mem_append_right _ (sublist other waiting))

end Ordered

/-! ## One callback at a time -/

structure Sound (settings : EnclaveSettings) (state : State Thread Place) : Prop where
  layered : ∀ thread, Layered settings (state.calls thread)
  lock : (lockUse settings).Matches state.lock state.calls
  clear : settings.sendsSealedState = true → ∀ thread, Clear (state.calls thread) →
    state.mailCommands thread = []
  waiting : ∀ thread, state.mailCommands thread ≠ [] → .commandsCallback ∉ state.calls thread
  once : ∀ thread, (state.calls thread).count .commandsCallback ≤ 1
  apart : settings.sendsSealedState = false → ∀ first second, Outstanding state first →
    Outstanding state second → first = second

namespace Sound

variable {settings : EnclaveSettings} {state next : State Thread Place} {thread : Thread}

theorem initial : Sound settings (State.initial Thread Place) where
  layered _ := trivial
  lock _ := rfl
  clear _ _ _ := rfl
  waiting _ waits := absurd rfl waits
  once _ := Nat.zero_le 1
  apart := by
    rintro - first second (waits | member)
    · exact absurd rfl waits
    · cases member

theorem alone (sound : Sound settings state) {first second : Thread}
    (one : .commandsCallback ∈ state.calls first) (two : .commandsCallback ∈ state.calls second) :
    first = second := by
  cases seals : settings.sendsSealedState with
  | false => exact sound.apart seals first second (Or.inr one) (Or.inr two)
  | true =>
      have holds : ∀ thread, .commandsCallback ∈ state.calls thread →
          0 < (lockUse settings).held (state.calls thread) := by
        intro thread member
        rw [held_eq]
        exact LockUse.count_pos (sealed_of_commandsCallback seals (sound.layered thread) member) rfl
      exact sound.lock.exclusive (holds first one) (holds second two)

theorem quiet {stack : List Frame} (sound : Sound settings state)
    (quiet : Quiet settings state next thread stack) :
    Sound settings (next.setStack thread stack) := by
  have calls : (next.setStack thread stack).calls = Function.update state.calls thread stack := by
    rw [← quiet.calls]
    rfl
  have commands : (next.setStack thread stack).mailCommands = state.mailCommands :=
    quiet.mailCommands
  have shift : ∀ other,
      Shift settings (state.calls other) ((next.setStack thread stack).calls other) := by
    intro other
    rw [calls]
    by_cases same : other = thread
    · rw [same, Function.update_self]
      exact quiet.shift
    · rw [Function.update_of_ne same]
      exact .refl (sound.layered other)
  have outstanding : ∀ other, Outstanding (next.setStack thread stack) other →
      Outstanding state other := by
    rintro other (waits | member)
    · rw [commands] at waits
      exact Or.inl waits
    · exact Or.inr ((shift other).callback member)
  constructor
  · exact fun other => (shift other).layered
  · rw [calls]
    exact quiet.lock
  · rw [commands]
    exact fun seals other clear => sound.clear seals other ((shift other).clear seals clear)
  · rw [commands]
    exact fun other waits member => sound.waiting other waits ((shift other).callback member)
  · exact fun other => Nat.le_trans (shift other).fewer (sound.once other)
  · exact fun unsealed first second one two =>
      sound.apart unsealed first second (outstanding first one) (outstanding second two)

theorem posts {mail : Option (NumberedMail Place)} (sound : Sound settings state)
    (runs : enclaveRuns (state.calls thread) = true)
    (outside : .commandsCallback ∉ state.calls thread)
    (others : settings.sendsSealedState = false →
      ∀ other, other ≠ thread → ¬Outstanding state other) :
    Sound settings (state.onMail thread mail) := by
  have there : ∀ other, other ≠ thread →
      (state.onMail thread mail).mailCommands other = state.mailCommands other :=
    fun other different => Function.update_of_ne different _ _
  refine ⟨sound.layered, sound.lock, ?_, ?_, sound.once, ?_⟩
  · intro seals other clear
    by_cases same : other = thread
    · rw [same] at clear
      exact absurd clear (not_clear_of_enclaveRuns (sound.layered thread) runs outside)
    · rw [there other same]
      exact sound.clear seals other clear
  · intro other waits
    by_cases same : other = thread
    · rw [same]
      exact outside
    · rw [there other same] at waits
      exact sound.waiting other waits
  · intro unsealed first second one two
    have only : ∀ other, Outstanding (state.onMail thread mail) other → other = thread := by
      intro other outstanding
      by_contra different
      rw [Outstanding, there other different] at outstanding
      exact others unsealed other different outstanding
    rw [only first one, only second two]

/-- The commands of the thread go to the callback. -/
theorem fires {below : List Frame} (sound : Sound settings state) (lock : next.lock = state.lock)
    (calls : next.calls = Function.update state.calls thread (.commandsCallback :: below))
    (commands : next.mailCommands = Function.update state.mailCommands thread [])
    (layered : Layered settings (.commandsCallback :: below))
    (held : (lockUse settings).count (.commandsCallback :: below) =
      (lockUse settings).count (state.calls thread))
    (outside : .commandsCallback ∉ below)
    (outstanding : settings.sendsSealedState = false → Outstanding state thread) :
    Sound settings next := by
  have here : next.calls thread = .commandsCallback :: below ∧ next.mailCommands thread = [] := by
    rw [calls, commands, Function.update_self, Function.update_self]
    exact ⟨rfl, rfl⟩
  have there : ∀ other, other ≠ thread → next.calls other = state.calls other ∧
      next.mailCommands other = state.mailCommands other := by
    intro other different
    rw [calls, commands, Function.update_of_ne different, Function.update_of_ne different]
    exact ⟨rfl, rfl⟩
  constructor
  · intro other
    by_cases same : other = thread
    · rw [same, here.1]
      exact layered
    · rw [(there other same).1]
      exact sound.layered other
  · rw [lock, calls]
    apply sound.lock.keep
    rw [held_eq, held_eq, held]
  · intro seals other clear
    by_cases same : other = thread
    · rw [same, here.2]
    · rw [(there other same).1] at clear
      rw [(there other same).2]
      exact sound.clear seals other clear
  · intro other waits
    by_cases same : other = thread
    · rw [same, here.2] at waits
      exact absurd rfl waits
    · rw [(there other same).2] at waits
      rw [(there other same).1]
      exact sound.waiting other waits
  · intro other
    by_cases same : other = thread
    · rw [same, here.1]
      exact Nat.le_of_eq (by rw [List.count_cons_self, List.count_eq_zero.mpr outside])
    · rw [(there other same).1]
      exact sound.once other
  · intro unsealed first second one two
    have before : ∀ other, Outstanding next other → Outstanding state other := by
      intro other now
      by_cases same : other = thread
      · rw [same]
        exact outstanding unsealed
      · rw [Outstanding, (there other same).1, (there other same).2] at now
        exact now
    exact sound.apart unsealed first second (before first one) (before second two)

end Sound

/-! ## All runs -/

section Runs

variable {settings : EnclaveSettings} {state next : State Thread Place} {thread : Thread}

/-- All that is known of the states. -/
structure Sane (settings : EnclaveSettings) (state : State Thread Place) : Prop where
  sound : Sound settings state
  ordered : Ordered state

theorem sane_initial : Sane settings (State.initial Thread Place) := by
  refine ⟨.initial, .nil, fun _ => .nil, ?_, ?_⟩
  · intro first second mail member
    cases member
  · intro thread mail member
    cases member

theorem Sane.serial (sane : Sane settings state) : Serial state where
  alone _ _ one two := sane.sound.alone one two
  once := sane.sound.once
  inOrder := sane.ordered.handedOver

/-- The sealed state is sent, and the callback is invoked with all that the thread has. -/
theorem Sane.seals {rest : List Frame} (sane : Sane settings state)
    (top : state.calls thread = .receive .sealing :: rest)
    (separate : .commandsCallback ∉ state.calls thread) :
    Sane settings ((state.onSealedState thread).setStack thread
      (.commandsCallback :: .receive .sealed :: rest)) := by
  have layered := sane.sound.layered thread
  rw [top] at layered separate
  have sends : settings.sendsSealedState = true := layered.1.2
  have below : .commandsCallback ∉ Frame.receive .sealed :: rest := by
    intro member
    rcases List.mem_cons.mp member with same | under
    · cases same
    · exact separate (List.mem_cons_of_mem _ under)
  have on : Layered settings (.commandsCallback :: .receive .sealed :: rest) := by
    refine ⟨?_, ⟨layered.1.1, sends⟩, layered.2⟩
    rw [layer, if_pos sends]
    exact ⟨rest, rfl⟩
  have emptied : ((state.onSealedState thread).setStack thread
      (.commandsCallback :: .receive .sealed :: rest)).mailCommands =
        Function.update state.mailCommands thread [] :=
    Function.update_idem _ _ _
  refine ⟨sane.sound.fires rfl rfl emptied on ?_ below ?_, ?_⟩
  · rw [top]
    rfl
  · intro unsealed
    rw [unsealed] at sends
    cases sends
  · have added : Ordered (state.addMailCommand thread .storeSealedState) :=
      sane.ordered.of_same Ordered.mails_storeSealedState rfl rfl
    have fired := @Ordered.fires _ _ _ _ thread added
    exact fired.of_same rfl rfl rfl

/-- If the enclave sends sealed states, then nothing is left for the end of the call. -/
theorem Sane.ends {rest : List Frame} (sane : Sane settings state)
    (top : state.calls thread = .unwinding :: rest) (unwound : fullyUnwound rest = true)
    (waiting : state.mailCommands thread ≠ []) :
    Sane settings
      ((state.fireMailCommands thread).setStack thread (.commandsCallback :: rest)) := by
  have layered := sane.sound.layered thread
  have outside := sane.sound.waiting thread waiting
  rw [top] at layered outside
  have unsealed : settings.sendsSealedState = false := by
    by_contra seals
    rw [Bool.not_eq_false] at seals
    exact waiting (sane.sound.clear seals thread (Or.inr ⟨rest, top, unwound⟩))
  have on : Layered settings (.commandsCallback :: rest) := by
    refine ⟨?_, layered.2⟩
    rw [layer, if_neg (by rw [unsealed]; exact Bool.false_ne_true)]
    exact layered.1
  refine ⟨sane.sound.fires rfl rfl rfl on ?_ ?_ fun _ => Or.inl waiting, ?_⟩
  · rw [top]
    rfl
  · exact fun member => outside (List.mem_cons_of_mem _ member)
  · have fired := @Ordered.fires _ _ _ _ thread sane.ordered
    exact fired.of_same rfl rfl rfl

theorem sane_effect {action : Action Place} (sane : Sane settings state)
    (separate : Separate settings state (thread, action))
    (effect : Effect settings state thread action next) : Sane settings next := by
  cases effect with
  | quiet quiet =>
      refine ⟨sane.sound.quiet quiet, sane.ordered.of_same ?_ quiet.posted quiet.handedOver⟩
      funext other
      exact congrArg (fun commands => (commands other).filterMap MailCommand.numbered)
        quiet.mailCommands
  | @posts mail runs =>
      obtain ⟨outside, others, last⟩ := separate
      refine ⟨sane.sound.posts runs outside others, ?_⟩
      cases mail with
      | none => exact sane.ordered.posts_none
      | some numbered => exact sane.ordered.posts_some (last numbered rfl)
  | seals top => exact sane.seals top (separate (by rw [top]; rfl))
  | ends top unwound waiting => exact sane.ends top unwound waiting

variable [DecidableEq Place]

theorem sane_step {input : Thread × Action Place} (sane : Sane settings state)
    (separate : Separate settings state input) (stepped : step settings state input = some next) :
    Sane settings next := by
  obtain ⟨thread, action⟩ := input
  exact sane_effect sane separate
    (effect_step sane.sound.lock (sane.sound.layered thread) stepped)

/-- The callback is invoked serially and in order as long as the host and the enclave keep the
commands of different calls separate. -/
theorem always_serial {inputs : List (Thread × Action Place)}
    (separate : Meets (step settings) (Separate settings) (State.initial Thread Place) inputs) :
    Always (step settings) Serial (State.initial Thread Place) inputs :=
  always_of_meets (fun sane here stepped => sane_step sane here stepped)
    (fun sane => sane.serial) sane_initial separate

end Runs

/-! ### Two threads, and the mail of one place -/

namespace Example

def withPersistentMap : EnclaveSettings := ⟨true, false⟩

def withoutPersistentMap : EnclaveSettings := ⟨false, false⟩

/-- The enclave posts mail with this number and returns. -/
def receives (thread : Bool) (sequenceNumber : Nat) : List (Bool × Action Unit) :=
  [(thread, .callEnclave), (thread, .advance true), (thread, .advance true),
    (thread, .encryptMail ()), (thread, .postMail (some ⟨(), sequenceNumber⟩)),
    (thread, .finish true)]

/-- The callback is invoked with the sealed state and returns, and so does the call. -/
def seals (thread : Bool) : List (Bool × Action Unit) :=
  [(thread, .advance true), (thread, .finish true), (thread, .advance true),
    (thread, .advance true)]

def oneAfterTheOther : List (Bool × Action Unit) :=
  receives false 0 ++ seals false ++ receives true 1 ++ seals true

/-- The first thread has let go of the lock, and the second one overtakes it. -/
def overtaking : List (Bool × Action Unit) :=
  receives false 0 ++ receives true 1 ++ [(true, .advance true), (false, .advance true)]

end Example

open Example in
theorem always_serial_oneAfterTheOther :
    ∃ final, run (step withPersistentMap) (State.initial Bool Unit) oneAfterTheOther =
        some final ∧ final.handedOver = [⟨(), 0⟩, ⟨(), 1⟩] ∧ Serial final := by
  have observed : (run (step withPersistentMap) (State.initial Bool Unit) oneAfterTheOther).map
      State.handedOver = some [⟨(), 0⟩, ⟨(), 1⟩] := by decide +kernel
  obtain ⟨final, ran, handedOver⟩ := Option.map_eq_some_iff.mp observed
  have separate : Meets (step withPersistentMap) (Separate withPersistentMap)
      (State.initial Bool Unit) oneAfterTheOther := by decide +kernel
  exact ⟨final, ran, handedOver,
    always_serial separate oneAfterTheOther [] final (List.append_nil _).symm ran⟩

open Example in
theorem mail_overtaken :
    ¬∀ (settings : EnclaveSettings) (inputs : List (Bool × Action Unit)),
      Always (step settings) Serial (State.initial Bool Unit) inputs := by
  intro holds
  have observed : (run (step withoutPersistentMap) (State.initial Bool Unit) overtaking).map
      State.handedOver = some [⟨(), 1⟩, ⟨(), 0⟩] := by decide +kernel
  obtain ⟨final, ran, handedOver⟩ := Option.map_eq_some_iff.mp observed
  have serial : Serial final :=
    holds withoutPersistentMap overtaking overtaking [] final (List.append_nil _).symm ran
  have inOrder := serial.inOrder
  rw [handedOver] at inOrder
  have wrong := (List.pairwise_cons.mp inOrder).1 ⟨(), 0⟩ List.mem_cons_self rfl
  exact absurd wrong (by decide)

end Conclave.Host.CommandsCallback
