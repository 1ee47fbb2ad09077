import ConclaveFormal.Host.EnclaveHostService

/-!
# First in, first out

The mail to a client is, from the oldest to the newest, with the client, in a thread local, in its
queue, or still in the transaction of one thread.  A client that makes one call at a time finds its
mail in order wherever every step keeps it so.
-/

set_option autoImplicit false

namespace Conclave.Host.EnclaveHostService

open Conclave.Lib

variable {Thread Hint Mail : Type}

/-! ## What a thread may be in -/

/-- A sealed state comes behind the mail. -/
def StoredLast (commands : List (MailCommand Hint Mail)) : Prop :=
  commands.Pairwise fun earlier _ => earlier ≠ .storeSealedState

theorem StoredLast.nothing_behind {rest : List (MailCommand Hint Mail)}
    (storedLast : StoredLast (.storeSealedState :: rest)) : rest = [] := by
  cases rest with
  | nil => rfl
  | cons command rest =>
      exact absurd rfl (List.rel_of_pairwise_cons storedLast List.mem_cons_self)

structure HostThread.WellFormed (thread : HostThread Hint Mail) : Prop where
  current : ∀ hint, thread.synchronousResponse = some (.routingHint hint) →
    thread.deliveries.head?.map Delivery.routingHint = some hint
  storedLast : ∀ delivery ∈ thread.deliveries, StoredLast delivery.phase.commands
  calls : ∀ delivery ∈ thread.deliveries.tail, delivery.phase.allowsCalls = true
  unsealed : .storeSealedState ∉ thread.mailCommands

section Commands

variable [DecidableEq Hint] {hint : Hint}

@[simp] theorem mailsTo_nil : mailsTo hint ([] : List (MailCommand Hint Mail)) = [] := rfl

@[simp] theorem mailsTo_append (first second : List (MailCommand Hint Mail)) :
    mailsTo hint (first ++ second) = mailsTo hint first ++ mailsTo hint second :=
  List.filterMap_append

@[simp] theorem mailsTo_storeSealedState (rest : List (MailCommand Hint Mail)) :
    mailsTo hint (.storeSealedState :: rest) = mailsTo hint rest := rfl

@[simp] theorem mailsTo_postMail (routingHint : Option Hint) (mail : Mail)
    (rest : List (MailCommand Hint Mail)) :
    mailsTo hint (.postMail routingHint mail :: rest) =
      (if routingHint = some hint then [mail] else []) ++ mailsTo hint rest := by
  by_cases own : routingHint = some hint
  · simp [mailsTo, own]
  · simp [mailsTo, own]

/-- Whoever can call from within a callback has left no mail in it. -/
theorem mailsTo_of_allowsCalls {phase : Phase Hint Mail} (allows : phase.allowsCalls = true)
    (storedLast : StoredLast phase.commands) : mailsTo hint phase.commands = [] := by
  match phase with
  | .intoEnclave => rfl
  | .firing (.storeSealedState :: rest) false =>
      rw [Phase.commands, StoredLast.nothing_behind storedLast]
      rfl
  | .firing [] _ | .firing (.postMail _ _ :: _) _ | .firing (.storeSealedState :: _) true =>
      cases allows

end Commands

theorem storedLast_of_unsealed {commands : List (MailCommand Hint Mail)}
    (unsealed : .storeSealedState ∉ commands) : StoredLast commands :=
  List.Pairwise.imp_mem.mpr (List.pairwise_of_forall fun _ _ member _ same =>
    unsealed (same ▸ member))

namespace HostThread.WellFormed

variable {thread : HostThread Hint Mail} {hint : Hint} {phase : Phase Hint Mail}
  {outer : List (Delivery Hint Mail)}

theorem deliverMail (wellFormed : thread.WellFormed)
    (allowed : thread.deliveries.head?.all (fun delivery => delivery.phase.allowsCalls) = true)
    (hint : Hint) :
    HostThread.WellFormed { thread with
      synchronousResponse := some (.routingHint hint)
      deliveries := ⟨hint, .intoEnclave⟩ :: thread.deliveries } := by
  refine ⟨?_, ?_, ?_, wellFormed.unsealed⟩
  · intro current same
    cases same
    rfl
  · intro delivery member
    rcases List.mem_cons.mp member with rfl | before
    · exact List.Pairwise.nil
    · exact wellFormed.storedLast delivery before
  · intro delivery member
    have calls := wellFormed.calls
    change delivery ∈ thread.deliveries at member
    cases inside : thread.deliveries with
    | nil =>
        rw [inside] at member
        cases member
    | cons head rest =>
        rw [inside] at member allowed calls
        rcases List.mem_cons.mp member with rfl | before
        · exact allowed
        · exact calls delivery before

theorem addCommand (wellFormed : thread.WellFormed) (routingHint : Option Hint) (mail : Mail) :
    (thread.addCommand (.postMail routingHint mail)).WellFormed := by
  refine ⟨wellFormed.current, wellFormed.storedLast, wellFormed.calls, ?_⟩
  intro member
  rcases List.mem_append.mp member with before | added
  · exact wellFormed.unsealed before
  · cases List.mem_singleton.mp added

/-- The innermost call goes on. -/
theorem inPhase (wellFormed : thread.WellFormed)
    (inside : thread.deliveries = ⟨hint, phase⟩ :: outer)
    {next : Phase Hint Mail} (storedLast : StoredLast next.commands) :
    (thread.inPhase hint outer next).WellFormed := by
  have calls := wellFormed.calls
  rw [inside] at calls
  refine ⟨?_, ?_, calls, wellFormed.unsealed⟩
  · intro current set
    have before := wellFormed.current current set
    rw [inside] at before
    exact before
  · intro delivery member
    rcases List.mem_cons.mp member with rfl | before
    · exact storedLast
    · apply wellFormed.storedLast delivery
      rw [inside]
      exact List.mem_cons_of_mem _ before

theorem fireMailCommands (wellFormed : thread.WellFormed)
    (inside : thread.deliveries = ⟨hint, phase⟩ :: outer) {commands : List (MailCommand Hint Mail)}
    (storedLast : StoredLast commands) (last : Bool) :
    ({ thread with mailCommands := commands }.fireMailCommands hint outer last).WellFormed := by
  have fired : (thread.inPhase hint outer (.firing commands last)).WellFormed :=
    wellFormed.inPhase inside storedLast
  exact ⟨fired.current, fired.storedLast, fired.calls, List.not_mem_nil⟩

theorem leave (wellFormed : thread.WellFormed) {delivery : Delivery Hint Mail}
    (inside : thread.deliveries = delivery :: outer) : (thread.leave outer).WellFormed := by
  have calls := wellFormed.calls
  rw [inside] at calls
  refine ⟨?_, ?_, ?_, wellFormed.unsealed⟩
  · intro current impossible
    cases impossible
  · intro other member
    apply wellFormed.storedLast other
    rw [inside]
    exact List.mem_cons_of_mem _ member
  · intro other member
    exact calls other (List.mem_of_mem_tail member)

theorem storedLast_of_inside (wellFormed : thread.WellFormed)
    (inside : thread.deliveries = ⟨hint, phase⟩ :: outer) : StoredLast phase.commands := by
  apply wellFormed.storedLast ⟨hint, phase⟩
  rw [inside]
  exact List.mem_cons_self

theorem respond (wellFormed : thread.WellFormed) (mail : Mail) :
    HostThread.WellFormed { thread with synchronousResponse := some (.response mail) } := by
  refine ⟨?_, wellFormed.storedLast, wellFormed.calls, wellFormed.unsealed⟩
  intro current impossible
  cases impossible

end HostThread.WellFormed

/-! ## What a thread has for the client -/

namespace HostThread

variable [DecidableEq Hint] {hint routingHint : Hint} {thread : HostThread Hint Mail}
  {phase : Phase Hint Mail} {outer : List (Delivery Hint Mail)}

omit [DecidableEq Hint] in
theorem clients_of_inside {delivery : Delivery Hint Mail}
    (inside : thread.deliveries = delivery :: outer) :
    thread.clients = delivery.routingHint :: outer.map Delivery.routingHint := by
  rw [clients, inside, List.map_cons]

omit [DecidableEq Hint] in
theorem mem_clients_of_inside {delivery : Delivery Hint Mail}
    (inside : thread.deliveries = delivery :: outer) : delivery.routingHint ∈ thread.clients := by
  rw [clients_of_inside inside]
  exact List.mem_cons_self

theorem held_of_inside {delivery : Delivery Hint Mail}
    (inside : thread.deliveries = delivery :: outer) :
    thread.held hint = if delivery.routingHint = hint then
      (Slot.asResponse thread.synchronousResponse).toList else [] := by
  simp [held, inside]

theorem pending_of_inside {delivery : Delivery Hint Mail}
    (inside : thread.deliveries = delivery :: outer) :
    thread.pending hint =
      mailsTo hint delivery.phase.commands ++ mailsTo hint thread.mailCommands := by
  rw [pending, inside, commandsLeft]

/-- The next command of the callback is the oldest that is pending. -/
theorem pending_postMail {client : Hint} {mail : Mail} {rest : List (MailCommand Hint Mail)}
    {last : Bool} (inside : thread.deliveries =
      ⟨client, .firing (.postMail (some routingHint) mail :: rest) last⟩ :: outer) :
    thread.pending hint = (if routingHint = hint then [mail] else []) ++
      (thread.inPhase client outer (.firing rest last)).pending hint := by
  have left : (thread.inPhase client outer (.firing rest last)).deliveries =
      ⟨client, .firing rest last⟩ :: outer := rfl
  rw [pending_of_inside inside, pending_of_inside left]
  simp only [Phase.commands, mailsTo_postMail, Option.some.injEq, List.append_assoc]
  rfl

theorem held_nil_of_routingHint {current : Hint}
    (set : thread.synchronousResponse = some (.routingHint current)) : thread.held hint = [] := by
  simp [held, set, Slot.asResponse]

theorem clients_of_held {mail : Mail} (held : mail ∈ thread.held hint) :
    hint ∈ thread.clients := by
  unfold HostThread.held at held
  split at held
  · rename_i own
    obtain ⟨delivery, head, same⟩ := Option.map_eq_some_iff.mp own
    exact List.mem_map.mpr ⟨delivery, List.mem_of_mem_head? head, same⟩
  · cases held

theorem held_leave (outer : List (Delivery Hint Mail)) : (thread.leave outer).held hint = [] := by
  simp [held, leave, Slot.asResponse]

/-- The calls around the innermost one have no mail left to hand over. -/
theorem WellFormed.pending_leave (wellFormed : thread.WellFormed) {delivery : Delivery Hint Mail}
    (inside : thread.deliveries = delivery :: outer) :
    (thread.leave outer).pending hint = mailsTo hint thread.mailCommands := by
  cases outer with
  | nil => rfl
  | cons next rest =>
      have calls := wellFormed.calls
      rw [inside] at calls
      have stored := wellFormed.storedLast next (by rw [inside]; simp)
      have left : (thread.leave (next :: rest)).deliveries = next :: rest := rfl
      rw [pending_of_inside left, mailsTo_of_allowsCalls (calls next List.mem_cons_self) stored]
      rfl

end HostThread

/-! ## What is where -/

section Inbox

variable [DecidableEq Thread] [DecidableEq Hint]

structure Inbox (hint : Hint) (state : State Thread Hint Mail) : Prop where
  wellFormed : ∀ thread, (state.threads thread).WellFormed
  alone : ∀ thread other, hint ∈ (state.threads thread).clients →
    hint ∈ (state.threads other).clients → thread = other
  order : ∃ reply pending, Gathered (HostThread.held hint ∘ state.threads) reply ∧
    Gathered (HostThread.pending hint ∘ state.threads) pending ∧
    state.posted hint = state.obtained hint ++ reply ++ state.waiting hint ++ pending

variable {hint : Hint} {state : State Thread Hint Mail}

omit [DecidableEq Thread] in
theorem inbox_initial (hint : Hint) : Inbox hint (State.initial Thread Hint Mail) := by
  refine ⟨?_, ?_, [], [], gathered_nil fun _ => rfl, gathered_nil fun _ => rfl, rfl⟩
  · intro thread
    refine ⟨?_, ?_, ?_, List.not_mem_nil⟩
    · intro current impossible
      cases impossible
    · intro delivery impossible
      cases impossible
    · intro delivery impossible
      cases impossible
  · intro thread other impossible
    cases impossible

omit [DecidableEq Thread] in
theorem Inbox.inOrder (inbox : Inbox hint state) : InOrder hint state := by
  obtain ⟨reply, pending, _, _, posted⟩ := inbox.order
  rw [InOrder, posted, List.append_assoc, List.append_assoc]
  exact List.prefix_append _ _

omit [DecidableEq Thread] in
/-- Only the thread that the client calls on has a reply. -/
theorem Inbox.held_others (inbox : Inbox hint state) {thread : Thread}
    (inside : hint ∈ (state.threads thread).clients) :
    ∀ other, other ≠ thread → (state.threads other).held hint = [] := by
  intro other apart
  apply List.eq_nil_iff_forall_not_mem.mpr
  intro mail held
  exact apart (inbox.alone other thread (HostThread.clients_of_held held) inside)

omit [DecidableEq Hint] in
theorem comp_setThread {α : Type} (f : HostThread Hint Mail → α) (thread : Thread)
    (here : HostThread Hint Mail) :
    f ∘ (state.setThread thread here).threads =
      Function.update (f ∘ state.threads) thread (f here) :=
  Function.comp_update f state.threads thread here

omit [DecidableEq Hint] in
/-- A thread that has as much as before. -/
theorem gathered_setThread {f : HostThread Hint Mail → List Mail} {whole : List Mail}
    {thread : Thread} {here : HostThread Hint Mail} (gathered : Gathered (f ∘ state.threads) whole)
    (same : f here = f (state.threads thread)) :
    Gathered (f ∘ (state.setThread thread here).threads) whole := by
  rw [comp_setThread, same]
  have unchanged := Function.update_eq_self thread (f ∘ state.threads)
  rw [Function.comp_apply] at unchanged
  rwa [unchanged]

omit [DecidableEq Hint] in
/-- A thread that is the only one to have something. -/
theorem gathered_setThread_of_others {f : HostThread Hint Mail → List Mail} {thread : Thread}
    (here : HostThread Hint Mail)
    (others : ∀ other, other ≠ thread → f (state.threads other) = []) :
    Gathered (f ∘ (state.setThread thread here).threads) (f here) := by
  rw [comp_setThread]
  exact gathered_update others (f here)

/-- The invariant behind a step of one thread, which `shared` has already done its part of. -/
theorem Inbox.setThread (inbox : Inbox hint state) (shared : State Thread Hint Mail)
    (threads : shared.threads = state.threads) {thread : Thread} {here : HostThread Hint Mail}
    (wellFormed : here.WellFormed)
    (clients : hint ∈ here.clients → hint ∈ (state.threads thread).clients)
    (order : ∃ reply pending,
      Gathered (HostThread.held hint ∘ (state.setThread thread here).threads) reply ∧
      Gathered (HostThread.pending hint ∘ (state.setThread thread here).threads) pending ∧
      shared.posted hint = shared.obtained hint ++ reply ++ shared.waiting hint ++ pending) :
    Inbox hint (shared.setThread thread here) := by
  have same : (shared.setThread thread here).threads = (state.setThread thread here).threads := by
    rw [State.setThread, State.setThread, threads]
  have before : ∀ other, hint ∈ ((state.setThread thread here).threads other).clients →
      hint ∈ (state.threads other).clients := by
    intro other member
    by_cases own : other = thread
    · subst own
      simp only [State.setThread, Function.update_self] at member
      exact clients member
    · simpa [State.setThread, own] using member
  refine ⟨?_, ?_, ?_⟩
  · intro other
    rw [same]
    by_cases own : other = thread
    · subst own
      simpa [State.setThread] using wellFormed
    · simpa [State.setThread, own] using inbox.wellFormed other
  · intro first second inFirst inSecond
    rw [same] at inFirst inSecond
    exact inbox.alone first second (before first inFirst) (before second inSecond)
  · rw [same]
    exact order

/-- Nothing of the client's is moved. -/
theorem Inbox.frame (inbox : Inbox hint state) (shared : State Thread Hint Mail)
    (threads : shared.threads = state.threads)
    (posted : shared.posted hint = state.posted hint)
    (obtained : shared.obtained hint = state.obtained hint)
    (waiting : shared.waiting hint = state.waiting hint)
    {thread : Thread} {here : HostThread Hint Mail} (wellFormed : here.WellFormed)
    (clients : hint ∈ here.clients → hint ∈ (state.threads thread).clients)
    (held : here.held hint = (state.threads thread).held hint)
    (pending : here.pending hint = (state.threads thread).pending hint) :
    Inbox hint (shared.setThread thread here) := by
  obtain ⟨reply, left, replyHeld, leftPending, order⟩ := inbox.order
  refine inbox.setThread shared threads wellFormed clients ⟨reply, left,
    gathered_setThread replyHeld held, gathered_setThread leftPending pending, ?_⟩
  rw [posted, obtained, waiting, order]

/-! ## Steps of a thread -/

variable {thread : Thread}

theorem Inbox.deliverMail (inbox : Inbox hint state) {routingHint : Hint}
    (allowed : (state.threads thread).deliveries.head?.all
      (fun delivery => delivery.phase.allowsCalls) = true)
    (sequential : Sequential hint state (.deliverMail thread routingHint))
    (undisturbed : (state.threads thread).held hint = []) :
    Inbox hint (state.setThread thread { state.threads thread with
      synchronousResponse := some (.routingHint routingHint)
      deliveries := ⟨routingHint, .intoEnclave⟩ :: (state.threads thread).deliveries }) := by
  have wellFormed := inbox.wellFormed thread
  obtain ⟨reply, left, replyHeld, leftPending, order⟩ := inbox.order
  refine ⟨?_, ?_, reply, left, gathered_setThread replyHeld ?_,
    gathered_setThread leftPending ?_, order⟩
  · intro other
    by_cases own : other = thread
    · subst own
      simpa [State.setThread] using wellFormed.deliverMail allowed routingHint
    · simpa [State.setThread, own] using inbox.wellFormed other
  · have only : ∀ other, hint ∈ ((state.setThread thread { state.threads thread with
        synchronousResponse := some (.routingHint routingHint)
        deliveries := ⟨routingHint, .intoEnclave⟩ :: (state.threads thread).deliveries
          }).threads other).clients →
        other = thread ∧ routingHint = hint ∨ hint ∈ (state.threads other).clients := by
      intro other member
      by_cases own : other = thread
      · subst own
        simp only [State.setThread, Function.update_self, HostThread.clients, List.map_cons,
          List.mem_cons] at member
        exact member.imp_left fun same => ⟨rfl, same.symm⟩
      · simp only [State.setThread, Function.update_of_ne own] at member
        exact .inr member
    intro first second inFirst inSecond
    rcases only first inFirst with ⟨rfl, own⟩ | beforeFirst
    · rcases only second inSecond with ⟨rfl, _⟩ | beforeSecond
      · rfl
      · by_contra apart
        exact sequential own second (Ne.symm apart) beforeSecond
    · rcases only second inSecond with ⟨rfl, own⟩ | beforeSecond
      · by_contra apart
        exact sequential own first apart beforeFirst
      · exact inbox.alone first second beforeFirst beforeSecond
  · rw [undisturbed]
    exact HostThread.held_nil_of_routingHint rfl
  · -- What the call around it is in leaves no mail behind `storeSealedState`.
    have before : mailsTo hint (commandsLeft (state.threads thread).deliveries) = [] := by
      cases inside : (state.threads thread).deliveries with
      | nil => rfl
      | cons delivery outer =>
          rw [inside] at allowed
          exact mailsTo_of_allowsCalls allowed
            (wellFormed.storedLast delivery (by rw [inside]; exact List.mem_cons_self))
    rw [HostThread.pending, HostThread.pending, before]
    rfl

/-- The enclave posts mail of another client, or the client's own while no other thread has any. -/
theorem Inbox.postMail (inbox : Inbox hint state) (routingHint : Option Hint) (mail : Mail)
    (undisturbed : Undisturbed hint state (.postMail thread routingHint mail)) :
    Inbox hint (state.postMail thread routingHint mail) := by
  have wellFormed := (inbox.wellFormed thread).addCommand routingHint mail
  have pending : ((state.threads thread).addCommand (.postMail routingHint mail)).pending hint =
      (state.threads thread).pending hint ++ if routingHint = some hint then [mail] else [] := by
    simp [HostThread.pending, HostThread.addCommand]
  by_cases own : routingHint = some hint
  · have others := undisturbed own
    obtain ⟨reply, left, replyHeld, leftPending, order⟩ := inbox.order
    have mine : (state.threads thread).pending hint = left := leftPending.eq_of_others others
    rw [if_pos own, mine] at pending
    have added := gathered_setThread_of_others
      ((state.threads thread).addCommand (.postMail routingHint mail)) others
    rw [pending] at added
    refine inbox.setThread { state with
        posted := fun other => state.posted other ++ if routingHint = some other then [mail] else []
      } rfl wellFormed id ⟨reply, left ++ [mail], gathered_setThread replyHeld rfl, added, ?_⟩
    simp only [if_pos own, order, List.append_assoc]
    rfl
  · rw [if_neg own, List.append_nil] at pending
    refine inbox.frame { state with
        posted := fun other => state.posted other ++ if routingHint = some other then [mail] else []
      } rfl ?_ rfl rfl wellFormed id rfl pending
    simp only [if_neg own, List.append_nil]

/-- The callback is invoked with the commands of the transaction. -/
theorem Inbox.fireMailCommands (inbox : Inbox hint state) {routingHint : Hint}
    {outer : List (Delivery Hint Mail)} {commands : List (MailCommand Hint Mail)}
    (inside : (state.threads thread).deliveries = ⟨routingHint, .intoEnclave⟩ :: outer)
    (storedLast : StoredLast commands)
    (mails : mailsTo hint commands = mailsTo hint (state.threads thread).mailCommands)
    (last : Bool) :
    Inbox hint (state.setThread thread
      ({ state.threads thread with mailCommands := commands }.fireMailCommands routingHint outer
        last)) := by
  have fired : ({ state.threads thread with mailCommands := commands }.fireMailCommands routingHint
      outer last).deliveries = ⟨routingHint, .firing commands last⟩ :: outer := rfl
  refine inbox.frame state rfl rfl rfl rfl
    ((inbox.wellFormed thread).fireMailCommands inside storedLast last) ?_ ?_ ?_
  · rw [HostThread.clients_of_inside inside, HostThread.clients_of_inside fired]
    exact id
  · rw [HostThread.held_of_inside inside, HostThread.held_of_inside fired]
    rfl
  · rw [HostThread.pending_of_inside inside, HostThread.pending_of_inside fired, ← mails]
    exact List.append_nil _

/-- A call ends that has nothing of the client's. -/
theorem Inbox.throws (inbox : Inbox hint state) {delivery : Delivery Hint Mail}
    {outer : List (Delivery Hint Mail)}
    (inside : (state.threads thread).deliveries = delivery :: outer)
    (held : (state.threads thread).held hint = [])
    (left : mailsTo hint delivery.phase.commands = []) :
    Inbox hint (state.throws thread outer) := by
  have wellFormed := inbox.wellFormed thread
  refine inbox.frame state rfl rfl rfl rfl (wellFormed.leave inside) ?_ ?_ ?_
  · intro member
    rw [HostThread.clients_of_inside inside]
    exact List.mem_cons_of_mem _ member
  · rw [held, HostThread.held_leave]
  · rw [wellFormed.pending_leave inside, HostThread.pending_of_inside inside, left,
      List.nil_append]

/-- `deliverMail` returns the reply, which comes before everything that is waiting. -/
theorem Inbox.returns (inbox : Inbox hint state) {routingHint : Hint} {phase : Phase Hint Mail}
    {outer : List (Delivery Hint Mail)}
    (inside : (state.threads thread).deliveries = ⟨routingHint, phase⟩ :: outer)
    (left : mailsTo hint phase.commands = []) :
    Inbox hint (state.returns thread routingHint outer) := by
  have wellFormed := inbox.wellFormed thread
  have clients : hint ∈ ((state.threads thread).leave outer).clients →
      hint ∈ (state.threads thread).clients := by
    intro member
    rw [HostThread.clients_of_inside inside]
    exact List.mem_cons_of_mem _ member
  have pending : ((state.threads thread).leave outer).pending hint =
      (state.threads thread).pending hint := by
    rw [wellFormed.pending_leave inside, HostThread.pending_of_inside inside, left,
      List.nil_append]
  have held : (state.threads thread).held hint = _ := HostThread.held_of_inside inside
  by_cases own : routingHint = hint
  · subst own
    have others := inbox.held_others (HostThread.mem_clients_of_inside inside)
    obtain ⟨reply, pendings, replyHeld, leftPending, order⟩ := inbox.order
    have mine : (state.threads thread).held routingHint = reply := replyHeld.eq_of_others others
    rw [if_pos rfl, mine] at held
    have taken := gathered_setThread_of_others ((state.threads thread).leave outer) others
    rw [HostThread.held_leave] at taken
    refine inbox.setThread (state.receive routingHint _) rfl (wellFormed.leave inside) clients
      ⟨[], pendings, taken, gathered_setThread leftPending pending, ?_⟩
    simp only [State.receive, State.waiting, Function.update_self, ← held, List.append_nil]
    exact order
  · rw [if_neg own] at held
    refine inbox.frame (state.receive routingHint _) rfl rfl ?_ rfl (wellFormed.leave inside)
      clients ?_ pending
    · exact Function.update_of_ne (Ne.symm own) ..
    · rw [held, HostThread.held_leave]

/-! ## Steps of the callback -/

omit [DecidableEq Thread] in
theorem waiting_setQueue (queue : List Mail) (routingHint : Hint) :
    (state.setQueue routingHint queue).waiting hint =
      if hint = routingHint then queue else state.waiting hint := by
  by_cases same : hint = routingHint
  · subst same
    rw [if_pos rfl]
    cases queue with
    | nil => simp [State.waiting, State.setQueue]
    | cons mail rest => simp [State.waiting, State.setQueue]
  · simp [State.waiting, State.setQueue, same]

section Callback

variable {client routingHint : Hint} {outer : List (Delivery Hint Mail)} {mail : Mail}
  {rest : List (MailCommand Hint Mail)} {last : Bool}

omit [DecidableEq Thread] in
/-- The mail that the callback comes to is the client's oldest that has not been handed over. -/
theorem Inbox.oldest (inbox : Inbox hint state)
    (inside : (state.threads thread).deliveries =
      ⟨client, .firing (.postMail (some hint) mail :: rest) last⟩ :: outer) :
    (∀ other, other ≠ thread → (state.threads other).pending hint = []) ∧
      ∃ reply, Gathered (HostThread.held hint ∘ state.threads) reply ∧
        state.posted hint = state.obtained hint ++ reply ++ state.waiting hint ++
          mail :: ((state.threads thread).inPhase client outer
            (.firing rest last)).pending hint := by
  obtain ⟨reply, left, replyHeld, leftPending, order⟩ := inbox.order
  have pending : (state.threads thread).pending hint = _ := HostThread.pending_postMail inside
  rw [if_pos rfl, List.singleton_append] at pending
  have some : (HostThread.pending hint ∘ state.threads) thread ≠ [] := by
    rw [Function.comp_apply, pending]
    exact List.cons_ne_nil _ _
  refine ⟨leftPending.others thread some, reply, replyHeld, ?_⟩
  rw [order, ← pending, ← leftPending.holder thread some]
  rfl

theorem Inbox.inPhase (inbox : Inbox hint state) {phase next : Phase Hint Mail}
    (inside : (state.threads thread).deliveries = ⟨client, phase⟩ :: outer)
    (storedLast : StoredLast next.commands)
    (left : mailsTo hint next.commands = mailsTo hint phase.commands) :
    Inbox hint (state.setThread thread ((state.threads thread).inPhase client outer next)) := by
  have after : ((state.threads thread).inPhase client outer next).deliveries =
      ⟨client, next⟩ :: outer := rfl
  refine inbox.frame state rfl rfl rfl rfl ((inbox.wellFormed thread).inPhase inside storedLast)
    ?_ ?_ ?_
  · rw [HostThread.clients_of_inside inside, HostThread.clients_of_inside after]
    exact id
  · rw [HostThread.held_of_inside inside, HostThread.held_of_inside after]
    rfl
  · rw [HostThread.pending_of_inside inside, HostThread.pending_of_inside after, left]
    rfl

/-- The mail waits behind everything else of the client's. -/
theorem Inbox.queued (inbox : Inbox hint state)
    (inside : (state.threads thread).deliveries =
      ⟨client, .firing (.postMail (some routingHint) mail :: rest) last⟩ :: outer) :
    Inbox hint ((state.setQueue routingHint (state.waiting routingHint ++ [mail])).setThread thread
      ((state.threads thread).inPhase client outer (.firing rest last))) := by
  have storedLast := (inbox.wellFormed thread).storedLast_of_inside inside
  have wellFormed := (inbox.wellFormed thread).inPhase inside
    (show StoredLast (Phase.firing rest last).commands from List.Pairwise.of_cons storedLast)
  have after : ((state.threads thread).inPhase client outer (.firing rest last)).deliveries =
      ⟨client, .firing rest last⟩ :: outer := rfl
  have clients : hint ∈ ((state.threads thread).inPhase client outer
      (.firing rest last)).clients → hint ∈ (state.threads thread).clients := by
    rw [HostThread.clients_of_inside inside, HostThread.clients_of_inside after]
    exact id
  have held : ((state.threads thread).inPhase client outer (.firing rest last)).held hint =
      (state.threads thread).held hint := by
    rw [HostThread.held_of_inside inside, HostThread.held_of_inside after]
    rfl
  by_cases own : routingHint = hint
  · subst own
    obtain ⟨others, reply, replyHeld, order⟩ := inbox.oldest inside
    refine inbox.setThread (state.setQueue routingHint _) rfl wellFormed clients
      ⟨reply, _, gathered_setThread replyHeld held, gathered_setThread_of_others _ others, ?_⟩
    rw [waiting_setQueue, if_pos rfl]
    change state.posted routingHint = state.obtained routingHint ++ reply ++ _ ++ _
    rw [order]
    simp only [List.append_assoc, List.singleton_append]
  · have pending : (state.threads thread).pending hint = _ := HostThread.pending_postMail inside
    rw [if_neg own, List.nil_append] at pending
    refine inbox.frame (state.setQueue routingHint _) rfl rfl rfl ?_ wellFormed clients held
      pending.symm
    rw [waiting_setQueue, if_neg (Ne.symm own)]

/-- The mail becomes the reply of the call, where nothing older waits. -/
theorem Inbox.taken (inbox : Inbox hint state)
    (inside : (state.threads thread).deliveries =
      ⟨client, .firing (.postMail (some routingHint) mail :: rest) last⟩ :: outer)
    (current : (state.threads thread).synchronousResponse = some (.routingHint routingHint))
    (empty : routingHint = hint → state.waiting hint = []) :
    Inbox hint (state.setThread thread
      { (state.threads thread).inPhase client outer (.firing rest last) with
        synchronousResponse := some (.response mail) }) := by
  have storedLast := (inbox.wellFormed thread).storedLast_of_inside inside
  have wellFormed := ((inbox.wellFormed thread).inPhase inside
    (show StoredLast (Phase.firing rest last).commands from
      List.Pairwise.of_cons storedLast)).respond mail
  have sender : client = routingHint := by
    have head := (inbox.wellFormed thread).current routingHint current
    rw [inside] at head
    exact Option.some.inj head
  subst sender
  let there : HostThread Hint Mail := ⟨some (.response mail), (state.threads thread).mailCommands,
    ⟨client, .firing rest last⟩ :: outer⟩
  have after : there.deliveries = ⟨client, .firing rest last⟩ :: outer := rfl
  have clients := HostThread.clients_of_inside inside
  have empty_before : (state.threads thread).held hint = [] :=
    HostThread.held_nil_of_routingHint current
  have held_after : there.held hint = _ := HostThread.held_of_inside after
  by_cases own : client = hint
  · subst own
    obtain ⟨others, reply, replyHeld, order⟩ := inbox.oldest inside
    have nobody := inbox.held_others (HostThread.mem_clients_of_inside inside)
    have none_held : (state.threads thread).held client = reply := replyHeld.eq_of_others nobody
    rw [if_pos rfl] at held_after
    have reply_after := gathered_setThread_of_others there nobody
    rw [held_after] at reply_after
    refine inbox.setThread state rfl wellFormed ?_
      ⟨_, _, reply_after, gathered_setThread_of_others _ others, ?_⟩
    · rw [clients]
      exact id
    · rw [order, ← none_held, empty_before, empty rfl]
      simp only [List.append_nil, List.append_assoc]
      rfl
  · rw [if_neg own] at held_after
    have pending : (state.threads thread).pending hint = _ := HostThread.pending_postMail inside
    rw [if_neg own, List.nil_append] at pending
    refine inbox.frame state rfl rfl rfl rfl wellFormed ?_ ?_ pending.symm
    · rw [clients]
      exact id
    · rw [empty_before]
      exact held_after

theorem Inbox.processPostMail (inbox : Inbox hint state)
    (inside : (state.threads thread).deliveries =
      ⟨client, .firing (.postMail (some routingHint) mail :: rest) last⟩ :: outer)
    (empty : routingHint = hint →
      (state.threads thread).synchronousResponse = some (.routingHint hint) →
        state.waiting hint = []) :
    Inbox hint (state.processPostMail thread client outer routingHint mail rest last) := by
  unfold State.processPostMail
  simp only
  split
  · rename_i current slot
    by_cases mine : current = routingHint
    · subst mine
      rw [if_pos rfl]
      refine inbox.taken inside slot ?_
      rintro rfl
      exact empty rfl slot
    · rw [if_neg mine]
      exact inbox.queued inside
  · exact inbox.queued inside

end Callback

/-! ## Polling -/

omit [DecidableEq Thread] in
theorem Inbox.pollMail (inbox : Inbox hint state) {routingHint : Hint}
    (sequential : Sequential hint state (.pollMail routingHint : Action Thread Hint Mail)) :
    Inbox hint (state.pollMail routingHint) := by
  unfold State.pollMail
  cases found : state.asynchronousResponses routingHint with
  | none => exact inbox
  | some queue =>
      obtain ⟨reply, left, replyHeld, leftPending, order⟩ := inbox.order
      refine ⟨inbox.wellFormed, inbox.alone, reply, left, replyHeld, leftPending, ?_⟩
      simp only
      by_cases own : routingHint = hint
      · subst own
        have nobody : reply = [] := by
          apply replyHeld.nobody
          intro thread
          apply List.eq_nil_iff_forall_not_mem.mpr
          intro mail held
          exact sequential rfl thread (HostThread.clients_of_held held)
        have waiting : state.waiting routingHint = queue := by
          rw [State.waiting, found]
          rfl
        rw [waiting, nobody] at order
        rw [waiting_setQueue, if_pos rfl, nobody]
        cases queue with
        | nil => simpa [State.setQueue, State.receive] using order
        | cons mail rest => simpa [State.setQueue, State.receive] using order
      · rw [waiting_setQueue, if_neg (Ne.symm own)]
        have obtained : ((state.receive routingHint queue.head?).setQueue routingHint
            queue.tail).obtained hint = state.obtained hint :=
          Function.update_of_ne (Ne.symm own) ..
        rw [obtained]
        exact order

end Inbox

/-! ## Every run -/

section Runs

variable [DecidableEq Thread] [DecidableEq Hint] {hint : Hint}
  {state next : State Thread Hint Mail}

omit [DecidableEq Thread] [DecidableEq Hint] in
theorem enclaveStep_some {thread : Thread}
    {proceed : Hint → List (Delivery Hint Mail) → State Thread Hint Mail}
    (stepped : enclaveStep state thread proceed = some next) :
    ∃ routingHint outer, (state.threads thread).deliveries = ⟨routingHint, .intoEnclave⟩ :: outer ∧
      next = proceed routingHint outer := by
  unfold enclaveStep at stepped
  split at stepped
  · rename_i routingHint outer inside
    cases stepped
    exact ⟨routingHint, outer, inside, rfl⟩
  · cases stepped

/-- The callback goes on by one command, and at its end the call does. -/
theorem Inbox.command (inbox : Inbox hint state) {thread : Thread}
    (undisturbed : Undisturbed hint state (.command thread))
    (stepped : step state (.command thread) = some next) : Inbox hint next := by
  have wellFormed := inbox.wellFormed thread
  rw [Undisturbed] at undisturbed
  cases inside : (state.threads thread).deliveries with
  | nil =>
      simp only [step, inside] at stepped
      cases stepped
  | cons delivery outer =>
      obtain ⟨client, phase⟩ := delivery
      rw [inside, commandsLeft] at undisturbed
      cases phase with
      | intoEnclave =>
          simp only [step, inside] at stepped
          cases stepped
      | firing commands last =>
          have storedLast := wellFormed.storedLast_of_inside inside
          match commands with
          | [] =>
              simp only [step, inside] at stepped
              split at stepped
              · cases stepped
                exact inbox.returns inside rfl
              · cases stepped
                exact inbox.inPhase inside List.Pairwise.nil rfl
          | .postMail none mail :: rest =>
              simp only [step, inside] at stepped
              cases stepped
              obtain ⟨held, left⟩ := undisturbed
              exact inbox.throws inside held left
          | .postMail (some routingHint) mail :: rest =>
              simp only [step, inside] at stepped
              cases stepped
              exact inbox.processPostMail inside undisturbed
          | .storeSealedState :: rest =>
              simp only [step, inside] at stepped
              cases stepped
              exact inbox.inPhase inside (List.Pairwise.of_cons storedLast) rfl

theorem Inbox.storeSealedStateThrows (inbox : Inbox hint state) {thread : Thread}
    (undisturbed : (state.threads thread).held hint = [])
    (stepped : step state (.storeSealedStateThrows thread) = some next) : Inbox hint next := by
  simp only [step] at stepped
  split at stepped
  · rename_i client rest last outer inside
    cases stepped
    have storedLast := (inbox.wellFormed thread).storedLast_of_inside inside
    obtain rfl : rest = [] := StoredLast.nothing_behind storedLast
    exact inbox.throws inside undisturbed rfl
  · cases stepped

theorem Inbox.preserved {action : Action Thread Hint Mail} (inbox : Inbox hint state)
    (sequential : Sequential hint state action) (undisturbed : Undisturbed hint state action)
    (stepped : step state action = some next) : Inbox hint next := by
  cases action with
  | deliverMail thread routingHint =>
      simp only [step] at stepped
      split at stepped
      · rename_i allowed
        cases stepped
        exact inbox.deliverMail allowed sequential undisturbed
      · cases stepped
  | postMail thread routingHint mail =>
      obtain ⟨_, _, _, rfl⟩ := enclaveStep_some stepped
      exact inbox.postMail routingHint mail undisturbed
  | sendSealedState thread =>
      obtain ⟨client, outer, inside, rfl⟩ := enclaveStep_some stepped
      have unsealed := (inbox.wellFormed thread).unsealed
      apply inbox.fireMailCommands inside
      · apply List.pairwise_append.mpr
        refine ⟨storedLast_of_unsealed unsealed, List.pairwise_singleton _ _, ?_⟩
        intro command member _ _ same
        exact unsealed (same ▸ member)
      · rw [mailsTo_append]
        exact List.append_nil _
  | enclaveReturns thread =>
      obtain ⟨client, outer, inside, rfl⟩ := enclaveStep_some stepped
      have unsealed := (inbox.wellFormed thread).unsealed
      split
      · exact inbox.fireMailCommands inside (storedLast_of_unsealed unsealed) rfl true
      · exact inbox.returns inside rfl
  | enclaveThrows thread =>
      obtain ⟨client, outer, inside, rfl⟩ := enclaveStep_some stepped
      exact inbox.throws inside undisturbed rfl
  | command thread => exact inbox.command undisturbed stepped
  | storeSealedStateThrows thread => exact inbox.storeSealedStateThrows undisturbed stepped
  | pollMail routingHint =>
      cases stepped
      exact inbox.pollMail sequential

theorem Inbox.always {inputs : List (Action Thread Hint Mail)} (inbox : Inbox hint state)
    (sequential : Meets step (Sequential hint) state inputs)
    (undisturbed : Meets step (Undisturbed hint) state inputs) :
    Always step (InOrder hint) state inputs := by
  refine always_of_meets ?_ ?_ inbox (sequential.and undisturbed)
  · intro state action next inbox both stepped
    exact inbox.preserved both.1 both.2 stepped
  · intro state inbox
    exact inbox.inOrder

/-- The inbox of a sequential client is in order where nothing gets in the way of its mail. -/
theorem inbox_inOrder (hint : Hint) (inputs : List (Action Thread Hint Mail))
    (sequential : Meets step (Sequential hint) (State.initial Thread Hint Mail) inputs)
    (undisturbed : Meets step (Undisturbed hint) (State.initial Thread Hint Mail) inputs) :
    Always step (InOrder hint) (State.initial Thread Hint Mail) inputs :=
  (inbox_initial hint).always sequential undisturbed

end Runs

/-- Mail to the client is posted while another client's requests are handled, one nested in the
other, and is polled; then the client's own request has two replies. -/
def twoReplies : List (Action Bool Bool Nat) :=
  [.deliverMail false false, .postMail false (some true) 1,
    .deliverMail false false, .postMail false (some false) 9, .enclaveReturns false,
    .sendSealedState false, .command false, .command false, .command false, .command false,
    .enclaveReturns false, .pollMail true,
    .deliverMail true true, .postMail true (some true) 2, .postMail true (some true) 3,
    .enclaveReturns true, .command true, .command true, .command true, .pollMail true]

theorem twoReplies_inOrder :
    Always step (InOrder true) (State.initial Bool Bool Nat) twoReplies ∧
      (run step (State.initial Bool Bool Nat) twoReplies).map
        (fun state => (state.posted true, state.obtained true)) = some ([1, 2, 3], [1, 2, 3]) :=
  ⟨inbox_inOrder true twoReplies (by decide) (by decide), by decide⟩

/-- The first mail is posted while another client's request is handled, the second in reply to the
client's own. -/
def overtaking : List (Action Unit Bool Nat) :=
  [.deliverMail () false, .postMail () (some true) 1, .enclaveReturns (), .command (), .command (),
    .deliverMail () true, .postMail () (some true) 2, .enclaveReturns (), .command (), .command (),
    .pollMail true]

theorem overtaking_not_inOrder :
    Meets step (Sequential true) (State.initial Unit Bool Nat) overtaking ∧
      ∃ state, run step (State.initial Unit Bool Nat) overtaking = some state ∧
        state.posted true = [1, 2] ∧ state.obtained true = [2, 1] ∧ ¬ InOrder true state := by
  refine ⟨by decide, _, rfl, rfl, rfl, ?_⟩
  change ¬ ([2, 1] : List Nat) <+: [1, 2]
  decide

end Conclave.Host.EnclaveHostService
