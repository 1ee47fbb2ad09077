import Mathlib.Data.List.Nodup
import Mathlib.Logic.Function.Basic

/-!
# Jobs from one queue

Every job that has been pushed is in the queue or has been taken by exactly one worker.
-/

set_option autoImplicit false

namespace Conclave.Lib

/-- A view that the new value does not change is unchanged everywhere. -/
theorem apply_update_of_eq {α β γ : Type} [DecidableEq α] {f : α → β} {a : α} {value : β}
    (view : β → γ) (same : view value = view (f a)) (x : α) :
    view (Function.update f a value x) = view (f x) := by
  by_cases here : x = a
  · rw [here, Function.update_self, same]
  · rw [Function.update_of_ne here]

section JobQueue

variable {Job Worker : Type}

structure JobQueue (pushed : Job → Prop) (queue : List Job) (taken : Worker → Option Job) :
    Prop where
  nodup : queue.Nodup
  queued : ∀ job, job ∈ queue → pushed job
  takenPushed : ∀ worker job, taken worker = some job → pushed job
  takenOut : ∀ worker job, taken worker = some job → job ∉ queue
  unique : ∀ worker other job, taken worker = some job → taken other = some job → worker = other
  somewhere : ∀ job, pushed job → job ∈ queue ∨ ∃ worker, taken worker = some job

namespace JobQueue

variable {pushed : Job → Prop} {queue : List Job} {taken : Worker → Option Job}

theorem empty : JobQueue (fun _ : Job => False) [] (fun _ : Worker => none) where
  nodup := List.nodup_nil
  queued := by
    intro job impossible
    cases impossible
  takenPushed := by
    intro worker job impossible
    cases impossible
  takenOut := by
    intro worker job impossible
    cases impossible
  unique := by
    intro worker other job impossible
    cases impossible
  somewhere := by
    intro job impossible
    cases impossible

theorem congr {pushed' : Job → Prop} {taken' : Worker → Option Job}
    (jobs : JobQueue pushed queue taken) (samePushed : ∀ job, pushed' job ↔ pushed job)
    (sameTaken : ∀ worker, taken' worker = taken worker) : JobQueue pushed' queue taken' := by
  have first : pushed' = pushed := funext fun job => propext (samePushed job)
  have second : taken' = taken := funext sameTaken
  rw [first, second]
  exact jobs

theorem push {job : Job} (jobs : JobQueue pushed queue taken) (fresh : ¬ pushed job) :
    JobQueue (fun other => other = job ∨ pushed other) (queue ++ [job]) taken where
  nodup := by
    refine List.nodup_append.mpr ⟨jobs.nodup, List.nodup_singleton job, ?_⟩
    intro other inside last member same
    rw [List.mem_singleton.mp member] at same
    exact fresh (same ▸ jobs.queued other inside)
  queued := by
    intro other member
    rcases List.mem_append.mp member with inside | last
    · exact .inr (jobs.queued other inside)
    · exact .inl (List.mem_singleton.mp last)
  takenPushed := fun worker other took => .inr (jobs.takenPushed worker other took)
  takenOut := by
    intro worker other took member
    rcases List.mem_append.mp member with inside | last
    · exact jobs.takenOut worker other took inside
    · rw [List.mem_singleton.mp last] at took
      exact fresh (jobs.takenPushed worker job took)
  unique := jobs.unique
  somewhere := by
    rintro other (rfl | before)
    · exact .inl (List.mem_append_right _ (List.mem_singleton_self other))
    · exact (jobs.somewhere other before).imp_left (List.mem_append_left _)

theorem pop [DecidableEq Worker] {job : Job} {rest : List Job} {worker : Worker}
    (jobs : JobQueue pushed (job :: rest) taken) (free : taken worker = none) :
    JobQueue pushed rest (Function.update taken worker (some job)) where
  nodup := (List.nodup_cons.mp jobs.nodup).2
  queued := fun other inside => jobs.queued other (List.mem_cons_of_mem job inside)
  takenPushed := by
    intro someone other took
    by_cases same : someone = worker
    · rw [same, Function.update_self] at took
      cases took
      exact jobs.queued job List.mem_cons_self
    · rw [Function.update_of_ne same] at took
      exact jobs.takenPushed someone other took
  takenOut := by
    intro someone other took inside
    by_cases same : someone = worker
    · rw [same, Function.update_self] at took
      cases took
      exact (List.nodup_cons.mp jobs.nodup).1 inside
    · rw [Function.update_of_ne same] at took
      exact jobs.takenOut someone other took (List.mem_cons_of_mem job inside)
  unique := by
    intro one two other tookOne tookTwo
    have apart : ∀ someone, taken someone ≠ some job := by
      intro someone took
      exact jobs.takenOut someone job took List.mem_cons_self
    by_cases first : one = worker
    · by_cases second : two = worker
      · rw [first, second]
      · rw [first, Function.update_self] at tookOne
        rw [Function.update_of_ne second] at tookTwo
        cases tookOne
        exact absurd tookTwo (apart two)
    · rw [Function.update_of_ne first] at tookOne
      by_cases second : two = worker
      · rw [second, Function.update_self] at tookTwo
        cases tookTwo
        exact absurd tookOne (apart one)
      · rw [Function.update_of_ne second] at tookTwo
        exact jobs.unique one two other tookOne tookTwo
  somewhere := by
    intro other before
    rcases jobs.somewhere other before with inside | ⟨someone, took⟩
    · rcases List.mem_cons.mp inside with rfl | inside
      · exact .inr ⟨worker, Function.update_self ..⟩
      · exact .inl inside
    · refine .inr ⟨someone, ?_⟩
      have busy : someone ≠ worker := by
        rintro rfl
        rw [free] at took
        cases took
      rw [Function.update_of_ne busy]
      exact took

end JobQueue

end JobQueue

end Conclave.Lib
