import Mathlib.Tactic.Common

/-!
# Reentrant locks

A lock is free or held a positive number of times by one owner.
-/

set_option autoImplicit false

namespace Conclave.Lib

structure Hold (Thread : Type) where
  owner : Thread
  count : Nat
  positive : 0 < count

abbrev ReentrantLock (Thread : Type) : Type := Option (Hold Thread)

namespace ReentrantLock

variable {Thread : Type}

def acquire (lock : ReentrantLock Thread) (thread : Thread) : ReentrantLock Thread :=
  match lock with
  | none => some ⟨thread, 1, Nat.one_pos⟩
  | some hold => some ⟨hold.owner, hold.count + 1, Nat.succ_pos _⟩

def release (lock : ReentrantLock Thread) : ReentrantLock Thread :=
  match lock with
  | none => none
  | some hold =>
      if more : 1 < hold.count then some ⟨hold.owner, hold.count - 1, by omega⟩ else none

/-- Waiting for a condition lets go of the lock altogether. -/
def releaseAll (_ : ReentrantLock Thread) : ReentrantLock Thread := none

def acquireTimes (lock : ReentrantLock Thread) (thread : Thread) : Nat → ReentrantLock Thread
  | 0 => lock
  | times + 1 => (lock.acquireTimes thread times).acquire thread

variable [DecidableEq Thread]

/-- A thread can acquire the lock if it is free or already its own. -/
def available (lock : ReentrantLock Thread) (thread : Thread) : Bool :=
  match lock with
  | none => true
  | some hold => hold.owner = thread

def heldBy (lock : ReentrantLock Thread) (thread : Thread) : Nat :=
  match lock with
  | none => 0
  | some hold => if hold.owner = thread then hold.count else 0

theorem exclusive {lock : ReentrantLock Thread} {first second : Thread}
    (holdsFirst : 0 < lock.heldBy first) (holdsSecond : 0 < lock.heldBy second) :
    first = second := by
  cases lock with
  | none => simp [heldBy] at holdsFirst
  | some hold =>
      by_cases isFirst : hold.owner = first
      · by_cases isSecond : hold.owner = second
        · exact isFirst.symm.trans isSecond
        · simp [heldBy, isSecond] at holdsSecond
      · simp [heldBy, isFirst] at holdsFirst

theorem available_of_heldBy {lock : ReentrantLock Thread} {thread other : Thread}
    (held : 0 < lock.heldBy thread) (different : other ≠ thread) :
    lock.available other = false := by
  cases lock with
  | none => simp [heldBy] at held
  | some hold =>
      by_cases owner : hold.owner = thread
      · simp [available, owner, different.symm]
      · simp [heldBy, owner] at held

theorem available_self {lock : ReentrantLock Thread} {thread : Thread}
    (held : 0 < lock.heldBy thread) : lock.available thread = true := by
  cases lock with
  | none => rfl
  | some hold =>
      by_cases owner : hold.owner = thread
      · simp [available, owner]
      · simp [heldBy, owner] at held

theorem heldBy_acquire {lock : ReentrantLock Thread} {thread : Thread}
    (free : lock.available thread = true) (other : Thread) :
    (lock.acquire thread).heldBy other = lock.heldBy other + if other = thread then 1 else 0 := by
  cases lock with
  | none =>
      by_cases same : other = thread
      · simp [acquire, heldBy, same]
      · simp [acquire, heldBy, same, Ne.symm same]
  | some hold =>
      simp only [available, decide_eq_true_eq] at free
      subst free
      by_cases same : other = hold.owner
      · simp [acquire, heldBy, same]
      · simp [acquire, heldBy, same, Ne.symm same]

theorem heldBy_release {lock : ReentrantLock Thread} {thread : Thread}
    (held : 0 < lock.heldBy thread) (other : Thread) :
    (lock.release).heldBy other = lock.heldBy other - if other = thread then 1 else 0 := by
  cases lock with
  | none => simp [heldBy] at held
  | some hold =>
      obtain ⟨owner, count, positive⟩ := hold
      by_cases own : owner = thread
      · subst own
        by_cases more : 1 < count
        · by_cases same : other = owner
          · simp [release, heldBy, more, same]
          · simp [release, heldBy, more, same, Ne.symm same]
        · have once : count = 1 := by omega
          by_cases same : other = owner
          · simp [release, heldBy, once, same]
          · simp [release, heldBy, once, same, Ne.symm same]
      · simp [heldBy, own] at held

theorem available_acquire {lock : ReentrantLock Thread} {thread : Thread}
    (free : lock.available thread = true) : (lock.acquire thread).available thread = true := by
  cases lock with
  | none => simp [acquire, available]
  | some hold => exact free

theorem heldBy_acquireTimes {lock : ReentrantLock Thread} {thread : Thread}
    (free : lock.available thread = true) (times : Nat) (other : Thread) :
    (lock.acquireTimes thread times).available thread = true ∧
      (lock.acquireTimes thread times).heldBy other =
        lock.heldBy other + if other = thread then times else 0 := by
  induction times with
  | zero => exact ⟨free, by simp [acquireTimes]⟩
  | succ times ih =>
      refine ⟨available_acquire ih.1, ?_⟩
      rw [acquireTimes, heldBy_acquire ih.1, ih.2]
      by_cases own : other = thread
      · simp only [if_pos own]
        omega
      · simp only [if_neg own, Nat.add_zero]

theorem available_of_released {lock : ReentrantLock Thread} {thread : Thread}
    (once : lock.heldBy thread = 1) : (lock.release).available thread = true := by
  cases lock with
  | none => rfl
  | some hold =>
      obtain ⟨owner, count, positive⟩ := hold
      by_cases own : owner = thread
      · subst own
        have single : count = 1 := by simpa [heldBy] using once
        subst single
        rfl
      · simp [heldBy, own] at once

end ReentrantLock

end Conclave.Lib
