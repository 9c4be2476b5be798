/-
  A fair lock, seen from outside: the call that holds it, and the queue of those that wait.

  A call that finds the lock free and nobody waiting gets it at once; a lock that is released is
  granted to the first of the queue, when this call runs on.

  `step` is the lock with the history of its calls.  In every run they get the lock in the order in
  which they have asked for it, but for those that have given up (`Fifo`).
-/
import Mathlib.Data.List.Basic

structure QueueLock where
  holder : Option ℕ := none
  waiters : List ℕ := []
  deriving DecidableEq, Repr

namespace QueueLock

/-- A call asks for the lock; whether it has got it. -/
def acquire (lock : QueueLock) (call : ℕ) : QueueLock × Bool :=
  if lock.holder = none ∧ lock.waiters = [] then ({ lock with holder := some call }, true)
  else ({ lock with waiters := lock.waiters ++ [call] }, false)

/-- The first of the queue gets the lock. -/
def grant (lock : QueueLock) (call : ℕ) : Option QueueLock :=
  if lock.holder = none ∧ lock.waiters.head? = some call then
    some { holder := some call, waiters := lock.waiters.tail }
  else none

def release (lock : QueueLock) : QueueLock := { lock with holder := none }

/-- A call that waits gives up. -/
def leave (lock : QueueLock) (call : ℕ) : QueueLock :=
  { lock with waiters := lock.waiters.erase call }

variable {lock lock' : QueueLock} {call : ℕ}

@[simp] theorem release_holder : lock.release.holder = none := rfl

@[simp] theorem leave_holder : (lock.leave call).holder = lock.holder := rfl

/-- A call gets the lock at once, and nobody held it, or the holder is the same. -/
theorem acquire_cases (lock : QueueLock) (call : ℕ) :
    (lock.holder = none ∧ (lock.acquire call).1.holder = some call ∧
      (lock.acquire call).2 = true) ∨
    ((lock.acquire call).1.holder = lock.holder ∧ (lock.acquire call).2 = false) := by
  unfold acquire
  split_ifs with h
  · exact .inl ⟨h.1, rfl, rfl⟩
  · exact .inr ⟨rfl, rfl⟩

theorem grant_holder (h : lock.grant call = some lock') :
    lock.holder = none ∧ lock'.holder = some call := by
  unfold grant at h
  split_ifs at h with hfree
  cases h
  exact ⟨hfree.1, rfl⟩

/-! ## Runs -/

inductive Action where
  | acquire (call : ℕ)
  | grant (call : ℕ)
  | release (call : ℕ)
  | leave (call : ℕ)
  deriving DecidableEq, Repr

/-- A lock, the calls that have asked for it and those that have got it. -/
structure History where
  lock : QueueLock := {}
  requested : List ℕ := []
  granted : List ℕ := []
  deriving DecidableEq, Repr

def step (h : History) : Action → Option History
  | .acquire call =>
    match h.lock.acquire call with
    | (lock, true) => some ⟨lock, h.requested ++ [call], h.granted ++ [call]⟩
    | (lock, false) => some ⟨lock, h.requested ++ [call], h.granted⟩
  | .grant call =>
    (h.lock.grant call).map fun lock => ⟨lock, h.requested, h.granted ++ [call]⟩
  | .release call =>
    if h.lock.holder = some call then some { h with lock := h.lock.release } else none
  | .leave call =>
    if call ∈ h.lock.waiters then some { h with lock := h.lock.leave call } else none

/-- First come, first served: the lock is with the last one that has got it. -/
structure Fifo (h : History) : Prop where
  order : (h.granted ++ h.lock.waiters).Sublist h.requested
  holder : ∀ call, h.lock.holder = some call → h.granted.getLast? = some call

theorem Fifo.init : Fifo {} := ⟨.slnil, nofun⟩

theorem Fifo.step {h h' : History} {a : Action} (hf : Fifo h) (hs : step h a = some h') :
    Fifo h' := by
  cases a with
  | acquire call =>
    simp only [QueueLock.step, acquire] at hs
    split_ifs at hs with hfree <;> cases hs
    · refine ⟨?_, fun n hn => ?_⟩
      · have horder := hf.order
        rw [hfree.2, List.append_nil] at horder
        show (h.granted ++ [call] ++ h.lock.waiters).Sublist _
        rw [hfree.2, List.append_nil]
        exact horder.append (List.Sublist.refl _)
      · rw [← hn]
        exact List.getLast?_concat
    · refine ⟨?_, hf.holder⟩
      show (h.granted ++ (h.lock.waiters ++ [call])).Sublist _
      rw [← List.append_assoc]
      exact hf.order.append (List.Sublist.refl _)
  | grant call =>
    obtain ⟨lock, hgrant, rfl⟩ := Option.map_eq_some_iff.1 hs
    unfold grant at hgrant
    split_ifs at hgrant with hfirst
    cases hgrant
    refine ⟨?_, fun n hn => ?_⟩
    · show (h.granted ++ [call] ++ h.lock.waiters.tail).Sublist _
      rw [List.append_assoc, List.singleton_append, List.cons_head?_tail hfirst.2]
      exact hf.order
    · rw [← hn]
      exact List.getLast?_concat
  | release call =>
    simp only [QueueLock.step] at hs
    split_ifs at hs
    cases hs
    exact ⟨hf.order, nofun⟩
  | leave call =>
    simp only [QueueLock.step] at hs
    split_ifs at hs
    cases hs
    exact ⟨(List.Sublist.append_left List.erase_sublist _).trans hf.order, hf.holder⟩

end QueueLock
