/-
  The fair lock (`api_async/backend/_common/fair_lock.py`).

  `FairLock` and the functions on it are the stretches of `acquire()` and `release()` between
  two suspension points.  `step` interleaves any number of calls: a call of `acquire()` that has
  to wait resumes when its event is set, and a cancellation is thrown into it at any time after
  the request, before or after its event is set.

  `fairLock_correct`: at most one call holds the lock, the calls that are not cancelled get it in
  the order in which they were made, and no wake-up is lost.
-/
import EasyNetwork.Lib.Trans
import Mathlib.Data.List.Nodup
import Mathlib.Order.Nat

namespace EasyNetwork

/-- A `FairLock` and the events it has created, by the number of the call that waits on them.
    `_waiters = None` is the empty queue. -/
structure FairLock where
  locked : Bool := false
  waiters : List ℕ := []
  isSet : ℕ → Bool := fun _ => false

namespace FairLock

/-- `_wake_up_first`. -/
def wakeUpFirst (lock : FairLock) : FairLock :=
  match lock.waiters with
  | [] => lock
  | waiter :: _ => { lock with isSet := Function.update lock.isSet waiter true }

/-- `acquire()` up to `await waiter.wait()`: the call has to wait, or it has the lock. -/
def acquire (lock : FairLock) (waiter : ℕ) : FairLock × Bool :=
  if lock.locked ∨ lock.waiters ≠ [] then
    ({ lock with
        waiters := lock.waiters ++ [waiter]
        isSet := Function.update lock.isSet waiter false }, true)
  else ({ lock with locked := true }, false)

/-- `acquire()` after `wait()` has returned. -/
def resume (lock : FairLock) (waiter : ℕ) : FairLock :=
  { lock with waiters := lock.waiters.erase waiter, locked := true }

/-- `acquire()` after `wait()` has raised an exception. -/
def interrupt (lock : FairLock) (waiter : ℕ) : FairLock :=
  let lock := { lock with waiters := lock.waiters.erase waiter }
  if lock.locked then lock else lock.wakeUpFirst

/-- `release()`; `none` is `RuntimeError("Lock not acquired")`. -/
def release (lock : FairLock) : Option FairLock :=
  if lock.locked then some { lock with locked := false }.wakeUpFirst else none

/-- Where a call of `acquire()` is. -/
inductive Status where
  | notCalled
  | waiting (cancelRequested : Bool)
  | holding
  | released
  | cancelled
  deriving DecidableEq, Repr

/-- The lock and the calls of `acquire()`, numbered in the order in which they are made. -/
structure State where
  lock : FairLock := {}
  calls : ℕ := 0
  status : ℕ → Status := fun _ => .notCalled
  /-- the calls that have got the lock, in the order in which they got it -/
  granted : List ℕ := []

/-- What the event loop and the tasks may do next. -/
inductive Action where
  | acquire
  | release (call : ℕ)
  /-- the task of a waiting call is cancelled -/
  | cancel (call : ℕ)
  /-- `wait()` returns -/
  | wake (call : ℕ)
  /-- the cancellation is thrown out of `wait()` -/
  | throw (call : ℕ)
  deriving DecidableEq, Repr

/-- The call that an action is about. -/
def Action.target (calls : ℕ) : Action → ℕ
  | .acquire => calls
  | .release call | .cancel call | .wake call | .throw call => call

def State.setStatus (s : State) (call : ℕ) (status : Status) : ℕ → Status :=
  Function.update s.status call status

/-- One step of an interleaving. -/
def step (s : State) : Action → Option State
  | .acquire =>
    match s.lock.acquire s.calls with
    | (lock, true) => some { s with
        lock
        calls := s.calls + 1
        status := s.setStatus s.calls (.waiting false) }
    | (lock, false) => some { s with
        lock
        calls := s.calls + 1
        status := s.setStatus s.calls .holding
        granted := s.granted ++ [s.calls] }
  | .release call =>
    if s.status call = .holding then
      match s.lock.release with
      | some lock => some { s with lock, status := s.setStatus call .released }
      | none => some s
    else none
  | .cancel call =>
    match s.status call with
    | .waiting _ => some { s with status := s.setStatus call (.waiting true) }
    | _ => none
  | .wake call =>
    match s.status call with
    | .waiting _ =>
      if s.lock.isSet call then some { s with
        lock := s.lock.resume call
        status := s.setStatus call .holding
        granted := s.granted ++ [call] }
      else none
    | _ => none
  | .throw call =>
    match s.status call with
    | .waiting true => some { s with
        lock := s.lock.interrupt call
        status := s.setStatus call .cancelled }
    | _ => none

/-! ## The functions on the lock -/

section
variable {lock : FairLock} {n m : ℕ}

@[simp] theorem wakeUpFirst_locked : lock.wakeUpFirst.locked = lock.locked := by
  unfold wakeUpFirst; split <;> rfl

@[simp] theorem wakeUpFirst_waiters : lock.wakeUpFirst.waiters = lock.waiters := by
  unfold wakeUpFirst; split <;> rfl

theorem wakeUpFirst_isSet : lock.wakeUpFirst.isSet n = true ↔
    lock.isSet n = true ∨ lock.waiters.head? = some n := by
  unfold wakeUpFirst
  split
  next h => simp [h]
  next waiter waiters h =>
    by_cases hn : n = waiter
    · simp [h, hn]
    · simp [h, Function.update_of_ne hn, Ne.symm hn]

@[simp] theorem interrupt_locked : (lock.interrupt n).locked = lock.locked := by
  unfold interrupt; dsimp only; split <;> simp

@[simp] theorem interrupt_waiters : (lock.interrupt n).waiters = lock.waiters.erase n := by
  unfold interrupt; dsimp only; split <;> simp

theorem interrupt_isSet : (lock.interrupt n).isSet m = true ↔
    lock.isSet m = true ∨ lock.locked = false ∧ (lock.waiters.erase n).head? = some m := by
  unfold interrupt
  dsimp only
  rcases hl : lock.locked with _ | _
  · simp [wakeUpFirst_isSet]
  · simp

end

/-! ## The invariant -/

/-- Calls wait in the order in which they were made; only the first of them may have been woken
    up, and it has been when nothing holds the lock. -/
structure Inv (s : State) : Prop where
  notCalled_iff : ∀ n, s.status n = .notCalled ↔ s.calls ≤ n
  waiting_iff : ∀ n, n ∈ s.lock.waiters ↔ ∃ c, s.status n = .waiting c
  sorted : s.lock.waiters.Pairwise (· < ·)
  holding_locked : ∀ n, s.status n = .holding → s.lock.locked = true
  locked_holding : s.lock.locked = true → ∃ n, s.status n = .holding
  holding_unique : ∀ m n, s.status m = .holding → s.status n = .holding → m = n
  set_head : ∀ n ∈ s.lock.waiters, s.lock.isSet n = true →
    s.lock.locked = false ∧ s.lock.waiters.head? = some n
  woken : s.lock.locked = false → ∀ n, s.lock.waiters.head? = some n → s.lock.isSet n = true
  granted_iff : ∀ n, n ∈ s.granted ↔ s.status n = .holding ∨ s.status n = .released
  granted_sorted : s.granted.Pairwise (· < ·)
  granted_lt : ∀ n ∈ s.granted, ∀ m ∈ s.lock.waiters, n < m

namespace Inv
variable {s s' : State} {n : ℕ}

theorem init : Inv {} := by
  constructor <;> simp

/-- What the move of one call does not change. -/
theorem status_iff {P : Status → Prop} {t : Status} (ht : P t ↔ P (s.status n)) (m : ℕ) :
    P (if m = n then t else s.status m) ↔ P (s.status m) := by
  split_ifs with hm
  · rw [hm]
    exact ht
  · rfl

/-- A call that has been made stays so. -/
theorem notCalled_setStatus (h : Inv s) {t : Status} (hn : s.status n ≠ .notCalled)
    (ht : t ≠ .notCalled) (m : ℕ) : (if m = n then t else s.status m) = .notCalled ↔ s.calls ≤ m := by
  rw [← h.notCalled_iff m]
  exact status_iff (P := (· = .notCalled)) (iff_of_false ht hn) m

theorem waiting_lt (h : Inv s) (hn : n ∈ s.lock.waiters) : n < s.calls := by
  obtain ⟨c, hc⟩ := (h.waiting_iff n).1 hn
  by_contra hle
  rw [(h.notCalled_iff n).2 (Nat.not_lt.1 hle)] at hc
  cases hc

theorem granted_lt_calls (h : Inv s) (hn : n ∈ s.granted) : n < s.calls := by
  by_contra hle
  have hnot := (h.notCalled_iff n).2 (Nat.not_lt.1 hle)
  rcases (h.granted_iff n).1 hn with hc | hc <;> rw [hnot] at hc <;> cases hc

theorem nodup (h : Inv s) : s.lock.waiters.Nodup := h.sorted.imp Nat.ne_of_lt

/-- A queue that grows at its end. -/
theorem pairwise_concat {ns : List ℕ} (hns : ns.Pairwise (· < ·)) (hlt : ∀ m ∈ ns, m < n) :
    (ns ++ [n]).Pairwise (· < ·) := by
  rw [List.pairwise_append]
  refine ⟨hns, List.pairwise_singleton _ _, ?_⟩
  intro m hm k hk
  rw [List.mem_singleton.1 hk]
  exact hlt m hm

/-- Nothing holds a free lock. -/
theorem not_holding (h : Inv s) (hl : s.lock.locked = false) (n : ℕ) : s.status n ≠ .holding := by
  intro hn
  rw [h.holding_locked n hn] at hl
  cases hl

/-- The call that gets a free lock is the only one that holds it. -/
theorem holding_unique_setStatus (h : Inv s) (hl : s.lock.locked = false) (m k : ℕ) :
    (if m = n then .holding else s.status m) = Status.holding →
      (if k = n then .holding else s.status k) = Status.holding → m = k := by
  split_ifs with hm hk hk
  · exact fun _ _ => hm.trans hk.symm
  · exact fun _ hc => absurd hc (h.not_holding hl k)
  · exact fun hc _ => absurd hc (h.not_holding hl m)
  · exact fun hc _ => absurd hc (h.not_holding hl m)

/-- A call that neither waits before nor after, or does both, leaves the queue as it is. -/
theorem waiting_setStatus (h : Inv s) {t : Status}
    (ht : (∃ c, t = .waiting c) ↔ ∃ c, s.status n = .waiting c) (m : ℕ) :
    m ∈ s.lock.waiters ↔ ∃ c, (if m = n then t else s.status m) = .waiting c := by
  rw [h.waiting_iff m]
  exact (status_iff (P := fun t => ∃ c, t = .waiting c) ht m).symm

/-- The same for the calls that have got the lock. -/
theorem granted_setStatus (h : Inv s) {t : Status}
    (ht : t = .released ↔ s.status n = .released) (m : ℕ) : m ∈ s.granted ↔
      s.status m = .holding ∨ (if m = n then t else s.status m) = .released := by
  rw [h.granted_iff m]
  exact or_congr_right (status_iff (P := (· = .released)) ht m).symm

/-- A call that is made gets the lock, when the lock is free and nothing waits. -/
theorem acquire_fast (h : Inv s) (hl : s.lock.locked = false) (hw : s.lock.waiters = []) :
    Inv { s with
      lock := { s.lock with locked := true }
      calls := s.calls + 1
      status := s.setStatus s.calls .holding
      granted := s.granted ++ [s.calls] } := by
  have hnew := (h.notCalled_iff s.calls).2 le_rfl
  constructor <;> simp only [State.setStatus, Function.update_apply, hw]
  · intro n
    split_ifs with hn
    · simp [hn]
    · rw [h.notCalled_iff n]
      omega
  · intro n
    have := h.waiting_iff n
    rw [hw] at this
    split_ifs with hn
    · simp
    · exact this
  · exact .nil
  · intro _ _; trivial
  · intro _; exact ⟨s.calls, if_pos rfl⟩
  · exact h.holding_unique_setStatus hl
  · simp
  · simp
  · intro n
    have := h.granted_iff n
    split_ifs with hn
    · simp [hn]
    · simpa [hn] using this
  · exact pairwise_concat h.granted_sorted fun m hm => h.granted_lt_calls hm
  · simp

/-- A call that is made waits, otherwise. -/
theorem acquire_slow (h : Inv s) (hl : s.lock.locked = true ∨ s.lock.waiters ≠ []) :
    Inv { s with
      lock := { s.lock with
        waiters := s.lock.waiters ++ [s.calls]
        isSet := Function.update s.lock.isSet s.calls false }
      calls := s.calls + 1
      status := s.setStatus s.calls (.waiting false) } := by
  have hne : ∀ m ∈ s.lock.waiters, m ≠ s.calls := fun m hm => (h.waiting_lt hm).ne
  constructor <;> simp only [State.setStatus, Function.update_apply]
  · intro n
    split_ifs with hn
    · simp [hn]
    · rw [h.notCalled_iff n]
      omega
  · intro n
    have := h.waiting_iff n
    split_ifs with hn
    · simp [hn]
    · simpa [hn] using this
  · exact pairwise_concat h.sorted fun m hm => h.waiting_lt hm
  · intro n
    split_ifs with hn
    · intro hc; cases hc
    · exact h.holding_locked n
  · intro hlocked
    obtain ⟨n, hn⟩ := h.locked_holding hlocked
    have hne : n ≠ s.calls := by
      rintro rfl
      rw [(h.notCalled_iff _).2 le_rfl] at hn
      cases hn
    exact ⟨n, by rw [if_neg hne]; exact hn⟩
  · intro m n
    split_ifs with hm hn hn
    · intro hc; cases hc
    · intro hc; cases hc
    · intro _ hc; cases hc
    · exact h.holding_unique m n
  · intro n hn
    split_ifs with hc
    · intro hf; cases hf
    · intro hset
      have hmem : n ∈ s.lock.waiters := by simpa [hc] using hn
      obtain ⟨h1, h2⟩ := h.set_head n hmem hset
      exact ⟨h1, by rw [List.head?_append, h2]; rfl⟩
  · intro hunlocked n hn
    have hw : s.lock.waiters ≠ [] := by
      rcases hl with hl | hl
      · rw [hunlocked] at hl; cases hl
      · exact hl
    obtain ⟨w, ws, hws⟩ := List.exists_cons_of_ne_nil hw
    have hhead : s.lock.waiters.head? = some n := by
      rw [hws] at hn ⊢
      exact hn
    rw [if_neg (hne n (List.mem_of_head? hhead))]
    exact h.woken hunlocked n hhead
  · intro n
    have := h.granted_iff n
    split_ifs with hn
    · subst hn
      simpa using fun hm => (h.granted_lt_calls hm).ne rfl
    · exact this
  · exact h.granted_sorted
  · intro n hn m hm
    rcases List.mem_append.1 hm with hm | hm
    · exact h.granted_lt n hn m hm
    · rw [List.mem_singleton.1 hm]
      exact h.granted_lt_calls hn

/-- The request of a cancellation changes nothing for the lock. -/
theorem cancel {c : Bool} (h : Inv s) (hn : s.status n = .waiting c) :
    Inv { s with status := s.setStatus n (.waiting true) } := by
  have hholding : ∀ m, (if m = n then Status.waiting true else s.status m) = .holding ↔
      s.status m = .holding := fun m => status_iff (P := (· = .holding)) (by simp [hn]) m
  constructor <;> simp only [State.setStatus, Function.update_apply, hholding]
  · exact h.notCalled_setStatus (by simp [hn]) nofun
  · exact h.waiting_setStatus (by simp [hn])
  · exact h.sorted
  · exact h.holding_locked
  · exact h.locked_holding
  · exact h.holding_unique
  · exact h.set_head
  · exact h.woken
  · exact h.granted_setStatus (by simp [hn])
  · exact h.granted_sorted
  · exact h.granted_lt

/-- A call that is woken up gets the lock: it is the first one, and nothing holds the lock. -/
theorem wake {c : Bool} (h : Inv s) (hn : s.status n = .waiting c)
    (hset : s.lock.isSet n = true) :
    Inv { s with
      lock := s.lock.resume n
      status := s.setStatus n .holding
      granted := s.granted ++ [n] } := by
  have hmem : n ∈ s.lock.waiters := (h.waiting_iff n).2 ⟨c, hn⟩
  obtain ⟨hl, hhead⟩ := h.set_head n hmem hset
  obtain ⟨ws, hw⟩ := List.head?_eq_some_iff.1 hhead
  have hsorted := h.sorted
  rw [hw, List.pairwise_cons] at hsorted
  have hne : ∀ m ∈ ws, m ≠ n := fun m hm => (hsorted.1 m hm).ne'
  constructor <;> simp only [State.setStatus, Function.update_apply, resume, hw,
    List.erase_cons_head]
  · exact h.notCalled_setStatus (by simp [hn]) nofun
  · intro m
    split_ifs with hm
    · simpa [hm] using fun hmem => hne n hmem rfl
    · rw [← h.waiting_iff m, hw, List.mem_cons]
      simp [hm]
  · exact hsorted.2
  · intro _ _; trivial
  · intro _; exact ⟨n, if_pos rfl⟩
  · exact h.holding_unique_setStatus hl
  · intro m hm hset'
    obtain ⟨-, h2⟩ := h.set_head m (by rw [hw]; exact List.mem_cons_of_mem _ hm) hset'
    rw [hhead] at h2
    exact absurd (Option.some.inj h2).symm (hne m hm)
  · simp
  · intro m
    have := h.granted_iff m
    split_ifs with hm
    · simp [hm]
    · simpa [hm] using this
  · exact pairwise_concat h.granted_sorted fun m hm => h.granted_lt m hm n hmem
  · intro m hm k hk
    rcases List.mem_append.1 hm with hm | hm
    · exact h.granted_lt m hm k (by rw [hw]; exact List.mem_cons_of_mem _ hk)
    · rw [List.mem_singleton.1 hm]
      exact hsorted.1 k hk

/-- A call that is cancelled leaves the queue, and wakes up the first of those that are left when
    nothing holds the lock. -/
theorem throw {c : Bool} (h : Inv s) (hn : s.status n = .waiting c) :
    Inv { s with lock := s.lock.interrupt n, status := s.setStatus n .cancelled } := by
  have hmem : ∀ m, m ∈ s.lock.waiters.erase n ↔ m ≠ n ∧ m ∈ s.lock.waiters :=
    fun m => h.nodup.mem_erase_iff
  have hholding : ∀ m, (if m = n then Status.cancelled else s.status m) = .holding ↔
      s.status m = .holding := fun m => status_iff (P := (· = .holding)) (by simp [hn]) m
  constructor <;> simp only [State.setStatus, Function.update_apply, interrupt_locked,
    interrupt_waiters, interrupt_isSet, hholding]
  · exact h.notCalled_setStatus (by simp [hn]) nofun
  · intro m
    rw [hmem, h.waiting_iff m]
    split_ifs with hm
    · simp [hm]
    · simp [hm]
  · exact h.sorted.sublist List.erase_sublist
  · exact h.holding_locked
  · exact h.locked_holding
  · exact h.holding_unique
  · intro m hm hset
    rcases hset with hset | hset
    · obtain ⟨hne, hm⟩ := (hmem m).1 hm
      obtain ⟨hl, hhead⟩ := h.set_head m hm hset
      obtain ⟨ws, hw⟩ := List.head?_eq_some_iff.1 hhead
      refine ⟨hl, ?_⟩
      rw [hw, List.erase_cons_tail (by simpa using hne)]
      rfl
    · exact hset
  · intro hl m hm
    exact .inr ⟨hl, hm⟩
  · exact h.granted_setStatus (by simp [hn])
  · exact h.granted_sorted
  · intro m hm k hk
    exact h.granted_lt m hm k ((hmem k).1 hk).2

/-- The call that holds the lock can release it, and wakes up the first of those that wait. -/
theorem release (h : Inv s) (hn : s.status n = .holding) :
    ∃ lock, s.lock.release = some lock ∧
      Inv { s with lock, status := s.setStatus n .released } := by
  have hl := h.holding_locked n hn
  refine ⟨_, by rw [FairLock.release, if_pos hl], ?_⟩
  have hnone : ∀ m, (if m = n then Status.released else s.status m) ≠ .holding := by
    intro m
    split_ifs with hm
    · simp
    · intro hc
      exact hm (h.holding_unique m n hc hn)
  constructor <;> simp only [State.setStatus, Function.update_apply, wakeUpFirst_locked,
    wakeUpFirst_waiters, wakeUpFirst_isSet]
  · exact h.notCalled_setStatus (by simp [hn]) nofun
  · exact h.waiting_setStatus (by simp [hn])
  · exact h.sorted
  · intro m hm
    exact absurd hm (hnone m)
  · intro hc; cases hc
  · intro m k hm
    exact absurd hm (hnone m)
  · intro m hm hset
    rcases hset with hset | hset
    · have := (h.set_head m hm hset).1
      rw [hl] at this
      cases this
    · exact ⟨trivial, hset⟩
  · intro _ m hm
    exact .inr hm
  · intro m
    rw [h.granted_iff m]
    exact (status_iff (P := fun t => t = .holding ∨ t = .released) (by simp [hn]) m).symm
  · exact h.granted_sorted
  · exact h.granted_lt

/-- **Step lemma.** -/
theorem step {a : Action} (h : Inv s) (hs : FairLock.step s a = some s') : Inv s' := by
  cases a with
  | acquire =>
    rw [FairLock.step, acquire] at hs
    split_ifs at hs with hw
    · cases hs
      exact h.acquire_slow hw
    · cases hs
      rw [not_or, Bool.not_eq_true, not_not] at hw
      exact h.acquire_fast hw.1 hw.2
  | release call =>
    rw [FairLock.step] at hs
    split_ifs at hs with hholding
    obtain ⟨lock, hrelease, h'⟩ := h.release hholding
    rw [hrelease] at hs
    cases hs
    exact h'
  | cancel call =>
    rw [FairLock.step] at hs
    split at hs <;> cases hs
    next c hc => exact h.cancel hc
  | wake call =>
    rw [FairLock.step] at hs
    split at hs
    next c hc =>
      split_ifs at hs with hset
      cases hs
      exact h.wake hc hset
    next => cases hs
  | throw call =>
    rw [FairLock.step] at hs
    split at hs <;> cases hs
    next hc => exact h.throw hc

/-- **Run lemma.** -/
theorem run {as : List Action} (hs : Trans.run FairLock.step {} as = some s) : Inv s :=
  Trans.run_inv (fun _ _ _ h hs => h.step hs) init hs

end Inv

/-- A step only concerns the call that it is about. -/
theorem step_others {s s' : State} {a : Action} (h : step s a = some s') :
    s.calls ≤ s'.calls ∧ ∀ m ≠ a.target s.calls, s'.status m = s.status m := by
  cases a with
  | acquire =>
    rw [step, acquire] at h
    split_ifs at h with hw <;> cases h <;>
      exact ⟨Nat.le_succ _, fun m hm => Function.update_of_ne hm _ _⟩
  | release call =>
    rw [step] at h
    split_ifs at h with hholding
    split at h <;> cases h
    · exact ⟨le_rfl, fun m hm => Function.update_of_ne hm _ _⟩
    · exact ⟨le_rfl, fun m hm => rfl⟩
  | cancel call =>
    rw [step] at h
    split at h <;> cases h
    exact ⟨le_rfl, fun m hm => Function.update_of_ne hm _ _⟩
  | wake call =>
    rw [step] at h
    split at h
    next c hc =>
      split_ifs at h with hset
      cases h
      exact ⟨le_rfl, fun m hm => Function.update_of_ne hm _ _⟩
    next => cases h
  | throw call =>
    rw [step] at h
    split at h <;> cases h
    exact ⟨le_rfl, fun m hm => Function.update_of_ne hm _ _⟩

theorem step_acquire {s s' : State} (h : step s .acquire = some s') : s'.calls = s.calls + 1 := by
  rw [step, acquire] at h
  split_ifs at h with hw <;> cases h <;> rfl

theorem step_wake {s s' : State} {n : ℕ} (h : step s (.wake n) = some s') :
    s'.status n = .holding := by
  rw [step] at h
  split at h
  next c hc =>
    split_ifs at h with hset
    cases h
    exact Function.update_self _ _ _
  next => cases h

/-- **The fair lock is a lock, it is fair, and it loses no wake-up.** -/
theorem fairLock_correct {as : List Action} {s : State} (h : Trans.run step {} as = some s) :
    (∀ m n, s.status m = .holding → s.status n = .holding → m = n) ∧
    (s.lock.locked = true ↔ ∃ n, s.status n = .holding) ∧
    s.granted.Pairwise (· < ·) ∧
    (∀ n ∈ s.granted, ∀ m < n, m ∈ s.granted ∨ s.status m = .cancelled) ∧
    (s.lock.locked = false → ∀ n, s.lock.waiters.head? = some n → s.lock.isSet n = true) := by
  have hi := Inv.run h
  refine ⟨hi.holding_unique, ⟨hi.locked_holding, fun ⟨n, hn⟩ => hi.holding_locked n hn⟩,
    hi.granted_sorted, ?_, hi.woken⟩
  · intro n hn m hm
    rcases hstatus : s.status m with _ | c | _ | _ | _
    · have := (hi.notCalled_iff m).1 hstatus
      have := hi.granted_lt_calls hn
      omega
    · have := hi.granted_lt n hn m ((hi.waiting_iff m).2 ⟨c, hstatus⟩)
      omega
    · exact .inl ((hi.granted_iff m).2 (.inl hstatus))
    · exact .inl ((hi.granted_iff m).2 (.inr hstatus))
    · exact .inr rfl

/-- The second call is cancelled, and the first one releases the lock before the cancellation is
    thrown: the third one takes the lock over. -/
theorem fairLock_cancel_race : ∃ s, Trans.run step {} [.acquire, .acquire, .acquire, .acquire,
      .cancel 1, .release 0, .throw 1, .wake 2, .release 2] = some s ∧
    s.granted = [0, 2] ∧ s.status 1 = .cancelled ∧ s.lock.isSet 3 = true := by
  obtain ⟨s, hs⟩ : ∃ s, Trans.run step {} [.acquire, .acquire, .acquire, .acquire,
      .cancel 1, .release 0, .throw 1, .wake 2, .release 2] = some s := ⟨_, rfl⟩
  obtain ⟨-, -, -, -, hwoken⟩ := fairLock_correct hs
  have hview : some (s.granted, s.status 1, s.lock.locked, s.lock.waiters) =
      some ([0, 2], .cancelled, false, [3]) := by
    rw [← Option.map_some (f := fun s : State =>
      (s.granted, s.status 1, s.lock.locked, s.lock.waiters)), ← hs]
    rfl
  simp only [Option.some.injEq, Prod.mk.injEq] at hview
  obtain ⟨hgranted, hcancelled, hlocked, hwaiters⟩ := hview
  exact ⟨s, hs, hgranted, hcancelled, hwoken hlocked 3 (by rw [hwaiters]; rfl)⟩

end FairLock

end EasyNetwork
