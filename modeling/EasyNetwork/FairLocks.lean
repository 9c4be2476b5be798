/-
  The two fair locks (`api_async/backend/_common/fair_lock.py`, `_trio/_trio_utils.py`).

  Both are queue locks: a lock that is released goes to the call that has waited for the longest
  time, and a call that gives up leaves the queue.  `FairLock` leaves the first waiter in the queue
  until it runs on; `FastFIFOLock` takes it out of the parking lot, and stays locked for it.

  * `fairLock_refines`, `fastFIFOLock_refines`: what the calls of the lock do is a run of a queue
    lock, and when the queue lock may be granted to a call, this call can run on.

  A trio task that is cancelled in `park()` leaves the lot at once; one that has been unparked can
  no longer be cancelled before `acquire()` returns.
-/
import EasyNetwork.FairLock
import EasyNetwork.Lib.QueueLock

namespace EasyNetwork

/-! ## `FairLock` -/

namespace FairLock

/-- What a step is for a queue lock. -/
def observe (s : State) : Action → List QueueLock.Action
  | .acquire => [.acquire s.calls]
  | .release call => [.release call]
  | .cancel _ => []
  | .wake call => [.grant call]
  | .throw call => [.leave call]

/-- The lock stands for a queue lock with this history. -/
structure Refines (s : State) (h : QueueLock.History) : Prop where
  waiters : h.lock.waiters = s.lock.waiters
  holder : ∀ n, h.lock.holder = some n ↔ s.status n = .holding
  requested : h.requested = List.range s.calls
  granted : h.granted = s.granted

theorem Refines.init : Refines {} {} :=
  ⟨rfl, fun _ => iff_of_false (by rintro ⟨⟩) (by rintro ⟨⟩), rfl, rfl⟩

namespace Refines
variable {s s' : State} {h : QueueLock.History} {n : ℕ}

theorem holder_eq_none (hr : Refines s h) (hinv : Inv s) :
    h.lock.holder = none ↔ s.lock.locked = false := by
  rw [Option.eq_none_iff_forall_ne_some, Bool.eq_false_iff]
  constructor
  · intro hnone hlocked
    obtain ⟨n, hn⟩ := hinv.locked_holding hlocked
    exact hnone n ((hr.holder n).2 hn)
  · intro hlocked n hn
    exact hlocked (hinv.holding_locked n ((hr.holder n).1 hn))

/-- A call that is woken up is granted the lock. -/
theorem grant_iff (hr : Refines s h) (hinv : Inv s) :
    h.lock.holder = none ∧ h.lock.waiters.head? = some n ↔
      n ∈ s.lock.waiters ∧ s.lock.isSet n = true := by
  rw [hr.holder_eq_none hinv, hr.waiters]
  constructor
  · rintro ⟨hfree, hhead⟩
    exact ⟨List.mem_of_head? hhead, hinv.woken hfree n hhead⟩
  · rintro ⟨hmem, hset⟩
    exact hinv.set_head n hmem hset

/-- A call that is made asks for the lock. -/
theorem acquire (hr : Refines s h) (hinv : Inv s) (hs : step s .acquire = some s') :
    ∃ h', QueueLock.step h (.acquire s.calls) = some h' ∧ Refines s' h' := by
  have hnew : s.status s.calls = .notCalled := (hinv.notCalled_iff _).2 (Nat.le_refl _)
  have hfree : (h.lock.holder = none ∧ h.lock.waiters = []) ↔
      ¬ (s.lock.locked = true ∨ s.lock.waiters ≠ []) := by
    rw [hr.holder_eq_none hinv, hr.waiters, not_or, not_not, Bool.not_eq_true]
  simp only [step, FairLock.acquire] at hs
  simp only [QueueLock.step, QueueLock.acquire]
  by_cases hwait : s.lock.locked = true ∨ s.lock.waiters ≠ []
  · rw [if_pos hwait] at hs
    cases hs
    rw [if_neg (fun hc => hfree.1 hc hwait)]
    refine ⟨_, rfl, ?_, fun n => (hr.holder n).trans ?_, ?_, hr.granted⟩
    · show h.lock.waiters ++ _ = _
      rw [hr.waiters]
    · show _ ↔ Function.update s.status s.calls _ n = _
      by_cases hn : n = s.calls
      · rw [hn, Function.update_self, hnew]
        exact iff_of_false (by rintro ⟨⟩) (by rintro ⟨⟩)
      · rw [Function.update_of_ne hn]
    · show h.requested ++ _ = _
      rw [hr.requested, List.range_succ]
  · rw [if_neg hwait] at hs
    cases hs
    rw [if_pos (hfree.2 hwait)]
    refine ⟨_, rfl, hr.waiters, fun n => ?_, ?_, ?_⟩
    · show some s.calls = some n ↔ Function.update s.status s.calls _ n = _
      by_cases hn : n = s.calls
      · rw [hn, Function.update_self]
        exact iff_of_true rfl rfl
      · rw [Function.update_of_ne hn, ← hr.holder n, (hfree.2 hwait).1]
        exact iff_of_false (fun hc => hn (Option.some.inj hc).symm) (by rintro ⟨⟩)
    · show h.requested ++ _ = _
      rw [hr.requested, List.range_succ]
    · show h.granted ++ _ = _
      rw [hr.granted]

/-- Another call becomes neither the holder nor ceases to be it. -/
theorem holder_setStatus (hr : Refines s h) {call : ℕ} {status : Status}
    (hcall : s.status call ≠ .holding) (hstatus : status ≠ .holding) (n : ℕ) :
    h.lock.holder = some n ↔ s.setStatus call status n = .holding := by
  rw [hr.holder n]
  show _ ↔ Function.update s.status call status n = _
  by_cases hn : n = call
  · rw [hn, Function.update_self]
    exact iff_of_false hcall hstatus
  · rw [Function.update_of_ne hn]

theorem release (hr : Refines s h) (hinv : Inv s) {call : ℕ}
    (hs : step s (.release call) = some s') :
    ∃ h', QueueLock.step h (.release call) = some h' ∧ Refines s' h' := by
  simp only [step, FairLock.release] at hs
  split_ifs at hs with hholding hlocked
  · cases hs
    have hholder := (hr.holder call).2 hholding
    refine ⟨_, if_pos hholder, ?_, fun n => ?_, hr.requested, hr.granted⟩
    · rw [wakeUpFirst_waiters]
      exact hr.waiters
    · show none = some n ↔ Function.update s.status call .released n = .holding
      refine iff_of_false (by rintro ⟨⟩) fun hn => ?_
      by_cases hne : n = call
      · rw [hne, Function.update_self] at hn
        cases hn
      · rw [Function.update_of_ne hne] at hn
        exact hne (hinv.holding_unique n call hn hholding)
  · exact absurd (hinv.holding_locked call hholding) hlocked

theorem wake (hr : Refines s h) (hinv : Inv s) {call : ℕ} (hs : step s (.wake call) = some s') :
    ∃ h', QueueLock.step h (.grant call) = some h' ∧ Refines s' h' := by
  simp only [step] at hs
  split at hs
  · next c hwaiting =>
    split_ifs at hs with hset
    cases hs
    have hmem := (hinv.waiting_iff call).2 ⟨c, hwaiting⟩
    have hgrant := (hr.grant_iff hinv).2 ⟨hmem, hset⟩
    have herase : s.lock.waiters.erase call = s.lock.waiters.tail := by
      rw [hr.waiters] at hgrant
      rw [← List.cons_head?_tail hgrant.2, List.erase_cons_head, List.tail_cons]
    refine ⟨⟨{ holder := some call, waiters := h.lock.waiters.tail }, h.requested,
      h.granted ++ [call]⟩, ?_, ?_, fun n => ?_, hr.requested, ?_⟩
    · rw [QueueLock.step, QueueLock.grant, if_pos hgrant]
      rfl
    · show h.lock.waiters.tail = s.lock.waiters.erase call
      rw [hr.waiters, herase]
    · show some call = some n ↔ Function.update s.status call .holding n = .holding
      by_cases hn : n = call
      · rw [hn, Function.update_self]
        exact iff_of_true rfl rfl
      · rw [Function.update_of_ne hn, ← hr.holder n, hgrant.1]
        exact iff_of_false (fun hc => hn (Option.some.inj hc).symm) (by rintro ⟨⟩)
    · show h.granted ++ _ = _
      rw [hr.granted]
  · cases hs

/-- The queue lock may be granted to the calls that can run on, and to no others. -/
theorem isSome_grant (hr : Refines s h) (hinv : Inv s) (n : ℕ) :
    (h.lock.grant n).isSome = (FairLock.step s (.wake n)).isSome := by
  rw [Bool.eq_iff_iff]
  constructor
  · intro hgrant
    rw [QueueLock.grant] at hgrant
    split_ifs at hgrant with hfirst
    · obtain ⟨hmem, hset⟩ := (hr.grant_iff hinv).1 hfirst
      obtain ⟨c, hc⟩ := (hinv.waiting_iff n).1 hmem
      simp only [FairLock.step, hc, if_pos hset]
      rfl
    · cases hgrant
  · intro hwake
    obtain ⟨s', hs'⟩ := Option.isSome_iff_exists.1 hwake
    obtain ⟨h', hgrant, -⟩ := hr.wake hinv hs'
    obtain ⟨lock, hlock, -⟩ := Option.map_eq_some_iff.1 hgrant
    rw [hlock]
    rfl

theorem throw (hr : Refines s h) (hinv : Inv s) {call : ℕ} (hs : step s (.throw call) = some s') :
    ∃ h', QueueLock.step h (.leave call) = some h' ∧ Refines s' h' := by
  simp only [step] at hs
  split at hs
  · next hwaiting =>
    cases hs
    have hmem : call ∈ h.lock.waiters := by
      rw [hr.waiters]
      exact (hinv.waiting_iff call).2 ⟨true, hwaiting⟩
    have hne : s.status call ≠ .holding := by
      rw [hwaiting]
      rintro ⟨⟩
    refine ⟨_, if_pos hmem, ?_, hr.holder_setStatus hne (by rintro ⟨⟩), hr.requested, hr.granted⟩
    show h.lock.waiters.erase call = _
    rw [hr.waiters, interrupt_waiters]
  · cases hs

/-- **Step lemma.** -/
theorem step (hr : Refines s h) (hinv : Inv s) {a : Action} (hs : step s a = some s') :
    ∃ h', Trans.run QueueLock.step h (observe s a) = some h' ∧ Refines s' h' := by
  have hone : ∀ b, (∃ h', QueueLock.step h b = some h' ∧ Refines s' h') →
      ∃ h', Trans.run QueueLock.step h [b] = some h' ∧ Refines s' h' := by
    rintro b ⟨h', hstep, hr'⟩
    exact ⟨h', Trans.run_cons_iff.2 ⟨h', hstep, rfl⟩, hr'⟩
  cases a with
  | acquire => exact hone _ (hr.acquire hinv hs)
  | release call => exact hone _ (hr.release hinv hs)
  | cancel call =>
    simp only [FairLock.step] at hs
    split at hs
    · next hwaiting =>
      cases hs
      have hne : s.status call ≠ .holding := by
        rw [hwaiting]
        rintro ⟨⟩
      exact ⟨h, rfl, hr.waiters, hr.holder_setStatus hne (by rintro ⟨⟩), hr.requested, hr.granted⟩
    · cases hs
  | wake call => exact hone _ (hr.wake hinv hs)
  | throw call => exact hone _ (hr.throw hinv hs)

end Refines

/-- **`FairLock` is a queue lock**: the calls of `acquire()` and `release()`, in whatever order and
wherever they are cancelled, make up a run of a queue lock; its holder is the call that holds the
lock, and what it may be granted to, and nothing else, can run on. -/
theorem fairLock_refines {as : List Action} {s : State} (h : Trans.run step {} as = some s) :
    ∃ q, Trans.run QueueLock.step {} (Trans.trace step observe {} as) = some q ∧
      (∀ n, q.lock.holder = some n ↔ s.status n = .holding) ∧ q.granted = s.granted ∧
      q.requested = List.range s.calls ∧
      ∀ n, (q.lock.grant n).isSome = (step s (.wake n)).isSome := by
  have hstep : ∀ s a s' t, Inv s ∧ Refines s t → step s a = some s' →
      ∃ t', Trans.run QueueLock.step t (observe s a) = some t' ∧ Inv s' ∧ Refines s' t' := by
    rintro s a s' t ⟨hinv, hr⟩ hs
    obtain ⟨t', ht', hr'⟩ := hr.step hinv hs
    exact ⟨t', ht', hinv.step hs, hr'⟩
  obtain ⟨q, hq, hinv, hr⟩ := Trans.run_simulates hstep ⟨Inv.init, Refines.init⟩ h
  exact ⟨q, hq, hr.holder, hr.granted, hr.requested, hr.isSome_grant hinv⟩

/-- The second call is cancelled after the lock has been released, and the third one gets it. -/
theorem fairLock_refines_race : ∃ s q, Trans.run step {} [.acquire, .acquire, .acquire, .release 0,
      .cancel 1, .throw 1, .wake 2] = some s ∧
    Trans.run QueueLock.step {} [.acquire 0, .acquire 1, .acquire 2, .release 0, .leave 1,
      .grant 2] = some q ∧
    q.granted = s.granted ∧ (q.lock.holder = some 2 ↔ s.status 2 = .holding) := by
  obtain ⟨s, hs⟩ : ∃ s, Trans.run step {} [.acquire, .acquire, .acquire, .release 0,
      .cancel 1, .throw 1, .wake 2] = some s := ⟨_, rfl⟩
  obtain ⟨q, hq, hholder, hgranted, -, -⟩ := fairLock_refines hs
  exact ⟨s, q, hs, hq, hgranted, hholder 2⟩

end FairLock

/-! ## `FastFIFOLock` -/

/-- A `trio.lowlevel.ParkingLot`; `parked` are the tasks in it, and `unpark` is `unpark(count=1)`
with the task that it reschedules.  A task that is cancelled in `park()` leaves the lot. -/
structure ParkingLot (κ : Type) where
  empty : κ
  parked : κ → List ℕ
  park : κ → ℕ → κ
  unpark : κ → κ × Option ℕ
  abort : κ → ℕ → κ

/-- A parking lot is a fair wait queue. -/
structure ParkingLot.Lawful {κ : Type} (P : ParkingLot κ) : Prop where
  empty : P.parked P.empty = []
  park : ∀ lot n, P.parked (P.park lot n) = P.parked lot ++ [n]
  unpark : ∀ lot, P.parked (P.unpark lot).1 = (P.parked lot).tail ∧
    (P.unpark lot).2 = (P.parked lot).head?
  abort : ∀ lot n, P.parked (P.abort lot n) = (P.parked lot).erase n

/-- A `FastFIFOLock`, with its parking lot. -/
structure FastFIFOLock (κ : Type) where
  locked : Bool := false
  lot : κ

namespace FastFIFOLock

/-- Where a call of `acquire()` is; `failed` is `AssertionError("should be acquired")`. -/
inductive Status where
  | notCalled
  | parked
  | unparked
  | holding
  | released
  | cancelled
  | failed
  deriving DecidableEq, Repr

/-- The lock and the calls of `acquire()`, numbered in the order in which they are made. -/
structure State (κ : Type) where
  lock : FastFIFOLock κ
  calls : ℕ := 0
  status : ℕ → Status := fun _ => .notCalled
  granted : List ℕ := []

inductive Action where
  /-- `checkpoint_if_cancelled()` returns in a new call -/
  | acquire
  | release (call : ℕ)
  /-- a call that is parked is cancelled -/
  | cancel (call : ℕ)
  /-- a call that has been unparked runs on -/
  | resume (call : ℕ)
  deriving DecidableEq, Repr

section
variable {κ : Type} (P : ParkingLot κ)

def State.init : State κ := { lock := { lot := P.empty } }

/-- `acquire()` up to `await self._lot.park()`: the call is parked, or it has the lock. -/
def acquire (lock : FastFIFOLock κ) (task : ℕ) : FastFIFOLock κ × Bool :=
  if lock.locked ∨ P.parked lock.lot ≠ [] then ({ lock with lot := P.park lock.lot task }, true)
  else ({ lock with locked := true }, false)

/-- `release()`, with the task that is unparked; `none` is `RuntimeError("Lock not acquired")`. -/
def release (lock : FastFIFOLock κ) : Option (FastFIFOLock κ × Option ℕ) :=
  if lock.locked then
    if P.parked lock.lot ≠ [] then
      let (lot, task) := P.unpark lock.lot
      some ({ lock with lot }, task)
    else some ({ lock with locked := false }, none)
  else none

/-- A task is rescheduled, if there is one. -/
def reschedule (status : ℕ → Status) : Option ℕ → ℕ → Status
  | none => status
  | some task => Function.update status task .unparked

def step (s : State κ) : Action → Option (State κ)
  | .acquire =>
    match s.lock.acquire P s.calls with
    | (lock, true) => some { s with
        lock
        calls := s.calls + 1
        status := Function.update s.status s.calls .parked }
    | (lock, false) => some { s with
        lock
        calls := s.calls + 1
        status := Function.update s.status s.calls .holding
        granted := s.granted ++ [s.calls] }
  | .release call =>
    if s.status call = .holding then
      match s.lock.release P with
      | some (lock, task) => some { s with
          lock
          status := reschedule (Function.update s.status call .released) task }
      | none => some s
    else none
  | .cancel call =>
    if s.status call = .parked then some { s with
      lock := { s.lock with lot := P.abort s.lock.lot call }
      status := Function.update s.status call .cancelled }
    else none
  | .resume call =>
    if s.status call = .unparked then
      if s.lock.locked then some { s with
        status := Function.update s.status call .holding
        granted := s.granted ++ [call] }
      else some { s with status := Function.update s.status call .failed }
    else none

end

/-- What a step is for a queue lock. -/
def observe {κ : Type} (s : State κ) : Action → List QueueLock.Action
  | .acquire => [.acquire s.calls]
  | .release call => [.release call]
  | .cancel call => [.leave call]
  | .resume call => [.grant call]

section
variable {status : ℕ → Status} {call : ℕ} {old new x : Status}

/-- A call neither gets this status nor loses it. -/
theorem update_iff (hcall : status call = old) (hold : old ≠ x) (hnew : new ≠ x) (n : ℕ) :
    Function.update status call new n = x ↔ status n = x := by
  by_cases hn : n = call
  · rw [hn, Function.update_self, hcall]
    exact iff_of_false hnew hold
  · rw [Function.update_of_ne hn]

/-- A call loses this status, if it has it. -/
theorem update_ne_iff (hnew : new ≠ x) (n : ℕ) :
    Function.update status call new n = x ↔ n ≠ call ∧ status n = x := by
  by_cases hn : n = call
  · rw [hn, Function.update_self]
    exact iff_of_false hnew (fun hc => hc.1 rfl)
  · rw [Function.update_of_ne hn]
    exact (and_iff_right hn).symm

/-- A call gets this status. -/
theorem update_self_iff (n : ℕ) :
    Function.update status call x n = x ↔ n = call ∨ status n = x := by
  by_cases hn : n = call
  · rw [hn, Function.update_self]
    exact iff_of_true rfl (.inl rfl)
  · rw [Function.update_of_ne hn]
    exact (or_iff_right hn).symm

end

/-- The lock stands for a queue lock with this history; `next` is the call that has been unparked,
for which the lock stays locked. -/
structure Refines {κ : Type} (P : ParkingLot κ) (s : State κ) (next : Option ℕ)
    (h : QueueLock.History) : Prop where
  notCalled_iff : ∀ n, s.status n = .notCalled ↔ s.calls ≤ n
  parked_iff : ∀ n, s.status n = .parked ↔ n ∈ P.parked s.lock.lot
  unparked_iff : ∀ n, s.status n = .unparked ↔ next = some n
  holding_iff : ∀ n, s.status n = .holding ↔ h.lock.holder = some n
  granted_iff : ∀ n, n ∈ s.granted ↔ s.status n = .holding ∨ s.status n = .released
  not_failed : ∀ n, s.status n ≠ .failed
  locked : s.lock.locked = (h.lock.holder.isSome || next.isSome)
  next_free : next ≠ none → h.lock.holder = none
  waiters : h.lock.waiters = next.toList ++ P.parked s.lock.lot
  requested : h.requested = List.range s.calls
  granted : h.granted = s.granted

namespace Refines
variable {κ : Type} {P : ParkingLot κ} {s s' : State κ} {next : Option ℕ} {h : QueueLock.History}

theorem init (hP : P.Lawful) : Refines P (State.init P) none {} where
  notCalled_iff n := iff_of_true rfl (Nat.zero_le n)
  parked_iff n := iff_of_false (by rintro ⟨⟩) (by
    show n ∉ P.parked P.empty
    rw [hP.empty]
    exact List.not_mem_nil)
  unparked_iff _ := iff_of_false (by rintro ⟨⟩) (by rintro ⟨⟩)
  holding_iff _ := iff_of_false (by rintro ⟨⟩) (by rintro ⟨⟩)
  granted_iff _ := iff_of_false List.not_mem_nil (not_or.2 ⟨by rintro ⟨⟩, by rintro ⟨⟩⟩)
  not_failed _ := by rintro ⟨⟩
  locked := rfl
  next_free _ := rfl
  waiters := hP.empty.symm
  requested := rfl
  granted := rfl

/-- The lock is free when the queue lock is, and nobody waits. -/
theorem free_iff (hr : Refines P s next h) :
    (h.lock.holder = none ∧ h.lock.waiters = []) ↔
      ¬ (s.lock.locked = true ∨ P.parked s.lock.lot ≠ []) := by
  rw [hr.waiters, hr.locked]
  cases next <;> cases h.lock.holder <;> simp

theorem nodup (hr : Refines P s next h) (hf : QueueLock.Fifo h) :
    (next.toList ++ P.parked s.lock.lot).Nodup := by
  have horder := hf.order
  rw [hr.requested, hr.waiters] at horder
  exact (List.nodup_append.1 (horder.nodup List.nodup_range)).2.1

theorem acquire (hP : P.Lawful) (hr : Refines P s next h) (hs : step P s .acquire = some s') :
    ∃ next' h', QueueLock.step h (.acquire s.calls) = some h' ∧ Refines P s' next' h' := by
  have hnew : s.status s.calls = .notCalled := (hr.notCalled_iff _).2 (Nat.le_refl _)
  have hcalled : ∀ n, (n ≠ s.calls ∧ s.status n = .notCalled) ↔ s.calls + 1 ≤ n := by
    intro n
    rw [hr.notCalled_iff]
    omega
  have hrequested : h.requested ++ [s.calls] = List.range (s.calls + 1) := by
    rw [hr.requested, List.range_succ]
  simp only [step, FastFIFOLock.acquire] at hs
  simp only [QueueLock.step, QueueLock.acquire]
  by_cases hwait : s.lock.locked = true ∨ P.parked s.lock.lot ≠ []
  · rw [if_pos hwait] at hs
    cases hs
    rw [if_neg (fun hc => hr.free_iff.1 hc hwait)]
    refine ⟨next, _, rfl, ?_⟩
    constructor
    case notCalled_iff => exact fun n => (update_ne_iff (by decide) n).trans (hcalled n)
    case parked_iff =>
      intro n
      show _ ↔ n ∈ P.parked (P.park _ _)
      rw [update_self_iff, hP.park, List.mem_append, List.mem_singleton, hr.parked_iff, or_comm]
    case unparked_iff =>
      exact fun n => (update_iff hnew (by decide) (by decide) n).trans (hr.unparked_iff n)
    case holding_iff =>
      exact fun n => (update_iff hnew (by decide) (by decide) n).trans (hr.holding_iff n)
    case granted_iff =>
      exact fun n => (hr.granted_iff n).trans (or_congr
        (update_iff hnew (by decide) (by decide) n)
        (update_iff hnew (by decide) (by decide) n)).symm
    case not_failed =>
      exact fun n hc => hr.not_failed n ((update_iff hnew (by decide) (by decide) n).1 hc)
    case locked => exact hr.locked
    case next_free => exact hr.next_free
    case waiters =>
      show h.lock.waiters ++ _ = _ ++ P.parked (P.park _ _)
      rw [hr.waiters, hP.park, List.append_assoc]
    case requested => exact hrequested
    case granted => exact hr.granted
  · rw [if_neg hwait] at hs
    cases hs
    have hfree := hr.free_iff.2 hwait
    have hnext : next = none := by
      have hwaiters := hr.waiters
      rw [hfree.2] at hwaiters
      exact Option.toList_eq_nil_iff.1 (List.append_eq_nil_iff.1 hwaiters.symm).1
    rw [if_pos hfree]
    refine ⟨next, _, rfl, ?_⟩
    constructor
    case notCalled_iff => exact fun n => (update_ne_iff (by decide) n).trans (hcalled n)
    case parked_iff =>
      exact fun n => (update_iff hnew (by decide) (by decide) n).trans (hr.parked_iff n)
    case unparked_iff =>
      exact fun n => (update_iff hnew (by decide) (by decide) n).trans (hr.unparked_iff n)
    case holding_iff =>
      intro n
      rw [update_self_iff, hr.holding_iff, hfree.1]
      show _ ↔ some _ = some n
      simp [eq_comm]
    case granted_iff =>
      intro n
      show n ∈ _ ++ _ ↔ _
      rw [List.mem_append, List.mem_singleton, hr.granted_iff, or_comm, ← or_assoc]
      exact (or_congr (update_self_iff n) (update_iff hnew (by decide) (by decide) n)).symm
    case not_failed =>
      exact fun n hc => hr.not_failed n ((update_iff hnew (by decide) (by decide) n).1 hc)
    case locked => rfl
    case next_free => exact fun hc => absurd hnext hc
    case waiters => exact hr.waiters
    case requested => exact hrequested
    case granted =>
      show h.granted ++ _ = _
      rw [hr.granted]

/-- The call that holds the lock leaves it free. -/
theorem released {call : ℕ} (hr : Refines P s next h) (hcall : s.status call = .holding) :
    Refines P { s with
      lock := { s.lock with locked := false }
      status := Function.update s.status call .released } none
      { h with lock := h.lock.release } := by
  have hholder := (hr.holding_iff call).1 hcall
  have hnext : next = none := by
    by_contra hc
    rw [hr.next_free hc] at hholder
    cases hholder
  have honly : ∀ n, s.status n = .holding ↔ n = call := by
    intro n
    rw [hr.holding_iff, hholder, Option.some.injEq, eq_comm]
  subst hnext
  constructor
  case notCalled_iff =>
    exact fun n => (update_iff hcall (by decide) (by decide) n).trans (hr.notCalled_iff n)
  case parked_iff =>
    exact fun n => (update_iff hcall (by decide) (by decide) n).trans (hr.parked_iff n)
  case unparked_iff =>
    exact fun n => (update_iff hcall (by decide) (by decide) n).trans (hr.unparked_iff n)
  case holding_iff =>
    intro n
    rw [update_ne_iff (by decide), honly]
    exact iff_of_false (fun hc => hc.1 hc.2) (by simp)
  case granted_iff =>
    intro n
    rw [update_ne_iff (by decide), update_self_iff, honly, hr.granted_iff, honly]
    tauto
  case not_failed =>
    exact fun n hc => hr.not_failed n ((update_iff hcall (by decide) (by decide) n).1 hc)
  case locked => rfl
  case next_free => exact fun _ => rfl
  case waiters => exact hr.waiters
  case requested => exact hr.requested
  case granted => exact hr.granted

/-- The first of the calls that are parked is the next one. -/
theorem unparked {call : ℕ} {rest : List ℕ} (hP : P.Lawful) (hr : Refines P s none h)
    (hnodup : (P.parked s.lock.lot).Nodup) (hfree : h.lock.holder = none)
    (hparked : P.parked s.lock.lot = call :: rest) :
    Refines P { s with
      lock := { locked := true, lot := (P.unpark s.lock.lot).1 }
      status := Function.update s.status call .unparked } (some call) h := by
  have hcall : s.status call = .parked := by
    rw [hr.parked_iff, hparked]
    exact List.mem_cons_self
  have hrest : P.parked (P.unpark s.lock.lot).1 = rest := by
    rw [(hP.unpark _).1, hparked, List.tail_cons]
  rw [hparked, List.nodup_cons] at hnodup
  constructor
  case notCalled_iff =>
    exact fun n => (update_iff hcall (by decide) (by decide) n).trans (hr.notCalled_iff n)
  case parked_iff =>
    intro n
    rw [update_ne_iff (by decide), hr.parked_iff, hparked, hrest, List.mem_cons]
    constructor
    · rintro ⟨hne, hn⟩
      exact hn.resolve_left hne
    · intro hn
      exact ⟨fun hc => hnodup.1 (hc ▸ hn), .inr hn⟩
  case unparked_iff =>
    intro n
    rw [update_self_iff, hr.unparked_iff]
    simp [eq_comm]
  case holding_iff =>
    exact fun n => (update_iff hcall (by decide) (by decide) n).trans (hr.holding_iff n)
  case granted_iff =>
    exact fun n => (hr.granted_iff n).trans (or_congr
      (update_iff hcall (by decide) (by decide) n)
      (update_iff hcall (by decide) (by decide) n)).symm
  case not_failed =>
    exact fun n hc => hr.not_failed n ((update_iff hcall (by decide) (by decide) n).1 hc)
  case locked => rw [hfree]; rfl
  case next_free => exact fun _ => hfree
  case waiters =>
    rw [hr.waiters, hparked, hrest]
    rfl
  case requested => exact hr.requested
  case granted => exact hr.granted

theorem release {call : ℕ} (hP : P.Lawful) (hr : Refines P s next h) (hf : QueueLock.Fifo h)
    (hs : step P s (.release call) = some s') :
    ∃ next' h', QueueLock.step h (.release call) = some h' ∧ Refines P s' next' h' := by
  simp only [step] at hs
  split_ifs at hs with hcall
  have hholder := (hr.holding_iff call).1 hcall
  have hlocked : s.lock.locked = true := by
    rw [hr.locked, hholder]
    rfl
  have hr' := hr.released hcall
  simp only [FastFIFOLock.release, if_pos hlocked] at hs
  by_cases hparked : P.parked s.lock.lot = []
  · rw [if_neg (not_not.2 hparked)] at hs
    cases hs
    exact ⟨none, _, if_pos hholder, hr'⟩
  · rw [if_pos hparked] at hs
    cases hs
    obtain ⟨first, rest, hfirst⟩ := List.exists_cons_of_ne_nil hparked
    refine ⟨some first, _, if_pos hholder, ?_⟩
    have hnodup := (List.nodup_append.1 (hr.nodup hf)).2.1
    have hnext := hr'.unparked hP hnodup rfl hfirst
    rw [(hP.unpark _).2, hfirst, hlocked]
    exact hnext

theorem cancel {call : ℕ} (hP : P.Lawful) (hr : Refines P s next h) (hf : QueueLock.Fifo h)
    (hs : step P s (.cancel call) = some s') :
    ∃ next' h', QueueLock.step h (.leave call) = some h' ∧ Refines P s' next' h' := by
  simp only [step] at hs
  split_ifs at hs with hcall
  cases hs
  have hmem := (hr.parked_iff call).1 hcall
  have hnot : call ∉ next.toList := by
    intro hc
    have hunparked := (hr.unparked_iff call).2 (Option.mem_toList.1 hc)
    rw [hcall] at hunparked
    cases hunparked
  have hnodup := (List.nodup_append.1 (hr.nodup hf)).2.1
  have hwaiting : call ∈ h.lock.waiters := by
    rw [hr.waiters]
    exact List.mem_append_right _ hmem
  refine ⟨next, _, if_pos hwaiting, ?_⟩
  constructor
  case notCalled_iff =>
    exact fun n => (update_iff hcall (by decide) (by decide) n).trans (hr.notCalled_iff n)
  case parked_iff =>
    intro n
    show _ ↔ n ∈ P.parked (P.abort _ _)
    rw [update_ne_iff (by decide), hP.abort, hnodup.mem_erase_iff, hr.parked_iff]
  case unparked_iff =>
    exact fun n => (update_iff hcall (by decide) (by decide) n).trans (hr.unparked_iff n)
  case holding_iff =>
    exact fun n => (update_iff hcall (by decide) (by decide) n).trans (hr.holding_iff n)
  case granted_iff =>
    exact fun n => (hr.granted_iff n).trans (or_congr
      (update_iff hcall (by decide) (by decide) n)
      (update_iff hcall (by decide) (by decide) n)).symm
  case not_failed =>
    exact fun n hc => hr.not_failed n ((update_iff hcall (by decide) (by decide) n).1 hc)
  case locked => exact hr.locked
  case next_free => exact hr.next_free
  case waiters =>
    show h.lock.waiters.erase call = _ ++ P.parked (P.abort _ _)
    rw [hr.waiters, hP.abort, List.erase_append_right _ hnot]
  case requested => exact hr.requested
  case granted => exact hr.granted

theorem resume {call : ℕ} (hr : Refines P s next h) (hs : step P s (.resume call) = some s') :
    ∃ next' h', QueueLock.step h (.grant call) = some h' ∧ Refines P s' next' h' := by
  simp only [step] at hs
  split_ifs at hs with hcall hlocked
  · cases hs
    have hnext := (hr.unparked_iff call).1 hcall
    subst hnext
    have hfree := hr.next_free (by rintro ⟨⟩)
    have hwaiters : h.lock.waiters = call :: P.parked s.lock.lot := hr.waiters
    have hgrant : h.lock.grant call = some
        { holder := some call, waiters := P.parked s.lock.lot } := by
      rw [QueueLock.grant, if_pos ⟨hfree, by rw [hwaiters, List.head?_cons]⟩, hwaiters,
        List.tail_cons]
    refine ⟨none, _, by rw [QueueLock.step, hgrant]; rfl, ?_⟩
    constructor
    case notCalled_iff =>
      exact fun n => (update_iff hcall (by decide) (by decide) n).trans (hr.notCalled_iff n)
    case parked_iff =>
      exact fun n => (update_iff hcall (by decide) (by decide) n).trans (hr.parked_iff n)
    case unparked_iff =>
      intro n
      rw [update_ne_iff (by decide), hr.unparked_iff]
      simp [eq_comm]
    case holding_iff =>
      intro n
      rw [update_self_iff, hr.holding_iff, hfree]
      simp [eq_comm]
    case granted_iff =>
      intro n
      show n ∈ _ ++ _ ↔ _
      rw [List.mem_append, List.mem_singleton, hr.granted_iff, or_comm, ← or_assoc]
      exact (or_congr (update_self_iff n) (update_iff hcall (by decide) (by decide) n)).symm
    case not_failed =>
      exact fun n hc => hr.not_failed n ((update_iff hcall (by decide) (by decide) n).1 hc)
    case locked => exact hlocked
    case next_free => exact fun hc => absurd rfl hc
    case waiters => rfl
    case requested => exact hr.requested
    case granted =>
      show h.granted ++ _ = _
      rw [hr.granted]
  · -- The lock is kept for the call that has been unparked.
    rw [hr.locked, (hr.unparked_iff call).1 hcall, Option.isSome_some, Bool.or_true] at hlocked
    exact absurd rfl hlocked

/-- **Step lemma.** -/
theorem step (hP : P.Lawful) (hr : Refines P s next h) (hf : QueueLock.Fifo h) {a : Action}
    (hs : step P s a = some s') : ∃ next' h',
      Trans.run QueueLock.step h (observe s a) = some h' ∧ Refines P s' next' h' := by
  have hone : ∀ b, (∃ next' h', QueueLock.step h b = some h' ∧ Refines P s' next' h') →
      ∃ next' h', Trans.run QueueLock.step h [b] = some h' ∧ Refines P s' next' h' := by
    rintro b ⟨next', h', hstep, hr'⟩
    exact ⟨next', h', Trans.run_cons_iff.2 ⟨h', hstep, rfl⟩, hr'⟩
  cases a with
  | acquire => exact hone _ (hr.acquire hP hs)
  | release call => exact hone _ (hr.release hP hf hs)
  | cancel call => exact hone _ (hr.cancel hP hf hs)
  | resume call => exact hone _ (hr.resume hs)

/-- The queue lock may be granted to the call that has been unparked, and to no other. -/
theorem grant_iff (hr : Refines P s next h)
    (hlocked : P.parked s.lock.lot ≠ [] → s.lock.locked = true) (n : ℕ) :
    (h.lock.grant n).isSome ↔ s.status n = .unparked := by
  rw [hr.unparked_iff, QueueLock.grant, hr.waiters]
  cases next with
  | some m =>
    rw [hr.next_free (by rintro ⟨⟩)]
    simp
  | none =>
    have hnone : ¬ (h.lock.holder = none ∧ (P.parked s.lock.lot).head? = some n) := by
      rintro ⟨hfree, hhead⟩
      have hl := hlocked (List.ne_nil_of_mem (List.mem_of_head? hhead))
      rw [hr.locked, hfree] at hl
      cases hl
    rw [Option.toList_none, List.nil_append, if_neg hnone]
    exact iff_of_false (by rintro ⟨⟩) (by rintro ⟨⟩)

/-- An earlier call than one that has got the lock has got it before, or it has been cancelled. -/
theorem earlier (hr : Refines P s next h) (hf : QueueLock.Fifo h) {m n : ℕ} (hn : n ∈ s.granted)
    (hm : m < n) : m ∈ s.granted ∨ s.status m = .cancelled := by
  have horder := hf.order
  rw [hr.requested, hr.granted] at horder
  have hsorted := List.pairwise_lt_range.sublist horder
  have hnot : m ∉ h.lock.waiters := fun hc =>
    absurd ((List.pairwise_append.1 hsorted).2.2 n hn m hc) (Nat.lt_asymm hm)
  rw [hr.waiters, List.mem_append, not_or] at hnot
  have hcalls := List.mem_range.1 (horder.subset (List.mem_append_left _ hn))
  cases hstatus : s.status m with
  | notCalled =>
    have := (hr.notCalled_iff m).1 hstatus
    omega
  | parked => exact absurd ((hr.parked_iff m).1 hstatus) hnot.2
  | unparked => exact absurd (Option.mem_toList.2 ((hr.unparked_iff m).1 hstatus)) hnot.1
  | holding => exact .inl ((hr.granted_iff m).2 (.inl hstatus))
  | released => exact .inl ((hr.granted_iff m).2 (.inr hstatus))
  | cancelled => exact .inr rfl
  | failed => exact absurd hstatus (hr.not_failed m)

end Refines

/-- While calls are parked, the lock is locked. -/
theorem parked_locked {κ : Type} {P : ParkingLot κ} (hP : P.Lawful) {s s' : State κ} {a : Action}
    (hlocked : P.parked s.lock.lot ≠ [] → s.lock.locked = true) (hs : step P s a = some s') :
    P.parked s'.lock.lot ≠ [] → s'.lock.locked = true := by
  cases a with
  | acquire =>
    simp only [step, acquire] at hs
    split_ifs at hs with hwait <;> cases hs
    · exact fun _ => hwait.elim id hlocked
    · exact fun _ => rfl
  | release call =>
    simp only [step, release] at hs
    split_ifs at hs with hcall hl hparked <;> cases hs
    · exact fun _ => hl
    · exact fun hc => absurd hc hparked
    · exact hlocked
  | cancel call =>
    simp only [step] at hs
    split_ifs at hs
    cases hs
    intro hc
    refine hlocked fun hnil => hc ?_
    show P.parked (P.abort _ _) = []
    rw [hP.abort, hnil, List.erase_nil]
  | resume call =>
    simp only [step] at hs
    split_ifs at hs <;> cases hs <;> exact hlocked

/-- **`FastFIFOLock` is a queue lock**: the calls of `acquire()` and `release()`, in whatever order
and wherever they are cancelled, make up a run of a queue lock; its holder is the call that holds
the lock, and it may be granted to the call that has been unparked.  The calls get the lock in the
order in which they were made, but for those that are cancelled, and the assertion in `acquire()`
holds. -/
theorem fastFIFOLock_refines {κ : Type} {P : ParkingLot κ} (hP : P.Lawful) {as : List Action}
    {s : State κ} (h : Trans.run (step P) (.init P) as = some s) :
    (∃ q, Trans.run QueueLock.step {} (Trans.trace (step P) observe (.init P) as) = some q ∧
      (∀ n, q.lock.holder = some n ↔ s.status n = .holding) ∧ q.granted = s.granted ∧
      q.requested = List.range s.calls ∧
      ∀ n, (q.lock.grant n).isSome ↔ s.status n = .unparked) ∧
    s.granted.Pairwise (· < ·) ∧
    (∀ n ∈ s.granted, ∀ m < n, m ∈ s.granted ∨ s.status m = .cancelled) ∧
    ∀ n, s.status n ≠ .failed := by
  have hstep : ∀ s a s' t,
      ((∃ next, Refines P s next t) ∧ QueueLock.Fifo t ∧
        (P.parked s.lock.lot ≠ [] → s.lock.locked = true)) → step P s a = some s' →
      ∃ t', Trans.run QueueLock.step t (observe s a) = some t' ∧
        (∃ next, Refines P s' next t') ∧ QueueLock.Fifo t' ∧
          (P.parked s'.lock.lot ≠ [] → s'.lock.locked = true) := by
    rintro s a s' t ⟨⟨next, hr⟩, hf, hlocked⟩ hs
    obtain ⟨next', t', ht', hr'⟩ := hr.step hP hf hs
    exact ⟨t', ht', ⟨next', hr'⟩, Trans.run_inv (fun _ _ _ hf hs => hf.step hs) hf ht',
      parked_locked hP hlocked hs⟩
  obtain ⟨q, hq, ⟨next, hr⟩, hf, hlocked⟩ := Trans.run_simulates hstep
    ⟨⟨none, Refines.init hP⟩, QueueLock.Fifo.init, fun hc => absurd hP.empty hc⟩ h
  have hsorted : s.granted.Pairwise (· < ·) := by
    have horder := hf.order
    rw [hr.requested, hr.granted] at horder
    exact (List.pairwise_append.1 (List.pairwise_lt_range.sublist horder)).1
  exact ⟨⟨q, hq, fun n => (hr.holding_iff n).symm, hr.granted, hr.requested, hr.grant_iff hlocked⟩,
    hsorted, fun n hn m hm => hr.earlier hf hn hm, hr.not_failed⟩

/-- A parking lot that is a list. -/
def queueLot : ParkingLot (List ℕ) where
  empty := []
  parked lot := lot
  park lot n := lot ++ [n]
  unpark lot := (lot.tail, lot.head?)
  abort lot n := lot.erase n

theorem queueLot_lawful : queueLot.Lawful :=
  ⟨rfl, fun _ _ => rfl, fun _ => ⟨rfl, rfl⟩, fun _ _ => rfl⟩

/-- The second call is cancelled, the lock goes to the third one, and a fourth one is parked before
this call runs on. -/
theorem fastFIFOLock_refines_handed : ∃ s q,
    Trans.run (step queueLot) (.init queueLot) [.acquire, .acquire, .acquire, .cancel 1, .release 0,
      .acquire, .resume 2] = some s ∧
    Trans.run QueueLock.step {} [.acquire 0, .acquire 1, .acquire 2, .leave 1, .release 0,
      .acquire 3, .grant 2] = some q ∧
    q.granted = s.granted ∧ s.granted = [0, 2] ∧ s.status 3 ≠ .failed := by
  obtain ⟨s, hs, hgranted⟩ : ∃ s, Trans.run (step queueLot) (.init queueLot) [.acquire, .acquire,
      .acquire, .cancel 1, .release 0, .acquire, .resume 2] = some s ∧ s.granted = [0, 2] :=
    ⟨_, rfl, rfl⟩
  obtain ⟨⟨q, hq, -, hq', -, -⟩, -, -, hnot⟩ := fastFIFOLock_refines queueLot_lawful hs
  exact ⟨s, q, hs, hq, hq', hgranted, hnot 3⟩

end FastFIFOLock

end EasyNetwork
