/-
  `AsyncExecutor.run` and `unwrap_future` (`lowlevel/futures.py`): a task that waits for a
  `concurrent.futures.Future`, over a `ThreadsPortal` (`_asyncio/threads.py`).

  The future is completed by the thread of the executor or cancelled by any thread; the thread that
  completes it calls `on_fut_done`, which asks the event loop to set the event on which the task
  waits.  A step is what a thread does between two accesses to what the threads share.

  `run_keeps_outcome`: the outcome of a function that has run is never dropped.
-/
import EasyNetwork.Lib.Trans

namespace EasyNetwork

namespace AsyncExecutor

variable {R E : Type}

/-! ## `concurrent.futures.Future` -/

/-- The state of a `concurrent.futures.Future`; a function ends with a result or an exception. -/
inductive Future (R E : Type) where
  | pending
  | running
  | cancelled
  | cancelledAndNotified
  | finished (outcome : Except E R)
  deriving Repr

/-- How `unwrap_future` ends. -/
inductive Outcome (R E : Type) where
  | returned (result : R)
  | raised (exc : E)
  /-- `concurrent.futures.CancelledError` -/
  | futureCancelled
  /-- the cancellation of the task, `asyncio.CancelledError` -/
  | taskCancelled
  | timeoutError
  deriving DecidableEq, Repr

/-- The result or the exception of the function. -/
def Outcome.ofFunction : Except E R → Outcome R E
  | .ok result => .returned result
  | .error exc => .raised exc

namespace Future

/-- `cancelled()`. -/
def isCancelled : Future R E → Bool
  | .cancelled | .cancelledAndNotified => true
  | _ => false

/-- `done()`. -/
def done : Future R E → Bool
  | .cancelled | .cancelledAndNotified | .finished _ => true
  | _ => false

/-- `cancel()`: what it returns, and the state afterwards. -/
def cancel : Future R E → Bool × Future R E
  | .pending => (true, .cancelled)
  | .cancelled => (true, .cancelled)
  | .cancelledAndNotified => (true, .cancelledAndNotified)
  | .running => (false, .running)
  | .finished outcome => (false, .finished outcome)

/-- `result(timeout=0)`. -/
def result : Future R E → Outcome R E
  | .cancelled | .cancelledAndNotified => .futureCancelled
  | .finished outcome => .ofFunction outcome
  | .pending | .running => .timeoutError

/-- The function has been started. -/
def started : Future R E → Bool
  | .running | .finished _ => true
  | _ => false

end Future

/-! ## The states -/

/-- A `ThreadsPortal`.  The calls of `run_sync_soon` are counted by what has been done for them;
    `__call_soon_waiters` has one member for each. -/
structure ThreadsPortal where
  /-- `__loop` is set -/
  running : Bool
  /-- the waiter is registered, `loop.call_soon_threadsafe` is not called yet -/
  registered : ℕ
  /-- the callback is scheduled -/
  scheduled : ℕ
  /-- the callback has been run, the waiter is not discarded yet -/
  ran : ℕ
  deriving DecidableEq, Repr

/-- The size of `__call_soon_waiters`. -/
def ThreadsPortal.callSoonWaiters (portal : ThreadsPortal) : ℕ :=
  portal.registered + portal.scheduled + portal.ran

/-- The future on which `done_event.wait()` suspends the task. -/
inductive Wait where
  | pending
  | result
  | cancelled
  deriving DecidableEq, Repr

/-- Where the task is. -/
inductive Task (R E : Type) where
  /-- before `future.add_done_callback(on_fut_done)` -/
  | entered
  /-- in `await done_event.wait()` -/
  | waiting (fut : Wait)
  /-- in `await backend.ignore_cancellation(done_event.wait())` -/
  | shielded
  /-- in `await backend.coro_yield()` -/
  | yielding
  /-- before the first statement of `ThreadsPortal.__aexit__`; with a `CancelledError` or without an
      exception -/
  | exiting (cancelled : Bool)
  /-- in the `while self.__call_soon_waiters` of `ThreadsPortal.__aexit__` -/
  | closing (cancelled : Bool)
  /-- before the `future.cancel()` of `_result_or_cancel` -/
  | leaving (outcome : Outcome R E)
  | ended (outcome : Outcome R E)
  deriving DecidableEq, Repr

/-- The future of `done_event.wait()` gets its result. -/
def Task.wake : Task R E → Task R E
  | .waiting .pending => .waiting .result
  | task => task

structure State (R E : Type) where
  future : Future R E
  /-- `on_fut_done` is one of the callbacks of the future -/
  callback : Bool
  /-- the threads that are about to call `on_fut_done` -/
  invoking : ℕ
  portal : ThreadsPortal
  doneEvent : Bool
  task : Task R E
  /-- `_must_cancel` of the task -/
  mustCancel : Bool
  /-- how many times the task has been cancelled -/
  cancels : ℕ
  deriving Repr

/-- The function has been submitted, and the portal entered. -/
def State.init : State R E := ⟨.pending, false, 0, ⟨true, 0, 0, 0⟩, false, .entered, false, 0⟩

/-- What can happen. -/
inductive Action (R E : Type) where
  /-- the thread of the executor calls `set_running_or_notify_cancel()` -/
  | start
  /-- the function ends -/
  | finish (outcome : Except E R)
  /-- other code calls `future.cancel()`, in the thread of the event loop or in another one -/
  | cancelFuture (inLoop : Bool)
  /-- other code calls `Task.cancel()` -/
  | cancelTask
  /-- a thread calls `on_fut_done` -/
  | onFutDone
  /-- a thread calls `loop.call_soon_threadsafe` -/
  | schedule
  /-- the event loop runs the callback of `run_sync_soon` -/
  | callback
  /-- the event loop discards a waiter -/
  | discard
  /-- the task is run -/
  | task
  deriving Repr

/-- The actions that the threads and the event loop do not put off for ever. -/
def Action.internal : Action R E → Bool
  | .onFutDone | .schedule | .callback | .discard | .task => true
  | _ => false

/-! ## The steps -/

namespace State
variable (s : State R E)

/-- `done_event.set()`. -/
def setEvent : State R E := { s with doneEvent := true, task := s.task.wake }

/-- `_invoke_callbacks` of the thread that has made the future done. -/
def invokeCallbacks (inLoop : Bool) : State R E :=
  if s.callback then
    if inLoop then s.setEvent else { s with invoking := s.invoking + 1 }
  else s

/-- `future.cancel()`. -/
def cancelFuture (inLoop : Bool) : State R E :=
  let t := { s with future := s.future.cancel.2 }
  if s.future.done then t else if t.future.done then t.invokeCallbacks inLoop else t

/-- `Task.cancel()`. -/
def cancelTask : State R E :=
  let s := { s with cancels := s.cancels + 1 }
  match s.task with
  | .waiting .pending => { s with task := .waiting .cancelled }
  | .entered | .waiting _ | .yielding => { s with mustCancel := true }
  -- a cancellation is rejected in a shielded wait
  | _ => s

/-- `future.add_done_callback(on_fut_done)`. -/
def addDoneCallback : State R E :=
  if s.future.done then s.setEvent else { s with callback := true }

/-- After `await done_event.wait()`. -/
def afterWait : State R E :=
  { s with task := if s.future.isCancelled then .yielding else .exiting false }

/-- `await done_event.wait()`; a cancellation that the task has not received yet goes to the new
    future. -/
def await : State R E :=
  if s.doneEvent then s.afterWait
  else { s with
    task := .waiting (if s.mustCancel then .cancelled else .pending)
    mustCancel := false }

/-- `except backend.get_cancelled_exc_class()`. -/
def exceptCancelled : State R E :=
  let accepted := s.future.cancel.1
  let s := s.cancelFuture true
  if accepted then { s with task := .exiting true }
  else { s with task := if s.doneEvent then .exiting false else .shielded }

/-- The task is run until the next access to what the threads share. -/
def runTask : Option (State R E) :=
  match s.task with
  | .entered => some s.addDoneCallback.await
  | .waiting .pending => none
  | .waiting .cancelled => some { s with mustCancel := false }.exceptCancelled
  | .waiting .result =>
    if s.mustCancel then some { s with mustCancel := false }.exceptCancelled else some s.afterWait
  | .shielded => if s.doneEvent then some { s with task := .exiting false } else none
  | .yielding => some { s with task := .exiting s.mustCancel, mustCancel := false }
  | .exiting cancelled =>
    some { s with portal := { s.portal with running := false }, task := .closing cancelled }
  | .closing cancelled =>
    if s.portal.callSoonWaiters = 0 then
      some { s with task := .leaving (if cancelled then .taskCancelled else s.future.result) }
    else none
  | .leaving outcome => some { s.cancelFuture true with task := .ended outcome }
  | .ended _ => none

end State

/-- One step. -/
def step (s : State R E) : Action R E → Option (State R E)
  | .start =>
    match s.future with
    | .pending => some { s with future := .running }
    | .cancelled => some { s with future := .cancelledAndNotified }
    | _ => none
  | .finish outcome =>
    match s.future with
    | .running => some ({ s with future := .finished outcome }.invokeCallbacks false)
    | _ => none
  | .cancelFuture inLoop => some (s.cancelFuture inLoop)
  | .cancelTask =>
    match s.task with
    | .ended _ => none
    | _ => some s.cancelTask
  | .onFutDone =>
    if s.invoking = 0 then none
    -- the `RuntimeError` of a portal that is not running is suppressed
    else if s.portal.running then
      some { s with
        invoking := s.invoking - 1
        portal := { s.portal with registered := s.portal.registered + 1 } }
    else some { s with invoking := s.invoking - 1 }
  | .schedule =>
    if s.portal.registered = 0 then none
    else some { s with portal := { s.portal with
      registered := s.portal.registered - 1
      scheduled := s.portal.scheduled + 1 } }
  | .callback =>
    if s.portal.scheduled = 0 then none
    else some { s with portal := { s.portal with
      scheduled := s.portal.scheduled - 1
      ran := s.portal.ran + 1 } }.setEvent
  | .discard =>
    if s.portal.ran = 0 then none
    else some { s with portal := { s.portal with ran := s.portal.ran - 1 } }
  | .task => s.runTask

/-! ## The future only goes on -/

namespace Future
variable {f f' : Future R E}

/-- What has happened to the future stays. -/
structure Le (f f' : Future R E) : Prop where
  isCancelled : f.isCancelled = true → f'.isCancelled = true
  done : f.done = true → f'.done = true
  result : f.done = true → f'.result = f.result

theorem Le.refl (f : Future R E) : f.Le f := ⟨id, id, fun _ => rfl⟩

theorem le_cancel (f : Future R E) : f.Le f.cancel.2 := by
  cases f with
  | pending => exact ⟨nofun, nofun, nofun⟩
  | _ => exact Le.refl _

end Future

/-! ## The invariant -/

/-- The outcome is the right one. -/
def Future.Right (future : Future R E) (cancels : ℕ) (outcome : Outcome R E) : Prop :=
  (outcome = .taskCancelled ∧ future.isCancelled = true ∧ 0 < cancels) ∨
    (outcome = future.result ∧ future.done = true)

/-- What is known of the future where the task is. -/
def Task.Ok (future : Future R E) (cancels : ℕ) : Task R E → Prop
  | .entered | .waiting .pending | .shielded => True
  | .waiting .result => future.done = true
  | .waiting .cancelled => 0 < cancels
  | .yielding => future.isCancelled = true
  | .exiting cancelled | .closing cancelled =>
    if cancelled then future.isCancelled = true ∧ 0 < cancels else future.done = true
  | .leaving outcome | .ended outcome => future.Right cancels outcome

/-- The task waits, or is about to wait, for the event. -/
def Task.waits : Task R E → Bool
  | .waiting _ | .shielded => true
  | _ => false

/-- The task has not left the portal. -/
def Task.inPortal : Task R E → Bool
  | .closing _ | .leaving _ | .ended _ => false
  | _ => true

/-- What holds in every reachable state. -/
structure Inv (s : State R E) : Prop where
  event : s.doneEvent = true → s.future.done = true
  calls : 0 < s.invoking + s.portal.registered + s.portal.scheduled → s.future.done = true
  mustCancel : s.mustCancel = true → 0 < s.cancels
  task : s.task.Ok s.future s.cancels
  pending : s.task = .waiting .pending → s.doneEvent = false
  inPortal : s.task.inPortal = true → s.portal.running = true
  callback : s.task.waits = true → s.callback = true
  notified : s.task.waits = true → s.future.done = true →
    s.doneEvent = true ∨ 0 < s.invoking + s.portal.registered + s.portal.scheduled

section
variable {s s' : State R E} {future : Future R E} {cancels cancels' : ℕ}

theorem Inv.init : Inv (State.init : State R E) where
  event := nofun
  calls := nofun
  mustCancel := nofun
  task := trivial
  pending := nofun
  inPortal _ := rfl
  callback := nofun
  notified := nofun

theorem Future.Right.mono {f f' : Future R E} {outcome : Outcome R E} (hle : f.Le f')
    (hcancels : cancels ≤ cancels') (h : f.Right cancels outcome) : f'.Right cancels' outcome := by
  rcases h with ⟨rfl, hcancelled, hpos⟩ | ⟨rfl, hdone⟩
  · exact .inl ⟨rfl, hle.isCancelled hcancelled, Nat.lt_of_lt_of_le hpos hcancels⟩
  · exact .inr ⟨(hle.result hdone).symm, hle.done hdone⟩

theorem Task.Ok.mono {f f' : Future R E} {task : Task R E} (hle : f.Le f')
    (hcancels : cancels ≤ cancels') (h : task.Ok f cancels) : task.Ok f' cancels' := by
  have hexit : ∀ cancelled : Bool,
      (if cancelled then f.isCancelled = true ∧ 0 < cancels else f.done = true) →
      if cancelled then f'.isCancelled = true ∧ 0 < cancels' else f'.done = true := by
    intro cancelled h
    cases cancelled with
    | false => exact hle.done h
    | true => exact ⟨hle.isCancelled h.1, Nat.lt_of_lt_of_le h.2 hcancels⟩
  cases task with
  | entered => exact trivial
  | waiting fut =>
    cases fut with
    | pending => exact trivial
    | result => exact hle.done h
    | cancelled => exact Nat.lt_of_lt_of_le h hcancels
  | shielded => exact trivial
  | yielding => exact hle.isCancelled h
  | exiting cancelled => exact hexit cancelled h
  | closing cancelled => exact hexit cancelled h
  | leaving outcome => exact Future.Right.mono hle hcancels h
  | ended outcome => exact Future.Right.mono hle hcancels h

/-! ## The steps keep the invariant -/

theorem Task.inPortal_of_waits {task : Task R E} (h : task.waits = true) :
    task.inPortal = true := by
  cases task with
  | waiting fut => rfl
  | shielded => rfl
  | _ => cases h

theorem Task.waits_wake (task : Task R E) : task.wake.waits = task.waits := by
  rcases task with _ | (_ | _ | _) | _ | _ | _ | _ | _ | _ <;> rfl

theorem Task.inPortal_wake (task : Task R E) : task.wake.inPortal = task.inPortal := by
  rcases task with _ | (_ | _ | _) | _ | _ | _ | _ | _ | _ <;> rfl

theorem Task.wake_ne_pending (task : Task R E) : task.wake ≠ .waiting .pending := by
  rcases task with _ | (_ | _ | _) | _ | _ | _ | _ | _ | _ <;> exact nofun

theorem Task.Ok.wake {task : Task R E} (h : task.Ok future cancels) (hdone : future.done = true) :
    task.wake.Ok future cancels := by
  rcases task with _ | (_ | _ | _) | _ | _ | _ | _ | _ | _
  case waiting.pending => exact hdone
  all_goals exact h

/-- The event is set once the future is done. -/
theorem Inv.setEvent (h : Inv s) (hdone : s.future.done = true) : Inv s.setEvent where
  event _ := hdone
  calls := h.calls
  mustCancel := h.mustCancel
  task := h.task.wake hdone
  pending hpending := absurd hpending s.task.wake_ne_pending
  inPortal hin := h.inPortal (s.task.inPortal_wake ▸ hin)
  callback hwaits := h.callback (s.task.waits_wake ▸ hwaits)
  notified _ _ := .inl rfl

/-- The future goes on, without being done. -/
theorem Inv.setFuture (h : Inv s) (hle : s.future.Le future) (hdone : future.done = s.future.done) :
    Inv { s with future := future } where
  event hevent := hle.done (h.event hevent)
  calls hcalls := hle.done (h.calls hcalls)
  mustCancel := h.mustCancel
  task := h.task.mono hle (Nat.le_refl _)
  pending := h.pending
  inPortal := h.inPortal
  callback := h.callback
  notified hwaits hnew := h.notified hwaits (hdone ▸ hnew)

/-- A thread makes the future done, and invokes its callback. -/
theorem Inv.complete (h : Inv s) (hle : s.future.Le future) (hdone : future.done = true)
    (inLoop : Bool) : Inv ({ s with future := future }.invokeCallbacks inLoop) := by
  have htask := h.task.mono hle (Nat.le_refl _)
  unfold State.invokeCallbacks
  by_cases hcallback : s.callback = true
  · rw [if_pos hcallback]
    cases inLoop with
    | true =>
      exact
        { event := fun _ => hdone
          calls := fun _ => hdone
          mustCancel := h.mustCancel
          task := htask.wake hdone
          pending := fun hpending => absurd hpending s.task.wake_ne_pending
          inPortal := fun hin => h.inPortal (s.task.inPortal_wake ▸ hin)
          callback := fun hwaits => h.callback (s.task.waits_wake ▸ hwaits)
          notified := fun _ _ => .inl rfl }
    | false =>
      have hpos : 0 < s.invoking + 1 + s.portal.registered + s.portal.scheduled := by omega
      exact
        { event := fun _ => hdone
          calls := fun _ => hdone
          mustCancel := h.mustCancel
          task := htask
          pending := h.pending
          inPortal := h.inPortal
          callback := h.callback
          notified := fun _ _ => .inr hpos }
  · rw [if_neg hcallback]
    exact
      { event := fun _ => hdone
        calls := fun _ => hdone
        mustCancel := h.mustCancel
        task := htask
        pending := h.pending
        inPortal := h.inPortal
        callback := h.callback
        notified := fun hwaits _ => absurd (h.callback hwaits) hcallback }

/-- `future.cancel()`. -/
theorem Inv.cancelFuture (h : Inv s) (inLoop : Bool) : Inv (s.cancelFuture inLoop) := by
  unfold State.cancelFuture
  by_cases hdone : s.future.done = true
  · rw [if_pos hdone]
    refine h.setFuture (Future.le_cancel _) ?_
    rw [hdone]
    exact (Future.le_cancel _).done hdone
  · rw [if_neg hdone]
    by_cases hnew : s.future.cancel.2.done = true
    · rw [if_pos hnew]
      exact h.complete (Future.le_cancel _) hnew inLoop
    · rw [if_neg hnew]
      refine h.setFuture (Future.le_cancel _) ?_
      rw [Bool.eq_false_iff.2 hdone, Bool.eq_false_iff.2 hnew]

/-- `Task.cancel()`. -/
theorem Inv.cancelTask (h : Inv s) : Inv s.cancelTask := by
  have hpos : 0 < s.cancels + 1 := Nat.succ_pos _
  have htask := h.task.mono (Future.Le.refl _) (Nat.le_succ s.cancels)
  have hcount : Inv { s with cancels := s.cancels + 1 } :=
    { h with mustCancel := fun _ => hpos, task := htask }
  have hmust : Inv { s with cancels := s.cancels + 1, mustCancel := true } :=
    { hcount with mustCancel := fun _ => hpos }
  unfold State.cancelTask
  simp only
  split
  · next htask =>
    exact
      { hcount with
        task := hpos
        pending := nofun
        inPortal := fun _ => h.inPortal (by rw [htask]; rfl)
        callback := fun _ => h.callback (by rw [htask]; rfl)
        notified := fun _ => h.notified (by rw [htask]; rfl) }
  · exact hmust
  · exact hmust
  · exact hmust
  · exact hcount

/-- The task goes on to where it does not wait. -/
theorem Inv.goOn (h : Inv s) {task : Task R E} (htask : task.Ok s.future s.cancels)
    (hwaits : task.waits = false) (hin : task.inPortal = true → s.task.inPortal = true) :
    Inv { s with task := task } :=
  { h with
    task := htask
    pending := fun hpending => by subst hpending; cases hwaits
    inPortal := fun hin' => h.inPortal (hin hin')
    callback := fun hw => by rw [hwaits] at hw; cases hw
    notified := fun hw => by rw [hwaits] at hw; cases hw }

theorem Inv.afterWait (h : Inv s) (hdone : s.future.done = true) (hin : s.task.inPortal = true) :
    Inv s.afterWait := by
  unfold State.afterWait
  by_cases hcancelled : s.future.isCancelled = true
  · rw [if_pos hcancelled]
    exact h.goOn hcancelled rfl fun _ => hin
  · rw [if_neg hcancelled]
    exact h.goOn hdone rfl fun _ => hin

/-- `await done_event.wait()` with the callback in place, if it is needed. -/
theorem Inv.await (h : Inv s) (hin : s.task.inPortal = true)
    (hcallback : s.callback = true ∨ s.doneEvent = true)
    (hdone : s.future.done = true → s.doneEvent = true) : Inv s.await := by
  unfold State.await
  by_cases hevent : s.doneEvent = true
  · rw [if_pos hevent]
    exact h.afterWait (h.event hevent) hin
  · rw [if_neg hevent]
    have hunset := Bool.eq_false_iff.2 hevent
    refine
      { event := h.event
        calls := h.calls
        mustCancel := nofun
        task := ?_
        pending := fun _ => hunset
        inPortal := fun _ => h.inPortal hin
        callback := fun _ => hcallback.resolve_right hevent
        notified := fun _ hnew => absurd (hdone hnew) hevent }
    cases hmust : s.mustCancel with
    | false => exact trivial
    | true => exact h.mustCancel hmust

theorem invokeCallbacks_future (inLoop : Bool) : (s.invokeCallbacks inLoop).future = s.future := by
  unfold State.invokeCallbacks
  split_ifs <;> rfl

/-- The task is where it was, and may have been woken up. -/
theorem invokeCallbacks_task (inLoop : Bool) :
    (s.invokeCallbacks inLoop).task = s.task ∨ (s.invokeCallbacks inLoop).task = s.task.wake := by
  unfold State.invokeCallbacks
  split_ifs
  · exact .inr rfl
  · exact .inl rfl
  · exact .inl rfl

theorem invokeCallbacks_cancels (inLoop : Bool) :
    (s.invokeCallbacks inLoop).cancels = s.cancels := by
  unfold State.invokeCallbacks
  split_ifs <;> rfl

theorem cancelFuture_cases (inLoop : Bool) :
    s.cancelFuture inLoop = { s with future := s.future.cancel.2 } ∨
      s.cancelFuture inLoop = { s with future := s.future.cancel.2 }.invokeCallbacks inLoop := by
  unfold State.cancelFuture
  simp only
  split_ifs
  · exact .inl rfl
  · exact .inr rfl
  · exact .inl rfl

theorem cancelFuture_future (inLoop : Bool) :
    (s.cancelFuture inLoop).future = s.future.cancel.2 := by
  rcases cancelFuture_cases (s := s) inLoop with h | h <;> rw [h]
  exact invokeCallbacks_future inLoop

theorem cancelFuture_task (inLoop : Bool) :
    (s.cancelFuture inLoop).task = s.task ∨ (s.cancelFuture inLoop).task = s.task.wake := by
  rcases cancelFuture_cases (s := s) inLoop with h | h <;> rw [h]
  · exact .inl rfl
  · exact invokeCallbacks_task inLoop

theorem cancelFuture_cancels (inLoop : Bool) : (s.cancelFuture inLoop).cancels = s.cancels := by
  rcases cancelFuture_cases (s := s) inLoop with h | h <;> rw [h]
  exact invokeCallbacks_cancels inLoop

theorem Future.done_of_isCancelled {f : Future R E} (h : f.isCancelled = true) :
    f.done = true := by
  cases f with
  | cancelled => rfl
  | cancelledAndNotified => rfl
  | _ => cases h

theorem Future.isCancelled_cancel {f : Future R E} (h : f.cancel.1 = true) :
    f.cancel.2.isCancelled = true := by
  cases f with
  | running => cases h
  | finished outcome => cases h
  | _ => rfl

/-- The task receives its cancellation, which it accepts if the future can be cancelled. -/
theorem Inv.exceptCancelled (h : Inv s) (hwaits : s.task.waits = true) (hpos : 0 < s.cancels) :
    Inv { s with mustCancel := false }.exceptCancelled := by
  have hreceived : Inv { s with mustCancel := false } := { h with mustCancel := nofun }
  have hcancel := hreceived.cancelFuture true
  have htask := cancelFuture_task (s := { s with mustCancel := false }) true
  have hfuture := cancelFuture_future (s := { s with mustCancel := false }) true
  have hcancels := cancelFuture_cancels (s := { s with mustCancel := false }) true
  unfold State.exceptCancelled
  simp only
  generalize { s with mustCancel := false }.cancelFuture true = t at *
  have hwaits' : t.task.waits = true := by
    rcases htask with h | h <;> rw [h]
    · exact hwaits
    · rw [Task.waits_wake]
      exact hwaits
  have hin := Task.inPortal_of_waits hwaits'
  by_cases haccepted : s.future.cancel.1 = true
  · rw [if_pos haccepted]
    refine hcancel.goOn ⟨?_, ?_⟩ rfl fun _ => hin
    · rw [hfuture]
      exact Future.isCancelled_cancel haccepted
    · rw [hcancels]
      exact hpos
  · rw [if_neg haccepted]
    by_cases hevent : t.doneEvent = true
    · rw [if_pos hevent]
      exact hcancel.goOn (hcancel.event hevent) rfl fun _ => hin
    · rw [if_neg hevent]
      exact
        { hcancel with
          task := trivial
          pending := nofun
          inPortal := fun _ => hcancel.inPortal hin
          callback := fun _ => hcancel.callback hwaits'
          notified := fun _ => hcancel.notified hwaits' }

/-- The task is run. -/
theorem Inv.runTask (h : Inv s) (hs : s.runTask = some s') : Inv s' := by
  unfold State.runTask at hs
  split at hs
  · next htask =>
    cases hs
    have hin : s.task.inPortal = true := by rw [htask]; rfl
    unfold State.addDoneCallback
    by_cases hdone : s.future.done = true
    · rw [if_pos hdone]
      exact (h.setEvent hdone).await (s.task.inPortal_wake ▸ hin) (.inr rfl) fun _ => rfl
    · rw [if_neg hdone]
      have hwaits : s.task.waits = false := by rw [htask]; rfl
      have hcallback : Inv { s with callback := true } :=
        { h with callback := fun _ => rfl }
      exact hcallback.await hin (.inl rfl) fun hnew => absurd hnew hdone
  · cases hs
  · next htask =>
    cases hs
    have hok := h.task
    rw [htask] at hok
    exact h.exceptCancelled (by rw [htask]; rfl) hok
  · next htask =>
    have hok := h.task
    rw [htask] at hok
    split_ifs at hs with hmust
    · cases hs
      exact h.exceptCancelled (by rw [htask]; rfl) (h.mustCancel hmust)
    · cases hs
      exact h.afterWait hok (by rw [htask]; rfl)
  · next htask =>
    split_ifs at hs with hevent
    cases hs
    exact h.goOn (h.event hevent) rfl fun _ => by rw [htask]; rfl
  · next htask =>
    cases hs
    have hok := h.task
    rw [htask] at hok
    have hexit : Task.Ok s.future s.cancels (.exiting s.mustCancel) := by
      cases hmust : s.mustCancel with
      | false => exact Future.done_of_isCancelled hok
      | true => exact ⟨hok, h.mustCancel hmust⟩
    exact { h.goOn hexit rfl fun _ => by rw [htask]; rfl with mustCancel := nofun }
  · next cancelled htask =>
    cases hs
    have hok := h.task
    rw [htask] at hok
    have hclosing : Inv { s with task := .closing cancelled } := h.goOn hok rfl nofun
    exact { hclosing with inPortal := nofun }
  · next cancelled htask =>
    by_cases hwaiters : s.portal.callSoonWaiters = 0
    · rw [if_pos hwaiters] at hs
      cases hs
      have hok := h.task
      rw [htask] at hok
      refine h.goOn ?_ rfl nofun
      cases cancelled with
      | true => exact .inl ⟨rfl, hok⟩
      | false => exact .inr ⟨rfl, hok⟩
    · rw [if_neg hwaiters] at hs
      cases hs
  · next outcome htask =>
    cases hs
    have hok := h.task
    rw [htask] at hok
    have hcancel := h.cancelFuture true
    refine hcancel.goOn ?_ rfl nofun
    rw [cancelFuture_future, cancelFuture_cancels]
    exact Future.Right.mono (Future.le_cancel _) (Nat.le_refl _) hok
  · cases hs

/-- A call of `run_sync_soon` has moved on. -/
theorem Inv.moveCall (h : Inv s) {invoking : ℕ} {portal : ThreadsPortal}
    (hrunning : portal.running = s.portal.running)
    (hsum : invoking + portal.registered + portal.scheduled =
      s.invoking + s.portal.registered + s.portal.scheduled) :
    Inv { s with invoking := invoking, portal := portal } :=
  { h with
    calls := fun hpos => h.calls (hsum ▸ hpos)
    inPortal := fun hin => hrunning.trans (h.inPortal hin)
    notified := fun hwaits hdone => hsum ▸ h.notified hwaits hdone }

/-- A call of `on_fut_done`. -/
theorem Inv.onFutDone (h : Inv s) (hs : AsyncExecutor.step s .onFutDone = some s') : Inv s' := by
  simp only [AsyncExecutor.step] at hs
  split_ifs at hs with hzero hrunning <;> cases hs
  · exact h.moveCall rfl (by simp only; omega)
  · -- the task has left the portal
    have hleft : s.task.waits = true → False := fun hwaits =>
      hrunning (h.inPortal (Task.inPortal_of_waits hwaits))
    exact
      { h with
        calls := fun hpos => h.calls (by simp only at hpos; omega)
        notified := fun hwaits => (hleft hwaits).elim }

/-- The callback of `run_sync_soon` sets the event. -/
theorem Inv.runCallback (h : Inv s) (hs : AsyncExecutor.step s .callback = some s') : Inv s' := by
  simp only [AsyncExecutor.step] at hs
  split_ifs at hs with hzero
  cases hs
  have hdone : s.future.done = true := h.calls (by omega)
  have hset := h.setEvent hdone
  exact
    { hset with
      calls := fun _ => hdone
      notified := fun _ _ => .inl rfl }

/-- Every step keeps the invariant. -/
theorem Inv.step {a : Action R E} (h : Inv s) (hs : AsyncExecutor.step s a = some s') : Inv s' := by
  cases a with
  | start =>
    simp only [AsyncExecutor.step] at hs
    split at hs
    · next hfuture =>
      cases hs
      refine h.setFuture ?_ ?_
      · rw [hfuture]
        exact ⟨nofun, nofun, nofun⟩
      · rw [hfuture]
        rfl
    · next hfuture =>
      cases hs
      refine h.setFuture ?_ ?_
      · rw [hfuture]
        exact ⟨fun _ => rfl, fun _ => rfl, fun _ => rfl⟩
      · rw [hfuture]
        rfl
    · cases hs
  | finish outcome =>
    simp only [AsyncExecutor.step] at hs
    split at hs
    · next hfuture =>
      cases hs
      refine h.complete ?_ rfl false
      rw [hfuture]
      exact ⟨nofun, nofun, nofun⟩
    · cases hs
  | cancelFuture inLoop =>
    cases hs
    exact h.cancelFuture inLoop
  | cancelTask =>
    simp only [AsyncExecutor.step] at hs
    split at hs
    · cases hs
    · cases hs
      exact h.cancelTask
  | onFutDone => exact h.onFutDone hs
  | schedule =>
    simp only [AsyncExecutor.step] at hs
    split_ifs at hs with hzero
    cases hs
    exact h.moveCall rfl (by simp only; omega)
  | callback => exact h.runCallback hs
  | discard =>
    simp only [AsyncExecutor.step] at hs
    split_ifs at hs
    cases hs
    exact h.moveCall rfl rfl
  | task => exact h.runTask hs

/-! ## Progress -/

/-- How many more steps the task takes at most. -/
def Task.rank : Task R E → ℕ
  | .entered => 7
  | .waiting _ => 6
  | .shielded | .yielding => 5
  | .exiting _ => 4
  | .closing _ => 3
  | .leaving _ => 2
  | .ended _ => 0

/-- How many more steps the task, the threads and the event loop take at most. -/
def State.rank (s : State R E) : ℕ :=
  s.task.rank + 4 * (!s.future.done).toNat + 4 * s.invoking + 3 * s.portal.registered +
    2 * s.portal.scheduled + s.portal.ran

theorem Task.rank_wake (task : Task R E) : task.wake.rank = task.rank := by
  rcases task with _ | (_ | _ | _) | _ | _ | _ | _ | _ | _ <;> rfl

theorem rank_setEvent : s.setEvent.rank = s.rank := by
  simp only [State.rank, State.setEvent, Task.rank_wake]

/-- A future that is done needs no more than one that is not, also if its callback is called. -/
theorem rank_complete (hdone : s.future.done = true → future.done = true) :
    { s with future := future }.rank ≤ s.rank := by
  simp only [State.rank]
  cases hnew : future.done with
  | true => simp only [Bool.not_true, Bool.toNat_false]; omega
  | false =>
    cases hold : s.future.done with
    | true => rw [hdone hold] at hnew; cases hnew
    | false => exact Nat.le_refl _

theorem rank_invokeCallbacks (hold : s.future.done = false) (hnew : future.done = true)
    (inLoop : Bool) : ({ s with future := future }.invokeCallbacks inLoop).rank ≤ s.rank := by
  have hle : { s with future := future, invoking := s.invoking + 1 }.rank ≤ s.rank := by
    simp only [State.rank, hold, hnew, Bool.not_true, Bool.not_false, Bool.toNat_true,
      Bool.toNat_false]
    omega
  have hset : { s with future := future }.rank ≤ s.rank := rank_complete fun _ => hnew
  unfold State.invokeCallbacks
  split_ifs
  · exact Nat.le_trans (Nat.le_of_eq rank_setEvent) hset
  · exact hle
  · exact hset

theorem rank_cancelFuture (inLoop : Bool) : (s.cancelFuture inLoop).rank ≤ s.rank := by
  unfold State.cancelFuture
  simp only
  split_ifs with hdone hnew
  · exact rank_complete (Future.le_cancel _).done
  · exact rank_invokeCallbacks (Bool.eq_false_iff.2 hdone) hnew inLoop
  · exact rank_complete (Future.le_cancel _).done

theorem rank_cancelTask : s.cancelTask.rank = s.rank := by
  unfold State.cancelTask
  simp only
  split
  · next htask => simp only [State.rank, htask, Task.rank]
  all_goals rfl

/-- The task moves to where it takes fewer steps. -/
theorem rank_goOn {t : State R E} {task : Task R E} {mustCancel : Bool} (hle : t.rank ≤ s.rank)
    (hlt : task.rank < t.task.rank) :
    { t with task := task, mustCancel := mustCancel }.rank < s.rank := by
  refine Nat.lt_of_lt_of_le ?_ hle
  simp only [State.rank]
  omega

theorem rank_afterWait (hlt : 5 < s.task.rank) : s.afterWait.rank < s.rank := by
  unfold State.afterWait
  refine rank_goOn (Nat.le_refl _) ?_
  split_ifs
  · exact hlt
  · exact Nat.lt_of_succ_lt hlt

theorem rank_await (hlt : 6 < s.task.rank) : s.await.rank < s.rank := by
  unfold State.await
  split_ifs
  · exact rank_afterWait (Nat.lt_of_succ_lt hlt)
  · exact rank_goOn (Nat.le_refl _) hlt
  · exact rank_goOn (Nat.le_refl _) hlt

theorem rank_exceptCancelled (hlt : 5 < s.task.rank) : s.exceptCancelled.rank < s.rank := by
  have hsame : (s.cancelFuture true).task.rank = s.task.rank := by
    rcases cancelFuture_task (s := s) true with h | h <;> rw [h]
    exact Task.rank_wake _
  unfold State.exceptCancelled
  simp only
  split_ifs
  · exact rank_goOn (rank_cancelFuture true) (hsame ▸ Nat.lt_of_succ_lt hlt)
  · exact rank_goOn (rank_cancelFuture true) (hsame ▸ Nat.lt_of_succ_lt hlt)
  · exact rank_goOn (rank_cancelFuture true) (hsame ▸ hlt)

theorem rank_runTask (hs : s.runTask = some s') : s'.rank < s.rank := by
  have hreceived : { s with mustCancel := false }.rank = s.rank := rfl
  unfold State.runTask at hs
  split at hs
  · next htask =>
    cases hs
    unfold State.addDoneCallback
    split_ifs
    · refine Nat.lt_of_lt_of_le (rank_await ?_) (Nat.le_of_eq rank_setEvent)
      rw [State.setEvent, Task.rank_wake, htask]
      exact Nat.lt_succ_self 6
    · refine rank_await (s := { s with callback := true }) ?_
      rw [htask]
      exact Nat.lt_succ_self 6
  · cases hs
  · next htask =>
    cases hs
    refine Nat.lt_of_lt_of_eq (rank_exceptCancelled ?_) hreceived
    rw [htask]
    exact Nat.lt_succ_self 5
  · next htask =>
    split_ifs at hs <;> cases hs
    · refine Nat.lt_of_lt_of_eq (rank_exceptCancelled ?_) hreceived
      rw [htask]
      exact Nat.lt_succ_self 5
    · refine rank_afterWait ?_
      rw [htask]
      exact Nat.lt_succ_self 5
  · next htask =>
    split_ifs at hs
    cases hs
    refine rank_goOn (Nat.le_refl _) ?_
    rw [htask]
    exact Nat.lt_succ_self 4
  · next htask =>
    cases hs
    refine rank_goOn (Nat.le_refl _) ?_
    rw [htask]
    exact Nat.lt_succ_self 4
  · next htask =>
    cases hs
    refine rank_goOn (t := { s with portal := { s.portal with running := false } })
      (Nat.le_refl s.rank) ?_
    rw [htask]
    exact Nat.lt_succ_self 3
  · next cancelled htask =>
    by_cases hwaiters : s.portal.callSoonWaiters = 0
    · rw [if_pos hwaiters] at hs
      cases hs
      refine rank_goOn (Nat.le_refl _) ?_
      rw [htask]
      exact Nat.lt_succ_self 2
    · rw [if_neg hwaiters] at hs
      cases hs
  · next outcome htask =>
    cases hs
    refine rank_goOn (rank_cancelFuture true) ?_
    have hsame : (s.cancelFuture true).task = .leaving outcome := by
      rcases cancelFuture_task (s := s) true with h | h <;> rw [h, htask]
      rfl
    rw [hsame]
    exact Nat.succ_pos 1
  · cases hs

/-- Every internal step lowers the rank. -/
theorem rank_internal {a : Action R E} (ha : a.internal = true)
    (hs : AsyncExecutor.step s a = some s') : s'.rank < s.rank := by
  cases a with
  | onFutDone =>
    simp only [AsyncExecutor.step] at hs
    split_ifs at hs <;> cases hs <;> simp only [State.rank] <;> omega
  | schedule =>
    simp only [AsyncExecutor.step] at hs
    split_ifs at hs
    cases hs
    simp only [State.rank]
    omega
  | callback =>
    simp only [AsyncExecutor.step] at hs
    split_ifs at hs
    cases hs
    rw [rank_setEvent]
    simp only [State.rank]
    omega
  | discard =>
    simp only [AsyncExecutor.step] at hs
    split_ifs at hs
    cases hs
    simp only [State.rank]
    omega
  | task => exact rank_runTask hs
  | _ => cases ha

/-- No step raises the rank. -/
theorem rank_external {a : Action R E} (ha : a.internal = false)
    (hs : AsyncExecutor.step s a = some s') : s'.rank ≤ s.rank := by
  cases a with
  | start =>
    simp only [AsyncExecutor.step] at hs
    split at hs
    · next hfuture =>
      cases hs
      exact rank_complete fun hdone => by rw [hfuture] at hdone; cases hdone
    · cases hs
      exact rank_complete fun _ => rfl
    · cases hs
  | finish outcome =>
    simp only [AsyncExecutor.step] at hs
    split at hs
    · next hfuture =>
      cases hs
      exact rank_invokeCallbacks (by rw [hfuture]; rfl) rfl false
    · cases hs
  | cancelFuture inLoop =>
    cases hs
    exact rank_cancelFuture inLoop
  | cancelTask =>
    simp only [AsyncExecutor.step] at hs
    split at hs
    · cases hs
    · cases hs
      exact Nat.le_of_eq rank_cancelTask
  | _ => cases ha

/-- When the future is done, `unwrap_future` has ended unless something goes on. -/
theorem Inv.progress (h : Inv s) (hdone : s.future.done = true)
    (hended : ∀ outcome, s.task ≠ .ended outcome) :
    ∃ a, Action.internal a = true ∧ (AsyncExecutor.step s a).isSome = true := by
  have hcall : 0 < s.invoking + s.portal.registered + s.portal.scheduled →
      ∃ a, Action.internal a = true ∧ (AsyncExecutor.step s a).isSome = true := by
    intro hpos
    by_cases hinvoking : s.invoking = 0
    · by_cases hregistered : s.portal.registered = 0
      · refine ⟨.callback, rfl, ?_⟩
        simp only [AsyncExecutor.step]
        rw [if_neg (by omega)]
        rfl
      · refine ⟨.schedule, rfl, ?_⟩
        simp only [AsyncExecutor.step, if_neg hregistered, Option.isSome_some]
    · refine ⟨.onFutDone, rfl, ?_⟩
      simp only [AsyncExecutor.step, if_neg hinvoking]
      split_ifs <;> rfl
  have htask : s.runTask.isSome = true →
      ∃ a, Action.internal a = true ∧ (AsyncExecutor.step s a).isSome = true :=
    fun hsome => ⟨.task, rfl, hsome⟩
  cases ht : s.task with
  | waiting fut =>
    cases fut with
    | pending =>
      rcases h.notified (by rw [ht]; rfl) hdone with hevent | hpos
      · rw [h.pending ht] at hevent
        cases hevent
      · exact hcall hpos
    | result =>
      refine htask ?_
      rw [State.runTask, ht]
      cases s.mustCancel <;> rfl
    | cancelled => exact htask (by rw [State.runTask, ht]; rfl)
  | shielded =>
    rcases h.notified (by rw [ht]; rfl) hdone with hevent | hpos
    · exact htask (by simp only [State.runTask, ht, if_pos hevent, Option.isSome_some])
    · exact hcall hpos
  | closing cancelled =>
    by_cases hwaiters : s.portal.callSoonWaiters = 0
    · exact htask (by simp only [State.runTask, ht, if_pos hwaiters, Option.isSome_some])
    · by_cases hpos : 0 < s.invoking + s.portal.registered + s.portal.scheduled
      · exact hcall hpos
      · refine ⟨.discard, rfl, ?_⟩
        have hran : ¬ s.portal.ran = 0 := by
          intro hran
          refine hwaiters ?_
          rw [ThreadsPortal.callSoonWaiters]
          omega
        simp only [AsyncExecutor.step, if_neg hran, Option.isSome_some]
  | entered => exact htask (by rw [State.runTask, ht]; rfl)
  | yielding => exact htask (by rw [State.runTask, ht]; rfl)
  | exiting cancelled => exact htask (by rw [State.runTask, ht]; rfl)
  | leaving outcome => exact htask (by rw [State.runTask, ht]; rfl)
  | ended outcome => exact absurd ht (hended outcome)

/-! ## The outcome -/

/-- The outcome is the one of the function if this has been started; the cancellation of the task is
    only raised if the future is cancelled. -/
structure Kept (s : State R E) (outcome : Outcome R E) : Prop where
  taskCancelled : outcome = .taskCancelled →
    s.future.isCancelled = true ∧ s.future.started = false ∧ 0 < s.cancels
  started : s.future.started = true →
    ∃ result, s.future = .finished result ∧ outcome = .ofFunction result
  futureCancelled : s.future.isCancelled = true → s.cancels = 0 → outcome = .futureCancelled

theorem Future.started_of_isCancelled {f : Future R E} (h : f.isCancelled = true) :
    f.started = false := by
  cases f with
  | cancelled => rfl
  | cancelledAndNotified => rfl
  | _ => cases h

theorem Future.ofFunction_ne_cancelled (result : Except E R) :
    Outcome.ofFunction result ≠ .taskCancelled := by
  cases result <;> exact nofun

theorem Future.Right.kept {outcome : Outcome R E} (h : s.future.Right s.cancels outcome) :
    Kept s outcome := by
  rcases h with ⟨rfl, hcancelled, hpos⟩ | ⟨rfl, hdone⟩
  · have hstarted := Future.started_of_isCancelled hcancelled
    exact
      { taskCancelled := fun _ => ⟨hcancelled, hstarted, hpos⟩
        started := fun h => by rw [hstarted] at h; cases h
        futureCancelled := fun _ hzero => absurd hzero (Nat.ne_of_gt hpos) }
  · refine ⟨fun h => ?_, fun h => ?_, fun h _ => ?_⟩
    · exfalso
      cases hfuture : s.future with
      | finished result =>
        rw [hfuture] at h
        exact Future.ofFunction_ne_cancelled result h
      | _ => rw [hfuture] at h; cases h
    · cases hfuture : s.future with
      | finished result => exact ⟨result, rfl, rfl⟩
      | running => rw [hfuture] at hdone; cases hdone
      | _ => rw [hfuture] at h; cases h
    · cases hfuture : s.future with
      | cancelled => rfl
      | cancelledAndNotified => rfl
      | _ => rw [hfuture] at h; cases h

/-- **The outcome of a function that has run is never dropped**: whatever the order of the steps,
    and however often the task and the future are cancelled, `unwrap_future` ends as it should; it
    takes a bounded number of steps, of which one is possible as long as the future is done and
    `unwrap_future` has not ended. -/
theorem run_keeps_outcome {actions : List (Action R E)} {s : State R E}
    (h : Trans.run AsyncExecutor.step State.init actions = some s) :
    (∀ outcome, s.task = .ended outcome → Kept s outcome) ∧
      (s.future.done = true → (∀ outcome, s.task ≠ .ended outcome) →
        ∃ a, Action.internal a = true ∧ (AsyncExecutor.step s a).isSome = true) ∧
      (actions.filter Action.internal).length ≤ 11 := by
  have hinv : Inv s := Trans.run_inv (fun _ _ _ h hs => h.step hs) Inv.init h
  refine ⟨fun outcome hended => ?_, fun hdone hended => hinv.progress hdone hended, ?_⟩
  · have hok := hinv.task
    rw [hended] at hok
    exact Future.Right.kept hok
  · have hbound := Trans.length_filter_le (I := Inv) Action.internal State.rank
      (fun _ _ _ h hs => h.step hs) (fun _ _ _ _ ha hs => rank_internal ha hs)
      (fun _ _ _ _ ha hs => rank_external ha hs) Inv.init h
    exact Nat.le_trans (Nat.le_add_right _ _) hbound

/-- The function returns while the task, which has been cancelled twice, insists on waiting. -/
theorem run_keeps_outcome_cancelled : ∃ s : State ℕ String,
    Trans.run AsyncExecutor.step State.init
      [.task, .start, .cancelTask, .task, .cancelTask, .finish (.ok 7), .onFutDone, .schedule,
        .callback, .task, .task, .discard, .task, .task] = some s ∧
      s.task = .ended (.returned 7) ∧ Kept s (.returned 7) := by
  obtain ⟨s, hs⟩ : ∃ s : State ℕ String, Trans.run AsyncExecutor.step State.init
      [.task, .start, .cancelTask, .task, .cancelTask, .finish (.ok 7), .onFutDone, .schedule,
        .callback, .task, .task, .discard, .task, .task] = some s := ⟨_, rfl⟩
  have hended : s.task = .ended (.returned 7) := by
    cases hs
    rfl
  exact ⟨s, hs, hended, (run_keeps_outcome hs).1 _ hended⟩

end

end AsyncExecutor

end EasyNetwork
