/-
  A task of asyncio, and the delayed cancellations of `CancelScope`
  (`lowlevel/api_async/backend/_asyncio/tasks.py`).

  `Task.cancel()` cancels the future on which the task is suspended; if this is over, it is recorded
  and dropped or thrown when the task is resumed.  The event loop calls the scheduled handles in the
  order in which they have been scheduled; only those that concern the task are kept here.

  * `Ordered`: when the task is resumed, every delayed cancellation has been delivered, and is not
    recorded any more.
-/
import Mathlib.Data.List.Basic

namespace EasyNetwork

/-- The message of a cancellation. -/
inductive CancelMessage where
  /-- the `msg` that other code gives to `Task.cancel()` -/
  | text (msg : Option String)
  /-- `Cancelled via cancel scope …; reason: …` -/
  | scope (id : ℕ) (reason : Option String)
  deriving DecidableEq, Repr

namespace AsyncioTask

/-- The future on which the task is suspended. -/
inductive FutureState where
  | pending
  | finished
  | cancelled (msg : CancelMessage)
  deriving DecidableEq, Repr

/-- What the task does. -/
inductive Waiter where
  /-- it is the current task -/
  | running
  /-- it is suspended by a bare `yield` -/
  | yielded
  | future (state : FutureState)
  | done
  deriving DecidableEq, Repr

/-- The callbacks that are scheduled with `loop.call_soon`. -/
inductive Handle where
  /-- the next step of the task -/
  | wakeup
  /-- `CancelScope.__cancel_task_unless_done` -/
  | cancelTaskUnlessDone (msg : CancelMessage)
  /-- `CancelScope.__delayed_task_cancel_dict.pop` -/
  | popDelayed
  deriving DecidableEq, Repr

end AsyncioTask

open AsyncioTask

structure AsyncioTask where
  /-- `cancelling()` -/
  cancelling : ℕ
  mustCancel : Bool
  cancelMessage : CancelMessage
  waiter : Waiter
  ready : List Handle
  /-- the message in `CancelScope.__delayed_task_cancel_dict` -/
  delayed : Option CancelMessage
  /-- `uncancel()` clears `_must_cancel` with the last request; it does since Python 3.13 -/
  clears : Bool
  deriving DecidableEq, Repr

namespace AsyncioTask

/-- A task that has just been started. -/
def init (clears : Bool) : AsyncioTask := ⟨0, false, .text none, .running, [], none, clears⟩

section
variable (t : AsyncioTask)

/-! ## `asyncio.Task` -/

/-- `cancel(msg)`. -/
def cancel (msg : CancelMessage) : AsyncioTask :=
  match t.waiter with
  | .done => t
  | .future .pending =>
    { t with
      cancelling := t.cancelling + 1
      waiter := .future (.cancelled msg)
      ready := t.ready ++ [.wakeup] }
  | _ => { t with cancelling := t.cancelling + 1, mustCancel := true, cancelMessage := msg }

/-- `uncancel()`. -/
def uncancel : AsyncioTask :=
  { t with
    cancelling := t.cancelling - 1
    mustCancel := t.mustCancel && !(t.clears && t.cancelling == 1) }

/-- The awaited future gets its result or its exception. -/
def settle : AsyncioTask :=
  match t.waiter with
  | .future .pending => { t with waiter := .future .finished, ready := t.ready ++ [.wakeup] }
  | _ => t

/-- The task awaits a future that is not done. -/
def await : AsyncioTask :=
  if t.mustCancel then
    { t with
      waiter := .future (.cancelled t.cancelMessage)
      mustCancel := false
      ready := t.ready ++ [.wakeup] }
  else { t with waiter := .future .pending }

/-- A bare `yield`. -/
def coroYield : AsyncioTask := { t with waiter := .yielded, ready := t.ready ++ [.wakeup] }

/-- The `CancelledError` that the next step of the task throws into its coroutine. -/
def thrown : Option CancelMessage :=
  match t.waiter with
  | .future (.cancelled msg) => some msg
  | _ => if t.mustCancel then some t.cancelMessage else none

/-- The event loop starts the next step of the task, if this is the next handle. -/
def resume : Option AsyncioTask :=
  if t.waiter = .running then none
  else match t.ready with
    | .wakeup :: ready => some { t with waiter := .running, mustCancel := false, ready := ready }
    | _ => none

/-! ## `CancelScope` -/

/-- `_reschedule_delayed_task_cancel`; `none` for the `AssertionError`. -/
def rescheduleDelayedTaskCancel (cancelMsg : CancelMessage) : Option AsyncioTask :=
  match t.delayed with
  | some _ => none
  | none =>
    some { t with
      ready := t.ready ++ [.cancelTaskUnlessDone cancelMsg, .popDelayed]
      delayed := some cancelMsg }

/-- `__cancel_task_unless_done`. -/
def cancelTaskUnlessDone (cancelMsg : CancelMessage) : AsyncioTask :=
  match t.waiter with
  | .done => t
  | _ => t.uncancel.cancel cancelMsg

/-- The event loop calls the next handle, if it belongs to a delayed cancellation. -/
def runDelayed : Option AsyncioTask :=
  if t.waiter = .running then none
  else match t.ready with
    | .cancelTaskUnlessDone msg :: ready =>
      some ({ t with ready := ready }.cancelTaskUnlessDone msg)
    | .popDelayed :: ready => some { t with ready := ready, delayed := none }
    | _ => none

/-- A delayed cancellation with this message is removed, and its handle cancelled. -/
def dropDelayed (cancelReason : Option CancelMessage) : AsyncioTask :=
  match t.delayed with
  | some msg =>
    if some msg = cancelReason then
      { t with delayed := none, ready := t.ready.erase (.cancelTaskUnlessDone msg) }
    else t
  | none => t

end

section
variable {t : AsyncioTask} {msg msg' : CancelMessage}

theorem settle_of_pending (h : t.waiter = .future .pending) :
    t.settle = { t with waiter := .future .finished, ready := t.ready ++ [.wakeup] } := by
  unfold settle
  rw [h]

/-- The `CancelledError` is the one of the future, or the one that the task has recorded. -/
theorem thrown_eq_some : t.thrown = some msg ↔ t.waiter = .future (.cancelled msg) ∨
    (∀ msg', t.waiter ≠ .future (.cancelled msg')) ∧ t.mustCancel = true ∧
      t.cancelMessage = msg := by
  unfold thrown
  split
  · next msg' hwaiter =>
    simp [hwaiter]
  · next hwaiter =>
    have hnot : ∀ msg', t.waiter ≠ .future (.cancelled msg') := hwaiter
    simp [hnot]

theorem thrown_uncancel (h : t.uncancel.thrown = some msg) : t.thrown = some msg := by
  rw [thrown_eq_some] at h ⊢
  exact h.imp id fun ⟨hnot, hmust, hmsg⟩ => ⟨hnot, (Bool.and_eq_true_iff.1 hmust).1, hmsg⟩

theorem thrown_cancel (h : (t.cancel msg).thrown = some msg') :
    msg' = msg ∨ t.thrown = some msg' := by
  unfold cancel at h
  split at h
  · exact .inr h
  · cases h
    exact .inl rfl
  · rw [thrown_eq_some] at h ⊢
    rcases h with hwaiter | ⟨-, -, hmsg⟩
    · exact .inr (.inl hwaiter)
    · exact .inl hmsg.symm

theorem cancelling_cancel (h : t.waiter ≠ .done) :
    (t.cancel msg).cancelling = t.cancelling + 1 := by
  unfold cancel
  split
  · next hdone => exact absurd hdone h
  · rfl
  · rfl

/-- The current task records a cancellation. -/
theorem cancel_running (msg : CancelMessage) (h : t.waiter = .running) :
    t.cancel msg =
      { t with cancelling := t.cancelling + 1, mustCancel := true, cancelMessage := msg } := by
  unfold cancel
  split
  · next hdone =>
    rw [h] at hdone
    cases hdone
  · next hpending =>
    rw [h] at hpending
    cases hpending
  · rfl

/-- The handles of delayed cancellations are those that there were. -/
theorem mem_ready_cancel (h : .cancelTaskUnlessDone msg' ∈ (t.cancel msg).ready) :
    .cancelTaskUnlessDone msg' ∈ t.ready := by
  unfold cancel at h
  split at h
  · exact h
  · simpa using h
  · exact h

theorem waiter_cancel : ((t.cancel msg).waiter = .running ↔ t.waiter = .running) ∧
    ((t.cancel msg).waiter = .done ↔ t.waiter = .done) := by
  unfold cancel
  split
  · exact ⟨Iff.rfl, Iff.rfl⟩
  · next hpending =>
    rw [hpending]
    exact ⟨⟨nofun, nofun⟩, ⟨nofun, nofun⟩⟩
  · exact ⟨Iff.rfl, Iff.rfl⟩

end

/-! ## The order of the handles -/

/-- The next step of the task is scheduled. -/
def Waiter.woken : Waiter → Bool
  | .yielded | .future .finished | .future (.cancelled _) => true
  | _ => false

/-- The handles of a delayed cancellation that are left, and its record. -/
inductive Delayed : List Handle → Option CancelMessage → Prop
  | none : Delayed [] none
  | cancel (msg : CancelMessage) : Delayed [.cancelTaskUnlessDone msg, .popDelayed] (some msg)
  | pop (msg : CancelMessage) : Delayed [.popDelayed] (some msg)
  | dropped : Delayed [.popDelayed] .none

/-- The next step of the task comes after a delayed cancellation. -/
def Ordered (t : AsyncioTask) : Prop :=
  ∃ front, Delayed front t.delayed ∧
    t.ready = front ++ (if t.waiter.woken then [.wakeup] else [])

section
variable {t t' : AsyncioTask} {msg : CancelMessage}

theorem Ordered.init (clears : Bool) : Ordered (init clears) := ⟨[], .none, rfl⟩

theorem Ordered.uncancel (h : Ordered t) : Ordered t.uncancel := h

/-- The awaited future is done. -/
theorem Ordered.wake (h : Ordered t) (hwaiter : t.waiter.woken = false) {waiter : Waiter}
    (hnew : waiter.woken = true) :
    Ordered { t with waiter := waiter, ready := t.ready ++ [.wakeup] } := by
  obtain ⟨front, hfront, hready⟩ := h
  refine ⟨front, hfront, ?_⟩
  simp only [hready, hwaiter, hnew, if_true, List.append_nil, Bool.false_eq_true, if_false]

theorem Ordered.cancel (h : Ordered t) (msg : CancelMessage) : Ordered (t.cancel msg) := by
  unfold AsyncioTask.cancel
  split
  · exact h
  · next hwaiter => exact h.wake (by rw [hwaiter]; rfl) rfl
  · exact h

theorem Ordered.settle (h : Ordered t) : Ordered t.settle := by
  unfold AsyncioTask.settle
  split
  · next hwaiter => exact h.wake (by rw [hwaiter]; rfl) rfl
  · exact h

theorem Ordered.await (h : Ordered t) (hwaiter : t.waiter = .running) : Ordered t.await := by
  have hasleep : t.waiter.woken = false := by rw [hwaiter]; rfl
  unfold AsyncioTask.await
  split
  · exact h.wake hasleep rfl
  · obtain ⟨front, hfront, hready⟩ := h
    rw [hasleep] at hready
    exact ⟨front, hfront, hready⟩

theorem Ordered.coroYield (h : Ordered t) (hwaiter : t.waiter = .running) : Ordered t.coroYield :=
  h.wake (by rw [hwaiter]; rfl) rfl

/-- When the task is resumed, nothing is delayed. -/
theorem Ordered.resume (h : Ordered t) (ht : t.resume = some t') :
    t.waiter ≠ .running ∧ t.waiter.woken = true ∧ t.delayed = none ∧
      t' = { t with waiter := .running, mustCancel := false, ready := [] } := by
  obtain ⟨front, hfront, hready⟩ := h
  unfold AsyncioTask.resume at ht
  by_cases hrunning : t.waiter = .running
  · rw [if_pos hrunning] at ht
    cases ht
  rw [if_neg hrunning, hready] at ht
  generalize t.delayed = delayed at hfront ht ⊢
  cases hfront with
  | none =>
    cases hwoken : t.waiter.woken with
    | false => rw [hwoken] at ht; cases ht
    | true =>
      rw [hwoken] at ht
      cases ht
      exact ⟨hrunning, rfl, rfl, rfl⟩
  | _ => cases ht

/-- A handle of a delayed cancellation is called. -/
theorem Ordered.runDelayed (h : Ordered t) (ht : t.runDelayed = some t') :
    t.waiter ≠ .running ∧ ∃ ready,
      ((∃ msg, t.ready = .cancelTaskUnlessDone msg :: ready ∧ Ordered { t with ready := ready } ∧
        t' = { t with ready := ready }.cancelTaskUnlessDone msg) ∨
      (t.ready = .popDelayed :: ready ∧ Ordered t' ∧
        t' = { t with ready := ready, delayed := none })) := by
  obtain ⟨front, hfront, hready⟩ := h
  unfold AsyncioTask.runDelayed at ht
  by_cases hrunning : t.waiter = .running
  · rw [if_pos hrunning] at ht
    cases ht
  rw [if_neg hrunning, hready] at ht
  refine ⟨hrunning, ?_⟩
  unfold Ordered
  generalize t.delayed = delayed at hfront ht ⊢
  cases hfront with
  | none =>
    cases hwoken : t.waiter.woken <;> rw [hwoken] at ht <;> cases ht
  | cancel msg =>
    cases ht
    exact ⟨_, .inl ⟨msg, hready, ⟨[.popDelayed], .pop msg, rfl⟩, rfl⟩⟩
  | pop msg =>
    cases ht
    exact ⟨_, .inr ⟨hready, ⟨[], .none, rfl⟩, rfl⟩⟩
  | dropped =>
    cases ht
    exact ⟨_, .inr ⟨hready, ⟨[], .none, rfl⟩, rfl⟩⟩

/-- The delayed cancellation of a task that has just been resumed. -/
theorem Ordered.rescheduleDelayedTaskCancel (msg : CancelMessage) (hwaiter : t.waiter = .running)
    (hready : t.ready = []) (hdelayed : t.delayed = none) :
    t.rescheduleDelayedTaskCancel msg = some { t with
      ready := [.cancelTaskUnlessDone msg, .popDelayed]
      delayed := some msg } ∧
    Ordered { t with
      ready := [.cancelTaskUnlessDone msg, .popDelayed]
      delayed := some msg } := by
  refine ⟨?_, _, .cancel msg, ?_⟩
  · simp only [AsyncioTask.rescheduleDelayedTaskCancel, hdelayed, hready, List.nil_append]
  · simp only [hwaiter, Waiter.woken, Bool.false_eq_true, if_false, List.append_nil]

/-- A handle of a delayed cancellation is recorded. -/
theorem Ordered.delayed_eq (h : Ordered t) (hmem : .cancelTaskUnlessDone msg ∈ t.ready) :
    t.delayed = some msg := by
  obtain ⟨front, hfront, hready⟩ := h
  rw [hready] at hmem
  have hwakeup : Handle.cancelTaskUnlessDone msg ∉
      if t.waiter.woken then [Handle.wakeup] else [] := by
    cases t.waiter.woken <;> simp
  generalize t.delayed = delayed at hfront ⊢
  cases hfront with
  | cancel msg' =>
    simp only [List.cons_append, List.nil_append, List.mem_cons, Handle.cancelTaskUnlessDone.injEq,
      reduceCtorEq, hwakeup, or_false] at hmem
    rw [hmem]
  | _ => simp [hwakeup] at hmem

/-- Of a delayed cancellation with this message, no handle is left. -/
theorem Ordered.dropDelayed (h : Ordered t) (reason : Option CancelMessage) :
    Ordered (t.dropDelayed reason) ∧
      ∀ msg, .cancelTaskUnlessDone msg ∈ (t.dropDelayed reason).ready →
        .cancelTaskUnlessDone msg ∈ t.ready ∧ reason ≠ some msg := by
  have hother : reason ≠ t.delayed → ∀ msg, .cancelTaskUnlessDone msg ∈ t.ready →
      .cancelTaskUnlessDone msg ∈ t.ready ∧ reason ≠ some msg :=
    fun hne msg hmem => ⟨hmem, fun heq => hne (heq.trans (h.delayed_eq hmem).symm)⟩
  unfold AsyncioTask.dropDelayed
  split
  · next msg hdelayed =>
    split
    · next heq =>
      obtain ⟨front, hfront, hready⟩ := id h
      have hdropped : t.ready.erase (.cancelTaskUnlessDone msg) =
          [.popDelayed] ++ (if t.waiter.woken then [.wakeup] else []) := by
        rw [hready]
        rw [hdelayed] at hfront
        cases hfront with
        | cancel => exact List.erase_cons_head ..
        | pop => cases t.waiter.woken <;> rfl
      refine ⟨⟨_, .dropped, hdropped⟩, fun msg' hmem => ?_⟩
      rw [hdropped] at hmem
      cases ht : t.waiter.woken <;> simp [ht] at hmem
    · next hne => exact ⟨h, hother fun heq => hne (hdelayed ▸ heq).symm⟩
  · next hdelayed =>
    refine ⟨h, fun msg hmem => ?_⟩
    rw [h.delayed_eq hmem] at hdelayed
    cases hdelayed

theorem dropDelayed_fields (reason : Option CancelMessage) :
    (t.dropDelayed reason).cancelling = t.cancelling ∧
      (t.dropDelayed reason).waiter = t.waiter ∧
      (t.dropDelayed reason).mustCancel = t.mustCancel := by
  unfold AsyncioTask.dropDelayed
  split
  · split <;> exact ⟨rfl, rfl, rfl⟩
  · exact ⟨rfl, rfl, rfl⟩

end

end AsyncioTask

end EasyNetwork
