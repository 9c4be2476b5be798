/-
  `CancelScope` (`lowlevel/api_async/backend/_asyncio/tasks.py`): the scopes that one task enters
  and exits, and what is counted by `Task.cancelling()`.

  A scope that is cancelled calls `Task.cancel()` in every iteration of the event loop until it is
  exited; `__exit__` takes these requests back.  A cancellation that a shielded await has received
  is delivered again in the next iteration, in place of the one that was received.

  `cancelling_eq`: the requests are those of other code, and those of the scopes that are entered.
-/
import EasyNetwork.Lib.Trans
import EasyNetwork.AsyncioTask
import Mathlib.Algebra.GroupWithZero.Nat
import Mathlib.Algebra.Order.BigOperators.Group.List
import Mathlib.Algebra.Order.Group.Nat
import Mathlib.Logic.Function.Basic

namespace EasyNetwork

open AsyncioTask

/-- `_ScopeState`. -/
inductive ScopeState where
  | created
  | entered
  | exited
  deriving DecidableEq, Repr

/-- A `CancelScope`; its host task is set while it is entered. -/
structure CancelScope where
  state : ScopeState := .created
  hostTaskCancelling : ℕ := 0
  hostTaskCancelCalls : ℕ := 0
  cancelCalled : Bool := false
  cancelReason : Option CancelMessage := none
  /-- `__cancel_handle` is set: `__deliver_cancellation` is scheduled -/
  cancelHandle : Bool := false
  cancelledCaught : Bool := false
  deriving DecidableEq, Repr

namespace CancelScope

/-- One of the exceptions that `iterate_exceptions` gives: a `CancelledError` with its message and
    those of the `CancelledError`s in its context, or another exception. -/
inductive Leaf where
  | cancelledError (messages : List CancelMessage)
  | other
  deriving DecidableEq, Repr

/-- `__is_my_cancellation_exception`, and `False` for other exceptions. -/
def isMyCancellation (scope : CancelScope) : Leaf → Bool
  | .cancelledError messages => messages.any fun msg => scope.cancelReason == some msg
  | .other => false

/-- What `__exit__` does with `task.uncancel()`, `calls` times at most. -/
def uncancelCalls (hostTaskCancelling : ℕ) : ℕ → AsyncioTask → AsyncioTask
  | 0, task => task
  | calls + 1, task =>
    let task := task.uncancel
    if task.cancelling ≤ hostTaskCancelling then task
    else uncancelCalls hostTaskCancelling calls task

/-! ## The states -/

/-- The code of a shielded await: it has received a `CancelledError`, or has not. -/
abbrev Shield := Option CancelMessage

structure State where
  task : AsyncioTask
  scopes : ℕ → CancelScope
  /-- the scopes that are entered, from inner to outer -/
  stack : List ℕ
  /-- the task is in the code of a shielded await -/
  shield : Option Shield
  /-- the `CancelledError` that the last resumption has thrown into other code -/
  raised : Option CancelMessage
  /-- how often other code has cancelled the task -/
  external : ℕ

/-- The task has been started. -/
def State.init (clears : Bool) : State := ⟨.init clears, fun _ => {}, [], none, none, 0⟩

/-- What can happen. -/
inductive Action where
  /-- other code, or the task itself, calls `Task.cancel(msg)` -/
  | cancelTask (msg : Option String)
  /-- `cancel(reason)`, also by the deadline -/
  | cancelScope (i : ℕ) (reason : Option String)
  /-- the event loop calls `__deliver_cancellation` -/
  | retry (i : ℕ)
  /-- the awaited future is done -/
  | settle
  /-- the event loop calls a handle of a delayed cancellation -/
  | runDelayed
  /-- the event loop starts the next step of the task -/
  | resume
  /-- the task enters a new scope -/
  | enter (i : ℕ)
  /-- the task exits the scope that it has entered last, with this exception -/
  | exit (exc : Option (List Leaf))
  /-- the task awaits a future -/
  | await (shielded : Bool)
  /-- a bare `yield` of the task -/
  | coroYield (shielded : Bool)
  /-- the shielded future is not done yet -/
  | shieldAgain
  /-- the shielded future is done, and the shielded coroutine goes on; a future that has itself been
      cancelled replaces the `CancelledError` that the code has received -/
  | shieldDone (cancelled : Bool)
  /-- the shielded coroutine has ended -/
  | checkPendingCancellation
  | finish
  deriving DecidableEq, Repr

namespace State
variable (s : State)

/-- Change one scope. -/
def setScope (i : ℕ) (scope : CancelScope) : State :=
  { s with scopes := Function.update s.scopes i scope }

/-- `__deliver_cancellation`. -/
def deliverCancellation (i : ℕ) : State :=
  let scope := s.scopes i
  match scope.state with
  | .entered =>
    match s.task.delayed with
    | some msg => s.setScope i { scope with cancelHandle := scope.cancelReason == some msg }
    | none =>
      if s.task.mustCancel = false ∧ s.task.waiter ≠ .running then
        { s with task := s.task.cancel (scope.cancelReason.getD (.text none)) }.setScope i
          { scope with hostTaskCancelCalls := scope.hostTaskCancelCalls + 1, cancelHandle := true }
      else s.setScope i { scope with cancelHandle := true }
  | _ => s

/-- `cancel(reason)`. -/
def cancel (i : ℕ) (reason : Option String) : State :=
  let scope := s.scopes i
  if scope.cancelCalled then s
  else (s.setScope i { scope with
    cancelCalled := true
    cancelReason := some (.scope i reason) }).deliverCancellation i

/-- `_check_pending_cancellation`: the innermost scope of these that is cancelled is delivered, if
    it is not already. -/
def checkPending : List ℕ → State
  | [] => s
  | i :: parents =>
    if (s.scopes i).cancelCalled then
      if (s.scopes i).cancelHandle then s else s.deliverCancellation i
    else checkPending parents

/-- `__enter__`. -/
def enter (i : ℕ) : State :=
  let scope := s.scopes i
  let s := { s with stack := i :: s.stack }.setScope i
    { scope with state := .entered, hostTaskCancelling := s.task.cancelling }
  if scope.cancelCalled then s.deliverCancellation i else s

/-- `__exit__` of the scope `i`, whose parents are given: what it returns, and the state
    afterwards. -/
def exit (i : ℕ) (parents : List ℕ) (exc : Option (List Leaf)) : Bool × State :=
  let scope := { s.scopes i with state := .exited, cancelHandle := false }
  let s := { s with stack := parents }
  if scope.cancelCalled then
    let task := uncancelCalls scope.hostTaskCancelling scope.hostTaskCancelCalls s.task
    let isMyCancellation := exc.map fun leaves => leaves.map scope.isMyCancellation
    let cancelledCaught := isMyCancellation.elim scope.cancelledCaught fun l => l.any id
    let shouldSuppress := isMyCancellation.elim true fun l => l.all id
    let s := { s with task := task.dropDelayed scope.cancelReason }.setScope i
      { scope with hostTaskCancelCalls := 0, cancelledCaught := cancelledCaught }
    (cancelledCaught && shouldSuppress, s.checkPending parents)
  else (scope.cancelledCaught, (s.setScope i scope).checkPending parents)

end State

/-- One step. -/
def step (s : State) : Action → Option State
  | .cancelTask msg =>
    if s.task.waiter = .done then some s
    else some { s with task := s.task.cancel (.text msg), external := s.external + 1 }
  | .cancelScope i reason => some (s.cancel i reason)
  | .retry i =>
    if s.task.waiter ≠ .running ∧ (s.scopes i).cancelHandle then some (s.deliverCancellation i)
    else none
  | .settle =>
    if s.task.waiter = .future .pending then some { s with task := s.task.settle } else none
  | .runDelayed => s.task.runDelayed.map fun task => { s with task := task }
  | .resume => s.task.resume.map fun task =>
    match s.shield with
    -- the `CancelledError` goes to the code of the shielded await
    | some last => { s with task := task, shield := some (s.task.thrown.or last), raised := none }
    | none => { s with task := task, raised := s.task.thrown }
  | .enter i =>
    if s.task.waiter = .running ∧ s.shield = none ∧ (s.scopes i).state = .created then
      some (s.enter i)
    else none
  | .exit exc =>
    match s.stack with
    | i :: parents =>
      if s.task.waiter = .running ∧ s.shield = none then some (s.exit i parents exc).2 else none
    | [] => none
  | .await shielded =>
    if s.task.waiter = .running ∧ s.shield = none then
      some { s with task := s.task.await, shield := if shielded then some none else none }
    else none
  | .coroYield shielded =>
    if s.task.waiter = .running ∧ s.shield = none then
      some { s with task := s.task.coroYield, shield := if shielded then some none else none }
    else none
  | .shieldAgain =>
    if s.task.waiter = .running ∧ s.shield ≠ none then some { s with task := s.task.await }
    else none
  | .shieldDone cancelled =>
    match s.shield with
    | none => none
    | some last =>
      if s.task.waiter = .running then
        match if cancelled then none else last with
        | none => some { s with shield := none }
        | some msg =>
          match s.task.rescheduleDelayedTaskCancel msg with
          | some task => some { s with task := task, shield := none }
          -- the `AssertionError` is raised in the code around the shielded await
          | none => some { s with shield := none }
      else none
  | .checkPendingCancellation =>
    if s.task.waiter = .running ∧ s.shield = none then some (s.checkPending s.stack) else none
  | .finish =>
    if s.task.waiter = .running ∧ s.shield = none ∧ s.stack = [] then
      some { s with task := { s.task with waiter := .done } }
    else none

/-! ## The invariant -/

namespace State
variable (s : State)

/-- The sum of the delivery counters of these scopes. -/
def cancelCalls (l : List ℕ) : ℕ := (l.map fun i => (s.scopes i).hostTaskCancelCalls).sum

/-- Each scope has found the requests of other code and of its parents. -/
def Entered : List ℕ → Prop
  | [] => True
  | i :: parents =>
    (s.scopes i).hostTaskCancelling ≤ s.external + s.cancelCalls parents ∧ Entered parents

/-- Somebody has requested the cancellation with this message, and the request is still counted. -/
def Requested (msg : CancelMessage) : Prop :=
  0 < s.external ∨ ∃ i ∈ s.stack, (s.scopes i).cancelReason = some msg ∧
    0 < (s.scopes i).hostTaskCancelCalls

end State

/-- What holds of every scope. -/
structure ScopeInv (i : ℕ) (scope : CancelScope) (entered : Prop) : Prop where
  state : scope.state = .entered ↔ entered
  calls : ¬ entered → scope.hostTaskCancelCalls = 0
  called : 0 < scope.hostTaskCancelCalls → scope.cancelCalled = true
  handle : scope.cancelHandle = true → scope.cancelCalled = true
  reason : scope.cancelCalled = true → ∃ reason, scope.cancelReason = some (.scope i reason)
  unnamed : scope.cancelCalled = false → scope.cancelReason = none
  caught : scope.state ≠ .exited → scope.cancelledCaught = false

/-- What holds in every reachable state. -/
structure Inv (s : State) : Prop where
  nodup : s.stack.Nodup
  scope : ∀ i, ScopeInv i (s.scopes i) (i ∈ s.stack)
  count : s.task.cancelling = s.external + s.cancelCalls s.stack
  entered : s.Entered s.stack
  ordered : Ordered s.task
  delayed : ∀ msg, .cancelTaskUnlessDone msg ∈ s.task.ready → s.Requested msg
  thrown : ∀ msg, s.task.thrown = some msg → s.Requested msg
  running : s.task.waiter = .running → s.task.mustCancel = true → 0 < s.external
  shield : ∀ msg, s.shield = some (some msg) → s.Requested msg
  fresh : s.task.waiter = .running → s.shield ≠ none → s.task.ready = [] ∧ s.task.delayed = none
  done : s.task.waiter = .done → s.stack = []

section
variable {s s' : State} {i : ℕ} {l : List ℕ} {msg : CancelMessage} {scope : CancelScope}

theorem Inv.init (clears : Bool) : Inv (State.init clears) where
  nodup := List.nodup_nil
  scope _ := ⟨⟨nofun, nofun⟩, fun _ => rfl, nofun, nofun, nofun, fun _ => rfl, fun _ => rfl⟩
  count := rfl
  entered := trivial
  ordered := Ordered.init clears
  delayed := nofun
  thrown := nofun
  running := nofun
  shield := nofun
  fresh _ h := absurd rfl h
  done := nofun

/-! ## Counting -/

theorem cancelCalls_cons : s.cancelCalls (i :: l) =
    (s.scopes i).hostTaskCancelCalls + s.cancelCalls l := List.sum_cons

theorem cancelCalls_congr (h : ∀ j ∈ l,
    (s'.scopes j).hostTaskCancelCalls = (s.scopes j).hostTaskCancelCalls) :
    s'.cancelCalls l = s.cancelCalls l :=
  congrArg List.sum (List.map_congr_left h)

theorem cancelCalls_mono (h : ∀ j ∈ l,
    (s.scopes j).hostTaskCancelCalls ≤ (s'.scopes j).hostTaskCancelCalls) :
    s.cancelCalls l ≤ s'.cancelCalls l :=
  List.sum_le_sum h

/-- One more request of one scope. -/
theorem cancelCalls_succ (hnodup : l.Nodup) (hi : i ∈ l)
    (hsucc : (s'.scopes i).hostTaskCancelCalls = (s.scopes i).hostTaskCancelCalls + 1)
    (hother : ∀ j, j ≠ i →
      (s'.scopes j).hostTaskCancelCalls = (s.scopes j).hostTaskCancelCalls) :
    s'.cancelCalls l = s.cancelCalls l + 1 := by
  induction l with
  | nil => cases hi
  | cons j l ih =>
    obtain ⟨hnotin, hnodup⟩ := List.nodup_cons.1 hnodup
    rw [cancelCalls_cons, cancelCalls_cons]
    rcases List.mem_cons.1 hi with rfl | hi
    · have hrest : s'.cancelCalls l = s.cancelCalls l :=
        cancelCalls_congr fun k hk => hother k fun heq => hnotin (heq ▸ hk)
      omega
    · have hne : j ≠ i := fun heq => hnotin (heq ▸ hi)
      rw [ih hnodup hi, hother j hne]
      omega

theorem le_cancelCalls (hi : i ∈ l) : (s.scopes i).hostTaskCancelCalls ≤ s.cancelCalls l :=
  List.le_sum_of_mem (List.mem_map_of_mem hi)

theorem State.Entered.mono (hexternal : s.external ≤ s'.external)
    (hscopes : ∀ j ∈ l, (s'.scopes j).hostTaskCancelling = (s.scopes j).hostTaskCancelling ∧
      (s.scopes j).hostTaskCancelCalls ≤ (s'.scopes j).hostTaskCancelCalls)
    (h : s.Entered l) : s'.Entered l := by
  induction l with
  | nil => exact trivial
  | cons j l ih =>
    have hrest : ∀ k ∈ l, _ := fun k hk => hscopes k (List.mem_cons_of_mem j hk)
    have hsum : s.cancelCalls l ≤ s'.cancelCalls l := cancelCalls_mono fun k hk => (hrest k hk).2
    refine ⟨?_, ih hrest h.2⟩
    rw [(hscopes j List.mem_cons_self).1]
    exact Nat.le_trans h.1 (Nat.add_le_add hexternal hsum)

/-- Somebody's request is counted. -/
theorem State.Requested.pos (h : s.Requested msg) : 0 < s.external + s.cancelCalls s.stack := by
  rcases h with hpos | ⟨i, hi, -, hpos⟩
  · exact Nat.lt_of_lt_of_le hpos (Nat.le_add_right _ _)
  · exact Nat.lt_of_lt_of_le hpos (Nat.le_trans (le_cancelCalls hi) (Nat.le_add_left _ _))

theorem State.Requested.mono (hexternal : s.external ≤ s'.external)
    (hstack : ∀ j ∈ s.stack, j ∈ s'.stack)
    (hscopes : ∀ j, 0 < (s.scopes j).hostTaskCancelCalls →
      (s'.scopes j).cancelReason = (s.scopes j).cancelReason ∧
        (s.scopes j).hostTaskCancelCalls ≤ (s'.scopes j).hostTaskCancelCalls)
    (h : s.Requested msg) : s'.Requested msg := by
  rcases h with hpos | ⟨j, hj, hreason, hpos⟩
  · exact .inl (Nat.lt_of_lt_of_le hpos hexternal)
  · obtain ⟨hsame, hle⟩ := hscopes j hpos
    exact .inr ⟨j, hstack j hj, hsame.trans hreason, Nat.lt_of_lt_of_le hpos hle⟩

/-! ## Changes of one scope -/

theorem setScope_self : (s.setScope i scope).scopes i = scope := Function.update_self ..

theorem setScope_of_ne {j : ℕ} (h : j ≠ i) : (s.setScope i scope).scopes j = s.scopes j :=
  Function.update_of_ne h ..

theorem cancelReason_setScope (h : scope.cancelReason = (s.scopes i).cancelReason) (j : ℕ) :
    ((s.setScope i scope).scopes j).cancelReason = (s.scopes j).cancelReason := by
  by_cases hji : j = i
  · subst hji
    rw [setScope_self, h]
  · rw [setScope_of_ne hji]

/-- What a delivery leaves as it is. -/
theorem deliverCancellation_frame :
    (s.deliverCancellation i).shield = s.shield ∧ (s.deliverCancellation i).stack = s.stack ∧
      (s.deliverCancellation i).external = s.external ∧
      ∀ j, ((s.deliverCancellation i).scopes j).cancelReason = (s.scopes j).cancelReason := by
  unfold State.deliverCancellation
  simp only
  split
  · split
    · exact ⟨rfl, rfl, rfl, cancelReason_setScope rfl⟩
    · split
      · exact ⟨rfl, rfl, rfl, cancelReason_setScope rfl⟩
      · exact ⟨rfl, rfl, rfl, cancelReason_setScope rfl⟩
  · exact ⟨rfl, rfl, rfl, fun _ => rfl⟩

/-- A delivery cancels the task only if it is suspended, and no cancellation is recorded. -/
theorem deliverCancellation_task : (s.deliverCancellation i).task = s.task ∨
    s.task.mustCancel = false ∧ s.task.waiter ≠ .running ∧
      (s.deliverCancellation i).task =
        s.task.cancel ((s.scopes i).cancelReason.getD (.text none)) := by
  unfold State.deliverCancellation
  simp only
  split
  · split
    · exact .inl rfl
    · split
      · next hcancel => exact .inr ⟨hcancel.1, hcancel.2, rfl⟩
      · exact .inl rfl
  · exact .inl rfl

/-- A scope is changed without its requests. -/
theorem Inv.setScope (h : Inv s) (hscope : ScopeInv i scope (i ∈ s.stack))
    (hcalls : scope.hostTaskCancelCalls = (s.scopes i).hostTaskCancelCalls)
    (hcancelling : scope.hostTaskCancelling = (s.scopes i).hostTaskCancelling)
    (hreason : 0 < scope.hostTaskCancelCalls → scope.cancelReason = (s.scopes i).cancelReason) :
    Inv (s.setScope i scope) := by
  have hsame : ∀ j, ((s.setScope i scope).scopes j).hostTaskCancelCalls =
        (s.scopes j).hostTaskCancelCalls ∧
      ((s.setScope i scope).scopes j).hostTaskCancelling = (s.scopes j).hostTaskCancelling := by
    intro j
    by_cases hji : j = i
    · subst hji
      rw [setScope_self]
      exact ⟨hcalls, hcancelling⟩
    · rw [setScope_of_ne hji]
      exact ⟨rfl, rfl⟩
  have hrequested : ∀ msg, s.Requested msg → (s.setScope i scope).Requested msg := by
    intro msg
    refine State.Requested.mono (Nat.le_refl _) (fun _ => id) fun j hpos => ⟨?_, (hsame j).1.ge⟩
    by_cases hji : j = i
    · subst hji
      rw [setScope_self]
      exact hreason (hcalls ▸ hpos)
    · rw [setScope_of_ne hji]
  exact
    { nodup := h.nodup
      scope := fun j => by
        by_cases hji : j = i
        · subst hji
          rw [setScope_self]
          exact hscope
        · rw [setScope_of_ne hji]
          exact h.scope j
      count := h.count.trans
        (congrArg (s.external + ·) (cancelCalls_congr fun j _ => (hsame j).1).symm)
      entered := State.Entered.mono (s := s) (Nat.le_refl s.external)
        (fun j _ => ⟨(hsame j).2, (hsame j).1.ge⟩) h.entered
      ordered := h.ordered
      delayed := fun msg hmem => hrequested msg (h.delayed msg hmem)
      thrown := fun msg hthrown => hrequested msg (h.thrown msg hthrown)
      running := h.running
      shield := fun msg hshield => hrequested msg (h.shield msg hshield)
      fresh := h.fresh
      done := h.done }

/-! ## Deliveries -/

/-- A scope that is entered cancels the task. -/
theorem Inv.request (h : Inv s) (hi : i ∈ s.stack) (hrunning : s.task.waiter ≠ .running)
    (hcalled : (s.scopes i).cancelCalled = true) (hreason : (s.scopes i).cancelReason = some msg) :
    Inv ({ s with task := s.task.cancel msg }.setScope i { s.scopes i with
      hostTaskCancelCalls := (s.scopes i).hostTaskCancelCalls + 1
      cancelHandle := true }) := by
  generalize hs' : State.setScope { s with task := s.task.cancel msg } i _ = s'
  have hstack : s'.stack = s.stack := hs' ▸ rfl
  have htask : s'.task = s.task.cancel msg := hs' ▸ rfl
  have hexternal : s'.external = s.external := hs' ▸ rfl
  have hshield : s'.shield = s.shield := hs' ▸ rfl
  have hself : s'.scopes i = { s.scopes i with
      hostTaskCancelCalls := (s.scopes i).hostTaskCancelCalls + 1
      cancelHandle := true } := hs' ▸ setScope_self
  have hother : ∀ j, j ≠ i → s'.scopes j = s.scopes j := fun j hji => hs' ▸ setScope_of_ne hji
  have hle : ∀ j, (s'.scopes j).hostTaskCancelling = (s.scopes j).hostTaskCancelling ∧
      (s'.scopes j).cancelReason = (s.scopes j).cancelReason ∧
      (s.scopes j).hostTaskCancelCalls ≤ (s'.scopes j).hostTaskCancelCalls := by
    intro j
    by_cases hji : j = i
    · subst hji
      rw [hself]
      exact ⟨rfl, rfl, Nat.le_succ _⟩
    · rw [hother j hji]
      exact ⟨rfl, rfl, Nat.le_refl _⟩
  have hrequested : ∀ msg, s.Requested msg → s'.Requested msg := fun msg =>
    State.Requested.mono hexternal.ge (fun j hj => hstack ▸ hj) fun j _ => (hle j).2
  have hdone : s.task.waiter ≠ .done := fun hdone => List.ne_nil_of_mem hi (h.done hdone)
  have hrunning' : s'.task.waiter ≠ .running := by
    rw [htask]
    exact mt waiter_cancel.1.1 hrunning
  exact
    { nodup := hstack ▸ h.nodup
      scope := fun j => by
        rw [hstack]
        by_cases hji : j = i
        · subst hji
          rw [hself]
          exact
            { h.scope j with
              calls := fun hnot => absurd hi hnot
              called := fun _ => hcalled
              handle := fun _ => hcalled }
        · rw [hother j hji]
          exact h.scope j
      count := by
        have hsum : s'.cancelCalls s.stack = s.cancelCalls s.stack + 1 :=
          cancelCalls_succ h.nodup hi (by rw [hself]) fun j hji => by rw [hother j hji]
        rw [htask, cancelling_cancel hdone, h.count, hexternal, hstack, hsum]
        rfl
      entered := by
        rw [hstack]
        exact State.Entered.mono hexternal.ge (fun j _ => ⟨(hle j).1, (hle j).2.2⟩) h.entered
      ordered := by
        rw [htask]
        exact h.ordered.cancel msg
      delayed := fun msg' hmem => by
        rw [htask] at hmem
        exact hrequested msg' (h.delayed msg' (mem_ready_cancel hmem))
      thrown := fun msg' hthrown => by
        rw [htask] at hthrown
        rcases thrown_cancel hthrown with rfl | hold
        · refine .inr ⟨i, hstack ▸ hi, ?_, ?_⟩
          · rw [hself]
            exact hreason
          · rw [hself]
            exact Nat.succ_pos _
        · exact hrequested msg' (h.thrown msg' hold)
      running := fun hnow => absurd hnow hrunning'
      shield := fun msg' hlast => hrequested msg' (h.shield msg' (hshield ▸ hlast))
      fresh := fun hnow => absurd hnow hrunning'
      done := fun hnow => by
        rw [htask] at hnow
        exact absurd (waiter_cancel.2.1 hnow) hdone }

/-- `__deliver_cancellation` of a scope that is cancelled. -/
theorem Inv.deliverCancellation (h : Inv s) (hcalled : (s.scopes i).cancelCalled = true) :
    Inv (s.deliverCancellation i) := by
  have hscope := h.scope i
  have hhandle : ∀ handle, Inv (s.setScope i { s.scopes i with cancelHandle := handle }) :=
    fun handle => h.setScope { hscope with handle := fun _ => hcalled } rfl rfl fun _ => rfl
  unfold State.deliverCancellation
  simp only
  split
  · next hentered =>
    split
    · exact hhandle _
    · split
      · next hcancel =>
        obtain ⟨reason, hmsg⟩ := hscope.reason hcalled
        have hgetD : (s.scopes i).cancelReason.getD (.text none) = .scope i reason := by
          rw [hmsg]
          rfl
        rw [hgetD]
        exact h.request (hscope.state.1 hentered) hcancel.2 hcalled hmsg
      · exact hhandle true
  · exact h

theorem Inv.checkPending (h : Inv s) (l : List ℕ) : Inv (s.checkPending l) := by
  induction l with
  | nil => exact h
  | cons i parents ih =>
    unfold State.checkPending
    split
    · next hcalled =>
      split
      · exact h
      · exact h.deliverCancellation hcalled
    · exact ih

/-- A scope is cancelled, and not delivered yet. -/
theorem Inv.setCancelled (h : Inv s) (hnot : (s.scopes i).cancelCalled = false)
    (reason : Option String) : Inv (s.setScope i { s.scopes i with
      cancelCalled := true
      cancelReason := some (.scope i reason) }) := by
  have hscope := h.scope i
  have hzero : (s.scopes i).hostTaskCancelCalls = 0 := by
    by_contra hne
    rw [hscope.called (Nat.pos_of_ne_zero hne)] at hnot
    cases hnot
  exact h.setScope
    { hscope with
      called := fun _ => rfl
      handle := fun _ => rfl
      reason := fun _ => ⟨_, rfl⟩
      unnamed := nofun }
    rfl rfl fun hpos => absurd hzero (Nat.ne_of_gt hpos)

/-- `cancel()` of a scope. -/
theorem Inv.cancel (h : Inv s) (i : ℕ) (reason : Option String) : Inv (s.cancel i reason) := by
  unfold State.cancel
  simp only
  split
  · exact h
  · next hnot =>
    refine (h.setCancelled (Bool.eq_false_iff.2 hnot) reason).deliverCancellation ?_
    rw [setScope_self]

/-! ## Entering and exiting -/

/-- What holds of a scope depends on the stack only by whether it is entered. -/
theorem ScopeInv.congr {p q : Prop} (h : ScopeInv i scope p) (hpq : p ↔ q) : ScopeInv i scope q :=
  { h with
    state := h.state.trans hpq
    calls := fun hnot => h.calls (mt hpq.1 hnot) }

/-- A scope is put on the stack. -/
theorem Inv.push (h : Inv s) (hcreated : (s.scopes i).state = .created)
    (hrunning : s.task.waiter = .running) :
    Inv ({ s with stack := i :: s.stack }.setScope i { s.scopes i with
      state := .entered
      hostTaskCancelling := s.task.cancelling }) := by
  have hscope := h.scope i
  have hnot : i ∉ s.stack := fun hmem => by
    have hentered := hscope.state.2 hmem
    rw [hcreated] at hentered
    cases hentered
  have hzero := hscope.calls hnot
  generalize hs' : State.setScope { s with stack := i :: s.stack } i _ = s'
  have hstack : s'.stack = i :: s.stack := hs' ▸ rfl
  have htask : s'.task = s.task := hs' ▸ rfl
  have hexternal : s'.external = s.external := hs' ▸ rfl
  have hshield : s'.shield = s.shield := hs' ▸ rfl
  have hself : s'.scopes i = { s.scopes i with
      state := .entered, hostTaskCancelling := s.task.cancelling } := hs' ▸ setScope_self
  have hother : ∀ j, j ≠ i → s'.scopes j = s.scopes j := fun j hji => hs' ▸ setScope_of_ne hji
  have hne : ∀ j ∈ s.stack, j ≠ i := fun j hj hji => hnot (hji ▸ hj)
  have hsum : s'.cancelCalls s.stack = s.cancelCalls s.stack :=
    cancelCalls_congr fun j hj => by rw [hother j (hne j hj)]
  have hrequested : ∀ msg, s.Requested msg → s'.Requested msg := by
    intro msg
    refine State.Requested.mono hexternal.ge
      (fun j hj => hstack ▸ List.mem_cons_of_mem i hj) fun j hpos => ?_
    have hji : j ≠ i := fun hji => by
      rw [hji, hzero] at hpos
      exact Nat.lt_irrefl 0 hpos
    rw [hother j hji]
    exact ⟨rfl, Nat.le_refl _⟩
  exact
    { nodup := by
        rw [hstack]
        exact List.nodup_cons.2 ⟨hnot, h.nodup⟩
      scope := fun j => by
        rw [hstack]
        by_cases hji : j = i
        · subst hji
          rw [hself]
          exact
            { hscope with
              state := iff_of_true rfl List.mem_cons_self
              calls := fun hnotin => absurd List.mem_cons_self hnotin
              caught := fun _ => hscope.caught (by rw [hcreated]; exact nofun) }
        · rw [hother j hji]
          have hj := h.scope j
          have hmem : j ∈ i :: s.stack ↔ j ∈ s.stack := by
            rw [List.mem_cons]
            exact or_iff_right hji
          exact hj.congr hmem.symm
      count := by
        rw [htask, hexternal, hstack, cancelCalls_cons, hself, hsum, h.count]
        simp only [hzero, Nat.zero_add]
      entered := by
        rw [hstack]
        refine ⟨?_, State.Entered.mono (s := s) hexternal.ge (fun j hj => ?_) h.entered⟩
        · rw [hself, hexternal, hsum]
          exact h.count.le
        · rw [hother j (hne j hj)]
          exact ⟨rfl, Nat.le_refl _⟩
      ordered := htask ▸ h.ordered
      delayed := fun msg hmem => hrequested msg (h.delayed msg (htask ▸ hmem))
      thrown := fun msg hthrown => hrequested msg (h.thrown msg (htask ▸ hthrown))
      running := by
        rw [htask, hexternal]
        exact h.running
      shield := fun msg hlast => hrequested msg (h.shield msg (hshield ▸ hlast))
      fresh := by
        rw [htask, hshield]
        exact h.fresh
      done := fun hdone => by
        rw [htask, hrunning] at hdone
        cases hdone }

theorem Inv.enter (h : Inv s) (hcreated : (s.scopes i).state = .created)
    (hrunning : s.task.waiter = .running) : Inv (s.enter i) := by
  have hentered := h.push hcreated hrunning
  unfold State.enter
  simp only
  split
  · next hcalled =>
    refine hentered.deliverCancellation ?_
    rw [setScope_self]
    exact hcalled
  · exact hentered

/-- `__exit__` takes back what the scope has requested. -/
theorem uncancelCalls_eq {hostTaskCancelling : ℕ} (calls : ℕ) (t : AsyncioTask)
    (hle : hostTaskCancelling + calls ≤ t.cancelling) :
    ∃ mustCancel, uncancelCalls hostTaskCancelling calls t =
      { t with cancelling := t.cancelling - calls, mustCancel := mustCancel } ∧
      (mustCancel = true → t.mustCancel = true) := by
  induction calls generalizing t with
  | zero => exact ⟨t.mustCancel, rfl, id⟩
  | succ calls ih =>
    have huncancel : t.uncancel.mustCancel = true → t.mustCancel = true := fun hmust =>
      (Bool.and_eq_true_iff.1 hmust).1
    unfold uncancelCalls
    simp only
    split
    · next hstop =>
      have hzero : calls = 0 := by
        have hstop' : t.cancelling - 1 ≤ hostTaskCancelling := hstop
        omega
      subst hzero
      exact ⟨t.uncancel.mustCancel, rfl, huncancel⟩
    · have hle' : hostTaskCancelling + calls ≤ t.uncancel.cancelling := by
        show _ ≤ t.cancelling - 1
        omega
      obtain ⟨mustCancel, heq, hmust⟩ := ih t.uncancel hle'
      refine ⟨mustCancel, heq.trans ?_, fun hm => huncancel (hmust hm)⟩
      simp only [AsyncioTask.uncancel, Nat.sub_sub, Nat.add_comm 1]

/-- A scope is left, with its requests. -/
theorem Inv.remove {parents : List ℕ} {task : AsyncioTask} (h : Inv s)
    (hstack : s.stack = i :: parents) (hrunning : s.task.waiter = .running)
    (hshield : s.shield = none) (hscope : ScopeInv i scope False)
    (hcancelling : task.cancelling + (s.scopes i).hostTaskCancelCalls = s.task.cancelling)
    (hwaiter : task.waiter = .running)
    (hmust : task.mustCancel = true → s.task.mustCancel = true) (hordered : Ordered task)
    (hready : ∀ msg, .cancelTaskUnlessDone msg ∈ task.ready →
      .cancelTaskUnlessDone msg ∈ s.task.ready ∧
        (0 < (s.scopes i).hostTaskCancelCalls → (s.scopes i).cancelReason ≠ some msg)) :
    Inv ({ s with stack := parents, task := task }.setScope i scope) := by
  obtain ⟨hnotin, hnodup⟩ := List.nodup_cons.1 (hstack ▸ h.nodup)
  have hne : ∀ j ∈ parents, j ≠ i := fun j hj hji => hnotin (hji ▸ hj)
  generalize hs' : State.setScope { s with stack := parents, task := task } i scope = s'
  have hstack' : s'.stack = parents := hs' ▸ rfl
  have htask' : s'.task = task := hs' ▸ rfl
  have hexternal : s'.external = s.external := hs' ▸ rfl
  have hshield' : s'.shield = none := hs' ▸ hshield
  have hself : s'.scopes i = scope := hs' ▸ setScope_self
  have hother : ∀ j, j ≠ i → s'.scopes j = s.scopes j := fun j hji => hs' ▸ setScope_of_ne hji
  have hsum : s'.cancelCalls parents = s.cancelCalls parents :=
    cancelCalls_congr fun j hj => by rw [hother j (hne j hj)]
  have hcount := h.count
  rw [hstack, cancelCalls_cons] at hcount
  -- only the task itself can have recorded a cancellation while it runs
  have hthrown : task.mustCancel = true → 0 < s'.external := fun hm =>
    hexternal ▸ h.running hrunning (hmust hm)
  exact
    { nodup := hstack' ▸ hnodup
      scope := fun j => by
        rw [hstack']
        by_cases hji : j = i
        · subst hji
          rw [hself, eq_false hnotin]
          exact hscope
        · rw [hother j hji]
          have hj := h.scope j
          have hmem : j ∈ s.stack ↔ j ∈ parents := by
            rw [hstack, List.mem_cons]
            exact or_iff_right hji
          exact hj.congr hmem
      count := by
        rw [htask', hexternal, hstack', hsum]
        omega
      entered := by
        have hentered := h.entered
        rw [hstack] at hentered
        rw [hstack']
        refine State.Entered.mono (s := s) hexternal.ge (fun j hj => ?_) hentered.2
        rw [hother j (hne j hj)]
        exact ⟨rfl, Nat.le_refl _⟩
      ordered := htask' ▸ hordered
      delayed := fun msg hmem => by
        rw [htask'] at hmem
        obtain ⟨hold, hreason⟩ := hready msg hmem
        rcases h.delayed msg hold with hpos | ⟨j, hj, hmsg, hpos⟩
        · exact .inl (hexternal ▸ hpos)
        · have hji : j ≠ i := by
            rintro rfl
            exact hreason hpos hmsg
          have hj' : j ∈ parents := by
            rw [hstack] at hj
            exact (List.mem_cons.1 hj).resolve_left hji
          refine .inr ⟨j, hstack' ▸ hj', ?_⟩
          rw [hother j hji]
          exact ⟨hmsg, hpos⟩
      thrown := fun msg hmsg => by
        rw [htask'] at hmsg
        unfold AsyncioTask.thrown at hmsg
        rw [hwaiter] at hmsg
        simp only at hmsg
        split at hmsg
        · next hm => exact .inl (hthrown hm)
        · cases hmsg
      running := fun _ hm => hthrown (htask' ▸ hm)
      shield := fun msg hlast => by
        rw [hshield'] at hlast
        cases hlast
      fresh := fun _ hne => absurd hshield' hne
      done := fun hdone => by
        rw [htask', hwaiter] at hdone
        cases hdone }

/-- While the task runs, a delivery does not cancel it. -/
theorem task_deliverCancellation (hrunning : s.task.waiter = .running) :
    (s.deliverCancellation i).task = s.task :=
  deliverCancellation_task.elim id fun ⟨_, hwaiter, _⟩ => absurd hrunning hwaiter

theorem task_checkPending (hrunning : s.task.waiter = .running) (l : List ℕ) :
    (s.checkPending l).task = s.task := by
  induction l with
  | nil => rfl
  | cons i parents ih =>
    unfold State.checkPending
    split
    · split
      · rfl
      · exact task_deliverCancellation hrunning
    · exact ih

/-- What a check for pending cancellations leaves as it is. -/
theorem checkPending_frame (l : List ℕ) : (s.checkPending l).shield = s.shield ∧
    (s.checkPending l).stack = s.stack ∧ (s.checkPending l).external = s.external := by
  induction l with
  | nil => exact ⟨rfl, rfl, rfl⟩
  | cons i parents ih =>
    unfold State.checkPending
    split
    · split
      · exact ⟨rfl, rfl, rfl⟩
      · obtain ⟨hshield, hstack, hexternal, -⟩ := deliverCancellation_frame (s := s) (i := i)
        exact ⟨hshield, hstack, hexternal⟩
    · exact ih

theorem isMyCancellation_congr {scope' : CancelScope}
    (h : scope.cancelReason = scope'.cancelReason) (leaf : Leaf) :
    scope.isMyCancellation leaf = scope'.isMyCancellation leaf := by
  cases leaf with
  | cancelledError messages =>
    unfold isMyCancellation
    simp only [h]
  | other => rfl

/-- What `__exit__` returns when an exception has been raised. -/
theorem exit_some {parents : List ℕ} (hcaught : (s.scopes i).cancelledCaught = false)
    (leaf : Leaf) : (s.exit i parents (some [leaf])).1 =
      ((s.scopes i).cancelCalled && (s.scopes i).isMyCancellation leaf) := by
  unfold State.exit
  cases hcalled : (s.scopes i).cancelCalled with
  | false => simp [hcalled, hcaught]
  | true =>
    simp only [hcalled, if_true, Option.map_some, Option.elim_some, List.map_cons, List.map_nil,
      List.any_cons, List.any_nil, List.all_cons, List.all_nil, id, Bool.or_false, Bool.and_true,
      Bool.and_self, Bool.true_and]
    exact isMyCancellation_congr rfl leaf

/-- What is suppressed is `cancelled_caught()`. -/
theorem exit_caught (exc : Option (List Leaf)) (h : (s.exit i [] exc).1 = true) :
    ((s.exit i [] exc).2.scopes i).cancelledCaught = true := by
  unfold State.exit at h ⊢
  cases hcalled : (s.scopes i).cancelCalled with
  | false =>
    simp only [hcalled, Bool.false_eq_true, if_false, State.checkPending, setScope_self] at h ⊢
    exact h
  | true =>
    simp only [hcalled, if_true, State.checkPending, setScope_self] at h ⊢
    exact (Bool.and_eq_true_iff.1 h).1

/-- Without an exception, there is nothing to suppress. -/
theorem exit_none {parents : List ℕ} (hcaught : (s.scopes i).cancelledCaught = false) :
    (s.exit i parents none).1 = false := by
  unfold State.exit
  cases hcalled : (s.scopes i).cancelCalled <;> simp [hcalled, hcaught]

/-- `__exit__` removes exactly the requests of the scope. -/
theorem Inv.exit {parents : List ℕ} (h : Inv s) (hstack : s.stack = i :: parents)
    (hrunning : s.task.waiter = .running) (hshield : s.shield = none)
    (exc : Option (List Leaf)) :
    Inv (s.exit i parents exc).2 ∧
      (s.exit i parents exc).2.task.cancelling + (s.scopes i).hostTaskCancelCalls =
        s.task.cancelling := by
  have hscope := h.scope i
  unfold State.exit
  simp only
  split
  · next hcalled =>
    -- the scope has found no more requests than are left after its own
    have hle : (s.scopes i).hostTaskCancelling + (s.scopes i).hostTaskCancelCalls ≤
        s.task.cancelling := by
      have hentered := h.entered
      have hcount := h.count
      rw [hstack] at hentered
      rw [hstack, cancelCalls_cons] at hcount
      have := hentered.1
      omega
    obtain ⟨mustCancel, heq, hmust⟩ := uncancelCalls_eq _ s.task hle
    rw [heq]
    have hordered : Ordered { s.task with
        cancelling := s.task.cancelling - (s.scopes i).hostTaskCancelCalls
        mustCancel := mustCancel } := h.ordered
    obtain ⟨hdropped, hready⟩ := hordered.dropDelayed (s.scopes i).cancelReason
    have hfields := dropDelayed_fields (t := { s.task with
      cancelling := s.task.cancelling - (s.scopes i).hostTaskCancelCalls
      mustCancel := mustCancel }) (s.scopes i).cancelReason
    generalize AsyncioTask.dropDelayed _ (s.scopes i).cancelReason = task at *
    obtain ⟨hcancelling, hwaiter, hmustCancel⟩ := hfields
    have hsub : task.cancelling + (s.scopes i).hostTaskCancelCalls = s.task.cancelling := by
      rw [hcancelling]
      exact Nat.sub_add_cancel (Nat.le_of_add_left_le hle)
    have hmust' : task.mustCancel = true → s.task.mustCancel = true := fun hm =>
      hmust (hmustCancel.symm.trans hm)
    refine ⟨(h.remove hstack hrunning hshield ?_ hsub (hwaiter.trans hrunning) hmust' hdropped
      fun msg hmem => ⟨(hready msg hmem).1, fun _ => (hready msg hmem).2⟩).checkPending parents, ?_⟩
    · exact
        { hscope with
          state := iff_of_false nofun id
          calls := fun _ => rfl
          called := nofun
          handle := nofun
          caught := fun hne => absurd rfl hne }
    · rw [task_checkPending]
      · exact hsub
      · exact hwaiter.trans hrunning
  · next hnot =>
    have hzero : (s.scopes i).hostTaskCancelCalls = 0 := by
      by_contra hne
      exact hnot (hscope.called (Nat.pos_of_ne_zero hne))
    have hremoved : Inv ({ s with stack := parents }.setScope i
        { s.scopes i with state := .exited, cancelHandle := false }) :=
      h.remove hstack hrunning hshield
        { hscope with
          state := iff_of_false nofun id
          calls := fun _ => hzero
          handle := nofun
          caught := fun hne => absurd rfl hne }
        (by rw [hzero, Nat.add_zero]) hrunning id h.ordered
        fun msg hmem => ⟨hmem, fun hpos => absurd hzero (Nat.ne_of_gt hpos)⟩
    refine ⟨hremoved.checkPending parents, ?_⟩
    rw [task_checkPending]
    · rw [hzero]
      rfl
    · exact hrunning

/-! ## Every step keeps the invariant -/

/-- The task, and the code of a shielded await, go on without a request. -/
theorem Inv.setTask (h : Inv s) {task : AsyncioTask} {shield : Option Shield}
    {raised : Option CancelMessage} (hcancelling : task.cancelling = s.task.cancelling)
    (hordered : Ordered task)
    (hdelayed : ∀ msg, .cancelTaskUnlessDone msg ∈ task.ready → s.Requested msg)
    (hthrown : ∀ msg, task.thrown = some msg → s.Requested msg)
    (hrunning : task.waiter = .running → task.mustCancel = true → 0 < s.external)
    (hshield : ∀ msg, shield = some (some msg) → s.Requested msg)
    (hfresh : task.waiter = .running → shield ≠ none → task.ready = [] ∧ task.delayed = none)
    (hdone : task.waiter = .done → s.stack = []) :
    Inv { s with task := task, shield := shield, raised := raised } where
  nodup := h.nodup
  scope := h.scope
  count := hcancelling.trans h.count
  entered := State.Entered.mono (s := s) (Nat.le_refl _) (fun _ _ => ⟨rfl, Nat.le_refl _⟩) h.entered
  ordered := hordered
  delayed := hdelayed
  thrown := hthrown
  running := hrunning
  shield := hshield
  fresh := hfresh
  done := hdone

theorem Inv.cancelTask (h : Inv s) (hdone : s.task.waiter ≠ .done) :
    Inv { s with task := s.task.cancel msg, external := s.external + 1 } := by
  exact
    { nodup := h.nodup
      scope := h.scope
      count := by
        rw [cancelling_cancel hdone, h.count]
        exact Nat.add_right_comm _ _ _
      entered := State.Entered.mono (s := s) (Nat.le_succ _) (fun _ _ => ⟨rfl, Nat.le_refl _⟩)
        h.entered
      ordered := h.ordered.cancel msg
      delayed := fun _ _ => .inl (Nat.succ_pos _)
      thrown := fun _ _ => .inl (Nat.succ_pos _)
      running := fun _ _ => Nat.succ_pos _
      shield := fun _ _ => .inl (Nat.succ_pos _)
      fresh := fun hrunning hshield => by
        have hwaiter := waiter_cancel.1.1 hrunning
        have hfresh := h.fresh hwaiter hshield
        unfold AsyncioTask.cancel
        rw [hwaiter]
        exact hfresh
      done := fun hnow => h.done (waiter_cancel.2.1 hnow) }

/-- A handle of a delayed cancellation is called. -/
theorem Inv.runDelayed (h : Inv s) {task : AsyncioTask} (ht : s.task.runDelayed = some task) :
    Inv { s with task := task } := by
  obtain ⟨hrunning, ready, ⟨msg, hready, hordered, rfl⟩ | ⟨hready, hordered, rfl⟩⟩ :=
    h.ordered.runDelayed ht
  · have hrest : ∀ msg', .cancelTaskUnlessDone msg' ∈ ready → s.Requested msg' :=
      fun msg' hmem => h.delayed msg' (hready ▸ List.mem_cons_of_mem _ hmem)
    have hmsg : s.Requested msg := h.delayed msg (hready ▸ List.mem_cons_self)
    by_cases hdone : s.task.waiter = .done
    · have hunchanged : { s.task with ready := ready }.cancelTaskUnlessDone msg =
          { s.task with ready := ready } := by
        unfold AsyncioTask.cancelTaskUnlessDone
        rw [hdone]
      rw [hunchanged]
      exact h.setTask rfl hordered hrest h.thrown h.running h.shield
        (fun hnow => absurd hnow hrunning) h.done
    · have hcancel : { s.task with ready := ready }.cancelTaskUnlessDone msg =
          ({ s.task with ready := ready }.uncancel).cancel msg := by
        unfold AsyncioTask.cancelTaskUnlessDone
        split
        · next hnow => exact absurd hnow hdone
        · rfl
      rw [hcancel]
      have hpos : 0 < s.task.cancelling := h.count ▸ hmsg.pos
      refine h.setTask ?_ ((Ordered.uncancel hordered).cancel msg)
        (fun msg' hmem => hrest msg' (mem_ready_cancel hmem)) ?_
        (fun hnow => absurd (waiter_cancel.1.1 hnow) hrunning) h.shield
        (fun hnow => absurd (waiter_cancel.1.1 hnow) hrunning)
        (fun hnow => absurd (waiter_cancel.2.1 hnow) hdone)
      · rw [cancelling_cancel]
        · exact Nat.sub_add_cancel hpos
        · exact hdone
      · intro msg' hthrown
        rcases thrown_cancel hthrown with rfl | hold
        · exact hmsg
        · exact h.thrown msg' (thrown_uncancel hold)
  · exact h.setTask rfl hordered
      (fun msg hmem => h.delayed msg (hready ▸ List.mem_cons_of_mem _ hmem)) h.thrown h.running
      h.shield (fun hnow => absurd hnow hrunning) h.done

theorem Inv.suspend (h : Inv s) (hrunning : s.task.waiter = .running) {task : AsyncioTask}
    (htask : task = s.task.await ∨ task = s.task.coroYield) {shield : Option Shield}
    (hshield : ∀ msg, shield = some (some msg) → s.Requested msg) :
    Inv { s with task := task, shield := shield } := by
  have hmust := h.running hrunning
  have hnot : ∀ msg, s.task.waiter ≠ .future (.cancelled msg) := by
    rw [hrunning]
    exact nofun
  rcases htask with rfl | rfl
  · have hordered := h.ordered.await hrunning
    unfold AsyncioTask.await at hordered ⊢
    by_cases hm : s.task.mustCancel = true
    · rw [if_pos hm] at hordered ⊢
      exact h.setTask rfl hordered (fun msg hmem => h.delayed msg (by simpa using hmem))
        (fun _ _ => .inl (hmust hm)) nofun hshield nofun nofun
    · rw [if_neg hm] at hordered ⊢
      refine h.setTask rfl hordered h.delayed (fun msg hthrown => ?_) nofun hshield nofun nofun
      rcases thrown_eq_some.1 hthrown with hwaiter | ⟨-, hm', -⟩
      · cases hwaiter
      · exact absurd hm' hm
  · refine h.setTask rfl (h.ordered.coroYield hrunning)
      (fun msg hmem => h.delayed msg (by simpa [AsyncioTask.coroYield] using hmem))
      (fun msg hthrown => ?_) nofun hshield nofun nofun
    rcases thrown_eq_some.1 hthrown with hwaiter | ⟨-, hm, -⟩
    · cases hwaiter
    · exact .inl (hmust hm)

theorem Inv.resume (h : Inv s) {task : AsyncioTask} (ht : s.task.resume = some task)
    {shield : Option Shield} {raised : Option CancelMessage}
    (hshield : ∀ msg, shield = some (some msg) → s.Requested msg) :
    Inv { s with task := task, shield := shield, raised := raised } := by
  obtain ⟨hrunning, hwoken, hdelayed, rfl⟩ := h.ordered.resume ht
  have hordered : Ordered { s.task with waiter := .running, mustCancel := false, ready := [] } :=
    ⟨[], hdelayed ▸ .none, rfl⟩
  exact h.setTask rfl hordered nofun nofun nofun hshield (fun _ _ => ⟨rfl, hdelayed⟩) nofun

/-- The code of a shielded await goes on. -/
theorem Inv.shieldDone (h : Inv s) {cancelled : Bool}
    (hs : step s (.shieldDone cancelled) = some s') : Inv s' := by
  have hleft : Inv { s with shield := none } :=
    h.setTask rfl h.ordered h.delayed h.thrown h.running nofun (fun _ hne => absurd rfl hne) h.done
  simp only [step] at hs
  cases hshield : s.shield with
  | none =>
    rw [hshield] at hs
    cases hs
  | some last =>
  by_cases hrunning : s.task.waiter = .running
  case neg =>
    simp only [hshield, if_neg hrunning] at hs
    cases hs
  simp only [hshield, if_pos hrunning] at hs
  split at hs
  · cases hs
    exact hleft
  · next msg hlast =>
    have hmsg : s.Requested msg := by
      cases cancelled with
      | true => cases hlast
      | false => exact h.shield msg (hshield.trans (congrArg some hlast))
    obtain ⟨hready, hdelayed⟩ := h.fresh hrunning (by rw [hshield]; exact nofun)
    obtain ⟨heq, hordered⟩ := Ordered.rescheduleDelayedTaskCancel msg hrunning hready hdelayed
    rw [heq] at hs
    cases hs
    refine h.setTask rfl hordered (fun msg' hmem => ?_) h.thrown h.running nofun
      (fun _ hne => absurd rfl hne) h.done
    have hsame : msg' = msg := by simpa using hmem
    rw [hsame]
    exact hmsg

theorem Inv.step {a : Action} (h : Inv s) (hs : CancelScope.step s a = some s') : Inv s' := by
  cases a with
  | cancelTask msg =>
    simp only [CancelScope.step] at hs
    split at hs
    · cases hs
      exact h
    · next hdone =>
      cases hs
      exact h.cancelTask hdone
  | cancelScope i reason =>
    cases hs
    exact h.cancel i reason
  | retry i =>
    simp only [CancelScope.step] at hs
    split at hs
    · next hretry =>
      cases hs
      exact h.deliverCancellation ((h.scope i).handle hretry.2)
    · cases hs
  | settle =>
    simp only [CancelScope.step] at hs
    split at hs
    · next hpending =>
      cases hs
      have hordered := h.ordered.settle
      rw [AsyncioTask.settle_of_pending hpending] at hordered ⊢
      refine h.setTask rfl hordered (fun msg hmem => h.delayed msg (by simpa using hmem))
        (fun msg hthrown => h.thrown msg ?_) nofun h.shield nofun nofun
      rcases thrown_eq_some.1 hthrown with hwaiter | ⟨-, hm, hmsg⟩
      · cases hwaiter
      · exact thrown_eq_some.2 (.inr ⟨by rw [hpending]; exact nofun, hm, hmsg⟩)
    · cases hs
  | runDelayed =>
    obtain ⟨task, ht, rfl⟩ := Option.map_eq_some_iff.1 hs
    exact h.runDelayed ht
  | resume =>
    obtain ⟨task, ht, rfl⟩ := Option.map_eq_some_iff.1 hs
    split
    · next last hshield =>
      refine h.resume ht fun msg hmsg => ?_
      cases hthrown : s.task.thrown with
      | none =>
        rw [hthrown] at hmsg
        exact h.shield msg (hshield.trans hmsg)
      | some msg' =>
        rw [hthrown] at hmsg
        cases hmsg
        exact h.thrown msg hthrown
    · next hshield =>
      refine h.resume ht fun msg hmsg => ?_
      rw [hshield] at hmsg
      cases hmsg
  | enter i =>
    simp only [CancelScope.step] at hs
    split at hs
    · next henter =>
      cases hs
      exact h.enter henter.2.2 henter.1
    · cases hs
  | exit exc =>
    simp only [CancelScope.step] at hs
    split at hs
    · next i parents hstack =>
      split at hs
      · next hexit =>
        cases hs
        exact (h.exit hstack hexit.1 hexit.2 exc).1
      · cases hs
    · cases hs
  | await shielded =>
    simp only [CancelScope.step] at hs
    split at hs
    · next hawait =>
      cases hs
      exact h.suspend hawait.1 (.inl rfl) fun _ hlast => by cases shielded <;> cases hlast
    · cases hs
  | coroYield shielded =>
    simp only [CancelScope.step] at hs
    split at hs
    · next hyield =>
      cases hs
      exact h.suspend hyield.1 (.inr rfl) fun _ hlast => by cases shielded <;> cases hlast
    · cases hs
  | shieldAgain =>
    simp only [CancelScope.step] at hs
    split at hs
    · next hagain =>
      cases hs
      exact h.suspend hagain.1 (.inl rfl) h.shield
    · cases hs
  | shieldDone cancelled =>
    exact h.shieldDone hs
  | checkPendingCancellation =>
    simp only [CancelScope.step] at hs
    split at hs
    · cases hs
      exact h.checkPending s.stack
    · cases hs
  | finish =>
    simp only [CancelScope.step] at hs
    split at hs
    · next hfinish =>
      cases hs
      refine h.setTask rfl ?_ h.delayed (fun msg hthrown => ?_) nofun h.shield nofun
        fun _ => hfinish.2.2
      · obtain ⟨front, hfront, hready⟩ := h.ordered
        rw [hfinish.1] at hready
        exact ⟨front, hfront, hready⟩
      · rcases thrown_eq_some.1 hthrown with hwaiter | ⟨-, hm, -⟩
        · cases hwaiter
        · exact .inl (h.running hfinish.1 hm)
    · cases hs

theorem cancel_frame (i : ℕ) (reason : Option String) : (s.cancel i reason).shield = s.shield ∧
    (s.cancel i reason).stack = s.stack ∧ (s.cancel i reason).external = s.external := by
  unfold State.cancel
  simp only
  split
  · exact ⟨rfl, rfl, rfl⟩
  · obtain ⟨hshield, hstack, hexternal, -⟩ := deliverCancellation_frame (i := i)
      (s := s.setScope i { s.scopes i with
        cancelCalled := true
        cancelReason := some (.scope i reason) })
    exact ⟨hshield, hstack, hexternal⟩

theorem enter_frame (i : ℕ) : (s.enter i).shield = s.shield ∧ (s.enter i).stack = i :: s.stack ∧
    (s.enter i).external = s.external := by
  unfold State.enter
  simp only
  split
  · obtain ⟨hshield, hstack, hexternal, -⟩ := deliverCancellation_frame (i := i)
      (s := { s with stack := i :: s.stack }.setScope i
        { s.scopes i with state := .entered, hostTaskCancelling := s.task.cancelling })
    exact ⟨hshield, hstack, hexternal⟩
  · exact ⟨rfl, rfl, rfl⟩

/-- While the task runs, it is not cancelled by a scope that it enters, or that is cancelled. -/
theorem task_of_running (hrunning : s.task.waiter = .running) (i : ℕ) (reason : Option String) :
    (s.enter i).task = s.task ∧ (s.cancel i reason).task = s.task := by
  constructor
  · unfold State.enter
    simp only
    split
    · rw [task_deliverCancellation]
      · rfl
      · exact hrunning
    · rfl
  · unfold State.cancel
    simp only
    split
    · rfl
    · rw [task_deliverCancellation]
      · rfl
      · exact hrunning

theorem external_exit (i : ℕ) (parents : List ℕ) (exc : Option (List Leaf)) :
    (s.exit i parents exc).2.external = s.external := by
  unfold State.exit
  simp only
  split <;> exact (checkPending_frame parents).2.2

/-- What a step leaves as it is: the requests of other code are counted, and only `__enter__` and
    `__exit__` change the stack. -/
theorem step_frame {a : Action} (hs : step s a = some s') : s.external ≤ s'.external ∧
    ((∀ i, a ≠ .enter i) → (∀ exc, a ≠ .exit exc) → s'.stack = s.stack) := by
  have hsame : s'.external = s.external ∧ s'.stack = s.stack → s.external ≤ s'.external ∧
      ((∀ i, a ≠ .enter i) → (∀ exc, a ≠ .exit exc) → s'.stack = s.stack) :=
    fun h => ⟨h.1.ge, fun _ _ => h.2⟩
  cases a with
  | cancelTask msg =>
    simp only [step] at hs
    split at hs
    · cases hs
      exact hsame ⟨rfl, rfl⟩
    · cases hs
      exact ⟨Nat.le_succ _, fun _ _ => rfl⟩
  | cancelScope i reason =>
    cases hs
    obtain ⟨-, hstack, hexternal⟩ := cancel_frame (s := s) i reason
    exact hsame ⟨hexternal, hstack⟩
  | retry i =>
    simp only [step] at hs
    split at hs
    · cases hs
      exact hsame ⟨deliverCancellation_frame.2.2.1, deliverCancellation_frame.2.1⟩
    · cases hs
  | runDelayed | resume =>
    obtain ⟨task, -, rfl⟩ := Option.map_eq_some_iff.1 hs
    first
      | exact hsame ⟨rfl, rfl⟩
      | exact hsame (by split <;> exact ⟨rfl, rfl⟩)
  | enter i =>
    simp only [step] at hs
    split at hs
    · cases hs
      exact ⟨(enter_frame i).2.2.ge, fun henter _ => absurd rfl (henter i)⟩
    · cases hs
  | exit exc =>
    simp only [step] at hs
    split at hs
    · split at hs
      · cases hs
        exact ⟨(external_exit _ _ exc).ge, fun _ hexit => absurd rfl (hexit exc)⟩
      · cases hs
    · cases hs
  | settle | await shielded | coroYield shielded | shieldAgain | finish =>
    simp only [step] at hs
    split at hs
    · cases hs
      exact hsame ⟨rfl, rfl⟩
    · cases hs
  | shieldDone cancelled =>
    simp only [step] at hs
    split at hs
    · cases hs
    · split at hs
      · split at hs
        · cases hs
          exact hsame ⟨rfl, rfl⟩
        · split at hs <;> cases hs <;> exact hsame ⟨rfl, rfl⟩
      · cases hs
  | checkPendingCancellation =>
    simp only [step] at hs
    split at hs
    · cases hs
      exact hsame ⟨(checkPending_frame _).2.2, (checkPending_frame _).2.1⟩
    · cases hs

theorem inv_of_run {clears : Bool} {actions : List Action}
    (h : Trans.run CancelScope.step (State.init clears) actions = some s) : Inv s :=
  Trans.run_inv (fun _ _ _ h hs => h.step hs) (Inv.init clears) h

/-- **The requests that the task counts are those of other code, and those of the scopes that are
    entered**; exiting a scope removes exactly its own. -/
theorem cancelling_eq {clears : Bool} {actions : List Action}
    (h : Trans.run CancelScope.step (State.init clears) actions = some s) :
    s.task.cancelling = s.external + s.cancelCalls s.stack ∧
      (s.stack = [] → s.task.cancelling = s.external) ∧
      ∀ i parents exc s', s.stack = i :: parents →
        CancelScope.step s (.exit exc) = some s' →
        s'.task.cancelling + (s.scopes i).hostTaskCancelCalls = s.task.cancelling := by
  have hinv := inv_of_run h
  refine ⟨hinv.count, fun hstack => ?_, fun i parents exc s' hstack hs => ?_⟩
  · have hcount := hinv.count
    rwa [hstack] at hcount
  · simp only [CancelScope.step, hstack] at hs
    split at hs
    · next hexit =>
      cases hs
      exact (hinv.exit hstack hexit.1 hexit.2 exc).2
    · cases hs

end

/-- Two scopes and other code cancel the task; the inner scope is retried, and a shielded await puts
    one of the cancellations off. -/
theorem cancelling_eq_nested : ∃ s,
    Trans.run step (State.init true) [.enter 0, .cancelScope 1 none, .enter 1, .await true,
      .retry 1, .cancelTask none, .cancelScope 0 none, .resume, .shieldAgain, .retry 1, .resume,
      .shieldDone false, .exit none] = some s ∧ s.stack = [0] ∧ s.external = 1 ∧
      s.task.cancelling = 1 + s.cancelCalls [0] := by
  obtain ⟨s, hs⟩ : ∃ s, Trans.run step (State.init true) [.enter 0, .cancelScope 1 none, .enter 1,
      .await true, .retry 1, .cancelTask none, .cancelScope 0 none, .resume, .shieldAgain, .retry 1,
      .resume, .shieldDone false, .exit none] = some s := ⟨_, rfl⟩
  have hcount := (cancelling_eq hs).1
  refine ⟨s, hs, ?_⟩
  have hstack : s.stack = [0] := by
    cases hs
    rfl
  have hexternal : s.external = 1 := by
    cases hs
    rfl
  rw [hexternal, hstack] at hcount
  exact ⟨hstack, hexternal, hcount⟩

end CancelScope

end EasyNetwork
