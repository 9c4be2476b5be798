/-
  `TaskUtils.cancel_shielded_await` and `cancel_shielded_coro_yield`
  (`lowlevel/api_async/backend/_asyncio/tasks.py`).

  A shielded await drives its coroutine itself.  It gives to the task `asyncio.shield()` of the
  futures that the coroutine yields; it keeps the last `CancelledError` that it receives in their
  place, and has it delivered again in the next iteration of the event loop.
-/
import EasyNetwork.CancelScope

namespace EasyNetwork

open AsyncioTask

namespace ShieldedAwait

/-! ## Coroutines -/

/-- How a future or a coroutine ends, and what is sent or thrown into a coroutine. -/
inductive Outcome (V E : Type) where
  /-- `none` for `None` -/
  | result (value : Option V)
  | exception (exc : E)
  | cancelledError (msg : CancelMessage)
  /-- `_reschedule_delayed_task_cancel() called too many times.` -/
  | assertionError
  deriving DecidableEq

/-- What a coroutine does, up to its end. -/
inductive Coroutine (V E : Type) where
  | ended (o : Outcome V E)
  | await (f : ℕ) (next : Outcome V E → Coroutine V E)
  | coroYield (next : Outcome V E → Coroutine V E)
  | cancelShieldedCoroYield (next : Outcome V E → Coroutine V E)
  | cancelShieldedAwait (coroutine : Coroutine V E) (next : Outcome V E → Coroutine V E)
  /-- it cancels its own task -/
  | cancelTask (msg : Option String) (next : Coroutine V E)

/-- `to_yield`. -/
inductive ToYield (V E : Type) where
  | none
  | future (f : ℕ)
  /-- the `asyncio.shield()` of a nested shielded await, and its outcome if it is done -/
  | shield (state : Option (Outcome V E))

/-- The variables of `cancel_shielded_await`. -/
structure Frame (V E : Type) where
  toYield : ToYield V E
  lastCancellation : Option CancelMessage

/-- A coroutine that is suspended. -/
inductive Suspended (V E : Type) where
  | await (f : ℕ) (next : Outcome V E → Coroutine V E)
  | coroYield (next : Outcome V E → Coroutine V E)
  | cancelShieldedCoroYield (next : Outcome V E → Coroutine V E)
  | cancelShieldedAwait (coroutine : Coroutine V E) (frame : Frame V E) (inner : Suspended V E)
      (next : Outcome V E → Coroutine V E)

/-- What a coroutine does with what it is sent. -/
inductive Progress (V E : Type) where
  | ended (o : Outcome V E)
  | suspended (c : Suspended V E)

variable {V E : Type}

/-- What the code of the coroutines reads and changes. -/
structure Env (V E : Type) where
  scopes : CancelScope.State
  /-- what the futures and the bare `yield`s have given to shielded coroutines -/
  observed : List (Outcome V E)
  /-- the shielded coroutines that have ended -/
  ended : List (Coroutine V E × Outcome V E)
  /-- the `AssertionError` has been raised -/
  failed : Bool

namespace Env
variable (env : Env V E)

def setTask (task : AsyncioTask) : Env V E :=
  { env with scopes := { env.scopes with task := task } }

def observe (o : Outcome V E) : Env V E := { env with observed := env.observed ++ [o] }

def record (coroutine : Coroutine V E) (o : Outcome V E) : Env V E :=
  { env with ended := env.ended ++ [(coroutine, o)] }

/-- `Task.cancel(msg)`, called by the task itself. -/
def cancelTask (msg : Option String) : Env V E :=
  { env with scopes := { env.scopes with
      task := env.scopes.task.cancel (.text msg)
      external := env.scopes.external + 1 } }

/-- `_check_pending_cancellation`. -/
def checkPending : Env V E :=
  { env with scopes := env.scopes.checkPending env.scopes.stack }

/-- `_reschedule_delayed_task_cancel` of the cancellation, if there is one. -/
def reschedule : Option CancelMessage → Option (Env V E)
  | none => some env
  | some msg => (env.scopes.task.rescheduleDelayedTaskCancel msg).map env.setTask

/-- The task is suspended on what has been yielded. -/
def suspend : ToYield V E → Env V E
  | .none => env.setTask env.scopes.task.coroYield
  | _ => env.setTask env.scopes.task.await

end Env

/-- What a suspended coroutine has yielded. -/
def Suspended.yielded : Suspended V E → ToYield V E
  | .await f _ => .future f
  | .coroYield _ => .none
  | .cancelShieldedCoroYield _ => .none
  | .cancelShieldedAwait _ frame _ _ =>
    match frame.toYield with
    | .none => .none
    | _ => .shield none

/-- The outcome of `asyncio.shield()` of a future. -/
def shieldOutcome : Outcome V E → Outcome V E
  | .cancelledError _ => .cancelledError (.text none)
  | o => o

section
variable (w : ℕ → Outcome V E) (done : ℕ → Bool)

/-- The outcome of what the coroutine of the shielded await has yielded, if it is done. -/
def Frame.outcome (frame : Frame V E) : Option (Outcome V E) :=
  match frame.toYield with
  | .none => some (.result none)
  | .future f => if done f then some (w f) else none
  | .shield state => state

/-- The outcome of what a coroutine has yielded, if it is done. -/
def Suspended.outcome : Suspended V E → Option (Outcome V E)
  | .await f _ => if done f then some (w f) else none
  | .coroYield _ => some (.result none)
  | .cancelShieldedCoroYield _ => some (.result none)
  | .cancelShieldedAwait _ frame _ _ => (frame.outcome w done).map shieldOutcome

namespace Frame
variable (frame : Frame V E) (input : Outcome V E)

/-- The code of the shielded await keeps a `CancelledError`. -/
def receive : Option CancelMessage :=
  match input with
  | .cancelledError msg => some msg
  | _ => frame.lastCancellation

/-- What the coroutine is sent; `none` if a future is not done, and shielded again. -/
def send : Option (Outcome V E) :=
  match input with
  | .exception exc => some (.exception exc)
  | .assertionError => some .assertionError
  | _ => frame.outcome w done

/-- The cancellation that is delivered again, unless the future itself has been cancelled. -/
def delayed : Option CancelMessage :=
  match frame.outcome w done with
  | some (.cancelledError _) => none
  | _ => frame.receive input

end Frame

/-- `Future.__await__` is resumed, and returns the result of the future. -/
def resumeFuture (f : ℕ) : Outcome V E → Outcome V E
  | .result _ => w f
  | o => o

/-- A coroutine runs until it is suspended; a future that is done does not suspend it. -/
def start : Coroutine V E → Env V E → Progress V E × Env V E
  | .ended o, env => (.ended o, env)
  | .await f next, env =>
    if done f then start (next (w f)) (env.observe (w f)) else (.suspended (.await f next), env)
  | .coroYield next, env => (.suspended (.coroYield next), env)
  | .cancelShieldedCoroYield next, env => (.suspended (.cancelShieldedCoroYield next), env)
  | .cancelShieldedAwait coroutine next, env =>
    match start coroutine env with
    -- the fast path
    | (.ended o, env) => start (next o) (env.record coroutine o)
    | (.suspended inner, env) =>
      (.suspended (.cancelShieldedAwait coroutine ⟨inner.yielded, none⟩ inner next), env)
  | .cancelTask msg next, env => start next (env.cancelTask msg)

/-- A suspended coroutine is sent a result, or an exception is thrown into it. -/
def resume : Suspended V E → Outcome V E → Env V E → Progress V E × Env V E
  | .await f next, input, env =>
    start w done (next (resumeFuture w f input)) (env.observe (resumeFuture w f input))
  | .coroYield next, input, env => start w done (next input) (env.observe input)
  | .cancelShieldedCoroYield next, input, env =>
    match input with
    | .cancelledError msg =>
      match env.reschedule (some msg) with
      | some env => start w done (next (.result none)) env
      | none => start w done (next .assertionError) { env with failed := true }
    | o => start w done (next o) env
  | .cancelShieldedAwait coroutine frame inner next, input, env =>
    match frame.send w done input with
    | none =>
      let frame := { frame with lastCancellation := frame.receive input }
      (.suspended (.cancelShieldedAwait coroutine frame inner next), env)
    | some sent =>
      match env.reschedule (frame.delayed w done input) with
      | none => start w done (next .assertionError) { env with failed := true }
      | some env =>
        match resume inner sent env with
        | (.ended o, env) => start w done (next o) (env.checkPending.record coroutine o)
        | (.suspended inner, env) =>
          (.suspended (.cancelShieldedAwait coroutine ⟨inner.yielded, none⟩ inner next), env)

/-- The event loop calls `_inner_done_callback` of the `asyncio.shield()` that a nested shielded
    await has yielded. -/
def propagate : ℕ → Suspended V E → Suspended V E
  | 0, .cancelShieldedAwait coroutine frame inner next =>
    match frame.toYield with
    | .shield none =>
      .cancelShieldedAwait coroutine { frame with toYield := .shield (inner.outcome w done) }
        inner next
    | _ => .cancelShieldedAwait coroutine frame inner next
  | depth + 1, .cancelShieldedAwait coroutine frame inner next =>
    .cancelShieldedAwait coroutine frame (propagate depth inner) next
  | _, c => c

/-- The end of a coroutine without cancellations. -/
def Coroutine.eval : Coroutine V E → Outcome V E
  | .ended o => o
  | .await f next => (next (w f)).eval
  | .coroYield next => (next (.result none)).eval
  | .cancelShieldedCoroYield next => (next (.result none)).eval
  | .cancelShieldedAwait coroutine next => (next coroutine.eval).eval
  | .cancelTask _ next => next.eval

end

/-! ## The states -/

structure State (V E : Type) where
  env : Env V E
  /-- the futures that are done -/
  done : ℕ → Bool
  /-- the shielded await in which the task is suspended -/
  shielded : Option (Suspended V E)
  /-- a cancellation has been requested during a shielded await while no scope was entered, and the
      task has not been resumed elsewhere since -/
  owed : Bool

/-- The task has been started. -/
def State.init (clears : Bool) : State V E :=
  ⟨⟨.init clears, [], [], false⟩, fun _ => false, none, false⟩

/-- What can happen. -/
inductive Action (V E : Type) where
  /-- other code, or the task itself, calls `Task.cancel(msg)` -/
  | cancelTask (msg : Option String)
  /-- `CancelScope.cancel(reason)`, also by the deadline -/
  | cancelScope (i : ℕ) (reason : Option String)
  /-- the event loop calls `CancelScope.__deliver_cancellation` -/
  | retry (i : ℕ)
  /-- the event loop calls a handle of a delayed cancellation -/
  | runDelayed
  /-- a future that is awaited under a shield is done -/
  | complete (f : ℕ)
  /-- the event loop calls `_inner_done_callback` of the `asyncio.shield()` at this depth -/
  | propagate (depth : ℕ)
  /-- the future on which the task is suspended is done -/
  | settle
  /-- the event loop starts the next step of the task -/
  | resume
  /-- the task calls `cancel_shielded_await` -/
  | cancelShieldedAwait (coroutine : Coroutine V E)
  /-- the task calls `cancel_shielded_coro_yield` -/
  | cancelShieldedCoroYield
  /-- elsewhere, the task enters a scope -/
  | enter (i : ℕ)
  /-- it exits the scope that it has entered last -/
  | exit (exc : Option (List CancelScope.Leaf))
  /-- it awaits a future -/
  | await
  /-- a bare `yield` -/
  | coroYield
  | finish

namespace State
variable (s : State V E)

/-- A step of the task and its scopes. -/
def scopesStep (a : CancelScope.Action) : Option (State V E) :=
  (CancelScope.step s.env.scopes a).map fun scopes =>
    { s with env := { s.env with scopes := scopes } }

/-- The task has run the code of a shielded await. -/
def proceed (r : Progress V E × Env V E) : State V E :=
  let requested := decide (s.env.scopes.external < r.2.scopes.external)
  let owed := s.owed || (requested && r.2.scopes.stack.isEmpty)
  match r.1 with
  | .ended _ => { s with env := r.2, shielded := none, owed := owed }
  | .suspended c => { s with env := r.2.suspend c.yielded, shielded := some c, owed := owed }

end State

variable (w : ℕ → Outcome V E)

/-- What the task sends or throws into the shielded await. -/
def input (s : State V E) (c : Suspended V E) : Outcome V E :=
  match s.env.scopes.task.thrown with
  | some msg => .cancelledError msg
  | none => (c.outcome w s.done).getD (.result none)

/-- One step. -/
def step (s : State V E) : Action V E → Option (State V E)
  | .cancelTask msg => (s.scopesStep (.cancelTask msg)).map fun s =>
    { s with owed := s.owed || (s.shielded.isSome && s.env.scopes.stack.isEmpty) }
  | .cancelScope i reason => s.scopesStep (.cancelScope i reason)
  | .retry i => s.scopesStep (.retry i)
  | .runDelayed => s.scopesStep .runDelayed
  | .complete f => some { s with done := Function.update s.done f true }
  | .propagate depth => some { s with shielded := s.shielded.map (propagate w s.done depth) }
  | .settle =>
    match s.shielded with
    | none => s.scopesStep .settle
    | some c => if (c.outcome w s.done).isSome then s.scopesStep .settle else none
  | .resume =>
    match s.shielded with
    | none => (s.scopesStep .resume).map fun s => { s with owed := false }
    | some c => s.env.scopes.task.resume.map fun task =>
      s.proceed (resume w s.done c (input w s c) (s.env.setTask task))
  | .cancelShieldedAwait coroutine =>
    if s.env.scopes.task.waiter = .running ∧ s.shielded.isNone then
      some (s.proceed (start w s.done (.cancelShieldedAwait coroutine .ended) s.env))
    else none
  | .cancelShieldedCoroYield =>
    if s.env.scopes.task.waiter = .running ∧ s.shielded.isNone then
      some (s.proceed (start w s.done (.cancelShieldedCoroYield .ended) s.env))
    else none
  | .enter i =>
    if s.shielded.isNone then
      (s.scopesStep (.enter i)).map fun s => { s with owed := false }
    else none
  | .exit exc => if s.shielded.isNone then s.scopesStep (.exit exc) else none
  | .await => if s.shielded.isNone then s.scopesStep (.await false) else none
  | .coroYield => if s.shielded.isNone then s.scopesStep (.coroYield false) else none
  | .finish => if s.shielded.isNone then s.scopesStep .finish else none

end ShieldedAwait

end EasyNetwork
