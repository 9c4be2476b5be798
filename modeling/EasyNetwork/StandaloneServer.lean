/-
  A server that is used from threads (`BaseStandaloneNetworkServerImpl` in `servers/_base.py`).

  `serve_forever()` runs an asynchronous server in the event loop of its thread; the other methods
  are called in other threads, and reach the server through a portal.  The lock of `server_close()`
  and the one of the bootstrap are held by `serve_forever()` until the portal is open, by
  `server_close()`, and (the second one) by whatever uses the portal.

  `step` interleaves any number of calls, each in a thread of its own; a step goes on up to the next
  point where the thread waits.  What the asynchronous server does is not modelled: it is set up,
  ends at any time, and finishes the coroutines of the portal.
-/
import EasyNetwork.Lib.Trans
import Mathlib.Logic.Function.Basic
import Mathlib.Order.Nat

namespace EasyNetwork

namespace StandaloneServer

inductive Method where
  | serveForever
  /-- with or without a timeout -/
  | shutdown (timeout : Bool)
  | serverClose
  /-- `is_serving()` and what else is read through the portal -/
  | isServing
  deriving DecidableEq, Repr

inductive Outcome where
  | returned
  /-- `ServerClosedError("Closed server")` -/
  | serverClosed
  /-- `ServerAlreadyRunning("Server is already running")` -/
  | alreadyRunning
  /-- an exception of the code that is called -/
  | raised
  deriving DecidableEq, Repr

/-- Where the thread of a call is. -/
inductive Phase where
  | notCalled
  /-- waits for the lock of `server_close()` -/
  | waitClose (method : Method)
  /-- waits for the lock of the bootstrap -/
  | waitBootstrap (method : Method)
  /-- `serve_forever()`: the event loop activates the server and opens the portal -/
  | starting
  /-- the bootstrap has failed before the portal was open -/
  | failing
  /-- in the `serve_forever()` of the asynchronous server -/
  | serving
  /-- the portal is closed, and waits for its coroutines -/
  | draining
  /-- the event loop is over: waits for the lock of the bootstrap again -/
  | reacquire
  /-- waits for a coroutine, or a function, that runs in the event loop -/
  | inPortal (method : Method)
  /-- in `__is_shutdown.wait(timeout)` -/
  | waitShutdown (timeout : Bool)
  | ended (method : Method) (outcome : Outcome)
  deriving DecidableEq, Repr

/-- How the portal ends a coroutine. -/
inductive Result where
  | ok
  /-- by `RuntimeError` or `CancelledError`, which are suppressed -/
  | suppressed
  | raises
  deriving DecidableEq, Repr

structure State where
  /-- the calls that hold the locks -/
  closeLock : Option ℕ := none
  bootstrapLock : Option ℕ := none
  isShutdown : Bool := true
  isClosed : Bool := false
  /-- `__server` and `__threads_portal`, as the call of `serve_forever()` that has set them -/
  server : Option ℕ := none
  threadsPortal : Option ℕ := none
  /-- `__loop is not None` in the portal -/
  portalLoop : Bool := false
  /-- the asynchronous server is set up, under its `__server_close_guard` -/
  settingUp : Bool := false
  /-- a `server_close()` has closed the listeners of the server -/
  closed : Bool := false
  /-- a `server_close()` has come in the setup, and its `BusyResourceError` has been suppressed -/
  refused : Bool := false
  /-- the server that a call has found -/
  found : ℕ → Option ℕ := fun _ => none
  calls : ℕ := 0
  phase : ℕ → Phase := fun _ => .notCalled

namespace State

variable (s : State)

def setPhase (call : ℕ) (phase : Phase) : State :=
  { s with phase := Function.update s.phase call phase }

/-- What follows the use of the portal; an exception is not raised before the locks are released. -/
def leave (call : ℕ) (outcome : Outcome) : Method → State
  | .serveForever => s.setPhase call (.ended .serveForever outcome)
  | .shutdown timeout =>
    if outcome = .returned then s.setPhase call (.waitShutdown timeout)
    else s.setPhase call (.ended (.shutdown timeout) outcome)
  | .serverClose =>
    { s with isClosed := true, closeLock := none }.setPhase call (.ended .serverClose outcome)
  | .isServing => s.setPhase call (.ended .isServing outcome)

/-- `_run_sync_or`, and the same in `shutdown`: with the lock of the bootstrap. -/
def usePortal (call : ℕ) (method : Method) : State :=
  if s.threadsPortal.isSome ∧ s.server.isSome then
    let s := { s with found := Function.update s.found call s.threadsPortal }
    -- a portal that is closed raises `RuntimeError`, which is suppressed
    if s.portalLoop then { s with bootstrapLock := some call }.setPhase call (.inPortal method)
    else s.leave call .returned method
  else s.leave call .returned method

/-- `serve_forever`, with the lock of `server_close()`. -/
def acquiredClose (call : ℕ) (method : Method) : State :=
  if method = .serveForever ∧ s.isClosed then
    s.setPhase call (.ended .serveForever .serverClosed)
  else { s with closeLock := some call }.setPhase call (.waitBootstrap method)

/-- The lock of the bootstrap has been acquired. -/
def acquiredBootstrap (call : ℕ) : Method → State
  | .serveForever =>
    if s.isShutdown then
      { s with bootstrapLock := some call, isShutdown := false }.setPhase call .starting
    else { s with closeLock := none }.setPhase call (.ended .serveForever .alreadyRunning)
  | method => s.usePortal call method

/-- `locks_stack.close()`: the portal is open. -/
def up (call : ℕ) : State :=
  { s with
    server := some call
    threadsPortal := some call
    portalLoop := true
    settingUp := true
    closed := false
    refused := false
    closeLock := none
    bootstrapLock := none }.setPhase call .serving

/-- The end of `serve_forever`: `reset_values()`, `__is_shutdown.set()`, and the locks. -/
def finish (call : ℕ) (outcome : Outcome) : State :=
  { s with
    server := none
    threadsPortal := none
    isShutdown := true
    bootstrapLock := none
    closeLock := if s.closeLock = some call then none else s.closeLock
    }.setPhase call (.ended .serveForever outcome)

/-- A coroutine of the portal ends. -/
def portalDone (call : ℕ) (method : Method) (result : Result) : State :=
  let s := { s with bootstrapLock := none }
  match result with
  | .ok =>
    if method = .serverClose then { s with closed := true }.leave call .returned method
    else s.leave call .returned method
  | .suppressed =>
    if method = .serverClose ∧ s.portalLoop then { s with refused := true }.leave call .returned method
    else s.leave call .returned method
  | .raises => s.leave call .raised method

end State

inductive Action where
  | call (method : Method)
  | acquireClose (call : ℕ)
  | acquireBootstrap (call : ℕ)
  /-- the portal is open -/
  | up (call : ℕ)
  /-- the bootstrap fails, before or after the server has been activated -/
  | fails (call : ℕ) (activated : Bool)
  /-- the asynchronous server has been set up -/
  | isUp (call : ℕ)
  /-- the `serve_forever()` of the asynchronous server ends -/
  | asyncEnds (call : ℕ)
  /-- the event loop is over -/
  | drained (call : ℕ)
  | portalDone (call : ℕ) (result : Result)
  | finish (call : ℕ) (raises : Bool)
  | wakes (call : ℕ)
  | timesOut (call : ℕ)
  deriving DecidableEq, Repr

/-- When a coroutine of the portal may end. -/
def State.mayEnd (s : State) : Method → Result → Bool
  -- the `shutdown()` of the asynchronous server waits for the end of its `serve_forever()`
  | .shutdown false, .ok => !s.portalLoop
  -- `BusyResourceError` is a `RuntimeError`
  | .serverClose, .suppressed => !s.portalLoop || s.settingUp
  | _, .ok => true
  -- the tasks of the portal are cancelled when it is closed by an exception
  | _, .suppressed => !s.portalLoop
  | _, .raises => true

/-- One step of an interleaving. -/
def step (s : State) : Action → Option State
  | .call method =>
    some ({ s with calls := s.calls + 1 }.setPhase s.calls (match method with
      | .serveForever | .serverClose => .waitClose method
      | _ => .waitBootstrap method))
  | .acquireClose call =>
    match s.phase call with
    | .waitClose method => if s.closeLock = none then some (s.acquiredClose call method) else none
    | _ => none
  | .acquireBootstrap call =>
    match s.phase call with
    | .waitBootstrap method =>
      if s.bootstrapLock = none then some (s.acquiredBootstrap call method) else none
    | _ => none
  | .up call => if s.phase call = .starting then some (s.up call) else none
  | .fails call activated =>
    if s.phase call = .starting then
      some ({ s with server := if activated then some call else none }.setPhase call .failing)
    else none
  | .isUp call =>
    if s.phase call = .serving ∧ s.settingUp then some { s with settingUp := false } else none
  | .asyncEnds call =>
    if s.phase call = .serving then
      some ({ s with portalLoop := false, settingUp := false }.setPhase call .draining)
    else none
  | .drained call =>
    if s.phase call = .draining ∧
        (List.range s.calls).all fun n => match s.phase n with | .inPortal _ => false | _ => true then
      some (s.setPhase call .reacquire)
    else none
  | .portalDone call result =>
    match s.phase call with
    | .inPortal method =>
      if s.mayEnd method result then some (s.portalDone call method result) else none
    | _ => none
  | .finish call raises =>
    -- the lock is reentrant
    if (s.phase call = .failing ∨ s.phase call = .reacquire) ∧
        (s.bootstrapLock = none ∨ s.bootstrapLock = some call) then
      some (s.finish call (if raises then .raised else .returned))
    else none
  | .wakes call =>
    match s.phase call with
    | .waitShutdown timeout =>
      if s.isShutdown then some (s.setPhase call (.ended (.shutdown timeout) .returned)) else none
    | _ => none
  | .timesOut call =>
    match s.phase call with
    | .waitShutdown true => some (s.setPhase call (.ended (.shutdown true) .returned))
    | _ => none

end StandaloneServer

end EasyNetwork
