/-
  The life of a server (`BaseAsyncNetworkServerImpl` in `servers/_base.py`).

  `step` interleaves any number of calls of `server_activate()`, `serve_forever()` and
  `server_close()`.  A call is suspended while it waits for a lock, in the scope of the servers
  factory, while the service is initialized, while the server runs, and in `server_close()` while it
  waits for the server tasks and for the `aclose()` of the listeners.  The listeners are numbered in
  the order in which the factory returns them.

  A suspension in the scope that is over when the scope is cancelled (`woken`) ends normally: on Trio
  any suspension, on asyncio only a shielded one.  Every other suspension, and every later one, raises
  the cancellation.
-/
import EasyNetwork.Lib.Trans
import Mathlib.Logic.Function.Basic
import Mathlib.Order.Nat

namespace EasyNetwork

namespace BaseServer

variable {ε : Type}

/-! ## The calls -/

/-- How a call may fail. -/
inductive Error (ε : Type) where
  | serverClosed
  /-- `OSError("empty listeners list")` -/
  | emptyListeners
  | assertion
  /-- `BusyResourceError("Cannot close server during serve_forever() setup.")` -/
  | busyResource
  | serverAlreadyRunning
  /-- an exception of the code that is called -/
  | other (exc : ε)
  deriving DecidableEq, Repr

/-- Where a call is; `serve` says that `server_activate()` is called by `serve_forever()`. -/
inductive Phase (ε : Type) where
  | notCalled
  /-- `server_activate()` waits for its lock -/
  | waitActivation (serve : Bool)
  /-- suspended in the scope of the factory: in `coro_yield()`, or in the factory -/
  | inFactory (serve woken : Bool)
  /-- `serve_forever()` initializes the service and starts the server tasks -/
  | setup
  /-- `serve_forever()`: in `sleep_forever()`, or waits for the tasks -/
  | serving
  /-- `server_close()` waits for its lock -/
  | waitClose
  /-- `server_close()` has got the lock, in `ignore_cancellation()` -/
  | hasClose
  /-- `server_close()` waits for the server tasks -/
  | waitTasks (servers : List ℕ)
  /-- `server_close()`: in the `aclose()` of these servers; the exception that it will raise -/
  | closing (servers : List ℕ) (error : Option (Error ε))
  | ended (error : Option (Error ε))
  deriving DecidableEq, Repr

structure State (ε : Type) where
  servers : List ℕ := []
  /-- `__servers_factory_cb is not None` -/
  hasFactory : Bool := true
  /-- `__servers_factory_scope`: whether it is cancelled -/
  scope : Option Bool := none
  /-- the calls that hold the locks -/
  activationLock : Option ℕ := none
  closeLock : Option ℕ := none
  closeGuard : Bool := false
  /-- `not __is_shutdown.is_set()` -/
  running : Bool := false
  /-- the number of the `__server_tasks` that are not done -/
  serverTasks : ℕ := 0
  phase : ℕ → Phase ε := fun _ => .notCalled
  /-- the number of listeners that the factory has returned -/
  produced : ℕ := 0
  closed : List ℕ := []
  /-- a call of `server_close()` has got past the guard -/
  closeStarted : Bool := false
  /-- such a call has returned, or has raised -/
  closeReturned : Bool := false
  closeFailed : Bool := false
  /-- how the calls of `server_activate()` have ended, and whether this was after `closeStarted` -/
  activations : List (Option (Error ε) × Bool) := []

/-- What the factory does when it runs on: up to a suspension, or to its end. -/
inductive FactoryOutcome (ε : Type) where
  | suspends
  | returns (listeners : ℕ)
  | raises (exc : ε)
  deriving DecidableEq, Repr

inductive Action (ε : Type) where
  | activate (call : ℕ)
  | serve (call : ℕ)
  | close (call : ℕ)
  | acquireActivation (call : ℕ)
  /-- what the factory waits for is there -/
  | wake (call : ℕ)
  | factory (call : ℕ) (outcome : FactoryOutcome ε)
  /-- the cancellation of the scope is thrown into the factory -/
  | throw (call : ℕ)
  /-- the setup of `serve_forever()` ends -/
  | setupDone (call : ℕ) (exc : Option ε)
  | taskDone
  | serveEnds (call : ℕ) (exc : Option ε)
  | acquireClose (call : ℕ)
  /-- `ignore_cancellation()` returns -/
  | closeRuns (call : ℕ)
  | tasksDone (call : ℕ)
  /-- the `aclose()` of a server returns -/
  | serverClosed (call server : ℕ)
  /-- the `aclose()` of a server raises, or `server_close()` is cancelled -/
  | interrupt (call : ℕ) (exc : ε)
  /-- there is no `aclose()` to wait for any more -/
  | closeDone (call : ℕ)
  deriving DecidableEq, Repr

namespace State

def setPhase (s : State ε) (call : ℕ) (phase : Phase ε) : State ε :=
  { s with phase := Function.update s.phase call phase }

@[simp] theorem setPhase_self (s : State ε) (call : ℕ) (phase : Phase ε) :
    (s.setPhase call phase).phase call = phase := Function.update_self _ _ _

theorem setPhase_of_ne (s : State ε) {call c : ℕ} (phase : Phase ε) (h : c ≠ call) :
    (s.setPhase call phase).phase c = s.phase c := Function.update_of_ne h _ _

/-- A call of `serve_forever()` ends. -/
def endServe (s : State ε) (call : ℕ) (error : Option (Error ε)) : State ε :=
  { s with running := false }.setPhase call (.ended error)

/-- `serve_forever()`, once the server is activated; up to the first suspension of the setup. -/
def enterSetup (s : State ε) (call : ℕ) : State ε :=
  if s.servers = [] then s.endServe call (some .assertion)
  else if s.closeGuard then s.endServe call (some .busyResource)
  else { s with closeGuard := true }.setPhase call .setup

/-- A call of `server_activate()` ends: the lock is released. -/
def endActivation (s : State ε) (call : ℕ) (serve : Bool) (error : Option (Error ε)) : State ε :=
  let s := { s with
    activationLock := none
    activations := s.activations ++ [(error, s.closeStarted)] }
  match serve, error with
  | false, _ => s.setPhase call (.ended error)
  | true, some error => s.endServe call (some error)
  | true, none => s.enterSetup call

/-- `server_activate()`, once it has the lock; up to `coro_yield()`. -/
def enter (s : State ε) (call : ℕ) (serve : Bool) : State ε :=
  if s.scope.isSome then s.endActivation call serve (some .assertion)
  else if !s.hasFactory then s.endActivation call serve (some .serverClosed)
  else if s.servers ≠ [] then s.endActivation call serve none
  else { s with scope := some false }.setPhase call (.inFactory serve false)

/-- `server_activate()`, once a suspension in the scope of the factory is over. -/
def factoryRuns (s : State ε) (call : ℕ) (serve : Bool) : FactoryOutcome ε → State ε
  | .suspends => s.setPhase call (.inFactory serve false)
  | .returns listeners =>
    let s := { s with scope := none }
    if listeners = 0 then s.endActivation call serve (some .emptyListeners)
    else
      { s with
        servers := List.range' s.produced listeners
        produced := s.produced + listeners }.endActivation call serve none
  | .raises exc => { s with scope := none }.endActivation call serve (some (.other exc))

/-- `server_close()`, once it has the lock; up to the wait for the server tasks. -/
def requestClose (s : State ε) (call : ℕ) : State ε :=
  if s.closeGuard then { s with closeLock := none }.setPhase call (.ended (some .busyResource))
  else
    { s with
      closeGuard := true
      scope := s.scope.map fun _ => true
      hasFactory := false
      closeStarted := true }.setPhase call (.waitTasks s.servers)

/-- The exit stack of `server_close()` is unwound, after the `aclose()` of the servers. -/
def endClose (s : State ε) (call : ℕ) (error : Option (Error ε)) : State ε :=
  { s with
    servers := []
    closeGuard := false
    closeLock := none
    closeReturned := s.closeReturned || error.isNone
    closeFailed := s.closeFailed || error.isSome }.setPhase call (.ended error)

end State

/-- One step of an interleaving. -/
def step (s : State ε) : Action ε → Option (State ε)
  | .activate call =>
    match s.phase call with
    | .notCalled => some (s.setPhase call (.waitActivation false))
    | _ => none
  | .serve call =>
    match s.phase call with
    | .notCalled =>
      if s.running then some (s.setPhase call (.ended (some .serverAlreadyRunning)))
      else some ({ s with running := true }.setPhase call (.waitActivation true))
    | _ => none
  | .close call =>
    match s.phase call with
    | .notCalled => some (s.setPhase call .waitClose)
    | _ => none
  | .acquireActivation call =>
    match s.phase call, s.activationLock with
    | .waitActivation serve, none => some ({ s with activationLock := some call }.enter call serve)
    | _, _ => none
  | .wake call =>
    match s.phase call with
    | .inFactory serve false =>
      if s.scope = some true then none else some (s.setPhase call (.inFactory serve true))
    | _ => none
  | .factory call outcome =>
    match s.phase call with
    | .inFactory serve true => some (s.factoryRuns call serve outcome)
    | _ => none
  | .throw call =>
    match s.phase call with
    | .inFactory serve false =>
      -- the scope catches the cancellation
      if s.scope = some true then
        some ({ s with scope := none }.endActivation call serve (some .serverClosed))
      else none
    | _ => none
  | .setupDone call exc =>
    match s.phase call with
    | .setup =>
      let s := { s with closeGuard := false }
      match exc with
      | none => some ({ s with serverTasks := s.servers.length }.setPhase call .serving)
      | some exc => some (s.endServe call (some (.other exc)))
    | _ => none
  | .taskDone => if s.serverTasks = 0 then none else some { s with serverTasks := s.serverTasks - 1 }
  | .serveEnds call exc =>
    match s.phase call with
    | .serving => if s.serverTasks = 0 then some (s.endServe call (exc.map .other)) else none
    | _ => none
  | .acquireClose call =>
    match s.phase call, s.closeLock with
    | .waitClose, none => some ({ s with closeLock := some call }.setPhase call .hasClose)
    | _, _ => none
  | .closeRuns call =>
    match s.phase call with
    | .hasClose => some (s.requestClose call)
    | _ => none
  | .tasksDone call =>
    match s.phase call with
    | .waitTasks servers =>
      if s.serverTasks = 0 then some (s.setPhase call (.closing servers none)) else none
    | _ => none
  | .serverClosed call server =>
    match s.phase call with
    | .closing servers error =>
      if server ∈ servers then
        some ({ s with closed := s.closed ++ [server] }.setPhase call
          (.closing (servers.erase server) error))
      else none
    | _ => none
  | .interrupt call exc =>
    match s.phase call with
    | .waitTasks servers => some (s.setPhase call (.closing servers (some (.other exc))))
    | .closing servers _ => some (s.setPhase call (.closing servers (some (.other exc))))
    | _ => none
  | .closeDone call =>
    match s.phase call with
    | .closing servers error =>
      if servers = [] ∨ error.isSome then some (s.endClose call error) else none
    | _ => none

end BaseServer

end EasyNetwork
