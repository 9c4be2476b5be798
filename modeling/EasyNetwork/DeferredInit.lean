/-
  A client that connects later (`DeferredAsyncEndpointInit` and `_AsyncTransportConnector` in
  `clients/_base.py`).

  `step` interleaves any number of calls of `connect()` and `aclose()`.  A call is suspended while it
  waits for the lock, in the endpoint factory, and in the endpoint's `aclose()`; a cancellation may
  be thrown into it there.  A cancelled factory that raises has no endpoint left, and `is_closing()`
  is true as soon as an endpoint's `aclose()` is called.  A cancel scope may be entered once.
-/
import EasyNetwork.Lib.Trans
import Mathlib.Logic.Function.Basic
import Mathlib.Order.Nat

namespace EasyNetwork

namespace DeferredInit

variable {ε : Type}

/-! ## The calls -/

/-- How a call of `connect()` may fail. -/
inductive Error (ε : Type) where
  | clientClosed
  /-- `RuntimeError("CancelScope entered twice")` -/
  | scopeEnteredTwice
  | cancelled
  /-- an exception of the endpoint factory -/
  | factory (exc : ε)
  /-- an exception of the endpoint's `aclose()` -/
  | aclose (exc : ε)
  deriving DecidableEq, Repr

/-- Where a call is.  The endpoints are numbered in the order in which the factory returns them. -/
inductive Phase (ε : Type) where
  | notCalled
  | waitLock
  | inFactory
  /-- `connect()`: in `aclose_forcefully(endpoint)` -/
  | forcing (endpoint : ℕ)
  /-- `aclose()`: in `endpoint.aclose()` -/
  | closing (endpoint : ℕ)
  /-- `connect()` has returned an endpoint; whether it was closing, and whether `aclose()` had
      started -/
  | returned (endpoint : ℕ) (wasClosing afterAclose : Bool)
  /-- `connect()` has raised -/
  | raised (error : Error ε)
  /-- `aclose()` has ended -/
  | closed
  deriving DecidableEq, Repr

/-- The state of a cancel scope. -/
inductive ScopeState where
  | created
  | entered
  | exited
  deriving DecidableEq, Repr

structure State (ε : Type) where
  endpoint : Option ℕ := none
  /-- `__transport_connector is not None` -/
  hasConnector : Bool := true
  /-- the scope of the connector, and its `cancel_called()` -/
  scope : ScopeState := .created
  cancelCalled : Bool := false
  /-- the call that holds the lock -/
  lock : Option ℕ := none
  phase : ℕ → Phase ε := fun _ => .notCalled
  /-- the number of endpoints that the factory has returned -/
  produced : ℕ := 0
  isClosing : ℕ → Bool := fun _ => false
  /-- `aclose()` has been called -/
  acloseStarted : Bool := false
  /-- the factory has raised an exception that the scope did not catch -/
  factoryFailed : Bool := false

/-- How the factory ends. -/
inductive FactoryOutcome (ε : Type) where
  | returns
  | raises (exc : ε)
  /-- it raises a cancellation, the one of the scope or another -/
  | cancelled (byScope : Bool)
  deriving DecidableEq, Repr

inductive Action (ε : Type) where
  | connect (call : ℕ)
  | acquire (call : ℕ)
  | factory (call : ℕ) (outcome : FactoryOutcome ε)
  /-- the endpoint's `aclose()` returns, or raises an exception -/
  | acloseDone (call : ℕ) (exc : Option ε)
  /-- a cancellation is thrown into a call that waits for the lock, or in an endpoint's `aclose()` -/
  | throw (call : ℕ)
  | aclose (call : ℕ)
  /-- somebody else closes an endpoint -/
  | endpointCloses (endpoint : ℕ)
  deriving DecidableEq, Repr

namespace State

def setPhase (s : State ε) (call : ℕ) (phase : Phase ε) : State ε :=
  { s with phase := Function.update s.phase call phase }

/-- An exception leaves `connect()`, and the lock is released. -/
def raise (s : State ε) (call : ℕ) (error : Error ε) : State ε :=
  { s with lock := none }.setPhase call (.raised error)

/-- The end of `connect()`: the lock is released, and the endpoint is returned if it is not
    closing. -/
def leave (s : State ε) (call endpoint : ℕ) : State ε :=
  if s.isClosing endpoint then s.raise call .clientClosed
  else { s with lock := none }.setPhase call
    (.returned endpoint (s.isClosing endpoint) s.acloseStarted)

/-- `connect()`, once it has the lock; `get()` up to the call of the factory. -/
def enter (s : State ε) (call : ℕ) : State ε :=
  match s.endpoint with
  | some endpoint => s.leave call endpoint
  | none =>
    if s.hasConnector then
      if s.scope = .created then { s with scope := .entered }.setPhase call .inFactory
      else s.raise call .scopeEnteredTwice
    else s.raise call .clientClosed

/-- `connect()`, once `get()` has returned. -/
def got (s : State ε) (call : ℕ) : Option ℕ → State ε
  | none => { s with hasConnector := false }.raise call .clientClosed
  | some endpoint =>
    { s with hasConnector := false, endpoint := some endpoint }.leave call endpoint

/-- `endpoint.aclose()`, up to its first suspension. -/
def close (s : State ε) (endpoint : ℕ) : State ε :=
  { s with isClosing := Function.update s.isClosing endpoint true }

/-- `get()`, once the factory has ended and the scope is left; `none` if the outcome is not
    possible. -/
def factoryDone (s : State ε) (call : ℕ) (outcome : FactoryOutcome ε) : Option (State ε) :=
  let s := { s with scope := .exited }
  match outcome with
  | .returns =>
    let endpoint := s.produced
    let s := { s with produced := s.produced + 1 }
    if s.cancelCalled then some ((s.close endpoint).setPhase call (.forcing endpoint))
    else some (s.got call (some endpoint))
  | .raises exc => some ({ s with factoryFailed := true }.raise call (.factory exc))
  | .cancelled byScope =>
    if byScope then if s.cancelCalled then some (s.got call none) else none
    else some ({ s with factoryFailed := true }.raise call .cancelled)

/-- `aclose()`, up to its first suspension. -/
def aclose (s : State ε) (call : ℕ) : State ε :=
  let s := { s with
    acloseStarted := true
    cancelCalled := s.cancelCalled || s.hasConnector
    hasConnector := false }
  match s.endpoint with
  | none => s.setPhase call .closed
  | some endpoint => (s.close endpoint).setPhase call (.closing endpoint)

/-- `get_sync()`: the endpoint; `none` stands for `ENOTCONN`. -/
def getSync (s : State ε) : Except (Option (Error ε)) ℕ :=
  match s.endpoint with
  | none => if s.hasConnector then .error none else .error (some .clientClosed)
  | some endpoint =>
    if s.isClosing endpoint then .error (some .clientClosed) else .ok endpoint

end State

/-- One step of an interleaving. -/
def step (s : State ε) : Action ε → Option (State ε)
  | .connect call =>
    match s.phase call with
    | .notCalled => some (s.setPhase call .waitLock)
    | _ => none
  | .acquire call =>
    match s.phase call, s.lock with
    | .waitLock, none => some ({ s with lock := some call }.enter call)
    | _, _ => none
  | .factory call outcome =>
    match s.phase call with
    | .inFactory => s.factoryDone call outcome
    | _ => none
  | .acloseDone call exc =>
    match s.phase call with
    | .forcing _ =>
      match exc with
      | none => some (s.got call none)
      | some exc => some (s.raise call (.aclose exc))
    | .closing _ => some (s.setPhase call .closed)
    | _ => none
  | .throw call =>
    match s.phase call with
    | .waitLock => some (s.setPhase call (.raised .cancelled))
    | .forcing _ => some (s.raise call .cancelled)
    | .closing _ => some (s.setPhase call .closed)
    | _ => none
  | .aclose call =>
    match s.phase call with
    | .notCalled => some (s.aclose call)
    | _ => none
  | .endpointCloses endpoint => some (s.close endpoint)

end DeferredInit

end EasyNetwork
