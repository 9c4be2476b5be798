/-
  Closing a connection while packets are sent (`clients/async_tcp.py`, `servers/async_tcp.py`).

  `aclose()` and `send_packet()` of a connected client, and of the handle that a server has on its
  client, take a fair lock and then enter the guard of the endpoint, which does not wait.  Any
  number of calls are interleaved.  A call is suspended while it waits for the lock, in
  `connect()`, and in the operations of the transport; there a cancellation may be thrown into it.

  The calls of the lock are the calls of the API, with the same numbers.  A transport closes only
  when it is told to: `is_closing()` as soon as its `aclose()` is called, and it is closed when a
  call of its `aclose()` ends, also by a cancellation.
-/
import EasyNetwork.FairLock

namespace EasyNetwork

namespace Closing

/-- Who calls: a user of `AsyncTCPNetworkClient`, or of the server's `_ConnectedClientAPI`. -/
inductive Side where
  | client
  | server
  deriving DecidableEq, Repr

inductive Method where
  | sendPacket
  | aclose
  deriving DecidableEq, Repr

/-- How a call ends. -/
inductive Outcome where
  | returned
  | cancelled
  | busyResource
  | clientClosed
  /-- an exception of the transport -/
  | raised
  deriving DecidableEq, Repr

/-- Where a call is. -/
inductive Phase where
  | notCalled
  | waitLock (method : Method)
  /-- `send_packet` of the client: in `connect()` -/
  | connecting
  /-- in the transport's `send_all_from_iterable()` -/
  | sending
  /-- in the transport's `aclose()` -/
  | closing
  /-- in the transport's `aclose()`, called by `aclose_forcefully` after a cancellation -/
  | forcing
  /-- with whether the call has been cancelled, and whether the transport was closed then -/
  | ended (method : Method) (wasCancelled : Bool) (outcome : Outcome) (closed : Bool)
  deriving DecidableEq, Repr

structure State where
  lock : FairLock.State := {}
  phase : ℕ → Phase := fun _ => .notCalled
  /-- `ResourceGuard.__held` of the endpoint's send guard -/
  held : Bool := false
  /-- `is_closing()` of the transport -/
  isClosing : Bool := false
  /-- a call of the transport's `aclose()` has ended -/
  closed : Bool := false
  /-- `_ConnectedClientAPI.__closing` -/
  apiClosing : Bool := false

namespace State

def setPhase (s : State) (call : ℕ) (phase : Phase) : State :=
  { s with phase := Function.update s.phase call phase }

/-- The call ends. -/
def finish (s : State) (call : ℕ) (method : Method) (wasCancelled : Bool) (outcome : Outcome) :
    State :=
  s.setPhase call (.ended method wasCancelled outcome s.closed)

/-- `__aexit__` of the lock. -/
def releaseLock (s : State) (call : ℕ) : State :=
  { s with lock := (FairLock.step s.lock (.release call)).getD s.lock }

/-- `__exit__` of the guard. -/
def leaveGuard (s : State) : State := { s with held := false }

/-- `endpoint.send_packet()`, with the lock. -/
def enterSendPacket (s : State) (call : ℕ) : State :=
  if s.held then (s.releaseLock call).finish call .sendPacket false .busyResource
  else { s with held := true }.setPhase call .sending

/-- `endpoint.aclose()`; `phase` tells which of the two calls it is. -/
def enterAclose (s : State) (call : ℕ) (phase : Phase) : State :=
  { s with held := true, isClosing := true }.setPhase call phase

/-- A call has got the lock. -/
def enter (side : Side) (s : State) (call : ℕ) : Method → State
  | .sendPacket =>
    match side with
    | .client => s.setPhase call .connecting
    | .server =>
      if s.apiClosing then (s.releaseLock call).finish call .sendPacket false .clientClosed
      else s.enterSendPacket call
  | .aclose =>
    let s := match side with
      | .client => s
      | .server => { s with apiClosing := true }
    if s.held then (s.releaseLock call).finish call .aclose false .busyResource
    else s.enterAclose call .closing

/-- The handler of a cancellation that is thrown while `aclose()` waits for the lock. -/
def abort (side : Side) (s : State) (call : ℕ) : State :=
  let closing := match side with
    | .client => s.isClosing
    | .server => s.apiClosing
  if closing then s.finish call .aclose true .cancelled
  else
    let s := match side with
      | .client => s
      | .server => { s with apiClosing := true }
    if s.held then s.finish call .aclose true .busyResource
    else s.enterAclose call .forcing

end State

inductive Action where
  | call (method : Method)
  /-- a waiting call gets the lock -/
  | wake (call : ℕ)
  /-- the operation in which the call is suspended ends, or raises an exception -/
  | done (call : ℕ) (raises : Bool)
  /-- a cancellation is thrown into the call -/
  | throw (call : ℕ)
  deriving DecidableEq, Repr

/-- A waiting call of `acquire()` is cancelled. -/
def interruptLock (lock : FairLock.State) (call : ℕ) : Option FairLock.State :=
  Trans.run FairLock.step lock [.cancel call, .throw call]

/-- One step of an interleaving. -/
def step (side : Side) (s : State) : Action → Option State
  | .call method =>
    (FairLock.step s.lock .acquire).map fun lock =>
      let call := s.lock.calls
      let s := { s with lock }
      if lock.status call = .holding then s.enter side call method
      else s.setPhase call (.waitLock method)
  | .wake call =>
    match s.phase call with
    | .waitLock method =>
      (FairLock.step s.lock (.wake call)).map fun lock => { s with lock }.enter side call method
    | _ => none
  | .done call raises =>
    match s.phase call with
    | .connecting =>
      if s.isClosing then some ((s.releaseLock call).finish call .sendPacket false .clientClosed)
      else some (s.enterSendPacket call)
    | .sending =>
      some ((s.leaveGuard.releaseLock call).finish call .sendPacket false
        (if raises then .raised else .returned))
    | .closing =>
      some (({ s with closed := true }.leaveGuard.releaseLock call).finish call .aclose false
        .returned)
    | .forcing =>
      some ({ s with closed := true }.leaveGuard.finish call .aclose true .cancelled)
    | _ => none
  | .throw call =>
    match s.phase call with
    | .waitLock .sendPacket =>
      (interruptLock s.lock call).map fun lock =>
        { s with lock }.finish call .sendPacket true .cancelled
    | .waitLock .aclose =>
      (interruptLock s.lock call).map fun lock => { s with lock }.abort side call
    | .connecting => some ((s.releaseLock call).finish call .sendPacket true .cancelled)
    | .sending => some ((s.leaveGuard.releaseLock call).finish call .sendPacket true .cancelled)
    | .closing =>
      some (({ s with closed := true }.leaveGuard.releaseLock call).finish call .aclose true
        .cancelled)
    | .forcing =>
      some ({ s with closed := true }.leaveGuard.finish call .aclose true .cancelled)
    | _ => none

end Closing

end EasyNetwork
