/-
  The stream listener of the asyncio backend (`ListenerSocketAdapter` in
  `_asyncio/stream/listener.py`), under one call of `serve()`.

  A socket that `accept()` returns goes from a callback of the event loop to the task of
  `client_connection_task`, in the task group of `_serve_raw`, and from there with its stream to the
  task of the handler, in the task group of `serve()`.  Where the event loop has no `add_reader()`,
  it first is the result of `sock_accept()`.

  A task that is cancelled before its first step executes none of its body, and a task group that is
  shutting down takes no task.  Of the sockets, a state only keeps who has them.
-/
import EasyNetwork.Lib.Trans

namespace EasyNetwork

namespace StreamListener

/-- What `accept()` raises. -/
inductive AcceptError where
  /-- `BlockingIOError`, `InterruptedError` -/
  | blocking
  /-- an `OSError` of `ACCEPT_CAPACITY_ERRNOS` -/
  | capacity
  /-- an `OSError` of `IGNORABLE_ACCEPT_ERRNOS` -/
  | ignorable
  /-- any other `OSError` -/
  | unrelated
  /-- what is not an `OSError` -/
  | baseException
  deriving DecidableEq, Repr

inductive AcceptResult where
  | socket
  /-- a socket, whose `setblocking(False)` raises -/
  | setblockingRaises (error : AcceptError)
  | raises (error : AcceptError)
  deriving DecidableEq, Repr

/-- How the `connect()` of the socket factory ends. -/
inductive ConnectResult where
  | stream
  /-- an `Exception`; `log_connection_error()` may raise one itself -/
  | exception (logFails : Bool)
  | cancelled
  | baseException
  deriving DecidableEq, Repr

/-- `client_connection_task` ends with an exception, which is not a cancellation. -/
def ConnectResult.fails : ConnectResult → Bool
  | .exception logFails => logFails
  | .baseException => true
  | _ => false

/-- Who has a socket that `accept()` has returned. -/
inductive SocketState where
  /-- the future of `sock_accept()`, until `serve()` runs again -/
  | result
  /-- a task of `client_connection_task` that has not run yet -/
  | connectionTask (cancelled : Bool)
  /-- `client_connection_task`, which awaits `connect()` -/
  | connecting
  /-- a task of the handler that has not run yet -/
  | handlerTask (cancelled : Bool)
  /-- the handler, which has started running -/
  | handled
  | closed
  /-- nobody, and it has not been closed -/
  | leaked
  deriving DecidableEq, Repr

namespace SocketState

/-- The task group of `_serve_raw` cancels its tasks; what `connect()` does then is up to it. -/
def cancelConnection : SocketState → SocketState
  | connectionTask _ => connectionTask true
  | x => x

/-- The task group of `serve()` cancels its tasks. -/
def cancelHandler : SocketState → SocketState
  | handlerTask _ => handlerTask true
  | x => x

def inConnectionTask : SocketState → Bool
  | connectionTask _ | connecting => true
  | _ => false

def inHandlerTask : SocketState → Bool
  | handlerTask _ => true
  | _ => false

/-- It has been handed to a handler that has started running, or closed. -/
def settled : SocketState → Bool
  | handled | closed => true
  | _ => false

end SocketState

/-- Where `serve()` is. -/
inductive Serve where
  | notStarted
  /-- it awaits the future of `__infinite_serve` -/
  | reading
  /-- it awaits `sock_accept()` -/
  | accepting
  /-- `sock_accept()` is done with this socket -/
  | accepted (socket : ℕ)
  | acceptFailed (error : AcceptError)
  /-- `asyncio.sleep(ACCEPT_CAPACITY_ERROR_SLEEP_TIME)` -/
  | sleeping
  /-- in the `__aexit__()` of the task group of `_serve_raw` -/
  | exiting
  /-- in the `__aexit__()` of its own task group -/
  | exitingHandlers
  | ended
  deriving DecidableEq, Repr

/-- `__accept_scope` is entered. -/
def Serve.waiting : Serve → Bool
  | reading | accepting | accepted _ | acceptFailed _ | sleeping => true
  | _ => false

/-- The future of `__infinite_serve`. -/
inductive Future where
  | notCreated
  | pending
  | exception
  | cancelled
  deriving DecidableEq, Repr

def Future.done : Future → Bool
  | exception | cancelled => true
  | _ => false

def Future.cancel : Future → Future
  | pending => cancelled
  | f => f

structure Config where
  /-- `serve()` is called without a task group -/
  ownTaskGroup : Bool
  /-- the event loop has `add_reader()` -/
  hasAddReader : Bool
  backlog : ℕ

structure State where
  serve : Serve := .notStarted
  /-- `CancelledError` is raised where `serve()` waits when it runs again -/
  cancelling : Bool := false
  future : Future := .notCreated
  /-- `listener_ready` is registered -/
  reader : Bool := false
  /-- the timers of `delayed_retry_handles` that are running -/
  retries : ℕ := 0
  /-- `self.__socket` is `None` -/
  closing : Bool := false
  /-- the sockets that `accept()` has returned -/
  sockets : List SocketState := []
  /-- the task group of `_serve_raw` is shutting down -/
  connectionsAborted : Bool := false
  /-- one of its tasks has ended with an exception -/
  connectionFailed : Bool := false
  /-- the task group of `serve()` is shutting down, or has ended -/
  handlersAborted : Bool := false
  deriving DecidableEq, Repr

inductive Action where
  | serve
  /-- the task of `serve()` is cancelled -/
  | cancelServe
  | aclose
  /-- `listener_ready` is called; once the results are used up, `accept()` would block -/
  | ready (results : List AcceptResult)
  /-- a timer of `delayed_retry_handles` -/
  | retry
  /-- `on_fut_done` -/
  | futureDone
  /-- `sock_accept()` is done, with a socket or an exception -/
  | sockAccept (error : Option AcceptError)
  /-- the task of `serve()` runs again -/
  | resume
  /-- the first step of the connection task of a socket -/
  | connectionStep (socket : ℕ)
  | connected (socket : ℕ) (result : ConnectResult)
  /-- the first step of the handler -/
  | handlerStep (socket : ℕ)
  /-- a task that has not run yet is cancelled by other code -/
  | cancelTask (socket : ℕ)
  /-- the task group of `_serve_raw` learns that a task has failed -/
  | connectionsAbort
  /-- the task group of `serve()` learns that a task has failed, or ends -/
  | handlersAbort
  /-- the tasks of the task group of `_serve_raw` have ended -/
  | connectionsDone
  | handlersDone
  deriving DecidableEq, Repr

namespace State
variable (s : State)

def setSocket (i : ℕ) (x : SocketState) : State := { s with sockets := s.sockets.set i x }

/-- A task that waits is cancelled, and the future with it that it waits for. -/
def cancelServe : State :=
  if s.serve.waiting then { s with cancelling := true, future := s.future.cancel } else s

def abortConnections : State :=
  { s with
    connectionsAborted := true
    sockets := s.sockets.map SocketState.cancelConnection }

def abortHandlers : State :=
  { s with
    handlersAborted := true
    sockets := s.sockets.map SocketState.cancelHandler }

/-- `accept_scope` and the task group of `_serve_raw` are left, always by an exception. -/
def leave : State := { s.abortConnections with serve := .exiting, cancelling := false }

/-- `aclose()` up to its `coro_yield()`. -/
def aclose : State := if s.closing then s else { s with closing := true }.cancelServe

/-- The `except` clauses of `listener_ready` that leave its loop. -/
def acceptFailed : AcceptError → State
  | .capacity => { s with reader := false, retries := s.retries + 1 }
  | .unrelated => { s with future := .exception, reader := false }
  | .baseException => { s with future := .exception }
  | _ => s

/-- The loop of `listener_ready`, at most `backlog` times. -/
def accept : ℕ → List AcceptResult → State → State
  | 0, _, s => s
  | _ + 1, [], s => s
  | n + 1, .socket :: results, s =>
    -- `start_soon()` raises out of `listener_ready`
    if s.connectionsAborted then { s with sockets := s.sockets ++ [.leaked] }
    else accept n results { s with sockets := s.sockets ++ [.connectionTask false] }
  | n + 1, .setblockingRaises error :: results, s =>
    -- the socket is forgotten
    let s := { s with sockets := s.sockets ++ [.leaked] }
    if error = .ignorable then accept n results s else s.acceptFailed error
  | n + 1, .raises error :: results, s =>
    if error = .ignorable then accept n results s else s.acceptFailed error

/-- `listener_ready` does nothing when the future is done. -/
def listenerReady (backlog : ℕ) (results : List AcceptResult) : State :=
  if s.future = .pending then accept backlog results s else s

/-- `serve()` up to its first `await`, in which nothing is cancelled. -/
def start (c : Config) : State :=
  -- `EBADF`
  if s.closing then { s with serve := .ended }
  else
    -- a new task group
    let s := { s with connectionsAborted := false, connectionFailed := false, cancelling := false }
    if c.hasAddReader then { s with serve := .reading, future := .pending, reader := true }
    else { s with serve := .accepting }

/-- `sock_accept()` returns the socket to `serve()`. -/
def startConnection (i : ℕ) : State :=
  if s.connectionsAborted then (s.setSocket i .leaked).leave
  else { s.setSocket i (.connectionTask false) with serve := .accepting }

/-- What `serve()` does when it runs again. -/
def resume : Option State :=
  match s.serve with
  | .reading => if s.cancelling || s.future.done then some s.leave else none
  | .accepting => if s.cancelling then some s.leave else none
  | .accepted i =>
    if s.sockets[i]? = some .result then
      -- the result of `sock_accept()` is dropped
      if s.cancelling then some (s.setSocket i .leaked).leave else some (s.startConnection i)
    else none
  | .acceptFailed error =>
    if s.cancelling then some s.leave
    else
      match error with
      | .capacity => some { s with serve := .sleeping }
      | .ignorable => some { s with serve := .accepting }
      | _ => some s.leave
  | .sleeping => if s.cancelling then some s.leave else some { s with serve := .accepting }
  | _ => none

/-- `client_connection_task` once `connect()` is done. -/
def connected (i : ℕ) : ConnectResult → State
  | .stream =>
    -- `start_soon()` raises
    if s.handlersAborted then { s.setSocket i .leaked with connectionFailed := true }
    else s.setSocket i (.handlerTask false)
  | result =>
    { s.setSocket i .closed with connectionFailed := s.connectionFailed || result.fails }

/-- The task group of `_serve_raw` has been left. -/
def exitConnections (c : Config) : State :=
  if c.ownTaskGroup then { s.abortHandlers with serve := .exitingHandlers }
  else { s with serve := .ended }

end State

/-- One step of an interleaving. -/
def step (c : Config) (s : State) : Action → Option State
  | .serve => if s.serve = .notStarted then some (s.start c) else none
  | .cancelServe => some s.cancelServe
  | .aclose => some s.aclose
  | .ready results => if s.reader then some (s.listenerReady c.backlog results) else none
  | .retry =>
    if 0 < s.retries then some { s with reader := true, retries := s.retries - 1 } else none
  | .futureDone => if s.future.done then some { s with reader := false, retries := 0 } else none
  | .sockAccept error =>
    if s.serve = .accepting ∧ s.cancelling = false then
      match error with
      | none =>
        some { s with serve := .accepted s.sockets.length, sockets := s.sockets ++ [.result] }
      | some error => some { s with serve := .acceptFailed error }
    else none
  | .resume => s.resume
  | .connectionStep i =>
    match s.sockets[i]? with
    | some (.connectionTask cancelled) =>
      some (s.setSocket i (if cancelled then .leaked else .connecting))
    | _ => none
  | .connected i result =>
    if s.sockets[i]? = some .connecting then some (s.connected i result) else none
  | .handlerStep i =>
    match s.sockets[i]? with
    | some (.handlerTask cancelled) =>
      some (s.setSocket i (if cancelled then .leaked else .handled))
    | _ => none
  | .cancelTask i => (s.sockets[i]?).map fun x => s.setSocket i x.cancelConnection.cancelHandler
  | .connectionsAbort =>
    if s.connectionFailed ∧ ¬ s.connectionsAborted then some s.abortConnections.cancelServe
    else none
  | .handlersAbort =>
    if c.ownTaskGroup then
      -- its tasks are the handlers, and its parent task is the one of `serve()`
      if .handled ∈ s.sockets then some s.abortHandlers.cancelServe else none
    else some s.abortHandlers
  | .connectionsDone =>
    if s.serve = .exiting ∧ s.sockets.all fun x => !x.inConnectionTask then
      some (s.exitConnections c)
    else none
  | .handlersDone =>
    if s.serve = .exitingHandlers ∧ s.sockets.all fun x => !x.inHandlerTask then
      some { s with serve := .ended }
    else none

/-! ## What is expected -/

/-- `serve()` and the tasks that it has started have ended, or are handlers that run. -/
def State.Finished (s : State) : Prop :=
  s.serve = .ended ∧ ∀ x ∈ s.sockets, x.inConnectionTask = false ∧ x.inHandlerTask = false

/-- No `setblocking(False)` that `listener_ready` reaches raises. -/
def setblockingReturns : ℕ → List AcceptResult → Bool
  | n + 1, .socket :: results => setblockingReturns n results
  | _ + 1, .setblockingRaises _ :: _ => false
  | n + 1, .raises error :: results =>
    if error = .ignorable then setblockingReturns n results else true
  | _, _ => true

/-- The ways to leave a socket behind are not taken. -/
def Safe (c : Config) (s : State) : Action → Prop
  | .ready results => s.future = .pending → setblockingReturns c.backlog results = true
  | .connectionStep i => s.sockets[i]? ≠ some (.connectionTask true)
  | .handlerStep i => s.sockets[i]? ≠ some (.handlerTask true)
  | .connected _ result => result = .stream → s.handlersAborted = false
  | .resume => ∀ i, s.serve = .accepted i → s.cancelling = false
  | _ => True

end StreamListener

end EasyNetwork
