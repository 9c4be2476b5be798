/-
  The tasks of a datagram server for one address (`AsyncDatagramServer.serve` and `_ClientData` in
  `lowlevel/api_async/servers/datagram.py`).

  `D` is what a reception gives: a datagram and its ancillary data.  A handler task pushes it
  (`handler`), and runs the client coroutine of the address if no task does.  The client coroutine
  sends the datagrams of the queue to a request handler generator, which may end at any time, by an
  exception or not; when data is left, the client coroutine starts a new one.

  A task runs from one suspension point to the next before another task does.  It suspends when it
  takes the lock of the condition variable, when it waits for a notification, and while the
  generator runs.  The server is not shut down: no task is cancelled by another one.
-/
import EasyNetwork.Lib.Trans

namespace EasyNetwork

namespace DatagramServer

/-! ## The data of a client -/

/-- `_ClientState`. -/
inductive ClientState where
  | taskPending
  | taskRunning
  deriving DecidableEq, Repr

/-- `_ClientData`. -/
structure ClientData (D : Type) where
  state : Option ClientState := none
  /-- the task that holds the lock of `_queue_condition` -/
  lockHolder : Option ℕ := none
  datagramQueue : List D := []
  deriving DecidableEq, Repr

namespace ClientData
variable {D : Type} (c : ClientData D)

def queueIsEmpty : Bool := c.datagramQueue.isEmpty

/-- The first line of `push_datagram`. -/
def append (datagram : D) : ClientData D := { c with datagramQueue := c.datagramQueue ++ [datagram] }

/-- `pop_datagram_no_wait`; `none` is an `IndexError`. -/
def popDatagramNoWait : Option (D × ClientData D) :=
  match c.datagramQueue with
  | [] => none
  | datagram :: queue => some (datagram, { c with datagramQueue := queue })

theorem popDatagramNoWait_nil {c : ClientData D} (h : c.datagramQueue = []) :
    c.popDatagramNoWait = none := by
  rw [popDatagramNoWait, h]

theorem popDatagramNoWait_cons {c : ClientData D} {datagram : D} {queue : List D}
    (h : c.datagramQueue = datagram :: queue) :
    c.popDatagramNoWait = some (datagram, { c with datagramQueue := queue }) := by
  rw [popDatagramNoWait, h]

/-- The lock of `_queue_condition` is released. -/
def release : ClientData D := { c with lockHolder := none }

/-- `mark_pending`; `none` is a call of `handle_inconsistent_state_error`. -/
def markPending : Option (ClientData D) :=
  if c.state ≠ none then none else some { c with state := some .taskPending }

/-- `mark_done`. -/
def markDone : Option (ClientData D) :=
  if c.state ≠ some .taskRunning then none else some { c with state := none }

/-- `mark_running`. -/
def markRunning : Option (ClientData D) :=
  if c.state ≠ some .taskPending then none else some { c with state := some .taskRunning }

end ClientData

/-! ## The tasks -/

/-- Where a task is. -/
inductive Phase where
  /-- `push_datagram` takes the lock -/
  | pushAcquires
  /-- it has the lock -/
  | pushHolds
  /-- a client coroutine that has not begun -/
  | pending
  /-- it awaits `anext(request_handler_generator)` -/
  | anext
  /-- it awaits `asend()` or `athrow()` -/
  | generator
  /-- `pop_datagram` takes the lock -/
  | popAcquires
  /-- it has the lock, and has been cancelled before or not -/
  | popHolds (cancelled : Bool)
  /-- it waits for a notification -/
  | popWaits
  /-- it takes the lock again -/
  | popReacquires (cancelled : Bool)
  /-- the task has ended -/
  | ended
  deriving DecidableEq, Repr

namespace Phase

/-- A handler between its push and its state check. -/
def isPushing : Phase → Bool
  | pushAcquires | pushHolds => true
  | _ => false

/-- A client coroutine that is pending. -/
def isPending : Phase → Bool
  | pending => true
  | _ => false

/-- A client coroutine that is running. -/
def isRunning : Phase → Bool
  | anext | generator | popAcquires | popHolds _ | popWaits | popReacquires _ => true
  | _ => false

/-- A client coroutine. -/
def isClient (p : Phase) : Bool := p.isPending || p.isRunning

end Phase

/-- `notify()`: the task that waits for a notification takes the lock again. -/
def notify : List Phase → List Phase
  | [] => []
  | .popWaits :: ts => .popReacquires false :: ts
  | t :: ts => t :: notify ts

structure State (D : Type) where
  clientData : ClientData D := {}
  tasks : List Phase := []
  /-- what has been appended to the queues of the address -/
  pushed : List D := []
  /-- what has been popped -/
  popped : List D := []
  /-- `handle_inconsistent_state_error` has been called -/
  inconsistent : Bool := false
  deriving DecidableEq, Repr

inductive Action (D : Type) where
  /-- `handler` is called; `datagram_received_cb` raises if it calls it, or not -/
  | handler (datagram : D) (raises : Bool)
  /-- a task gets the lock -/
  | acquire (i : ℕ)
  /-- a task that has the lock, or has not begun, runs -/
  | resume (i : ℕ) (raises : Bool)
  /-- the generator yields valid parameters or not -/
  | yields (i : ℕ) (valid : Bool)
  /-- the generator returns or raises -/
  | stops (i : ℕ)
  /-- the timeout cancels `pop_datagram` -/
  | timeout (i : ℕ)
  /-- no task refers to the client data, and the weak cache drops it -/
  | collect
  deriving DecidableEq, Repr

namespace State
variable {D : Type} (s : State D)

def setPhase (i : ℕ) (p : Phase) : State D := { s with tasks := s.tasks.set i p }

/-- The exception of `handle_inconsistent_state_error` ends the task. -/
def raiseInconsistent (i : ℕ) : State D := { s.setPhase i .ended with inconsistent := true }

/-- `__on_client_coroutine_task_done`. -/
def onClientCoroutineTaskDone : State D :=
  if s.clientData.queueIsEmpty then s
  else match s.clientData.markPending with
    -- the exception is logged
    | none => { s with inconsistent := true }
    | some clientData => { s with clientData := clientData, tasks := s.tasks ++ [.pending] }

/-- The end of `__client_coroutine`. -/
def clientCoroutineEnd (i : ℕ) : State D :=
  match s.clientData.markDone with
  | none => s.raiseInconsistent i
  | some clientData =>
    onClientCoroutineTaskDone { s.setPhase i .ended with clientData := clientData }

/-- `__client_coroutine` up to its first suspension point. -/
def clientCoroutine (i : ℕ) (raises : Bool) : State D :=
  match s.clientData.markRunning with
  | none => s.raiseInconsistent i
  | some clientData =>
    let s := { s.setPhase i .anext with clientData := clientData }
    if raises then s.clientCoroutineEnd i
    else match clientData.popDatagramNoWait with
      | none => s.clientCoroutineEnd i
      | some (datagram, clientData) =>
        { s with clientData := clientData, popped := s.popped ++ [datagram] }

/-- The rest of `handler` after `push_datagram`, which returns the length of the queue. -/
def handlerCheck (i : ℕ) (raises : Bool) : State D :=
  if s.clientData.state = none ∧ 0 < s.clientData.datagramQueue.length then
    match s.clientData.markPending with
    | none => s.raiseInconsistent i
    | some clientData =>
      clientCoroutine { s.setPhase i .pending with clientData := clientData } i raises
  else s.setPhase i .ended

/-- `handler` up to its first suspension point. -/
def handler (datagram : D) (raises : Bool) : State D :=
  let s' := { s with
    clientData := s.clientData.append datagram
    tasks := s.tasks ++ [.pushAcquires]
    pushed := s.pushed ++ [datagram] }
  -- no need to notify anyone if the state is `None`
  if s'.clientData.state = none then s'.handlerCheck s.tasks.length raises else s'

/-- A task gets the lock. -/
def acquire (i : ℕ) (p : Phase) : State D :=
  { s.setPhase i p with clientData := { s.clientData with lockHolder := some i } }

/-- `push_datagram` from `notify()` on. -/
def pushNotifies (i : ℕ) (raises : Bool) : State D :=
  handlerCheck { s with tasks := notify s.tasks, clientData := s.clientData.release } i raises

/-- The loop of `pop_datagram`. -/
def popDatagram (i : ℕ) : State D :=
  match s.clientData.popDatagramNoWait with
  | none => { s.setPhase i .popWaits with clientData := s.clientData.release }
  | some (datagram, clientData) =>
    { s.setPhase i .generator with
      clientData := clientData.release
      popped := s.popped ++ [datagram] }

/-- `pop_datagram` raises the cancellation when it has the lock again; the `TimeoutError` is thrown
    into the generator. -/
def popCancelled (i : ℕ) : State D :=
  { s.setPhase i .generator with clientData := s.clientData.release }

end State

/-- One step of an interleaving. -/
def step {D : Type} (s : State D) : Action D → Option (State D)
  | .handler datagram raises => some (s.handler datagram raises)
  | .acquire i =>
    if s.clientData.lockHolder ≠ none then none
    else match s.tasks[i]? with
      | some .pushAcquires => some (s.acquire i .pushHolds)
      | some .popAcquires => some (s.acquire i (.popHolds false))
      | some (.popReacquires cancelled) => some (s.acquire i (.popHolds cancelled))
      | _ => none
  | .resume i raises =>
    match s.tasks[i]? with
    | some .pushHolds => some (s.pushNotifies i raises)
    | some .pending => some (s.clientCoroutine i raises)
    | some (.popHolds false) => some (s.popDatagram i)
    | some (.popHolds true) => some (s.popCancelled i)
    | _ => none
  | .yields i valid =>
    match s.tasks[i]? with
    -- the datagram that has been popped is sent, or an exception is thrown
    | some .anext => some (s.setPhase i .generator)
    | some .generator => some (s.setPhase i (if valid then .popAcquires else .generator))
    | _ => none
  | .stops i =>
    match s.tasks[i]? with
    | some .anext | some .generator => some (s.clientCoroutineEnd i)
    | _ => none
  | .timeout i =>
    match s.tasks[i]? with
    | some .popAcquires => some (s.setPhase i .generator)
    | some .popWaits | some (.popReacquires _) => some (s.setPhase i (.popReacquires true))
    | _ => none
  | .collect =>
    if ∀ p ∈ s.tasks, p = .ended then some { s with clientData := {} } else none

end DatagramServer

end EasyNetwork
