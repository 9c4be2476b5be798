/-
  Writing on an asyncio transport (`_asyncio/_flow_control.py`, `_asyncio/stream/socket.py`).

  `send_all()` of the adapter writes on the transport and then drains: it waits until the transport
  has handed everything over to the socket, as the limits of the transport's buffer are 0.  The
  transport is that of the selector event loop: `write()` tries the socket first, keeps what the
  socket does not take, and drops what is written after the loss of the connection has been
  scheduled.

  Any number of calls are interleaved, on a loop that runs its callbacks in the order in which they
  have been scheduled.
-/
import EasyNetwork.Lib.Trans
import EasyNetwork.Tools

namespace EasyNetwork

namespace WriteFlow

/-- The waiter of a call of `drain()`. -/
inductive Future where
  | pending
  | result
  | exception (exc : Option String)
  | cancelled
  deriving DecidableEq, Repr

/-- How a call ends. -/
inductive Outcome where
  | returned
  | cancelled
  /-- the exception that the transport has given, or `ECONNRESET` -/
  | connectionLost (exc : Option String)
  /-- `RuntimeError("Cannot call write() after write_eof()")` -/
  | eofWritten
  /-- the transport has no socket any more -/
  | noSocket
  deriving DecidableEq, Repr

/-- Where a call of `send_all()` is; a cancellation is thrown into it when it goes on. -/
inductive Phase where
  | notCalled
  /-- in `coro_yield()` -/
  | yielding (data : Bytes) (mustCancel : Bool)
  /-- in `await waiter` -/
  | waiting (data : Bytes) (waiter : Future) (mustCancel : Bool)
  | ended (data : Bytes) (outcome : Outcome)
  deriving DecidableEq, Repr

/-- What the loop has to run. -/
inductive Handle where
  /-- `_call_connection_lost(exc)` of the transport -/
  | connectionLost (exc : Option String)
  /-- `__drain_waiters.remove(waiter)` -/
  | removeWaiter (call : ℕ)
  /-- the task of a call goes on -/
  | step (call : ℕ)
  deriving DecidableEq, Repr

/-- `WriteFlowControl`; a waiter has the number of its call. -/
structure WriteFlowControl where
  drainWaiters : List ℕ := []
  writePaused : Bool := false
  connectionLost : Bool := false
  connectionLostException : Option String := none
  deriving DecidableEq, Repr

structure State where
  flow : WriteFlowControl := {}
  /-- `_buffer` of the transport -/
  buffer : Bytes := []
  /-- `_protocol_paused` -/
  protocolPaused : Bool := false
  /-- `_closing` -/
  closing : Bool := false
  /-- `_eof` -/
  eof : Bool := false
  /-- `_conn_lost` -/
  connLost : Bool := false
  /-- `_sock is None` -/
  noSocket : Bool := false
  /-- what the socket has taken -/
  sent : Bytes := []
  /-- the write end of the socket has been shut down -/
  shutdown : Bool := false
  /-- what the transport has taken from each call -/
  accepted : List (ℕ × Bytes) := []
  calls : ℕ := 0
  phase : ℕ → Phase := fun _ => .notCalled
  ready : List Handle := []

/-- What `sock.send()` does. -/
inductive Send where
  /-- it takes some bytes, or none if it would block -/
  | takes (n : ℕ)
  | raises (exc : String)
  deriving DecidableEq, Repr

namespace State

variable (s : State)

def setPhase (call : ℕ) (phase : Phase) : State :=
  { s with phase := Function.update s.phase call phase }

/-- All that the transport has taken. -/
def stream : Bytes := s.accepted.flatMap Prod.snd

/-! ## `WriteFlowControl` -/

/-- `if not waiter.done()`: the waiter gets its result. -/
def complete (waiter : Future) (s : State) (call : ℕ) : State :=
  match s.phase call with
  | .waiting data .pending mustCancel =>
    { s with ready := s.ready ++ [Handle.removeWaiter call, Handle.step call] }.setPhase call
      (.waiting data waiter mustCancel)
  | _ => s

/-- `for waiter in self.__drain_waiters`. -/
def completeAll (waiter : Future) : State := s.flow.drainWaiters.foldl (complete waiter) s

def pauseWriting : State := { s with flow := { s.flow with writePaused := true } }

def resumeWriting : State :=
  { s with flow := { s.flow with writePaused := false } }.completeAll .result

/-- `connection_lost`; without an exception the waiters get `ECONNRESET`. -/
def connectionLost (exc : Option String) : State :=
  if s.flow.connectionLost then s
  else { s with flow := { s.flow with
    writePaused := false
    connectionLost := true
    connectionLostException := exc } }.completeAll (.exception exc)

/-- `drain`, after `coro_yield()`. -/
def drainOpen (call : ℕ) (data : Bytes) : State :=
  if s.flow.connectionLost then
    s.setPhase call (.ended data (.connectionLost s.flow.connectionLostException))
  else if s.flow.writePaused then
    { s with flow := { s.flow with drainWaiters := s.flow.drainWaiters ++ [call] } }.setPhase call
      (.waiting data .pending false)
  else s.setPhase call (.ended data .returned)

/-- `drain`, up to the first suspension. -/
def drain (call : ℕ) (data : Bytes) : State :=
  if s.closing then
    { s with ready := s.ready ++ [Handle.step call] }.setPhase call (.yielding data false)
  else s.drainOpen call data

/-! ## The transport -/

/-- `_maybe_pause_protocol`; the high water is 0. -/
def maybePauseProtocol : State :=
  if s.buffer = [] then s
  else if s.protocolPaused then s
  else { s with protocolPaused := true }.pauseWriting

/-- `_maybe_resume_protocol`; the low water is 0. -/
def maybeResumeProtocol : State :=
  if s.protocolPaused ∧ s.buffer = [] then { s with protocolPaused := false }.resumeWriting
  else s

/-- `_force_close`. -/
def forceClose (exc : Option String) : State :=
  if s.connLost then s
  else { s with
    buffer := []
    closing := true
    connLost := true
    ready := s.ready ++ [.connectionLost exc] }

/-- `_call_connection_lost`. -/
def callConnectionLost (exc : Option String) : State :=
  { s.connectionLost exc with noSocket := true }

/-- `write`, after the tests of its argument: what a call leaves to be written. -/
def writeRest (call : ℕ) (data rest : Bytes) : State :=
  { s with
    buffer := s.buffer ++ rest
    accepted := s.accepted ++ [(call, data)] }.maybePauseProtocol

/-- `write`; what the transport takes is recorded for the call. -/
def write (call : ℕ) (data : Bytes) (send : Send) : Except Outcome State :=
  if s.eof then .error .eofWritten
  else if data = [] then .ok { s with accepted := s.accepted ++ [(call, data)] }
  else if s.connLost then .ok s
  else if s.buffer ≠ [] then .ok (s.writeRest call data data)
  else if s.noSocket then .error .noSocket
  else match send with
    | .takes n => .ok ({ s with sent := s.sent ++ data.take n }.writeRest call data (data.drop n))
    | .raises exc => .ok (s.forceClose (some exc))

/-- `_write_ready`. -/
def writeReady : Send → State
  | .takes n =>
    let s := { s with sent := s.sent ++ s.buffer.take n, buffer := s.buffer.drop n }.maybeResumeProtocol
    if s.buffer ≠ [] then s
    else if s.closing then s.callConnectionLost none
    else if s.eof then { s with shutdown := true }
    else s
  | .raises exc => { s with buffer := [] }.forceClose (some exc)

/-- `write_eof`. -/
def writeEof : State :=
  if s.closing ∨ s.eof then s
  else if s.buffer = [] then { s with eof := true, shutdown := true }
  else { s with eof := true }

/-- `close`. -/
def close : State :=
  if s.closing then s
  else if s.buffer = [] then
    { s with closing := true, connLost := true, ready := s.ready ++ [.connectionLost none] }
  else { s with closing := true }

/-! ## The adapter -/

/-- `send_all`, up to the first suspension. -/
def sendAll (data : Bytes) (send : Send) : State :=
  let call := s.calls
  let s := { s with calls := s.calls + 1 }
  match s.write call data send with
  | .error outcome => s.setPhase call (.ended data outcome)
  | .ok s => s.drain call data

/-- `aclose`, up to the wait for the protocol. -/
def aclose : State := if s.closing then s else s.writeEof.close

/-- The task of a call goes on. -/
def goOn (call : ℕ) : State :=
  match s.phase call with
  | .yielding data mustCancel =>
    if mustCancel then s.setPhase call (.ended data .cancelled) else s.drainOpen call data
  | .waiting data waiter mustCancel =>
    if mustCancel then s.setPhase call (.ended data .cancelled)
    else match waiter with
      | .pending => s
      | .result => s.setPhase call (.ended data .returned)
      | .exception exc => s.setPhase call (.ended data (.connectionLost exc))
      | .cancelled => s.setPhase call (.ended data .cancelled)
  | _ => s

/-- `cancel()` of the task of a call. -/
def cancel (call : ℕ) : State :=
  match s.phase call with
  | .yielding data _ => s.setPhase call (.yielding data true)
  | .waiting _ .pending _ => s.complete .cancelled call
  | .waiting data waiter _ => s.setPhase call (.waiting data waiter true)
  | _ => s

/-- The loop runs a callback. -/
def runHandle : Handle → State
  | .connectionLost exc => s.callConnectionLost exc
  | .removeWaiter call =>
    { s with flow := { s.flow with drainWaiters := s.flow.drainWaiters.erase call } }
  | .step call => s.goOn call

end State

inductive Action where
  /-- a task calls `send_all(data)`; if the transport tries the socket, this is its answer -/
  | sendAll (data : Bytes) (send : Send)
  /-- the socket can be written -/
  | writeReady (send : Send)
  /-- `write_eof()`, by `send_eof()` -/
  | writeEof
  | aclose
  /-- the transport is closed otherwise -/
  | close
  /-- the other side has reset the connection, or the transport fails otherwise -/
  | fatalError (exc : String)
  | cancel (call : ℕ)
  /-- the loop runs the first callback -/
  | run
  deriving DecidableEq, Repr

/-- One step of an interleaving. -/
def step (s : State) : Action → Option State
  | .sendAll data send => some (s.sendAll data send)
  | .writeReady send =>
    -- there is a writer as long as something is buffered
    if s.buffer ≠ [] ∧ s.noSocket = false then some (s.writeReady send) else none
  | .writeEof => some s.writeEof
  | .aclose => some s.aclose
  | .close => some s.close
  | .fatalError exc => if s.noSocket then none else some (s.forceClose (some exc))
  | .cancel call => some (s.cancel call)
  | .run =>
    match s.ready with
    | [] => none
    | handle :: ready => some ({ s with ready }.runHandle handle)

end WriteFlow

end EasyNetwork
