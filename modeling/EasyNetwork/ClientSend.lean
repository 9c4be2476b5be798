/-
  Sending on a stream connection (`clients/async_tcp.py`, `lowlevel/api_async/endpoints/stream.py`).

  `send_packet()` and `send_eof()` of a client take a fair lock, wait for the connection, enter the
  guard of the endpoint, and hand the chunks of the packet over to the transport.  The transport joins
  them first, and then accepts the bytes piece by piece.  Any number of calls are interleaved; a call
  is suspended while it waits for the lock, in `connect()` and in the transport, and there a
  cancellation may be thrown into it.

  The calls of the lock are the calls of the client, with the same numbers.
-/
import EasyNetwork.FairLock
import EasyNetwork.Exceptions

namespace EasyNetwork

/-- `generate_chunks` of a stream protocol, run to the end; without a converter,
    `convert_to_dto_packet` is `.ok`. -/
def generateChunks {Q P ε : Type} (convertToDtoPacket : Q → Except ε P)
    (incrementalSerialize : P → Except ε (List Bytes)) (packet : Q) : Except ε (List Bytes) :=
  convertToDtoPacket packet >>= incrementalSerialize

/-- `StreamDataProducer.generate`, run to the end. -/
def StreamDataProducer.generate {Q ε : Type} (generateChunks : Q → Except ε (List Bytes))
    (packet : Q) : Except String (List Bytes) :=
  (generateChunks packet).mapError fun _ => "protocol.generate_chunks() crashed"

namespace ClientSend

inductive Method (Q : Type) where
  | sendPacket (packet : Q)
  | sendEof
  deriving DecidableEq, Repr

/-- How a call ends. -/
inductive Outcome where
  | returned
  | cancelled
  | busyResource
  /-- any other exception -/
  | raised
  deriving DecidableEq, Repr

/-- Where a call is. -/
inductive Phase (Q : Type) where
  | notCalled
  | waitLock (method : Method Q)
  /-- in `connect()` -/
  | connecting (method : Method Q)
  /-- in the transport's `send_all_from_iterable()`, with the bytes that it has not accepted yet -/
  | sending (packet : Q) (rest : Bytes)
  /-- in the transport's `send_eof()` -/
  | sendingEof
  | ended (method : Method Q) (outcome : Outcome)
  deriving DecidableEq, Repr

/-- How `connect()` ends. -/
inductive Connect where
  | connected
  | clientClosed
  | raised
  deriving DecidableEq, Repr

structure State (Q : Type) where
  lock : FairLock.State := {}
  phase : ℕ → Phase Q := fun _ => .notCalled
  /-- `ResourceGuard.__held` of the endpoint's send guard -/
  held : Bool := false
  /-- `__eof_sent` of the endpoint -/
  eofSent : Bool := false
  /-- what the transport has accepted from each call that has reached it -/
  accepted : List (ℕ × Bytes) := []
  /-- the write end of the transport has been closed, which accepts nothing more -/
  eof : Bool := false

namespace State
variable {Q : Type}

/-- All that the transport has accepted. -/
def stream (s : State Q) : Bytes := s.accepted.flatMap Prod.snd

def setPhase (s : State Q) (call : ℕ) (phase : Phase Q) : State Q :=
  { s with phase := Function.update s.phase call phase }

/-- `__aexit__` of the lock; the call ends. -/
def leave (s : State Q) (call : ℕ) (method : Method Q) (outcome : Outcome) : State Q :=
  { s with lock := (FairLock.step s.lock (.release call)).getD s.lock }.setPhase call
    (.ended method outcome)

/-- `__exit__` of the guard, and then of the lock. -/
def leaveGuard (s : State Q) (call : ℕ) (method : Method Q) (outcome : Outcome) : State Q :=
  { s with held := false }.leave call method outcome

/-- `endpoint.send_packet()` up to the transport. -/
def enterSendPacket (generate : Q → Except String (List Bytes)) (s : State Q) (call : ℕ)
    (packet : Q) : State Q :=
  if s.held then s.leave call (.sendPacket packet) .busyResource
  else if s.eofSent then s.leave call (.sendPacket packet) .raised
  else match generate packet with
    | .error _ => s.leave call (.sendPacket packet) .raised
    | .ok chunks =>
      { s with held := true, accepted := s.accepted ++ [(call, [])] }.setPhase call
        (.sending packet chunks.flatten)

/-- `endpoint.send_eof()` up to the transport. -/
def enterSendEof (s : State Q) (call : ℕ) : State Q :=
  if s.held then s.leave call .sendEof .busyResource
  else if s.eofSent then s.leave call .sendEof .returned
  else { s with held := true }.setPhase call .sendingEof

/-- After `connect()`. -/
def connected (generate : Q → Except String (List Bytes)) (s : State Q) (call : ℕ) :
    Method Q → Connect → State Q
  | .sendPacket packet, .connected => s.enterSendPacket generate call packet
  | .sendEof, .connected => s.enterSendEof call
  | .sendEof, .clientClosed => s.leave call .sendEof .returned
  | method, _ => s.leave call method .raised

/-- The bytes are added to those of the call. -/
def extend (call : ℕ) (bytes : Bytes) (x : ℕ × Bytes) : ℕ × Bytes :=
  if x.1 = call then (x.1, x.2 ++ bytes) else x

/-- The transport accepts the first `n` bytes of what the call still has to send. -/
def accept (s : State Q) (call : ℕ) (packet : Q) (rest : Bytes) (n : ℕ) : State Q :=
  { s with accepted := s.accepted.map (extend call (rest.take n)) }.setPhase call
    (.sending packet (rest.drop n))

end State

inductive Action (Q : Type) where
  | call (method : Method Q)
  /-- a waiting call gets the lock -/
  | wake (call : ℕ)
  | connect (call : ℕ) (result : Connect)
  /-- the transport accepts some bytes -/
  | accept (call n : ℕ)
  /-- the transport closes its write end -/
  | shutdown (call : ℕ)
  /-- the method of the transport, and what follows it, ends, or raises an exception -/
  | done (call : ℕ) (raises : Bool)
  /-- a cancellation is thrown into the call -/
  | throw (call : ℕ)
  deriving DecidableEq, Repr

/-- One step of an interleaving. -/
def step {Q : Type} (generate : Q → Except String (List Bytes)) (s : State Q) :
    Action Q → Option (State Q)
  | .call method =>
    (FairLock.step s.lock .acquire).map fun lock =>
      let call := s.lock.calls
      let s := { s with lock }
      if lock.status call = .holding then s.setPhase call (.connecting method)
      else s.setPhase call (.waitLock method)
  | .wake call =>
    match s.phase call with
    | .waitLock method =>
      (FairLock.step s.lock (.wake call)).map fun lock =>
        { s with lock }.setPhase call (.connecting method)
    | _ => none
  | .connect call result =>
    match s.phase call with
    | .connecting method => some (s.connected generate call method result)
    | _ => none
  | .accept call n =>
    match s.phase call with
    | .sending packet rest =>
      if s.eof = false ∧ 0 < n ∧ n ≤ rest.length then some (s.accept call packet rest n) else none
    | _ => none
  | .shutdown call =>
    match s.phase call with
    | .sendingEof => some { s with eof := true }
    | _ => none
  | .done call raises =>
    match s.phase call with
    | .sending packet rest =>
      if raises then some (s.leaveGuard call (.sendPacket packet) .raised)
      else if rest = [] then some (s.leaveGuard call (.sendPacket packet) .returned)
      else none
    | .sendingEof =>
      if raises then some (s.leaveGuard call .sendEof .raised)
      else if s.eof then some ({ s with eofSent := true }.leaveGuard call .sendEof .returned)
      else none
    | _ => none
  | .throw call =>
    match s.phase call with
    | .waitLock method =>
      (Trans.run FairLock.step s.lock [.cancel call, .throw call]).map fun lock =>
        { s with lock }.setPhase call (.ended method .cancelled)
    | .connecting method => some (s.leave call method .cancelled)
    | .sending packet _ => some (s.leaveGuard call (.sendPacket packet) .cancelled)
    | .sendingEof => some (s.leaveGuard call .sendEof .cancelled)
    | _ => none

end ClientSend

end EasyNetwork
