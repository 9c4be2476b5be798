/-
  TLS over a stream transport (`AsyncTLSStreamTransport` in `api_async/transports/tls.py`).

  Any number of calls of `send_all()`, `send_all_from_iterable()`, `recv()`, `recv_into()`, and the
  `unwrap()` of `aclose()` run `_retry_ssl_method` concurrently.  A call is suspended while it waits
  for one of the two locks, and in the operations of the transport; from one suspension point to the
  next, no other call runs.  What `aclose()` does after the `unwrap()` is left out.

  The SSL object may do anything in any call that its interface allows: it accepts a part of what is
  written, asks for more ciphertext or for room, or fails, and it appends ciphertext to the write
  BIO.
-/
import EasyNetwork.Exceptions
import EasyNetwork.Lib.QueueLock
import EasyNetwork.Lib.Trans
import Mathlib.Logic.Function.Basic

namespace EasyNetwork

namespace Tls

/-! ## The SSL object -/

/-- What a call of a method of the SSL object ends with. -/
inductive SslOutcome where
  | done
  | wantRead
  | wantWrite
  | error
  deriving DecidableEq, Repr

/-- What a call of `ssl_object.write(data)` ends with. -/
inductive Write where
  | accepts (nbytes : ℕ)
  | raises (outcome : SslOutcome)
  deriving DecidableEq, Repr

/-- The result of `__write_all_to_ssl_object`: the backlog that is left, the plaintext that has been
    accepted, and the ciphertext that has been appended. -/
structure WriteAll where
  backlog : List Bytes
  written : Bytes
  cipher : Bytes
  outcome : SslOutcome

/-- `__write_all_to_ssl_object`; the list has an entry for each call of `write`, with the ciphertext
    that it appends.  A non-empty prefix of what is written is accepted.  `none` if the entries do
    not fit the calls. -/
def writeAllToSslObject : List Bytes → List (Write × Bytes) → Option WriteAll
  | [], [] => some { backlog := [], written := [], cipher := [], outcome := .done }
  | data :: writeBacklog, (.accepts sent, cipher) :: writes =>
    if sent ≤ data.length ∧ (sent = 0 → data = []) then
      let writeBacklog :=
        if sent < data.length then data.drop sent :: writeBacklog else writeBacklog
      (writeAllToSslObject writeBacklog writes).map fun r => { r with
        written := data.take sent ++ r.written
        cipher := cipher ++ r.cipher }
    else none
  | data :: writeBacklog, [(.raises outcome, cipher)] =>
    if outcome = .done then none
    else some { backlog := data :: writeBacklog, written := [], cipher, outcome }
  | _, _ => none

/-- What the SSL object does when a method is called on it. -/
inductive Ssl where
  /-- `read` or `unwrap` -/
  | call (outcome : SslOutcome) (cipher : Bytes)
  /-- the calls of `write` -/
  | writes (writes : List (Write × Bytes))
  deriving DecidableEq, Repr

/-! ## The transport -/

inductive Method where
  /-- `recv` and `recv_into` -/
  | read
  /-- `send_all` and `send_all_from_iterable` -/
  | writeAll
  /-- the `unwrap` of `aclose` -/
  | unwrap
  deriving DecidableEq, Repr

/-- Why the write BIO is flushed. -/
inductive Why where
  | wantRead
  | wantWrite
  | done
  deriving DecidableEq, Repr

/-- Where a call is. -/
inductive Phase where
  | notCalled
  /-- waits for the send lock -/
  | waitSend (method : Method) (why : Why)
  /-- in the transport's `send_all(data)` -/
  | sending (method : Method) (why : Why) (data : Bytes)
  /-- waits for the receive lock -/
  | waitRecv (method : Method)
  /-- in the transport's `recv_into()` -/
  | receiving (method : Method)
  | returned (method : Method)
  | raised
  deriving DecidableEq, Repr

structure State where
  /-- the calls that have been made, numbered in this order -/
  calls : ℕ := 0
  phase : ℕ → Phase := fun _ => .notCalled
  /-- `_data_deque` -/
  backlog : List Bytes := []
  /-- what is pending in the write BIO -/
  writeBio : Bytes := []
  sendLock : QueueLock := {}
  recvLock : QueueLock := {}
  closing : Bool := false
  /-- the plaintext that the send calls have queued -/
  queued : Bytes := []
  /-- the plaintext that `ssl_object.write` has accepted -/
  written : Bytes := []
  /-- the ciphertext that has been appended to the write BIO -/
  cipher : Bytes := []
  /-- what the transport's `send_all` has been called with -/
  sent : List Bytes := []
  /-- the part of it whose call has returned -/
  completed : Bytes := []
  /-- for each call, where its plaintext ends in `queued` -/
  position : ℕ → ℕ := fun _ => 0
  /-- for each call, how much ciphertext there was after its last SSL call -/
  mark : ℕ → ℕ := fun _ => 0
  /-- for each call, whether another one has fed the read BIO since its last SSL call -/
  stale : ℕ → Bool := fun _ => false
  /-- for each call of the transport's `recv_into()`, whether its caller was stale -/
  reads : List Bool := []

namespace State

def setPhase (s : State) (call : ℕ) (phase : Phase) : State :=
  { s with phase := Function.update s.phase call phase }

/-- A method of the SSL object is called. -/
def sslCall (s : State) (method : Method) (ssl : Ssl) : Option (SslOutcome × State) :=
  match method, ssl with
  | .writeAll, .writes writes =>
    (writeAllToSslObject s.backlog writes).map fun r => (r.outcome, { s with
      backlog := r.backlog
      written := s.written ++ r.written
      writeBio := s.writeBio ++ r.cipher
      cipher := s.cipher ++ r.cipher })
  | .writeAll, .call _ _ => none
  | _, .call outcome cipher => some (outcome, { s with
      writeBio := s.writeBio ++ cipher
      cipher := s.cipher ++ cipher })
  | _, .writes _ => none

/-- `__incoming_reader.readinto()`, with the receive lock. -/
def readinto (s : State) (call : ℕ) (method : Method) : State :=
  { s with reads := s.reads ++ [s.stale call] }.setPhase call (.receiving method)

/-- The receive lock is asked for. -/
def acquireRecv (s : State) (call : ℕ) (method : Method) : State :=
  match s.recvLock.acquire call with
  | (recvLock, true) => { s with recvLock }.readinto call method
  | (recvLock, false) => { s with recvLock }.setPhase call (.waitRecv method)

/-- The write BIO has been flushed, and the send lock is released; not for `SSLWantWriteError`. -/
def flushed (s : State) (call : ℕ) (method : Method) : Why → State
  | .wantRead => s.acquireRecv call method
  | .wantWrite => s
  | .done => s.setPhase call (.returned method)

/-- With the send lock: what is pending is sent, if there is anything.  After `SSLWantWriteError` it
    is sent in any case. -/
def flush (s : State) (call : ℕ) (method : Method) (why : Why) : State :=
  if why = .wantWrite ∨ s.writeBio ≠ [] then
    { s with sent := s.sent ++ [s.writeBio], writeBio := [] }.setPhase call
      (.sending method why s.writeBio)
  else { s with sendLock := s.sendLock.release }.flushed call method why

/-- The send lock is asked for. -/
def acquireSend (s : State) (call : ℕ) (method : Method) (why : Why) : State :=
  match s.sendLock.acquire call with
  | (sendLock, true) => { s with sendLock }.flush call method why
  | (sendLock, false) => { s with sendLock }.setPhase call (.waitSend method why)

/-- One round of `_retry_ssl_method`, up to its next suspension point. -/
def retrySslMethod (s : State) (call : ℕ) (method : Method) (ssl : Ssl) : Option State :=
  (s.sslCall method ssl).map fun (outcome, s) =>
    let s := { s with
      mark := Function.update s.mark call s.cipher.length
      stale := Function.update s.stale call false }
    match outcome with
    | .done => s.acquireSend call method .done
    | .wantRead => s.acquireSend call method .wantRead
    | .wantWrite => s.acquireSend call method .wantWrite
    | .error => s.setPhase call .raised

/-- A call is made; a send call has queued its data. -/
def enter (s : State) (method : Method) (data : List Bytes) : State :=
  { s with
    calls := s.calls + 1
    closing := s.closing || decide (method = .unwrap)
    backlog := s.backlog ++ data
    queued := s.queued ++ data.flatten
    position := Function.update s.position s.calls (s.queued ++ data.flatten).length }

/-- The read BIO is fed by a call. -/
def feed (s : State) (call : ℕ) (data : Bytes) : State :=
  { s with stale := fun c => s.stale c || decide (c ≠ call ∧ data ≠ []) }

end State

inductive Action where
  /-- a method is called, a send method with its data, and the SSL object is called -/
  | call (method : Method) (data : List Bytes) (ssl : Ssl)
  /-- a call gets the send lock -/
  | grantSend (call : ℕ)
  /-- the transport's `send_all()` returns; after `SSLWantWriteError` the SSL object is called -/
  | sendDone (call : ℕ) (ssl : Ssl)
  /-- a call gets the receive lock -/
  | grantRecv (call : ℕ)
  /-- the transport's `recv_into()` returns, with no data at the end of the stream; the read BIO is
      fed, and the SSL object is called -/
  | received (call : ℕ) (data : Bytes) (ssl : Ssl)
  /-- the transport raises an exception, or the call is cancelled -/
  | fail (call : ℕ)
  deriving DecidableEq, Repr

/-- The transport fails, or a call is cancelled. -/
def Action.fails : Action → Bool
  | .fail _ => true
  | _ => false

/-- One step of an interleaving. -/
def step (s : State) : Action → Option State
  | .call method data ssl =>
    if s.closing then
      match method with
      | .writeAll => some ({ s with calls := s.calls + 1 }.setPhase s.calls .raised)
      | .read => (s.enter .read []).retrySslMethod s.calls .read ssl
      | .unwrap => none
    else
      match method with
      | .writeAll => (s.enter .writeAll data).retrySslMethod s.calls .writeAll ssl
      | .read => (s.enter .read []).retrySslMethod s.calls .read ssl
      | .unwrap => (s.enter .unwrap []).retrySslMethod s.calls .unwrap ssl
  | .grantSend call =>
    match s.phase call with
    | .waitSend method why =>
      (s.sendLock.grant call).map fun sendLock => { s with sendLock }.flush call method why
    | _ => none
  | .sendDone call ssl =>
    match s.phase call with
    | .sending method why data =>
      let s := { s with completed := s.completed ++ data, sendLock := s.sendLock.release }
      match why with
      | .wantWrite => s.retrySslMethod call method ssl
      | why => some (s.flushed call method why)
    | _ => none
  | .grantRecv call =>
    match s.phase call with
    | .waitRecv method =>
      (s.recvLock.grant call).map fun recvLock => { s with recvLock }.readinto call method
    | _ => none
  | .received call data ssl =>
    match s.phase call with
    | .receiving method =>
      ({ s with recvLock := s.recvLock.release }.feed call data).retrySslMethod call method ssl
    | _ => none
  | .fail call =>
    match s.phase call with
    | .waitSend _ _ => some ({ s with sendLock := s.sendLock.leave call }.setPhase call .raised)
    | .sending _ _ _ => some ({ s with sendLock := s.sendLock.release }.setPhase call .raised)
    | .waitRecv _ => some ({ s with recvLock := s.recvLock.leave call }.setPhase call .raised)
    | .receiving _ => some ({ s with recvLock := s.recvLock.release }.setPhase call .raised)
    | _ => none

end Tls

end EasyNetwork
