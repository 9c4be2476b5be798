/-
  The coroutine of a client of `AsyncStreamServer` and its request receivers
  (`lowlevel/api_async/servers/stream.py`).

  The coroutine gives the requests to a generator, which says how long it waits for the next one.
  `_RequestReceiver` and `_BufferedRequestReceiver` have the same loop, over different consumers:
  `State.next` is given by a `Feeder`, as the receivers of an endpoint are.  The timeout is a
  `CancelScope` around one call of `next`, and expires as the scopes of a task do.
-/
import EasyNetwork.CancelScope
import EasyNetwork.StreamEndpoint

namespace EasyNetwork

namespace StreamServer

open AsyncioTask

variable {σ P ι E : Type}

/-- What is thrown into the generator, or ends the coroutine. -/
inductive Raised (P ι E : Type) where
  /-- what the consumer raises -/
  | consumer (r : NextResult P ι)
  | timeoutError
  | cancelledError (msg : CancelMessage)
  /-- what `transport.recv()` raises -/
  | transport (exc : E)
  /-- of `validate_optional_timeout_delay` -/
  | invalidDelay (exc : TransportError)
  | stopAsyncIteration
  deriving DecidableEq

/-- How the generator is resumed. -/
inductive Resumption (P ι E : Type) where
  | asend (request : P)
  | athrow (exc : Raised P ι E)
  deriving DecidableEq

/-- The request or the error of the consumer. -/
def Resumption.result? : Resumption P ι E → Option (NextResult P ι)
  | .asend request => some (.packet request)
  | .athrow (.consumer r) => some r
  | .athrow _ => none

inductive Generator where
  /-- its code runs, or is suspended in an `await` -/
  | running
  /-- it has yielded -/
  | suspended
  | closed
  deriving DecidableEq

/-- Where the coroutine is. -/
inductive Point (P : Type) where
  /-- in `anext()`, `asend()` or `athrow()` -/
  | generator
  /-- in `cancel_shielded_coro_yield()`, with a request and in this timeout scope -/
  | shieldedYield (scope : Option ℕ) (request : P)
  /-- in `transport.recv()` or `transport.recv_into()` -/
  | recv (scope : Option ℕ) (buffer : WriteBuffer)
  /-- in `aclose()` of the generator; the transport is closed gracefully afterwards, or is not -/
  | aclose (graceful : Bool)
  | ended (graceful : Bool)
  deriving DecidableEq

structure State (σ P ι E : Type) where
  /-- the task and its cancel scopes -/
  scopes : CancelScope.State
  consumer : σ
  point : Point P := .generator
  generator : Generator := .running
  /-- `transport.is_closing()` -/
  isClosing : Bool := false
  /-- what the transport has given -/
  chunks : List Bytes := []
  /-- how often the generator has yielded -/
  yields : ℕ := 0
  resumptions : List (Resumption P ι E) := []

/-- The task has been started, and calls `anext()` of the generator. -/
def State.init (clears : Bool) (consumer : σ) : State σ P ι E :=
  { scopes := .init clears, consumer := consumer }

inductive Action (E : Type) where
  /-- the task is cancelled, or a scope is; or the event loop runs -/
  | loop (a : CancelScope.Action)
  /-- the event loop starts the next step of the task -/
  | resume
  /-- what the generator or the transport does with the task -/
  | code (a : CancelScope.Action)
  /-- the generator yields; if the timeout is finite, it is the one of the scope `i`, and perhaps
      has expired when this is entered -/
  | generatorYields (timeout : Delay) (i : ℕ) (expired : Bool)
  | generatorStops
  | generatorRaises
  /-- `transport.recv()` returns -/
  | received (chunk : Bytes)
  | endOfStream
  /-- it raises; the filter says whether this is a disconnection -/
  | recvRaises (exc : E) (disconnected : Bool)
  /-- the transport is closing -/
  | close

/-- What happens while the code of the task does not run, or is done by others. -/
def isLoop : CancelScope.Action → Bool
  | .cancelTask _ | .cancelScope _ _ | .retry _ | .settle | .runDelayed => true
  | _ => false

/-- A task awaits something, with or without a shield. -/
def isAwait : CancelScope.Action → Bool
  | .await _ | .coroYield _ | .shieldAgain | .shieldDone _ | .checkPendingCancellation => true
  | _ => false

/-- A task enters or exits a scope. -/
def isScope : CancelScope.Action → Bool
  | .enter _ | .exit _ => true
  | _ => false

/-- The result of `consumer.next()`, returned or raised. -/
def ofNext : NextResult P ι → Except (Raised P ι E) P
  | .packet request => .ok request
  | r => .error (.consumer r)

/-- What `__exit__` of a scope reads of an exception. -/
def leaf : Raised P ι E → CancelScope.Leaf
  | .cancelledError msg => .cancelledError [msg]
  | _ => .other

/-- The exception with which a scope is exited. -/
def leaves : Except (Raised P ι E) P → Option (List CancelScope.Leaf)
  | .ok _ => none
  | .error exc => some [leaf exc]

section
variable (s : State σ P ι E)

namespace State

/-- The code of the task runs, and is not in a shielded await. -/
def Running : Prop := s.scopes.task.waiter = .running ∧ s.scopes.shield = none

instance : Decidable s.Running := inferInstanceAs (Decidable (_ ∧ _))

/-- `finally: await request_handler_generator.aclose()`. -/
def aclose (graceful : Bool) : State σ P ι E :=
  match s.generator with
  | .closed => { s with point := .ended graceful }
  | _ => { s with point := .aclose graceful, generator := .running }

/-- `asend()` or `athrow()`. -/
def resumeGenerator (r : Resumption P ι E) : State σ P ι E :=
  { s with point := .generator, generator := .running, resumptions := s.resumptions ++ [r] }

/-- The end of `with timeout_scope`. -/
def exitScope (r : Except (Raised P ι E) P) :
    Option ℕ → Except (Raised P ι E) P × State σ P ι E
  | none => (r, s)
  | some i =>
    let (suppressed, scopes) := s.scopes.exit i s.scopes.stack.tail (leaves r)
    let s := { s with scopes := scopes }
    if suppressed && (scopes.scopes i).cancelledCaught then (.error .timeoutError, s) else (r, s)

/-- `_next_packet()` has ended: the end of the scope, and the generator. -/
def finish (scope : Option ℕ) (r : Except (Raised P ι E) P) : State σ P ι E :=
  let (r, s) := s.exitScope r scope
  match r with
  | .ok request => s.resumeGenerator (.asend request)
  | .error .stopAsyncIteration => s.aclose true
  | .error exc => s.resumeGenerator (.athrow exc)

variable (f : Feeder σ Bytes WriteBuffer (NextResult P ι))

/-- `while True` of `next`, up to the next read. -/
def read (scope : Option ℕ) : State σ P ι E :=
  match f.offer s.consumer with
  | (.ok buffer, consumer) => { s with consumer := consumer, point := .recv scope buffer }
  | (.error r, consumer) => { s with consumer := consumer }.finish scope (ofNext r)

/-- `_RequestReceiver.next` or `_BufferedRequestReceiver.next`, up to the first suspension. -/
def next (scope : Option ℕ) : State σ P ι E :=
  match f.take s.consumer with
  | (some r, consumer) =>
    match ofNext r with
    | .ok request =>
      { s with
        consumer := consumer
        point := .shieldedYield scope request
        scopes := { s.scopes with task := s.scopes.task.coroYield, shield := some none } }
    | .error exc => { s with consumer := consumer }.finish scope (.error exc)
  | (none, consumer) => { s with consumer := consumer }.read f scope

/-- The transport has given a chunk. -/
def received (scope : Option ℕ) (buffer : WriteBuffer) (chunk : Bytes) : State σ P ι E :=
  let s := { s with chunks := s.chunks ++ [chunk] }
  match f.give s.consumer buffer chunk with
  | (some r, consumer) => { s with consumer := consumer }.finish scope (ofNext r)
  | (none, consumer) => { s with consumer := consumer }.read f scope

/-- `while not _transport_is_closing()`, with the parameters that the generator has yielded. -/
def serve (timeout : Delay) (i : ℕ) (expired : Bool) : Option (State σ P ι E) :=
  if s.isClosing then some (s.aclose false)
  else match validateTimeoutDelay timeout true with
    | .error exc => some (s.resumeGenerator (.athrow (.invalidDelay exc)))
    | .ok timeout =>
      if timeout = ⊤ then some (s.next f none)
      else
        let deadline := if expired then [.cancelScope i (some "deadline exceeded")] else []
        (Trans.run CancelScope.step s.scopes (.enter i :: deadline)).map fun scopes =>
          { s with scopes := scopes }.next f (some i)

end State

end

/-- One step. -/
def step (f : Feeder σ Bytes WriteBuffer (NextResult P ι)) (s : State σ P ι E) :
    Action E → Option (State σ P ι E)
  | .loop a =>
    if isLoop a then (CancelScope.step s.scopes a).map fun scopes => { s with scopes := scopes }
    else none
  | .code a =>
    match s.point with
    | .generator | .aclose _ =>
      if isAwait a || isScope a then
        (CancelScope.step s.scopes a).map fun scopes => { s with scopes := scopes }
      else none
    | .recv _ _ =>
      if isAwait a then
        (CancelScope.step s.scopes a).map fun scopes => { s with scopes := scopes }
      else none
    | _ => none
  | .resume =>
    match s.point with
    | .generator | .aclose _ =>
      (CancelScope.step s.scopes .resume).map fun scopes => { s with scopes := scopes }
    | .recv scope _ =>
      (CancelScope.step s.scopes .resume).map fun scopes =>
        match scopes.raised with
        -- the read is cancelled, and has consumed nothing
        | some msg => { s with scopes := scopes }.finish scope (.error (.cancelledError msg))
        | none => { s with scopes := scopes }
    | .shieldedYield scope request =>
      (Trans.run CancelScope.step s.scopes [.resume, .shieldDone false]).map fun scopes =>
        { s with scopes := scopes }.finish scope (.ok request)
    | .ended _ => none
  | .generatorYields timeout i expired =>
    if s.Running then
      match s.point with
      | .generator =>
        if s.scopes.stack = [] then
          { s with generator := .suspended, yields := s.yields + 1 }.serve f timeout i expired
        else none
      -- `RuntimeError: async generator ignored GeneratorExit`
      | .aclose graceful => some { s with generator := .closed, point := .ended graceful }
      | _ => none
    else none
  | .generatorStops =>
    if s.Running then
      match s.point with
      -- the first `StopAsyncIteration`, of `anext()`, is caught for itself
      | .generator => some ({ s with generator := .closed }.aclose (s.yields != 0))
      | .aclose graceful => some { s with generator := .closed, point := .ended graceful }
      | _ => none
    else none
  | .generatorRaises =>
    if s.Running then
      match s.point with
      | .generator => some ({ s with generator := .closed }.aclose false)
      | .aclose graceful => some { s with generator := .closed, point := .ended graceful }
      | _ => none
    else none
  | .received chunk =>
    match s.point with
    | .recv scope buffer =>
      if s.Running ∧ chunk ≠ [] ∧ chunk.length ≤ buffer.nbytes then
        some (s.received f scope buffer chunk)
      else none
    | _ => none
  | .endOfStream =>
    match s.point with
    | .recv scope _ =>
      if s.Running then some (s.finish scope (.error .stopAsyncIteration)) else none
    | _ => none
  | .recvRaises exc disconnected =>
    match s.point with
    | .recv scope _ =>
      if s.Running then
        some (s.finish scope (.error (if disconnected then .stopAsyncIteration
          else .transport exc)))
      else none
    | _ => none
  | .close => some { s with isClosing := true }

/-- The requests and the errors of the consumer with which the generator has been resumed. -/
def State.results (s : State σ P ι E) : List (NextResult P ι) :=
  s.resumptions.filterMap Resumption.result?

/-- The request that is still to be sent. -/
def State.held (s : State σ P ι E) : List (NextResult P ι) :=
  match s.point with
  | .shieldedYield _ request => [.packet request]
  | _ => []

end StreamServer

end EasyNetwork
