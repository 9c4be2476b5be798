/-
  Receiving packets from a stream transport (`_DataReceiverImpl` and `_BufferedReceiverImpl` in
  `lowlevel/api_sync/endpoints/stream.py`).

  Both have the same loop, over different consumers: `receive` is given by a `Feeder`, and the two
  receivers are its instances.  `step` follows the calls of `recv_packet()` and the answers of the
  transport: each read gives from 1 to `nbytes` bytes, ends the stream, or raises `TimeoutError`.

  The receivers of `lowlevel/api_async/endpoints/stream.py` are the same loops without a timeout
  (the delay `⊤`).  What ends a read there is a cancellation, by a timeout of the caller or not, and it
  consumes nothing: this is `timesOut`.

  `recv_packet_undisturbed`: whatever the timeouts, the calls give what the chunks give that have been
  received, and the consumer holds the rest; and after the end of the stream no call reads.
-/
import EasyNetwork.Lib.Feeding
import EasyNetwork.Lib.Trans
import EasyNetwork.Selector
import EasyNetwork.Stream

namespace EasyNetwork

/-- What `next` gives, unless it raises `StopIteration`. -/
def NextResult.result? {P ι : Type} : NextResult P ι → Option (NextResult P ι)
  | .stopIteration => none
  | r => some r

/-- Where the transport writes: the start of the view, if there is one, and the size of the read. -/
structure WriteBuffer where
  start : ℕ
  nbytes : ℕ
  deriving DecidableEq, Repr

namespace StreamEndpoint

variable {σ P ι : Type}

/-! ## The receivers -/

/-- `_DataReceiverImpl` with its `consumer` and `max_recv_size`. -/
def dataReceiver (proto : StreamProtocol σ P ι) (maxRecvSize : ℕ) :
    Feeder (StreamDataConsumer σ) Bytes WriteBuffer (NextResult P ι) where
  take consumer :=
    let (r, consumer) := consumer.next proto none
    (r.result?, consumer)
  offer consumer := (.ok ⟨0, maxRecvSize⟩, consumer)
  give consumer _ chunk :=
    let (r, consumer) := consumer.next proto (some chunk)
    (r.result?, consumer)

/-- `_BufferedReceiverImpl` with its `consumer`. -/
def bufferedReceiver (proto : BufferedStreamProtocol σ P ι) :
    Feeder (BufferedStreamDataConsumer σ) Bytes WriteBuffer (NextResult P ι) where
  take consumer :=
    let (r, consumer) := consumer.next proto none
    (r.result?, consumer)
  offer consumer :=
    match consumer.getWriteBuffer proto with
    | (.ok start, consumer) => (.ok ⟨start, consumer.nbytes start⟩, consumer)
    | (.error message, consumer) => (.error (.raised message), consumer)
  give consumer buffer chunk :=
    let (r, consumer) := (consumer.write buffer.start chunk).next proto (some chunk.length)
    (r.result?, consumer)

/-- How a call of `recv_packet()` ends. -/
inductive Outcome (P ι : Type) where
  /-- with what the consumer gives -/
  | result (r : NextResult P ι)
  /-- `TimeoutError`, of the transport or `ETIMEDOUT`; or the cancellation of the read -/
  | timedOut
  /-- `ECONNABORTED` -/
  | connectionAborted
  deriving DecidableEq, Repr

def Outcome.result? : Outcome P ι → Option (NextResult P ι)
  | .result r => some r
  | .timedOut | .connectionAborted => none

structure State (σ P ι : Type) where
  consumer : σ
  eofReached : Bool := false
  /-- the call that waits for the transport: its timeout, and where the chunk goes -/
  reading : Option (Delay × WriteBuffer) := none
  /-- what the transport has given -/
  chunks : List Bytes := []
  /-- the number of reads -/
  reads : ℕ := 0
  outcomes : List (Outcome P ι) := []

inductive Action where
  | recvPacket (timeout : Delay)
  /-- the read returns, after some time -/
  | received (chunk : Bytes) (elapsed : ℚ)
  | endOfStream
  | timesOut

section
variable (f : Feeder σ Bytes WriteBuffer (NextResult P ι)) (s : State σ P ι)

def State.finish (outcome : Outcome P ι) : State σ P ι :=
  { s with reading := none, outcomes := s.outcomes ++ [outcome] }

/-- `while not self._eof_reached`, up to the next read. -/
def State.loop (timeout : Delay) : State σ P ι :=
  if s.eofReached then s.finish .connectionAborted
  else match f.offer s.consumer with
    | (.error r, consumer) => { s with consumer := consumer }.finish (.result r)
    | (.ok buffer, consumer) =>
      { s with
        consumer := consumer
        reading := some (timeout, buffer)
        reads := s.reads + 1 }

/-- `receive`, up to the first read. -/
def State.receive (timeout : Delay) : State σ P ι :=
  match f.take s.consumer with
  | (some r, consumer) => { s with consumer := consumer }.finish (.result r)
  | (none, consumer) => { s with consumer := consumer }.loop f timeout

/-- A read has returned a chunk. -/
def State.received (timeout : Delay) (buffer : WriteBuffer) (chunk : Bytes) (elapsed : ℚ) :
    State σ P ι :=
  let s := { s with chunks := s.chunks ++ [chunk] }
  match f.give s.consumer buffer chunk with
  | (some r, consumer) => { s with consumer := consumer }.finish (.result r)
  | (none, consumer) =>
    let s := { s with consumer := consumer }
    if 0 < timeout then s.loop f (recomputeTimeout timeout elapsed)
    else if chunk.length < buffer.nbytes then s.finish .timedOut
    else s.loop f timeout

/-- One call, or one answer of the transport. -/
def step : Action → Option (State σ P ι)
  | .recvPacket timeout =>
    match s.reading with
    | none => some (s.receive f timeout)
    | some _ => none
  | .received chunk elapsed =>
    match s.reading with
    | some (timeout, buffer) =>
      if chunk = [] ∨ buffer.nbytes < chunk.length then none
      else some (s.received f timeout buffer chunk elapsed)
    | none => none
  | .endOfStream =>
    match s.reading with
    | some (timeout, _) => some ({ s with eofReached := true }.loop f timeout)
    | none => none
  | .timesOut =>
    match s.reading with
    | some _ => some (s.finish .timedOut)
    | none => none

end

/-- The packets and the errors that the calls have obtained from the consumer. -/
def State.results (s : State σ P ι) : List (NextResult P ι) := s.outcomes.filterMap Outcome.result?

end StreamEndpoint

end EasyNetwork
