/-
  The reading side of the asyncio stream transport
  (`StreamReaderBufferedProtocol` in `_asyncio/stream/socket.py`).

  Received bytes go into the internal buffer of the protocol, or straight into the buffer of a
  reader that waits in `receive_data_into()`.  `step` interleaves the callbacks of the event loop,
  the calls of one reader at a time, and cancellations of this reader, between `connection_made`
  and `connection_lost`.  A reader that waits is suspended on the future `__read_waiter`, and
  resumes some time after this future is done.
-/
import EasyNetwork.Exceptions
import EasyNetwork.Lib.Coroutine
import EasyNetwork.Lib.Trans

namespace EasyNetwork

namespace BufferedProtocol

open Coroutine (writeAt)

/-- The state of the future `__read_waiter`. -/
inductive Waiter where
  | pending
  | result (nbytes : Option ℕ)
  | cancelled
  deriving DecidableEq, Repr

/-- `StreamReaderBufferedProtocol`, before `connection_lost`. -/
structure Protocol where
  buffer : Bytes
  bufferNbytesWritten : ℕ := 0
  /-- `__external_buffer_view` is the buffer of the reader -/
  hasExternalBufferView : Bool := false
  readWaiter : Option Waiter := none
  readPaused : Bool := false
  readHighWater : ℕ
  readLowWater : ℕ
  /-- `__transport is not None` -/
  hasTransport : Bool := true
  eofReached : Bool := false
  deriving DecidableEq, Repr

/-- `_compute_read_buffer_limits` with `add_flowcontrol_defaults`: the high and the low water. -/
def computeReadBufferLimits (maxSize : ℕ) : ℕ × ℕ :=
  let high := maxSize / 1024 * 3 / 4 * 1024
  (high, high / 4)

namespace Protocol

/-- `__init__` and `connection_made`; `limits` is `computeReadBufferLimits maxSize`. -/
def init (maxSize : ℕ) (limits : ℕ × ℕ) : Protocol :=
  { buffer := List.replicate maxSize 0, readHighWater := limits.1, readLowWater := limits.2 }

/-- What has been received and not been read. -/
def content (protocol : Protocol) : Bytes := protocol.buffer.take protocol.bufferNbytesWritten

/-- `_wakeup_read_waiter(None)`, or with a number of bytes. -/
def wakeupReadWaiter (protocol : Protocol) (nbytes : Option ℕ) : Protocol :=
  match protocol.readWaiter with
  | some .pending => { protocol with readWaiter := some (.result nbytes) }
  | _ => protocol

/-- `_maybe_pause_transport`; `canPause` is false when `pause_reading()` raises
    `NotImplementedError`. -/
def maybePauseTransport (protocol : Protocol) (canPause : Bool) : Protocol :=
  if protocol.readHighWater ≤ protocol.bufferNbytesWritten ∧ !protocol.readPaused ∧
      protocol.hasTransport then
    if canPause then { protocol with readPaused := true }
    else { protocol with hasTransport := false }
  else protocol

/-- `_maybe_resume_transport`. -/
def maybeResumeTransport (protocol : Protocol) : Protocol :=
  if protocol.readPaused ∧ protocol.hasTransport ∧
      protocol.bufferNbytesWritten ≤ protocol.readLowWater then
    { protocol with readPaused := false }
  else protocol

/-- `buffer_updated`, when the bytes are in the internal buffer. -/
def bufferUpdated (protocol : Protocol) (canPause : Bool) (nbytes : ℕ) : Protocol :=
  ({ protocol with
      bufferNbytesWritten := protocol.bufferNbytesWritten + nbytes }.wakeupReadWaiter
    none).maybePauseTransport canPause

/-- `buffer_updated`, when the bytes are in the buffer of the reader. -/
def externalBufferUpdated (protocol : Protocol) (nbytes : ℕ) : Protocol :=
  { protocol with hasExternalBufferView := false }.wakeupReadWaiter (some nbytes)

/-- `eof_received`. -/
def eofReceived (protocol : Protocol) : Protocol :=
  { protocol with hasExternalBufferView := false, eofReached := true }.wakeupReadWaiter none

/-- The end of `receive_data`: the data, and the rest is moved to the front. -/
def takeData (protocol : Protocol) (bufsize : ℕ) : Bytes × Protocol :=
  let nbytesWritten := protocol.bufferNbytesWritten
  if nbytesWritten ≠ 0 then
    let written := protocol.buffer.take nbytesWritten
    let data := written.take bufsize
    if bufsize < nbytesWritten then
      let unused := nbytesWritten - bufsize
      (data, { protocol with
        buffer := writeAt protocol.buffer 0 (written.drop (nbytesWritten - unused))
        bufferNbytesWritten := unused })
    else (data, { protocol with bufferNbytesWritten := 0 })
  else ([], protocol)

/-- The end of `receive_data_into`, for a reader whose buffer is `buffer`: its buffer, the number of
    bytes that are returned, and the rest is moved to the front. -/
def takeDataInto (protocol : Protocol) (buffer : Bytes) : Bytes × ℕ × Protocol :=
  let nbytesWritten := protocol.bufferNbytesWritten
  if nbytesWritten ≠ 0 then
    let written := protocol.buffer.take nbytesWritten
    if buffer.length < nbytesWritten then
      let bufsizeOffset := nbytesWritten - buffer.length
      (writeAt buffer 0 (written.take buffer.length), buffer.length, { protocol with
        buffer := writeAt protocol.buffer 0 (written.drop (nbytesWritten - bufsizeOffset))
        bufferNbytesWritten := bufsizeOffset })
    else (writeAt buffer 0 written, nbytesWritten, { protocol with bufferNbytesWritten := 0 })
  else (buffer, 0, protocol)

end Protocol

/-- What a reader asks for. -/
inductive Request where
  | receiveData (bufsize : ℕ)
  | receiveDataInto (buffer : Bytes)
  deriving DecidableEq, Repr

/-- A reader that is suspended in `_wait_for_data`: on the future, or in `coro_yield()` when there
    is something to read already. -/
structure Reader where
  request : Request
  yields : Bool
  /-- `Task.cancel()` has been called when the future was done already -/
  mustCancel : Bool := false
  deriving DecidableEq, Repr

/-- How a call may fail. -/
inductive ReadError where
  | valueError (message : String)
  | runtimeError (message : String)
  | assertionError (message : String)
  | connectionAborted
  | cancelled
  deriving DecidableEq, Repr

structure State where
  protocol : Protocol
  canPause : Bool
  reader : Option Reader := none
  /-- what the calls have returned, in order -/
  results : List (Except ReadError Bytes) := []
  /-- what the transport has written into the buffers it was given -/
  delivered : Bytes := []

/-- A protocol whose connection has just been made. -/
def State.init (maxSize : ℕ) (limits : ℕ × ℕ) (canPause : Bool) : State :=
  { protocol := .init maxSize limits, canPause }

inductive Action where
  | receiveData (bufsize : ℤ)
  | receiveDataInto (buffer : Bytes)
  /-- the reader's task is cancelled -/
  | cancel
  /-- the reader's task runs on -/
  | resume
  /-- `get_buffer()`, the bytes are written there, `buffer_updated()` -/
  | deliver (data : Bytes)
  | eofReceived
  deriving DecidableEq, Repr

namespace State

/-- A call ends. -/
def finish (s : State) (result : Except ReadError Bytes) : State :=
  { s with reader := none, results := s.results ++ [result] }

/-- The end of `_wait_for_data`. -/
def clearWaiter (s : State) : State :=
  { s with protocol := { s.protocol with hasExternalBufferView := false, readWaiter := none } }

/-- `_wait_for_data` up to its suspension point. -/
def waitForData (s : State) (requester : String) (request : Request) : State :=
  let protocol := s.protocol
  if protocol.readWaiter ≠ none then
    s.finish (.error (.runtimeError
      (requester ++ "() called while another coroutine is already waiting for incoming data")))
  else if protocol.bufferNbytesWritten ≠ 0 ∨ protocol.eofReached then
    { s with
      protocol := { protocol with readWaiter := some (.result none) }
      reader := some { request, yields := true } }
  else if protocol.readPaused then
    s.finish (.error (.assertionError "transport reading is paused"))
  else if !protocol.hasTransport then s.finish (.error .connectionAborted)
  else { s with
    protocol := { protocol with
      readWaiter := some .pending
      hasExternalBufferView := match request with
        | .receiveData _ => false
        | .receiveDataInto _ => true }
    reader := some { request, yields := false } }

/-- What `_wait_for_data` gives: the number of bytes in the reader's own buffer, or `None`. -/
def nbytesInExternalBuffer (s : State) (reader : Reader) : Option ℕ :=
  match s.protocol.readWaiter with
  | some (.result nbytes) => if reader.yields then none else nbytes
  | _ => none

/-- A call goes on after `_wait_for_data`. -/
def complete (s : State) (reader : Reader) : State :=
  match reader.request with
  | .receiveData bufsize =>
    let (data, protocol) := s.clearWaiter.protocol.takeData bufsize
    { s with protocol := protocol.maybeResumeTransport }.finish (.ok data)
  | .receiveDataInto buffer =>
    match s.nbytesInExternalBuffer reader with
    | some nbytes => s.clearWaiter.finish (.ok (buffer.take nbytes))
    | none =>
      let (buffer, nbytes, protocol) := s.clearWaiter.protocol.takeDataInto buffer
      { s with protocol := protocol.maybeResumeTransport }.finish (.ok (buffer.take nbytes))

/-- The reader's task may run: its future is done, or it has only yielded. -/
def Ready (s : State) (reader : Reader) : Prop :=
  reader.yields = true ∨ s.protocol.readWaiter ≠ some .pending

instance (s : State) (reader : Reader) : Decidable (s.Ready reader) :=
  inferInstanceAs (Decidable (_ ∨ _))

/-- A cancellation is thrown into the reader when it resumes. -/
def Cancelled (s : State) (reader : Reader) : Prop :=
  reader.mustCancel = true ∨ s.protocol.readWaiter = some .cancelled

instance (s : State) (reader : Reader) : Decidable (s.Cancelled reader) :=
  inferInstanceAs (Decidable (_ ∨ _))

end State

/-- One step of an interleaving. -/
def step (s : State) : Action → Option State
  | .receiveData bufsize =>
    if s.reader ≠ none then none
    else if bufsize = 0 then some (s.finish (.ok []))
    else if bufsize < 0 then
      some (s.finish (.error (.valueError "'bufsize' must be a positive or null integer")))
    else some (s.waitForData "receive_data" (.receiveData bufsize.toNat))
  | .receiveDataInto buffer =>
    if s.reader ≠ none then none
    else if buffer = [] then some (s.finish (.ok []))
    else some (s.waitForData "receive_data_into" (.receiveDataInto buffer))
  | .cancel =>
    match s.reader with
    | none => none
    | some reader =>
      if s.Ready reader then some { s with reader := some { reader with mustCancel := true } }
      else some { s with protocol := { s.protocol with readWaiter := some .cancelled } }
  | .resume =>
    match s.reader with
    | none => none
    | some reader =>
      if ¬ s.Ready reader then none
      else if s.Cancelled reader then some (s.clearWaiter.finish (.error .cancelled))
      else some (s.complete reader)
  | .deliver data =>
    if s.protocol.eofReached then none
    else match s.protocol.hasExternalBufferView, s.reader with
      | true, some { request := .receiveDataInto buffer, yields, mustCancel } =>
        if data.length ≤ buffer.length then some { s with
          protocol := s.protocol.externalBufferUpdated data.length
          reader := some
            { request := .receiveDataInto (writeAt buffer 0 data), yields, mustCancel }
          delivered := s.delivered ++ data }
        else none
      | _, _ =>
        if s.protocol.bufferNbytesWritten + data.length ≤ s.protocol.buffer.length then some { s with
          protocol := { s.protocol with
            buffer := writeAt s.protocol.buffer s.protocol.bufferNbytesWritten
              data }.bufferUpdated s.canPause data.length
          delivered := s.delivered ++ data }
        else none
  | .eofReceived => some { s with protocol := s.protocol.eofReceived }

end BufferedProtocol

end EasyNetwork
