/-
  The stream data consumers (`lowlevel/_stream.py`).

  `StreamDataConsumer` keeps the bytes that no generator has consumed, and the
  suspended generator of the packet that is being received.  `BufferedStreamDataConsumer`
  lets its caller write into the buffer of the packet that is being received; what
  a packet leaves of it is copied into a new buffer.

  `Reads` are the runs of a caller that gives every read to the consumer and then takes
  packets (`next(None)`) until `StopIteration`.
-/
import EasyNetwork.Protocol

namespace EasyNetwork

open Coroutine

/-- What a call of `next` ends with. -/
inductive NextResult (P ι : Type) where
  | packet (p : P)
  | stopIteration
  | parseError (e : StreamProtocolParseError ι)
  /-- any other exception, by its text -/
  | raised (message : String)
  deriving DecidableEq, Repr

/-- A packet or a parse error, without the data that the error hands on. -/
def NextResult.verdict? {P ι : Type} : NextResult P ι → Option (Verdict P ι)
  | .packet p => some (.ok p)
  | .parseError e => some (.error e.error)
  | .stopIteration | .raised _ => none

/-! ## `StreamDataConsumer` -/

/-- `StreamDataConsumer`. -/
structure StreamDataConsumer (σ : Type) where
  buffer : Bytes
  consumer : Option σ
  deriving DecidableEq, Repr

namespace StreamDataConsumer
variable {σ P ι : Type}

/-- The state after `__init__`. -/
def init : StreamDataConsumer σ := ⟨[], none⟩

variable (proto : StreamProtocol σ P ι)

/-- The second half of `next`: `consumer.send(received_chunk)` and what follows. -/
def send (consumer : σ) (receivedChunk : Bytes) : NextResult P ι × StreamDataConsumer σ :=
  match proto.buildPacketFromChunks.send consumer receivedChunk with
  | .returned (packet, remaining) => (.packet packet, ⟨remaining, none⟩)
  | .raised (.parse exc) => (.parseError exc, ⟨exc.remainingData, none⟩)
  | .raised (.other _) => (.raised "protocol.build_packet_from_chunks() crashed", ⟨[], none⟩)
  | .yielded consumer _ => (.stopIteration, ⟨[], some consumer⟩)

/-- `StreamDataConsumer.next`. -/
def next (st : StreamDataConsumer σ) (receivedChunk : Option Bytes) :
    NextResult P ι × StreamDataConsumer σ :=
  let receivedChunk := st.buffer ++ receivedChunk.getD []
  if receivedChunk = [] then (.stopIteration, st)
  else match st.consumer with
    | some consumer => send proto consumer receivedChunk
    | none => match proto.buildPacketFromChunks.next with
      | .yielded consumer _ => send proto consumer receivedChunk
      | .returned _ =>
        (.raised "protocol.build_packet_from_chunks() did not yield", ⟨receivedChunk, none⟩)
      | .raised _ =>
        (.raised "protocol.build_packet_from_chunks() crashed", ⟨receivedChunk, none⟩)

/-- `next(None)` until `StopIteration`: what is delivered, and the state afterwards. -/
inductive Drained : StreamDataConsumer σ → List (Verdict P ι) → StreamDataConsumer σ → Prop
  | stop {st st'} : next proto st none = (.stopIteration, st') → Drained st [] st'
  | more {st st' st'' r v vs} : next proto st none = (r, st') → r.verdict? = some v →
      Drained st' vs st'' → Drained st (v :: vs) st''

/-- Every read is given to `next`, which is then called until `StopIteration`. -/
inductive Reads : StreamDataConsumer σ → List Bytes → List (Verdict P ι) →
    StreamDataConsumer σ → Prop
  | nil {st} : Reads st [] [] st
  | stop {st st₁ st₂ st₃ c cs vs ws} : next proto st (some c) = (.stopIteration, st₁) →
      Drained proto st₁ vs st₂ → Reads st₂ cs ws st₃ → Reads st (c :: cs) (vs ++ ws) st₃
  | more {st st₁ st₂ st₃ c cs r v vs ws} : next proto st (some c) = (r, st₁) →
      r.verdict? = some v → Drained proto st₁ vs st₂ → Reads st₂ cs ws st₃ →
      Reads st (c :: cs) (v :: vs ++ ws) st₃

end StreamDataConsumer

/-! ## `BufferedStreamDataConsumer` -/

/-- `BufferedStreamDataConsumer`.  The exported write buffer is a view from an index of the current
    buffer to its end. -/
structure BufferedStreamDataConsumer (σ : Type) where
  buffer : Option Bytes
  exportedWriteBufferView : Option ℕ
  bufferStart : ℕ
  alreadyWritten : ℕ
  sizehint : ℕ
  consumer : Option σ
  deriving DecidableEq, Repr

namespace BufferedStreamDataConsumer
variable {σ P ι : Type}

/-- The state after `__init__(protocol, buffer_size_hint)`. -/
def init (bufferSizeHint : ℕ) : BufferedStreamDataConsumer σ := ⟨none, none, 0, 0, bufferSizeHint, none⟩

variable (proto : BufferedStreamProtocol σ P ι)

section
variable (st : BufferedStreamDataConsumer σ)

/-- The number of bytes of a view that starts at `start`. -/
def nbytes (start : ℕ) : ℕ := (st.buffer.getD []).length - start

/-- `__new_write_buffer`, first part: create a buffer if there is none. -/
def withBuffer : Except String (Bytes × BufferedStreamDataConsumer σ) :=
  match st.buffer with
  | some buffer => .ok (buffer, st)
  | none =>
    if st.consumer.isSome then .error "Buffer flushed while there is an active consumer."
    else
      let wholeBuffer := proto.createBuffer st.sizehint
      if wholeBuffer = [] then .error "protocol.create_buffer() returned a null buffer"
      else .ok (wholeBuffer, { st with buffer := some wholeBuffer })

/-- `__new_write_buffer`, second part: start a generator if there is none.  The state is the one
    that is left, also by an exception. -/
def withConsumer (buffer : Bytes) : Except String Unit × BufferedStreamDataConsumer σ :=
  match st.consumer with
  | some _ => (.ok (), st)
  | none =>
    match proto.buildPacketFromBuffer.next buffer with
    | .yielded consumer start =>
      (.ok (), { st with bufferStart := start.getD 0, consumer := some consumer })
    | .returned _ => (.error "protocol.build_packet_from_buffer() did not yield", st)
    | .raised _ =>
      (.error "protocol.build_packet_from_buffer() crashed", { st with buffer := none })

/-- `__new_write_buffer`: where the view starts. -/
def newWriteBuffer : Except String ℕ × BufferedStreamDataConsumer σ :=
  match withBuffer proto st with
  | .error message => (.error message, st)
  | .ok (buffer, st) =>
    match withConsumer proto st buffer with
    | (.error message, st) => (.error message, st)
    | (.ok (), st) =>
      let start := st.bufferStart + st.alreadyWritten
      if st.nbytes start = 0 then
        (.error "The start position is set to the end of the buffer", st)
      else (.ok start, st)

/-- `get_write_buffer`. -/
def getWriteBuffer : Except String ℕ × BufferedStreamDataConsumer σ :=
  match st.exportedWriteBufferView with
  | some start => (.ok start, st)
  | none =>
    match newWriteBuffer proto st with
    | (.error message, st) => (.error message, st)
    | (.ok start, st) => (.ok start, { st with exportedWriteBufferView := some start })

/-- The caller writes `data` at the beginning of a view that starts at `start`. -/
def write (start : ℕ) (data : Bytes) : BufferedStreamDataConsumer σ :=
  { st with buffer := st.buffer.map fun buffer => writeAt buffer start data }

/-- `__save_remainder_in_buffer`. -/
def saveRemainderInBuffer (remainingData : Bytes) : Except String Unit × BufferedStreamDataConsumer σ :=
  if remainingData = [] then (.ok (), st)
  else
    match newWriteBuffer proto { st with buffer := none } with
    | (.error message, st) => (.error message, st)
    | (.ok start, st) =>
      if remainingData.length ≤ st.nbytes start then
        let st := st.write start remainingData
        (.ok (), { st with alreadyWritten := st.alreadyWritten + remainingData.length })
      else (.error "memoryview assignment: lvalue and rvalue have different structures", st)

/-- Save the remainder and then end `next` with `r`. -/
def saveThen (remainingData : Bytes) (r : NextResult P ι) :
    NextResult P ι × BufferedStreamDataConsumer σ :=
  match saveRemainderInBuffer proto st remainingData with
  | (.ok (), st) => (r, st)
  | (.error message, st) => (.raised message, st)

/-- The second half of `next`: `consumer.send(nb_updated_bytes)` and what follows. -/
def send (consumer : σ) (nbUpdatedBytes : ℕ) : NextResult P ι × BufferedStreamDataConsumer σ :=
  let (buffer, resumed) :=
    proto.buildPacketFromBuffer.send consumer (st.buffer.getD []) nbUpdatedBytes
  let st := { st with buffer := st.buffer.map fun _ => buffer, consumer := none }
  match resumed with
  | .returned (packet, remaining) => saveThen proto st remaining (.packet packet)
  | .raised (.parse exc) => saveThen proto st exc.remainingData (.parseError exc)
  | .raised (.other _) =>
    (.raised "protocol.build_packet_from_buffer() crashed", { st with buffer := none })
  | .yielded consumer start =>
    (.stopIteration, { st with bufferStart := start.getD 0, consumer := some consumer })

/-- `next` after its argument has been checked. -/
def nextChecked (nbUpdatedBytes : ℕ) : NextResult P ι × BufferedStreamDataConsumer σ :=
  match st.consumer with
  | none => (.stopIteration, st)
  | some consumer =>
    let nbUpdatedBytes := nbUpdatedBytes + st.alreadyWritten
    let st := { st with alreadyWritten := 0 }
    if nbUpdatedBytes = 0 then (.stopIteration, st)
    else send proto { st with exportedWriteBufferView := none } consumer nbUpdatedBytes

/-- `BufferedStreamDataConsumer.next`. -/
def next (nbUpdatedBytes : Option ℕ) : NextResult P ι × BufferedStreamDataConsumer σ :=
  match nbUpdatedBytes with
  | none => nextChecked proto st 0
  | some nbUpdatedBytes =>
    match st.exportedWriteBufferView with
    | none =>
      (.raised "next() has been called whilst get_write_buffer() was never called", st)
    | some start =>
      if nbUpdatedBytes ≤ st.nbytes start then nextChecked proto st nbUpdatedBytes
      else (.raised "Invalid value given", st)

end

/-- `next(None)` until `StopIteration`. -/
inductive Drained : BufferedStreamDataConsumer σ → List (Verdict P ι) →
    BufferedStreamDataConsumer σ → Prop
  | stop {st st'} : next proto st none = (.stopIteration, st') → Drained st [] st'
  | more {st st' st'' r v vs} : next proto st none = (r, st') → r.verdict? = some v →
      Drained st' vs st'' → Drained st (v :: vs) st''

/-- Give the read `c` to the consumer: write it into the offered buffer, in which it fits, and
    announce it. -/
def Received (st : BufferedStreamDataConsumer σ) (c : Bytes) (r : NextResult P ι) (st' : BufferedStreamDataConsumer σ) : Prop :=
  ∃ start st₁, getWriteBuffer proto st = (.ok start, st₁) ∧ c.length ≤ st₁.nbytes start ∧
    next proto (st₁.write start c) (some c.length) = (r, st')

/-- Every read is written into the offered buffer and announced with `next`, which is then called
    until `StopIteration`. -/
inductive Reads : BufferedStreamDataConsumer σ → List Bytes → List (Verdict P ι) →
    BufferedStreamDataConsumer σ → Prop
  | nil {st} : Reads st [] [] st
  | stop {st st₁ st₂ st₃ c cs vs ws} : Received proto st c .stopIteration st₁ →
      Drained proto st₁ vs st₂ → Reads st₂ cs ws st₃ → Reads st (c :: cs) (vs ++ ws) st₃
  | more {st st₁ st₂ st₃ c cs r v vs ws} : Received proto st c r st₁ → r.verdict? = some v →
      Drained proto st₁ vs st₂ → Reads st₂ cs ws st₃ → Reads st (c :: cs) (v :: vs ++ ws) st₃

end BufferedStreamDataConsumer

end EasyNetwork
