/-
  `FileBasedPacketSerializer` (`serializers/base_stream.py`): packets that are read from a file
  object.

  The received bytes are written into a `BytesIO`, from which `load_from_file` reads from the start;
  when it raises `EOFError`, the generator waits for more bytes.  The plain generator receives
  chunks, the buffered one takes them out of the buffer of its caller; both run
  `__generic_incremental_deserialize`.
-/
import EasyNetwork.Protocol

namespace EasyNetwork

open Coroutine

/-! ## Files -/

/-- A `BytesIO`. -/
structure BytesIO where
  value : Bytes
  pos : ℕ
  deriving DecidableEq, Repr

namespace BytesIO
variable (file : BytesIO)

/-- `file.write(chunk)`; the file is filled up with null bytes if the position is after its end.
    Nothing is done for an empty chunk. -/
def write (chunk : Bytes) : BytesIO :=
  if chunk = [] then file
  else
    let value := file.value ++ List.replicate (file.pos - file.value.length) 0
    ⟨writeAt value file.pos chunk, file.pos + chunk.length⟩

/-- `file.seek(0)`. -/
def rewind : BytesIO := { file with pos := 0 }

/-- `file.read()`. -/
def read : Bytes := file.value.drop file.pos

end BytesIO

/-- What `load_from_file` does with a file of this content, from its start: how it ends, and the
    position in which it leaves the file. -/
inductive Load (P : Type) where
  | returned (packet : P) (pos : ℕ)
  /-- `EOFError` -/
  | eofError (pos : ℕ)
  /-- one of the expected errors, by its text -/
  | expectedError (exc : String) (pos : ℕ)
  deriving DecidableEq, Repr

/-! ## The serializer -/

/-- `FileBasedPacketSerializer`, with the check of its constructor. -/
structure FileBasedPacketSerializer (P : Type) where
  /-- the abstract method `load_from_file` -/
  loadFromFile : Bytes → Load P
  limit : ℕ
  debug : Bool
  limit_pos : 0 < limit

namespace FileBasedPacketSerializer
variable {P : Type} (S : FileBasedPacketSerializer P)

/-- `create_deserializer_buffer`. -/
def createDeserializerBuffer (sizehint : ℕ) : Bytes := List.replicate (min sizehint S.limit) 0

/-- Where `__generic_incremental_deserialize` is suspended: before the file is created, or after
    `load_from_file` has raised `EOFError`. -/
abbrev Suspended := Option BytesIO

/-- The file on which `load_from_file` is called after a chunk has been received. -/
def received : Suspended → Bytes → BytesIO
  | none, chunk => ⟨chunk, 0⟩
  | some file, chunk => (file.write chunk).rewind

/-- One round of the `while True` of `__generic_incremental_deserialize`. -/
def load {Y : Type} (file : BytesIO) (y : Y) :
    Resumed Suspended Y (P × Bytes) (SerializerError Bytes) :=
  -- `__check_file_buffer_limit`
  if file.value.length > S.limit then
    .raised (.incremental (LimitOverrunError.init "chunk exceeded buffer limit" file.value
      file.value.length []))
  else match S.loadFromFile file.value with
    | .eofError pos => .yielded (some { file with pos := pos }) y
    | .expectedError exc pos =>
      .raised (.incremental ⟨.deserialize ("Deserialize error: " ++ exc)
        (if S.debug then some file.value else none), { file with pos := pos : BytesIO }.read⟩)
    | .returned packet pos => .returned (packet, { file with pos := pos : BytesIO }.read)

/-- `incremental_deserialize`. -/
def incrementalDeserialize :
    Generator Suspended Bytes Unit (P × Bytes) (SerializerError Bytes) where
  next := .yielded none ()
  send s chunk := S.load (received s chunk) ()

/-- `buffered_incremental_deserialize`. -/
def bufferedIncrementalDeserialize :
    BufferGenerator Suspended UInt8 (P × Bytes) (SerializerError Bytes) where
  next _ := .yielded none none
  send s buffer nbytes := (buffer, S.load (received s (buffer.take nbytes)) none)

variable (converter : Converter P Bytes)

/-- `StreamProtocol(serializer, converter)`. -/
def protocol : StreamProtocol Suspended P Bytes := ⟨S.incrementalDeserialize, converter⟩

/-- `BufferedStreamProtocol(serializer, converter)`. -/
def bufferedProtocol : BufferedStreamProtocol Suspended P Bytes :=
  ⟨S.createDeserializerBuffer, S.bufferedIncrementalDeserialize, converter⟩

/-! ## What is left -/

/-- What `load_from_file` leaves of the file when it returns a packet or raises an expected
    error. -/
def leftover (value : Bytes) : Bytes :=
  match S.loadFromFile value with
  | .eofError _ => []
  | .expectedError _ pos | .returned _ pos => value.drop pos

/-- What a round ends with, as the protocols report it: a suspension, or an outcome with what is
    left of the file. -/
inductive Round (P : Type) where
  | suspended (file : BytesIO)
  | ended (verdict : Verdict P Bytes) (remainder : Bytes)

/-- What is left of the file by a round that has ended. -/
def Round.remainder : Round P → Bytes
  | .suspended _ => []
  | .ended _ remainder => remainder

/-- The round for a file, with the packet conversion. -/
def round (file : BytesIO) : Round P :=
  if file.value.length > S.limit then
    .ended (.error (.limitOverrun "chunk exceeded buffer limit" file.value.length)) []
  else match S.loadFromFile file.value with
    | .eofError pos => .suspended { file with pos := pos }
    | .expectedError exc pos =>
      .ended (.error (.deserialize ("Deserialize error: " ++ exc)
        (if S.debug then some file.value else none))) (file.value.drop pos)
    | .returned packet pos =>
      .ended (Verdict.convert converter (.ok packet)) (file.value.drop pos)

/-- A round, as a protocol's generator reports it. -/
def Round.resumed {Y : Type} (y : Y) :
    Round P → Resumed Suspended Y (P × Bytes) (ProtocolError Bytes)
  | .suspended file => .yielded (some file) y
  | .ended verdict remainder => verdict.ended remainder

variable {S converter}

/-- Both generators run the same rounds. -/
theorem finish_load {Y : Type} (file : BytesIO) (y : Y) :
    (S.load file y).finish (buildPacket converter) = (S.round converter file).resumed y := by
  unfold load round
  by_cases hlimit : file.value.length > S.limit
  · rw [if_pos hlimit, if_pos hlimit]
    simp only [LimitOverrunError.init, LimitOverrunError.remainingData_nil, List.drop_length]
    rfl
  · rw [if_neg hlimit, if_neg hlimit]
    cases S.loadFromFile file.value with
    | eofError pos => rfl
    | expectedError exc pos => rfl
    | returned packet pos =>
      exact finish_withRemainder (σ := Suspended) (Y := Y) converter (.ok packet)
        (file.value.drop pos)

theorem buildPacketFromChunks_send (s : Suspended) (chunk : Bytes) :
    (S.protocol converter).buildPacketFromChunks.send s chunk =
      (S.round converter (received s chunk)).resumed () :=
  finish_load _ _

theorem buildPacketFromBuffer_send (s : Suspended) (buffer : Bytes) (n : ℕ) :
    (S.bufferedProtocol converter).buildPacketFromBuffer.send s buffer n =
      (buffer, (S.round converter (received s (buffer.take n))).resumed none) :=
  congrArg (buffer, ·) (finish_load _ _)

/-- What a round leaves. -/
theorem remainder_round (file : BytesIO) : (S.round converter file).remainder =
    if file.value.length > S.limit then [] else S.leftover file.value := by
  unfold round leftover
  by_cases hlimit : file.value.length > S.limit
  · rw [if_pos hlimit, if_pos hlimit]
    rfl
  · rw [if_neg hlimit, if_neg hlimit]
    cases S.loadFromFile file.value <;> rfl

end FileBasedPacketSerializer

end EasyNetwork
