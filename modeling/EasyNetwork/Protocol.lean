/-
  Stream protocols (`protocol.py`): a serializer's generator followed by the packet
  converter, if there is one.
-/
import EasyNetwork.Lib.Coroutine
import EasyNetwork.Exceptions

namespace EasyNetwork

open Coroutine

variable {σ P ι : Type}

/-- `converter.create_from_dto_packet`, for a protocol that has a converter. -/
abbrev Converter (P ι : Type) := Option (P → Except (PacketConversionError ι) P)

/-- The end of `build_packet_from_chunks` and of `build_packet_from_buffer`: errors become
    `StreamProtocolParseError`s, packets are converted. -/
def buildPacket (converter : Converter P ι) :
    Except (SerializerError ι) (P × Bytes) → Except (ProtocolError ι) (P × Bytes)
  | .error (.incremental e) => .error (.parse ⟨e.cause, e.remainingData⟩)
  | .error (.other message) => .error (.other message)
  | .ok (packet, remainingData) =>
    match converter with
    | none => .ok (packet, remainingData)
    | some createFromDtoPacket =>
      match createFromDtoPacket packet with
      | .ok packet => .ok (packet, remainingData)
      | .error exc => .error (.parse ⟨.conversion exc.message exc.errorInfo, remainingData⟩)

/-- `StreamProtocol`. -/
structure StreamProtocol (σ P ι : Type) where
  incrementalDeserialize : Generator σ Bytes Unit (P × Bytes) (SerializerError ι)
  converter : Converter P ι

/-- `StreamProtocol.build_packet_from_chunks`. -/
def StreamProtocol.buildPacketFromChunks (p : StreamProtocol σ P ι) :
    Generator σ Bytes Unit (P × Bytes) (ProtocolError ι) :=
  p.incrementalDeserialize.finish (buildPacket p.converter)

/-- `BufferedStreamProtocol`. -/
structure BufferedStreamProtocol (σ P ι : Type) where
  /-- `create_deserializer_buffer` of the serializer -/
  createBuffer : ℕ → Bytes
  bufferedIncrementalDeserialize : BufferGenerator σ UInt8 (P × Bytes) (SerializerError ι)
  converter : Converter P ι

/-- `BufferedStreamProtocol.build_packet_from_buffer`. -/
def BufferedStreamProtocol.buildPacketFromBuffer (p : BufferedStreamProtocol σ P ι) :
    BufferGenerator σ UInt8 (P × Bytes) (ProtocolError ι) :=
  p.bufferedIncrementalDeserialize.finish fun _ => buildPacket p.converter

/-- What a frame gives: a packet, or the cause of a parse error. -/
abbrev Verdict (P ι : Type) := Except (ParseCause ι) P

/-- A verdict with the bytes after the frame, as a serializer's generator ends with it. -/
def Verdict.withRemainder (v : Verdict P ι) (remainder : Bytes) :
    Except (SerializerError ι) (P × Bytes) :=
  match v with
  | .ok packet => .ok (packet, remainder)
  | .error cause => .error (.incremental ⟨cause, remainder⟩)

/-- The verdict after the packet conversion. -/
def Verdict.convert (converter : Converter P ι) (v : Verdict P ι) : Verdict P ι :=
  match v, converter with
  | .error cause, _ => .error cause
  | .ok packet, none => .ok packet
  | .ok packet, some createFromDtoPacket =>
    match createFromDtoPacket packet with
    | .ok packet => .ok packet
    | .error exc => .error (.conversion exc.message exc.errorInfo)

/-- A verdict with the bytes after the frame, as a protocol's generator ends with it. -/
def Verdict.ended {Y : Type} (v : Verdict P ι) (remainder : Bytes) :
    Resumed σ Y (P × Bytes) (ProtocolError ι) :=
  match v with
  | .ok packet => .returned (packet, remainder)
  | .error cause => .raised (.parse ⟨cause, remainder⟩)

/-- **Conversion keeps the remaining data**, of packets and of errors. -/
theorem finish_withRemainder {Y : Type} (converter : Converter P ι) (v : Verdict P ι) (r : Bytes) :
    (.ofExcept (buildPacket converter (v.withRemainder r)) : Resumed σ Y _ _) =
      (v.convert converter).ended r := by
  cases v with
  | error cause => rfl
  | ok packet =>
    cases converter with
    | none => rfl
    | some f =>
      simp only [Verdict.withRemainder, buildPacket, Verdict.convert]
      cases f packet <;> rfl

end EasyNetwork
