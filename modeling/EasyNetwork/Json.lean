/-
  `JSONSerializer` (`serializers/json.py`).

  The `json` module's encoder and decoder and the codec of the text are fields of the serializer.
  With `useLines` a packet is a line (`read_until`); without, the end of a packet is found by
  `_JSONParser`.

  The serializer catches the decoder's `JSONDecodeError` only.  The `json` module's decoder raises other
  exceptions too (`JSONDecoderError.other`), which leave the generators as they are.
-/
import EasyNetwork.Lib.Utf8
import EasyNetwork.BaseStream
import EasyNetwork.JsonParser

namespace EasyNetwork

open Coroutine

/-- `encoding` and `unicode_errors`: the bytes of a text and the text of bytes, or the text of the
    `UnicodeError`. -/
structure Codec where
  encode : String → Except String Bytes
  decode : Bytes → Except String String

/-- `encoding="utf-8"`; `describe` gives the texts of the `UnicodeDecodeError`s. -/
def Codec.utf8 (describe : Bytes → String) : Codec where
  encode text := .ok (Utf8.encode text)
  decode data := match Utf8.decode data with
    | some text => .ok text
    | none => .error (describe data)

/-- `JSONDecodeError`; `text` is `str(exc)`. -/
structure JSONDecodeError where
  text : String
  doc : String
  pos : ℕ
  lineno : ℕ
  colno : ℕ
  deriving DecidableEq, Repr

/-- What `JSONDecoder.decode` may raise. -/
inductive JSONDecoderError where
  | decodeError (exc : JSONDecodeError)
  /-- any other exception, by its text: the `ValueError` of an integer with too many digits, the
      `RecursionError` of a deeply nested document -/
  | other (message : String)
  deriving DecidableEq, Repr

/-- The `error_info` of the errors in debug mode. -/
inductive JsonErrorInfo where
  | data (data : Bytes)
  | document (document : String) (position lineno colno : ℕ)
  deriving DecidableEq, Repr

/-- `JSONSerializer`, with the check of its constructor. -/
structure JSONSerializer (P : Type) where
  /-- `JSONEncoder.encode`; it may raise any exception -/
  encode : P → Except String String
  /-- `JSONDecoder.decode` -/
  decode : String → Except JSONDecoderError P
  codec : Codec
  limit : ℕ
  useLines : Bool
  debug : Bool
  limit_pos : 0 < limit

namespace JSONSerializer
variable {P : Type} (S : JSONSerializer P)

/-- `serialize`. -/
def serialize (packet : P) : Except String Bytes :=
  match S.encode packet with
  | .error exc => .error exc
  | .ok text => S.codec.encode text

/-- `data.startswith(_OBJECT_START)`. -/
def startsWithObjectStart (data : Bytes) : Bool :=
  match data with
  | [] => false
  | b :: _ => (JsonParser.enclosureBytes b).isSome

/-- `incremental_serialize`: the chunks that are yielded, or the exception that is raised. -/
def incrementalSerialize (packet : P) : Except String (List Bytes) :=
  match S.serialize packet with
  | .error exc => .error exc
  | .ok data => .ok [if S.useLines || !startsWithObjectStart data then data ++ [10] else data]

/-- What is made of the bytes of a document (`deserialize` and
    `__deserialize_incremental_document`): a packet or a parse error, or the exception of the decoder
    that is not caught. -/
def outcome (document : Bytes) : Except String (Verdict P JsonErrorInfo) :=
  match S.codec.decode document with
  | .error exc =>
    .ok (.error (.deserialize ("Unicode decode error: " ++ exc)
      (if S.debug then some (.data document) else none)))
  | .ok text =>
    match S.decode text with
    | .error (.decodeError exc) =>
      .ok (.error (.deserialize ("JSON decode error: " ++ exc.text)
        (if S.debug then some (.document exc.doc exc.pos exc.lineno exc.colno) else none)))
    | .error (.other message) => .error message
    | .ok packet => .ok (.ok packet)

/-- `__deserialize_incremental_document`, after the document has been found. -/
def deserializeIncrementalDocument :
    Except (SerializerError JsonErrorInfo) (Bytes × Bytes) →
      Except (SerializerError JsonErrorInfo) (P × Bytes)
  | .error e => .error e
  | .ok (completeDocument, remainingData) =>
    match S.outcome completeDocument with
    | .ok verdict => verdict.withRemainder remainingData
    | .error message => .error (.other message)

/-- `incremental_deserialize`. -/
def incrementalDeserialize :
    Generator (ReadUntil ⊕ JsonParser.RawParseState) Bytes Unit (P × Bytes)
      (SerializerError JsonErrorInfo) :=
  (Generator.either S.useLines (GeneratorStreamReader.readFrame [10] S.limit)
    (JsonParser.rawParse S.limit)).finish S.deserializeIncrementalDocument

/-- `create_deserializer_buffer`: the size hint is ignored. -/
def createDeserializerBuffer (_sizehint : ℕ) : Bytes := List.replicate S.limit 0

/-- The line that `_buffered_readuntil` has found in the buffer, and what comes after it. -/
def bufferedLine (buffer : Bytes) :
    Except (IncrementalDeserializeError JsonErrorInfo) (ℕ × ℕ × ℕ) →
      Except (SerializerError JsonErrorInfo) (Bytes × Bytes)
  | .error e => .error (.incremental e)
  | .ok (sepidx, offset, buflen) => .ok (buffer.take sepidx, (buffer.take buflen).drop offset)

/-- The part of `buffered_incremental_deserialize` that finds the document. -/
def bufferedDocument :
    BufferGenerator (BufferedReaduntil ⊕ (ℕ × JsonParser.RawParse)) UInt8 (Bytes × Bytes)
      (SerializerError JsonErrorInfo) :=
  BufferGenerator.either S.useLines ((bufferedReaduntil [10]).finish bufferedLine)
    JsonParser.rawParseWithExternalBuffer

/-- `buffered_incremental_deserialize`. -/
def bufferedIncrementalDeserialize :
    BufferGenerator (BufferedReaduntil ⊕ (ℕ × JsonParser.RawParse)) UInt8 (P × Bytes)
      (SerializerError JsonErrorInfo) :=
  S.bufferedDocument.finish fun _ => S.deserializeIncrementalDocument

/-- The exceptions that the decoder raises on the document, if it raises one, are caught. -/
def Caught (document : Bytes) : Prop := ∀ message, S.outcome document ≠ .error message

/-- The verdict for a document on which the exceptions of the decoder are `Caught`. -/
def verdict (document : Bytes) : Verdict P JsonErrorInfo :=
  match S.outcome document with
  | .ok verdict => verdict
  | .error message => .error (.deserialize message none)

variable {S} in
theorem caught_of_verdict {document : Bytes} {packet : P} (h : S.verdict document = .ok packet) :
    S.Caught document := by
  intro message houtcome
  rw [verdict, houtcome] at h
  cases h

variable {S} in
theorem deserializeIncrementalDocument_of_caught {document : Bytes} (h : S.Caught document)
    (remainder : Bytes) : S.deserializeIncrementalDocument (.ok (document, remainder)) =
      (S.verdict document).withRemainder remainder := by
  rw [deserializeIncrementalDocument, verdict]
  rcases houtcome : S.outcome document with message | v
  · exact absurd houtcome (h message)
  · rfl

/-- `StreamProtocol(serializer, converter)`. -/
def protocol (converter : Converter P JsonErrorInfo) :
    StreamProtocol (ReadUntil ⊕ JsonParser.RawParseState) P JsonErrorInfo :=
  ⟨S.incrementalDeserialize, converter⟩

/-- `BufferedStreamProtocol(serializer, converter)`. -/
def bufferedProtocol (converter : Converter P JsonErrorInfo) :
    BufferedStreamProtocol (BufferedReaduntil ⊕ (ℕ × JsonParser.RawParse)) P JsonErrorInfo :=
  ⟨S.createDeserializerBuffer, S.bufferedIncrementalDeserialize, converter⟩

end JSONSerializer

end EasyNetwork
