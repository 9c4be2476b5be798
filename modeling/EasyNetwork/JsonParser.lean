/-
  `_JSONParser` (`serializers/json.py`): the framing of JSON documents that are not separated by
  newlines.

  `rawParseImpl` works in a buffer that its caller fills; `rawParse` keeps such a buffer and
  extends it with the chunks that are sent, `rawParseWithExternalBuffer` takes the caller's.
-/
import EasyNetwork.Lib.Coroutine
import EasyNetwork.Exceptions

namespace EasyNetwork.JsonParser

open Coroutine

/-- `_QUOTE_BYTE`. -/
def quoteByte : UInt8 := 34

/-- `_ESCAPE_BYTE`. -/
def escapeByte : UInt8 := 92

/-- `_ENCLOSURE_BYTES`: the byte that closes what a byte opens. -/
def enclosureBytes : UInt8 → Option UInt8
  | 123 => some 125
  | 91 => some 93
  | 34 => some 34
  | _ => none

/-! ## The regular expressions -/

/-- A byte of `_WHITESPACES`. -/
def isWhitespace (b : UInt8) : Bool := b = 32 ∨ b = 9 ∨ b = 10 ∨ b = 13

/-- A byte of `_NON_PRINTABLE`. -/
def isNonPrintable (b : UInt8) : Bool := ¬ (32 ≤ b ∧ b ≤ 126)

/-- `_WHITESPACES.match(buffer, pos, endpos).end()`. -/
def whitespacesEnd (buffer : Bytes) (pos endpos : ℕ) : ℕ :=
  pos + (((buffer.take endpos).drop pos).takeWhile isWhitespace).length

/-- `_NON_PRINTABLE.search(buffer, pos, endpos).start()`. -/
def searchNonPrintable (buffer : Bytes) (pos endpos : ℕ) : Option ℕ :=
  (((buffer.take endpos).drop pos).findIdx? isNonPrintable).map (pos + ·)

/-- A match of the pattern of a frame: its first byte and its end. -/
structure EnclosureMatch where
  byte : UInt8
  stop : ℕ
  deriving DecidableEq, Repr

/-- A byte that the pattern of the frames opened by `openEnclosure` matches. -/
def isToken (openEnclosure closeEnclosure b : UInt8) : Bool :=
  b = openEnclosure ∨ b = closeEnclosure ∨ b = quoteByte

/-- `finditer` of the pattern, on the bytes from index `pos` on.  A backslash and the byte after it
    are one match; a backslash at the end is none. -/
def finditer (openEnclosure closeEnclosure : UInt8) : ℕ → Bytes → List EnclosureMatch
  | _, [] => []
  | pos, [b] => if b ≠ escapeByte ∧ isToken openEnclosure closeEnclosure b then [⟨b, pos + 1⟩] else []
  | pos, b :: c :: rest =>
    if b = escapeByte then
      ⟨b, pos + 2⟩ :: finditer openEnclosure closeEnclosure (pos + 2) rest
    else if isToken openEnclosure closeEnclosure b then
      ⟨b, pos + 1⟩ :: finditer openEnclosure closeEnclosure (pos + 1) (c :: rest)
    else finditer openEnclosure closeEnclosure (pos + 1) (c :: rest)

/-! ## `__raw_parse_impl` -/

/-- What the loop over the matches ends with. -/
inductive FrameSearch where
  | closed (documentEndIdx : ℕ)
  | unclosed (enclosureCount : ℕ) (betweenQuotes : Bool)
  deriving DecidableEq, Repr

/-- `for enclosure_match in token_finder(..)`. -/
def matchLoop (openEnclosure closeEnclosure : UInt8) :
    List EnclosureMatch → ℕ → Bool → FrameSearch
  | [], enclosureCount, betweenQuotes => .unclosed enclosureCount betweenQuotes
  | m :: ms, enclosureCount, betweenQuotes =>
    let betweenQuotes' := if m.byte = quoteByte then !betweenQuotes else betweenQuotes
    if m.byte ≠ quoteByte ∧ betweenQuotes then
      matchLoop openEnclosure closeEnclosure ms enclosureCount betweenQuotes'
    else
      let enclosureCount :=
        if m.byte = closeEnclosure then enclosureCount - 1
        else if m.byte = openEnclosure then enclosureCount + 1
        else enclosureCount
      if enclosureCount = 0 then .closed m.stop
      else matchLoop openEnclosure closeEnclosure ms enclosureCount betweenQuotes'

/-- Where `__raw_parse_impl` is suspended. -/
inductive RawParse where
  /-- at `yield 0` -/
  | skipping
  /-- in `__read_data`, while the end of a plain value is searched -/
  | plain (searchStartIdx : ℕ)
  /-- in `__read_data`, while the end of a frame is searched -/
  | framed (openEnclosure closeEnclosure : UInt8) (searchStartIdx enclosureCount : ℕ)
      (betweenQuotes : Bool)
  deriving DecidableEq, Repr

/-- The document and the remainder, or a `LimitOverrunError`. -/
abbrev Result (ι : Type) :=
  Resumed RawParse (Option ℕ) (Bytes × Bytes) (IncrementalDeserializeError ι)

section
variable {ι : Type} (limit : ℕ) (buffer : Bytes)

/-- `__split_final_buffer`. -/
def splitFinalBuffer (documentStartIdx documentEndIdx bufferEndIdx : ℕ) :
    Except (IncrementalDeserializeError ι) (Bytes × Bytes) :=
  let remainderStartIdx := whitespacesEnd buffer documentEndIdx bufferEndIdx
  if documentEndIdx > limit then
    .error (LimitOverrunError.init
      "JSON object's end frame is found, but chunk is longer than limit" buffer remainderStartIdx [])
  else
    .ok ((buffer.take documentEndIdx).drop documentStartIdx,
      (buffer.take bufferEndIdx).drop remainderStartIdx)

/-- `__read_data` until it suspends in the state `s`. -/
def readData (s : RawParse) (startIdx : ℕ) : Result ι :=
  if startIdx ≥ limit then
    .raised (LimitOverrunError.init
      "JSON object's end frame is not found, and chunk exceed the limit" buffer startIdx [])
  else .yielded s (some startIdx)

/-- The loop over `_np`, and what follows it. -/
def searchPlain (searchStartIdx bufferEndIdx : ℕ) : Result ι :=
  match searchNonPrintable buffer searchStartIdx bufferEndIdx with
  | none => readData limit buffer (.plain bufferEndIdx) bufferEndIdx
  | some nprintStart =>
    match splitFinalBuffer limit buffer 0 nprintStart bufferEndIdx with
    | .error e => .raised e
    | .ok (completeDocument, partialDocument) =>
      if completeDocument = [] then .returned (partialDocument, [])
      else .returned (completeDocument, partialDocument)

/-- One round of the `while True` over the matches of a frame. -/
def searchFrame (openEnclosure closeEnclosure : UInt8) (searchStartIdx bufferEndIdx enclosureCount : ℕ)
    (betweenQuotes : Bool) : Result ι :=
  match matchLoop openEnclosure closeEnclosure
      (finditer openEnclosure closeEnclosure searchStartIdx
        ((buffer.take bufferEndIdx).drop searchStartIdx)) enclosureCount betweenQuotes with
  | .closed documentEndIdx => .ofExcept (splitFinalBuffer limit buffer 0 documentEndIdx bufferEndIdx)
  | .unclosed enclosureCount betweenQuotes =>
    readData limit buffer
      (.framed openEnclosure closeEnclosure bufferEndIdx enclosureCount betweenQuotes) bufferEndIdx

/-- `__raw_parse_impl` from the first byte that is not a whitespace on, which is at index 0 (so
    the buffer is not empty). -/
def startDocument (bufferEndIdx : ℕ) : Result ι :=
  match buffer with
  | [] => .yielded .skipping (some 0)
  | openEnclosure :: _ =>
    match enclosureBytes openEnclosure with
    | none => searchPlain limit buffer 0 bufferEndIdx
    | some closeEnclosure =>
      searchFrame limit buffer openEnclosure closeEnclosure 1 bufferEndIdx 1
        (openEnclosure = quoteByte)

/-- `while buffer[search_start_idx - 1] == ESCAPE_BYTE`: back before the backslashes. -/
def rewind : ℕ → ℕ
  | 0 => 0
  | idx + 1 => if buffer[idx]? = some escapeByte then rewind idx else idx + 1

/-- `buffer[: buffer_end_idx - start_idx] = memoryview(buffer)[start_idx:buffer_end_idx]`: the
    bytes after the moved ones stay as they are. -/
def moveToStart (startIdx bufferEndIdx : ℕ) : Bytes :=
  writeAt buffer 0 ((buffer.take bufferEndIdx).drop startIdx)

/-- `__raw_parse_impl`. -/
def rawParseImpl : BufferGenerator RawParse UInt8 (Bytes × Bytes) (IncrementalDeserializeError ι) where
  next _ := .yielded .skipping (some 0)
  send
    | .skipping, buffer, bufferEndIdx =>
      let startIdx := whitespacesEnd buffer 0 bufferEndIdx
      if bufferEndIdx = startIdx then (buffer, .yielded .skipping (some 0))
      else
        let buffer := if startIdx > 0 then moveToStart buffer startIdx bufferEndIdx else buffer
        (buffer, startDocument limit buffer (bufferEndIdx - startIdx))
    | .plain searchStartIdx, buffer, nread =>
      if nread < 1 then (buffer, .yielded (.plain searchStartIdx) (some searchStartIdx))
      else (buffer, searchPlain limit buffer searchStartIdx (searchStartIdx + nread))
    | .framed openEnclosure closeEnclosure searchStartIdx enclosureCount betweenQuotes, buffer, nread =>
      if nread < 1 then
        (buffer, .yielded (.framed openEnclosure closeEnclosure searchStartIdx enclosureCount
          betweenQuotes) (some searchStartIdx))
      else
        (buffer, searchFrame limit buffer openEnclosure closeEnclosure (rewind buffer searchStartIdx)
          (searchStartIdx + nread) enclosureCount betweenQuotes)

end

/-! ## The two ways to use it -/

section
variable {ι : Type}

/-- `raw_parse` suspended: its buffer, without what is after the start index, and the consumer. -/
structure RawParseState where
  buffer : Bytes
  consumer : RawParse
  deriving DecidableEq, Repr

/-- `del buffer[start_idx:]` and `yield`, or the end of `raw_parse`. -/
def RawParseState.resume :
    Bytes × Result ι → Resumed RawParseState Unit (Bytes × Bytes) (SerializerError ι)
  | (buffer, .yielded consumer startIdx) => .yielded ⟨buffer.take (startIdx.getD 0), consumer⟩ ()
  | (_, .returned r) => .returned r
  | (_, .raised e) => .raised (.incremental e)

/-- `raw_parse(limit=limit)`. -/
def rawParse (limit : ℕ) : Generator RawParseState Bytes Unit (Bytes × Bytes) (SerializerError ι) where
  next :=
    if limit = 0 then .raised (.other "limit must be a positive integer")
    else RawParseState.resume ([], (rawParseImpl limit).next [])
  send st toWrite :=
    RawParseState.resume ((rawParseImpl limit).send st.consumer (st.buffer ++ toWrite) toWrite.length)

/-- `raw_parse_with_external_buffer(buffer)`, with the limit that is taken from the buffer. -/
def rawParseWithExternalBuffer :
    BufferGenerator (ℕ × RawParse) UInt8 (Bytes × Bytes) (SerializerError ι) where
  next buffer :=
    let limit := buffer.length
    if limit = 0 then .raised (.other "the buffer is empty")
    else match (rawParseImpl (ι := ι) limit).next buffer with
      | .yielded s y => .yielded (limit, s) y
      | .returned r => .returned r
      | .raised e => .raised (.incremental e)
  send s buffer nread :=
    match (rawParseImpl (ι := ι) s.1).send s.2 buffer nread with
    | (buffer, .yielded s' y) => (buffer, .yielded (s.1, s') y)
    | (buffer, .returned r) => (buffer, .returned r)
    | (buffer, .raised e) => (buffer, .raised (.incremental e))

end

end EasyNetwork.JsonParser
