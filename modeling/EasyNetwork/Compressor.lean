/-
  `AbstractCompressorSerializer` (`serializers/wrapper/compressor.py`).

  The compressor and the decompressor are given by what their interfaces promise (`Lawful`): fed
  with a compressed stream in pieces, the decompressor gives the data, reaches its end-of-stream
  marker with the last byte and keeps what comes behind.

  `incrementalDeserialize_spec`: the plain and the buffered generator end with the chunk that has
  the last compressed byte, with what the inner serializer makes of the data and with the bytes
  behind.
-/
import EasyNetwork.Protocol

namespace EasyNetwork

open Coroutine

/-! ## Compressors -/

/-- A `CompressorInterface` with its states. -/
structure Compressor (κ : Type) where
  new : κ
  compress : κ → Bytes → Bytes × κ
  flush : κ → Bytes

/-- What `decompress()` may raise: an error that is expected, or another one, by its text. -/
inductive DecompressError where
  | expected (exc : String)
  | other (exc : String)
  deriving DecidableEq, Repr

/-- A `DecompressorInterface` with its states. -/
structure Decompressor (δ : Type) where
  new : δ
  decompress : δ → Bytes → Except DecompressError (Bytes × δ)
  eof : δ → Bool
  unusedData : δ → Bytes

section
variable {κ δ : Type}

/-- The compressed stream. -/
def Compressor.stream (C : Compressor κ) (data : Bytes) : Bytes :=
  let (chunk, compressor) := C.compress C.new data
  chunk ++ C.flush compressor

/-- Decompress the pieces one after the other. -/
def Decompressor.feed (D : Decompressor δ) : δ → List Bytes → Except DecompressError (Bytes × δ)
  | decompressor, [] => .ok ([], decompressor)
  | decompressor, chunk :: chunks => do
    let (out, decompressor) ← D.decompress decompressor chunk
    let (outs, decompressor) ← D.feed decompressor chunks
    return (out ++ outs, decompressor)

/-- The stream has not ended before the last piece. -/
def Unended (stream : Bytes) (chunks : List Bytes) : Prop :=
  ∀ before chunk, chunks = before ++ [chunk] → before.flatten.length < stream.length

/-- The decompressor decompresses what the compressor has compressed. -/
structure Lawful (C : Compressor κ) (D : Decompressor δ) : Prop where
  feed : ∀ data rest chunks, chunks.flatten <+: C.stream data ++ rest →
    Unended (C.stream data) chunks → ∃ out decompressor,
      D.feed D.new chunks = .ok (out, decompressor) ∧
      (D.eof decompressor = true ↔ (C.stream data).length ≤ chunks.flatten.length) ∧
      (D.eof decompressor = true → out = data ∧
        D.unusedData decompressor = chunks.flatten.drop (C.stream data).length)

end

/-! ## The serializer -/

/-- What the inner serializer's `deserialize` may raise. -/
inductive DeserializeFailure (ι : Type) where
  | deserialize (e : DeserializeError ι)
  | other (exc : String)
  deriving DecidableEq, Repr

/-- An `AbstractPacketSerializer`. -/
structure PacketSerializer (P ι : Type) where
  serialize : P → Except String Bytes
  deserialize : Bytes → Except (DeserializeFailure ι) P

/-- The `error_info` of the compressor serializer; `inner` is that of the inner serializer. -/
inductive CompressorErrorInfo (ι : Type) where
  | data (data : Bytes)
  | alreadyDecompressed (data : Bytes)
  | extra (decompressedData extra : Bytes)
  | chunks (alreadyDecompressedChunks : List Bytes) (invalidChunk : Bytes)
  | inner (info : ι)
  deriving DecidableEq, Repr

/-- `AbstractCompressorSerializer`. -/
structure AbstractCompressorSerializer (κ δ P ι : Type) where
  serializer : PacketSerializer P ι
  compressor : Compressor κ
  decompressor : Decompressor δ
  debug : Bool

namespace AbstractCompressorSerializer
variable {κ δ P ι : Type} (self : AbstractCompressorSerializer κ δ P ι)

/-- `serialize`. -/
def serialize (packet : P) : Except String Bytes := do
  let data ← self.serializer.serialize packet
  let (chunk, compressor) := self.compressor.compress self.compressor.new data
  return chunk ++ self.compressor.flush compressor

/-- `incremental_serialize`. -/
def incrementalSerialize (packet : P) : Except String (List Bytes) := do
  let data ← self.serializer.serialize packet
  let (chunk, compressor) := self.compressor.compress self.compressor.new data
  return [chunk, self.compressor.flush compressor]

/-- The inner serializer's `deserialize`. -/
def deserializeInner (data : Bytes) : Except (DeserializeFailure (CompressorErrorInfo ι)) P :=
  match self.serializer.deserialize data with
  | .ok packet => .ok packet
  | .error (.deserialize e) => .error (.deserialize ⟨e.message, e.errorInfo.map .inner⟩)
  | .error (.other exc) => .error (.other exc)

/-- `deserialize`. -/
def deserialize (data : Bytes) : Except (DeserializeFailure (CompressorErrorInfo ι)) P :=
  match self.decompressor.decompress self.decompressor.new data with
  | .error (.expected exc) =>
    .error (.deserialize ⟨exc, if self.debug then some (.data data) else none⟩)
  | .error (.other exc) => .error (.other exc)
  | .ok (data, decompressor) =>
    if self.decompressor.eof decompressor = false then
      .error (.deserialize
        ⟨"Compressed data ended before the end-of-stream marker was reached",
          if self.debug then some (.alreadyDecompressed data) else none⟩)
    else if self.decompressor.unusedData decompressor ≠ [] then
      .error (.deserialize
        ⟨"Trailing data error",
          if self.debug then some (.extra data (self.decompressor.unusedData decompressor))
          else none⟩)
    else self.deserializeInner data

/-- The end of `__generic_incremental_deserialize`. -/
def finish (data unusedData : Bytes) :
    Except (SerializerError (CompressorErrorInfo ι)) (P × Bytes) :=
  match self.deserializeInner data with
  | .ok packet => .ok (packet, unusedData)
  | .error (.deserialize e) =>
    .error (.incremental ⟨.deserialize
      ("Error while deserializing decompressed data: " ++ e.message) e.errorInfo, unusedData⟩)
  | .error (.other exc) => .error (.other exc)

/-- `while not decompressor.eof`; the state has the `results`. -/
def loop (s : δ × List Bytes) :
    Resumed (δ × List Bytes) Unit (P × Bytes) (SerializerError (CompressorErrorInfo ι)) :=
  if self.decompressor.eof s.1 then
    .ofExcept (self.finish s.2.flatten (self.decompressor.unusedData s.1))
  else .yielded s ()

/-- `__generic_incremental_deserialize`. -/
def genericIncrementalDeserialize :
    Generator (δ × List Bytes) Bytes Unit (P × Bytes)
      (SerializerError (CompressorErrorInfo ι)) where
  next := self.loop (self.decompressor.new, [])
  send := fun (decompressor, results) chunk =>
    match self.decompressor.decompress decompressor chunk with
    | .error (.expected exc) =>
      .raised (.incremental ⟨.deserialize ("Decompression error: " ++ exc)
        (if self.debug then some (.chunks results chunk) else none), []⟩)
    | .error (.other exc) => .raised (.other exc)
    | .ok (out, decompressor) =>
      self.loop (decompressor, if out ≠ [] then results ++ [out] else results)

/-- `incremental_deserialize`. -/
def incrementalDeserialize :
    Generator (δ × List Bytes) Bytes Unit (P × Bytes) (SerializerError (CompressorErrorInfo ι)) :=
  self.genericIncrementalDeserialize

/-- `create_deserializer_buffer`. -/
def createDeserializerBuffer (sizehint : ℕ) : Bytes := List.replicate sizehint 0

/-- What `_wrap_generic_buffered_incremental_deserialize` makes of a step of the generator: it asks
    for bytes at the start of the buffer. -/
def wrapResumed {σ R E : Type} : Resumed σ Unit R E → Resumed σ (Option ℕ) R E
  | .yielded s _ => .yielded s none
  | .returned r => .returned r
  | .raised e => .raised e

/-- `buffered_incremental_deserialize`. -/
def bufferedIncrementalDeserialize :
    BufferGenerator (δ × List Bytes) UInt8 (P × Bytes)
      (SerializerError (CompressorErrorInfo ι)) where
  next _ :=
    match self.genericIncrementalDeserialize.next with
    | .yielded s _ => .yielded s none
    | .returned _ => .raised (.other "generator raised StopIteration")
    | .raised e => .raised e
  send s buffer nbytes :=
    (buffer, wrapResumed (self.genericIncrementalDeserialize.send s (buffer.take nbytes)))

end AbstractCompressorSerializer

/-! ## Feeding a decompressor -/

section
variable {κ δ : Type} {C : Compressor κ} {D : Decompressor δ} {stream data rest chunk out : Bytes}
  {chunks : List Bytes} {decompressor : δ}

theorem Decompressor.feed_concat (decompressor : δ) (chunks : List Bytes) (chunk : Bytes) :
    D.feed decompressor (chunks ++ [chunk]) = (D.feed decompressor chunks).bind fun (outs, s) =>
      (D.decompress s chunk).map fun (out, s) => (outs ++ out, s) := by
  induction chunks generalizing decompressor with
  | nil =>
    rw [List.nil_append, feed]
    dsimp only [feed, bind, Except.bind]
    cases D.decompress decompressor chunk with
    | error e => rfl
    | ok r => simp only [pure, Except.pure, Except.map, List.append_nil, List.nil_append]
  | cons c chunks ih =>
    rw [List.cons_append, feed, feed]
    dsimp only [bind, Except.bind]
    cases D.decompress decompressor c with
    | error e => rfl
    | ok r =>
      dsimp only
      rw [ih]
      cases D.feed r.2 chunks with
      | error e => rfl
      | ok r' =>
        dsimp only [Except.bind, pure, Except.pure]
        cases D.decompress r'.2 chunk with
        | error e => rfl
        | ok r'' => simp only [Except.map, List.append_assoc]

theorem unended_nil : Unended stream [] := fun before chunk h => by
  have := congrArg List.length h
  simp at this

theorem unended_concat :
    Unended stream (chunks ++ [chunk]) ↔ chunks.flatten.length < stream.length := by
  constructor
  · exact fun h => h chunks chunk rfl
  · intro h before chunk' heq
    obtain ⟨rfl, -⟩ := List.append_inj' heq rfl
    exact h

/-- The pieces before have not ended the stream either. -/
theorem unended_of_concat (h : Unended stream (chunks ++ [chunk])) : Unended stream chunks := by
  rintro before chunk' rfl
  have hlt := unended_concat.1 h
  rw [List.flatten_append, List.length_append] at hlt
  omega

/-- A fresh decompressor cannot have reached the end of every compressed stream. -/
theorem Lawful.eof_new (h : Lawful C D) : D.eof D.new = false := by
  obtain ⟨out, decompressor, hfeed, -, hend⟩ := h.feed [0] [] [] List.nil_prefix unended_nil
  cases hfeed
  cases heof : D.eof D.new with
  | false => rfl
  | true => cases (hend heof).1

/-- The stream has not ended before the last piece, which is decompressed. -/
theorem Lawful.step (h : Lawful C D)
    (hpiece : (chunks ++ [chunk]).flatten <+: C.stream data ++ rest)
    (hunended : Unended (C.stream data) (chunks ++ [chunk]))
    (hfeed : D.feed D.new chunks = .ok (out, decompressor)) :
    D.eof decompressor = false ∧
      ∃ out' decompressor', D.decompress decompressor chunk = .ok (out', decompressor') := by
  constructor
  · have hpiece' : chunks.flatten <+: C.stream data ++ rest := by
      rw [List.flatten_append] at hpiece
      exact (List.prefix_append _ _).trans hpiece
    obtain ⟨_, _, hfeed', heof, -⟩ := h.feed data rest chunks hpiece' (unended_of_concat hunended)
    cases hfeed.symm.trans hfeed'
    have hlt := unended_concat.1 hunended
    rw [Bool.eq_false_iff]
    exact fun htrue => absurd (heof.1 htrue) (by omega)
  · obtain ⟨_, _, hfeed', -, -⟩ := h.feed data rest (chunks ++ [chunk]) hpiece hunended
    rw [Decompressor.feed_concat, hfeed] at hfeed'
    dsimp only [Except.bind] at hfeed'
    cases hdecompress : D.decompress decompressor chunk with
    | error e =>
      rw [hdecompress] at hfeed'
      cases hfeed'
    | ok r => exact ⟨r.1, r.2, rfl⟩

/-- No compressed stream is empty. -/
theorem Lawful.stream_ne_nil (h : Lawful C D) (data : Bytes) : C.stream data ≠ [] := by
  intro hnil
  obtain ⟨out, decompressor, hfeed, heof, -⟩ := h.feed data [] [] List.nil_prefix unended_nil
  cases hfeed
  rw [h.eof_new, hnil] at heof
  cases heof.2 (Nat.le_refl 0)

end

/-! ## The generators -/

namespace AbstractCompressorSerializer
variable {κ δ P ι : Type} {self : AbstractCompressorSerializer κ δ P ι}
  {data rest stream : Bytes} {packet : P}

theorem serialize_eq (h : self.serializer.serialize packet = .ok data) :
    self.serialize packet = .ok (self.compressor.stream data) := by
  rw [serialize, h]
  rfl

/-- The pieces are those of the one-shot serialization. -/
theorem flatten_incrementalSerialize (self : AbstractCompressorSerializer κ δ P ι) (packet : P) :
    (self.incrementalSerialize packet).map List.flatten = self.serialize packet := by
  rw [incrementalSerialize, serialize]
  cases self.serializer.serialize packet with
  | error e => rfl
  | ok data =>
    dsimp only [bind, Except.bind, pure, Except.pure, Except.map]
    rw [List.flatten_cons, List.flatten_singleton]

/-- A chunk that is decompressed. -/
theorem send_eq {decompressor decompressor' : δ} {results : List Bytes} {chunk out : Bytes}
    (h : self.decompressor.decompress decompressor chunk = .ok (out, decompressor')) :
    self.genericIncrementalDeserialize.send (decompressor, results) chunk =
      self.loop (decompressor', if out ≠ [] then results ++ [out] else results) := by
  dsimp only [genericIncrementalDeserialize]
  rw [h]

theorem loop_of_eof {decompressor : δ} {results : List Bytes}
    (h : self.decompressor.eof decompressor = false) :
    self.loop (decompressor, results) = .yielded (decompressor, results) () :=
  if_neg (by rw [h]; exact Bool.false_ne_true)

/-- Empty pieces are not kept. -/
theorem flatten_results (results : List Bytes) (out : Bytes) :
    (if out ≠ [] then results ++ [out] else results).flatten = results.flatten ++ out := by
  split_ifs with h
  · rw [List.flatten_append, List.flatten_singleton]
  · rw [not_not.1 h, List.append_nil]

theorem buffered_send (s : δ × List Bytes) (buffer : Bytes) (nbytes : ℕ) :
    self.bufferedIncrementalDeserialize.send s buffer nbytes =
      (buffer, wrapResumed (self.genericIncrementalDeserialize.send s (buffer.take nbytes))) := rfl

/-- A chunk that is read into the buffer. -/
theorem buffered_after_concat {buffer buffer' chunk : Bytes} {chunks : List Bytes}
    {s : δ × List Bytes}
    (h : self.bufferedIncrementalDeserialize.after buffer chunks = some (buffer', .yielded s none))
    (hfit : chunk.length ≤ buffer'.length) :
    self.bufferedIncrementalDeserialize.after buffer (chunks ++ [chunk]) =
      some (writeAt buffer' 0 chunk,
        wrapResumed (self.genericIncrementalDeserialize.send s chunk)) := by
  have hfit' : 0 + chunk.length ≤ buffer'.length := by omega
  have hread : (writeAt buffer' 0 chunk).take chunk.length = chunk := by
    have := take_writeAt hfit'
    rwa [Nat.zero_add, List.take_zero, List.nil_append] at this
  rw [BufferGenerator.after, BufferGenerator.sendAll_append, ← BufferGenerator.after, h,
    Option.bind_some, BufferGenerator.sendAll, Option.getD_none, if_pos hfit',
    BufferGenerator.sendAll, buffered_send, hread]

/-- **Both generators** hold what the decompressor has given. -/
theorem after_spec (h : Lawful self.compressor self.decompressor) {chunks : List Bytes}
    (hpiece : chunks.flatten <+: self.compressor.stream data ++ rest)
    (hunended : Unended (self.compressor.stream data) chunks) :
    ∃ results decompressor,
      self.decompressor.feed self.decompressor.new chunks = .ok (results.flatten, decompressor) ∧
      self.incrementalDeserialize.after chunks = some (self.loop (decompressor, results)) ∧
      ∀ buffer : Bytes, (∀ c ∈ chunks, c.length ≤ buffer.length) → ∃ buffer' : Bytes,
        buffer'.length = buffer.length ∧
        self.bufferedIncrementalDeserialize.after buffer chunks =
          some (buffer', wrapResumed (self.loop (decompressor, results))) := by
  induction chunks using List.reverseRecOn with
  | nil =>
    refine ⟨[], _, rfl, rfl, fun buffer _ => ⟨buffer, rfl, ?_⟩⟩
    have hnext : self.genericIncrementalDeserialize.next =
        .yielded (self.decompressor.new, []) () := loop_of_eof h.eof_new
    rw [BufferGenerator.after, BufferGenerator.sendAll, bufferedIncrementalDeserialize, hnext,
      loop_of_eof h.eof_new]
    rfl
  | append_singleton chunks chunk ih =>
    have hpiece' : chunks.flatten <+: self.compressor.stream data ++ rest := by
      rw [List.flatten_append] at hpiece
      exact (List.prefix_append _ _).trans hpiece
    obtain ⟨results, decompressor, hfeed, hafter, hbuffered⟩ :=
      ih hpiece' (unended_of_concat hunended)
    obtain ⟨hopen, out, decompressor', hdecompress⟩ := h.step hpiece hunended hfeed
    rw [loop_of_eof hopen] at hafter hbuffered
    refine ⟨if out ≠ [] then results ++ [out] else results, decompressor', ?_, ?_, ?_⟩
    · rw [Decompressor.feed_concat, hfeed, flatten_results]
      dsimp only [Except.bind]
      rw [hdecompress]
      rfl
    · rw [Generator.after_concat, hafter]
      exact congrArg some (send_eq hdecompress)
    · intro buffer hfits
      obtain ⟨buffer', hlength, hbuffer'⟩ := hbuffered buffer fun c hc =>
        hfits c (List.mem_append_left _ hc)
      have hfit : chunk.length ≤ buffer'.length := by
        rw [hlength]
        exact hfits chunk (List.mem_append_right _ List.mem_cons_self)
      refine ⟨writeAt buffer' 0 chunk, ?_, ?_⟩
      · rw [length_writeAt (by omega), hlength]
      · rw [buffered_after_concat hbuffer' hfit, send_eq hdecompress]

/-- The decompressor gets the whole stream at once. -/
theorem deserialize_stream (h : Lawful self.compressor self.decompressor) (data : Bytes) :
    self.deserialize (self.compressor.stream data) = self.deserializeInner data := by
  have hunended : Unended (self.compressor.stream data) ([] ++ [self.compressor.stream data]) :=
    unended_concat.2 (List.length_pos_iff.2 (h.stream_ne_nil data))
  have hflatten : ([] ++ [self.compressor.stream data]).flatten = self.compressor.stream data :=
    List.flatten_singleton
  obtain ⟨out, decompressor, hfeed, heof, hend⟩ := h.feed data [] _
    (by rw [hflatten, List.append_nil]) hunended
  rw [hflatten] at heof hend
  have hdone := heof.2 (Nat.le_refl _)
  obtain ⟨rfl, hunused⟩ := hend hdone
  rw [List.drop_length] at hunused
  rw [Decompressor.feed_concat] at hfeed
  dsimp only [Decompressor.feed, Except.bind] at hfeed
  rw [deserialize]
  cases hdecompress : self.decompressor.decompress self.decompressor.new
      (self.compressor.stream out) with
  | error e =>
    rw [hdecompress] at hfeed
    cases hfeed
  | ok r =>
    rw [hdecompress] at hfeed
    cases hfeed
    dsimp only
    rw [hdone, hunused]
    rfl

variable (self) in
/-- Both generators end when they are given the chunks, and not before. -/
def EndWith (chunks : List Bytes)
    (outcome : Except (SerializerError (CompressorErrorInfo ι)) (P × Bytes)) : Prop :=
  self.incrementalDeserialize.after chunks = some (.ofExcept outcome) ∧
    ∀ buffer : Bytes, (∀ c ∈ chunks, c.length ≤ buffer.length) → ∃ buffer',
      self.bufferedIncrementalDeserialize.after buffer chunks = some (buffer', .ofExcept outcome)

/-- The decompressor has reached its end. -/
theorem endWith_of_eof {chunks : List Bytes} {results : List Bytes} {decompressor : δ}
    {outcome : Except (SerializerError (CompressorErrorInfo ι)) (P × Bytes)}
    (hloop : self.loop (decompressor, results) = .ofExcept outcome)
    (hafter : self.incrementalDeserialize.after chunks = some (self.loop (decompressor, results)))
    (hbuffered : ∀ buffer : Bytes, (∀ c ∈ chunks, c.length ≤ buffer.length) → ∃ buffer',
      buffer'.length = buffer.length ∧ self.bufferedIncrementalDeserialize.after buffer chunks =
        some (buffer', wrapResumed (self.loop (decompressor, results)))) :
    self.EndWith chunks outcome := by
  rw [hloop] at hafter hbuffered
  refine ⟨hafter, fun buffer hfits => ?_⟩
  obtain ⟨buffer', -, hbuffer'⟩ := hbuffered buffer hfits
  refine ⟨buffer', ?_⟩
  rw [hbuffer']
  cases outcome with
  | ok r => rfl
  | error e => rfl

/-- **The generators end with the last compressed byte**: while it has not arrived they wait; with it
    they hand the data to the inner serializer, as the one-shot `deserialize` does, and give back what
    has been received behind, with the packet or in the error. -/
theorem incrementalDeserialize_spec (h : Lawful self.compressor self.decompressor)
    (hdata : self.serializer.serialize packet = .ok data)
    (hstream : self.serialize packet = .ok stream) (rest : Bytes) :
    self.deserialize stream = self.deserializeInner data ∧
      ∀ chunks : List Bytes, chunks.flatten <+: stream ++ rest → Unended stream chunks →
        (chunks.flatten.length < stream.length →
          ∃ s, self.incrementalDeserialize.after chunks = some (.yielded s ()) ∧
            ∀ buffer : Bytes, (∀ c ∈ chunks, c.length ≤ buffer.length) → ∃ buffer',
              self.bufferedIncrementalDeserialize.after buffer chunks =
                some (buffer', .yielded s none)) ∧
        ∀ remainder, chunks.flatten = stream ++ remainder →
          (∀ received, self.serializer.deserialize data = .ok received →
            self.EndWith chunks (.ok (received, remainder))) ∧
          (∀ e, self.serializer.deserialize data = .error (.deserialize e) →
            self.EndWith chunks (.error (.incremental
              ⟨.deserialize ("Error while deserializing decompressed data: " ++ e.message)
                (e.errorInfo.map .inner), remainder⟩))) ∧
          ∀ exc, self.serializer.deserialize data = .error (.other exc) →
            self.EndWith chunks (.error (.other exc)) := by
  cases (serialize_eq hdata).symm.trans hstream
  refine ⟨deserialize_stream h data, fun chunks hpiece hunended => ?_⟩
  obtain ⟨results, decompressor, hfeed, hafter, hbuffered⟩ := after_spec h hpiece hunended
  obtain ⟨_, _, hfeed', heof, hend⟩ := h.feed data rest chunks hpiece hunended
  cases hfeed.symm.trans hfeed'
  constructor
  · intro hlt
    have hopen : self.decompressor.eof decompressor = false := by
      rw [Bool.eq_false_iff]
      exact fun htrue => absurd (heof.1 htrue) (by omega)
    rw [loop_of_eof hopen] at hafter hbuffered
    refine ⟨_, hafter, fun buffer hfits => ?_⟩
    obtain ⟨buffer', -, hbuffer'⟩ := hbuffered buffer hfits
    exact ⟨buffer', hbuffer'⟩
  · intro remainder hremainder
    have hdone : self.decompressor.eof decompressor = true :=
      heof.2 (by rw [hremainder, List.length_append]; omega)
    obtain ⟨hresults, hunused⟩ := hend hdone
    rw [hremainder, List.drop_left] at hunused
    have hloop : self.loop (decompressor, results) = .ofExcept (self.finish data remainder) := by
      rw [loop, if_pos hdone, hresults, hunused]
    -- what `finish` makes of the outcome of the inner serializer
    have hends : ∀ {outcome}, self.finish data remainder = outcome → self.EndWith chunks outcome := by
      rintro _ rfl
      exact endWith_of_eof hloop hafter hbuffered
    refine ⟨fun received hinner => hends ?_, fun e hinner => hends ?_, fun exc hinner => hends ?_⟩
    · rw [finish, deserializeInner, hinner]
    · rw [finish, deserializeInner, hinner]
    · rw [finish, deserializeInner, hinner]

end AbstractCompressorSerializer

/-! ## A format of stored bytes -/

namespace Stored

/-- A one before each byte, and a zero at the end. -/
def encode (data : Bytes) : Bytes := data.flatMap (fun b => [1, b]) ++ [0]

/-- The data of a stream that has arrived, and what is behind it. -/
def decode : Bytes → Option (Bytes × Bytes)
  | 0 :: rest => some ([], rest)
  | 1 :: b :: rest => (decode rest).map fun (data, rest) => (b :: data, rest)
  | _ => none

def compressor : Compressor Unit where
  new := ()
  compress _ data := (data.flatMap fun b => [1, b], ())
  flush _ := [0]

/-- Everything is kept until the end. -/
def decompressor : Decompressor Bytes where
  new := []
  decompress buffer chunk :=
    match decode (buffer ++ chunk) with
    | some (data, _) => .ok (data, buffer ++ chunk)
    | none => .ok ([], buffer ++ chunk)
  eof buffer := (decode buffer).isSome
  unusedData buffer := ((decode buffer).map Prod.snd).getD []

theorem decode_encode (data rest : Bytes) : decode (encode data ++ rest) = some (data, rest) := by
  induction data with
  | nil => rfl
  | cons b data ih =>
    have hcons : encode (b :: data) ++ rest = 1 :: b :: (encode data ++ rest) := rfl
    rw [hcons, decode, ih]
    rfl

/-- A stream that has not arrived. -/
theorem decode_eq_none {data received : Bytes} (h : received <+: encode data)
    (hlt : received.length < (encode data).length) : decode received = none := by
  induction data generalizing received with
  | nil =>
    have hnil : received = [] := List.length_eq_zero_iff.1 (Nat.lt_one_iff.1 hlt)
    rw [hnil]
    rfl
  | cons b data ih =>
    have hcons : encode (b :: data) = 1 :: b :: encode data := rfl
    rw [hcons] at h hlt
    match received with
    | [] => rfl
    | [x] =>
      obtain rfl := (List.cons_prefix_cons.1 h).1
      rfl
    | x :: y :: received =>
      obtain ⟨hx, h'⟩ := List.cons_prefix_cons.1 h
      obtain ⟨hy, h''⟩ := List.cons_prefix_cons.1 h'
      rw [hx, decode, ih h'' (by simp only [List.length_cons] at hlt; omega)]
      rfl

/-- What has arrived, decoded when it is complete. -/
theorem decode_received {data rest received : Bytes} (h : received <+: encode data ++ rest) :
    decode received = if (encode data).length ≤ received.length then
      some (data, received.drop (encode data).length) else none := by
  split_ifs with hle
  · obtain ⟨remainder, rfl⟩ := List.prefix_of_prefix_length_le (List.prefix_append _ rest) h hle
    rw [decode_encode, List.drop_left]
  · exact decode_eq_none
      (List.prefix_of_prefix_length_le h (List.prefix_append _ rest) (by omega)) (by omega)

theorem feed_eq {data rest : Bytes} {chunks : List Bytes}
    (h : chunks.flatten <+: encode data ++ rest) (hunended : Unended (encode data) chunks) :
    decompressor.feed [] chunks =
      .ok (((decode chunks.flatten).map Prod.fst).getD [], chunks.flatten) := by
  induction chunks using List.reverseRecOn with
  | nil => rfl
  | append_singleton chunks chunk ih =>
    rw [List.flatten_append] at h
    have h' := (List.prefix_append _ _).trans h
    rw [Decompressor.feed_concat, ih h' (unended_of_concat hunended), decode_received h',
      if_neg (Nat.not_le.2 (unended_concat.1 hunended)), List.flatten_append,
      List.flatten_singleton]
    dsimp only [Except.bind, decompressor]
    cases decode (chunks.flatten ++ chunk) with
    | none => rfl
    | some r => rfl

theorem lawful : Lawful compressor decompressor where
  feed data rest chunks h hunended := by
    have hstream : compressor.stream data = encode data := rfl
    rw [hstream] at h hunended ⊢
    refine ⟨_, _, feed_eq h hunended, ?_, ?_⟩
    · dsimp only [decompressor]
      rw [decode_received h]
      split_ifs with hle
      · exact ⟨fun _ => hle, fun _ => rfl⟩
      · exact ⟨fun h => (by cases h), fun h => absurd h hle⟩
    · dsimp only [decompressor]
      rw [decode_received h]
      split_ifs with hle
      · exact fun _ => ⟨rfl, rfl⟩
      · exact fun h => by cases h

/-- The packets are bytes. -/
def serializer : AbstractCompressorSerializer Unit Bytes Bytes Unit where
  serializer := { serialize := .ok, deserialize := .ok }
  compressor := compressor
  decompressor := decompressor
  debug := false

/-- No data are a packet. -/
def strict : AbstractCompressorSerializer Unit Bytes Bytes Unit :=
  { serializer with serializer := { serializer.serializer with
      deserialize := fun _ => .error (.deserialize ⟨"invalid packet", none⟩) } }

/-- Two packets in three chunks: the first one ends in the middle of the second chunk.  Whether it is
    received or not, the byte behind it is given back. -/
theorem incrementalDeserialize_stored :
    (∃ buffer, serializer.bufferedIncrementalDeserialize.after [0, 0, 0] [[1], [7, 0, 1]] =
      some (buffer, .returned ([7], [1]))) ∧
    ∃ buffer, strict.bufferedIncrementalDeserialize.after [0, 0, 0] [[1], [7, 0, 1]] =
      some (buffer, .raised (.incremental
        ⟨.deserialize "Error while deserializing decompressed data: invalid packet" none, [1]⟩)) := by
  have hunended : Unended [1, 7, 0] ([[1]] ++ [[7, 0, 1]]) := unended_concat.2 (by decide)
  constructor
  · obtain ⟨-, hchunks⟩ := AbstractCompressorSerializer.incrementalDeserialize_spec
      (show Lawful serializer.compressor serializer.decompressor from lawful)
      (show serializer.serializer.serialize [7] = .ok [7] from rfl)
      (show serializer.serialize [7] = .ok [1, 7, 0] from rfl) [1, 8, 0]
    obtain ⟨hreceived, -, -⟩ := (hchunks _ (by decide) hunended).2 [1] rfl
    exact (hreceived [7] rfl).2 [0, 0, 0] (by decide)
  · obtain ⟨-, hchunks⟩ := AbstractCompressorSerializer.incrementalDeserialize_spec
      (show Lawful strict.compressor strict.decompressor from lawful)
      (show strict.serializer.serialize [7] = .ok [7] from rfl)
      (show strict.serialize [7] = .ok [1, 7, 0] from rfl) [1, 8, 0]
    obtain ⟨-, hfailed, -⟩ := (hchunks _ (by decide) hunended).2 [1] rfl
    exact (hfailed ⟨"invalid packet", none⟩ rfl).2 [0, 0, 0] (by decide)

end Stored

end EasyNetwork
