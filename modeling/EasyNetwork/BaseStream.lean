/-
  `AutoSeparatedPacketSerializer` (`serializers/base_stream.py`): packets separated by a
  byte sequence.

  * `incrementalSerialize` appends the separator to the serialized packet;
  * `incrementalDeserialize` reads until the separator with a `GeneratorStreamReader`;
  * `bufferedIncrementalDeserialize` does so in a buffer that the caller fills
    (`bufferedReaduntil`).
-/
import EasyNetwork.Tools
import EasyNetwork.Protocol

namespace EasyNetwork

open Coroutine Search

/-- What `incremental_serialize` may raise: what `serialize` raises, or the `ValueError` for a
    separator that is not at the end of the serialized packet. -/
inductive SerializeError (P : Type) where
  | raised (exc : String)
  | separatorFound (separator : Bytes) (packet : P)
  deriving DecidableEq, Repr

/-- `AutoSeparatedPacketSerializer`, with the checks of its constructor. -/
structure AutoSeparatedPacketSerializer (P ι : Type) where
  separator : Bytes
  limit : ℕ
  incrementalSerializeCheckSeparator : Bool
  /-- the abstract method `serialize`; it may raise any exception -/
  serialize : P → Except String Bytes
  /-- the abstract method `deserialize` -/
  deserialize : Bytes → Except (DeserializeError ι) P
  separator_ne : separator ≠ []
  limit_pos : 0 < limit

/-! ## Serialization -/

/-- `while data.endswith(separator): data = data.removesuffix(separator)`. -/
def removeSeparators (separator data : Bytes) : Bytes :=
  if _h : separator ≠ [] ∧ separator <:+ data then
    removeSeparators separator (data.take (data.length - separator.length))
  else data
termination_by data.length
decreasing_by
  have := List.length_pos_iff.2 _h.1
  have := _h.2.length_le
  rw [List.length_take]; omega

theorem removeSeparators_of_not_suffix {sep data : Bytes} (h : ¬ sep <:+ data) :
    removeSeparators sep data = data := by
  rw [removeSeparators, dif_neg fun h' => h h'.2]

theorem removeSeparators_append {sep : Bytes} (hsep : sep ≠ []) (data : Bytes) :
    removeSeparators sep (data ++ sep) = removeSeparators sep data := by
  rw [removeSeparators, dif_pos ⟨hsep, List.suffix_append _ _⟩, List.length_append,
    Nat.add_sub_cancel, List.take_left]

/-- The data without its trailing separators. -/
theorem removeSeparators_spec {sep : Bytes} (hsep : sep ≠ []) (data : Bytes) :
    ¬ sep <:+ removeSeparators sep data ∧
      ∃ n, data = removeSeparators sep data ++ (List.replicate n sep).flatten := by
  induction hn : data.length using Nat.strongRecOn generalizing data with
  | ind n ih =>
    by_cases h : sep <:+ data
    · obtain ⟨d, rfl⟩ := h
      have hlt : d.length < n := by
        have := List.length_pos_iff.2 hsep
        rw [← hn, List.length_append]; omega
      obtain ⟨h1, k, h2⟩ := ih _ hlt d rfl
      rw [removeSeparators_append hsep]
      refine ⟨h1, k + 1, ?_⟩
      rw [List.replicate_succ', List.flatten_append, List.flatten_singleton, ← List.append_assoc,
        ← h2]
    · rw [removeSeparators_of_not_suffix h]
      exact ⟨h, 0, by simp⟩

namespace AutoSeparatedPacketSerializer
variable {P ι : Type} (S : AutoSeparatedPacketSerializer P ι)

/-- `incremental_serialize`: the chunks that are yielded, or the exception that is raised. -/
def incrementalSerialize (packet : P) : Except (SerializeError P) (List Bytes) :=
  match S.serialize packet with
  | .error exc => .error (.raised exc)
  | .ok data =>
    if S.incrementalSerializeCheckSeparator then
      let data := removeSeparators S.separator data
      if S.separator <:+: data then .error (.separatorFound S.separator packet)
      else if data = [] then .ok []
      else .ok [data ++ S.separator]
    else if S.separator <:+ data then .ok [data]
    else if data = [] then .ok []
    else .ok [data ++ S.separator]

/-! ## Deserialization -/

/-- `deserialize` on the data of a packet: the verdict. -/
def verdict (data : Bytes) : Verdict P ι :=
  match S.deserialize data with
  | .ok packet => .ok packet
  | .error exc => .error (.deserialize ("Error when deserializing data: " ++ exc.message) exc.errorInfo)

/-- The part of `incremental_deserialize` before the call of `deserialize`: the data that is
    deserialized, and the remainder. -/
def frame : Generator ReadUntil Bytes Unit (Bytes × Bytes) (SerializerError ι) :=
  GeneratorStreamReader.readFrame S.separator S.limit

/-- `incremental_deserialize`. -/
def incrementalDeserialize :
    Generator ReadUntil Bytes Unit (P × Bytes) (SerializerError ι) :=
  S.frame.finish fun
    | .error e => .error e
    | .ok (data, remainder) => (S.verdict data).withRemainder remainder

/-- `create_deserializer_buffer`: the size hint is ignored. -/
def createDeserializerBuffer (_sizehint : ℕ) : Bytes := List.replicate S.limit 0

end AutoSeparatedPacketSerializer

/-- Where `_buffered_readuntil` is suspended. -/
inductive BufferedReaduntil where
  /-- at `buflen = yield 0` -/
  | starting
  /-- at `buflen += yield buflen` -/
  | searching (buflen offset : ℕ)
  deriving DecidableEq, Repr

/-- One round of `while True` in `_buffered_readuntil`. -/
def bufferedReaduntilLoop {ι : Type} (buffer separator : Bytes) (buflen offset : ℕ) :
    Resumed BufferedReaduntil (Option ℕ) (ℕ × ℕ × ℕ) (IncrementalDeserializeError ι) :=
  let lastIdx : ℤ := buffer.length - 1
  let seplen := separator.length
  let limit : ℤ := lastIdx - seplen
  if (buflen : ℤ) - offset ≥ seplen then
    match findFrom separator (buffer.take buflen) offset with
    | some sepidx => .returned (sepidx, sepidx + seplen, buflen)
    | none =>
      let offset := buflen + 1 - seplen
      if offset > limit then
        .raised (LimitOverrunError.init "Separator is not found, and chunk exceed the limit"
          buffer offset separator)
      else .yielded (.searching buflen offset) (some buflen)
  else .yielded (.searching buflen offset) (some buflen)

/-- `_buffered_readuntil(buffer, separator)`: the index of the separator, the index after it, and
    the number of bytes received. -/
def bufferedReaduntil {ι : Type} (separator : Bytes) :
    BufferGenerator BufferedReaduntil UInt8 (ℕ × ℕ × ℕ) (IncrementalDeserializeError ι) where
  next _ := .yielded .starting (some 0)
  send
    | .starting, buffer, n => (buffer, bufferedReaduntilLoop buffer separator n 0)
    | .searching buflen offset, buffer, n =>
      (buffer, bufferedReaduntilLoop buffer separator (buflen + n) offset)

namespace AutoSeparatedPacketSerializer
variable {P ι : Type} (S : AutoSeparatedPacketSerializer P ι)

/-- `buffered_incremental_deserialize`. -/
def bufferedIncrementalDeserialize :
    BufferGenerator BufferedReaduntil UInt8 (P × Bytes) (SerializerError ι) :=
  (bufferedReaduntil S.separator).finish fun buffer => fun
    | .error e => .error (.incremental e)
    | .ok (sepidx, offset, buflen) =>
      (S.verdict (buffer.take sepidx)).withRemainder ((buffer.take buflen).drop offset)

/-- `StreamProtocol(serializer, converter)`. -/
def protocol (converter : Converter P ι) : StreamProtocol ReadUntil P ι :=
  ⟨S.incrementalDeserialize, converter⟩

/-- `BufferedStreamProtocol(serializer, converter)`. -/
def bufferedProtocol (converter : Converter P ι) : BufferedStreamProtocol BufferedReaduntil P ι :=
  ⟨S.createDeserializerBuffer, S.bufferedIncrementalDeserialize, converter⟩

end AutoSeparatedPacketSerializer

/-! ## What a suspended `_buffered_readuntil` knows -/

/-- The generator suspended in `s` has received the bytes `b`, which do not contain the
    separator, and need not search again before its offset. -/
def BufferedReaduntil.Has (sep : Bytes) : BufferedReaduntil → Bytes → Prop
  | .starting, b => b = []
  | .searching buflen offset, b =>
    buflen = b.length ∧ find sep b = none ∧ offset = b.length + 1 - sep.length

section
variable {ι : Type} {sep b c buffer : Bytes} {offset i : ℕ} {s : BufferedReaduntil}

theorem bufferedReaduntilLoop_some (hb : buffer.take b.length = b) (hoff : offset ≤ b.length)
    (ho : ∀ j < offset, ¬ OccursAt sep b j) (hsep : sep ≠ []) (h : find sep b = some i) :
    (bufferedReaduntilLoop buffer sep b.length offset : Resumed _ _ _ (IncrementalDeserializeError ι)) =
      .returned (i, i + sep.length, b.length) := by
  have hi := find_le h hsep
  have hge : offset ≤ i := by
    by_contra hlt
    exact ho i (by omega) (find_eq_some_iff.1 h).1
  unfold bufferedReaduntilLoop
  simp only [hb, findFrom_eq_find ho hoff, h]
  rw [if_pos (by omega)]

/-- Without the separator the loop goes on, unless at most one byte of the buffer is free. -/
theorem bufferedReaduntilLoop_none (hb : buffer.take b.length = b) (hoff : offset ≤ b.length)
    (ho : ∀ j < offset, ¬ OccursAt sep b j) (h : find sep b = none)
    (ho' : b.length < offset + sep.length → offset = b.length + 1 - sep.length) :
    (bufferedReaduntilLoop buffer sep b.length offset :
          Resumed _ _ _ (IncrementalDeserializeError ι)) =
        .yielded (.searching b.length (b.length + 1 - sep.length)) (some b.length) ∨
      (buffer.length ≤ b.length + 1 ∧ sep.length ≤ b.length ∧
        (bufferedReaduntilLoop buffer sep b.length offset :
          Resumed _ _ _ (IncrementalDeserializeError ι)) =
          .raised (LimitOverrunError.init "Separator is not found, and chunk exceed the limit"
            buffer (b.length + 1 - sep.length) sep)) := by
  unfold bufferedReaduntilLoop
  simp only [hb, findFrom_eq_find ho hoff, h]
  split_ifs with h1 h2
  · exact Or.inr ⟨by omega, by omega, rfl⟩
  · exact Or.inl rfl
  · rw [ho' (by omega)]; exact Or.inl rfl

variable (hsep : sep ≠ []) (hs : s.Has sep b) (hb : buffer.take (b ++ c).length = b ++ c)
include hsep hs hb

/-- Resuming runs one round of the loop on all that was received. -/
theorem bufferedReaduntil_send :
    ∃ offset, (bufferedReaduntil sep : BufferGenerator _ _ _ (IncrementalDeserializeError ι)).send s
        buffer c.length = (buffer, bufferedReaduntilLoop buffer sep (b ++ c).length offset) ∧
      offset ≤ (b ++ c).length ∧ (∀ j < offset, ¬ OccursAt sep (b ++ c) j) ∧
      ((b ++ c).length < offset + sep.length → offset = (b ++ c).length + 1 - sep.length) := by
  cases s with
  | starting => cases hs; exact ⟨0, rfl, by simp, by simp, by omega⟩
  | searching buflen offset =>
    obtain ⟨rfl, hn, rfl⟩ := hs
    obtain ⟨h1, h2⟩ := GeneratorStreamReader.offset_spec (c := c) hsep hn
    exact ⟨_, by simp [bufferedReaduntil], h1, h2, by rw [List.length_append]; omega⟩

/-- **The read that completes the separator ends `_buffered_readuntil`.** -/
theorem bufferedReaduntil_send_some (h : find sep (b ++ c) = some i) :
    (bufferedReaduntil sep : BufferGenerator _ _ _ (IncrementalDeserializeError ι)).send s
        buffer c.length = (buffer, .returned (i, i + sep.length, (b ++ c).length)) := by
  obtain ⟨o, h1, h2, h3, -⟩ := bufferedReaduntil_send hsep hs hb (ι := ι)
  rw [h1, bufferedReaduntilLoop_some hb h2 h3 hsep h]

/-- **A read that does not complete the separator** suspends `_buffered_readuntil` again, or
    exceeds the limit. -/
theorem bufferedReaduntil_send_none (h : find sep (b ++ c) = none) :
    (∃ s', (bufferedReaduntil sep : BufferGenerator _ _ _ (IncrementalDeserializeError ι)).send s
        buffer c.length = (buffer, .yielded s' (some (b ++ c).length)) ∧ s'.Has sep (b ++ c)) ∨
      (buffer.length ≤ (b ++ c).length + 1 ∧ sep.length ≤ (b ++ c).length ∧
        (bufferedReaduntil sep : BufferGenerator _ _ _ (IncrementalDeserializeError ι)).send s
          buffer c.length = (buffer, .raised (LimitOverrunError.init
            "Separator is not found, and chunk exceed the limit" buffer
              ((b ++ c).length + 1 - sep.length) sep))) := by
  obtain ⟨o, h1, h2, h3, h4⟩ := bufferedReaduntil_send hsep hs hb (ι := ι)
  rcases bufferedReaduntilLoop_none hb h2 h3 h h4 (ι := ι) with h5 | ⟨h5, h6, h7⟩
  · exact Or.inl ⟨.searching _ _, by rw [h1, h5], rfl, h, rfl⟩
  · exact Or.inr ⟨h5, h6, by rw [h1, h7]⟩

end

end EasyNetwork
