/-
  `JSONSerializer` with `use_lines` (`serializers/json.py`): one document a line.

  * `linesImplements`, `linesBufferImplements`: the generators read what the framer cuts at the
    newline.
  * `newline_notMem_encode`: there is no newline in a compact JSON text.
-/
import EasyNetwork.JsonDelivery
import EasyNetwork.SeparatedDelivery

namespace EasyNetwork

open Coroutine Search Framing

namespace JSONSerializer

variable {P : Type} {S : JSONSerializer P} (converter : Converter P JsonErrorInfo)

theorem newline_ne : ([10] : Bytes) ≠ [] := List.cons_ne_nil _ _

/-- `read_until` of `incremental_deserialize` suspended, after it has received `b`. -/
def LineHas (s : ReadUntil ⊕ JsonParser.RawParseState) (b : Bytes) : Prop :=
  ∃ state, s = .inl state ∧ state.Has [10] b

/-- `_buffered_readuntil` suspended, after it has received `b` at the beginning of the buffer. -/
def LineBufferHas (limit : ℕ) (s : BufferedReaduntil ⊕ (ℕ × JsonParser.RawParse)) (n : ℕ)
    (buf b : Bytes) : Prop :=
  ∃ state, s = .inl state ∧ AutoSeparatedPacketSerializer.BufferHas [10] limit state n buf b

variable (S) in
/-- The serializer that reads the same lines. -/
def lines : AutoSeparatedPacketSerializer Bytes JsonErrorInfo where
  separator := [10]
  limit := S.limit
  incrementalSerializeCheckSeparator := true
  serialize := .ok
  deserialize := .ok
  separator_ne := newline_ne
  limit_pos := S.limit_pos

variable (hlines : S.useLines = true)
include hlines

theorem linesImplements : Implements (S.protocol converter).buildPacketFromChunks
    (segmenter [10] newline_ne) (S.report converter)
    (S.Handles (segmenter [10] newline_ne) (Fits newline_ne S.limit)) LineHas where
  next := by
    refine ⟨.inl .filling, ?_, .filling, rfl, rfl⟩
    simp only [StreamProtocol.buildPacketFromChunks, protocol, incrementalDeserialize,
      Generator.finish, Generator.either, hlines, if_true]
    have h := S.lines.frame_next
    simp only [AutoSeparatedPacketSerializer.frame, lines] at h
    rw [h]
    rfl
  norm h := h
  send_none := by
    rintro s b c ⟨state, rfl, hs⟩ _ ⟨hok, -⟩ _ hn
    rw [segmenter_dec_none] at hn
    have hle := hok.none_le _ hn
    obtain ⟨state', h1, h2⟩ := AutoSeparatedPacketSerializer.frame_send_none (S := S.lines) hs hn
      (by simp only [lines, List.length_singleton]; omega)
    refine ⟨.inl state', ?_, state', rfl, h2⟩
    simp only [AutoSeparatedPacketSerializer.frame, lines] at h1
    simp only [StreamProtocol.buildPacketFromChunks, protocol, incrementalDeserialize,
      Generator.finish, Generator.either, h1]
    rfl
  send_some := by
    rintro s b c o r ⟨state, rfl, hs⟩ _ hhandles _ hd
    have hcaught := hhandles.caught hd
    have hok := hhandles.1
    obtain ⟨i, hi, rfl, rfl⟩ := (segmenter_dec_some _).1 hd
    have hle := hok.some_le _ hi
    have h1 := AutoSeparatedPacketSerializer.frame_send_some (S := S.lines) hs hi
      (by simp only [lines]; omega)
    simp only [AutoSeparatedPacketSerializer.frame, lines] at h1
    simp only [StreamProtocol.buildPacketFromChunks, protocol, incrementalDeserialize,
      Generator.finish, Generator.either, h1]
    exact finish_document converter hcaught _

theorem linesBufferImplements : BufferImplements (S.bufferedProtocol converter).buildPacketFromBuffer
    (segmenter [10] newline_ne) (S.report converter)
    (S.Handles (segmenter [10] newline_ne) (Fits newline_ne S.limit)) S.limit
    (LineBufferHas S.limit) where
  next := by
    intro buf hl
    refine ⟨.inl .starting, some 0, ?_, rfl, .starting, rfl, rfl, rfl, hl, rfl, S.limit_pos⟩
    simp only [BufferedStreamProtocol.buildPacketFromBuffer, bufferedProtocol,
      bufferedIncrementalDeserialize, bufferedDocument, BufferGenerator.finish,
      BufferGenerator.either, hlines, if_true]
    rfl
  norm h := h
  lt := by
    rintro s n buf b ⟨state, -, h⟩
    exact ⟨h.start ▸ h.free, h.length⟩
  send_none := by
    rintro s n buf b c ⟨state, rfl, hs⟩ _ hl ⟨hok, -⟩ _ hn
    rw [segmenter_dec_none] at hn
    have hfree := hok.none_le _ hn
    obtain ⟨h1, h2⟩ := hs.write hl
    rcases bufferedReaduntil_send_none newline_ne hs.has h2 hn (ι := JsonErrorInfo) with
      ⟨state', h3, h4⟩ | ⟨h3, -⟩
    · refine ⟨.inl state', some (b ++ c).length, writeAt buf n c, ?_, state', rfl, h4, rfl, h1, h2,
        by omega⟩
      simp only [BufferedStreamProtocol.buildPacketFromBuffer, bufferedProtocol,
        bufferedIncrementalDeserialize, bufferedDocument, BufferGenerator.finish,
      BufferGenerator.either, h3]
      rfl
    · omega
  send_some := by
    rintro s n buf b c o r ⟨state, rfl, hs⟩ _ hl hhandles _ hd
    have hcaught := hhandles.caught hd
    obtain ⟨i, hi, rfl, rfl⟩ := (segmenter_dec_some _).1 hd
    obtain ⟨h1, h2⟩ := hs.write hl
    have h3 := bufferedReaduntil_send_some newline_ne hs.has h2 hi (ι := JsonErrorInfo)
    have hbc : (b ++ c).length ≤ S.limit := by
      rw [List.length_append, ← hs.start]
      exact hl
    have htake : (writeAt buf n c).take i = (b ++ c).take i := by
      rw [← h2, List.take_take, min_eq_left]
      have := find_le hi newline_ne
      omega
    refine ⟨writeAt buf n c, ?_, h1, by rw [List.length_drop]; omega⟩
    simp only [BufferedStreamProtocol.buildPacketFromBuffer, bufferedProtocol,
      bufferedIncrementalDeserialize, bufferedDocument, BufferGenerator.finish,
      BufferGenerator.either, h3, Resumed.finish_returned, bufferedLine, h2, htake]
    exact congrArg (Prod.mk _) (finish_document converter hcaught _)

omit hlines

/-! ## No newline -/

theorem ne_newline_of_stringBody {cs : List Char} (h : StringBody cs) : ∀ c ∈ cs, c ≠ '\n' := by
  induction h with
  | nil => nofun
  | plain _ _ hprint _ ih =>
    intro c hc
    rcases List.mem_cons.1 hc with rfl | hc
    · rintro rfl
      exact absurd hprint (by decide)
    · exact ih c hc
  | escape hc _ ih =>
    intro c hc'
    rcases List.mem_cons.1 hc' with rfl | hc'
    · decide
    · rcases List.mem_cons.1 hc' with rfl | hc'
      · rintro rfl
        exact absurd hc (by decide)
      · exact ih c hc'

theorem ne_newline_of_quoted {body : List Char} (h : StringBody body) :
    ∀ c ∈ quoted body, c ≠ '\n' := by
  intro c hc
  simp only [quoted, List.cons_append, List.mem_cons, List.mem_append, List.not_mem_nil,
    or_false] at hc
  rcases hc with rfl | hc | rfl
  · decide
  · exact ne_newline_of_stringBody h c hc
  · decide

theorem ne_newline_of_intercalate {items : List (List Char)}
    (h : ∀ item ∈ items, ∀ c ∈ item, c ≠ '\n') : ∀ c ∈ [','].intercalate items, c ≠ '\n' := by
  induction items with
  | nil => nofun
  | cons item items ih =>
    have hitem := h item List.mem_cons_self
    have hrest := ih fun item' hitem' => h item' (List.mem_cons_of_mem _ hitem')
    cases items with
    | nil => simpa using hitem
    | cons item' items =>
      intro c hc
      simp only [List.intercalate_cons_cons, List.mem_append, List.mem_singleton] at hc
      rcases hc with (hc | rfl) | hc
      · exact hitem c hc
      · decide
      · exact hrest c hc

theorem ne_newline_of_compactJson {cs : List Char} (h : CompactJson cs) : ∀ c ∈ cs, c ≠ '\n' := by
  -- between the brackets
  have hbracketed : ∀ {o c : Char} {mid : List Char}, o ≠ '\n' → c ≠ '\n' →
      (∀ d ∈ mid, d ≠ '\n') → ∀ d ∈ o :: mid ++ [c], d ≠ '\n' := by
    intro o c mid ho hc hmid d hd
    simp only [List.cons_append, List.mem_cons, List.mem_append, List.not_mem_nil, or_false] at hd
    rcases hd with rfl | hd | rfl
    · exact ho
    · exact hmid d hd
    · exact hc
  induction h with
  | scalar _ hall =>
    rintro c hc rfl
    rcases hall _ hc with h | h | h | h <;> revert h <;> decide
  | string hbody => exact ne_newline_of_quoted hbody
  | array _ ih => exact hbracketed (by decide) (by decide) (ne_newline_of_intercalate ih)
  | object hkeys _ ih =>
    refine hbracketed (by decide) (by decide) (ne_newline_of_intercalate fun item hitem c hc => ?_)
    obtain ⟨m, hm, rfl⟩ := List.mem_map.1 hitem
    rw [memberText, List.mem_append, List.mem_cons] at hc
    rcases hc with hc | rfl | hc
    · exact ne_newline_of_quoted (hkeys m hm) c hc
    · decide
    · exact ih m hm c hc

/-- **There is no newline in the encoding of a compact JSON text.** -/
theorem newline_notMem_encode {text : String} (h : CompactJson text.toList) :
    (10 : UInt8) ∉ Utf8.encode text := by
  intro hmem
  rw [Utf8.encode, Utf8.encodeList, List.mem_flatMap] at hmem
  obtain ⟨c, hc, hb⟩ := hmem
  exact JsonParser.ne_of_mem_encodeChar (ne_newline_of_compactJson h c hc) (by decide) 10 hb rfl

end JSONSerializer

end EasyNetwork
