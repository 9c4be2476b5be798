/-
  `StringLineSerializer` (`serializers/line.py`): how it sends lines, and how it receives them from
  chunks.

  * `implements`, `bufferImplements`: the generators read what the framer cuts at the newline.
  * `verdict_line`: of a whole line the generators make what `deserialize` makes of it.
-/
import EasyNetwork.BufferedFramers
import EasyNetwork.ReaderCalls
import EasyNetwork.SeparatedDelivery

namespace EasyNetwork

open Coroutine Search Framing

namespace StringLineSerializer
variable (S : StringLineSerializer)

/-! ## Sending and receiving -/

/-- `serialize`. -/
def serialize (packet : String) : Except String Bytes := S.codec.encode packet

/-- `incremental_serialize`: the chunks that are yielded, or the exception that is raised. -/
def incrementalSerialize (packet : String) : Except String (List Bytes) :=
  match S.codec.encode packet with
  | .error exc => .error exc
  | .ok data =>
    if data = [] then .ok []
    else if S.separator <:+ data then .ok [data]
    else .ok [data ++ S.separator]

/-- `deserialize`. -/
def deserialize (data : Bytes) : Except (DeserializeError Bytes) String :=
  let data := if S.keepEnd then data else removeSeparators S.separator data
  match S.codec.decode data with
  | .ok packet => .ok packet
  | .error exc => .error ⟨exc, if S.debug then some data else none⟩

/-- `incremental_deserialize`. -/
def incrementalDeserialize :
    Generator ReadUntil Bytes Unit (String × Bytes) (SerializerError Bytes) :=
  (GeneratorStreamReader.readUntil S.separator S.limit S.keepEnd []).finish fun
    | .error (.limitOverrun e, _) => .error (.incremental e)
    | .error (.valueError message, _) => .error (.other message)
    | .ok (data, remainder) => (S.verdict data).withRemainder remainder

/-- `StreamProtocol(serializer, converter)`. -/
def protocol (converter : Converter String Bytes) : StreamProtocol ReadUntil String Bytes :=
  ⟨S.incrementalDeserialize, converter⟩

/-! ## The lines of a stream -/

theorem separator_ne : S.separator ≠ [] := S.newline.separator_ne

/-- What a protocol with this serializer makes of the data before a newline. -/
def report (converter : Converter String Bytes) (data : Bytes) : Verdict String Bytes :=
  (S.verdict (if S.keepEnd then data ++ S.separator else data)).convert converter

variable {S}

/-- What `read_until` returns of a line. -/
theorem line_eq {b : Bytes} {i : ℕ} (h : find S.separator b = some i) :
    (if S.keepEnd then b.take (i + S.separator.length) else b.take i) =
      if S.keepEnd then b.take i ++ S.separator else b.take i := by
  split_ifs
  · exact GeneratorStreamReader.take_of_occursAt (find_eq_some_iff.1 h).1
  · rfl

theorem implements (converter : Converter String Bytes) :
    Implements (S.protocol converter).buildPacketFromChunks
      (segmenter S.separator S.separator_ne) (S.report converter) (Fits S.separator_ne S.limit)
      (ReadUntil.Has S.separator) where
  next := by
    refine ⟨.filling, ?_, rfl⟩
    have h1 := S.limit_pos
    have h2 := List.length_pos_iff.2 S.separator_ne
    simp only [StreamProtocol.buildPacketFromChunks, protocol, incrementalDeserialize,
      Generator.finish, GeneratorStreamReader.readUntil]
    rw [if_neg (by omega), if_neg (by omega), if_pos trivial]
    rfl
  norm h := h
  send_none := by
    intro s b c hs _ hok _ hn
    rw [segmenter_dec_none] at hn
    have hle := hok.none_le _ hn
    rcases GeneratorStreamReader.readUntil_send_none S.limit S.keepEnd S.separator_ne hs hn
      (ι := Bytes) with ⟨s', h1, h2⟩ | ⟨h1, -⟩
    · refine ⟨s', ?_, h2⟩
      simp only [StreamProtocol.buildPacketFromChunks, protocol, incrementalDeserialize,
        Generator.finish, h1, Resumed.finish_yielded]
    · omega
  send_some := by
    intro s b c o r hs _ hok _ hd
    obtain ⟨i, hi, rfl, rfl⟩ := (segmenter_dec_some _).1 hd
    have hle := hok.some_le _ hi
    have h1 := GeneratorStreamReader.readUntil_send_some S.limit S.keepEnd S.separator_ne hs hi
      (ι := Bytes)
    rw [GeneratorStreamReader.readUntilFound, if_neg (by omega)] at h1
    simp only [line_eq hi] at h1
    rw [report, ← finish_withRemainder]
    simp only [StreamProtocol.buildPacketFromChunks, protocol, incrementalDeserialize,
      Generator.finish, h1, Resumed.finish_returned, Resumed.finish_ofExcept]

theorem bufferImplements (converter : Converter String Bytes) :
    BufferImplements (S.bufferedProtocol converter).buildPacketFromBuffer
      (segmenter S.separator S.separator_ne) (S.report converter) (Fits S.separator_ne S.limit)
      S.limit (AutoSeparatedPacketSerializer.BufferHas S.separator S.limit) where
  next := fun hl => ⟨.starting, some 0, rfl, rfl, rfl, rfl, hl, rfl, S.limit_pos⟩
  norm h := h
  lt h := ⟨h.start ▸ h.free, h.length⟩
  send_none := by
    intro s n buf b c hs _ hl hok _ hn
    rw [segmenter_dec_none] at hn
    have hfree := hok.none_le _ hn
    obtain ⟨h1, h2⟩ := hs.write hl
    rcases bufferedReaduntil_send_none S.separator_ne hs.has h2 hn (ι := Bytes) with
      ⟨s', h3, h4⟩ | ⟨h3, -⟩
    · refine ⟨s', some (b ++ c).length, writeAt buf n c, ?_, h4, rfl, h1, h2, by omega⟩
      simp only [BufferedStreamProtocol.buildPacketFromBuffer, bufferedProtocol,
        bufferedIncrementalDeserialize, BufferGenerator.finish, h3, Resumed.finish_yielded]
    · omega
  send_some := by
    intro s n buf b c o r hs _ hl hok _ hd
    obtain ⟨i, hi, rfl, rfl⟩ := (segmenter_dec_some _).1 hd
    obtain ⟨h1, h2⟩ := hs.write hl
    have h3 := bufferedReaduntil_send_some S.separator_ne hs.has h2 hi (ι := Bytes)
    have hbc : (b ++ c).length ≤ S.limit := by
      rw [List.length_append, ← hs.start]
      exact hl
    have hle := find_le hi S.separator_ne
    have htake : ∀ k ≤ (b ++ c).length, (writeAt buf n c).take k = (b ++ c).take k := by
      intro k hk
      rw [← h2, List.take_take, min_eq_left hk]
    refine ⟨writeAt buf n c, ?_, h1, by rw [List.length_drop]; omega⟩
    have hline : (writeAt buf n c).take (if S.keepEnd then i + S.separator.length else i) =
        if S.keepEnd then (b ++ c).take i ++ S.separator else (b ++ c).take i := by
      rw [← line_eq hi, htake _ (by split_ifs <;> omega)]
      split_ifs <;> rfl
    rw [report, ← finish_withRemainder, ← hline]
    simp only [BufferedStreamProtocol.buildPacketFromBuffer, bufferedProtocol,
      bufferedIncrementalDeserialize, BufferGenerator.finish, h3, Resumed.finish_returned,
      Resumed.finish_ofExcept, h2]

/-! ## Whole lines -/

/-- Without its newlines at the end, a line is what stands before its first newline. -/
theorem removeSeparators_line {data : Bytes}
    (h : find S.separator (data ++ S.separator) = some data.length) :
    removeSeparators S.separator (data ++ S.separator) = data := by
  rw [removeSeparators_append S.separator_ne, removeSeparators_of_not_suffix]
  rintro ⟨t, rfl⟩
  refine (find_eq_some_iff.1 h).2.1 t.length ?_ ((occursAt_append_self S.separator t).append _)
  have := List.length_pos_iff.2 S.separator_ne
  rw [List.length_append]
  omega

/-- **A line is deserialized as it is received**, with and without `keep_end`. -/
theorem verdict_line {data : Bytes}
    (h : find S.separator (data ++ S.separator) = some data.length) :
    S.report none data = match S.deserialize (data ++ S.separator) with
      | .ok packet => .ok packet
      | .error exc => .error (.deserialize exc.message exc.errorInfo) := by
  have hdata : (if S.keepEnd then data ++ S.separator else
      removeSeparators S.separator (data ++ S.separator)) =
      if S.keepEnd then data ++ S.separator else data := by
    rw [removeSeparators_line h]
  simp only [report, deserialize, hdata, verdict]
  cases S.codec.decode (if S.keepEnd then data ++ S.separator else data) <;> rfl

end StringLineSerializer

end EasyNetwork
