/-
  The two stream data consumers on a stream of separated packets.

  Both deliver `deserialize` of the segments of the stream in order, wherever the stream is cut
  into reads (`reads_deliver_segments`): the generators of
  `AutoSeparatedPacketSerializer` implement the framer that cuts at the separator.
-/
import EasyNetwork.Lib.Segments
import EasyNetwork.Delivery
import EasyNetwork.Separated

namespace EasyNetwork.AutoSeparatedPacketSerializer

open Coroutine Search Framing

variable {P ι : Type} (S : AutoSeparatedPacketSerializer P ι) (converter : Converter P ι)

/-- The segments of the received bytes that end with a separator, without it. -/
def segments (stream : Bytes) : List Bytes := (segmenter S.separator S.separator_ne).outs stream

/-- The received bytes after the last separator. -/
def tail (stream : Bytes) : Bytes := (segmenter S.separator S.separator_ne).rest stream

/-- Every segment, separator included, has at most `limit - 1` bytes, and the tail at most
    `limit - 2`. -/
def FitsLimit (stream : Bytes) : Prop :=
  (∀ data ∈ S.segments stream, data.length + S.separator.length + 1 ≤ S.limit) ∧
    (S.tail stream).length + 2 ≤ S.limit

/-- What a protocol with this serializer makes of the data of a packet. -/
def report (data : Bytes) : Verdict P ι := (S.verdict data).convert converter

/-- The outcomes for the segments of a stream. -/
def outcomes (stream : Bytes) : List (Verdict P ι) := (S.segments stream).map (S.report converter)

variable {S converter}

variable (converter) in
theorem implements : Implements (S.protocol converter).buildPacketFromChunks
    (segmenter S.separator S.separator_ne) (S.report converter)
    (Fits S.separator_ne S.limit) (ReadUntil.Has S.separator) where
  next := ⟨.filling, by
    simp only [StreamProtocol.buildPacketFromChunks, protocol, incrementalDeserialize,
      Generator.finish, frame_next, Resumed.finish_yielded], rfl⟩
  norm h := h
  send_none := by
    intro s b c hs _ hok _ hn
    rw [segmenter_dec_none] at hn
    have := hok.none_le _ hn
    obtain ⟨s', h1, h2⟩ := frame_send_none hs hn (by omega)
    refine ⟨s', ?_, h2⟩
    simp only [StreamProtocol.buildPacketFromChunks, protocol, incrementalDeserialize,
      Generator.finish] at h1 ⊢
    rw [h1]; rfl
  send_some := by
    intro s b c o r hs _ hok _ hd
    obtain ⟨i, hi, rfl, rfl⟩ := (segmenter_dec_some _).1 hd
    have := hok.some_le _ hi
    have h1 := frame_send_some hs hi (by omega)
    rw [report, ← finish_withRemainder]
    simp only [StreamProtocol.buildPacketFromChunks, protocol, incrementalDeserialize,
      Generator.finish] at h1 ⊢
    rw [h1, Resumed.finish_returned, Resumed.finish_ofExcept]

/-- A suspended `_buffered_readuntil` that has received `b` at the beginning of the buffer. -/
structure BufferHas (sep : Bytes) (limit : ℕ) (s : BufferedReaduntil) (n : ℕ) (buf b : Bytes) :
    Prop where
  has : s.Has sep b
  start : n = b.length
  length : buf.length = limit
  take : buf.take b.length = b
  free : b.length < limit

theorem BufferHas.write {sep : Bytes} {limit n : ℕ} {s : BufferedReaduntil} {buf b c : Bytes}
    (h : BufferHas sep limit s n buf b) (hl : n + c.length ≤ limit) :
    (writeAt buf n c).length = limit ∧ (writeAt buf n c).take (b ++ c).length = b ++ c := by
  obtain ⟨-, rfl, hlen, htake, -⟩ := h
  have hl' : b.length + c.length ≤ buf.length := by omega
  exact ⟨(length_writeAt hl').trans hlen, by rw [List.length_append, take_writeAt hl', htake]⟩

variable (converter) in
theorem bufferImplements : BufferImplements (S.bufferedProtocol converter).buildPacketFromBuffer
    (segmenter S.separator S.separator_ne) (S.report converter)
    (Fits S.separator_ne S.limit) S.limit (BufferHas S.separator S.limit) where
  next := fun hl => ⟨.starting, some 0, rfl, rfl, rfl, rfl, hl, rfl, S.limit_pos⟩
  norm h := h
  lt h := ⟨h.start ▸ h.free, h.length⟩
  send_none := by
    intro s n buf b c hs _ hl hok _ hn
    rw [segmenter_dec_none] at hn
    have hfree := hok.none_le _ hn
    obtain ⟨h1, h2⟩ := hs.write hl
    rcases bufferedReaduntil_send_none S.separator_ne hs.has h2 hn (ι := ι) with
      ⟨s', h3, h4⟩ | ⟨h3, -⟩
    · refine ⟨s', some (b ++ c).length, writeAt buf n c, ?_, h4, rfl, h1, h2, by omega⟩
      simp only [BufferedStreamProtocol.buildPacketFromBuffer, bufferedProtocol,
        bufferedIncrementalDeserialize, BufferGenerator.finish, h3, Resumed.finish_yielded]
    · omega
  send_some := by
    intro s n buf b c o r hs _ hl hok _ hd
    obtain ⟨i, hi, rfl, rfl⟩ := (segmenter_dec_some _).1 hd
    obtain ⟨h1, h2⟩ := hs.write hl
    have h3 := bufferedReaduntil_send_some S.separator_ne hs.has h2 hi (ι := ι)
    have hbc : (b ++ c).length ≤ S.limit := by
      rw [List.length_append, ← hs.start]; exact hl
    have htake : (writeAt buf n c).take i = (b ++ c).take i := by
      rw [← h2, List.take_take, min_eq_left]
      have := find_le hi S.separator_ne
      omega
    refine ⟨writeAt buf n c, ?_, h1, by rw [List.length_drop]; omega⟩
    rw [report, ← finish_withRemainder, ← htake]
    simp only [BufferedStreamProtocol.buildPacketFromBuffer, bufferedProtocol,
      bufferedIncrementalDeserialize, BufferGenerator.finish, h3, Resumed.finish_returned,
      Resumed.finish_ofExcept, h2]

/-! ## Runs -/

variable (S) in
/-- The consumer between two reads, `b` being what it has received since the last separator. -/
def waiting (b : Bytes) : StreamDataConsumer ReadUntil :=
  ⟨[], if b = [] then none else some (.searching b (b.length + 1 - S.separator.length))⟩

theorem eq_waiting {st : StreamDataConsumer ReadUntil} {b : Bytes}
    (h : StreamDataConsumer.Rep (segmenter S.separator S.separator_ne)
      (ReadUntil.Has S.separator) st b) : st = S.waiting b := by
  obtain ⟨buffer, consumer⟩ := st
  obtain ⟨hbuf, -, ⟨rfl, rfl⟩ | ⟨s, received, rfl, hs, hne, rfl⟩⟩ := h
  · cases hbuf; rfl
  · cases hbuf
    rw [segmenter_norm, waiting, if_neg hne]
    cases s with
    | filling => exact absurd hs hne
    | searching buffer offset => obtain ⟨rfl, -, rfl⟩ := hs; rfl

theorem rep_waiting {b : Bytes} (h : find S.separator b = none) :
    StreamDataConsumer.Rep (segmenter S.separator S.separator_ne) (ReadUntil.Has S.separator)
      (S.waiting b) b := by
  refine ⟨rfl, (segmenter_dec_none _).2 h, ?_⟩
  by_cases hb : b = []
  · exact Or.inl ⟨by rw [waiting, if_pos hb], hb⟩
  · exact Or.inr ⟨.searching b _, b, by rw [waiting, if_neg hb], ⟨rfl, h, rfl⟩, hb, rfl⟩

theorem find_tail (stream : Bytes) : find S.separator (S.tail stream) = none :=
  (segmenter_dec_none _).1 (Framer.dec_rest _)

/-- The segments and the tail are what the stream is cut into at the first separator, and so on. -/
theorem segments_spec (stream : Bytes) :
    ((S.segments stream).map (· ++ S.separator)).flatten ++ S.tail stream = stream ∧
      (∀ data ∈ S.segments stream, find S.separator (data ++ S.separator) = some data.length) ∧
      find S.separator (S.tail stream) = none :=
  ⟨flatten_segments S.separator_ne stream, fun _ => find_segment S.separator_ne, find_tail stream⟩

theorem outcomes_append (stream more : Bytes) : S.outcomes converter (stream ++ more) =
    S.outcomes converter stream ++ S.outcomes converter (S.tail stream ++ more) := by
  unfold outcomes segments tail
  rw [Framer.outs_append, List.map_append]

theorem tail_append (stream more : Bytes) :
    S.tail (stream ++ more) = S.tail (S.tail stream ++ more) := Framer.rest_append _ _

section
variable {stream : Bytes}

/-- `StreamDataConsumer`: the outcomes and the state depend on the stream only. -/
theorem reads_iff (hfit : S.FitsLimit stream) {cs : List Bytes} (hne : ∀ c ∈ cs, c ≠ [])
    (hcs : cs.flatten = stream) (vs : List (Verdict P ι)) (st : StreamDataConsumer ReadUntil) :
    StreamDataConsumer.Reads (S.protocol converter) .init cs vs st ↔
      vs = S.outcomes converter stream ∧ st = S.waiting (S.tail stream) := by
  subst hcs
  obtain ⟨st', h1, h2⟩ := StreamDataConsumer.reads_iff (implements converter)
    (fits_closed S.separator_ne S.limit) (StreamDataConsumer.rep_init _ _) hne hfit
  rw [h2, eq_waiting h1]; rfl

/-- `StreamDataConsumer`: reading goes on where the stream ended. -/
theorem further_reads_iff {ds : List Bytes} (hne : ∀ d ∈ ds, d ≠ [])
    (hfit : S.FitsLimit (stream ++ ds.flatten)) (ws : List (Verdict P ι))
    (st : StreamDataConsumer ReadUntil) :
    StreamDataConsumer.Reads (S.protocol converter) (S.waiting (S.tail stream)) ds ws st ↔
      S.outcomes converter (stream ++ ds.flatten) = S.outcomes converter stream ++ ws ∧
        st = S.waiting (S.tail (stream ++ ds.flatten)) := by
  have hclosed := fits_closed S.separator_ne S.limit
  obtain ⟨st', h1, h2⟩ := StreamDataConsumer.reads_iff (implements converter)
    hclosed (rep_waiting (find_tail stream)) hne (hclosed.rest _ _ hfit)
  rw [h2, eq_waiting h1, outcomes_append, List.append_cancel_left_eq, tail_append, eq_comm]; rfl

/-- `BufferedStreamDataConsumer`: the outcomes, and what the consumer still holds. -/
theorem buffered_reads_spec {hint : ℕ} {cs : List Bytes} (hne : ∀ c ∈ cs, c ≠ [])
    (hfit : S.FitsLimit cs.flatten) {vs : List (Verdict P ι)}
    {st : BufferedStreamDataConsumer BufferedReaduntil}
    (h : BufferedStreamDataConsumer.Reads (S.bufferedProtocol converter) (.init hint) cs vs st) :
    vs = S.outcomes converter cs.flatten ∧
      BufferedStreamDataConsumer.Rep (segmenter S.separator S.separator_ne) S.limit
        (BufferHas S.separator S.limit) st (S.tail cs.flatten) := by
  obtain ⟨h1, b, h2, h3⟩ := BufferedStreamDataConsumer.reads_spec
    (bufferImplements converter) (fun _ => List.length_replicate) S.limit_pos
    (fits_closed S.separator_ne S.limit) cs _ [] (BufferedStreamDataConsumer.rep_init _ _) hne hfit h
  obtain rfl : b = S.tail cs.flatten := h3
  exact ⟨h1, h2⟩

/-- `BufferedStreamDataConsumer`: after any reads, a part of the buffer is offered for the next
    one, and a read that fits in it can be given. -/
theorem buffered_read_progress {hint : ℕ} {cs : List Bytes} {c : Bytes} (hne : ∀ c ∈ cs, c ≠ [])
    (hc : c ≠ []) (hfit : S.FitsLimit (cs.flatten ++ c)) {vs : List (Verdict P ι)}
    {st : BufferedStreamDataConsumer BufferedReaduntil}
    (h : BufferedStreamDataConsumer.Reads (S.bufferedProtocol converter) (.init hint) cs vs st) :
    ∃ start st₁, st.getWriteBuffer (S.bufferedProtocol converter) = (.ok start, st₁) ∧
      0 < st₁.nbytes start ∧ (c.length ≤ st₁.nbytes start → ∃ ws st',
        BufferedStreamDataConsumer.Reads (S.bufferedProtocol converter) st [c] ws st') := by
  have hclosed := fits_closed S.separator_ne S.limit
  obtain ⟨-, hr⟩ := buffered_reads_spec hne (hclosed.of_append hfit) h
  obtain ⟨start, st₁, h1, h2, h3⟩ := BufferedStreamDataConsumer.read_of_rep
    (bufferImplements converter) (fun _ => List.length_replicate) S.limit_pos
    hclosed hr hc (hclosed.rest _ _ hfit)
  refine ⟨start, st₁, h1, h2, fun hl => ?_⟩
  obtain ⟨st', h4, -⟩ := h3 hl
  exact ⟨_, st', h4⟩

/-- **Both consumers deliver the segments** of every stream that respects the limit, wherever it is
    cut, and then those of what follows the stream, as if both were one.  The buffered consumer
    never runs out of space for the next read. -/
theorem reads_deliver_segments (S : AutoSeparatedPacketSerializer P ι) (converter : Converter P ι)
    (hint : ℕ) {stream : Bytes} (hfit : S.FitsLimit stream) :
    (∀ cs, (∀ c ∈ cs, c ≠ []) → cs.flatten = stream → ∀ vs st,
      StreamDataConsumer.Reads (S.protocol converter) .init cs vs st ↔
        vs = S.outcomes converter stream ∧ st = S.waiting (S.tail stream)) ∧
    (∀ ds, (∀ d ∈ ds, d ≠ []) → S.FitsLimit (stream ++ ds.flatten) → ∀ ws st,
      StreamDataConsumer.Reads (S.protocol converter) (S.waiting (S.tail stream)) ds ws st ↔
        S.outcomes converter (stream ++ ds.flatten) = S.outcomes converter stream ++ ws ∧
          st = S.waiting (S.tail (stream ++ ds.flatten))) ∧
    (∀ cs, (∀ c ∈ cs, c ≠ []) → cs.flatten = stream → ∀ vs st,
      BufferedStreamDataConsumer.Reads (S.bufferedProtocol converter) (.init hint) cs vs st →
      vs = S.outcomes converter stream ∧
      ∀ ds, (∀ d ∈ ds, d ≠ []) → S.FitsLimit (stream ++ ds.flatten) → ∀ ws st',
        BufferedStreamDataConsumer.Reads (S.bufferedProtocol converter) st ds ws st' →
          S.outcomes converter (stream ++ ds.flatten) = S.outcomes converter stream ++ ws) ∧
    (∀ cs, (∀ c ∈ cs, c ≠ []) → ∀ c t, c ≠ [] → cs.flatten ++ c ++ t = stream → ∀ vs st,
      BufferedStreamDataConsumer.Reads (S.bufferedProtocol converter) (.init hint) cs vs st →
      ∃ start st₁, st.getWriteBuffer (S.bufferedProtocol converter) = (.ok start, st₁) ∧
        0 < st₁.nbytes start ∧ (c.length ≤ st₁.nbytes start → ∃ ws st',
          BufferedStreamDataConsumer.Reads (S.bufferedProtocol converter) st [c] ws st')) := by
  refine ⟨fun cs hne hcs => reads_iff hfit hne hcs, fun ds hds hmore => further_reads_iff hds hmore,
    fun cs hne hcs vs st h => ?_, fun cs hne c t hc hcs vs st h => ?_⟩
  · subst hcs
    refine ⟨(buffered_reads_spec hne hfit h).1, fun ds hds hmore ws st' h' => ?_⟩
    have hne' : ∀ c ∈ cs ++ ds, c ≠ [] := by
      intro c hc
      rcases List.mem_append.1 hc with hc | hc
      · exact hne c hc
      · exact hds c hc
    have hall := (buffered_reads_spec hne' (by rwa [List.flatten_append]) (h.append h')).1
    rw [List.flatten_append] at hall
    rw [← hall, (buffered_reads_spec hne hfit h).1]
  · subst hcs
    exact buffered_read_progress hne hc ((fits_closed S.separator_ne S.limit).of_append hfit) h

/-- Two lines, cut within the separator of the first. -/
theorem reads_deliver_crlf :
    let S := raw [13, 10] 16 (by decide) (by decide)
    ∃ st, StreamDataConsumer.Reads (S.protocol none) .init [[120, 13], [10, 121]] [.ok [120]] st := by
  intro S
  have hx : S.segments [120, 13, 10, 121] = [[120]] ∧ S.tail [120, 13, 10, 121] = [121] := by
    have h1 : (segmenter S.separator S.separator_ne).dec [120, 13, 10, 121] = some ([120], [121]) := by
      decide
    have h2 : (segmenter S.separator S.separator_ne).dec [121] = none := by decide
    simp [segments, tail, Framer.outs_some h1, Framer.rest_some h1, Framer.outs_none h2,
      Framer.rest_none h2]
  have hfit : S.FitsLimit [120, 13, 10, 121] := by
    rw [FitsLimit, hx.1, hx.2]; decide
  refine ⟨_, ((reads_deliver_segments S none 1 hfit).1 [[120, 13], [10, 121]] (by decide) rfl _ _).2
    ⟨?_, rfl⟩⟩
  rw [outcomes, hx.1]; rfl

end

end EasyNetwork.AutoSeparatedPacketSerializer
