/-
  `FixedSizePacketSerializer` (`serializers/base_stream.py`): how it sends packets, and how it
  receives them from chunks.

  `implements`, `bufferImplements`: the generators read what the framer cuts after `packet_size`
  bytes.
-/
import EasyNetwork.BufferedFramers
import EasyNetwork.Delivery
import EasyNetwork.Lib.Encoding
import EasyNetwork.ReaderCalls

namespace EasyNetwork

open Coroutine Framing

namespace FixedSizePacketSerializer
variable {P ι : Type} (S : FixedSizePacketSerializer P ι)

/-- `incremental_serialize`: the chunks that are yielded, or the exception that is raised. -/
def incrementalSerialize {Q : Type} (serialize : Q → Except String Bytes) (packet : Q) :
    Except String (List Bytes) :=
  match serialize packet with
  | .error exc => .error exc
  | .ok data =>
    if data.length ≠ S.size then .error "serialized data size does not meet expectation"
    else .ok [data]

/-- `incremental_deserialize`. -/
def incrementalDeserialize :
    Generator (Option Bytes) Bytes Unit (P × Bytes) (SerializerError ι) :=
  (GeneratorStreamReader.readExactly S.size []).finish fun
    | .error (.limitOverrun e, _) => .error (.incremental e)
    | .error (.valueError message, _) => .error (.other message)
    | .ok (data, remainder) => (S.verdict data).withRemainder remainder

/-- `StreamProtocol(serializer, converter)`. -/
def protocol (converter : Converter P ι) : StreamProtocol (Option Bytes) P ι :=
  ⟨S.incrementalDeserialize, converter⟩

/-- What a protocol with this serializer makes of the data of a packet. -/
def report (converter : Converter P ι) (data : Bytes) : Verdict P ι :=
  (S.verdict data).convert converter

/-! ## The packets of a stream -/

/-- `read_exactly` suspended, after it has received `b`. -/
def Has : Option Bytes → Bytes → Prop
  | none, b => b = []
  | some buffer, b => buffer = b

variable {S}

theorem readExactlyLoop_lt {b : Bytes} (h : b.length < S.size) :
    (GeneratorStreamReader.readExactlyLoop S.size b : Resumed _ _ _ (ReaderError ι × Bytes)) =
      .yielded (some b) () :=
  if_pos (Int.ofNat_lt.2 h)

theorem readExactlyLoop_le {b : Bytes} (h : S.size ≤ b.length) :
    (GeneratorStreamReader.readExactlyLoop S.size b : Resumed _ _ _ (ReaderError ι × Bytes)) =
      .returned (b.take S.size, b.drop S.size) :=
  if_neg fun hlt => absurd (Int.ofNat_lt.1 hlt) (Nat.not_lt.2 h)

theorem readExactly_send {s : Option Bytes} {b c : Bytes} (hs : Has s b) (hc : c ≠ []) :
    (GeneratorStreamReader.readExactly S.size [] : Generator _ _ _ _ (ReaderError ι × Bytes)).send
      s c = GeneratorStreamReader.readExactlyLoop S.size (b ++ c) := by
  cases s with
  | none =>
    cases hs
    exact if_neg hc
  | some buffer =>
    cases hs
    rfl

theorem implements (converter : Converter P ι) :
    Implements (S.protocol converter).buildPacketFromChunks (blocks S.size S.size_pos)
      (S.report converter) (fun _ => True) Has where
  next := by
    refine ⟨none, ?_, rfl⟩
    have hpos := S.size_pos
    simp only [StreamProtocol.buildPacketFromChunks, protocol, incrementalDeserialize,
      Generator.finish, GeneratorStreamReader.readExactly]
    rw [if_neg (by omega), if_neg (by omega), if_pos trivial]
    rfl
  norm h := h
  send_none := by
    intro s b c hs hc _ _ hn
    refine ⟨some (b ++ c), ?_, rfl⟩
    simp only [StreamProtocol.buildPacketFromChunks, protocol, incrementalDeserialize,
      Generator.finish, readExactly_send hs hc, readExactlyLoop_lt (blocks_dec_none.1 hn),
      Resumed.finish_yielded]
  send_some := by
    intro s b c o r hs hc _ _ hd
    obtain ⟨hle, rfl, rfl⟩ := blocks_dec_some.1 hd
    rw [report, ← finish_withRemainder]
    simp only [StreamProtocol.buildPacketFromChunks, protocol, incrementalDeserialize,
      Generator.finish, readExactly_send hs hc, readExactlyLoop_le hle, Resumed.finish_returned,
      Resumed.finish_ofExcept]

/-- The generator suspended with `nread`, after it has received `b` at the beginning of the
    buffer. -/
structure BufferHas (size L nread n : ℕ) (buf b : Bytes) : Prop where
  nread : nread = b.length
  start : n = b.length
  length : buf.length = L
  take : buf.take b.length = b
  lt : b.length < size
  le : size ≤ L

theorem BufferHas.write {size L nread n : ℕ} {buf b c : Bytes} (h : BufferHas size L nread n buf b)
    (hl : n + c.length ≤ L) :
    (writeAt buf n c).length = L ∧ (writeAt buf n c).take (b ++ c).length = b ++ c := by
  have hle : b.length + c.length ≤ buf.length := by
    rw [h.length, ← h.start]
    exact hl
  rw [h.start]
  exact ⟨(length_writeAt hle).trans h.length,
    by rw [List.length_append, take_writeAt hle, h.take]⟩

theorem bufferImplements (converter : Converter P ι) {L : ℕ} (hL : S.size ≤ L) :
    BufferImplements (S.bufferedProtocol converter).buildPacketFromBuffer
      (blocks S.size S.size_pos) (S.report converter) (fun _ => True) L (BufferHas S.size L) where
  next := by
    intro buf hbuf
    refine ⟨0, some 0, ?_, rfl, rfl, rfl, hbuf, rfl, S.size_pos, hL⟩
    simp only [BufferedStreamProtocol.buildPacketFromBuffer, bufferedProtocol,
      bufferedIncrementalDeserialize, BufferGenerator.finish]
    rw [if_neg (by omega)]
    rfl
  norm h := h
  lt h := ⟨h.start ▸ h.lt.trans_le h.le, h.length⟩
  send_none := by
    intro s n buf b c hs _ hl _ _ hn
    obtain ⟨h1, h2⟩ := hs.write hl
    have hlt := blocks_dec_none.1 hn
    have hnread : s + c.length = (b ++ c).length := by rw [hs.nread, List.length_append]
    refine ⟨_, some (b ++ c).length, writeAt buf n c, ?_, rfl, rfl, h1, h2, hlt, hL⟩
    simp only [BufferedStreamProtocol.buildPacketFromBuffer, bufferedProtocol,
      bufferedIncrementalDeserialize, BufferGenerator.finish, hnread, if_pos hlt,
      Resumed.finish_yielded]
  send_some := by
    intro s n buf b c o r hs _ hl _ _ hd
    obtain ⟨h1, h2⟩ := hs.write hl
    obtain ⟨hle, rfl, rfl⟩ := blocks_dec_some.1 hd
    have hnread : s + c.length = (b ++ c).length := by rw [hs.nread, List.length_append]
    have htake : (writeAt buf n c).take S.size = (b ++ c).take S.size := by
      rw [← h2, List.take_take, min_eq_left hle]
    have hbc : (b ++ c).length ≤ L := by
      rw [List.length_append, ← hs.start]
      exact hl
    refine ⟨writeAt buf n c, ?_, h1, by rw [List.length_drop]; omega⟩
    rw [report, ← finish_withRemainder, ← htake]
    simp only [BufferedStreamProtocol.buildPacketFromBuffer, bufferedProtocol,
      bufferedIncrementalDeserialize, BufferGenerator.finish, hnread, if_neg (Nat.not_lt.2 hle), h2,
      Resumed.finish_ofExcept]

end FixedSizePacketSerializer

end EasyNetwork
