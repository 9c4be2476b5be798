/-
  Which built-in serializers keep a `BufferedStreamDataConsumer` from crashing.

  `StringLineSerializer` (`serializers/line.py`) and `FixedSizePacketSerializer`
  (`serializers/base_stream.py`) are defined here, as far as they receive packets in a buffer.

  The generators of `FixedSizePacketSerializer` and `JSONSerializer` always stay inside the buffer.
  `_buffered_readuntil` does when the separator fits the buffer: otherwise it never looks whether
  the buffer is full, and asks for more bytes at its end.  `JSONSerializer` lets the exceptions of the
  decoder through that are no `JSONDecodeError`.

  * `bounded_bufferedReaduntil`, `bounded_rawParseWithExternalBuffer`: the generators.
  * `JSONSerializer.fine_iff`: a call crashes iff it completes a document with such an exception.
  * `builtin_serializers_never_crash`: the consumer never crashes on separated packets iff the
    separator is not longer than the limit.
-/
import EasyNetwork.BufferedConsumer
import EasyNetwork.Json

namespace EasyNetwork

open Coroutine Search

variable {P ι : Type}

/-! ## `StringLineSerializer` -/

/-- The values of `newline`. -/
inductive Newline where
  | LF
  | CR
  | CRLF
  deriving DecidableEq, Repr

def Newline.separator : Newline → Bytes
  | .LF => [10]
  | .CR => [13]
  | .CRLF => [13, 10]

def Newline.text : Newline → String
  | .LF => "\n"
  | .CR => "\r"
  | .CRLF => "\r\n"

theorem Newline.separator_ne (newline : Newline) : newline.separator ≠ [] := by
  cases newline <;> exact List.cons_ne_nil _ _

/-- `StringLineSerializer`, with the check of its constructor. -/
structure StringLineSerializer where
  newline : Newline
  codec : Codec
  limit : ℕ
  keepEnd : Bool
  debug : Bool
  limit_pos : 0 < limit

namespace StringLineSerializer
variable (S : StringLineSerializer)

def separator : Bytes := S.newline.separator

/-- What is made of the bytes of a line; the data is the `error_info` in debug mode. -/
def verdict (data : Bytes) : Verdict String Bytes :=
  match S.codec.decode data with
  | .ok packet => .ok packet
  | .error exc => .error (.deserialize exc (if S.debug then some data else none))

/-- `create_deserializer_buffer`: the size hint is ignored. -/
def createDeserializerBuffer (_sizehint : ℕ) : Bytes := List.replicate S.limit 0

/-- `buffered_incremental_deserialize`. -/
def bufferedIncrementalDeserialize :
    BufferGenerator BufferedReaduntil UInt8 (String × Bytes) (SerializerError Bytes) :=
  (bufferedReaduntil S.separator).finish fun buffer => fun
    | .error e => .error (.incremental e)
    | .ok (sepidx, offset, buflen) =>
      (S.verdict (buffer.take (if S.keepEnd then offset else sepidx))).withRemainder
        ((buffer.take buflen).drop offset)

/-- `BufferedStreamProtocol(serializer, converter)`. -/
def bufferedProtocol (converter : Converter String Bytes) :
    BufferedStreamProtocol BufferedReaduntil String Bytes :=
  ⟨S.createDeserializerBuffer, S.bufferedIncrementalDeserialize, converter⟩

end StringLineSerializer

/-! ## `FixedSizePacketSerializer` -/

/-- `FixedSizePacketSerializer`, with the check of its constructor. -/
structure FixedSizePacketSerializer (P ι : Type) where
  size : ℕ
  /-- the abstract method `deserialize` -/
  deserialize : Bytes → Except (DeserializeError ι) P
  size_pos : 0 < size

namespace FixedSizePacketSerializer
variable (S : FixedSizePacketSerializer P ι)

/-- `deserialize` on the data of a packet: the verdict. -/
def verdict (data : Bytes) : Verdict P ι :=
  match S.deserialize data with
  | .ok packet => .ok packet
  | .error exc =>
    .error (.deserialize ("Error when deserializing data: " ++ exc.message) exc.errorInfo)

/-- `create_deserializer_buffer`. -/
def createDeserializerBuffer (sizehint : ℕ) : Bytes := List.replicate (max S.size sizehint) 0

/-- `buffered_incremental_deserialize`; the state is `nread`. -/
def bufferedIncrementalDeserialize :
    BufferGenerator ℕ UInt8 (P × Bytes) (SerializerError ι) where
  next buffer :=
    if buffer.length < S.size then .raised (.other "AssertionError") else .yielded 0 (some 0)
  send nread buffer n :=
    let nread := nread + n
    if nread < S.size then (buffer, .yielded nread (some nread))
    else (buffer, .ofExcept ((S.verdict (buffer.take S.size)).withRemainder
      ((buffer.take nread).drop S.size)))

/-- `BufferedStreamProtocol(serializer, converter)`. -/
def bufferedProtocol (converter : Converter P ι) : BufferedStreamProtocol ℕ P ι :=
  ⟨S.createDeserializerBuffer, S.bufferedIncrementalDeserialize, converter⟩

end FixedSizePacketSerializer

/-! ## What a generator leaves -/

/-- What a serializer's generator may end with: it leaves less than `L` bytes, and raises an
    exception of its own only if it `mayRaise`. -/
def SerializerLeaves (mayRaise : Prop) (L : ℕ) : Except (SerializerError ι) (P × Bytes) → Prop
  | .ok (_, remaining) => remaining.length < L
  | .error (.incremental exc) => exc.remainingData.length < L
  | .error (.other _) => mayRaise

theorem serializerLeaves_withRemainder {mayRaise : Prop} {L : ℕ} {remainder : Bytes}
    (v : Verdict P ι) (h : remainder.length < L) :
    SerializerLeaves mayRaise L (v.withRemainder remainder) := by
  cases v with
  | ok packet => exact h
  | error cause => exact h

/-- The packet conversion keeps what is left. -/
theorem leaves_buildPacket {mayRaise : Prop} {L : ℕ} (converter : Converter P ι)
    {x : Except (SerializerError ι) (P × Bytes)} (h : SerializerLeaves mayRaise L x) :
    BufferedStreamDataConsumer.Leaves mayRaise L (buildPacket converter x) := by
  match x with
  | .error (.incremental exc) => exact h
  | .error (.other message) => exact h
  | .ok (packet, remaining) =>
    cases converter with
    | none => exact h
    | some createFromDtoPacket =>
      simp only [buildPacket]
      cases createFromDtoPacket packet <;> exact h

/-- A serializer whose generators stay inside the buffer, in a protocol. -/
theorem bounded_protocol {σ : Type} {proto : BufferedStreamProtocol σ P ι} {L sizehint : ℕ}
    {good : σ → ℕ → Prop} {mayRaise : Prop} (hcreate : (proto.createBuffer sizehint).length = L)
    (hpos : 0 < L) (h : proto.bufferedIncrementalDeserialize.Bounded L good
      fun _ => SerializerLeaves mayRaise L) :
    BufferedStreamDataConsumer.Bounded proto sizehint L good mayRaise :=
  ⟨hcreate, hpos, h.finish fun _ _ _ hx => leaves_buildPacket proto.converter hx⟩

theorem length_drop_take_lt {buffer : Bytes} {L i j : ℕ} (hbuf : buffer.length = L) (hpos : 0 < L)
    (hj : 1 ≤ j) : ((buffer.take i).drop j).length < L := by
  rw [List.length_drop, List.length_take]
  omega

/-! ## `_buffered_readuntil` -/

/-- Where the generator has asked for bytes; it has searched up to its offset, or has not had
    enough bytes to search. -/
def BufferedReaduntil.Good (sep : Bytes) : BufferedReaduntil → ℕ → Prop
  | .starting, start => start = 0
  | .searching buflen offset, start =>
    start = buflen ∧ (offset = 0 ∨ offset + sep.length = buflen + 1)

section
variable {sep : Bytes} {L : ℕ}

/-- What `_buffered_readuntil` ends with. -/
def ReaduntilLeaves (L : ℕ) : Except (IncrementalDeserializeError ι) (ℕ × ℕ × ℕ) → Prop
  | .ok (_, offset, _) => 1 ≤ offset
  | .error e => e.remainingData.length < L

/-- One round of the loop: it asks for more bytes before the end of the buffer, when the separator
    fits the buffer. -/
theorem bufferedReaduntilLoop_satisfies {buffer : Bytes} {buflen offset : ℕ} (hsep : sep ≠ [])
    (hfits : sep.length ≤ buffer.length)
    (hoffset : offset = 0 ∨ offset + sep.length ≤ buflen) :
    (bufferedReaduntilLoop buffer sep buflen offset : Resumed _ _ _ (IncrementalDeserializeError ι)
      ).Satisfies (fun s y => y.getD 0 < buffer.length ∧ s.Good sep (y.getD 0))
        (ReaduntilLeaves buffer.length) := by
  have hseplen := List.length_pos_iff.2 hsep
  have hyields : ∀ offset, buflen < buffer.length → offset = 0 ∨ offset + sep.length = buflen + 1 →
      (Resumed.yielded (BufferedReaduntil.searching buflen offset) (some buflen) :
        Resumed _ _ (ℕ × ℕ × ℕ) (IncrementalDeserializeError ι)).Satisfies
          (fun s y => y.getD 0 < buffer.length ∧ s.Good sep (y.getD 0))
          (ReaduntilLeaves buffer.length) := fun _ hlt hoff => ⟨hlt, rfl, hoff⟩
  unfold bufferedReaduntilLoop
  by_cases henough : (buflen : ℤ) - offset ≥ sep.length
  · rw [if_pos henough]
    cases findFrom sep (buffer.take buflen) offset with
    | some sepidx =>
      show 1 ≤ sepidx + sep.length
      omega
    | none =>
      simp only
      split_ifs with hlimit
      · show (LimitOverrunError.remainingData _ _ _).length < _
        have hle := (LimitOverrunError.remainingData_suffix buffer (buflen + 1 - sep.length)
          sep).length_le
        rw [List.length_drop] at hle
        omega
      · exact hyields _ (by omega) (.inr (by omega))
  · rw [if_neg henough]
    have hzero : offset = 0 := hoffset.resolve_right fun h => henough (by omega)
    exact hyields offset (by omega) (.inl hzero)

/-- **`_buffered_readuntil` stays inside a buffer in which the separator fits.** -/
theorem bounded_bufferedReaduntil (hsep : sep ≠ []) (hfits : sep.length ≤ L) :
    (bufferedReaduntil sep : BufferGenerator _ _ _ (IncrementalDeserializeError ι)).Bounded L
      (BufferedReaduntil.Good sep) fun _ => ReaduntilLeaves L where
  next buf _ := ⟨_, _, rfl, rfl, rfl⟩
  length s start buf n _ hbuf _ _ := by
    cases s <;> exact hbuf
  send s start buf n hgood hbuf hn _ := by
    subst hbuf
    cases s with
    | starting => exact bufferedReaduntilLoop_satisfies hsep hfits (.inl rfl)
    | searching buflen offset =>
      refine bufferedReaduntilLoop_satisfies hsep hfits (hgood.2.imp_right fun h => ?_)
      omega

/-- **A separator that does not fit the buffer**: once the buffer is full, the generator asks for
    more bytes at its end. -/
theorem bufferedReaduntil_full {buffer : Bytes} (hlong : buffer.length < sep.length) :
    (bufferedReaduntil sep : BufferGenerator _ _ _ (IncrementalDeserializeError ι)).send .starting
      buffer buffer.length =
        (buffer, .yielded (.searching buffer.length 0) (some buffer.length)) := by
  simp only [bufferedReaduntil, bufferedReaduntilLoop]
  rw [if_neg (by omega)]

end

/-! ## `_JSONParser` -/

namespace JsonParser

/-- Where the generator has asked for bytes; its limit is the length of the buffer. -/
def Good (L : ℕ) : ℕ × RawParse → ℕ → Prop
  | (limit, .skipping), start => limit = L ∧ start = 0
  | (limit, .plain idx), start | (limit, .framed _ _ idx _ _), start => limit = L ∧ start = idx

/-- What the parser ends with. -/
def ParserLeaves (L : ℕ) : Except (IncrementalDeserializeError ι) (Bytes × Bytes) → Prop
  | .ok (_, remaining) => remaining.length < L
  | .error e => e.remainingData.length < L

/-- The end of every match comes after a byte. -/
theorem one_le_stop (o c : UInt8) (pos : ℕ) (l : Bytes) : ∀ m ∈ finditer o c pos l, 1 ≤ m.stop := by
  fun_induction finditer o c pos l with
  | case1 => exact fun m hm => absurd hm List.not_mem_nil
  | case2 pos b =>
    intro m hm
    rw [List.mem_singleton.1 hm]
    exact Nat.succ_pos pos
  | case3 => exact fun m hm => absurd hm List.not_mem_nil
  | case4 pos d rest ih =>
    intro m hm
    rcases List.mem_cons.1 hm with rfl | hm
    · exact Nat.succ_pos _
    · exact ih m hm
  | case5 pos b d rest _ _ ih =>
    intro m hm
    rcases List.mem_cons.1 hm with rfl | hm
    · exact Nat.succ_pos pos
    · exact ih m hm
  | case6 pos b d rest _ _ ih => exact ih

/-- A frame ends at the end of a match. -/
theorem matchLoop_closed {o c : UInt8} {ms : List EnclosureMatch} {n stop : ℕ} {q : Bool}
    (h : matchLoop o c ms n q = .closed stop) : ∃ m ∈ ms, m.stop = stop := by
  induction ms generalizing n q with
  | nil => cases h
  | cons m ms ih =>
    have htail : ∀ {n q}, matchLoop o c ms n q = .closed stop → ∃ m' ∈ m :: ms, m'.stop = stop := by
      intro n q h
      obtain ⟨m', hm', hstop⟩ := ih h
      exact ⟨m', List.mem_cons_of_mem m hm', hstop⟩
    simp only [matchLoop] at h
    split at h
    · exact htail h
    · generalize (if m.byte = c then n - 1 else if m.byte = o then n + 1 else n) = count at h
      split at h
      · cases h
        exact ⟨m, List.mem_cons_self, rfl⟩
      · exact htail h

section
variable {buffer : Bytes} {limit start stop n : ℕ} {s : RawParse}

theorem le_whitespacesEnd (pos endpos : ℕ) : pos ≤ whitespacesEnd buffer pos endpos :=
  Nat.le_add_right _ _

theorem splitFinalBuffer_leaves (hpos : 0 < buffer.length) (hstop : 1 ≤ stop) :
    ParserLeaves (ι := ι) buffer.length (splitFinalBuffer limit buffer start stop n) := by
  have hle : stop ≤ whitespacesEnd buffer stop n := le_whitespacesEnd stop n
  unfold splitFinalBuffer
  simp only
  split_ifs
  · show (LimitOverrunError.remainingData _ _ []).length < _
    rw [LimitOverrunError.remainingData_nil, List.length_drop]
    omega
  · exact length_drop_take_lt rfl hpos (by omega)

theorem readData_satisfies (hpos : 0 < buffer.length)
    (hgood : Good buffer.length (buffer.length, s) start) :
    (readData (ι := ι) buffer.length buffer s start).Satisfies
      (fun s y => y.getD 0 < buffer.length ∧ Good buffer.length (buffer.length, s) (y.getD 0))
      (ParserLeaves buffer.length) := by
  unfold readData
  split_ifs with hlimit
  · show (LimitOverrunError.remainingData _ _ []).length < _
    rw [LimitOverrunError.remainingData_nil, List.length_drop]
    omega
  · exact ⟨Nat.lt_of_not_le hlimit, hgood⟩

theorem searchPlain_satisfies (hpos : 0 < buffer.length) :
    (searchPlain (ι := ι) buffer.length buffer start n).Satisfies
      (fun s y => y.getD 0 < buffer.length ∧ Good buffer.length (buffer.length, s) (y.getD 0))
      (ParserLeaves buffer.length) := by
  unfold searchPlain
  split
  · exact readData_satisfies hpos ⟨rfl, rfl⟩
  · next nprintStart _ =>
    rcases Nat.eq_zero_or_pos nprintStart with rfl | hstart
    · -- the document is empty: what follows is returned in its place
      simp only [splitFinalBuffer, Nat.not_lt_zero, gt_iff_lt, if_false, List.take_zero,
        List.drop_nil, if_true]
      exact hpos
    · have hleaves : ParserLeaves (ι := ι) buffer.length
          (splitFinalBuffer buffer.length buffer 0 nprintStart n) :=
        splitFinalBuffer_leaves hpos hstart
      split
      · next e he =>
        rw [he] at hleaves
        exact hleaves
      · next document remaining he =>
        rw [he] at hleaves
        split_ifs
        · exact hpos
        · exact hleaves

theorem searchFrame_satisfies (hpos : 0 < buffer.length) (o c : UInt8) (count : ℕ) (q : Bool) :
    (searchFrame (ι := ι) buffer.length buffer o c start n count q).Satisfies
      (fun s y => y.getD 0 < buffer.length ∧ Good buffer.length (buffer.length, s) (y.getD 0))
      (ParserLeaves buffer.length) := by
  unfold searchFrame
  split
  · next stop hclosed =>
    obtain ⟨m, hm, rfl⟩ := matchLoop_closed hclosed
    exact Resumed.satisfies_ofExcept (splitFinalBuffer_leaves hpos (one_le_stop o c _ _ m hm))
  · exact readData_satisfies hpos ⟨rfl, rfl⟩

theorem startDocument_satisfies (hpos : 0 < buffer.length) :
    (startDocument (ι := ι) buffer.length buffer n).Satisfies
      (fun s y => y.getD 0 < buffer.length ∧ Good buffer.length (buffer.length, s) (y.getD 0))
      (ParserLeaves buffer.length) := by
  unfold startDocument
  split
  · exact ⟨hpos, rfl, rfl⟩
  · split
    · exact searchPlain_satisfies hpos
    · exact searchFrame_satisfies hpos _ _ _ _

theorem length_moveToStart : (moveToStart buffer start n).length = buffer.length := by
  refine length_writeAt ?_
  rw [List.length_drop, List.length_take]
  omega

theorem rawParseImpl_length {L : ℕ} (s : RawParse) (hbuf : buffer.length = L) :
    ((rawParseImpl (ι := ι) L).send s buffer n).1.length = L := by
  cases s with
  | skipping =>
    simp only [rawParseImpl]
    split_ifs
    · exact hbuf
    · exact length_moveToStart.trans hbuf
    · exact hbuf
  | plain =>
    simp only [rawParseImpl]
    split_ifs <;> exact hbuf
  | framed =>
    simp only [rawParseImpl]
    split_ifs <;> exact hbuf

theorem rawParseImpl_satisfies {L : ℕ} (s : RawParse) (hbuf : buffer.length = L) (hpos : 0 < L)
    (hn : 1 ≤ n) : ((rawParseImpl (ι := ι) L).send s buffer n).2.Satisfies
      (fun s y => y.getD 0 < L ∧ Good L (L, s) (y.getD 0)) (ParserLeaves L) := by
  subst hbuf
  cases s with
  | skipping =>
    simp only [rawParseImpl]
    split_ifs
    · exact ⟨hpos, rfl, rfl⟩
    · have hmoved : 0 < (moveToStart buffer (whitespacesEnd buffer 0 n) n).length :=
        hpos.trans_eq length_moveToStart.symm
      have hstart := startDocument_satisfies (ι := ι) (n := n - whitespacesEnd buffer 0 n) hmoved
      rw [length_moveToStart] at hstart
      exact hstart
    · exact startDocument_satisfies hpos
  | plain =>
    simp only [rawParseImpl]
    rw [if_neg (by omega)]
    exact searchPlain_satisfies hpos
  | framed =>
    simp only [rawParseImpl]
    rw [if_neg (by omega)]
    exact searchFrame_satisfies hpos _ _ _ _

end

/-- **`raw_parse_with_external_buffer` stays inside the buffer.** -/
theorem bounded_rawParseWithExternalBuffer {L : ℕ} (hpos : 0 < L) :
    (rawParseWithExternalBuffer (ι := ι)).Bounded L (Good L) fun _ => SerializerLeaves False L := by
  have hlimit : ∀ {s : ℕ × RawParse} {start : ℕ}, Good L s start → s.1 = L := by
    rintro ⟨limit, _ | _ | _⟩ start h <;> exact h.1
  refine ⟨fun buf hbuf => ?_, fun s start buf n hgood hbuf hn _ => ?_,
    fun s start buf n hgood hbuf hn _ => ?_⟩
  · refine ⟨(L, .skipping), some 0, ?_, rfl, rfl, rfl⟩
    simp only [rawParseWithExternalBuffer]
    rw [if_neg (by omega), hbuf]
    rfl
  · obtain ⟨limit, s⟩ := s
    obtain rfl : limit = L := hlimit hgood
    have hlen := rawParseImpl_length (ι := ι) (n := n) s hbuf
    simp only [rawParseWithExternalBuffer]
    generalize (rawParseImpl (ι := ι) limit).send s buf n = resumed at hlen ⊢
    rcases resumed with ⟨buffer, _ | _ | _⟩ <;> exact hlen
  · obtain ⟨limit, s⟩ := s
    obtain rfl : limit = L := hlimit hgood
    have hsat := rawParseImpl_satisfies (ι := ι) s hbuf hpos hn
    simp only [rawParseWithExternalBuffer]
    generalize (rawParseImpl (ι := ι) limit).send s buf n = resumed at hsat ⊢
    rcases resumed with ⟨buffer, _ | _ | _⟩ <;> exact hsat

end JsonParser

/-! ## The serializers -/

namespace FixedSizePacketSerializer
variable (S : FixedSizePacketSerializer P ι)

/-- Less than a packet has been received. -/
def Good (nread start : ℕ) : Prop := start = nread ∧ nread < S.size

/-- **`FixedSizePacketSerializer`** stays inside a buffer that is large enough for a packet. -/
theorem bounded {L : ℕ} (hsize : S.size ≤ L) :
    S.bufferedIncrementalDeserialize.Bounded L S.Good fun _ => SerializerLeaves False L where
  next buf hbuf := by
    refine ⟨0, some 0, ?_, rfl, rfl, S.size_pos⟩
    simp only [bufferedIncrementalDeserialize]
    rw [if_neg (by omega)]
  length s start buf n _ hbuf _ _ := by
    simp only [bufferedIncrementalDeserialize]
    split_ifs <;> exact hbuf
  send s start buf n _ hbuf _ _ := by
    simp only [bufferedIncrementalDeserialize]
    split_ifs with hsmall
    · exact ⟨Nat.lt_of_lt_of_le hsmall hsize, rfl, hsmall⟩
    · have hpos := S.size_pos
      exact Resumed.satisfies_ofExcept
        (serializerLeaves_withRemainder _ (length_drop_take_lt hbuf (by omega) hpos))

theorem neverCrashes (converter : Converter P ι) (bufferSizeHint : ℕ) :
    BufferedStreamDataConsumer.NeverCrashes (S.bufferedProtocol converter) bufferSizeHint := by
  have hsize : S.size ≤ max S.size bufferSizeHint := Nat.le_max_left _ _
  exact BufferedStreamDataConsumer.neverCrashes_of_bounded (bounded_protocol List.length_replicate
    (Nat.lt_of_lt_of_le S.size_pos hsize) (S.bounded hsize))

end FixedSizePacketSerializer

/-- What is made of the result of `_buffered_readuntil`. -/
theorem readuntilLeaves_withRemainder {L : ℕ} {buffer : Bytes} (hbuf : buffer.length = L)
    (hpos : 0 < L) {sepidx offset buflen : ℕ}
    (h : ReaduntilLeaves (ι := ι) L (.ok (sepidx, offset, buflen))) (v : Verdict P ι) :
    SerializerLeaves False L (v.withRemainder ((buffer.take buflen).drop offset)) :=
  serializerLeaves_withRemainder v (length_drop_take_lt hbuf hpos h)

namespace JSONSerializer
variable (S : JSONSerializer P)

/-- **The search for a document** stays inside the buffer and raises nothing of its own. -/
theorem bounded_document : S.bufferedDocument.Bounded S.limit
    (Sum.elim (BufferedReaduntil.Good [10]) (JsonParser.Good S.limit)) fun _ =>
      SerializerLeaves False S.limit := by
  refine .either S.useLines ?_ (JsonParser.bounded_rawParseWithExternalBuffer S.limit_pos)
  refine (bounded_bufferedReaduntil (List.cons_ne_nil _ _) S.limit_pos).finish
    fun buffer x hbuf hx => ?_
  match x with
  | .error e => exact hx
  | .ok (sepidx, offset, buflen) => exact length_drop_take_lt hbuf S.limit_pos hx

theorem bounded : S.bufferedIncrementalDeserialize.Bounded S.limit
    (Sum.elim (BufferedReaduntil.Good [10]) (JsonParser.Good S.limit)) fun _ =>
      SerializerLeaves True S.limit := by
  refine S.bounded_document.finish fun _ x _ hx => ?_
  match x with
  | .error (.incremental e) => exact hx
  | .error (.other message) => trivial
  | .ok (document, remaining) =>
    simp only [deserializeIncrementalDocument]
    cases S.outcome document with
    | error message => trivial
    | ok v => exact serializerLeaves_withRemainder v hx

variable (converter : Converter P JsonErrorInfo) (bufferSizeHint : ℕ)

theorem bounded_bufferedProtocol : BufferedStreamDataConsumer.Bounded (S.bufferedProtocol converter)
    bufferSizeHint S.limit (Sum.elim (BufferedReaduntil.Good [10]) (JsonParser.Good S.limit)) True :=
  bounded_protocol List.length_replicate S.limit_pos S.bounded

/-- The next call of the consumer, `next(None)` or a read, completes the document. -/
def Completes (st : BufferedStreamDataConsumer (BufferedReaduntil ⊕ (ℕ × JsonParser.RawParse)))
    (document : Bytes) : Prop :=
  ∃ st' n s remaining,
    BufferedStreamDataConsumer.Announces (S.bufferedProtocol converter) st st' n ∧
    st'.consumer = some s ∧ n + st'.alreadyWritten ≠ 0 ∧
    (S.bufferedDocument.send s (st'.buffer.getD []) (n + st'.alreadyWritten)).2 =
      .returned (document, remaining)

omit S in
/-- The packet conversion raises nothing of its own. -/
theorem buildPacket_other {x : Except (SerializerError JsonErrorInfo) (P × Bytes)}
    {message : String} (h : buildPacket converter x = .error (.other message)) :
    x = .error (.other message) := by
  match x with
  | .error (.incremental e) => cases h
  | .error (.other message') =>
    cases h
    rfl
  | .ok (packet, remaining) =>
    cases converter with
    | none => cases h
    | some createFromDtoPacket =>
      simp only [buildPacket] at h
      split at h <;> cases h

/-- **The consumer's next call crashes iff it completes a document** on which the decoder raises
    another exception than `JSONDecodeError`. -/
theorem fine_iff {calls : List BufferedStreamDataConsumer.Call}
    {st : BufferedStreamDataConsumer (BufferedReaduntil ⊕ (ℕ × JsonParser.RawParse))}
    (hrun : Trans.run (BufferedStreamDataConsumer.step (S.bufferedProtocol converter))
      (.init bufferSizeHint) calls = some st) :
    BufferedStreamDataConsumer.Fine (S.bufferedProtocol converter) st ↔
      ∀ document, S.Completes converter st document → S.Caught document := by
  have hbounded := S.bounded_bufferedProtocol converter bufferSizeHint
  have hinv := BufferedStreamDataConsumer.inv_run hbounded hrun
  rw [hinv.fine_iff hbounded]
  constructor
  · rintro hquiet document ⟨st', n, s, remaining, hcall, hs, hzero, hdocument⟩ message houtcome
    refine hquiet st' n hcall ⟨message, ?_⟩
    rw [BufferedStreamDataConsumer.resumed_eq_some]
    refine ⟨s, hs, hzero, ?_⟩
    simp only [BufferedStreamProtocol.buildPacketFromBuffer, bufferedProtocol,
      bufferedIncrementalDeserialize, BufferGenerator.finish, hdocument, Resumed.finish_returned,
      deserializeIncrementalDocument, houtcome]
    rfl
  · rintro hcaught st' n hcall ⟨message, hraised⟩
    rw [BufferedStreamDataConsumer.resumed_eq_some] at hraised
    obtain ⟨s, hs, hzero, hsend⟩ := hraised
    obtain ⟨hgood, hbuf, hle⟩ := hinv.resumes hbounded hcall hs
    have hsat := S.bounded_document.send s _ _ _ hgood hbuf (Nat.one_le_iff_ne_zero.2 hzero) hle
    simp only [BufferedStreamProtocol.buildPacketFromBuffer, bufferedProtocol,
      bufferedIncrementalDeserialize, BufferGenerator.finish] at hsend
    rcases hdocument : (S.bufferedDocument.send s (st'.buffer.getD []) (n + st'.alreadyWritten)).2
      with ⟨s', y⟩ | ⟨document, remaining⟩ | e <;> rw [hdocument] at hsend hsat
    · cases hsend
    · rw [Resumed.finish_returned, Resumed.finish_ofExcept, Resumed.ofExcept_eq_raised] at hsend
      have houtcome := buildPacket_other converter hsend
      simp only [deserializeIncrementalDocument] at houtcome
      split at houtcome
      · next v _ => cases v <;> cases houtcome
      · next message' hmessage =>
        exact hcaught document ⟨st', n, s, remaining, hcall, hs, hzero, hdocument⟩ _ hmessage
    · cases e with
      | incremental e => cases hsend
      | other message' => exact hsat

end JSONSerializer

/-- The first write buffer is the whole buffer. -/
theorem BufferedStreamDataConsumer.getWriteBuffer_init {σ : Type}
    {proto : BufferedStreamProtocol σ P ι} {bufferSizeHint : ℕ} {buffer : Bytes} {s : σ}
    (hcreate : proto.createBuffer bufferSizeHint = buffer) (hne : buffer ≠ [])
    (hnext : proto.buildPacketFromBuffer.next buffer = .yielded s (some 0)) :
    getWriteBuffer proto (.init bufferSizeHint) =
      (.ok 0, ⟨some buffer, some 0, 0, 0, bufferSizeHint, some s⟩) := by
  have hlen : buffer.length - (0 + 0) ≠ 0 := by
    rw [Nat.add_zero, Nat.sub_zero]
    exact fun h => hne (List.length_eq_zero_iff.1 h)
  have hnew : newWriteBuffer proto (.init bufferSizeHint) =
      (.ok (0 + 0), ⟨some buffer, none, 0, 0, bufferSizeHint, some s⟩) := by
    simp only [newWriteBuffer, init, withBuffer, Option.isSome_none, Bool.false_eq_true, if_false,
      hcreate, if_neg hne, withConsumer, hnext, Option.getD_some, nbytes]
    exact if_neg hlen
  simp only [getWriteBuffer, hnew]
  rfl

namespace JSONSerializer
variable {S : JSONSerializer P}

/-- A line that is received at once is handed to the decoder. -/
theorem completes_line (hlines : S.useLines = true) (converter : Converter P JsonErrorInfo)
    (bufferSizeHint : ℕ) {document : Bytes}
    (hnewline : find [10] (document ++ [10]) = some document.length)
    (hfits : document.length + 1 ≤ S.limit) :
    S.Completes converter (.init bufferSizeHint) document := by
  have hpos := S.limit_pos
  have hlen : (document ++ [10]).length = document.length + 1 := List.length_append
  have hbuf : (List.replicate S.limit (0 : UInt8)).length = S.limit := List.length_replicate
  have hne : List.replicate S.limit (0 : UInt8) ≠ [] := by
    rw [← List.length_pos_iff, hbuf]
    exact hpos
  have hnext : (S.bufferedProtocol converter).buildPacketFromBuffer.next
      (List.replicate S.limit 0) = .yielded (.inl .starting) (some 0) := by
    simp only [BufferedStreamProtocol.buildPacketFromBuffer, bufferedProtocol,
      bufferedIncrementalDeserialize, bufferedDocument, BufferGenerator.finish,
      BufferGenerator.either, hlines, if_true]
    rfl
  have hget : BufferedStreamDataConsumer.getWriteBuffer (S.bufferedProtocol converter)
      (.init bufferSizeHint) = (.ok 0, ⟨some (List.replicate S.limit 0), some 0, 0, 0,
        bufferSizeHint, some (.inl .starting)⟩) :=
    BufferedStreamDataConsumer.getWriteBuffer_init rfl hne hnext
  have htake : (writeAt (List.replicate S.limit 0) 0 (document ++ [10])).take
      ([] ++ (document ++ [10])).length = [] ++ (document ++ [10]) := by
    have h := take_writeAt (show 0 + (document ++ [10]).length ≤
      (List.replicate S.limit (0 : UInt8)).length by omega)
    rwa [Nat.zero_add, List.take_zero] at h
  have hsend := bufferedReaduntil_send_some (ι := JsonErrorInfo) (s := .starting)
    (List.cons_ne_nil _ _) rfl htake hnewline
  -- the line is the document, without the newline
  have hdocument : (writeAt (List.replicate S.limit 0) 0 (document ++ [10])).take document.length =
      document := by
    have h := congrArg (List.take document.length) htake
    rw [List.take_take, List.nil_append, hlen, min_eq_left (Nat.le_succ _), List.take_left] at h
    exact h
  have hreturned : ∃ remaining, (S.bufferedDocument.send (.inl .starting)
      (writeAt (List.replicate S.limit 0) 0 (document ++ [10])) (document ++ [10]).length).2 =
        .returned (document, remaining) := by
    simp only [bufferedDocument, BufferGenerator.either, BufferGenerator.finish, hsend,
      Resumed.finish_returned, bufferedLine, hdocument]
    exact ⟨_, rfl⟩
  obtain ⟨remaining, hreturned⟩ := hreturned
  have hroom : (document ++ [10]).length ≤ (List.replicate S.limit (0 : UInt8)).length - 0 := by
    omega
  exact ⟨_, _, .inl .starting, remaining, .reading hget (by omega) hroom, rfl,
    by show (document ++ [10]).length + 0 ≠ 0; omega, hreturned⟩

end JSONSerializer

/-! ## Separators -/

section
variable {proto : BufferedStreamProtocol BufferedReaduntil P ι} {L bufferSizeHint : ℕ} {sep : Bytes}

/-- A protocol that receives its packets with `_buffered_readuntil` in buffers of `L` bytes. -/
structure Separates (proto : BufferedStreamProtocol BufferedReaduntil P ι) (L bufferSizeHint : ℕ)
    (sep : Bytes) : Prop where
  createBuffer : proto.createBuffer bufferSizeHint = List.replicate L 0
  pos : 0 < L
  sep_ne : sep ≠ []
  generator : ∃ verdict : ℕ × ℕ × ℕ → Bytes → Verdict P ι, proto.bufferedIncrementalDeserialize =
    (bufferedReaduntil sep).finish fun buffer => fun
      | .error e => .error (.incremental e)
      | .ok (sepidx, offset, buflen) => (verdict (sepidx, offset, buflen) buffer).withRemainder
          ((buffer.take buflen).drop offset)

theorem Separates.neverCrashes (h : Separates proto L bufferSizeHint sep) (hfits : sep.length ≤ L) :
    BufferedStreamDataConsumer.NeverCrashes proto bufferSizeHint := by
  obtain ⟨verdict, hgenerator⟩ := h.generator
  suffices hbounded : proto.bufferedIncrementalDeserialize.Bounded L (BufferedReaduntil.Good sep)
      fun _ => SerializerLeaves False L from
    BufferedStreamDataConsumer.neverCrashes_of_bounded (bounded_protocol
      (h.createBuffer ▸ List.length_replicate) h.pos hbounded)
  rw [hgenerator]
  refine (bounded_bufferedReaduntil h.sep_ne hfits).finish fun buffer x hbuf hx => ?_
  match x with
  | .error e => exact hx
  | .ok (sepidx, offset, buflen) => exact readuntilLeaves_withRemainder hbuf h.pos hx _

theorem Separates.next_eq (h : Separates proto L bufferSizeHint sep) (buffer : Bytes) :
    proto.buildPacketFromBuffer.next buffer = .yielded .starting (some 0) := by
  obtain ⟨verdict, hgenerator⟩ := h.generator
  simp only [BufferedStreamProtocol.buildPacketFromBuffer, hgenerator]
  rfl

theorem Separates.send_full (h : Separates proto L bufferSizeHint sep) (hlong : L < sep.length)
    {buffer : Bytes} (hbuf : buffer.length = L) :
    proto.buildPacketFromBuffer.send .starting buffer L =
      (buffer, .yielded (.searching L 0) (some L)) := by
  obtain ⟨verdict, hgenerator⟩ := h.generator
  subst hbuf
  simp only [BufferedStreamProtocol.buildPacketFromBuffer, hgenerator, BufferGenerator.finish,
    bufferedReaduntil_full hlong]
  rfl

/-- **The buffer is filled**: the write buffer that is asked for next would be empty. -/
theorem Separates.crashes (h : Separates proto L bufferSizeHint sep) (hlong : L < sep.length)
    {data : Bytes} (hdata : data.length = L) :
    ∃ st, Trans.run (BufferedStreamDataConsumer.step proto) (.init bufferSizeHint) [.read data] =
        some st ∧
      (BufferedStreamDataConsumer.getWriteBuffer proto st).1 =
          .error "The start position is set to the end of the buffer" := by
  have hpos := h.pos
  have hne : List.replicate L (0 : UInt8) ≠ [] := by
    rw [← List.length_pos_iff, List.length_replicate]
    exact hpos
  have hwritten : (writeAt (List.replicate L (0 : UInt8)) 0 data).length = L := by
    rw [length_writeAt (by rw [List.length_replicate]; omega), List.length_replicate]
  have hget : BufferedStreamDataConsumer.getWriteBuffer proto (.init bufferSizeHint) = (.ok 0,
      ⟨some (List.replicate L 0), some 0, 0, 0, bufferSizeHint, some .starting⟩) :=
    BufferedStreamDataConsumer.getWriteBuffer_init h.createBuffer hne (h.next_eq _)
  -- the read fills it, and the generator asks for more
  have hnext : BufferedStreamDataConsumer.next proto
      ⟨some (writeAt (List.replicate L 0) 0 data), some 0, 0, 0, bufferSizeHint, some .starting⟩
        (some data.length) = (.stopIteration,
      ⟨some (writeAt (List.replicate L 0) 0 data), none, L, 0, bufferSizeHint,
        some (.searching L 0)⟩) := by
    have hle : L ≤ L - 0 := Nat.le_refl L
    have hpos' : L + 0 ≠ 0 := hpos.ne'
    simp only [BufferedStreamDataConsumer.next, BufferedStreamDataConsumer.nbytes, Option.getD_some,
      hwritten, hdata, if_pos hle, BufferedStreamDataConsumer.nextChecked, if_neg hpos']
    simp only [BufferedStreamDataConsumer.send, Option.getD_some, Nat.add_zero,
      h.send_full hlong hwritten, Option.map_some]
  refine ⟨⟨some (writeAt (List.replicate L 0) 0 data), none, L, 0, bufferSizeHint,
    some (.searching L 0)⟩, ?_, ?_⟩
  · have hfits : 1 ≤ data.length ∧ data.length ≤ (List.replicate L (0 : UInt8)).length - 0 := by
      rw [hdata, List.length_replicate]
      exact ⟨hpos, Nat.le_refl L⟩
    simp only [Trans.run_cons, BufferedStreamDataConsumer.step, hget,
      BufferedStreamDataConsumer.nbytes, Option.getD_some, BufferedStreamDataConsumer.write,
      Option.map_some, hnext]
    rw [if_pos hfits]
    rfl
  · simp only [BufferedStreamDataConsumer.getWriteBuffer, BufferedStreamDataConsumer.newWriteBuffer,
      BufferedStreamDataConsumer.withBuffer, BufferedStreamDataConsumer.withConsumer,
      BufferedStreamDataConsumer.nbytes, Option.getD_some, hwritten]
    simp

theorem Separates.neverCrashes_iff (h : Separates proto L bufferSizeHint sep) :
    BufferedStreamDataConsumer.NeverCrashes proto bufferSizeHint ↔ sep.length ≤ L := by
  refine ⟨fun hnever => ?_, h.neverCrashes⟩
  by_contra hlong
  have hzeros : (List.replicate L (0 : UInt8)).length = L := List.length_replicate
  obtain ⟨st, hrun, hget⟩ := h.crashes (Nat.lt_of_not_le hlong) hzeros
  obtain ⟨start, st', hoffers, -⟩ := (hnever _ _ hrun).offers
  rw [hoffers] at hget
  cases hget

end

theorem AutoSeparatedPacketSerializer.separates (S : AutoSeparatedPacketSerializer P ι)
    (converter : Converter P ι) (bufferSizeHint : ℕ) :
    Separates (S.bufferedProtocol converter) S.limit bufferSizeHint S.separator :=
  ⟨rfl, S.limit_pos, S.separator_ne, fun r buffer => S.verdict (buffer.take r.1), rfl⟩

theorem StringLineSerializer.separates (S : StringLineSerializer)
    (converter : Converter String Bytes) (bufferSizeHint : ℕ) :
    Separates (S.bufferedProtocol converter) S.limit bufferSizeHint S.separator :=
  ⟨rfl, S.limit_pos, S.newline.separator_ne,
    fun r buffer => S.verdict (buffer.take (if S.keepEnd then r.2.1 else r.1)), rfl⟩

/-- **Which built-in serializers keep the consumer from crashing.**  The buffered consumer never
    crashes on packets of a fixed size, and never crashes on separated packets and on lines iff the
    separator is not longer than the limit.  Of a JSON serializer, after any calls, no call that can
    come next crashes iff the exceptions that the decoder raises on the documents that it can complete
    are caught. -/
theorem builtin_serializers_never_crash (bufferSizeHint : ℕ) :
    (∀ (S : AutoSeparatedPacketSerializer P ι) (converter : Converter P ι),
      BufferedStreamDataConsumer.NeverCrashes (S.bufferedProtocol converter) bufferSizeHint ↔
        S.separator.length ≤ S.limit) ∧
    (∀ (S : StringLineSerializer) (converter : Converter String Bytes),
      BufferedStreamDataConsumer.NeverCrashes (S.bufferedProtocol converter) bufferSizeHint ↔
        S.separator.length ≤ S.limit) ∧
    (∀ (S : JSONSerializer P) (converter : Converter P JsonErrorInfo) calls st,
      Trans.run (BufferedStreamDataConsumer.step (S.bufferedProtocol converter))
        (.init bufferSizeHint) calls = some st →
      (BufferedStreamDataConsumer.Fine (S.bufferedProtocol converter) st ↔
        ∀ document, S.Completes converter st document → S.Caught document)) ∧
    ∀ (S : FixedSizePacketSerializer P ι) (converter : Converter P ι),
      BufferedStreamDataConsumer.NeverCrashes (S.bufferedProtocol converter) bufferSizeHint :=
  ⟨fun S converter => (S.separates converter bufferSizeHint).neverCrashes_iff,
    fun S converter => (S.separates converter bufferSizeHint).neverCrashes_iff,
    fun S converter _ _ hrun => S.fine_iff converter bufferSizeHint hrun,
    fun S converter => S.neverCrashes converter bufferSizeHint⟩

/-- A serializer of natural numbers, one a line, whose decoder converts up to `digits` digits. -/
def JSONSerializer.ofNat (digits : ℕ) : JSONSerializer ℕ where
  encode n := .ok (toString n)
  decode text :=
    if text.toList = [] ∨ ¬ text.toList.all Char.isDigit then
      .error (.decodeError ⟨"Expecting value: line 1 column 1 (char 0)", text, 0, 1, 1⟩)
    else if digits < text.toList.length then
      .error (.other "Exceeds the limit (4300 digits) for integer string conversion")
    else .ok (text.toList.foldl (fun n c => 10 * n + (c.toNat - 48)) 0)
  codec := .utf8 fun _ => "invalid start byte"
  limit := 65536
  useLines := true
  debug := false
  limit_pos := by decide

/-- The bytes of a line of ones. -/
theorem encode_ones (n : ℕ) :
    Utf8.encode (String.ofList (List.replicate n '1')) = List.replicate n 49 := by
  rw [Utf8.encode, String.toList_ofList]
  induction n with
  | zero => rfl
  | succ n ih =>
    rw [List.replicate_succ, Utf8.encodeList_cons, ih]
    rfl

/-- The decoder's `ValueError` on a number of too many digits is not caught. -/
theorem JSONSerializer.not_caught_ones {digits n : ℕ} (h : digits < n) :
    ¬ (JSONSerializer.ofNat digits).Caught (List.replicate n 49) := by
  intro hcaught
  refine hcaught "Exceeds the limit (4300 digits) for integer string conversion" ?_
  have hne : List.replicate n '1' ≠ [] := by
    rw [← List.length_pos_iff, List.length_replicate]
    omega
  have hdigits : (List.replicate n '1').all Char.isDigit = true := by
    rw [List.all_replicate]
    simp
  rw [← encode_ones, outcome]
  simp only [ofNat, Codec.utf8, Utf8.decode_encode, String.toList_ofList, hne, hdigits, not_true,
    or_self, if_false, List.length_replicate, if_pos h]

/-- A line of 4301 digits may come: `next()` raises `RuntimeError` then. -/
theorem builtin_serializers_never_crash_digits :
    ¬ BufferedStreamDataConsumer.Fine ((JSONSerializer.ofNat 4300).bufferedProtocol none)
      (.init 1) := by
  have hfind : ∀ n, find [10] (List.replicate n (49 : UInt8) ++ [10]) = some n := by
    intro n
    induction n with
    | zero => rfl
    | succ n ih =>
      rw [List.replicate_succ, List.cons_append, find, if_neg (by simp), ih]
      rfl
  have hcompletes : (JSONSerializer.ofNat 4300).Completes none (.init 1) (List.replicate 4301 49) :=
    JSONSerializer.completes_line rfl none 1 (by rw [List.length_replicate]; exact hfind 4301)
      (by rw [List.length_replicate]; exact (by decide : 4301 + 1 ≤ 65536))
  intro hfine
  have hiff := (builtin_serializers_never_crash (P := ℕ) (ι := Unit) 1).2.2.1
    (JSONSerializer.ofNat 4300) none [] _ rfl
  exact JSONSerializer.not_caught_ones (by decide) (hiff.1 hfine _ hcompletes)

/-- `StringLineSerializer(newline="CRLF", limit=1)`. -/
def crlfOfOne : StringLineSerializer :=
  ⟨.CRLF, .utf8 fun _ => "invalid start byte", 1, false, false, Nat.one_pos⟩

/-- One byte has been received, and `get_write_buffer()` raises `RuntimeError`. -/
theorem crlf_limit_one_crashes : ∃ st,
    Trans.run (BufferedStreamDataConsumer.step (crlfOfOne.bufferedProtocol none)) (.init 1)
      [.read [65]] = some st ∧
    (BufferedStreamDataConsumer.getWriteBuffer (crlfOfOne.bufferedProtocol none) st).1 =
      .error "The start position is set to the end of the buffer" :=
  ⟨_, rfl, rfl⟩

end EasyNetwork
