/-
  The two stream data consumers over a `FileBasedPacketSerializer`.

  The same reads are given to a `StreamDataConsumer` and to a `BufferedStreamDataConsumer`; the
  two run the same rounds of `__generic_incremental_deserialize` (`Related`).  What a round leaves
  of the file is kept by the one, whatever its length, and written into a new buffer by the other.

  `buffered_agrees_iff`: the consumers give the same results and keep the same unread bytes iff no
  round leaves more bytes than the buffer has.
-/
import EasyNetwork.Lib.Trans
import EasyNetwork.FileBased
import EasyNetwork.Stream

namespace EasyNetwork

namespace FileBasedPacketSerializer

open Coroutine

variable {P : Type}

/-! ## Runs of both consumers -/

/-- What is done with both consumers. -/
inductive Call where
  /-- `next(data)`; write `data` into the offered buffer, and `next(len(data))` -/
  | read (data : Bytes)
  /-- `next(None)` -/
  | next
  deriving DecidableEq, Repr

def Call.data? : Call → Option Bytes
  | .read data => some data
  | .next => none

structure State where
  plain : StreamDataConsumer Suspended
  buffered : BufferedStreamDataConsumer Suspended
  deriving DecidableEq, Repr

/-- Two new consumers. -/
def State.init (bufferSizeHint : ℕ) : State := ⟨.init, .init bufferSizeHint⟩

section
variable (S : FileBasedPacketSerializer P) (converter : Converter P Bytes)

def plainCall (st : StreamDataConsumer Suspended) (call : Call) :
    NextResult P Bytes × StreamDataConsumer Suspended :=
  StreamDataConsumer.next (S.protocol converter) st call.data?

def bufferedCall (st : BufferedStreamDataConsumer Suspended) :
    Call → NextResult P Bytes × BufferedStreamDataConsumer Suspended
  | .next => BufferedStreamDataConsumer.next (S.bufferedProtocol converter) st none
  | .read data =>
    match BufferedStreamDataConsumer.getWriteBuffer (S.bufferedProtocol converter) st with
    | (.error message, st) => (.raised message, st)
    | (.ok start, st) => BufferedStreamDataConsumer.next (S.bufferedProtocol converter)
        (st.write start data) (some data.length)

/-- A read has a byte, and fits the offered buffer. -/
def Offered (st : BufferedStreamDataConsumer Suspended) : Call → Prop
  | .next => True
  | .read data =>
    match BufferedStreamDataConsumer.getWriteBuffer (S.bufferedProtocol converter) st with
    | (.error _, _) => False
    | (.ok start, st) => 1 ≤ data.length ∧ data.length ≤ st.nbytes start

instance (st : BufferedStreamDataConsumer Suspended) (call : Call) :
    Decidable (S.Offered converter st call) := by
  cases call with
  | next => exact .isTrue trivial
  | read data =>
    simp only [Offered]
    split <;> infer_instance

def step (s : State) (call : Call) : Option State :=
  if S.Offered converter s.buffered call then
    some ⟨(S.plainCall converter s.plain call).2, (S.bufferedCall converter s.buffered call).2⟩
  else none

end

/-! ## What is expected -/

/-- The bytes that the buffered consumer keeps for the next packet. -/
def unread (st : BufferedStreamDataConsumer Suspended) : Bytes :=
  (st.buffer.getD []).take st.alreadyWritten

section
variable (S : FileBasedPacketSerializer P) (converter : Converter P Bytes)

/-- The call gives the same result with both consumers, and leaves the same unread bytes. -/
def Agrees (s : State) (call : Call) : Prop :=
  (S.bufferedCall converter s.buffered call).1 = (S.plainCall converter s.plain call).1 ∧
    unread (S.bufferedCall converter s.buffered call).2 =
      (S.plainCall converter s.plain call).2.buffer

/-- If the call makes `load_from_file` return a packet or raise an expected error, what it leaves of
    the file fits a new buffer. -/
def Fits (bufferSizeHint : ℕ) (s : State) (call : Call) : Prop :=
  let chunk := s.plain.buffer ++ call.data?.getD []
  let file := received s.plain.consumer.join chunk
  chunk ≠ [] → file.value.length ≤ S.limit →
    (S.leftover file.value).length ≤ min bufferSizeHint S.limit

instance (bufferSizeHint : ℕ) (s : State) (call : Call) :
    Decidable (S.Fits bufferSizeHint s call) :=
  inferInstanceAs (Decidable (_ → _ → _))

end

/-! ## One round -/

section
variable {S : FileBasedPacketSerializer P} {converter : Converter P Bytes} {bufferSizeHint : ℕ}
  {chunk : Bytes} {s : Suspended}

/-- The result of a call whose round ends with this verdict. -/
def result (verdict : Verdict P Bytes) (remainder : Bytes) : NextResult P Bytes :=
  match verdict with
  | .ok packet => .packet packet
  | .error cause => .parseError ⟨cause, remainder⟩

/-- What a round means for the plain consumer. -/
def Round.plain : Round P → NextResult P Bytes × StreamDataConsumer Suspended
  | .suspended file => (.stopIteration, ⟨[], some (some file)⟩)
  | .ended verdict remainder => (result verdict remainder, ⟨remainder, none⟩)

theorem plain_send (s : Suspended) (chunk : Bytes) :
    StreamDataConsumer.send (S.protocol converter) s chunk =
      (S.round converter (received s chunk)).plain := by
  unfold StreamDataConsumer.send
  rw [buildPacketFromChunks_send]
  rcases S.round converter (received s chunk) with file | ⟨packet | cause, remainder⟩ <;> rfl

/-- `StreamDataConsumer.next` runs a round if there is anything to send. -/
theorem plain_next (st : StreamDataConsumer Suspended) (data : Option Bytes) :
    StreamDataConsumer.next (S.protocol converter) st data =
      if st.buffer ++ data.getD [] = [] then (.stopIteration, st)
      else (S.round converter (received st.consumer.join (st.buffer ++ data.getD []))).plain := by
  unfold StreamDataConsumer.next
  simp only
  by_cases hnil : st.buffer ++ data.getD [] = []
  · rw [if_pos hnil, if_pos hnil]
  · rw [if_neg hnil, if_neg hnil, ← plain_send]
    cases st.consumer <;> rfl

/-- What a round means for the buffered consumer, whose state is given. -/
def Round.buffered (S : FileBasedPacketSerializer P) (bufferSizeHint : ℕ) (buffer : Bytes) :
    Round P → NextResult P Bytes × BufferedStreamDataConsumer Suspended
  | .suspended file => (.stopIteration, ⟨some buffer, none, 0, 0, bufferSizeHint, some (some file)⟩)
  | .ended verdict remainder =>
    if remainder = [] then
      (result verdict remainder, ⟨some buffer, none, 0, 0, bufferSizeHint, none⟩)
    else if remainder.length ≤ (S.createDeserializerBuffer bufferSizeHint).length then
      (result verdict remainder,
        ⟨some (writeAt (S.createDeserializerBuffer bufferSizeHint) 0 remainder), none, 0,
          remainder.length, bufferSizeHint, some none⟩)
    else (.raised "memoryview assignment: lvalue and rvalue have different structures",
      ⟨some (S.createDeserializerBuffer bufferSizeHint), none, 0, 0, bufferSizeHint, some none⟩)

theorem newWriteBuffer_fresh (hpos : 0 < bufferSizeHint) :
    BufferedStreamDataConsumer.newWriteBuffer (S.bufferedProtocol converter)
      ⟨none, none, 0, 0, bufferSizeHint, none⟩ =
      (.ok 0, ⟨some (S.createDeserializerBuffer bufferSizeHint), none, 0, 0, bufferSizeHint,
        some none⟩) := by
  have hlen : (S.createDeserializerBuffer bufferSizeHint).length - (0 + 0) ≠ 0 := by
    have := S.limit_pos
    rw [createDeserializerBuffer, List.length_replicate]
    omega
  have hne : S.createDeserializerBuffer bufferSizeHint ≠ [] := by
    rw [← List.length_pos_iff]
    omega
  have hbuffer : BufferedStreamDataConsumer.withBuffer (S.bufferedProtocol converter)
      ⟨none, none, 0, 0, bufferSizeHint, none⟩ =
      .ok (S.createDeserializerBuffer bufferSizeHint,
        ⟨some (S.createDeserializerBuffer bufferSizeHint), none, 0, 0, bufferSizeHint, none⟩) :=
    if_neg hne
  simp only [BufferedStreamDataConsumer.newWriteBuffer, hbuffer]
  exact if_neg hlen

/-- A remainder is written into a new buffer, in which it has to fit. -/
theorem saveRemainderInBuffer_fresh (hpos : 0 < bufferSizeHint) {buffer remainder : Bytes}
    (hne : remainder ≠ []) :
    BufferedStreamDataConsumer.saveRemainderInBuffer (S.bufferedProtocol converter)
      ⟨some buffer, none, 0, 0, bufferSizeHint, none⟩ remainder =
      if remainder.length ≤ (S.createDeserializerBuffer bufferSizeHint).length then
        (.ok (), ⟨some (writeAt (S.createDeserializerBuffer bufferSizeHint) 0 remainder), none, 0,
          remainder.length, bufferSizeHint, some none⟩)
      else (.error "memoryview assignment: lvalue and rvalue have different structures",
        ⟨some (S.createDeserializerBuffer bufferSizeHint), none, 0, 0, bufferSizeHint,
          some none⟩) := by
  unfold BufferedStreamDataConsumer.saveRemainderInBuffer
  rw [if_neg hne]
  simp only [newWriteBuffer_fresh hpos]
  by_cases hfits : remainder.length ≤ (S.createDeserializerBuffer bufferSizeHint).length
  · rw [if_pos hfits]
    refine (if_pos (show _ ≤ _ - 0 from hfits)).trans ?_
    simp only [BufferedStreamDataConsumer.write, Option.map_some, Nat.zero_add]
  · rw [if_neg hfits]
    exact if_neg (show ¬ _ ≤ _ - 0 from hfits)

/-- `send` runs a round on the bytes that the caller has written. -/
theorem buffered_send (hpos : 0 < bufferSizeHint) (buffer : Bytes) (n : ℕ)
    {busy : Option Suspended} :
    BufferedStreamDataConsumer.send (S.bufferedProtocol converter)
      ⟨some buffer, none, 0, 0, bufferSizeHint, busy⟩ s n =
      (S.round converter (received s (buffer.take n))).buffered S bufferSizeHint buffer := by
  unfold BufferedStreamDataConsumer.send
  simp only [Option.getD_some, buildPacketFromBuffer_send, Option.map_some]
  have hsave : ∀ (verdict : Verdict P Bytes) (remainder : Bytes),
      BufferedStreamDataConsumer.saveThen (S.bufferedProtocol converter)
        ⟨some buffer, none, 0, 0, bufferSizeHint, none⟩ remainder (result verdict remainder) =
      (Round.ended verdict remainder).buffered S bufferSizeHint buffer := by
    intro verdict remainder
    unfold BufferedStreamDataConsumer.saveThen Round.buffered
    by_cases hnil : remainder = []
    · subst hnil
      rfl
    · rw [saveRemainderInBuffer_fresh hpos hnil]
      simp only [if_neg hnil]
      by_cases hfits : remainder.length ≤ (S.createDeserializerBuffer bufferSizeHint).length
      · rw [if_pos hfits, if_pos hfits]
      · rw [if_neg hfits, if_neg hfits]
  rcases S.round converter (received s (buffer.take n)) with file | ⟨cause | packet, remainder⟩
  · rfl
  · exact hsave (.error cause) remainder
  · exact hsave (.ok packet) remainder

/-- With a generator, the view that is offered starts after the unread bytes. -/
theorem newWriteBuffer_some {buffer : Bytes} {n : ℕ} {consumer : Suspended}
    (hlt : n < buffer.length) :
    BufferedStreamDataConsumer.newWriteBuffer (S.bufferedProtocol converter)
      ⟨some buffer, none, 0, n, bufferSizeHint, some consumer⟩ =
      (.ok n, ⟨some buffer, none, 0, n, bufferSizeHint, some consumer⟩) := by
  have hfree : ¬ buffer.length - (0 + n) = 0 := by omega
  refine Eq.trans (if_neg hfree) ?_
  rw [Nat.zero_add]

theorem newWriteBuffer_idle {buffer : Bytes} (hlt : 0 < buffer.length) :
    BufferedStreamDataConsumer.newWriteBuffer (S.bufferedProtocol converter)
      ⟨some buffer, none, 0, 0, bufferSizeHint, none⟩ =
      (.ok 0, ⟨some buffer, none, 0, 0, bufferSizeHint, some none⟩) := by
  have hfree : ¬ buffer.length - (0 + 0) = 0 := by omega
  exact if_neg hfree

/-- `next(len(data))` after `data` has been written behind the unread bytes. -/
theorem next_written (hhint : 0 < bufferSizeHint) {buffer data : Bytes} {n : ℕ}
    (hdata : 1 ≤ data.length) (hle : data.length ≤ buffer.length - n) :
    BufferedStreamDataConsumer.next (S.bufferedProtocol converter)
      ⟨some (writeAt buffer n data), some n, 0, n, bufferSizeHint, some s⟩ (some data.length) =
      (S.round converter (received s (buffer.take n ++ data))).buffered S bufferSizeHint
        (writeAt buffer n data) := by
  have hroom : n + data.length ≤ buffer.length := by omega
  have hnbytes : data.length ≤ (writeAt buffer n data).length - n := by
    rwa [length_writeAt hroom]
  have hnonzero : ¬ data.length + n = 0 := by omega
  refine (if_pos hnbytes).trans ((if_neg hnonzero).trans ?_)
  rw [← take_writeAt hroom, Nat.add_comm n]
  exact buffered_send hhint _ _

theorem next_unread (hhint : 0 < bufferSizeHint) {buffer : Bytes} {n : ℕ} (hpos : 0 < n) :
    BufferedStreamDataConsumer.next (S.bufferedProtocol converter)
      ⟨some buffer, none, 0, n, bufferSizeHint, some s⟩ none =
      (S.round converter (received s (buffer.take n))).buffered S bufferSizeHint buffer := by
  have hnonzero : ¬ 0 + n = 0 := by omega
  refine (if_neg hnonzero).trans ?_
  rw [Nat.zero_add]
  exact buffered_send hhint _ _

/-- A read that fits the offered buffer, which starts after the unread bytes. -/
theorem bufferedCall_read (hhint : 0 < bufferSizeHint) {st : BufferedStreamDataConsumer Suspended}
    {buffer data : Bytes} {n : ℕ} (hexported : st.exportedWriteBufferView = none)
    (hnew : BufferedStreamDataConsumer.newWriteBuffer (S.bufferedProtocol converter) st =
      (.ok n, ⟨some buffer, none, 0, n, bufferSizeHint, some s⟩))
    (ho : S.Offered converter st (.read data)) :
    ∃ buffer' : Bytes, buffer'.length = buffer.length ∧
      S.bufferedCall converter st (.read data) =
        (S.round converter (received s (buffer.take n ++ data))).buffered S bufferSizeHint
          buffer' := by
  have hget : BufferedStreamDataConsumer.getWriteBuffer (S.bufferedProtocol converter) st =
      (.ok n, ⟨some buffer, some n, 0, n, bufferSizeHint, some s⟩) := by
    simp only [BufferedStreamDataConsumer.getWriteBuffer, hexported, hnew]
  simp only [Offered, hget] at ho
  obtain ⟨hdata, hle⟩ : 1 ≤ data.length ∧ data.length ≤ buffer.length - n := ho
  refine ⟨writeAt buffer n data, length_writeAt (by omega), ?_⟩
  simp only [bufferedCall, hget]
  exact next_written hhint hdata hle

/-- No read fits when the unread bytes fill the buffer. -/
theorem newWriteBuffer_full {buffer : Bytes} {n : ℕ} {consumer : Suspended}
    (hle : buffer.length ≤ n) {data : Bytes} :
    ¬ S.Offered converter ⟨some buffer, none, 0, n, bufferSizeHint, some consumer⟩
      (.read data) := by
  have hget : BufferedStreamDataConsumer.newWriteBuffer (S.bufferedProtocol converter)
      ⟨some buffer, none, 0, n, bufferSizeHint, some consumer⟩ =
      (.error "The start position is set to the end of the buffer",
        ⟨some buffer, none, 0, n, bufferSizeHint, some consumer⟩) :=
    if_pos (show buffer.length - (0 + n) = 0 by omega)
  simp only [Offered, BufferedStreamDataConsumer.getWriteBuffer, hget, not_false_eq_true]

end

/-! ## The relation -/

section
variable {S : FileBasedPacketSerializer P} {converter : Converter P Bytes} {bufferSizeHint : ℕ}
  {s s' : State} {call : Call}

/-- Both consumers keep the same unread bytes, or wait for more bytes with the same file. -/
inductive Related (S : FileBasedPacketSerializer P) (bufferSizeHint : ℕ) : State → Prop
  | idle (buffer : Option Bytes)
      (hlen : ∀ b, buffer = some b → b.length = min bufferSizeHint S.limit) :
      Related S bufferSizeHint ⟨⟨[], none⟩, ⟨buffer, none, 0, 0, bufferSizeHint, none⟩⟩
  | unread (buffer : Bytes) (n : ℕ) (hlen : buffer.length = min bufferSizeHint S.limit)
      (hpos : 0 < n) (hle : n ≤ buffer.length) :
      Related S bufferSizeHint
        ⟨⟨buffer.take n, none⟩, ⟨some buffer, none, 0, n, bufferSizeHint, some none⟩⟩
  | suspended (buffer : Bytes) (file : BytesIO)
      (hlen : buffer.length = min bufferSizeHint S.limit) :
      Related S bufferSizeHint ⟨⟨[], some (some file)⟩,
        ⟨some buffer, none, 0, 0, bufferSizeHint, some (some file)⟩⟩

theorem Related.init : Related S bufferSizeHint (State.init bufferSizeHint) := .idle none nofun

theorem Related.unread_eq (h : Related S bufferSizeHint s) :
    FileBasedPacketSerializer.unread s.buffered = s.plain.buffer := by
  cases h <;> rfl

/-- The round that a call runs. -/
def callRound (S : FileBasedPacketSerializer P) (converter : Converter P Bytes) (s : State)
    (call : Call) : Round P :=
  S.round converter (received s.plain.consumer.join (s.plain.buffer ++ call.data?.getD []))

/-- The call gives nothing to the generators. -/
def Void (s : State) (call : Call) : Prop := s.plain.buffer ++ call.data?.getD [] = []

theorem Related.calls_void (h : Related S bufferSizeHint s)
    (ho : S.Offered converter s.buffered call) (hvoid : Void s call) :
    S.bufferedCall converter s.buffered call = (.stopIteration, s.buffered) ∧
      S.plainCall converter s.plain call = (.stopIteration, s.plain) := by
  have hplain : S.plainCall converter s.plain call = (.stopIteration, s.plain) :=
    (plain_next s.plain call.data?).trans (if_pos hvoid)
  refine ⟨?_, hplain⟩
  cases call with
  | next =>
    cases h with
    | idle buffer hlen => rfl
    | unread buffer n hlen hpos hle =>
      have hnil : buffer.take n = [] := (List.append_eq_nil_iff.1 hvoid).1
      have := congrArg List.length hnil
      rw [List.length_take, List.length_nil] at this
      omega
    | suspended buffer file hlen => rfl
  | read data =>
    have hnil : data = [] := (List.append_eq_nil_iff.1 hvoid).2
    subst hnil
    simp only [Offered] at ho
    split at ho
    · exact ho.elim
    · exact absurd ho.1 (Nat.not_succ_le_zero 0)

/-- A call that gives something to the generators runs the same round with both. -/
theorem Related.calls (hhint : 0 < bufferSizeHint) (h : Related S bufferSizeHint s)
    (ho : S.Offered converter s.buffered call) (hvoid : ¬ Void s call) :
    (∃ buffer : Bytes, buffer.length = min bufferSizeHint S.limit ∧
      S.bufferedCall converter s.buffered call =
        (callRound S converter s call).buffered S bufferSizeHint buffer) ∧
      S.plainCall converter s.plain call = (callRound S converter s call).plain := by
  refine ⟨?_, (plain_next s.plain call.data?).trans (if_neg hvoid)⟩
  have hmin : 0 < min bufferSizeHint S.limit := Nat.lt_min.2 ⟨hhint, S.limit_pos⟩
  cases call with
  | next =>
    cases h with
    | idle buffer hlen => exact absurd rfl hvoid
    | unread buffer n hlen hpos hle =>
      refine ⟨buffer, hlen, (next_unread hhint hpos).trans ?_⟩
      simp only [callRound, Call.data?, Option.getD_none, List.append_nil, Option.join_none]
    | suspended buffer file hlen => exact absurd rfl hvoid
  | read data =>
    cases h with
    | idle buffer hlen =>
      cases buffer with
      | none =>
        obtain ⟨buffer', hlen', hcall⟩ :=
          bufferedCall_read hhint rfl (newWriteBuffer_fresh hhint) ho
        exact ⟨buffer', hlen'.trans List.length_replicate, hcall⟩
      | some buffer =>
        have hlt : 0 < buffer.length := by rwa [hlen buffer rfl]
        obtain ⟨buffer', hlen', hcall⟩ :=
          bufferedCall_read hhint rfl (newWriteBuffer_idle hlt) ho
        exact ⟨buffer', hlen'.trans (hlen buffer rfl), hcall⟩
    | unread buffer n hlen hpos hle =>
      have hlt : n < buffer.length := by
        by_contra hfull
        exact newWriteBuffer_full (Nat.le_of_not_lt hfull) ho
      obtain ⟨buffer', hlen', hcall⟩ := bufferedCall_read hhint rfl (newWriteBuffer_some hlt) ho
      exact ⟨buffer', hlen'.trans hlen, hcall⟩
    | suspended buffer file hlen =>
      have hlt : 0 < buffer.length := by rwa [hlen]
      obtain ⟨buffer', hlen', hcall⟩ := bufferedCall_read hhint rfl (newWriteBuffer_some hlt) ho
      exact ⟨buffer', hlen'.trans hlen, hcall⟩

/-! ## Agreement -/

theorem take_writeAt_zero {buffer data : Bytes} (h : data.length ≤ buffer.length) :
    (writeAt buffer 0 data).take data.length = data := by
  have htake := take_writeAt ((Nat.zero_add data.length).trans_le h)
  rwa [Nat.zero_add] at htake

/-- A round gives the same with both consumers iff its remainder fits a new buffer. -/
theorem Round.agrees_iff (r : Round P) (buffer : Bytes) :
    ((r.buffered S bufferSizeHint buffer).1 = r.plain.1 ∧
      FileBasedPacketSerializer.unread (r.buffered S bufferSizeHint buffer).2 = r.plain.2.buffer) ↔
      r.remainder.length ≤ min bufferSizeHint S.limit := by
  have hnew : (S.createDeserializerBuffer bufferSizeHint).length = min bufferSizeHint S.limit :=
    List.length_replicate
  rcases r with file | ⟨verdict, remainder⟩
  · exact iff_of_true ⟨rfl, rfl⟩ (Nat.zero_le _)
  · simp only [buffered, plain, Round.remainder]
    by_cases hnil : remainder = []
    · subst hnil
      exact iff_of_true ⟨rfl, rfl⟩ (Nat.zero_le _)
    rw [if_neg hnil]
    by_cases hfits : remainder.length ≤ (S.createDeserializerBuffer bufferSizeHint).length
    · rw [if_pos hfits]
      exact iff_of_true ⟨rfl, take_writeAt_zero hfits⟩ (hnew ▸ hfits)
    · rw [if_neg hfits]
      refine iff_of_false (fun h => ?_) (hnew ▸ hfits)
      cases verdict <;> cases h.1

/-- A round whose remainder fits leads to related states. -/
theorem Round.related (r : Round P) {buffer : Bytes}
    (hlen : buffer.length = min bufferSizeHint S.limit)
    (hfits : r.remainder.length ≤ min bufferSizeHint S.limit) :
    Related S bufferSizeHint ⟨r.plain.2, (r.buffered S bufferSizeHint buffer).2⟩ := by
  have hnew : (S.createDeserializerBuffer bufferSizeHint).length = min bufferSizeHint S.limit :=
    List.length_replicate
  rcases r with file | ⟨verdict, remainder⟩
  · exact .suspended buffer file hlen
  · simp only [buffered, plain, Round.remainder] at hfits ⊢
    by_cases hnil : remainder = []
    · subst hnil
      exact .idle (some buffer) fun b hb => by cases hb; exact hlen
    rw [← hnew] at hfits
    rw [if_neg hnil, if_pos hfits]
    have hwritten : (writeAt (S.createDeserializerBuffer bufferSizeHint) 0 remainder).length =
        (S.createDeserializerBuffer bufferSizeHint).length :=
      length_writeAt ((Nat.zero_add _).trans_le hfits)
    have hrelated : Related S bufferSizeHint _ := .unread
      (writeAt (S.createDeserializerBuffer bufferSizeHint) 0 remainder) remainder.length
      (hwritten.trans hnew) (List.length_pos_iff.2 hnil) (hfits.trans_eq hwritten.symm)
    rwa [take_writeAt_zero hfits] at hrelated

theorem step_offered (h : step S converter s call = some s') :
    S.Offered converter s.buffered call ∧
      s' = ⟨(S.plainCall converter s.plain call).2,
        (S.bufferedCall converter s.buffered call).2⟩ := by
  unfold step at h
  by_cases ho : S.Offered converter s.buffered call
  · rw [if_pos ho] at h
    cases h
    exact ⟨ho, rfl⟩
  · rw [if_neg ho] at h
    cases h

/-- `Fits` is about the remainder of the round of a call that gives something. -/
theorem fits_iff (hvoid : ¬ Void s call) : S.Fits bufferSizeHint s call ↔
    (callRound S converter s call).remainder.length ≤ min bufferSizeHint S.limit := by
  rw [callRound, remainder_round]
  unfold Fits
  by_cases hlimit : (received s.plain.consumer.join
      (s.plain.buffer ++ call.data?.getD [])).value.length > S.limit
  · rw [if_pos hlimit]
    exact iff_of_true (fun _ hle => absurd hle (Nat.not_le_of_lt hlimit)) (Nat.zero_le _)
  · rw [if_neg hlimit]
    exact ⟨fun h => h hvoid (Nat.le_of_not_lt hlimit), fun h _ _ => h⟩

theorem Related.agrees_iff (hhint : 0 < bufferSizeHint) (h : Related S bufferSizeHint s)
    (hstep : FileBasedPacketSerializer.step S converter s call = some s') :
    S.Agrees converter s call ↔ S.Fits bufferSizeHint s call := by
  obtain ⟨ho, rfl⟩ := step_offered hstep
  by_cases hvoid : Void s call
  · obtain ⟨hbuffered, hplain⟩ := h.calls_void ho hvoid
    refine iff_of_true ?_ fun hne => absurd hvoid hne
    rw [Agrees, hbuffered, hplain]
    exact ⟨rfl, h.unread_eq⟩
  · obtain ⟨⟨buffer, -, hbuffered⟩, hplain⟩ := h.calls hhint ho hvoid
    rw [Agrees, hbuffered, hplain, fits_iff hvoid]
    exact Round.agrees_iff _ buffer

theorem Related.step (hhint : 0 < bufferSizeHint) (h : Related S bufferSizeHint s)
    (hfits : S.Fits bufferSizeHint s call)
    (hstep : FileBasedPacketSerializer.step S converter s call = some s') :
    Related S bufferSizeHint s' := by
  obtain ⟨ho, rfl⟩ := step_offered hstep
  by_cases hvoid : Void s call
  · obtain ⟨hbuffered, hplain⟩ := h.calls_void ho hvoid
    rw [hbuffered, hplain]
    exact h
  · obtain ⟨⟨buffer, hlen, hbuffered⟩, hplain⟩ := h.calls hhint ho hvoid
    rw [hbuffered, hplain]
    exact Round.related _ hlen ((fits_iff hvoid).1 hfits)

/-- **The two consumers agree on every call of a run iff whatever a round leaves of its file fits a
    new buffer.** -/
theorem buffered_agrees_iff (hhint : 0 < bufferSizeHint) {calls : List Call}
    (h : Trans.run (FileBasedPacketSerializer.step S converter) (State.init bufferSizeHint) calls =
      some s') :
    Trans.Meets (FileBasedPacketSerializer.step S converter) (S.Agrees converter)
        (State.init bufferSizeHint) calls ↔
      Trans.Meets (FileBasedPacketSerializer.step S converter) (S.Fits bufferSizeHint)
        (State.init bufferSizeHint) calls :=
  Trans.meets_congr (I := Related S bufferSizeHint)
    (fun _ _ _ hs hstep => hs.agrees_iff hhint hstep)
    (fun _ _ _ hs hfits hstep => hs.step hhint hfits hstep) .init h

end

/-- Packets of two bytes. -/
def twoBytes : FileBasedPacketSerializer Bytes where
  loadFromFile
    | a :: b :: _ => .returned [a, b] 2
    | value => .eofError value.length
  limit := 8
  debug := false
  limit_pos := Nat.zero_lt_succ 7

/-- Three bytes are received, of which one is left. -/
theorem buffered_agrees_iff_two :
    Trans.Meets (step twoBytes none) (twoBytes.Agrees none) (State.init 4)
      [.read [1, 2, 3], .next, .read [4]] := by
  obtain ⟨s, hs⟩ : ∃ s, Trans.run (step twoBytes none) (State.init 4)
      [.read [1, 2, 3], .next, .read [4]] = some s := ⟨_, rfl⟩
  exact (buffered_agrees_iff (by decide) hs).2 (by decide)

/-- A loader that wants three bytes and then finds an error in the first one, which it does not
    consume. -/
def badMagic : FileBasedPacketSerializer Bytes where
  loadFromFile value :=
    if value.length < 3 then .eofError value.length else .expectedError "bad magic" 0
  limit := 8
  debug := false
  limit_pos := Nat.zero_lt_succ 7

/-- Two reads of two bytes: the plain consumer raises the parse error with the four bytes, which do
    not fit a buffer of two bytes. -/
theorem badMagic_disagrees :
    ∃ s, Trans.run (step badMagic none) (State.init 2) [.read [1, 2]] = some s ∧
      badMagic.Offered none s.buffered (.read [3, 4]) ∧
      (badMagic.plainCall none s.plain (.read [3, 4])).1 =
        .parseError ⟨.deserialize "Deserialize error: bad magic" none, [1, 2, 3, 4]⟩ ∧
      (badMagic.bufferedCall none s.buffered (.read [3, 4])).1 =
        .raised "memoryview assignment: lvalue and rvalue have different structures" := by
  obtain ⟨s, hs⟩ : ∃ s, Trans.run (step badMagic none) (State.init 2) [.read [1, 2]] = some s :=
    ⟨_, rfl⟩
  refine ⟨s, hs, ?_⟩
  cases hs
  exact ⟨by decide, rfl, rfl⟩

end FileBasedPacketSerializer

end EasyNetwork
