/-
  Receiving the packets of a stream of frames.

  `ReadsFrames`: the consumer of an endpoint reads the frames of a framer.  Both stream data consumers do
  when their generators implement the framer (`dataReceiver_readsFrames`,
  `bufferedReceiver_readsFrames`).

  `recv_packet_frames`: then the calls of `recv_packet()` give the frames of the received bytes one
  after the other, whatever the reads and the timeouts, and a call that waits for the transport, or
  that has found the end of the stream, has given all of them.  The consumer still holds the frames
  that have not been asked for, and the part of the next one, at the end of the stream as well.
-/
import EasyNetwork.Lib.Encoding
import EasyNetwork.SeparatedDelivery
import EasyNetwork.SizeHint
import EasyNetwork.StreamReceive

namespace EasyNetwork

open Coroutine Framing

namespace StreamEndpoint

variable {σ P ι ρ : Type}

/-- The consumer reads the frames of `F` and reports each of them, as long as the received bytes are
    `ok`.  `Holds s b`: the state `s` has received `b` since the last frame that has been taken;
    `Waits s b`: no frame can be taken, and `b` is a part of the next one. -/
structure ReadsFrames (f : Feeder σ Bytes WriteBuffer (NextResult P ι)) (F : Framer UInt8 ρ)
    (report : ρ → Verdict P ι) (ok : Bytes → Prop) (Holds Waits : σ → Bytes → Prop) : Prop where
  holds : ∀ {s b}, Waits s b → Holds s b
  dec : ∀ {s b}, Waits s b → F.dec b = none
  take_none : ∀ {s b}, Holds s b → ok b → F.dec b = none →
    ∃ s', f.take s = (none, s') ∧ Waits s' (F.norm b)
  take_some : ∀ {s b o r}, Holds s b → ok b → F.dec b = some (o, r) →
    ∃ s', f.take s = (some ((report o).result r), s') ∧ Holds s' r
  offer : ∀ {s b}, Waits s b →
    ∃ buffer s', f.offer s = (.ok buffer, s') ∧ 0 < buffer.nbytes ∧ Waits s' b
  give_none : ∀ {s b buffer c}, Waits s b → f.offer s = (.ok buffer, s) → c ≠ [] →
    c.length ≤ buffer.nbytes → ok (b ++ c) → F.dec (b ++ c) = none →
    ∃ s', f.give s buffer c = (none, s') ∧ Waits s' (F.norm (b ++ c))
  give_some : ∀ {s b buffer c o r}, Waits s b → f.offer s = (.ok buffer, s) → c ≠ [] →
    c.length ≤ buffer.nbytes → ok (b ++ c) → F.dec (b ++ c) = some (o, r) →
    ∃ s', f.give s buffer c = (some ((report o).result r), s') ∧ Holds s' r

@[simp] theorem result?_result (v : Verdict P ι) (r : Bytes) :
    (v.result r).result? = some (v.result r) := by cases v <;> rfl

/-- A consumer that does what another one does reads the same frames. -/
theorem ReadsFrames.of_follows {f g : Feeder σ Bytes WriteBuffer (NextResult P ι)}
    {F : Framer UInt8 ρ} {report : ρ → Verdict P ι} {ok : Bytes → Prop}
    {Holds Waits : σ → Bytes → Prop} {Ok : σ → Prop} (h : ReadsFrames g F report ok Holds Waits)
    (hf : Follows f g Ok) : ReadsFrames f F report ok (fun s b => Ok s ∧ Holds s b)
      (fun s b => Ok s ∧ Waits s b) where
  holds hw := ⟨hw.1, h.holds hw.2⟩
  dec hw := h.dec hw.2
  take_none := by
    rintro s b ⟨hs, hh⟩ hok hdec
    obtain ⟨s', htake, hw⟩ := h.take_none hh hok hdec
    obtain ⟨heq, hs'⟩ := hf.take hs
    rw [heq, htake] at hs'
    exact ⟨s', heq.trans htake, hs', hw⟩
  take_some := by
    rintro s b o r ⟨hs, hh⟩ hok hdec
    obtain ⟨s', htake, hh'⟩ := h.take_some hh hok hdec
    obtain ⟨heq, hs'⟩ := hf.take hs
    rw [heq, htake] at hs'
    exact ⟨s', heq.trans htake, hs', hh'⟩
  offer := by
    rintro s b ⟨hs, hw⟩
    obtain ⟨buffer, s', hoffer, hpos, hw'⟩ := h.offer hw
    obtain ⟨heq, hs'⟩ := hf.offer hs
    rw [heq, hoffer] at hs'
    exact ⟨buffer, s', heq.trans hoffer, hpos, hs', hw'⟩
  give_none := by
    rintro s b buffer c ⟨hs, hw⟩ hoffer hc hle hok hdec
    rw [(hf.offer hs).1] at hoffer
    obtain ⟨s', hgive, hw'⟩ := h.give_none hw hoffer hc hle hok hdec
    obtain ⟨heq, hs'⟩ := hf.give buffer c hs
    rw [heq, hgive] at hs'
    exact ⟨s', heq.trans hgive, hs', hw'⟩
  give_some := by
    rintro s b buffer c o r ⟨hs, hw⟩ hoffer hc hle hok hdec
    rw [(hf.offer hs).1] at hoffer
    obtain ⟨s', hgive, hh⟩ := h.give_some hw hoffer hc hle hok hdec
    obtain ⟨heq, hs'⟩ := hf.give buffer c hs
    rw [heq, hgive] at hs'
    exact ⟨s', heq.trans hgive, hs', hh⟩

/-! ## `_DataReceiverImpl` -/

section
variable {proto : StreamProtocol σ P ι} {F : Framer UInt8 ρ} {report : ρ → Verdict P ι}
  {ok : Bytes → Prop} {inv : σ → Bytes → Prop}

/-- Between two reads, or with the bytes that a packet has left. -/
def DataHolds (F : Framer UInt8 ρ) (inv : σ → Bytes → Prop) (st : StreamDataConsumer σ)
    (b : Bytes) : Prop :=
  StreamDataConsumer.Rep F inv st b ∨ st = ⟨b, none⟩

theorem holds_left (F : Framer UInt8 ρ) (inv : σ → Bytes → Prop) (b : Bytes) :
    StreamDataConsumer.Holds F inv (⟨b, none⟩ : StreamDataConsumer σ) [] := .inl ⟨rfl, rfl⟩

theorem buffer_left (b : Bytes) :
    (⟨b, none⟩ : StreamDataConsumer σ).buffer ++ (none : Option Bytes).getD [] = b :=
  List.append_nil b

theorem dataReceiver_readsFrames (h : Implements proto.buildPacketFromChunks F report ok inv)
    {maxRecvSize : ℕ} (hmax : 0 < maxRecvSize) : ReadsFrames (dataReceiver proto maxRecvSize) F
      report ok (DataHolds F inv) (StreamDataConsumer.Rep F inv) where
  holds := .inl
  dec hr := hr.dec
  take_none := by
    rintro s b (hr | rfl) hok hdec
    · refine ⟨s, dataReceiver_take hr.buffer, hr.buffer, by rw [F.dec_norm, hdec], ?_⟩
      rcases hr.holds with ⟨hc, rfl⟩ | ⟨g, received, hc, hi, hne, rfl⟩
      · exact .inl ⟨hc, F.norm_nil⟩
      · exact .inr ⟨g, received, hc, hi, hne, (Framer.norm_norm _).symm⟩
    · by_cases hb : b = []
      · subst hb
        rw [F.norm_nil]
        exact ⟨_, dataReceiver_take rfl, StreamDataConsumer.rep_init F inv⟩
      · obtain ⟨g, h1, h2⟩ := StreamDataConsumer.next_none h (holds_left F inv b) F.dec_nil
          (buffer_left b) hb hok hdec
        refine ⟨⟨[], some g⟩, ?_, rfl, by rw [F.dec_norm, hdec], .inr ⟨g, b, rfl, h2, hb, rfl⟩⟩
        simp only [dataReceiver, h1]
        rfl
  take_some := by
    rintro s b o r (hr | rfl) hok hdec
    · exact absurd (hr.dec.symm.trans hdec) nofun
    · have hb : b ≠ [] := by
        rintro rfl
        exact absurd (F.dec_nil.symm.trans hdec) nofun
      have h1 := StreamDataConsumer.next_some h (holds_left F inv b) F.dec_nil (buffer_left b) hb
        hok hdec
      refine ⟨⟨r, none⟩, ?_, .inr rfl⟩
      simp only [dataReceiver, h1, result?_result]
  offer hr := ⟨⟨0, maxRecvSize⟩, _, rfl, hmax, hr⟩
  give_none := by
    intro s b buffer c hr _ hc _ hok hdec
    have hd : s.buffer ++ (some c).getD [] = c := by rw [hr.buffer]; rfl
    obtain ⟨g, h1, h2⟩ := StreamDataConsumer.next_none h hr.holds hr.dec hd hc hok hdec
    refine ⟨⟨[], some g⟩, ?_, rfl, by rw [F.dec_norm, hdec],
      .inr ⟨g, b ++ c, rfl, h2, by simp [hc], rfl⟩⟩
    simp only [dataReceiver, h1]
    rfl
  give_some := by
    intro s b buffer c o r hr _ hc _ hok hdec
    have hd : s.buffer ++ (some c).getD [] = c := by rw [hr.buffer]; rfl
    have h1 := StreamDataConsumer.next_some h hr.holds hr.dec hd hc hok hdec
    refine ⟨⟨r, none⟩, ?_, .inr rfl⟩
    simp only [dataReceiver, h1, result?_result]

end

/-! ## `_BufferedReceiverImpl` -/

section
variable {proto : BufferedStreamProtocol σ P ι} {F : Framer UInt8 ρ} {report : ρ → Verdict P ι}
  {ok : Bytes → Prop} {L : ℕ} {inv : σ → ℕ → Bytes → Bytes → Prop}

/-- Between two reads, or with the bytes that a packet has left in the new buffer. -/
def BufferHolds (F : Framer UInt8 ρ) (L : ℕ) (inv : σ → ℕ → Bytes → Bytes → Prop)
    (st : BufferedStreamDataConsumer σ) (b : Bytes) : Prop :=
  BufferedStreamDataConsumer.Rep F L inv st b ∨ BufferedStreamDataConsumer.Saved L inv st b

/-- The state in which a place has been offered. -/
theorem offered_of_rep (h : BufferImplements proto.buildPacketFromBuffer F report ok L inv)
    (hL : ∀ hint, (proto.createBuffer hint).length = L) (hpos : 0 < L)
    {st : BufferedStreamDataConsumer σ} {b : Bytes} {buffer : WriteBuffer}
    (hr : BufferedStreamDataConsumer.Rep F L inv st b)
    (hoffer : (bufferedReceiver proto).offer st = (.ok buffer, st)) :
    ∃ g buf hint, st = ⟨some buf, some buffer.start, buffer.start, 0, hint, some g⟩ ∧
      inv g buffer.start buf b ∧ buffer.nbytes = L - buffer.start ∧ buf.length = L := by
  obtain ⟨hget, hnbytes⟩ := bufferedReceiver_offer hoffer
  obtain ⟨g, start, buf, hint, hget', hi⟩ :=
    BufferedStreamDataConsumer.getWriteBuffer_of_rep h hL hpos hr
  rw [hget] at hget'
  obtain ⟨hstart, hst⟩ := Prod.mk.inj hget'
  cases hstart
  have hlen := (h.lt hi).2
  refine ⟨g, buf, hint, hst, hi, ?_, hlen⟩
  rw [hnbytes, hst, BufferedStreamDataConsumer.nbytes, Option.getD_some, hlen]

/-- Announcing a read resumes the generator. -/
theorem give_of_send {g : σ} {start hint : ℕ} {buf c : Bytes} {r : NextResult P ι}
    {st' : BufferedStreamDataConsumer σ} {nbytes : ℕ} (hc : c ≠ [])
    (hl : start + c.length ≤ buf.length)
    (hsend : BufferedStreamDataConsumer.send proto
      ⟨some (writeAt buf start c), none, start, 0, hint, some g⟩ g c.length = (r, st')) :
    (bufferedReceiver proto).give ⟨some buf, some start, start, 0, hint, some g⟩ ⟨start, nbytes⟩ c =
      (r.result?, st') := by
  have hw : (writeAt buf start c).length = buf.length := length_writeAt hl
  have hn : c.length ≤ buf.length - start := by omega
  simp only [bufferedReceiver, BufferedStreamDataConsumer.write, Option.map_some,
    BufferedStreamDataConsumer.next, BufferedStreamDataConsumer.nbytes, Option.getD_some, hw, hn,
    if_true, BufferedStreamDataConsumer.nextChecked, Nat.add_zero, List.length_eq_zero_iff, hc,
    if_false, hsend]

/-- Taking resumes the generator with the bytes that have been saved. -/
theorem take_of_send {g : σ} {hint : ℕ} {buf d : Bytes} {r : NextResult P ι}
    {st' : BufferedStreamDataConsumer σ} (hd : d ≠ [])
    (hsend : BufferedStreamDataConsumer.send proto
      ⟨some (writeAt buf 0 d), none, 0, 0, hint, some g⟩ g d.length = (r, st')) :
    (bufferedReceiver proto).take ⟨some (writeAt buf 0 d), none, 0, d.length, hint, some g⟩ =
      (r.result?, st') := by
  simp only [bufferedReceiver, BufferedStreamDataConsumer.next,
    BufferedStreamDataConsumer.nextChecked, Nat.zero_add, List.length_eq_zero_iff, hd, if_false,
    hsend]

/-- The same buffers for all hints. -/
theorem bufferedReceiver_readsFrames_const
    (h : BufferImplements proto.buildPacketFromBuffer F report ok L inv)
    (hL : ∀ hint, (proto.createBuffer hint).length = L) (hpos : 0 < L) :
    ReadsFrames (bufferedReceiver proto) F report ok (BufferHolds F L inv)
      (BufferedStreamDataConsumer.Rep F L inv) where
  holds := .inl
  dec hr := hr.dec
  take_none := by
    rintro s b (hr | hsaved) hok hdec
    · refine ⟨s, ?_, by rw [F.dec_norm, hdec], ?_⟩
      · simp only [bufferedReceiver, BufferedStreamDataConsumer.next_of_rep hr]
        rfl
      · rcases hr.holds with ⟨hi, rfl⟩ | ⟨hi, hv⟩
        · exact .inl ⟨hi, F.norm_nil⟩
        · exact .inr (.mk (h.norm hi) hv)
    · cases hsaved with
      | nil hi =>
        have hr : BufferedStreamDataConsumer.Rep F L inv s [] := ⟨F.dec_nil, .inl ⟨hi, rfl⟩⟩
        refine ⟨s, ?_, by rwa [F.norm_nil]⟩
        simp only [bufferedReceiver, BufferedStreamDataConsumer.next_of_rep hr]
        rfl
      | cons hint hne hi hl =>
        obtain ⟨st', h1, h2⟩ := BufferedStreamDataConsumer.send_none h 0 hint hi hne
          (by omega) hok F.dec_nil hdec
        exact ⟨st', take_of_send hne h1, h2⟩
  take_some := by
    rintro s b o r (hr | hsaved) hok hdec
    · exact absurd (hr.dec.symm.trans hdec) nofun
    · cases hsaved with
      | nil hi => exact absurd (F.dec_nil.symm.trans hdec) nofun
      | cons hint hne hi hl =>
        obtain ⟨st', h1, h2⟩ := BufferedStreamDataConsumer.send_some h hL hpos 0 hint hi hne
          (by omega) hok F.dec_nil hdec
        refine ⟨st', ?_, .inr h2⟩
        rw [take_of_send hne h1, result?_result]
  offer := by
    intro s b hr
    obtain ⟨g, start, buf, hint, hget, hi⟩ :=
      BufferedStreamDataConsumer.getWriteBuffer_of_rep h hL hpos hr
    obtain ⟨hlt, hlen⟩ := h.lt hi
    refine ⟨_, _, bufferedReceiver_offer_ok hget, ?_, hr.dec, .inr (.mk hi ?_)⟩
    · show 0 < buf.length - start
      omega
    · rintro v hv
      cases hv
      rfl
  give_none := by
    intro s b buffer c hr hoffer hc hle hok hdec
    obtain ⟨g, buf, hint, rfl, hi, hn, hlen⟩ := offered_of_rep h hL hpos hr hoffer
    have hlt := (h.lt hi).1
    obtain ⟨st', h1, h2⟩ := BufferedStreamDataConsumer.send_none h buffer.start hint hi hc
      (by omega) hok hr.dec hdec
    exact ⟨st', give_of_send hc (by omega) h1, h2⟩
  give_some := by
    intro s b buffer c o r hr hoffer hc hle hok hdec
    obtain ⟨g, buf, hint, rfl, hi, hn, hlen⟩ := offered_of_rep h hL hpos hr hoffer
    have hlt := (h.lt hi).1
    obtain ⟨st', h1, h2⟩ := BufferedStreamDataConsumer.send_some h hL hpos buffer.start hint hi
      hc (by omega) hok hr.dec hdec
    refine ⟨st', ?_, .inr h2⟩
    rw [give_of_send hc (by omega) h1, result?_result]

theorem bufferedReceiver_readsFrames {hint : ℕ}
    (h : BufferImplements proto.buildPacketFromBuffer F report ok L inv)
    (hL : (proto.createBuffer hint).length = L) (hpos : 0 < L) :
    ReadsFrames (bufferedReceiver proto) F report ok
      (fun st b => st.sizehint = hint ∧ BufferHolds F L inv st b)
      (fun st b => st.sizehint = hint ∧ BufferedStreamDataConsumer.Rep F L inv st b) := by
  have hconst : ReadsFrames (bufferedReceiver (proto.atHint hint)) F report ok
      (BufferHolds F L inv) (BufferedStreamDataConsumer.Rep F L inv) :=
    bufferedReceiver_readsFrames_const h (fun _ => hL) hpos
  exact hconst.of_follows (bufferedReceiver_atHint proto hint)

end

/-! ## The calls -/

/-- The calls have given the frames `os` of the received bytes, and the consumer holds `b`. -/
structure Framed (F : Framer UInt8 ρ) (report : ρ → Verdict P ι) (ok : Bytes → Prop)
    (Holds Waits : σ → Bytes → Prop) (s : State σ P ι) (os : List ρ) (b : Bytes) : Prop where
  leaves : Leaves F ok s.chunks.flatten os b
  holds : Holds s.consumer b
  results : s.results.map NextResult.verdict? = os.map fun o => some (report o)
  reading : s.reading ≠ none → Waits s.consumer b
  aborted : .connectionAborted ∈ s.outcomes → Waits s.consumer b ∧ s.eofReached = true

section
variable {f : Feeder σ Bytes WriteBuffer (NextResult P ι)} {F : Framer UInt8 ρ}
  {report : ρ → Verdict P ι} {ok : Bytes → Prop} {Holds Waits : σ → Bytes → Prop} {Ok : σ → Prop}
  {s₀ : σ} {s s' : State σ P ι} {os : List ρ} {b : Bytes}

theorem mem_outcomes_finish {outcome : Outcome P ι} :
    .connectionAborted ∈ (s.finish outcome).outcomes ↔
      .connectionAborted ∈ s.outcomes ∨ outcome = .connectionAborted := by
  unfold State.finish
  rw [List.mem_append, List.mem_singleton, eq_comm (a := outcome)]

/-- A call ends with a result of the consumer. -/
theorem framed_finish_result {o : ρ} {r : Bytes} (hl : Leaves F ok s.chunks.flatten (os ++ [o]) r)
    (hh : Holds s.consumer r)
    (hr : s.results.map NextResult.verdict? = os.map fun o => some (report o))
    (ha : .connectionAborted ∉ s.outcomes) :
    Framed F report ok Holds Waits (s.finish (.result ((report o).result b))) (os ++ [o]) r where
  leaves := hl
  holds := hh
  results := by
    rw [results_finish, List.map_append, hr, List.map_append]
    simp only [Outcome.result?, Option.toList_some, List.map_cons, List.map_nil,
      Verdict.verdict?_result]
  reading h := absurd rfl h
  aborted h := by
    rcases mem_outcomes_finish.1 h with h | h
    · exact absurd h ha
    · cases h

/-- A call ends without a result. -/
theorem framed_finish_none {outcome : Outcome P ι} (hnone : outcome.result? = none)
    (h : Framed F report ok Holds Waits s os b)
    (ha : outcome = .connectionAborted → Waits s.consumer b ∧ s.eofReached = true) :
    Framed F report ok Holds Waits (s.finish outcome) os b where
  leaves := h.leaves
  holds := h.holds
  results := by
    rw [results_finish, hnone, Option.toList_none, List.append_nil]
    exact h.results
  reading h := absurd rfl h
  aborted hm := (mem_outcomes_finish.1 hm).elim h.aborted ha

theorem framed_loop (hf : ReadsFrames f F report ok Holds Waits) {timeout : Delay}
    (h : Framed F report ok Holds Waits s os b) (hw : Waits s.consumer b) :
    Framed F report ok Holds Waits (s.loop f timeout) os b := by
  unfold State.loop
  split
  · next heof => exact framed_finish_none rfl h fun _ => ⟨hw, heof⟩
  · obtain ⟨buffer, consumer, hoffer, -, hw'⟩ := hf.offer hw
    simp only [hoffer]
    exact ⟨h.leaves, hf.holds hw', h.results, fun _ => hw', fun hm => ⟨hw', (h.aborted hm).2⟩⟩

theorem framed_receive (hf : ReadsFrames f F report ok Holds Waits) (hok : F.Closed ok)
    {timeout : Delay} (h : Framed F report ok Holds Waits s os b) (ht : ok s.chunks.flatten) :
    ∃ os b, Framed F report ok Holds Waits (s.receive f timeout) os b := by
  have hb := h.leaves.ok_left ht
  unfold State.receive
  rcases hdec : F.dec b with _ | ⟨o, r⟩
  · obtain ⟨consumer, htake, hw⟩ := hf.take_none h.holds hb hdec
    simp only [htake]
    exact ⟨os, _, framed_loop hf ⟨h.leaves.norm hok, hf.holds hw, h.results, fun _ => hw,
      fun hm => ⟨hw, (h.aborted hm).2⟩⟩ hw⟩
  · obtain ⟨consumer, htake, hh⟩ := hf.take_some h.holds hb hdec
    simp only [htake]
    refine ⟨os ++ [o], r, framed_finish_result (h.leaves.dec hok hdec) hh h.results fun hm => ?_⟩
    exact absurd ((hf.dec (h.aborted hm).1).symm.trans hdec) nofun

theorem framed_received (hf : ReadsFrames f F report ok Holds Waits) (hok : F.Closed ok)
    {timeout : Delay} {buffer : WriteBuffer} {chunk : Bytes} {elapsed : ℚ}
    (h : Framed F report ok Holds Waits s os b) (hreading : s.reading = some (timeout, buffer))
    (hoffer : f.offer s.consumer = (.ok buffer, s.consumer)) (heof : s.eofReached = false)
    (hc : chunk ≠ []) (hle : chunk.length ≤ buffer.nbytes)
    (ht : ok (s.chunks.flatten ++ chunk)) :
    ∃ os b, Framed F report ok Holds Waits (s.received f timeout buffer chunk elapsed) os b := by
  have hw := h.reading (by rw [hreading]; nofun)
  have hb := h.leaves.ok _ ht
  have hleaves : Leaves F ok (s.chunks ++ [chunk]).flatten os (b ++ chunk) := by
    rw [List.flatten_concat]
    exact h.leaves.append chunk
  have ha : .connectionAborted ∉ s.outcomes := fun hm =>
    absurd (heof.symm.trans (h.aborted hm).2) nofun
  unfold State.received
  dsimp only
  rcases hdec : F.dec (b ++ chunk) with _ | ⟨o, r⟩
  · obtain ⟨consumer, hgive, hw'⟩ := hf.give_none hw hoffer hc hle hb hdec
    simp only [hgive]
    have h' : Framed F report ok Holds Waits
        { s with chunks := s.chunks ++ [chunk], consumer := consumer } os (F.norm (b ++ chunk)) :=
      ⟨hleaves.norm hok, hf.holds hw', h.results, fun _ => hw', fun hm => absurd hm ha⟩
    refine ⟨os, F.norm (b ++ chunk), ?_⟩
    split_ifs
    · exact framed_loop hf h' hw'
    · exact framed_finish_none rfl h' nofun
    · exact framed_loop hf h' hw'
  · obtain ⟨consumer, hgive, hh⟩ := hf.give_some hw hoffer hc hle hb hdec
    simp only [hgive]
    exact ⟨os ++ [o], r, framed_finish_result (hleaves.dec hok hdec) hh h.results ha⟩

theorem chunks_loop {timeout : Delay} : (s.loop f timeout).chunks = s.chunks := by
  unfold State.loop
  split
  · rfl
  · split <;> rfl

/-- What a step adds to the received bytes. -/
theorem chunks_step {a : Action} (hs : step f s a = some s') :
    (∃ timeout buffer chunk elapsed, a = .received chunk elapsed ∧
      s.reading = some (timeout, buffer) ∧ chunk ≠ [] ∧ chunk.length ≤ buffer.nbytes ∧
      s'.chunks = s.chunks ++ [chunk] ∧ s' = s.received f timeout buffer chunk elapsed) ∨
    s'.chunks = s.chunks ∧ ∀ chunk elapsed, a ≠ .received chunk elapsed := by
  cases a with
  | recvPacket timeout =>
    simp only [step] at hs
    split at hs <;> cases hs
    refine .inr ⟨?_, by rintro _ _ ⟨⟩⟩
    unfold State.receive
    split
    · rfl
    · exact chunks_loop
  | received chunk elapsed =>
    simp only [step] at hs
    split at hs
    · next timeout buffer hreading =>
      split at hs <;> cases hs
      next hc =>
      rw [not_or] at hc
      refine .inl ⟨timeout, buffer, chunk, elapsed, rfl, hreading, hc.1, Nat.le_of_not_lt hc.2, ?_, rfl⟩
      unfold State.received
      dsimp only
      split
      · rfl
      · split_ifs <;> first | exact chunks_loop | rfl
    · cases hs
  | endOfStream =>
    simp only [step] at hs
    split at hs <;> cases hs
    exact .inr ⟨chunks_loop, by rintro _ _ ⟨⟩⟩
  | timesOut =>
    simp only [step] at hs
    split at hs <;> cases hs
    exact .inr ⟨rfl, by rintro _ _ ⟨⟩⟩

theorem eofReached_loop {timeout : Delay} :
    (s.loop f timeout).eofReached = s.eofReached := by
  unfold State.loop
  split
  · rfl
  · split <;> rfl

/-- Only the transport ends the stream. -/
theorem eofReached_step {a : Action} (hs : step f s a = some s') (ha : a ≠ .endOfStream) :
    s'.eofReached = s.eofReached := by
  cases a with
  | recvPacket timeout =>
    simp only [step] at hs
    split at hs <;> cases hs
    unfold State.receive
    split
    · rfl
    · exact eofReached_loop
  | received chunk elapsed =>
    simp only [step] at hs
    split at hs
    · split at hs <;> cases hs
      unfold State.received
      dsimp only
      split
      · rfl
      · split_ifs <;> first | exact eofReached_loop | rfl
    · cases hs
  | endOfStream => exact absurd rfl ha
  | timesOut =>
    simp only [step] at hs
    split at hs <;> cases hs
    rfl

/-- **Step lemma.** -/
theorem framed_step (hf : ReadsFrames f F report ok Holds Waits) (hok : F.Closed ok) {a : Action}
    (hinv : Inv f s₀ s) (h : Framed F report ok Holds Waits s os b)
    (ht : ok s'.chunks.flatten) (hs : step f s a = some s') :
    ∃ os b, Framed F report ok Holds Waits s' os b := by
  rcases chunks_step hs with ⟨timeout, buffer, chunk, elapsed, rfl, hreading, hc, hle, hchunks, rfl⟩ |
    ⟨hchunks, hne⟩
  · obtain ⟨-, hoffer, heof⟩ := hinv.reading timeout buffer hreading
    rw [hchunks, List.flatten_concat] at ht
    exact framed_received hf hok h hreading hoffer heof hc hle ht
  rw [hchunks] at ht
  cases a with
  | recvPacket timeout =>
    simp only [step] at hs
    split at hs <;> cases hs
    exact framed_receive hf hok h ht
  | received chunk elapsed => exact absurd rfl (hne chunk elapsed)
  | endOfStream =>
    simp only [step] at hs
    split at hs <;> cases hs
    next hreading =>
    have hw := h.reading (by rw [hreading]; rintro ⟨⟩)
    exact ⟨os, b, framed_loop hf ⟨h.leaves, h.holds, h.results, h.reading, fun _ => ⟨hw, rfl⟩⟩ hw⟩
  | timesOut =>
    simp only [step] at hs
    split at hs <;> cases hs
    exact ⟨os, b, framed_finish_none rfl h (by rintro ⟨⟩)⟩

/-- What every step keeps, from a consumer in the state `s₀`. -/
def Keeps (f : Feeder σ Bytes WriteBuffer (NextResult P ι)) (F : Framer UInt8 ρ)
    (report : ρ → Verdict P ι) (ok : Bytes → Prop) (Holds Waits : σ → Bytes → Prop) (s₀ : σ)
    (s : State σ P ι) : Prop :=
  Inv f s₀ s ∧ (ok s.chunks.flatten → ∃ os b, Framed F report ok Holds Waits s os b)

theorem keeps_init (hf : ReadsFrames f F report ok Holds Waits) (hw : Waits s₀ []) :
    Keeps f F report ok Holds Waits s₀ ({ consumer := s₀ } : State σ P ι) :=
  ⟨.init f s₀, fun _ =>
    ⟨[], [], Leaves.refl F ok [], hf.holds hw, rfl, fun h => absurd rfl h, nofun⟩⟩

theorem keeps_step (hf : ReadsFrames f F report ok Holds Waits) (hok : F.Closed ok)
    (hlawful : f.Lawful Ok) (h₀ : Ok s₀) {a : Action}
    (h : Keeps f F report ok Holds Waits s₀ s) (hs : step f s a = some s') :
    Keeps f F report ok Holds Waits s₀ s' := by
  refine ⟨step_inv hlawful h₀ h.1 hs, fun ht => ?_⟩
  have hbefore : ok s.chunks.flatten := by
    rcases chunks_step hs with ⟨-, -, chunk, -, -, -, -, -, hchunks, -⟩ | ⟨hchunks, -⟩
    · rw [hchunks, List.flatten_concat] at ht
      exact hok.of_append ht
    · rwa [hchunks] at ht
  obtain ⟨os, b, hframed⟩ := h.2 hbefore
  exact framed_step hf hok h.1 hframed ht hs

/-- **Run lemma.**  As long as the received bytes are `ok`. -/
theorem framed_run (hf : ReadsFrames f F report ok Holds Waits) (hok : F.Closed ok)
    (hlawful : f.Lawful Ok) (h₀ : Ok s₀) (hw : Waits s₀ []) {as : List Action}
    (h : Trans.run (step f) { consumer := s₀ } as = some s) (ht : ok s.chunks.flatten) :
    ∃ os b, Framed F report ok Holds Waits s os b :=
  (Trans.run_inv (fun _ _ _ hi hs => keeps_step hf hok hlawful h₀ hi hs) (keeps_init hf hw) h).2 ht

/-- What the calls have given, of the frames of the received bytes, and what the consumer holds. -/
structure GivesFrames (f : Feeder σ Bytes WriteBuffer (NextResult P ι)) (F : Framer UInt8 ρ)
    (report : ρ → Verdict P ι) (Waits : σ → Bytes → Prop) (s : State σ P ι) : Prop where
  /-- a beginning of them, in order -/
  isPrefix : ∃ more, (F.outs s.chunks.flatten).map (fun o => some (report o)) =
    s.results.map NextResult.verdict? ++ more
  /-- all of them, when a call waits for the transport or has found the end of the stream -/
  all : s.reading ≠ none ∨ .connectionAborted ∈ s.outcomes →
    s.results.map NextResult.verdict? = (F.outs s.chunks.flatten).map fun o => some (report o)
  /-- the others can be taken from the consumer, which then holds the bytes that no frame has used -/
  left : ∃ rs consumer consumer', Takes f s.consumer rs consumer ∧
    f.take consumer = (none, consumer') ∧
    (s.results ++ rs).map NextResult.verdict? =
      (F.outs s.chunks.flatten).map (fun o => some (report o)) ∧
    Waits consumer' (F.rest s.chunks.flatten)

/-- What can be taken from a consumer that holds `b`. -/
theorem ReadsFrames.takes (hf : ReadsFrames f F report ok Holds Waits) (hok : F.Closed ok) {s : σ}
    (hh : Holds s b) (hb : ok b) : ∃ rs s' s'', Takes f s rs s' ∧ f.take s' = (none, s'') ∧
      rs.map NextResult.verdict? = (F.outs b).map (fun o => some (report o)) ∧
      Waits s'' (F.rest b) := by
  induction hn : b.length using Nat.strongRecOn generalizing b s with
  | ind n ih =>
  rcases hdec : F.dec b with _ | ⟨o, r⟩
  · obtain ⟨s', htake, hw⟩ := hf.take_none hh hb hdec
    refine ⟨[], s, s', .nil, htake, ?_, ?_⟩
    · rw [Framer.outs_none hdec]
      rfl
    · rw [Framer.rest_none hdec]
      exact hw
  · obtain ⟨s', htake, hh'⟩ := hf.take_some hh hb hdec
    obtain ⟨rs, s₁, s₂, htakes, hnone, hrs, hw⟩ :=
      ih _ (hn ▸ F.dec_lt hdec) hh' (hok.dec hb hdec) rfl
    refine ⟨_ :: rs, s₁, s₂, .cons htake htakes, hnone, ?_, ?_⟩
    · rw [List.map_cons, hrs, Framer.outs_some hdec, List.map_cons, Verdict.verdict?_result]
    · rw [Framer.rest_some hdec]
      exact hw

theorem Framed.gives (hf : ReadsFrames f F report ok Holds Waits) (hok : F.Closed ok)
    (h : Framed F report ok Holds Waits s os b) (ht : ok s.chunks.flatten) :
    GivesFrames f F report Waits s where
  isPrefix := by
    rw [h.results, h.leaves.outs_eq, List.map_append]
    exact ⟨_, rfl⟩
  all hs := by
    have hw : Waits s.consumer b := hs.elim h.reading fun hm => (h.aborted hm).1
    rw [h.results, h.leaves.outs_eq, Framer.outs_none (hf.dec hw), List.append_nil]
  left := by
    obtain ⟨rs, s', s'', htakes, hnone, hrs, hw⟩ := hf.takes hok h.holds (h.leaves.ok_left ht)
    refine ⟨rs, s', s'', htakes, hnone, ?_, ?_⟩
    · rw [List.map_append, h.results, hrs, h.leaves.outs_eq, List.map_append]
    · rw [h.leaves.rest_eq]
      exact hw

end

/-- **`recv_packet()` gives the frames of the received bytes**, over any consumer whose generators
    implement the framer, as long as the received bytes are `ok`. -/
theorem recv_packet_frames {σ σ' P ι ρ : Type} {proto : StreamProtocol σ P ι}
    {buffered : BufferedStreamProtocol σ' P ι} {F : Framer UInt8 ρ} {report : ρ → Verdict P ι}
    {ok : Bytes → Prop} {inv : σ → Bytes → Prop} {inv' : σ' → ℕ → Bytes → Bytes → Prop}
    {maxRecvSize L hint : ℕ} (hok : F.Closed ok) :
    (Implements proto.buildPacketFromChunks F report ok inv → 0 < maxRecvSize → ∀ as s,
      Trans.run (step (dataReceiver proto maxRecvSize)) { consumer := .init } as = some s →
      ok s.chunks.flatten → GivesFrames (dataReceiver proto maxRecvSize) F report
        (StreamDataConsumer.Rep F inv) s) ∧
    (BufferImplements buffered.buildPacketFromBuffer F report ok L inv' →
      (buffered.createBuffer hint).length = L → 0 < L → ∀ as s,
      Trans.run (step (bufferedReceiver buffered)) { consumer := .init hint } as = some s →
      ok s.chunks.flatten → GivesFrames (bufferedReceiver buffered) F report
        (fun st b => st.sizehint = hint ∧ BufferedStreamDataConsumer.Rep F L inv' st b) s) := by
  constructor
  · intro himpl hmax as s hrun ht
    have hf := dataReceiver_readsFrames himpl hmax
    obtain ⟨os, b, h⟩ := framed_run hf hok (dataReceiver_lawful proto maxRecvSize) trivial
      (StreamDataConsumer.rep_init F inv) hrun ht
    exact h.gives hf hok ht
  · intro himpl hL hpos as s hrun ht
    have hf := bufferedReceiver_readsFrames himpl hL hpos
    obtain ⟨os, b, h⟩ := framed_run hf hok (bufferedReceiver_lawful buffered) (fun _ => rfl)
      ⟨rfl, BufferedStreamDataConsumer.rep_init F hint⟩ hrun ht
    exact h.gives hf hok ht

open AutoSeparatedPacketSerializer in
/-- A line and the beginning of another one, in one read; both receivers then wait. -/
theorem recv_packet_frames_line :
    let S := raw [10] 16 (by decide) (by decide)
    ∃ s s', Trans.run (step (dataReceiver (S.protocol none) 8)) { consumer := .init }
        [.recvPacket ⊤, .received [65, 10, 66] 0, .recvPacket ⊤] = some s ∧
      Trans.run (step (bufferedReceiver (S.bufferedProtocol none))) { consumer := .init 8 }
        [.recvPacket ⊤, .received [65, 10, 66] 0, .recvPacket ⊤] = some s' ∧
      s.results.map NextResult.verdict? = [some (.ok [65])] ∧
      s'.results.map NextResult.verdict? = [some (.ok [65])] := by
  intro S
  obtain ⟨hdata, hbuffered⟩ := @recv_packet_frames _ _ _ _ _ (S.protocol none)
    (S.bufferedProtocol none) _ (S.report none) _ (ReadUntil.Has S.separator)
    (BufferHas S.separator S.limit) 8 S.limit 8 (fits_closed S.separator_ne S.limit)
  obtain ⟨s, hs⟩ : ∃ s, Trans.run (step (dataReceiver (S.protocol none) 8)) { consumer := .init }
      [.recvPacket ⊤, .received [65, 10, 66] 0, .recvPacket ⊤] = some s :=
    Option.isSome_iff_exists.1 (by decide)
  obtain ⟨s', hs'⟩ : ∃ s', Trans.run (step (bufferedReceiver (S.bufferedProtocol none)))
      { consumer := .init 8 } [.recvPacket ⊤, .received [65, 10, 66] 0, .recvPacket ⊤] = some s' :=
    Option.isSome_iff_exists.1 (by decide)
  have hview : some (s.chunks, s.reading.isSome) = some ([[65, 10, 66]], true) := by
    rw [← Option.map_some (f := fun s : State _ Bytes Unit => (s.chunks, s.reading.isSome)), ← hs]
    decide
  have hview' : some (s'.chunks, s'.reading.isSome) = some ([[65, 10, 66]], true) := by
    rw [← Option.map_some (f := fun s : State _ Bytes Unit => (s.chunks, s.reading.isSome)), ← hs']
    decide
  simp only [Option.some.injEq, Prod.mk.injEq] at hview hview'
  have h1 : (segmenter S.separator S.separator_ne).dec [65, 10, 66] = some ([65], [66]) := by decide
  have h2 : (segmenter S.separator S.separator_ne).dec [66] = none := by decide
  have houts : (segmenter S.separator S.separator_ne).outs [65, 10, 66] = [[65]] := by
    rw [Framer.outs_some h1, Framer.outs_none h2]
  have hfits : Fits S.separator_ne S.limit [65, 10, 66] := by
    rw [Fits, houts, Framer.rest_some h1, Framer.rest_none h2]
    decide
  have hgives := hdata (implements none) (by decide) _ s hs (by rw [hview.1]; exact hfits)
  have hgives' := hbuffered (bufferImplements none) List.length_replicate S.limit_pos _ s' hs'
    (by rw [hview'.1]; exact hfits)
  refine ⟨s, s', hs, hs', ?_, ?_⟩
  · rw [hgives.all (.inl (Option.isSome_iff_ne_none.1 hview.2)), hview.1]
    show (Framer.outs _ [65, 10, 66]).map _ = _
    rw [houts]
    rfl
  · rw [hgives'.all (.inl (Option.isSome_iff_ne_none.1 hview'.2)), hview'.1]
    show (Framer.outs _ [65, 10, 66]).map _ = _
    rw [houts]
    rfl

end StreamEndpoint

end EasyNetwork
