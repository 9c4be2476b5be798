/-
  What the readers of `StreamReaderBufferedProtocol` get.

  The bytes that the calls have returned, those in the buffer of a reader whose call is about to
  return them, and those in the internal buffer make up what has been received (`flow`).  A step
  adds what it delivers (`step_flow`), and loses bytes in two cases only: a reader is cancelled
  after `buffer_updated()` has completed its future, or bytes are written into the buffer of a
  reader whose future is cancelled already.

  `noByteLost_iff`: over a whole run, no byte is lost or reordered iff neither happens.
-/
import EasyNetwork.BufferedProtocol

namespace EasyNetwork

namespace BufferedProtocol

open Coroutine (writeAt length_writeAt take_writeAt)

/-! ## The internal buffer -/

namespace Protocol
variable {protocol : Protocol} {bufsize n : ℕ} {nbytes : Option ℕ} {canPause : Bool}

/-- What the flow control does not touch. -/
structure Same (protocol protocol' : Protocol) : Prop where
  buffer : protocol'.buffer = protocol.buffer
  bufferNbytesWritten : protocol'.bufferNbytesWritten = protocol.bufferNbytesWritten
  hasExternalBufferView : protocol'.hasExternalBufferView = protocol.hasExternalBufferView
  readWaiter : protocol'.readWaiter = protocol.readWaiter

theorem same_maybePauseTransport : Same protocol (protocol.maybePauseTransport canPause) := by
  unfold maybePauseTransport
  split_ifs <;> exact ⟨rfl, rfl, rfl, rfl⟩

theorem same_maybeResumeTransport : Same protocol protocol.maybeResumeTransport := by
  unfold maybeResumeTransport
  split_ifs <;> exact ⟨rfl, rfl, rfl, rfl⟩

theorem content_of_same {protocol' : Protocol} (h : Same protocol protocol') :
    protocol'.content = protocol.content := by
  rw [content, content, h.buffer, h.bufferNbytesWritten]

theorem wakeupReadWaiter_eq : protocol.wakeupReadWaiter nbytes = { protocol with
    readWaiter := if protocol.readWaiter = some .pending then some (.result nbytes)
      else protocol.readWaiter } := by
  unfold wakeupReadWaiter
  split
  next h => rw [if_pos h]
  next h => rw [if_neg (by intro hc; exact h hc)]

/-- The rest of the content is moved to the front of the buffer. -/
theorem content_move (h : protocol.bufferNbytesWritten ≤ protocol.buffer.length)
    (hlt : bufsize < protocol.bufferNbytesWritten) :
    let buffer := writeAt protocol.buffer 0 (protocol.content.drop
      (protocol.bufferNbytesWritten - (protocol.bufferNbytesWritten - bufsize)))
    buffer.length = protocol.buffer.length ∧
      buffer.take (protocol.bufferNbytesWritten - bufsize) = protocol.content.drop bufsize := by
  intro buffer
  have hk : protocol.bufferNbytesWritten - (protocol.bufferNbytesWritten - bufsize) = bufsize := by
    omega
  have hlen : (protocol.content.drop bufsize).length = protocol.bufferNbytesWritten - bufsize := by
    rw [List.length_drop, content, List.length_take, min_eq_left h]
  have hle : 0 + (protocol.content.drop bufsize).length ≤ protocol.buffer.length := by omega
  constructor
  · show (writeAt protocol.buffer 0 (protocol.content.drop _)).length = _
    rw [hk, length_writeAt hle]
  · show (writeAt protocol.buffer 0 (protocol.content.drop _)).take _ = _
    have htake := take_writeAt hle
    rw [List.take_zero, List.nil_append, zero_add, hlen] at htake
    rw [hk, htake]

/-- What a call takes from the buffer and what it leaves there are what was there. -/
structure Takes (protocol : Protocol) (data : Bytes) (protocol' : Protocol) : Prop where
  content : data ++ protocol'.content = protocol.content
  written_le : protocol'.bufferNbytesWritten ≤ protocol'.buffer.length
  hasExternalBufferView : protocol'.hasExternalBufferView = protocol.hasExternalBufferView
  readWaiter : protocol'.readWaiter = protocol.readWaiter

theorem takes_takeData (h : protocol.bufferNbytesWritten ≤ protocol.buffer.length) :
    Takes protocol (protocol.takeData bufsize).1 (protocol.takeData bufsize).2 := by
  unfold takeData
  dsimp only
  split_ifs with h0 hlt
  · obtain ⟨hlen, htake⟩ := content_move h hlt
    refine ⟨?_, ?_, rfl, rfl⟩
    · exact (congrArg (protocol.content.take bufsize ++ ·) htake).trans
        (List.take_append_drop _ _)
    · exact (Nat.sub_le _ _).trans (h.trans hlen.ge)
  · refine ⟨?_, Nat.zero_le _, rfl, rfl⟩
    have hle : protocol.content.length ≤ bufsize := by
      rw [content, List.length_take]
      omega
    show protocol.content.take bufsize ++ protocol.buffer.take 0 = _
    rw [List.take_of_length_le hle, List.take_zero, List.append_nil]
  · exact ⟨rfl, h, rfl, rfl⟩

theorem takes_takeDataInto (buffer : Bytes)
    (h : protocol.bufferNbytesWritten ≤ protocol.buffer.length) :
    Takes protocol ((protocol.takeDataInto buffer).1.take (protocol.takeDataInto buffer).2.1)
      (protocol.takeDataInto buffer).2.2 := by
  have hcontent : protocol.content.length = protocol.bufferNbytesWritten := by
    rw [content, List.length_take, min_eq_left h]
  have hwrite : ∀ data : Bytes, data.length ≤ buffer.length →
      (writeAt buffer 0 data).take data.length = data := by
    intro data hdata
    have htake := take_writeAt (show 0 + data.length ≤ buffer.length by omega)
    rwa [List.take_zero, List.nil_append, zero_add] at htake
  unfold takeDataInto
  dsimp only
  split_ifs with h0 hlt
  · obtain ⟨hlen, htake⟩ := content_move h hlt
    have hdata : (protocol.content.take buffer.length).length = buffer.length := by
      rw [List.length_take]
      omega
    have hbuffer := hwrite _ hdata.le
    rw [hdata] at hbuffer
    refine ⟨?_, ?_, rfl, rfl⟩
    · exact (congrArg₂ (· ++ ·) hbuffer htake).trans (List.take_append_drop _ _)
    · exact (Nat.sub_le _ _).trans (h.trans hlen.ge)
  · refine ⟨?_, Nat.zero_le _, rfl, rfl⟩
    have hbuffer := hwrite protocol.content (by omega)
    rw [hcontent] at hbuffer
    show (writeAt buffer 0 protocol.content).take _ ++ protocol.buffer.take 0 = _
    rw [hbuffer, List.take_zero, List.append_nil]
  · exact ⟨by rw [List.take_zero, List.nil_append], h, rfl, rfl⟩

/-- Bytes are appended to the content. -/
theorem content_bufferUpdated (canPause : Bool) {data : Bytes}
    (h : protocol.bufferNbytesWritten + data.length ≤ protocol.buffer.length) :
    let protocol' := { protocol with
      buffer := writeAt protocol.buffer protocol.bufferNbytesWritten
        data }.bufferUpdated canPause data.length
    protocol'.content = protocol.content ++ data ∧
      protocol'.bufferNbytesWritten ≤ protocol'.buffer.length ∧
      protocol'.hasExternalBufferView = protocol.hasExternalBufferView ∧
      protocol'.readWaiter = if protocol.readWaiter = some .pending then some (.result none)
        else protocol.readWaiter := by
  intro protocol'
  have hsame : Same _ protocol' := same_maybePauseTransport
  rw [wakeupReadWaiter_eq] at hsame
  refine ⟨?_, ?_, hsame.hasExternalBufferView, hsame.readWaiter⟩
  · rw [content_of_same hsame]
    exact take_writeAt h
  · rw [hsame.buffer, hsame.bufferNbytesWritten]
    show _ ≤ (writeAt _ _ _).length
    rw [length_writeAt h]
    exact h

end Protocol

/-! ## What has been received -/

/-- What the calls have returned. -/
def State.returned (s : State) : Bytes := (s.results.filterMap Except.toOption).flatten

/-- What is in the buffer of a reader whose call is about to return it. -/
def State.inFlight (s : State) : Bytes :=
  match s.reader with
  | some { request := .receiveDataInto buffer, yields := false, mustCancel := false } =>
    match s.protocol.readWaiter with
    | some (.result (some nbytes)) => buffer.take nbytes
    | _ => []
  | _ => []

def State.flow (s : State) : Bytes := s.returned ++ s.inFlight ++ s.protocol.content

/-- The reader, its future and the buffers. -/
structure Core (s : State) : Prop where
  written_le : s.protocol.bufferNbytesWritten ≤ s.protocol.buffer.length
  reader_none : s.reader = none ↔ s.protocol.readWaiter = none
  /-- the buffer of the reader is only offered while nothing is in the internal one -/
  external : s.protocol.hasExternalBufferView = true →
    s.protocol.bufferNbytesWritten = 0 ∧
      (s.protocol.readWaiter = some .pending ∨ s.protocol.readWaiter = some .cancelled) ∧
      ∃ buffer c, s.reader = some ⟨.receiveDataInto buffer, false, c⟩
  yields : ∀ request c, s.reader = some ⟨request, true, c⟩ →
    s.protocol.readWaiter = some (.result none)
  pending : ∀ request y c, s.reader = some ⟨request, y, c⟩ →
    s.protocol.readWaiter = some .pending → c = false
  completed : ∀ n, s.protocol.readWaiter = some (.result (some n)) →
    s.protocol.hasExternalBufferView = false ∧
      ∃ buffer c, s.reader = some ⟨.receiveDataInto buffer, false, c⟩

/-- The bytes that an action delivers. -/
def Action.data : Action → Bytes
  | .deliver data => data
  | _ => []

/-- A reader is not cancelled when bytes are in its buffer already, and no bytes are written into
    the buffer of a reader whose future is cancelled. -/
def Safe (s : State) : Action → Prop
  | .cancel => s.inFlight = []
  | .deliver data => s.protocol.hasExternalBufferView = true →
      s.protocol.readWaiter = some .cancelled → data = []
  | _ => True

instance (s : State) : ∀ a, Decidable (Safe s a)
  | .cancel => inferInstanceAs (Decidable (s.inFlight = []))
  | .deliver data => inferInstanceAs (Decidable (_ = _ → _ = _ → data = []))
  | .receiveData _ => .isTrue trivial
  | .receiveDataInto _ => .isTrue trivial
  | .resume => .isTrue trivial
  | .eofReceived => .isTrue trivial

section
variable {s s' : State}

theorem returned_finish (r : Except ReadError Bytes) :
    (s.finish r).returned = s.returned ++ r.toOption.getD [] := by
  rw [State.returned, State.finish, List.filterMap_append, List.flatten_append]
  rcases r with e | data
  · rfl
  · exact congrArg (s.returned ++ ·) (List.append_nil data)

theorem inFlight_of_none (h : s.reader = none) : s.inFlight = [] := by
  rw [State.inFlight, h]

theorem inFlight_of_waiter (h : ∀ n, s.protocol.readWaiter ≠ some (.result (some n))) :
    s.inFlight = [] := by
  unfold State.inFlight
  split
  · split
    next n hn => exact absurd hn (h n)
    next => rfl
  · rfl

theorem inFlight_of_completed {buffer : Bytes} {n : ℕ}
    (hr : s.reader = some ⟨.receiveDataInto buffer, false, false⟩)
    (hw : s.protocol.readWaiter = some (.result (some n))) : s.inFlight = buffer.take n := by
  rw [State.inFlight, hr]
  simp only [hw]

/-- A wake-up without bytes completes no call. -/
theorem inFlight_wakeup (hreader : s'.reader = s.reader)
    (hwaiter : s'.protocol.readWaiter = if s.protocol.readWaiter = some .pending then
      some (.result none) else s.protocol.readWaiter) : s'.inFlight = s.inFlight := by
  by_cases hp : s.protocol.readWaiter = some .pending
  · rw [if_pos hp] at hwaiter
    rw [inFlight_of_waiter (by intro n hn; rw [hwaiter] at hn; cases hn),
      inFlight_of_waiter (by intro n hn; rw [hp] at hn; cases hn)]
  · rw [if_neg hp] at hwaiter
    rw [State.inFlight, State.inFlight, hreader, hwaiter]

theorem Core.init (maxSize : ℕ) (limits : ℕ × ℕ) (canPause : Bool) :
    Core (.init maxSize limits canPause) := by
  constructor <;> simp [State.init, Protocol.init]

/-- No call waits. -/
theorem Core.idle (hle : s.protocol.bufferNbytesWritten ≤ s.protocol.buffer.length)
    (hr : s.reader = none) (hw : s.protocol.readWaiter = none)
    (he : s.protocol.hasExternalBufferView = false) : Core s where
  written_le := hle
  reader_none := iff_of_true hr hw
  external hc := by
    rw [he] at hc
    cases hc
  yields _ _ hc := by
    rw [hr] at hc
    cases hc
  pending _ _ _ hc := by
    rw [hr] at hc
    cases hc
  completed n hn := by
    rw [hw] at hn
    cases hn

/-- A wake-up without bytes; the buffer of the reader is no longer offered, or it was not. -/
theorem Core.wakeup (h : Core s)
    (hle : s'.protocol.bufferNbytesWritten ≤ s'.protocol.buffer.length)
    (hreader : s'.reader = s.reader)
    (hwaiter : s'.protocol.readWaiter = if s.protocol.readWaiter = some .pending then
      some (.result none) else s.protocol.readWaiter)
    (he : s'.protocol.hasExternalBufferView = false) : Core s' where
  written_le := hle
  reader_none := by
    rw [hreader, hwaiter, h.reader_none]
    split_ifs with hp
    · simp [hp]
    · rfl
  external hc := by
    rw [he] at hc
    cases hc
  yields request c hr := by
    rw [hreader] at hr
    have := h.yields request c hr
    rw [hwaiter, this]
    rfl
  pending request y c _ hp := by
    rw [hwaiter] at hp
    split_ifs at hp with hpending
    · cases hp
    · exact absurd hp hpending
  completed n hn := by
    rw [hwaiter] at hn
    split_ifs at hn with hpending
    · cases hn
    · rw [hreader]
      exact ⟨he, (h.completed n hn).2⟩

theorem Core.noExternal (h : Core s) (hr : s.reader = none) :
    s.protocol.hasExternalBufferView = false := by
  rw [← Bool.not_eq_true]
  intro he
  obtain ⟨-, -, buffer, c, hc⟩ := h.external he
  rw [hr] at hc
  cases hc

/-- A call ends without having waited. -/
theorem Core.finish (h : Core s) (hr : s.reader = none) (r : Except ReadError Bytes) :
    Core (s.finish r) :=
  .idle h.written_le rfl (h.reader_none.1 hr) (h.noExternal hr)

theorem flow_finish (hr : s.reader = none) {r : Except ReadError Bytes}
    (hempty : r.toOption.getD [] = []) : (s.finish r).flow = s.flow := by
  rw [State.flow, State.flow, returned_finish, hempty, List.append_nil, inFlight_of_none hr,
    inFlight_of_none rfl]
  rfl

/-- A call waits for data. -/
theorem waitForData_flow (h : Core s) (hr : s.reader = none) (requester : String)
    (request : Request) :
    Core (s.waitForData requester request) ∧ (s.waitForData requester request).flow = s.flow ∧
      (s.waitForData requester request).delivered = s.delivered := by
  have hw := h.reader_none.1 hr
  have he := h.noExternal hr
  unfold State.waitForData
  dsimp only
  split_ifs with h1 h2 h3 h4
  · exact absurd hw h1
  · refine ⟨?_, ?_, rfl⟩
    · constructor
      · exact h.written_le
      · simp
      · intro hc; rw [he] at hc; cases hc
      · intro _ _ _; rfl
      · intro _ _ _ _ hc; cases hc
      · intro n hc; cases hc
    · rw [State.flow, State.flow, inFlight_of_none hr, inFlight_of_waiter (by intro n hc; cases hc)]
      rfl
  · exact ⟨h.finish hr _, flow_finish hr rfl, rfl⟩
  · exact ⟨h.finish hr _, flow_finish hr rfl, rfl⟩
  · have h0 : s.protocol.bufferNbytesWritten = 0 := by
      rw [not_or, not_not] at h2
      exact h2.1
    refine ⟨?_, ?_, rfl⟩
    · constructor
      · exact h.written_le
      · simp
      · intro hc
        refine ⟨h0, .inl rfl, ?_⟩
        rcases request with bufsize | buffer
        · cases hc
        · exact ⟨buffer, false, rfl⟩
      · intro _ _ hc; cases hc
      · intro _ _ _ hc _; cases hc; rfl
      · intro n hc; cases hc
    · rw [State.flow, State.flow, inFlight_of_none hr, inFlight_of_waiter (by intro n hc; cases hc)]
      rfl

/-- The reader is cancelled. -/
theorem cancel_flow (h : Core s) (hs : step s .cancel = some s') :
    Core s' ∧ s'.delivered = s.delivered ∧ (s.inFlight = [] → s'.flow = s.flow) ∧
      (s.inFlight ≠ [] → s'.flow.length < s.flow.length) := by
  rw [step] at hs
  rcases hr : s.reader with _ | ⟨request, y, c⟩ <;> simp only [hr] at hs
  · cases hs
  split_ifs at hs with hready <;> cases hs
  · have hcancelled : ∀ s' : State, s'.reader = some ⟨request, y, true⟩ → s'.inFlight = [] := by
      intro s' hs'
      unfold State.inFlight
      rw [hs']
      cases request <;> cases y <;> rfl
    refine ⟨?_, rfl, fun hf => ?_, fun hf => ?_⟩
    · constructor
      · exact h.written_le
      · have := h.reader_none
        rw [hr] at this
        simpa using this
      · intro he
        obtain ⟨h0, hwaiter, buffer, c', hc⟩ := h.external he
        rw [hr] at hc
        cases hc
        exact ⟨h0, hwaiter, buffer, true, rfl⟩
      · intro r c' hc
        cases hc
        exact h.yields request c hr
      · intro r y' c' hc hp
        cases hc
        rcases hready with hy | hne
        · obtain rfl : y = true := hy
          rw [h.yields request c hr] at hp
          cases hp
        · exact absurd hp hne
      · intro n hn
        obtain ⟨he, buffer, c', hc⟩ := h.completed n hn
        rw [hr] at hc
        cases hc
        exact ⟨he, buffer, true, rfl⟩
    · rw [State.flow, State.flow, hf, hcancelled _ rfl]
      rfl
    · rw [State.flow, State.flow, hcancelled _ rfl]
      have := List.length_pos_iff.2 hf
      simp only [List.length_append, List.length_nil]
      show s.returned.length + 0 + s.protocol.content.length < _
      omega
  · have hpending : y = false ∧ s.protocol.readWaiter = some .pending := by
      rw [State.Ready, not_or, not_not] at hready
      exact ⟨by simpa using hready.1, hready.2⟩
    obtain ⟨rfl, hp⟩ := hpending
    have hempty : s.inFlight = [] :=
      inFlight_of_waiter (by intro n hn; rw [hp] at hn; cases hn)
    refine ⟨?_, rfl, fun _ => ?_, fun hf => absurd hempty hf⟩
    · constructor
      · exact h.written_le
      · simp
      · intro he
        obtain ⟨h0, -, hreader⟩ := h.external he
        rw [hr] at hreader
        exact ⟨h0, .inr rfl, hreader⟩
      · intro r c' hc
        cases hc
      · intro _ _ _ _ hc; cases hc
      · intro n hc; cases hc
    · rw [State.flow, State.flow, hempty, inFlight_of_waiter (by intro n hc; cases hc)]
      rfl

/-- A call ends with what it takes from the internal buffer. -/
theorem finish_takes {data : Bytes} {protocol : Protocol} (hempty : s.inFlight = [])
    (h : s.clearWaiter.protocol.Takes data protocol) :
    let s' := { s with protocol := protocol.maybeResumeTransport }.finish (.ok data)
    Core s' ∧ s'.flow = s.flow := by
  intro s'
  have hsame : protocol.Same s'.protocol := Protocol.same_maybeResumeTransport
  constructor
  · refine .idle ?_ rfl (hsame.readWaiter.trans h.readWaiter)
      (hsame.hasExternalBufferView.trans h.hasExternalBufferView)
    rw [hsame.buffer, hsame.bufferNbytesWritten]
    exact h.written_le
  · have hcontent : data ++ s'.protocol.content = s.protocol.content := by
      rw [Protocol.content_of_same hsame]
      exact h.content
    have hreturned : s'.returned = s.returned ++ data := returned_finish (.ok data)
    rw [State.flow, State.flow, hempty, inFlight_of_none rfl, List.append_nil, List.append_nil,
      hreturned, List.append_assoc, hcontent]

/-- What a reader that is not cancelled returns from its own buffer. -/
theorem inFlight_eq {buffer : Bytes} {y c : Bool}
    (hr : s.reader = some ⟨.receiveDataInto buffer, y, c⟩)
    (hc : ¬ s.Cancelled ⟨.receiveDataInto buffer, y, c⟩) :
    s.inFlight = match s.nbytesInExternalBuffer ⟨.receiveDataInto buffer, y, c⟩ with
      | some n => buffer.take n
      | none => [] := by
  obtain rfl : c = false := by
    rw [State.Cancelled, not_or] at hc
    simpa using hc.1
  rw [State.inFlight, hr, State.nbytesInExternalBuffer]
  rcases y with _ | _ <;> rcases s.protocol.readWaiter with _ | _ | ⟨_ | _⟩ | _ <;> rfl

/-- The reader runs on. -/
theorem resume_flow (h : Core s) (hs : step s .resume = some s') :
    Core s' ∧ s'.delivered = s.delivered ∧ s'.flow = s.flow := by
  rw [step] at hs
  rcases hr : s.reader with _ | ⟨request, y, c⟩ <;> simp only [hr] at hs
  · cases hs
  split_ifs at hs with hready hcancelled <;> cases hs
  · have hempty : s.inFlight = [] := by
      rcases hcancelled with hc | hw
      · obtain rfl : c = true := hc
        unfold State.inFlight
        rw [hr]
        cases request <;> cases y <;> rfl
      · exact inFlight_of_waiter (by intro n hn; rw [hw] at hn; cases hn)
    refine ⟨.idle h.written_le rfl rfl rfl, rfl, ?_⟩
    have hreturned : (s.clearWaiter.finish (.error .cancelled)).returned = s.returned :=
      (returned_finish _).trans (List.append_nil _)
    rw [State.flow, State.flow, hreturned, hempty, inFlight_of_none rfl]
    rfl
  · have hle : s.clearWaiter.protocol.bufferNbytesWritten ≤ s.clearWaiter.protocol.buffer.length :=
      h.written_le
    rcases request with bufsize | buffer
    · have hempty : s.inFlight = [] := by
        unfold State.inFlight
        rw [hr]
      obtain ⟨h1, h2⟩ := finish_takes hempty (Protocol.takes_takeData hle)
      exact ⟨h1, rfl, h2⟩
    · simp only [State.complete]
      split
      next n hn =>
        have hinFlight : s.inFlight = buffer.take n := by
          rw [inFlight_eq hr hcancelled, hn]
        refine ⟨.idle h.written_le rfl rfl rfl, rfl, ?_⟩
        rw [State.flow, State.flow, returned_finish, hinFlight, inFlight_of_none rfl]
        simp only [List.append_nil]
        rfl
      next hn =>
        have hempty : s.inFlight = [] := by
          rw [inFlight_eq hr hcancelled, hn]
        obtain ⟨h1, h2⟩ := finish_takes hempty (Protocol.takes_takeDataInto buffer hle)
        exact ⟨h1, rfl, h2⟩

/-- The end of the stream. -/
theorem eofReceived_flow (h : Core s) :
    let s' := { s with protocol := s.protocol.eofReceived }
    Core s' ∧ s'.flow = s.flow := by
  intro s'
  have hprotocol : s'.protocol = _ := Protocol.wakeupReadWaiter_eq
  have hwaiter : s'.protocol.readWaiter = if s.protocol.readWaiter = some .pending then
      some (.result none) else s.protocol.readWaiter := by rw [hprotocol]
  have he : s'.protocol.hasExternalBufferView = false := by rw [hprotocol]
  have hcontent : s'.protocol.content = s.protocol.content := by rw [hprotocol]; rfl
  constructor
  · exact h.wakeup (by rw [hprotocol]; exact h.written_le) rfl hwaiter he
  · have hinFlight : s'.inFlight = s.inFlight := inFlight_wakeup rfl hwaiter
    rw [State.flow, State.flow, hinFlight, hcontent]
    rfl

/-- Bytes are written into the buffer of the reader. -/
theorem deliver_external {buffer data : Bytes} {y c : Bool} (h : Core s)
    (he : s.protocol.hasExternalBufferView = true)
    (hr : s.reader = some ⟨.receiveDataInto buffer, y, c⟩) (hle : data.length ≤ buffer.length) :
    let s' := { s with
      protocol := s.protocol.externalBufferUpdated data.length
      reader := some ⟨.receiveDataInto (writeAt buffer 0 data), y, c⟩
      delivered := s.delivered ++ data }
    Core s' ∧ (s.protocol.readWaiter ≠ some .cancelled → s'.flow = s.flow ++ data) ∧
      (s.protocol.readWaiter = some .cancelled → s'.flow = s.flow) := by
  intro s'
  obtain ⟨h0, hwaiter, buffer', c', hr'⟩ := h.external he
  rw [hr] at hr'
  obtain ⟨-, rfl, -⟩ : buffer = buffer' ∧ y = false ∧ c = c' := by simpa using hr'
  have hprotocol : s'.protocol = _ := Protocol.wakeupReadWaiter_eq
  have hcontent : s'.protocol.content = s.protocol.content := by rw [hprotocol]; rfl
  have hempty : s.protocol.content = [] := by rw [Protocol.content, h0, List.take_zero]
  have he' : s'.protocol.hasExternalBufferView = false := by rw [hprotocol]
  have hle' : s'.protocol.bufferNbytesWritten ≤ s'.protocol.buffer.length := by
    rw [hprotocol]
    exact h.written_le
  have hinFlight : s.inFlight = [] := inFlight_of_waiter (by
    intro n hn
    rcases hwaiter with hw | hw <;> rw [hw] at hn <;> cases hn)
  rcases hwaiter with hw | hw
  · obtain rfl := h.pending _ _ _ hr hw
    have hw' : s'.protocol.readWaiter = some (.result (some data.length)) := by
      rw [hprotocol]
      exact if_pos hw
    have hinFlight' : s'.inFlight = data := by
      have htake := take_writeAt (show 0 + data.length ≤ buffer.length by omega)
      rw [List.take_zero, List.nil_append, zero_add] at htake
      exact (inFlight_of_completed rfl hw').trans htake
    have hnone : s'.reader = none ↔ s'.protocol.readWaiter = none := by
      rw [hw']
      simp [s']
    refine ⟨⟨hle', hnone, ?_, ?_, ?_, ?_⟩, fun _ => ?_, fun hc => ?_⟩
    · intro hc; rw [he'] at hc; cases hc
    · intro _ _ hc; cases hc
    · intro _ _ _ _ hc; rw [hw'] at hc; cases hc
    · intro n hn
      exact ⟨he', _, _, rfl⟩
    · rw [State.flow, State.flow, hinFlight', hinFlight, hcontent, hempty]
      simp only [List.append_nil]
      rfl
    · rw [hw] at hc; cases hc
  · have hw' : s'.protocol.readWaiter = some .cancelled := by
      rw [hprotocol]
      refine (if_neg ?_).trans hw
      intro hc
      cases hw.symm.trans hc
    have hinFlight' : s'.inFlight = [] :=
      inFlight_of_waiter (by intro n hn; rw [hw'] at hn; cases hn)
    have hnone : s'.reader = none ↔ s'.protocol.readWaiter = none := by
      rw [hw']
      simp [s']
    refine ⟨⟨hle', hnone, ?_, ?_, ?_, ?_⟩, fun hc => absurd hw hc, fun _ => ?_⟩
    · intro hc; rw [he'] at hc; cases hc
    · intro _ _ hc; cases hc
    · intro _ _ _ _ hc; rw [hw'] at hc; cases hc
    · intro n hn; rw [hw'] at hn; cases hn
    · rw [State.flow, State.flow, hinFlight', hinFlight, hcontent]
      rfl

/-- Bytes are written into the internal buffer. -/
theorem deliver_internal {data : Bytes} (h : Core s)
    (he : s.protocol.hasExternalBufferView = false)
    (hle : s.protocol.bufferNbytesWritten + data.length ≤ s.protocol.buffer.length) :
    let s' := { s with
      protocol := { s.protocol with
        buffer := writeAt s.protocol.buffer s.protocol.bufferNbytesWritten
          data }.bufferUpdated s.canPause data.length
      delivered := s.delivered ++ data }
    Core s' ∧ s'.flow = s.flow ++ data := by
  intro s'
  obtain ⟨hcontent, hwritten, he', hwaiter⟩ :=
    Protocol.content_bufferUpdated s.canPause hle
  have hinFlight : s'.inFlight = s.inFlight := inFlight_wakeup rfl hwaiter
  refine ⟨h.wakeup hwritten rfl hwaiter (he'.trans he), ?_⟩
  have hcontent' : s'.protocol.content = s.protocol.content ++ data := hcontent
  rw [State.flow, State.flow, hinFlight, hcontent', ← List.append_assoc]
  rfl

/-- The transport delivers bytes: into the buffer that the reader offers, or into the internal
    one. -/
theorem step_deliver {data : Bytes} (h : Core s) (hs : step s (.deliver data) = some s') :
    (∃ buffer y c, s.protocol.hasExternalBufferView = true ∧
        s.reader = some { request := .receiveDataInto buffer, yields := y, mustCancel := c } ∧
        data.length ≤ buffer.length ∧ s' = { s with
          protocol := s.protocol.externalBufferUpdated data.length
          reader := some
            { request := .receiveDataInto (writeAt buffer 0 data), yields := y, mustCancel := c }
          delivered := s.delivered ++ data }) ∨
      (s.protocol.hasExternalBufferView = false ∧
        s.protocol.bufferNbytesWritten + data.length ≤ s.protocol.buffer.length ∧ s' = { s with
          protocol := { s.protocol with
            buffer := writeAt s.protocol.buffer s.protocol.bufferNbytesWritten
              data }.bufferUpdated s.canPause data.length
          delivered := s.delivered ++ data }) := by
  rw [step] at hs
  split at hs
  · cases hs
  split at hs
  next buffer y c he hr =>
    split_ifs at hs with hle
    cases hs
    exact .inl ⟨buffer, y, c, he, hr, hle, rfl⟩
  next hnot =>
    split_ifs at hs with hle
    cases hs
    refine .inr ⟨?_, hle, rfl⟩
    rw [← Bool.not_eq_true]
    intro he
    obtain ⟨-, -, buffer, c, hr⟩ := h.external he
    exact hnot buffer false c he hr

theorem deliver_flow {data : Bytes} (h : Core s) (hs : step s (.deliver data) = some s') :
    Core s' ∧ s'.delivered = s.delivered ++ data ∧
      (Safe s (.deliver data) → s'.flow = s.flow ++ data) ∧
      (¬ Safe s (.deliver data) → s'.flow.length < (s.flow ++ data).length) := by
  rcases step_deliver h hs with ⟨buffer, y, c, he, hr, hle, rfl⟩ | ⟨he, hle, rfl⟩
  · obtain ⟨hcore, hsafe, hlost⟩ := deliver_external h he hr hle
    refine ⟨hcore, rfl, fun hs => ?_, fun hs => ?_⟩
    · by_cases hw : s.protocol.readWaiter = some .cancelled
      · rw [hlost hw, hs he hw, List.append_nil]
      · exact hsafe hw
    · simp only [Safe, Classical.not_imp] at hs
      obtain ⟨-, hw, hdata⟩ := hs
      rw [hlost hw, List.length_append]
      exact Nat.lt_add_of_pos_right (List.length_pos_iff.2 hdata)
  · obtain ⟨hcore, hflow⟩ := deliver_internal h he hle
    refine ⟨hcore, rfl, fun _ => hflow, fun hs => absurd (fun hc => ?_) hs⟩
    rw [he] at hc
    cases hc

/-- **Step lemma.** A step adds to the flow what it delivers, if it is safe; otherwise the flow falls
    behind. -/
theorem step_flow {a : Action} (h : Core s) (hs : step s a = some s') :
    Core s' ∧ s'.delivered = s.delivered ++ a.data ∧ (Safe s a → s'.flow = s.flow ++ a.data) ∧
      (¬ Safe s a → s'.flow.length < (s.flow ++ a.data).length) := by
  cases a with
  | receiveData bufsize =>
    rw [step] at hs
    split_ifs at hs with hr h0 hneg <;> cases hs <;> rw [not_not] at hr
    · exact ⟨h.finish hr _, (List.append_nil _).symm,
        fun _ => (flow_finish hr rfl).trans (List.append_nil _).symm, fun hc => absurd trivial hc⟩
    · exact ⟨h.finish hr _, (List.append_nil _).symm,
        fun _ => (flow_finish hr rfl).trans (List.append_nil _).symm, fun hc => absurd trivial hc⟩
    · obtain ⟨h1, h2, h3⟩ :=
        waitForData_flow h hr "receive_data" (.receiveData bufsize.toNat)
      exact ⟨h1, h3.trans (List.append_nil _).symm, fun _ => h2.trans (List.append_nil _).symm,
        fun hc => absurd trivial hc⟩
  | receiveDataInto buffer =>
    rw [step] at hs
    split_ifs at hs with hr hbuffer <;> cases hs <;> rw [not_not] at hr
    · exact ⟨h.finish hr _, (List.append_nil _).symm,
        fun _ => (flow_finish hr rfl).trans (List.append_nil _).symm, fun hc => absurd trivial hc⟩
    · obtain ⟨h1, h2, h3⟩ := waitForData_flow h hr "receive_data_into" (.receiveDataInto buffer)
      exact ⟨h1, h3.trans (List.append_nil _).symm, fun _ => h2.trans (List.append_nil _).symm,
        fun hc => absurd trivial hc⟩
  | cancel =>
    obtain ⟨h1, h2, h3, h4⟩ := cancel_flow h hs
    refine ⟨h1, h2.trans (List.append_nil _).symm,
      fun hc => (h3 hc).trans (List.append_nil _).symm, fun hc => ?_⟩
    show _ < (s.flow ++ []).length
    rw [List.append_nil]
    exact h4 hc
  | resume =>
    obtain ⟨h1, h2, h3⟩ := resume_flow h hs
    exact ⟨h1, h2.trans (List.append_nil _).symm, fun _ => h3.trans (List.append_nil _).symm,
      fun hc => absurd trivial hc⟩
  | deliver data => exact deliver_flow h hs
  | eofReceived =>
    rw [step] at hs
    cases hs
    obtain ⟨h1, h2⟩ := eofReceived_flow h
    exact ⟨h1, (List.append_nil _).symm, fun _ => h2.trans (List.append_nil _).symm,
      fun hc => absurd trivial hc⟩

/-- **No received byte is lost or reordered iff no reader is cancelled after bytes have been written
    into its buffer, and no bytes are written there after its future has been cancelled.**  When no
    call is pending, the bytes are those returned and those in the internal buffer. -/
theorem noByteLost_iff (maxSize : ℕ) (limits : ℕ × ℕ) (canPause : Bool) {as : List Action}
    (h : Trans.run step (.init maxSize limits canPause) as = some s) :
    (s.returned ++ s.inFlight ++ s.protocol.content = s.delivered ↔
      Trans.Meets step Safe (.init maxSize limits canPause) as) ∧
    (s.reader = none → (s.returned ++ s.protocol.content = s.delivered ↔
      Trans.Meets step Safe (.init maxSize limits canPause) as)) := by
  have hinit : (State.init maxSize limits canPause).flow =
      (State.init maxSize limits canPause).delivered := by
    rw [State.flow, inFlight_of_none rfl]
    simp [State.init, Protocol.init, Protocol.content, State.returned]
  have hiff := Trans.meets_iff Safe (fun s => Core s ∧ s.flow = s.delivered)
    (fun s => Core s ∧ s.flow.length < s.delivered.length)
    (fun s hi hb => hb.2.ne (congrArg List.length hi.2))
    (fun s a s' hi hok hs => by
      obtain ⟨h1, h2, h3, -⟩ := step_flow hi.1 hs
      exact ⟨h1, by rw [h3 hok, h2, hi.2]⟩)
    (fun s a s' hi hok hs => by
      obtain ⟨h1, h2, -, h4⟩ := step_flow hi.1 hs
      refine ⟨h1, ?_⟩
      rw [h2, ← hi.2]
      exact h4 hok)
    (fun s a s' hb hs => by
      obtain ⟨h1, h2, h3, h4⟩ := step_flow hb.1 hs
      refine ⟨h1, ?_⟩
      have hle : s'.flow.length ≤ (s.flow ++ a.data).length := by
        by_cases hok : Safe s a
        · rw [h3 hok]
        · exact (h4 hok).le
      have hlt := hb.2
      rw [List.length_append] at hle
      rw [h2, List.length_append]
      omega)
    ⟨Core.init _ _ _, hinit⟩ h
  have hdich : Core s ∧ (s.flow = s.delivered ∨ s.flow.length < s.delivered.length) := by
    refine Trans.run_inv
      (I := fun s => Core s ∧ (s.flow = s.delivered ∨ s.flow.length < s.delivered.length))
      (fun s a s' hi hs => ?_) ⟨Core.init _ _ _, .inl hinit⟩ h
    obtain ⟨h1, h2, h3, h4⟩ := step_flow hi.1 hs
    refine ⟨h1, ?_⟩
    by_cases hok : Safe s a
    · rw [h3 hok, h2, List.length_append, List.length_append]
      exact hi.2.imp (congrArg (· ++ a.data)) (fun hlt => Nat.add_lt_add_right hlt _)
    · right
      have hle : s.flow.length ≤ s.delivered.length := hi.2.elim (fun he => he ▸ le_rfl) le_of_lt
      have hlt := h4 hok
      rw [List.length_append] at hlt
      rw [h2, List.length_append]
      omega
  have hflow : s.flow = s.delivered ↔
      Trans.Meets step Safe (.init maxSize limits canPause) as := by
    rw [hiff]
    constructor
    · rintro heq ⟨-, hlt⟩
      exact hlt.ne (congrArg List.length heq)
    · intro hnot
      exact hdich.2.resolve_right fun hlt => hnot ⟨hdich.1, hlt⟩
  refine ⟨hflow, fun hr => ?_⟩
  rw [← hflow, State.flow, inFlight_of_none hr, List.append_nil]

/-- A reader is cancelled while nothing is in its buffer, and the next one gets everything. -/
theorem noByteLost_cancelled_idle : ∃ s, Trans.run step (.init 8 (6, 1) true)
    [.receiveDataInto [0, 0, 0, 0], .cancel, .resume, .deliver [97, 98, 99],
      .receiveDataInto [0, 0], .resume] = some s ∧
    s.returned ++ s.protocol.content = s.delivered := by
  obtain ⟨s, hs⟩ : ∃ s, Trans.run step (.init 8 (6, 1) true)
    [.receiveDataInto [0, 0, 0, 0], .cancel, .resume, .deliver [97, 98, 99],
      .receiveDataInto [0, 0], .resume] = some s := ⟨_, rfl⟩
  have hr : s.reader = none := by
    cases hs
    rfl
  exact ⟨s, hs, ((noByteLost_iff 8 (6, 1) true hs).2 hr).2 (by decide)⟩

/-- A reader that is cancelled after `buffer_updated()` and before it resumes takes the bytes with
    it, and so does one into whose buffer bytes are written after its cancellation.  The same two
    cancellations lose nothing in `receive_data()`. -/
theorem cancelled_reader_loses_bytes :
    (∃ s, Trans.run step (.init 8 (6, 1) true)
        [.receiveDataInto [0, 0, 0, 0], .deliver [97, 98], .cancel, .resume] = some s ∧
      s.reader = none ∧ s.delivered = [97, 98] ∧ s.returned ++ s.protocol.content = []) ∧
    (∃ s, Trans.run step (.init 8 (6, 1) true)
        [.receiveDataInto [0, 0, 0, 0], .cancel, .deliver [97, 98], .resume] = some s ∧
      s.reader = none ∧ s.delivered = [97, 98] ∧ s.returned ++ s.protocol.content = []) ∧
    (∃ s, Trans.run step (.init 8 (6, 1) true)
        [.receiveData 4, .deliver [97, 98], .cancel, .resume] = some s ∧
      s.returned ++ s.protocol.content = s.delivered) ∧
    ∃ s, Trans.run step (.init 8 (6, 1) true)
        [.receiveData 4, .cancel, .deliver [97, 98], .resume] = some s ∧
      s.returned ++ s.protocol.content = s.delivered :=
  ⟨⟨_, rfl, rfl, rfl, rfl⟩, ⟨_, rfl, rfl, rfl, rfl⟩, ⟨_, rfl, rfl⟩, ⟨_, rfl, rfl⟩⟩

end

end BufferedProtocol

end EasyNetwork
