/-
  The read flow control of `StreamReaderBufferedProtocol`, over its whole life.

  `Connection` adds `connection_lost` to the protocol and its reader.  The transport supports
  `pause_reading()`, offers a view that it gets from `get_buffer()`, and delivers nothing while
  reading is paused.

  `flowControl_correct`: between the water marks, reading is paused exactly as long as it has to
  be, there is always room for what is delivered, and no reader waits for a transport that is
  paused.
-/
import EasyNetwork.BufferedDelivery

namespace EasyNetwork

namespace BufferedProtocol

open Coroutine (writeAt length_writeAt)

/-! ## The loss of the connection -/

/-- `__connection_lost_exception`: the one that the transport gives, or `ECONNRESET`. -/
inductive LostError where
  | transport (message : String)
  | connectionReset
  deriving DecidableEq, Repr

/-- The protocol and its reader, after `connection_made`. -/
structure Connection where
  state : State
  connectionLost : Bool := false
  connectionLostException : Option LostError := none
  /-- what the calls have raised since the connection is lost -/
  raised : List LostError := []

/-- What happens to a connection: an action of the reader or of the transport, or its loss. -/
inductive Event where
  | act (a : Action)
  | connectionLost (exc : Option LostError)
  deriving DecidableEq, Repr

/-- `get_buffer`: the length of the view. -/
def State.getBuffer (s : State) : ℕ :=
  match s.protocol.hasExternalBufferView, s.reader with
  | true, some { request := .receiveDataInto buffer, .. } => buffer.length
  | _, _ => s.protocol.buffer.length - s.protocol.bufferNbytesWritten

/-- The assertion of `buffer_updated` on the size, when the bytes are in the internal buffer. -/
def State.sizeAssertion (s : State) (nbytes : ℕ) : Prop :=
  s.protocol.hasExternalBufferView = false →
    s.protocol.bufferNbytesWritten + nbytes ≤ s.protocol.buffer.length

namespace Connection

/-- `connection_lost`.  A waiter is woken up with the exception, which is also the one that
    `_check_for_connection_lost` raises when there is no exception in the waiter. -/
def lose (c : Connection) (exc : Option LostError) : Connection :=
  if c.connectionLost then c
  else
    let exc :=
      if exc = none ∧ 0 < c.state.protocol.bufferNbytesWritten then some .connectionReset else exc
    { c with
      connectionLost := true
      connectionLostException := exc
      state := { c.state with
        protocol := { c.state.protocol with
          readPaused := false
          eofReached := c.state.protocol.eofReached || exc.isNone
          bufferNbytesWritten := 0
          buffer := []
          hasTransport := false }.wakeupReadWaiter none } }

/-- An action that does not depend on the loss. -/
def act (c : Connection) (a : Action) : Option Connection :=
  (BufferedProtocol.step c.state a).map fun state => { c with state }

/-- `_check_for_connection_lost`, when a call starts. -/
def call (c : Connection) (a : Action) : Option Connection :=
  match c.connectionLostException with
  | some exc => if c.state.reader ≠ none then none else some { c with raised := c.raised ++ [exc] }
  | none => c.act a

/-- The reader's task runs on. -/
def resume (c : Connection) : Option Connection :=
  match c.state.reader, c.connectionLostException with
  | some reader, some exc =>
    if c.state.Ready reader ∧ ¬ c.state.Cancelled reader ∧
        c.state.nbytesInExternalBuffer reader = none then some { c with
      state := { c.state.clearWaiter with reader := none }
      raised := c.raised ++ [exc] }
    else c.act .resume
  | _, _ => c.act .resume

/-- One step of an interleaving. -/
def step (c : Connection) : Event → Option Connection
  | .act (.deliver data) =>
    if c.connectionLost ∨ c.state.protocol.readPaused ∨ data = [] then none
    else c.act (.deliver data)
  | .act (.receiveData bufsize) => c.call (.receiveData bufsize)
  | .act (.receiveDataInto buffer) => c.call (.receiveDataInto buffer)
  | .act .resume => c.resume
  | .act .cancel => c.act .cancel
  | .act .eofReceived => c.act .eofReceived
  | .connectionLost exc => some (c.lose exc)

/-- A connection that has just been made. -/
def init (maxSize low high : ℕ) : Connection := { state := .init maxSize (high, low) true }

end Connection

theorem computeReadBufferLimits_lt {maxSize : ℕ} (h : 2048 ≤ maxSize) :
    (computeReadBufferLimits maxSize).2 < (computeReadBufferLimits maxSize).1 ∧
      (computeReadBufferLimits maxSize).1 < maxSize := by
  rw [computeReadBufferLimits]
  dsimp only
  omega

/-- The flow control does what it is for. -/
structure FlowControlled (low high : ℕ) (c : Connection) : Prop where
  /-- reading is only paused above the low water -/
  above : c.connectionLost = false → c.state.protocol.readPaused = true →
    low < c.state.protocol.bufferNbytesWritten
  /-- and is paused from the high water on -/
  below : c.connectionLost = false → c.state.protocol.readPaused = false →
    c.state.protocol.bufferNbytesWritten < high
  /-- `get_buffer()` never offers an empty view -/
  offered : c.connectionLost = false → c.state.protocol.readPaused = false → 0 < c.state.getBuffer
  /-- the assertion of `buffer_updated` never fails -/
  fits : c.connectionLost = false → ∀ nbytes ≤ c.state.getBuffer, c.state.sizeAssertion nbytes
  /-- nor does the one of `_wait_for_data` -/
  noAssertionError : ∀ message, .error (.assertionError message) ∉ c.state.results
  /-- no reader waits for a transport that is paused -/
  notWaiting : c.state.protocol.readPaused = true → c.state.protocol.readWaiter ≠ some .pending

/-! ## The water marks -/

/-- What an action of the transport or of the reader never changes in the protocol. -/
structure Fixed (maxSize low high : ℕ) (protocol : Protocol) : Prop where
  length : protocol.buffer.length = maxSize
  readLowWater : protocol.readLowWater = low
  readHighWater : protocol.readHighWater = high
  hasTransport : protocol.hasTransport = true

/-- The protocol is fixed, and its level is where `readPaused` says. -/
structure Level (maxSize low high : ℕ) (protocol : Protocol) : Prop
    extends Fixed maxSize low high protocol where
  above : protocol.readPaused = true → low < protocol.bufferNbytesWritten
  below : protocol.readPaused = false → protocol.bufferNbytesWritten < high

section
variable {maxSize low high : ℕ} {protocol protocol' : Protocol} {s s' : State}

/-- What is not the buffer, its level and the pause is left alone, and the level does not rise. -/
structure Drains (protocol protocol' : Protocol) : Prop where
  length : protocol'.buffer.length = protocol.buffer.length
  readLowWater : protocol'.readLowWater = protocol.readLowWater
  readHighWater : protocol'.readHighWater = protocol.readHighWater
  hasTransport : protocol'.hasTransport = protocol.hasTransport
  readPaused : protocol'.readPaused = protocol.readPaused
  written_le : protocol'.bufferNbytesWritten ≤ protocol.bufferNbytesWritten

theorem Fixed.of_drains (h : Fixed maxSize low high protocol) (hd : Drains protocol protocol') :
    Fixed maxSize low high protocol' where
  length := hd.length.trans h.length
  readLowWater := hd.readLowWater.trans h.readLowWater
  readHighWater := hd.readHighWater.trans h.readHighWater
  hasTransport := hd.hasTransport.trans h.hasTransport

theorem Level.of_eq (h : Level maxSize low high protocol) (hd : Drains protocol protocol')
    (hwritten : protocol'.bufferNbytesWritten = protocol.bufferNbytesWritten) :
    Level maxSize low high protocol' where
  toFixed := h.toFixed.of_drains hd
  above hp := by
    rw [hwritten]
    exact h.above (hd.readPaused.symm.trans hp)
  below hp := by
    rw [hwritten]
    exact h.below (hd.readPaused.symm.trans hp)

/-- `_maybe_pause_transport` brings the level back where it belongs after it has risen. -/
theorem Fixed.maybePause (h : Fixed maxSize low high protocol) (hlt : low < high)
    (habove : protocol.readPaused = true → low < protocol.bufferNbytesWritten) :
    Level maxSize low high (protocol.maybePauseTransport true) := by
  unfold Protocol.maybePauseTransport
  split_ifs with hpause htrue
  · refine ⟨⟨h.length, h.readLowWater, h.readHighWater, h.hasTransport⟩, fun _ => ?_, fun hp => ?_⟩
    · exact hlt.trans_le (h.readHighWater ▸ hpause.1)
    · cases hp
  · exact absurd rfl htrue
  · refine ⟨h, habove, fun hp => ?_⟩
    rw [← not_le]
    intro hle
    exact hpause ⟨h.readHighWater.trans_le hle, by rw [hp]; rfl, h.hasTransport⟩

/-- `_maybe_resume_transport` does the same after it has fallen. -/
theorem Fixed.maybeResume (h : Fixed maxSize low high protocol) (hlt : low < high)
    (hbelow : protocol.readPaused = false → protocol.bufferNbytesWritten < high) :
    Level maxSize low high protocol.maybeResumeTransport := by
  unfold Protocol.maybeResumeTransport
  split_ifs with hresume
  · refine ⟨⟨h.length, h.readLowWater, h.readHighWater, h.hasTransport⟩, fun hp => ?_, fun _ => ?_⟩
    · cases hp
    · exact (hresume.2.2.trans_eq h.readLowWater).trans_lt hlt
  · refine ⟨h, fun hp => ?_, hbelow⟩
    rw [← not_le]
    intro hle
    exact hresume ⟨hp, h.hasTransport, hle.trans_eq h.readLowWater.symm⟩

theorem drains_takeData (bufsize : ℕ)
    (h : protocol.bufferNbytesWritten ≤ protocol.buffer.length) :
    Drains protocol (protocol.takeData bufsize).2 := by
  unfold Protocol.takeData
  dsimp only
  split_ifs with h0 hlt
  · exact ⟨(Protocol.content_move h hlt).1, rfl, rfl, rfl, rfl, Nat.sub_le _ _⟩
  · exact ⟨rfl, rfl, rfl, rfl, rfl, Nat.zero_le _⟩
  · exact ⟨rfl, rfl, rfl, rfl, rfl, le_rfl⟩

theorem drains_takeDataInto (buffer : Bytes)
    (h : protocol.bufferNbytesWritten ≤ protocol.buffer.length) :
    Drains protocol (protocol.takeDataInto buffer).2.2 := by
  unfold Protocol.takeDataInto
  dsimp only
  split_ifs with h0 hlt
  · exact ⟨(Protocol.content_move h hlt).1, rfl, rfl, rfl, rfl, Nat.sub_le _ _⟩
  · exact ⟨rfl, rfl, rfl, rfl, rfl, Nat.zero_le _⟩
  · exact ⟨rfl, rfl, rfl, rfl, rfl, le_rfl⟩

theorem readWaiter_maybeResume :
    protocol.maybeResumeTransport.readWaiter = protocol.readWaiter :=
  Protocol.same_maybeResumeTransport.readWaiter

/-! ## Before the loss -/

/-- No call has failed with an assertion. -/
def NoAssertionError (s : State) : Prop :=
  ∀ message, .error (.assertionError message) ∉ s.results

/-- A connection that is not lost. -/
structure Open (maxSize low high : ℕ) (s : State) : Prop where
  core : Core s
  level : Level maxSize low high s.protocol
  canPause : s.canPause = true
  /-- a reader only waits while there is nothing to read -/
  pending : s.protocol.readWaiter = some .pending → s.protocol.bufferNbytesWritten = 0
  buffer : ∀ buffer y c, s.reader = some ⟨.receiveDataInto buffer, y, c⟩ → buffer ≠ []
  noAssertionError : NoAssertionError s

theorem NoAssertionError.finish (h : NoAssertionError s) {r : Except ReadError Bytes}
    (hr : ∀ message, r ≠ .error (.assertionError message)) : NoAssertionError (s.finish r) := by
  intro message hmem
  rcases List.mem_append.1 hmem with hmem | hmem
  · exact h message hmem
  · exact hr message (List.mem_singleton.1 hmem).symm

theorem Open.finish (h : Open maxSize low high s) {r : Except ReadError Bytes}
    (hcore : Core (s.finish r)) (hr : ∀ message, r ≠ .error (.assertionError message)) :
    Open maxSize low high (s.finish r) where
  core := hcore
  level := h.level
  canPause := h.canPause
  pending := h.pending
  buffer _ _ _ hc := by cases hc
  noAssertionError := h.noAssertionError.finish hr

/-- A call waits for data. -/
theorem Open.waitForData (h : Open maxSize low high s) (hr : s.reader = none) (requester : String)
    {request : Request} (hbuffer : ∀ buffer, request = .receiveDataInto buffer → buffer ≠ []) :
    Open maxSize low high (s.waitForData requester request) := by
  have hcore := (waitForData_flow h.core hr requester request).1
  unfold State.waitForData at hcore ⊢
  dsimp only at hcore ⊢
  split_ifs at hcore ⊢ with h1 h2 h3 h4
  · exact h.finish hcore (fun _ hc => by cases hc)
  · refine ⟨hcore, h.level.of_eq ⟨rfl, rfl, rfl, rfl, rfl, le_rfl⟩ rfl, h.canPause, ?_, ?_,
      h.noAssertionError⟩
    · intro hc
      cases hc
    · intro buffer y c hc
      cases hc
      exact hbuffer buffer rfl
  · -- while reading is paused, there is something to read
    have habove := h.level.above h3
    rw [not_or, not_not] at h2
    omega
  · exact h.finish hcore (fun _ hc => by cases hc)
  · refine ⟨hcore, h.level.of_eq ⟨rfl, rfl, rfl, rfl, rfl, le_rfl⟩ rfl, h.canPause, ?_, ?_,
      h.noAssertionError⟩
    · intro _
      rw [not_or, not_not] at h2
      exact h2.1
    · intro buffer y c hc
      cases hc
      exact hbuffer buffer rfl

/-- A call ends with what it takes from the internal buffer. -/
theorem Open.takes (h : Open maxSize low high s) (hlt : low < high) {data : Bytes}
    (hd : Drains s.clearWaiter.protocol protocol) (hwaiter : protocol.readWaiter = none)
    (hcore : Core ({ s with protocol := protocol.maybeResumeTransport }.finish (.ok data))) :
    Open maxSize low high ({ s with protocol := protocol.maybeResumeTransport }.finish (.ok data))
    where
  core := hcore
  level := by
    have hlevel : Level maxSize low high s.clearWaiter.protocol :=
      h.level.of_eq ⟨rfl, rfl, rfl, rfl, rfl, le_rfl⟩ rfl
    refine (hlevel.toFixed.of_drains hd).maybeResume hlt fun hp => ?_
    exact hd.written_le.trans_lt (hlevel.below (hd.readPaused.symm.trans hp))
  canPause := h.canPause
  pending hc := by
    have hnone : protocol.maybeResumeTransport.readWaiter = none :=
      readWaiter_maybeResume.trans hwaiter
    cases hnone.symm.trans hc
  buffer _ _ _ hc := by cases hc
  noAssertionError := h.noAssertionError.finish fun _ hc => by cases hc

/-- The reader runs on. -/
theorem Open.resume (h : Open maxSize low high s) (hlt : low < high)
    (hs : BufferedProtocol.step s .resume = some s') : Open maxSize low high s' := by
  have hcore := (resume_flow h.core hs).1
  rw [BufferedProtocol.step] at hs
  rcases hr : s.reader with _ | reader <;> simp only [hr] at hs
  · cases hs
  split_ifs at hs with hready hcancelled <;> cases hs
  · refine ⟨hcore, h.level.of_eq ⟨rfl, rfl, rfl, rfl, rfl, le_rfl⟩ rfl, h.canPause, ?_, ?_,
      h.noAssertionError.finish fun _ hc => by cases hc⟩
    · intro hc
      cases hc
    · intro _ _ _ hc
      cases hc
  · have hle : s.clearWaiter.protocol.bufferNbytesWritten ≤ s.clearWaiter.protocol.buffer.length :=
      h.core.written_le
    unfold State.complete at hcore ⊢
    rcases reader with ⟨bufsize | buffer, y, c⟩
    · exact h.takes hlt (drains_takeData bufsize hle) (Protocol.takes_takeData hle).readWaiter hcore
    · dsimp only at hcore ⊢
      split at hcore
      next n hn =>
        refine ⟨hcore, h.level.of_eq ⟨rfl, rfl, rfl, rfl, rfl, le_rfl⟩ rfl, h.canPause, ?_, ?_,
          h.noAssertionError.finish fun _ hc => by cases hc⟩
        · intro hc
          cases hc
        · intro _ _ _ hc
          cases hc
      next hn =>
        exact h.takes hlt (drains_takeDataInto buffer hle)
          (Protocol.takes_takeDataInto buffer hle).readWaiter hcore

theorem drains_wakeup (nbytes : Option ℕ) : Drains protocol (protocol.wakeupReadWaiter nbytes) := by
  rw [Protocol.wakeupReadWaiter_eq]
  exact ⟨rfl, rfl, rfl, rfl, rfl, le_rfl⟩

theorem written_wakeup (nbytes : Option ℕ) :
    (protocol.wakeupReadWaiter nbytes).bufferNbytesWritten = protocol.bufferNbytesWritten := by
  rw [Protocol.wakeupReadWaiter_eq]

theorem wakeup_ne_pending (nbytes : Option ℕ) :
    (protocol.wakeupReadWaiter nbytes).readWaiter ≠ some .pending := by
  rw [Protocol.wakeupReadWaiter_eq]
  intro hc
  by_cases hp : protocol.readWaiter = some .pending
  · rw [if_pos hp] at hc
    cases hc
  · rw [if_neg hp] at hc
    exact hp hc

/-- The transport delivers bytes. -/
theorem Open.deliver (h : Open maxSize low high s) (hlt : low < high) {data : Bytes}
    (hpaused : s.protocol.readPaused = false)
    (hs : BufferedProtocol.step s (.deliver data) = some s') : Open maxSize low high s' := by
  have hcore := (deliver_flow h.core hs).1
  rcases step_deliver h.core hs with ⟨buffer, y, c, he, hr, hle, rfl⟩ | ⟨he, hle, rfl⟩
  · have hlevel : Level maxSize low high { s.protocol with hasExternalBufferView := false } :=
      h.level.of_eq ⟨rfl, rfl, rfl, rfl, rfl, le_rfl⟩ rfl
    refine ⟨hcore, hlevel.of_eq (drains_wakeup _) (written_wakeup _), h.canPause,
      fun hc => absurd hc (wakeup_ne_pending _), ?_, h.noAssertionError⟩
    intro buffer' y' c' hc
    cases hc
    have hlen := length_writeAt (show 0 + data.length ≤ buffer.length by omega)
    have hpos := List.length_pos_iff.2 (h.buffer buffer y c hr)
    exact List.length_pos_iff.1 (hlen.symm ▸ hpos)
  · have hwaiter : ({ s.protocol with
        buffer := writeAt s.protocol.buffer s.protocol.bufferNbytesWritten
          data }.bufferUpdated s.canPause data.length).readWaiter ≠ some .pending := by
      rw [Protocol.bufferUpdated, Protocol.same_maybePauseTransport.readWaiter]
      exact wakeup_ne_pending _
    refine ⟨hcore, ?_, h.canPause, fun hc => absurd hc hwaiter, h.buffer, h.noAssertionError⟩
    have hfixed : Fixed maxSize low high { s.protocol with
        buffer := writeAt s.protocol.buffer s.protocol.bufferNbytesWritten data
        bufferNbytesWritten := s.protocol.bufferNbytesWritten + data.length } :=
      ⟨(length_writeAt hle).trans h.level.length, h.level.readLowWater, h.level.readHighWater,
        h.level.hasTransport⟩
    show Level maxSize low high (Protocol.maybePauseTransport _ s.canPause)
    rw [h.canPause]
    refine (hfixed.of_drains (drains_wakeup none)).maybePause hlt fun hp => ?_
    rw [(drains_wakeup none).readPaused] at hp
    cases hpaused.symm.trans hp

/-- **Step lemma.** -/
theorem Open.step (h : Open maxSize low high s) (hlt : low < high) {a : Action}
    (hpaused : ∀ data, a = .deliver data → s.protocol.readPaused = false)
    (hs : BufferedProtocol.step s a = some s') : Open maxSize low high s' := by
  have hcore := (step_flow h.core hs).1
  cases a with
  | receiveData bufsize =>
    rw [BufferedProtocol.step] at hs
    split_ifs at hs with hr h0 hneg <;> cases hs <;> rw [not_not] at hr
    · exact h.finish hcore fun _ hc => by cases hc
    · exact h.finish hcore fun _ hc => by cases hc
    · exact h.waitForData hr _ fun _ hc => by cases hc
  | receiveDataInto buffer =>
    rw [BufferedProtocol.step] at hs
    split_ifs at hs with hr hbuffer <;> cases hs <;> rw [not_not] at hr
    · exact h.finish hcore fun _ hc => by cases hc
    · refine h.waitForData hr _ fun buffer' hc => ?_
      cases hc
      exact hbuffer
  | cancel =>
    rw [BufferedProtocol.step] at hs
    rcases hr : s.reader with _ | ⟨request, y, c⟩ <;> simp only [hr] at hs
    · cases hs
    split_ifs at hs <;> cases hs
    · refine ⟨hcore, h.level, h.canPause, h.pending, ?_, h.noAssertionError⟩
      intro buffer y' c' hc
      cases hc
      exact h.buffer buffer y c hr
    · refine ⟨hcore, h.level.of_eq ⟨rfl, rfl, rfl, rfl, rfl, le_rfl⟩ rfl, h.canPause, ?_,
        ?_, h.noAssertionError⟩
      · intro hc
        cases hc
      · intro buffer y' c' hc
        exact h.buffer buffer y' c' (hr.trans hc)
  | resume => exact h.resume hlt hs
  | deliver data => exact h.deliver hlt (hpaused data rfl) hs
  | eofReceived =>
    rw [BufferedProtocol.step] at hs
    cases hs
    have hlevel : Level maxSize low high
        { s.protocol with hasExternalBufferView := false, eofReached := true } :=
      h.level.of_eq ⟨rfl, rfl, rfl, rfl, rfl, le_rfl⟩ rfl
    exact ⟨hcore, hlevel.of_eq (drains_wakeup _) (written_wakeup _), h.canPause,
      fun hc => absurd hc (wakeup_ne_pending _), h.buffer, h.noAssertionError⟩

/-! ## After the loss -/

/-- A connection that is lost, with an exception or after the end of the stream. -/
structure Lost (exc : Option LostError) (s : State) : Prop where
  readPaused : s.protocol.readPaused = false
  written : s.protocol.bufferNbytesWritten = 0
  /-- no reader waits any more -/
  notPending : s.protocol.readWaiter ≠ some .pending
  /-- without an exception, a call gives the end of the stream -/
  eofReached : exc = none → s.protocol.eofReached = true
  noAssertionError : NoAssertionError s

variable {exc : Option LostError}

/-- The protocol is the same, but for a waiter that is done. -/
theorem Lost.of_waiter (h : Lost exc s) {waiter : Option Waiter} (hw : waiter ≠ some .pending)
    {externalView : Bool} (hs : s'.protocol = { s.protocol with
      readWaiter := waiter, hasExternalBufferView := externalView })
    (hassert : NoAssertionError s') : Lost exc s' where
  readPaused := by
    rw [hs]
    exact h.readPaused
  written := by
    rw [hs]
    exact h.written
  notPending := by
    rw [hs]
    exact hw
  eofReached he := by
    rw [hs]
    exact h.eofReached he
  noAssertionError := hassert

theorem Lost.finish (h : Lost exc s) {r : Except ReadError Bytes}
    (hr : ∀ message, r ≠ .error (.assertionError message)) : Lost exc (s.finish r) :=
  h.of_waiter h.notPending rfl (h.noAssertionError.finish hr)

theorem Lost.waitForData (h : Lost none s) (requester : String) (request : Request) :
    Lost none (s.waitForData requester request) := by
  unfold State.waitForData
  dsimp only
  split_ifs with h1 h2
  · exact h.finish fun _ hc => by cases hc
  · exact h.of_waiter (by intro hc; cases hc) rfl h.noAssertionError
  all_goals exact absurd (.inr (h.eofReached rfl)) h2

/-- Nothing is left to read. -/
theorem Lost.complete_eq (h : Lost exc s) (reader : Reader) :
    ∃ data, s.complete reader = s.clearWaiter.finish (.ok data) := by
  have hresume : s.clearWaiter.protocol.maybeResumeTransport = s.clearWaiter.protocol := by
    rw [Protocol.maybeResumeTransport, if_neg]
    intro hc
    cases h.readPaused.symm.trans hc.1
  have h0 : ¬ s.clearWaiter.protocol.bufferNbytesWritten ≠ 0 := not_not.2 h.written
  unfold State.complete
  rcases reader with ⟨bufsize | buffer, y, c⟩
  · dsimp only
    rw [Protocol.takeData]
    dsimp only
    rw [if_neg h0, hresume]
    exact ⟨_, rfl⟩
  · dsimp only
    split
    · exact ⟨_, rfl⟩
    · rw [Protocol.takeDataInto]
      dsimp only
      rw [if_neg h0, hresume]
      exact ⟨_, rfl⟩

/-- **Step lemma.** -/
theorem Lost.step (h : Lost exc s) {a : Action} (hdeliver : ∀ data, a ≠ .deliver data)
    (hcall : (∃ bufsize, a = .receiveData bufsize) ∨ (∃ buffer, a = .receiveDataInto buffer) →
      exc = none)
    (hs : BufferedProtocol.step s a = some s') : Lost exc s' := by
  cases a with
  | receiveData bufsize =>
    obtain rfl := hcall (.inl ⟨_, rfl⟩)
    rw [BufferedProtocol.step] at hs
    split_ifs at hs <;> cases hs
    · exact h.finish fun _ hc => by cases hc
    · exact h.finish fun _ hc => by cases hc
    · exact h.waitForData _ _
  | receiveDataInto buffer =>
    obtain rfl := hcall (.inr ⟨_, rfl⟩)
    rw [BufferedProtocol.step] at hs
    split_ifs at hs <;> cases hs
    · exact h.finish fun _ hc => by cases hc
    · exact h.waitForData _ _
  | cancel =>
    rw [BufferedProtocol.step] at hs
    rcases hr : s.reader with _ | reader <;> simp only [hr] at hs
    · cases hs
    split_ifs at hs <;> cases hs
    · exact h.of_waiter h.notPending rfl h.noAssertionError
    · exact h.of_waiter (by intro hc; cases hc) rfl h.noAssertionError
  | resume =>
    have hclear : Lost exc s.clearWaiter :=
      h.of_waiter (by intro hc; cases hc) rfl h.noAssertionError
    rw [BufferedProtocol.step] at hs
    rcases hr : s.reader with _ | reader <;> simp only [hr] at hs
    · cases hs
    split_ifs at hs <;> cases hs
    · exact hclear.finish fun _ hc => by cases hc
    · obtain ⟨data, hdata⟩ := h.complete_eq reader
      rw [hdata]
      exact hclear.finish fun _ hc => by cases hc
  | deliver data => exact absurd rfl (hdeliver data)
  | eofReceived =>
    rw [BufferedProtocol.step] at hs
    cases hs
    refine ⟨?_, ?_, wakeup_ne_pending _, fun _ => ?_, h.noAssertionError⟩
    · exact (drains_wakeup _).readPaused.trans h.readPaused
    · exact (written_wakeup _).trans h.written
    · show (Protocol.wakeupReadWaiter _ none).eofReached = true
      rw [Protocol.wakeupReadWaiter_eq]

/-! ## The whole life -/

/-- What every run of a connection keeps. -/
def Connection.Inv (maxSize low high : ℕ) (c : Connection) : Prop :=
  if c.connectionLost then Lost c.connectionLostException c.state
  else c.connectionLostException = none ∧ Open maxSize low high c.state

namespace Connection
variable {c c' : Connection}

theorem inv_open (h : c.connectionLost = false) : c.Inv maxSize low high ↔
    c.connectionLostException = none ∧ Open maxSize low high c.state := by
  rw [Inv, if_neg (by rw [h]; exact Bool.false_ne_true)]

theorem inv_lost (h : c.connectionLost = true) : c.Inv maxSize low high ↔
    Lost c.connectionLostException c.state := by
  rw [Inv, if_pos h]

theorem inv_init (hlt : low < high) :
    (init maxSize low high).Inv maxSize low high := by
  refine (inv_open rfl).2 ⟨rfl, Core.init _ _ _, ?_, rfl, fun _ => rfl, ?_, ?_⟩
  · refine ⟨⟨List.length_replicate, rfl, rfl, rfl⟩, fun hp => ?_, fun _ => ?_⟩
    · cases hp
    · exact (Nat.zero_le low).trans_lt hlt
  · intro _ _ _ hc
    cases hc
  · intro _ hc
    cases hc

theorem inv_act (h : c.Inv maxSize low high) (hlt : low < high) {a : Action}
    (hdeliver : ∀ data, a = .deliver data →
      c.connectionLost = false ∧ c.state.protocol.readPaused = false)
    (hcall : (∃ bufsize, a = .receiveData bufsize) ∨ (∃ buffer, a = .receiveDataInto buffer) →
      c.connectionLostException = none)
    (hs : c.act a = some c') : c'.Inv maxSize low high := by
  obtain ⟨state, hstate, rfl⟩ := Option.map_eq_some_iff.1 hs
  rcases hl : c.connectionLost with _ | _
  · obtain ⟨hnone, hopen⟩ := (inv_open hl).1 h
    rw [inv_open (by rfl)]
    exact ⟨hnone, hopen.step hlt (fun data hd => (hdeliver data hd).2) hstate⟩
  · rw [inv_lost (by rfl)]
    refine ((inv_lost hl).1 h).step (fun data hd => ?_) hcall hstate
    cases (hdeliver data hd).1.symm.trans hl

/-- With an exception, the connection is lost. -/
theorem Inv.lost (h : c.Inv maxSize low high) {exc : LostError}
    (hexc : c.connectionLostException = some exc) : c.connectionLost = true := by
  rw [← Bool.not_eq_false]
  intro hl
  cases ((inv_open hl).1 h).1.symm.trans hexc

theorem inv_call (h : c.Inv maxSize low high) (hlt : low < high) {a : Action}
    (hdeliver : ∀ data, a ≠ .deliver data) (hs : c.call a = some c') :
    c'.Inv maxSize low high := by
  rw [call] at hs
  rcases hexc : c.connectionLostException with _ | exc <;> simp only [hexc] at hs
  · exact inv_act h hlt (fun data hd => absurd hd (hdeliver data)) (fun _ => hexc) hs
  · split_ifs at hs
    cases hs
    have hl := h.lost hexc
    rw [inv_lost (by exact hl)]
    dsimp only
    rw [← hexc]
    exact (inv_lost hl).1 h

theorem inv_resume (h : c.Inv maxSize low high) (hlt : low < high)
    (hs : c.resume = some c') : c'.Inv maxSize low high := by
  have hact : c.act .resume = some c' → c'.Inv maxSize low high :=
    inv_act h hlt (fun _ hd => by cases hd) (fun hc => by
      rcases hc with ⟨_, hc⟩ | ⟨_, hc⟩ <;> cases hc)
  unfold resume at hs
  split at hs
  next reader exc hr hexc =>
    split_ifs at hs
    · cases hs
      have hl := h.lost hexc
      have hlost := (inv_lost hl).1 h
      rw [inv_lost (by exact hl)]
      have hnone : (none : Option Waiter) ≠ some .pending := by
        intro hc
        cases hc
      exact hlost.of_waiter hnone rfl hlost.noAssertionError
    · exact hact hs
  next => exact hact hs

theorem inv_lose (h : c.Inv maxSize low high) (exc : Option LostError) :
    (c.lose exc).Inv maxSize low high := by
  rcases hl : c.connectionLost with _ | _
  · obtain ⟨-, hopen⟩ := (inv_open hl).1 h
    rw [lose, hl, if_neg Bool.false_ne_true]
    refine (inv_lost rfl).2 ⟨?_, ?_, wakeup_ne_pending _, fun hnone => ?_, hopen.noAssertionError⟩
    · exact (drains_wakeup _).readPaused
    · exact written_wakeup _
    · show (Protocol.wakeupReadWaiter _ none).eofReached = true
      rw [Protocol.wakeupReadWaiter_eq]
      dsimp only at hnone ⊢
      rw [hnone]
      exact Bool.or_true _
  · rw [lose, hl, if_pos rfl]
    exact h

/-- **Step lemma.** -/
theorem inv_step (h : c.Inv maxSize low high) (hlt : low < high) {e : Event}
    (hs : c.step e = some c') : c'.Inv maxSize low high := by
  rcases e with a | exc
  · cases a with
    | deliver data =>
      rw [step] at hs
      split_ifs at hs with hc
      simp only [not_or, Bool.not_eq_true] at hc
      exact inv_act h hlt (fun _ _ => ⟨hc.1, hc.2.1⟩)
        (fun hcall => by rcases hcall with ⟨_, hcall⟩ | ⟨_, hcall⟩ <;> cases hcall) hs
    | receiveData bufsize => exact inv_call h hlt (fun _ hc => by cases hc) hs
    | receiveDataInto buffer => exact inv_call h hlt (fun _ hc => by cases hc) hs
    | resume => exact inv_resume h hlt hs
    | cancel =>
      exact inv_act h hlt (fun _ hc => by cases hc)
        (fun hcall => by rcases hcall with ⟨_, hcall⟩ | ⟨_, hcall⟩ <;> cases hcall) hs
    | eofReceived =>
      exact inv_act h hlt (fun _ hc => by cases hc)
        (fun hcall => by rcases hcall with ⟨_, hcall⟩ | ⟨_, hcall⟩ <;> cases hcall) hs
  · cases hs
    exact inv_lose h exc

/-- The invariant is all that the flow control is for. -/
theorem Inv.flowControlled (h : c.Inv maxSize low high) (hhigh : high < maxSize) :
    FlowControlled low high c := by
  rcases hl : c.connectionLost with _ | _
  · obtain ⟨-, hopen⟩ := (inv_open hl).1 h
    have hview : c.state.protocol.hasExternalBufferView = false → c.state.getBuffer =
        c.state.protocol.buffer.length - c.state.protocol.bufferNbytesWritten := by
      intro he
      rw [State.getBuffer, he]
    refine ⟨fun _ => hopen.level.above, fun _ => hopen.level.below, fun _ hp => ?_, fun _ n hn => ?_,
      hopen.noAssertionError, fun hp hw => ?_⟩
    · rcases he : c.state.protocol.hasExternalBufferView with _ | _
      · have hbelow := hopen.level.below hp
        rw [hview he, hopen.level.length]
        omega
      · obtain ⟨-, -, buffer, y, hr⟩ := hopen.core.external he
        rw [State.getBuffer, he, hr]
        exact List.length_pos_iff.2 (hopen.buffer buffer false y hr)
    · intro he
      rw [hview he] at hn
      have hle := hopen.core.written_le
      omega
    · have habove := hopen.level.above hp
      rw [hopen.pending hw] at habove
      exact Nat.not_lt_zero _ habove
  · have hlost := (inv_lost hl).1 h
    have hfalse : c.connectionLost ≠ false := by
      intro hc
      cases hl.symm.trans hc
    exact ⟨fun hc => absurd hc hfalse, fun hc => absurd hc hfalse, fun hc => absurd hc hfalse,
      fun hc => absurd hc hfalse, hlost.noAssertionError, fun _ => hlost.notPending⟩

/-- **Run lemma.** -/
theorem run_inv (hlt : low < high) {es : List Event}
    (h : Trans.run step (init maxSize low high) es = some c) : Inv maxSize low high c :=
  Trans.run_inv (fun _ _ _ hi hs => inv_step hi hlt hs) (inv_init hlt) h

/-- **The flow control is right in every state that a connection reaches.** -/
theorem flowControl_correct (hlt : low < high) (hhigh : high < maxSize) {es : List Event}
    (h : Trans.run step (init maxSize low high) es = some c) : FlowControlled low high c :=
  (run_inv hlt h).flowControlled hhigh

/-- The buffer fills up and reading is paused; a reader has been called, and has not gone on yet. -/
theorem flowControl_paused : ∃ c, Trans.run step (init 8 1 6)
    [.act (.deliver [97, 98, 99, 100]), .act (.deliver [101, 102]), .act (.receiveData 5)] =
      some c ∧
    c.state.protocol.readPaused = true ∧ FlowControlled 1 6 c := by
  obtain ⟨c, hc⟩ : ∃ c, Trans.run step (init 8 1 6)
    [.act (.deliver [97, 98, 99, 100]), .act (.deliver [101, 102]), .act (.receiveData 5)] =
      some c := ⟨_, rfl⟩
  refine ⟨c, hc, ?_, flowControl_correct (by decide) (by decide) hc⟩
  cases hc
  rfl

/-- With the water marks of the class, the internal buffer must have two kilobytes at least. -/
theorem flowControlled_of_limits (hsize : 2048 ≤ maxSize) {limits : ℕ × ℕ}
    (hlimits : computeReadBufferLimits maxSize = limits) {es : List Event}
    (h : Trans.run step (init maxSize limits.2 limits.1) es = some c) :
    FlowControlled limits.2 limits.1 c := by
  obtain ⟨hlt, hhigh⟩ := hlimits ▸ computeReadBufferLimits_lt hsize
  exact (run_inv hlt h).flowControlled hhigh

end Connection

end

end BufferedProtocol

end EasyNetwork
