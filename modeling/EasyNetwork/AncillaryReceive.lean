/-
  Receiving packets with ancillary data: `receive` and `receive_with_ancillary` of the endpoints
  (`lowlevel/api_sync/endpoints/stream.py`, `lowlevel/api_async/endpoints/stream.py`), `next` and
  `next_with_ancillary` of a server (`lowlevel/api_async/servers/stream.py`).

  The six receivers have the same calls, over different consumers.  The callback for the ancillary data
  is called when the bytes have left the socket, and before the consumer is told.

  `bytes_kept_iff`: all the received bytes are handed to the consumer iff no callback has raised, and
  the calls then obtain what the chunks give.
-/
import EasyNetwork.Separated
import EasyNetwork.StreamReceive

namespace EasyNetwork

namespace AncillaryReceive

open StreamEndpoint

variable {σ P ι E : Type}

/-! ## The receivers -/

/-- The receiver of an endpoint, or of the requests of a server. -/
inductive Kind where
  | syncEndpoint
  | asyncEndpoint
  | server (ancillaryBufsize : Option ℕ)
  deriving DecidableEq, Repr

/-- A consumer that is fed, and what is left of it when a chunk has been received and is not handed
    over. -/
structure Receiver (σ P ι : Type) where
  feeder : Feeder σ Bytes WriteBuffer (NextResult P ι)
  unclaimed : σ → WriteBuffer → Bytes → σ

/-- The chunk is a local variable. -/
def dataReceiver (proto : StreamProtocol σ P ι) (maxRecvSize : ℕ) :
    Receiver (StreamDataConsumer σ) P ι where
  feeder := StreamEndpoint.dataReceiver proto maxRecvSize
  unclaimed consumer _ _ := consumer

/-- The chunk is in the buffer of the consumer. -/
def bufferedReceiver (proto : BufferedStreamProtocol σ P ι) :
    Receiver (BufferedStreamDataConsumer σ) P ι where
  feeder := StreamEndpoint.bufferedReceiver proto
  unclaimed consumer buffer chunk := consumer.write buffer.start chunk

/-- How a call ends. -/
inductive Outcome (P ι E : Type) where
  /-- with what the consumer gives -/
  | result (r : NextResult P ι)
  /-- `ETIMEDOUT` -/
  | timedOut
  /-- what the transport raises, or a `BaseException` of the callback -/
  | raised (exc : E)
  /-- `ECONNABORTED` -/
  | connectionAborted
  | stopAsyncIteration
  /-- `EOFError("Received partial packet data")` -/
  | partialPacket
  /-- `RuntimeError("ancillary_data_received() crashed")` -/
  | crashed
  | unsupportedOperation
  deriving DecidableEq, Repr

def Outcome.result? : Outcome P ι E → Option (NextResult P ι)
  | .result r => some r
  | _ => none

/-- What the callback for the ancillary data does. -/
inductive Callback (E : Type) where
  | returns
  /-- it raises an `Exception` -/
  | raises
  /-- it raises another `BaseException` -/
  | raisesBase (exc : E)
  deriving DecidableEq, Repr

/-- A call that waits for the transport. -/
structure Call where
  ancillary : Bool
  timeout : Delay
  buffer : WriteBuffer

structure State (σ P ι E : Type) where
  consumer : σ
  eofReached : Bool := false
  call : Option Call := none
  /-- what the transport has given -/
  chunks : List Bytes := []
  /-- what has been handed to the consumer -/
  handed : List Bytes := []
  outcomes : List (Outcome P ι E) := []

inductive Action (E : Type) where
  /-- `receive(timeout)` or `next()` -/
  | receive (timeout : Delay)
  /-- `receive_with_ancillary` or `next_with_ancillary` -/
  | receiveWithAncillary (timeout : Delay)
  /-- the transport gives a chunk after some time; the callback is called if there is one -/
  | received (chunk : Bytes) (elapsed : ℚ) (callback : Callback E)
  | endOfStream
  /-- the transport raises; a server takes it for a disconnection or not -/
  | raises (exc : E) (disconnected : Bool)

/-- Whether `receive` reads again after an incomplete packet, and with which timeout; `full` if the
    chunk fills the read. -/
def Kind.retry : Kind → Delay → ℚ → Bool → Option Delay
  | .syncEndpoint, timeout, elapsed, full =>
    if 0 < timeout then some (recomputeTimeout timeout elapsed)
    else if full then some timeout
    else none
  | .asyncEndpoint, timeout, _, _ | .server _, timeout, _, _ => some timeout

section
variable (kind : Kind) (R : Receiver σ P ι) (s : State σ P ι E)

namespace State

def finish (outcome : Outcome P ι E) : State σ P ι E :=
  { s with call := none, outcomes := s.outcomes ++ [outcome] }

/-- The next read. -/
def read (ancillary : Bool) (timeout : Delay) : State σ P ι E :=
  if s.eofReached then s.finish .connectionAborted
  else match R.feeder.offer s.consumer with
    | (.error r, consumer) => { s with consumer }.finish (.result r)
    | (.ok buffer, consumer) => { s with consumer, call := some ⟨ancillary, timeout, buffer⟩ }

/-- A call, up to the first read. -/
def start (ancillary : Bool) (timeout : Delay) : State σ P ι E :=
  match R.feeder.take s.consumer with
  | (some r, consumer) => { s with consumer }.finish (.result r)
  | (none, consumer) => { s with consumer }.read R ancillary timeout

/-- The chunk is handed to the consumer; `otherwise` if it gives nothing. -/
def hand (call : Call) (chunk : Bytes) (otherwise : State σ P ι E → State σ P ι E) :
    State σ P ι E :=
  let s := { s with handed := s.handed ++ [chunk] }
  match R.feeder.give s.consumer call.buffer chunk with
  | (some r, consumer) => { s with consumer }.finish (.result r)
  | (none, consumer) => otherwise { s with consumer }

/-- `receive` has read a chunk. -/
def received (call : Call) (chunk : Bytes) (elapsed : ℚ) : State σ P ι E :=
  s.hand R call chunk fun s =>
    match kind.retry call.timeout elapsed (decide (call.buffer.nbytes ≤ chunk.length)) with
    | some timeout => s.read R false timeout
    | none => s.finish .timedOut

/-- `receive_with_ancillary` has read a chunk. -/
def receivedWithAncillary (call : Call) (chunk : Bytes) (callback : Callback E) : State σ P ι E :=
  match callback with
  | .returns => s.hand R call chunk fun s => s.finish .partialPacket
  | .raises => { s with consumer := R.unclaimed s.consumer call.buffer chunk }.finish .crashed
  | .raisesBase exc =>
    { s with consumer := R.unclaimed s.consumer call.buffer chunk }.finish (.raised exc)

/-- The transport has given no bytes. -/
def ended : State σ P ι E :=
  match kind with
  | .syncEndpoint | .asyncEndpoint => { s with eofReached := true }.finish .connectionAborted
  | .server _ => s.finish .stopAsyncIteration

/-- The transport has raised. -/
def raised (exc : E) (disconnected : Bool) : State σ P ι E :=
  match kind with
  | .syncEndpoint | .asyncEndpoint => s.finish (.raised exc)
  | .server _ => s.finish (if disconnected then .stopAsyncIteration else .raised exc)

end State

/-- One call, or one answer of the transport. -/
def step : Action E → Option (State σ P ι E)
  | .receive timeout =>
    match s.call with
    | none => some (s.start R false timeout)
    | some _ => none
  | .receiveWithAncillary timeout =>
    match s.call with
    | none =>
      if kind = .server none then some (s.finish .unsupportedOperation)
      else some (s.start R true timeout)
    | some _ => none
  | .received chunk elapsed callback =>
    match s.call with
    | some call =>
      if chunk = [] ∨ call.buffer.nbytes < chunk.length then none
      else
        let s := { s with chunks := s.chunks ++ [chunk] }
        if call.ancillary then some (s.receivedWithAncillary R call chunk callback)
        else some (s.received kind R call chunk elapsed)
    | none => none
  | .endOfStream =>
    match s.call with
    | some _ => some (s.ended kind)
    | none => none
  | .raises exc disconnected =>
    match s.call with
    | some _ => some (s.raised kind exc disconnected)
    | none => none

end

/-- The packets and the errors that the calls have obtained from the consumer. -/
def State.results (s : State σ P ι E) : List (NextResult P ι) := s.outcomes.filterMap Outcome.result?

/-- The callback, if it is called, returns. -/
def CallbackReturns (s : State σ P ι E) : Action E → Prop
  | .received _ _ callback =>
    ∀ call, s.call = some call → call.ancillary = true → callback = .returns
  | _ => True

/-! ## Where the bytes are -/

section
variable {kind : Kind} {R : Receiver σ P ι} {s s' : State σ P ι E}

/-- No byte has been received or handed over in between. -/
def SameBytes (s s' : State σ P ι E) : Prop := s'.chunks = s.chunks ∧ s'.handed = s.handed

theorem sameBytes_finish (s : State σ P ι E) (outcome : Outcome P ι E) :
    SameBytes s (s.finish outcome) := ⟨rfl, rfl⟩

theorem sameBytes_read (ancillary : Bool) (timeout : Delay) :
    SameBytes s (s.read R ancillary timeout) := by
  unfold State.read
  split
  · exact ⟨rfl, rfl⟩
  · split <;> exact ⟨rfl, rfl⟩

theorem sameBytes_start (ancillary : Bool) (timeout : Delay) :
    SameBytes s (s.start R ancillary timeout) := by
  unfold State.start
  split
  · exact ⟨rfl, rfl⟩
  · exact sameBytes_read ancillary timeout

theorem sameBytes_ended : SameBytes s (s.ended kind) := by
  cases kind <;> exact ⟨rfl, rfl⟩

theorem sameBytes_raised (exc : E) (disconnected : Bool) :
    SameBytes s (s.raised kind exc disconnected) := by
  cases kind <;> exact ⟨rfl, rfl⟩

/-- The chunk is handed over. -/
theorem hand_bytes {call : Call} {chunk : Bytes} {otherwise : State σ P ι E → State σ P ι E}
    (hother : ∀ s, SameBytes s (otherwise s)) : (s.hand R call chunk otherwise).chunks = s.chunks ∧
      (s.hand R call chunk otherwise).handed = s.handed ++ [chunk] := by
  unfold State.hand
  dsimp only
  split
  · exact ⟨rfl, rfl⟩
  · exact hother _

theorem received_bytes {call : Call} {chunk : Bytes} {elapsed : ℚ} :
    (s.received kind R call chunk elapsed).chunks = s.chunks ∧
      (s.received kind R call chunk elapsed).handed = s.handed ++ [chunk] := by
  refine hand_bytes fun s => ?_
  split
  · exact sameBytes_read false _
  · exact sameBytes_finish s .timedOut

/-- **One step**: what is received is handed over, unless the callback raises. -/
theorem step_bytes {a : Action E} (hs : step kind R s a = some s') :
    CallbackReturns s a ∧ (∃ cs, s'.chunks = s.chunks ++ cs ∧ s'.handed = s.handed ++ cs) ∨
      ¬ CallbackReturns s a ∧ ∃ c, s'.chunks = s.chunks ++ [c] ∧ s'.handed = s.handed := by
  have hsame : SameBytes s s' → ∃ cs, s'.chunks = s.chunks ++ cs ∧ s'.handed = s.handed ++ cs :=
    fun h => ⟨[], h.1.trans (List.append_nil _).symm, h.2.trans (List.append_nil _).symm⟩
  cases a with
  | receive timeout =>
    refine Or.inl ⟨trivial, hsame ?_⟩
    simp only [step] at hs
    split at hs <;> cases hs
    exact sameBytes_start false timeout
  | receiveWithAncillary timeout =>
    refine Or.inl ⟨trivial, hsame ?_⟩
    simp only [step] at hs
    split at hs
    · split_ifs at hs <;> cases hs
      · exact sameBytes_finish s .unsupportedOperation
      · exact sameBytes_start true timeout
    · cases hs
  | received chunk elapsed callback =>
    simp only [step] at hs
    split at hs
    · next call hcall =>
      split_ifs at hs with hlen hanc <;> cases hs
      · cases callback with
        | returns =>
          exact Or.inl ⟨fun _ _ _ => rfl, [chunk], hand_bytes fun s => sameBytes_finish s .partialPacket⟩
        | raises => exact Or.inr ⟨fun h => (nomatch h call hcall hanc), chunk, rfl, rfl⟩
        | raisesBase exc => exact Or.inr ⟨fun h => (nomatch h call hcall hanc), chunk, rfl, rfl⟩
      · refine Or.inl ⟨fun call' hcall' hanc' => ?_, [chunk], received_bytes⟩
        rw [hcall] at hcall'
        cases hcall'
        exact absurd hanc' hanc
    · cases hs
  | endOfStream =>
    refine Or.inl ⟨trivial, hsame ?_⟩
    simp only [step] at hs
    split at hs <;> cases hs
    exact sameBytes_ended
  | raises exc disconnected =>
    refine Or.inl ⟨trivial, hsame ?_⟩
    simp only [step] at hs
    split at hs <;> cases hs
    exact sameBytes_raised exc disconnected

/-- Some received bytes have not been handed over. -/
def Lost (s : State σ P ι E) : Prop := s.handed.length < s.chunks.length

theorem not_lost (h : s.handed = s.chunks) : ¬ Lost s := by
  unfold Lost
  rw [h]
  exact Nat.lt_irrefl _

theorem handed_step {a : Action E} (h : s.handed = s.chunks) (hok : CallbackReturns s a)
    (hs : step kind R s a = some s') : s'.handed = s'.chunks := by
  rcases step_bytes hs with ⟨-, cs, hchunks, hhanded⟩ | ⟨hnot, -⟩
  · rw [hchunks, hhanded, h]
  · exact absurd hok hnot

theorem lost_step {a : Action E} (h : s.handed = s.chunks) (hnot : ¬ CallbackReturns s a)
    (hs : step kind R s a = some s') : Lost s' := by
  rcases step_bytes hs with ⟨hok, -⟩ | ⟨-, c, hchunks, hhanded⟩
  · exact absurd hok hnot
  · rw [Lost, hchunks, hhanded, h, List.length_append]
    exact Nat.lt_succ_self _

theorem lost_stays {a : Action E} (h : Lost s) (hs : step kind R s a = some s') : Lost s' := by
  unfold Lost at h ⊢
  rcases step_bytes hs with ⟨-, cs, hchunks, hhanded⟩ | ⟨-, c, hchunks, hhanded⟩
  · rw [hchunks, hhanded, List.length_append, List.length_append]
    omega
  · rw [hchunks, hhanded, List.length_append]
    omega

/-- **All the received bytes are handed over iff no callback raises.** -/
theorem handed_iff {s₀ : σ} {as : List (Action E)}
    (h : Trans.run (step kind R) { consumer := s₀ } as = some s) :
    Trans.Meets (step kind R) CallbackReturns { consumer := s₀ } as ↔ s.handed = s.chunks := by
  have hiff := Trans.meets_iff CallbackReturns (fun s => s.handed = s.chunks) Lost
    (fun _ => not_lost) (fun _ _ _ => handed_step) (fun _ _ _ => lost_step)
    (fun _ _ _ => lost_stays) rfl h
  have heither : s.handed = s.chunks ∨ Lost s := by
    refine Trans.run_inv (I := fun s => s.handed = s.chunks ∨ Lost s) (fun s a s' hi hs => ?_)
      (Or.inl rfl) h
    rcases hi with hi | hi
    · by_cases hok : CallbackReturns s a
      · exact Or.inl (handed_step hi hok hs)
      · exact Or.inr (lost_step hi hok hs)
    · exact Or.inr (lost_stays hi hs)
  rw [hiff]
  exact ⟨fun hnot => heither.resolve_right hnot, not_lost⟩

end

/-! ## What the calls obtain -/

section
variable {kind : Kind} {R : Receiver σ P ι} {Ok : σ → Prop} {s₀ : σ} {s s' : State σ P ι E}

/-- The calls have given the chunks to the consumer, and passed on its results; a call that reads
    has taken everything before, and offers the place again when it is asked again. -/
structure Inv (R : Receiver σ P ι) (s₀ : σ) (s : State σ P ι E) : Prop where
  fed : R.feeder.Fed s₀ s.chunks s.results s.consumer
  call : ∀ call, s.call = some call → R.feeder.take s.consumer = (none, s.consumer) ∧
    R.feeder.offer s.consumer = (.ok call.buffer, s.consumer)

theorem results_finish (s : State σ P ι E) (outcome : Outcome P ι E) :
    (s.finish outcome).results = s.results ++ outcome.result?.toList := by
  unfold State.results State.finish
  rw [List.filterMap_append]
  cases outcome <;> rfl

theorem inv_finish {outcome : Outcome P ι E}
    (h : R.feeder.Fed s₀ s.chunks (s.results ++ outcome.result?.toList) s.consumer) :
    Inv R s₀ (s.finish outcome) where
  fed := by
    rw [results_finish]
    exact h
  call := nofun

/-- A call ends without a result. -/
theorem inv_finish_none {outcome : Outcome P ι E}
    (h : R.feeder.Fed s₀ s.chunks s.results s.consumer) (hnone : outcome.result? = none) :
    Inv R s₀ (s.finish outcome) :=
  inv_finish (by rwa [hnone, Option.toList_none, List.append_nil])

theorem inv_read {ancillary : Bool} {timeout : Delay} (hf : R.feeder.Lawful Ok) (h₀ : Ok s₀)
    (h : R.feeder.Fed s₀ s.chunks s.results s.consumer)
    (htake : R.feeder.take s.consumer = (none, s.consumer)) :
    Inv R s₀ (s.read R ancillary timeout) := by
  unfold State.read
  split
  · exact inv_finish_none h rfl
  split
  · next hoffer => exact inv_finish (.refused h htake hoffer)
  · next hoffer =>
    obtain ⟨htake', hoffer'⟩ := hf.offer_ok (h.ok hf h₀) htake hoffer
    refine ⟨.offered h htake hoffer, fun call hcall => ?_⟩
    cases hcall
    exact ⟨htake', hoffer'⟩

theorem inv_start {ancillary : Bool} {timeout : Delay} (hf : R.feeder.Lawful Ok) (h₀ : Ok s₀)
    (h : R.feeder.Fed s₀ s.chunks s.results s.consumer) : Inv R s₀ (s.start R ancillary timeout) := by
  unfold State.start
  split
  · next htake => exact inv_finish (.took h htake)
  · next htake => exact inv_read hf h₀ (.drained h htake) (hf.take_none (h.ok hf h₀) htake)

/-- A chunk is handed over; the call goes on from a state in which there is nothing to take. -/
theorem inv_hand {call : Call} {chunk : Bytes} {otherwise : State σ P ι E → State σ P ι E}
    (hf : R.feeder.Lawful Ok) (h₀ : Ok s₀) (h : Inv R s₀ s) (hcall : s.call = some call)
    (hother : ∀ s : State σ P ι E, R.feeder.Fed s₀ s.chunks s.results s.consumer →
      R.feeder.take s.consumer = (none, s.consumer) → Inv R s₀ (otherwise s)) :
    Inv R s₀ ({ s with chunks := s.chunks ++ [chunk] }.hand R call chunk otherwise) := by
  obtain ⟨htake, hoffer⟩ := h.call call hcall
  unfold State.hand
  dsimp only
  split
  · next hgive => exact inv_finish (.gave h.fed htake hoffer hgive)
  · next consumer hgive =>
    refine hother _ ?_ (hf.give_none (h.fed.ok hf h₀) hgive)
    have hgave := Feeder.Fed.gave h.fed htake hoffer hgive
    rwa [Option.toList_none, List.append_nil] at hgave

theorem step_inv {a : Action E} (hf : R.feeder.Lawful Ok) (h₀ : Ok s₀) (h : Inv R s₀ s)
    (hok : CallbackReturns s a) (hs : step kind R s a = some s') : Inv R s₀ s' := by
  cases a with
  | receive timeout =>
    simp only [step] at hs
    split at hs <;> cases hs
    exact inv_start hf h₀ h.fed
  | receiveWithAncillary timeout =>
    simp only [step] at hs
    split at hs
    · split_ifs at hs <;> cases hs
      · exact inv_finish_none h.fed rfl
      · exact inv_start hf h₀ h.fed
    · cases hs
  | received chunk elapsed callback =>
    simp only [step] at hs
    split at hs
    · next call hcall =>
      split_ifs at hs with hlen hanc <;> cases hs
      · rw [hok call hcall hanc]
        exact inv_hand hf h₀ h hcall fun s hfed _ => inv_finish_none hfed rfl
      · refine inv_hand hf h₀ h hcall fun s hfed htake => ?_
        split
        · exact inv_read hf h₀ hfed htake
        · exact inv_finish_none hfed rfl
    · cases hs
  | endOfStream =>
    simp only [step] at hs
    split at hs <;> cases hs
    cases kind <;> exact inv_finish_none h.fed rfl
  | raises exc disconnected =>
    simp only [step] at hs
    split at hs <;> cases hs
    cases kind with
    | syncEndpoint | asyncEndpoint => exact inv_finish_none h.fed rfl
    | server => exact inv_finish_none h.fed (by split <;> rfl)

theorem Inv.init (R : Receiver σ P ι) (s₀ : σ) :
    Inv R s₀ ({ consumer := s₀ } : State σ P ι E) where
  fed := .start
  call := nofun

end

/-- What the calls of a receiver obtain, from a consumer in the state `s₀`. -/
structure KeepsBytes (E : Type) (kind : Kind) (R : Receiver σ P ι) (s₀ : σ) : Prop where
  /-- all the received bytes are handed to the consumer iff no callback raises -/
  handed : ∀ {as : List (Action E)} {s}, Trans.run (step kind R) { consumer := s₀ } as = some s →
    (Trans.Meets (step kind R) CallbackReturns { consumer := s₀ } as ↔ s.handed = s.chunks)
  /-- the results are then what the received chunks give, up to those that are still to be taken -/
  exact : ∀ {as : List (Action E)} {s}, Trans.run (step kind R) { consumer := s₀ } as = some s →
    Trans.Meets (step kind R) CallbackReturns { consumer := s₀ } as → ∀ rs buffer c,
      R.feeder.Feeds s₀ s.chunks rs buffer c ↔
        ∃ ws, R.feeder.Ready s.consumer ws buffer c ∧ rs = s.results ++ ws

theorem keepsBytes {kind : Kind} {R : Receiver σ P ι} {Ok : σ → Prop} {s₀ : σ}
    (hf : R.feeder.Lawful Ok) (h₀ : Ok s₀) : KeepsBytes E kind R s₀ where
  handed := handed_iff
  exact hrun hok _ _ _ :=
    have hinv := Trans.run_inv_of (fun _ _ _ hi hok hs => step_inv hf h₀ hi hok hs) (.init R s₀) hok
      hrun
    hinv.fed.feeds_iff hf h₀

/-- **The calls obtain the packets of all the received bytes in every run in which no callback raises,
    and in no other run have the bytes all been handed to the consumer.** -/
theorem bytes_kept_iff {σ' : Type} (kind : Kind) (proto : StreamProtocol σ P ι) (maxRecvSize : ℕ)
    (buffered : BufferedStreamProtocol σ' P ι) (bufferSizeHint : ℕ) :
    KeepsBytes E kind (dataReceiver proto maxRecvSize) .init ∧
      KeepsBytes E kind (bufferedReceiver buffered) (.init bufferSizeHint) :=
  ⟨keepsBytes (dataReceiver_lawful proto maxRecvSize) trivial,
    keepsBytes (bufferedReceiver_lawful buffered) fun _ => rfl⟩

/-- Lines of bytes. -/
def lines : AutoSeparatedPacketSerializer Bytes Unit :=
  .raw [10] 64 (by decide) (Nat.zero_lt_succ 63)

/-- Two lines are received with ancillary data, the second one with the beginning of another. -/
theorem lines_kept :
    let as : List (Action Unit) := [.receiveWithAncillary 1, .received [97, 10] 0 .returns,
      .receiveWithAncillary 1, .received [98, 10, 99] 0 .returns]
    ∃ s s', Trans.run (step .syncEndpoint (dataReceiver (lines.protocol none) 1024))
        { consumer := .init } as = some s ∧
      Trans.run (step .syncEndpoint (bufferedReceiver (lines.bufferedProtocol none)))
        { consumer := .init 1024 } as = some s' ∧
      s.outcomes = [.result (.packet [97]), .result (.packet [98])] ∧ s'.outcomes = s.outcomes ∧
      s.handed = s.chunks ∧ s'.handed = s'.chunks := by
  intro as
  obtain ⟨hdata, hbuffered⟩ := bytes_kept_iff (E := Unit) .syncEndpoint (lines.protocol none) 1024
    (lines.bufferedProtocol none) 1024
  have hok : ∀ {σ : Type} (a : Action Unit), a ∈ as → ∀ s : State σ Bytes Unit Unit,
      CallbackReturns s a := by
    intro σ a ha s
    simp only [as, List.mem_cons, List.not_mem_nil, or_false] at ha
    rcases ha with rfl | rfl | rfl | rfl
    · trivial
    · exact fun _ _ _ => rfl
    · trivial
    · exact fun _ _ _ => rfl
  have hview : (Trans.run (step .syncEndpoint (dataReceiver (lines.protocol none) 1024))
      { consumer := .init } as).map State.outcomes =
        some [.result (.packet [97]), .result (.packet [98])] := by decide
  have hview' : (Trans.run (step .syncEndpoint (bufferedReceiver (lines.bufferedProtocol none)))
      { consumer := .init 1024 } as).map State.outcomes =
        some [.result (.packet [97]), .result (.packet [98])] := by decide
  obtain ⟨s, hs, houtcomes⟩ := Option.map_eq_some_iff.1 hview
  obtain ⟨s', hs', houtcomes'⟩ := Option.map_eq_some_iff.1 hview'
  exact ⟨s, s', hs, hs', houtcomes, houtcomes'.trans houtcomes.symm,
    (hdata.handed hs).1 (Trans.meets_of_forall hok),
    (hbuffered.handed hs').1 (Trans.meets_of_forall hok)⟩

/-- Two lines are received with ancillary data, and the callback raises at the first. -/
def crashThenLine : List (Action Unit) :=
  [.receiveWithAncillary 1, .received [97, 10] 0 .raises, .receiveWithAncillary 1,
    .received [98, 10] 0 .returns]

/-- The line that came with the ancillary data of the callback that raises is lost. -/
theorem crash_loses_line :
    (∃ s : State _ Bytes Unit Unit, Trans.run (step .syncEndpoint (dataReceiver (lines.protocol none)
        1024)) { consumer := .init } crashThenLine = some s ∧
      s.outcomes = [.crashed, .result (.packet [98])] ∧
      ¬ ∀ rs buffer c, (dataReceiver (lines.protocol none) 1024).feeder.Feeds .init s.chunks rs buffer c ↔
        ∃ ws, (dataReceiver (lines.protocol none) 1024).feeder.Ready s.consumer ws buffer c ∧
          rs = s.results ++ ws) ∧
      (Trans.run (step .syncEndpoint (bufferedReceiver (lines.bufferedProtocol none)))
        ({ consumer := .init 1024 } : State _ Bytes Unit Unit) crashThenLine).map (·.outcomes) =
          some [.crashed, .result (.packet [98])] := by
  refine ⟨⟨_, rfl, rfl, fun h => ?_⟩, by decide⟩
  have hfeeds := Feeder.Feeds.cons (f := (dataReceiver (lines.protocol none) 1024).feeder)
    (s := .init) (c := [97, 10]) (.ready rfl rfl) rfl
    (.cons (c := [98, 10]) (.ready rfl rfl) rfl (.nil (.ready rfl rfl)))
  obtain ⟨ws, -, hws⟩ := (h _ _ _).1 hfeeds
  -- both lines have been received, the calls have obtained the second one
  have hlines : ([.packet [97], .packet [98]] : List (NextResult Bytes Unit)) =
    [.packet [98]] ++ ws := hws
  simp at hlines

end AncillaryReceive

end EasyNetwork
