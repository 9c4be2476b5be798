/-
  What the calls of `recv_packet()` obtain from a stream.

  `recv_packet_undisturbed`: the calls obtain, one after the other, what a caller obtains who feeds the
  consumer directly with the chunks that have been received, whatever calls time out in between; a
  call reads, and times out, only when nothing complete is left, and a read that times out leaves all
  as it is; and after the end of the stream the calls give what is already complete, then always
  `ECONNABORTED`, and none of them reads.
-/
import EasyNetwork.Separated
import EasyNetwork.StreamEndpoint

namespace EasyNetwork

namespace StreamEndpoint

/-! ## The consumers -/

section
variable {σ P ι : Type}

theorem dataReceiver_take {proto : StreamProtocol σ P ι} {n : ℕ} {st : StreamDataConsumer σ}
    (h : st.buffer = []) : (dataReceiver proto n).take st = (none, st) := by
  show ((st.next proto none).1.result?, (st.next proto none).2) = (none, st)
  unfold StreamDataConsumer.next
  rw [h]
  rfl

theorem buffer_of_send {proto : StreamProtocol σ P ι} {consumer : σ} {chunk : Bytes}
    (h : (StreamDataConsumer.send proto consumer chunk).1.result? = none) :
    (StreamDataConsumer.send proto consumer chunk).2.buffer = [] := by
  unfold StreamDataConsumer.send at h ⊢
  split at h
  · cases h
  · cases h
  · rfl
  · rfl

/-- When the consumer raises `StopIteration`, it has no bytes left. -/
theorem buffer_of_stopIteration {proto : StreamProtocol σ P ι} {st : StreamDataConsumer σ}
    {chunk : Option Bytes} (h : (st.next proto chunk).1.result? = none) :
    (st.next proto chunk).2.buffer = [] := by
  simp only [StreamDataConsumer.next] at h ⊢
  split at h
  · next hempty =>
    rw [if_pos hempty]
    exact (List.append_eq_nil_iff.1 hempty).1
  · next hempty =>
    rw [if_neg hempty]
    split at h
    · exact buffer_of_send h
    · split at h
      · exact buffer_of_send h
      · cases h
      · cases h

theorem dataReceiver_lawful (proto : StreamProtocol σ P ι) (n : ℕ) :
    (dataReceiver proto n).Lawful fun _ => True where
  ok_take _ _ := trivial
  ok_offer _ _ := trivial
  ok_give _ _ := trivial
  take_none {s s'} _ h := by
    obtain ⟨h1, h2⟩ := Prod.mk.inj h
    exact dataReceiver_take (h2 ▸ buffer_of_stopIteration h1)
  give_none {s s' b c} _ h := by
    obtain ⟨h1, h2⟩ := Prod.mk.inj h
    exact dataReceiver_take (h2 ▸ buffer_of_stopIteration h1)
  offer_ok {s s' b} _ htake hoffer := by
    cases hoffer
    exact ⟨htake, rfl⟩

/-- A consumer without a generator has no bytes that are written already. -/
def Fresh (st : BufferedStreamDataConsumer σ) : Prop := st.consumer = none → st.alreadyWritten = 0

variable {proto : BufferedStreamProtocol σ P ι} {st : BufferedStreamDataConsumer σ}

theorem fresh_of_isSome (h : st.consumer.isSome = true) : Fresh st := by
  intro hnone
  rw [hnone] at h
  cases h

theorem withConsumer_keeps (proto : BufferedStreamProtocol σ P ι)
    (st : BufferedStreamDataConsumer σ) (buffer : Bytes) :
    (st.withConsumer proto buffer).2.alreadyWritten = st.alreadyWritten ∧
      ((st.withConsumer proto buffer).1 = .ok () ∨ st.consumer.isSome = true →
        (st.withConsumer proto buffer).2.consumer.isSome = true) := by
  unfold BufferedStreamDataConsumer.withConsumer
  split
  · next hconsumer => exact ⟨rfl, fun _ => by rw [hconsumer]; rfl⟩
  · next hconsumer =>
    have hnone : ¬ st.consumer.isSome = true := by rw [hconsumer]; nofun
    split
    · exact ⟨rfl, fun _ => rfl⟩
    · exact ⟨rfl, fun h => absurd (h.resolve_left nofun) hnone⟩
    · exact ⟨rfl, fun h => absurd (h.resolve_left nofun) hnone⟩

/-- A new write buffer leaves the number of written bytes alone, and has a generator. -/
theorem newWriteBuffer_keeps {r : Except String ℕ} {st' : BufferedStreamDataConsumer σ}
    (h : st.newWriteBuffer proto = (r, st')) :
    st'.alreadyWritten = st.alreadyWritten ∧
      ((∃ start, r = .ok start) ∨ st.consumer.isSome = true → st'.consumer.isSome = true) := by
  unfold BufferedStreamDataConsumer.newWriteBuffer at h
  split at h
  · cases h
    exact ⟨rfl, fun h => h.resolve_left nofun⟩
  next buffer st₁ hbuffer =>
  -- the buffer is not the generator
  have hst : st₁.alreadyWritten = st.alreadyWritten ∧ st₁.consumer = st.consumer := by
    unfold BufferedStreamDataConsumer.withBuffer at hbuffer
    split at hbuffer
    · cases hbuffer
      exact ⟨rfl, rfl⟩
    · split at hbuffer
      · cases hbuffer
      · dsimp only at hbuffer
        split at hbuffer <;> cases hbuffer
        exact ⟨rfl, rfl⟩
  obtain ⟨hwritten, hconsumer⟩ := withConsumer_keeps proto st₁ buffer
  split at h
  · next heq =>
    rw [heq] at hwritten hconsumer
    cases h
    refine ⟨hwritten.trans hst.1, fun h => hconsumer (.inr ?_)⟩
    rw [hst.2]
    exact h.resolve_left nofun
  · next heq =>
    rw [heq] at hwritten hconsumer
    dsimp only at h
    split at h <;> cases h
    all_goals exact ⟨hwritten.trans hst.1, fun _ => hconsumer (.inl rfl)⟩

theorem fresh_saveRemainder {remaining : Bytes} {r : Except String Unit}
    {st' : BufferedStreamDataConsumer σ} (h0 : st.alreadyWritten = 0)
    (h : st.saveRemainderInBuffer proto remaining = (r, st')) : Fresh st' := by
  unfold BufferedStreamDataConsumer.saveRemainderInBuffer at h
  split at h
  · cases h
    exact fun _ => h0
  split at h
  · next hnew =>
    cases h
    exact fun _ => (newWriteBuffer_keeps hnew).1.trans h0
  · next st₁ hnew =>
    have hsome : st₁.consumer.isSome = true := (newWriteBuffer_keeps hnew).2 (.inl ⟨_, rfl⟩)
    split at h <;> cases h
    · exact fresh_of_isSome hsome
    · exact fresh_of_isSome hsome

theorem fresh_saveThen {remaining : Bytes} {r r' : NextResult P ι}
    {st' : BufferedStreamDataConsumer σ} (h0 : st.alreadyWritten = 0)
    (h : st.saveThen proto remaining r = (r', st')) :
    Fresh st' ∧ (r' = r ∨ ∃ message, r' = .raised message) := by
  unfold BufferedStreamDataConsumer.saveThen at h
  split at h
  · next hsave =>
    cases h
    exact ⟨fresh_saveRemainder h0 hsave, .inl rfl⟩
  · next hsave =>
    cases h
    exact ⟨fresh_saveRemainder h0 hsave, .inr ⟨_, rfl⟩⟩

/-- What `consumer.send()` leaves. -/
theorem send_keeps {consumer : σ} {n : ℕ} {r : NextResult P ι} {st' : BufferedStreamDataConsumer σ}
    (h0 : st.alreadyWritten = 0) (h : st.send proto consumer n = (r, st')) :
    Fresh st' ∧ (r.result? = none → st'.alreadyWritten = 0) := by
  unfold BufferedStreamDataConsumer.send at h
  dsimp only at h
  split at h
  · obtain ⟨hfresh, hr⟩ := fresh_saveThen (by exact h0) h
    refine ⟨hfresh, fun hnone => ?_⟩
    rcases hr with rfl | ⟨_, rfl⟩ <;> cases hnone
  · obtain ⟨hfresh, hr⟩ := fresh_saveThen (by exact h0) h
    refine ⟨hfresh, fun hnone => ?_⟩
    rcases hr with rfl | ⟨_, rfl⟩ <;> cases hnone
  · cases h
    exact ⟨fun _ => h0, fun _ => h0⟩
  · cases h
    exact ⟨fun _ => h0, fun _ => h0⟩

/-- `next` after its check: asking once more changes nothing. -/
theorem nextChecked_keeps {n : ℕ} {r : NextResult P ι} {st' : BufferedStreamDataConsumer σ}
    (hst : Fresh st) (h : st.nextChecked proto n = (r, st')) :
    Fresh st' ∧ (r.result? = none → st'.alreadyWritten = 0) := by
  unfold BufferedStreamDataConsumer.nextChecked at h
  split at h
  · next hnone =>
    cases h
    exact ⟨hst, fun _ => hst hnone⟩
  · dsimp only at h
    split at h
    · cases h
      exact ⟨fun _ => rfl, fun _ => rfl⟩
    · exact send_keeps (by rfl) h

theorem next_keeps {n : Option ℕ} {r : NextResult P ι} {st' : BufferedStreamDataConsumer σ}
    (hst : Fresh st) (h : st.next proto n = (r, st')) :
    Fresh st' ∧ (r.result? = none → st'.alreadyWritten = 0) := by
  unfold BufferedStreamDataConsumer.next at h
  split at h
  · exact nextChecked_keeps hst h
  split at h
  · cases h
    exact ⟨hst, nofun⟩
  split at h
  · exact nextChecked_keeps hst h
  · cases h
    exact ⟨hst, nofun⟩

theorem getWriteBuffer_keeps {r : Except String ℕ} {st' : BufferedStreamDataConsumer σ}
    (hst : Fresh st) (h : st.getWriteBuffer proto = (r, st')) :
    Fresh st' ∧ st'.alreadyWritten = st.alreadyWritten ∧
      ∀ start, r = .ok start → st'.getWriteBuffer proto = (.ok start, st') := by
  unfold BufferedStreamDataConsumer.getWriteBuffer at h
  split at h
  · next hview =>
    cases h
    refine ⟨hst, rfl, fun start hstart => ?_⟩
    cases hstart
    unfold BufferedStreamDataConsumer.getWriteBuffer
    rw [hview]
  split at h
  · next hnew =>
    obtain ⟨hwritten, hsome⟩ := newWriteBuffer_keeps hnew
    cases h
    refine ⟨fun _ => ?_, hwritten, nofun⟩
    by_cases hconsumer : st.consumer = none
    · exact hwritten.trans (hst hconsumer)
    · have hsome' := hsome (.inr (Option.isSome_iff_ne_none.2 hconsumer))
      exact fresh_of_isSome hsome' (by assumption)
  · next hnew =>
    obtain ⟨hwritten, hsome⟩ := newWriteBuffer_keeps hnew
    cases h
    refine ⟨fresh_of_isSome (hsome (.inl ⟨_, rfl⟩)), hwritten, fun start hstart => ?_⟩
    cases hstart
    rfl

/-- Nothing is there to be taken from a consumer that has no written bytes. -/
theorem bufferedReceiver_take (h : st.alreadyWritten = 0) :
    (bufferedReceiver proto).take st = (none, st) := by
  show ((st.nextChecked proto 0).1.result?, (st.nextChecked proto 0).2) = (none, st)
  unfold BufferedStreamDataConsumer.nextChecked
  split
  · rfl
  · rw [h]
    show (none, { st with alreadyWritten := 0 }) = (none, st)
    rw [← h]

theorem bufferedReceiver_offer {buffer : WriteBuffer} {st' : BufferedStreamDataConsumer σ}
    (h : (bufferedReceiver proto).offer st = (.ok buffer, st')) :
    st.getWriteBuffer proto = (.ok buffer.start, st') ∧ buffer.nbytes = st'.nbytes buffer.start := by
  unfold bufferedReceiver at h
  dsimp only at h
  split at h <;> cases h
  next heq => exact ⟨heq, rfl⟩

theorem bufferedReceiver_offer_ok {start : ℕ} {st' : BufferedStreamDataConsumer σ}
    (h : st.getWriteBuffer proto = (.ok start, st')) :
    (bufferedReceiver proto).offer st = (.ok ⟨start, st'.nbytes start⟩, st') := by
  unfold bufferedReceiver
  dsimp only
  rw [h]

theorem bufferedReceiver_take_keeps {r : Option (NextResult P ι)}
    {st' : BufferedStreamDataConsumer σ} (hst : Fresh st)
    (h : (bufferedReceiver proto).take st = (r, st')) :
    Fresh st' ∧ (r = none → st'.alreadyWritten = 0) := by
  change ((st.next proto none).1.result?, (st.next proto none).2) = (r, st') at h
  obtain ⟨rfl, rfl⟩ := Prod.mk.inj h
  exact next_keeps hst Prod.mk.eta.symm

theorem bufferedReceiver_give_keeps {buffer : WriteBuffer} {chunk : Bytes}
    {r : Option (NextResult P ι)} {st' : BufferedStreamDataConsumer σ} (hst : Fresh st)
    (h : (bufferedReceiver proto).give st buffer chunk = (r, st')) :
    Fresh st' ∧ (r = none → st'.alreadyWritten = 0) := by
  change (((st.write buffer.start chunk).next proto (some chunk.length)).1.result?,
    ((st.write buffer.start chunk).next proto (some chunk.length)).2) = (r, st') at h
  obtain ⟨rfl, rfl⟩ := Prod.mk.inj h
  have hwritten : Fresh (st.write buffer.start chunk) := hst
  exact next_keeps hwritten Prod.mk.eta.symm

theorem bufferedReceiver_lawful (proto : BufferedStreamProtocol σ P ι) :
    (bufferedReceiver proto).Lawful Fresh where
  ok_take hok h := (bufferedReceiver_take_keeps hok h).1
  ok_offer {s s' r} hok h := by
    unfold bufferedReceiver at h
    dsimp only at h
    split at h
    all_goals
      next heq =>
      cases h
      exact (getWriteBuffer_keeps hok heq).1
  ok_give hok h := (bufferedReceiver_give_keeps hok h).1
  take_none hok h := bufferedReceiver_take ((bufferedReceiver_take_keeps hok h).2 rfl)
  give_none hok h := bufferedReceiver_take ((bufferedReceiver_give_keeps hok h).2 rfl)
  offer_ok hok htake hoffer := by
    obtain ⟨hget, hnbytes⟩ := bufferedReceiver_offer hoffer
    obtain ⟨-, hwritten, hagain⟩ := getWriteBuffer_keeps hok hget
    -- nothing was there to be taken
    have hzero := (bufferedReceiver_take_keeps hok htake).2 rfl
    refine ⟨bufferedReceiver_take (hwritten.trans hzero), ?_⟩
    rw [bufferedReceiver_offer_ok (hagain _ rfl), ← hnbytes]

end

/-! ## The calls -/

section
variable {σ P ι : Type} {f : Feeder σ Bytes WriteBuffer (NextResult P ι)} {Ok : σ → Prop}
  {s₀ : σ} {s s' : State σ P ι}

/-- The calls have given the chunks to the consumer, and passed on its results; a call that reads
    has taken everything before, and offers the place again when it is asked again. -/
structure Inv (f : Feeder σ Bytes WriteBuffer (NextResult P ι)) (s₀ : σ) (s : State σ P ι) :
    Prop where
  fed : f.Fed s₀ s.chunks s.results s.consumer
  reading : ∀ timeout buffer, s.reading = some (timeout, buffer) →
    f.take s.consumer = (none, s.consumer) ∧ f.offer s.consumer = (.ok buffer, s.consumer) ∧
      s.eofReached = false

theorem results_finish (s : State σ P ι) (outcome : Outcome P ι) :
    (s.finish outcome).results = s.results ++ outcome.result?.toList := by
  unfold State.results State.finish
  rw [List.filterMap_append]
  cases outcome <;> rfl

theorem inv_finish {outcome : Outcome P ι}
    (h : f.Fed s₀ s.chunks (s.results ++ outcome.result?.toList) s.consumer) :
    Inv f s₀ (s.finish outcome) where
  fed := by
    rw [results_finish]
    exact h
  reading := nofun

/-- A call ends without a result. -/
theorem inv_finish_none {outcome : Outcome P ι} (h : f.Fed s₀ s.chunks s.results s.consumer)
    (hnone : outcome.result? = none) : Inv f s₀ (s.finish outcome) :=
  inv_finish (by rwa [hnone, Option.toList_none, List.append_nil])

theorem inv_loop {timeout : Delay} (hf : f.Lawful Ok) (h₀ : Ok s₀)
    (h : f.Fed s₀ s.chunks s.results s.consumer) (htake : f.take s.consumer = (none, s.consumer)) :
    Inv f s₀ (s.loop f timeout) := by
  unfold State.loop
  split
  · exact inv_finish_none h rfl
  next heof =>
  split
  · next hoffer => exact inv_finish (.refused h htake hoffer)
  · next hoffer =>
    obtain ⟨htake', hoffer'⟩ := hf.offer_ok (h.ok hf h₀) htake hoffer
    refine ⟨.offered h htake hoffer, fun timeout buffer hreading => ?_⟩
    cases hreading
    exact ⟨htake', hoffer', Bool.eq_false_iff.2 heof⟩

theorem inv_receive {timeout : Delay} (hf : f.Lawful Ok) (h₀ : Ok s₀)
    (h : f.Fed s₀ s.chunks s.results s.consumer) : Inv f s₀ (s.receive f timeout) := by
  unfold State.receive
  split
  · next htake => exact inv_finish (.took h htake)
  · next htake => exact inv_loop hf h₀ (.drained h htake) (hf.take_none (h.ok hf h₀) htake)

theorem inv_received {timeout : Delay} {buffer : WriteBuffer} {chunk : Bytes} {elapsed : ℚ}
    (hf : f.Lawful Ok) (h₀ : Ok s₀) (h : Inv f s₀ s)
    (hreading : s.reading = some (timeout, buffer)) :
    Inv f s₀ (s.received f timeout buffer chunk elapsed) := by
  obtain ⟨htake, hoffer, -⟩ := h.reading timeout buffer hreading
  unfold State.received
  dsimp only
  split
  · next hgive => exact inv_finish (.gave h.fed htake hoffer hgive)
  next consumer hgive =>
  have hfed : f.Fed s₀ (s.chunks ++ [chunk]) s.results consumer := by
    have hgave := Feeder.Fed.gave h.fed htake hoffer hgive
    rwa [Option.toList_none, List.append_nil] at hgave
  have htake' := hf.give_none (h.fed.ok hf h₀) hgive
  split
  · exact inv_loop hf h₀ hfed htake'
  split
  · exact inv_finish_none hfed rfl
  · exact inv_loop hf h₀ hfed htake'

theorem step_inv {a : Action} (hf : f.Lawful Ok) (h₀ : Ok s₀) (h : Inv f s₀ s)
    (hs : step f s a = some s') : Inv f s₀ s' := by
  cases a with
  | recvPacket timeout =>
    simp only [step] at hs
    split at hs <;> cases hs
    exact inv_receive hf h₀ h.fed
  | received chunk elapsed =>
    simp only [step] at hs
    split at hs
    · next hreading =>
      split at hs <;> cases hs
      exact inv_received hf h₀ h hreading
    · cases hs
  | endOfStream =>
    simp only [step] at hs
    split at hs <;> cases hs
    next hreading => exact inv_loop hf h₀ h.fed (h.reading _ _ hreading).1
  | timesOut =>
    simp only [step] at hs
    split at hs <;> cases hs
    exact inv_finish_none h.fed rfl

theorem Inv.init (f : Feeder σ Bytes WriteBuffer (NextResult P ι)) (s₀ : σ) :
    Inv f s₀ { consumer := s₀ } where
  fed := .start
  reading := nofun

/-! ## Timeouts -/

theorem outcomes_loop (f : Feeder σ Bytes WriteBuffer (NextResult P ι)) (s : State σ P ι)
    (timeout : Delay) :
    (s.loop f timeout).outcomes = s.outcomes ∨
      ∃ outcome ≠ .timedOut, (s.loop f timeout).outcomes = s.outcomes ++ [outcome] := by
  unfold State.loop
  split
  · exact .inr ⟨.connectionAborted, by rintro ⟨⟩, rfl⟩
  split
  · exact .inr ⟨.result _, by rintro ⟨⟩, rfl⟩
  · exact .inl rfl

/-- The loop reads on, or ends with a result or `ECONNABORTED`. -/
theorem not_timedOut_loop {timeout : Delay} :
    (s.loop f timeout).outcomes ≠ s.outcomes ++ [.timedOut] := by
  intro h
  rcases outcomes_loop f s timeout with hsame | ⟨outcome, hne, hlast⟩
  · exact absurd (hsame.symm.trans h) (by simp)
  · have heq := List.append_cancel_left (hlast.symm.trans h)
    cases heq
    exact hne rfl

/-- A call that times out leaves nothing complete in the consumer. -/
theorem take_of_timedOut {a : Action} (hf : f.Lawful Ok) (h₀ : Ok s₀) (h : Inv f s₀ s)
    (hs : step f s a = some s') (houtcomes : s'.outcomes = s.outcomes ++ [.timedOut]) :
    f.take s'.consumer = (none, s'.consumer) := by
  cases a with
  | recvPacket timeout =>
    simp only [step] at hs
    split at hs <;> cases hs
    unfold State.receive at houtcomes
    split at houtcomes
    · cases List.append_cancel_left houtcomes
    · exact absurd houtcomes not_timedOut_loop
  | received chunk elapsed =>
    simp only [step] at hs
    split at hs
    · next timeout buffer hreading =>
      split at hs <;> cases hs
      unfold State.received at houtcomes ⊢
      dsimp only at houtcomes ⊢
      split at houtcomes
      · cases List.append_cancel_left houtcomes
      · next hgive =>
        have htake := hf.give_none (h.fed.ok hf h₀) hgive
        split at houtcomes
        · exact absurd houtcomes not_timedOut_loop
        split at houtcomes
        · next hzero hlt =>
          rw [if_neg hzero, if_pos hlt]
          exact htake
        · exact absurd houtcomes not_timedOut_loop
    · cases hs
  | endOfStream =>
    simp only [step] at hs
    split at hs <;> cases hs
    exact absurd houtcomes not_timedOut_loop
  | timesOut =>
    simp only [step] at hs
    split at hs <;> cases hs
    next hreading => exact (h.reading _ _ hreading).1

/-! ## The end of the stream -/

/-- Results that are taken one after the other. -/
inductive Takes (f : Feeder σ Bytes WriteBuffer (NextResult P ι)) : σ → List (NextResult P ι) → σ → Prop
  | nil {c} : Takes f c [] c
  | cons {c c₁ c₂ r rs} : f.take c = (some r, c₁) → Takes f c₁ rs c₂ → Takes f c (r :: rs) c₂

theorem takes_of_none {c c' : σ} {rs : List (NextResult P ι)} (h : f.take c = (none, c))
    (htakes : Takes f c rs c') : rs = [] ∧ c' = c := by
  cases htakes with
  | nil => exact ⟨rfl, rfl⟩
  | cons htake _ => exact nomatch h.symm.trans htake

/-- From one state after the end of the stream to a later one: nothing is read, and the calls give
    what is complete, then `ECONNABORTED`. -/
structure Ended (f : Feeder σ Bytes WriteBuffer (NextResult P ι)) (calls : ℕ) (s s' : State σ P ι) :
    Prop where
  eofReached : s'.eofReached = true
  reading : s'.reading = none
  reads : s'.reads = s.reads
  chunks : s'.chunks = s.chunks
  outcomes : ∃ rs n c, s'.outcomes = s.outcomes ++ (rs.map .result ++ List.replicate n .connectionAborted) ∧
    calls = rs.length + n ∧ Takes f s.consumer rs c ∧
    (n = 0 ∧ s'.consumer = c ∨ f.take c = (none, s'.consumer))

theorem ended_run {as : List Action} (hf : f.Lawful Ok) (hok : Ok s.consumer)
    (heof : s.eofReached = true) (hreading : s.reading = none)
    (h : Trans.run (step f) s as = some s') : Ended f as.length s s' := by
  induction as generalizing s with
  | nil =>
    cases h
    exact ⟨heof, hreading, rfl, rfl, [], 0, _, (List.append_nil _).symm, rfl, .nil,
      .inl ⟨rfl, rfl⟩⟩
  | cons a as ih =>
    obtain ⟨m, hm, hrun⟩ := Trans.run_cons_iff.1 h
    cases a with
    | recvPacket timeout =>
      simp only [step, hreading] at hm
      cases hm
      unfold State.receive at hrun
      split at hrun
      · next r c htake =>
        have hended := ih (by exact hf.ok_take hok htake) (by exact heof) (by rfl) hrun
        obtain ⟨rs, n, c', houtcomes, hcalls, htakes, hlast⟩ := hended.outcomes
        refine ⟨hended.eofReached, hended.reading, hended.reads, hended.chunks, r :: rs, n, c', ?_,
          ?_, .cons htake htakes, hlast⟩
        · rw [houtcomes]
          exact List.append_assoc _ _ _
        · rw [List.length_cons, List.length_cons, hcalls]
          omega
      · next c htake =>
        unfold State.loop at hrun
        rw [if_pos heof] at hrun
        have hnone := hf.take_none hok htake
        have hended := ih (by exact hf.ok_take hok htake) (by exact heof) (by rfl) hrun
        obtain ⟨rs, n, c', houtcomes, hcalls, htakes, hlast⟩ := hended.outcomes
        obtain ⟨rfl, rfl⟩ := takes_of_none hnone htakes
        refine ⟨hended.eofReached, hended.reading, hended.reads, hended.chunks, [], n + 1,
          s.consumer, ?_, ?_, .nil, .inr ?_⟩
        · rw [houtcomes, List.replicate_succ]
          exact List.append_assoc _ _ _
        · rw [List.length_cons, hcalls]
          simp only [List.length_nil, Nat.zero_add]
        · rcases hlast with ⟨-, hlast⟩ | hlast
          · rw [hlast]
            exact htake
          · rw [htake, (Prod.mk.inj (hnone.symm.trans hlast)).2]
    | received _ _ | endOfStream | timesOut =>
      simp only [step, hreading] at hm
      cases hm

/-! ## The endpoints -/

/-- What the calls of `recv_packet()` obtain, from a consumer in the state `s₀`. -/
structure Undisturbed (f : Feeder σ Bytes WriteBuffer (NextResult P ι)) (s₀ : σ) : Prop where
  /-- the calls of the consumer are those of a caller who feeds it with the chunks -/
  fed : ∀ {as s}, Trans.run (step f) { consumer := s₀ } as = some s →
    f.Fed s₀ s.chunks s.results s.consumer
  /-- the results are what the chunks give, up to those that are still to be taken -/
  exact : ∀ {as s}, Trans.run (step f) { consumer := s₀ } as = some s → ∀ rs buffer c,
    f.Feeds s₀ s.chunks rs buffer c ↔ ∃ ws, f.Ready s.consumer ws buffer c ∧ rs = s.results ++ ws
  /-- a call reads only when nothing complete is left in the consumer -/
  reading : ∀ {as s}, Trans.run (step f) { consumer := s₀ } as = some s → ∀ timeout buffer,
    s.reading = some (timeout, buffer) →
    f.take s.consumer = (none, s.consumer) ∧ f.Feeds s₀ s.chunks s.results buffer s.consumer
  /-- nor is anything when a call has timed out -/
  timedOut : ∀ {as s}, Trans.run (step f) { consumer := s₀ } as = some s → ∀ a s',
    step f s a = some s' → s'.outcomes = s.outcomes ++ [.timedOut] →
    f.take s'.consumer = (none, s'.consumer)
  /-- a read that times out changes nothing -/
  timeout : ∀ {s s' : State σ P ι}, step f s .timesOut = some s' → s'.consumer = s.consumer ∧
    s'.chunks = s.chunks ∧ s'.results = s.results ∧ s'.outcomes = s.outcomes ++ [.timedOut]
  /-- after the end of the stream -/
  ended : ∀ {as s}, Trans.run (step f) { consumer := s₀ } as = some s → s.eofReached = true →
    s.reading = none ∧ ∀ {bs s'}, Trans.run (step f) s bs = some s' → Ended f bs.length s s'

theorem undisturbed (hf : f.Lawful Ok) (h₀ : Ok s₀) : Undisturbed f s₀ := by
  have hinv : ∀ {as s}, Trans.run (step f) { consumer := s₀ } as = some s → Inv f s₀ s :=
    fun hrun => Trans.run_inv (fun _ _ _ hi hs => step_inv hf h₀ hi hs) (.init f s₀) hrun
  constructor
  case fed => exact fun hrun => (hinv hrun).fed
  case exact => exact fun hrun rs buffer c => (hinv hrun).fed.feeds_iff hf h₀
  case reading =>
    intro as s hrun timeout buffer hreading
    obtain ⟨htake, hoffer, -⟩ := (hinv hrun).reading timeout buffer hreading
    refine ⟨htake, ((hinv hrun).fed.feeds_iff hf h₀).2 ⟨[], .ready htake hoffer, ?_⟩⟩
    rw [List.append_nil]
  case timedOut => exact fun hrun a s' hs houtcomes => take_of_timedOut hf h₀ (hinv hrun) hs houtcomes
  case timeout =>
    intro s s' hs
    simp only [step] at hs
    split at hs <;> cases hs
    exact ⟨rfl, rfl, (results_finish _ _).trans (List.append_nil _), rfl⟩
  case ended =>
    intro as s hrun heof
    have hreading : s.reading = none := by
      cases hs : s.reading with
      | none => rfl
      | some call => exact absurd (heof.symm.trans ((hinv hrun).reading _ _ hs).2.2) nofun
    exact ⟨hreading, fun hrun' => ended_run hf ((hinv hrun).fed.ok hf h₀) heof hreading hrun'⟩

end

/-- **Timeouts and the end of the stream do not disturb the packets, whether the chunks are given to
    the consumer or written into its buffer.** -/
theorem recv_packet_undisturbed {σ σ' P ι : Type} (proto : StreamProtocol σ P ι) (maxRecvSize : ℕ)
    (buffered : BufferedStreamProtocol σ' P ι) (bufferSizeHint : ℕ) :
    Undisturbed (dataReceiver proto maxRecvSize) .init ∧
      Undisturbed (bufferedReceiver buffered) (.init bufferSizeHint) :=
  ⟨undisturbed (dataReceiver_lawful proto maxRecvSize) trivial,
    undisturbed (bufferedReceiver_lawful buffered) fun _ => rfl⟩

open AutoSeparatedPacketSerializer in
/-- A line is cut by a timeout; the stream ends in the middle of another line. -/
theorem recv_packet_undisturbed_cut :
    let S := raw [10] 16 (by decide) (by decide)
    let as : List Action := [.recvPacket ((5 : ℚ) : Delay), .received [65] 1, .timesOut,
      .recvPacket ⊤, .received [10, 66] 0, .recvPacket ⊤, .endOfStream]
    let outcomes : List (Outcome Bytes Unit) :=
      [.timedOut, .result (.packet [65]), .connectionAborted]
    ∃ s s', Trans.run (step (dataReceiver (S.protocol none) 8)) { consumer := .init } as = some s ∧
      Trans.run (step (bufferedReceiver (S.bufferedProtocol none))) { consumer := .init 8 } as =
        some s' ∧
      s.outcomes = outcomes ∧ s'.outcomes = outcomes ∧
      (∀ bs t, Trans.run (step (dataReceiver (S.protocol none) 8)) s bs = some t →
        Ended (dataReceiver (S.protocol none) 8) bs.length s t) ∧
      ∀ bs t, Trans.run (step (bufferedReceiver (S.bufferedProtocol none))) s' bs = some t →
        Ended (bufferedReceiver (S.bufferedProtocol none)) bs.length s' t := by
  intro S as outcomes
  obtain ⟨hdata, hbuffered⟩ := recv_packet_undisturbed (S.protocol none) 8 (S.bufferedProtocol none) 8
  have hview : (Trans.run (step (dataReceiver (S.protocol none) 8)) { consumer := .init } as).map
      (fun s => (s.outcomes, s.eofReached)) = some (outcomes, true) := by decide +kernel
  have hview' : (Trans.run (step (bufferedReceiver (S.bufferedProtocol none)))
      { consumer := .init 8 } as).map (fun s => (s.outcomes, s.eofReached)) =
        some (outcomes, true) := by decide +kernel
  obtain ⟨s, hs, houtcomes⟩ := Option.map_eq_some_iff.1 hview
  obtain ⟨s', hs', houtcomes'⟩ := Option.map_eq_some_iff.1 hview'
  obtain ⟨h1, h2⟩ := Prod.mk.inj houtcomes
  obtain ⟨h1', h2'⟩ := Prod.mk.inj houtcomes'
  exact ⟨s, s', hs, hs', h1, h1', fun _ _ hrun => (hdata.ended hs h2).2 hrun,
    fun _ _ hrun => (hbuffered.ended hs' h2').2 hrun⟩

end StreamEndpoint

end EasyNetwork
