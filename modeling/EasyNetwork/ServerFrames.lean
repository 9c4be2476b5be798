/-
  The requests of a client of `AsyncStreamServer` as the frames of its stream.

  `StepCase` says what a step of the coroutine of a client can do, and `Given` what its generator is
  given when the coroutine goes on: nothing, because the transport is read or the coroutine yields
  to the event loop; or a request or an exception; or it is closed.

  `framed_step`: what the generator has been given, with the request that is still to be sent, are
  the frames that the consumer has taken; while the transport is read, the consumer holds a part of
  the next one.
-/
import EasyNetwork.FramedReceive
import EasyNetwork.StreamServerRuns

namespace EasyNetwork

open Framing

namespace StreamServer

variable {σ P ι E ρ : Type} {f : Feeder σ Bytes WriteBuffer (NextResult P ι)} {Ok : σ → Prop}
  {s₀ : σ} {s s' : State σ P ι E} {scope : Option ℕ}

/-! ## What a step can do -/

/-- What is thrown is no request. -/
def Resumption.Throws (x : Resumption P ι E) : Prop :=
  ∀ request, x ≠ .athrow (.consumer (.packet request))

/-- What a call of `next` raises is no request. -/
def Raises (r : Except (Raised P ι E) P) : Prop :=
  ∀ request, r ≠ .error (.consumer (.packet request))

theorem raises_of_result?_eq_none {r : Except (Raised P ι E) P} (h : result? r = none) :
    Raises r := by
  rintro request rfl
  cases h

theorem raises_ok (request : P) : Raises (.ok request : Except (Raised P ι E) P) := by
  rintro _ ⟨⟩

theorem raises_ofNext (r : NextResult P ι) : Raises (ofNext r : Except (Raised P ι E) P) := by
  cases r <;> rintro _ ⟨⟩

/-- A call of `next` ends: the generator is resumed with what the consumer has given, if it has
    given something; or it is closed at the end of the stream. -/
theorem Receiving.finish_cases (h : Receiving s scope) (hrunning : s.Running)
    (r : Except (Raised P ι E) P) : ∃ scopes,
      (∃ x, s.finish scope r = State.resumeGenerator { s with scopes := scopes } x ∧
        x.result? = result? r ∧ (Raises r → x.Throws)) ∨
      r = .error .stopAsyncIteration ∧
        s.finish scope r = State.aclose { s with scopes := scopes } true := by
  obtain ⟨r', scopes, heq, -, -, hsame, hcancel⟩ := exitScope_spec h hrunning (r := r)
  refine ⟨scopes, ?_⟩
  unfold State.finish
  rw [heq]
  dsimp only
  by_cases hr : ∃ msg, r = .error (.cancelledError msg)
  · obtain ⟨msg, rfl⟩ := hr
    rcases hcancel msg rfl with rfl | ⟨rfl, -⟩
    · exact .inl ⟨_, rfl, rfl, by rintro - _ ⟨⟩⟩
    · exact .inl ⟨_, rfl, rfl, by rintro - _ ⟨⟩⟩
  · cases hsame fun msg heq => hr ⟨msg, heq⟩
    cases r with
    | ok request => exact .inl ⟨_, rfl, rfl, by rintro - _ ⟨⟩⟩
    | error exc =>
      cases exc with
      | stopAsyncIteration => exact .inr ⟨rfl, rfl⟩
      | consumer r =>
        refine .inl ⟨_, rfl, rfl, fun hraises request hx => hraises request ?_⟩
        cases hx
        rfl
      | _ => exact .inl ⟨_, rfl, rfl, by rintro - _ ⟨⟩⟩

/-- The generator yields, stops or raises. -/
def Action.isGenerator : Action E → Bool
  | .generatorYields _ _ _ | .generatorStops | .generatorRaises => true
  | _ => false

/-- What a step does. -/
inductive StepCase (f : Feeder σ Bytes WriteBuffer (NextResult P ι)) (s : State σ P ι E) :
    Action E → State σ P ι E → Prop
  /-- only the task and its scopes change, or the transport is closing -/
  | quiet {a} (scopes : CancelScope.State) (isClosing : Bool) : a.isGenerator = false →
      (∀ chunk, a ≠ .received chunk) →
      StepCase f s a { s with scopes := scopes, isClosing := isClosing }
  /-- a call of `next` ends, and the consumer gives nothing -/
  | recvEnds {a scopes scope buffer r} : a.isGenerator = false → (∀ chunk, a ≠ .received chunk) →
      s.point = .recv scope buffer → Receiving { s with scopes := scopes } scope →
      State.Running { s with scopes := scopes } → result? r = none →
      StepCase f s a (State.finish { s with scopes := scopes } scope r)
  /-- the request that the consumer has given is sent -/
  | yielded {scopes scope request} : s.point = .shieldedYield scope request →
      Receiving { s with scopes := scopes } scope → State.Running { s with scopes := scopes } →
      StepCase f s .resume (State.finish { s with scopes := scopes } scope (.ok request))
  | received {scope buffer chunk} : s.point = .recv scope buffer → Receiving s scope → s.Running →
      f.take s.consumer = (none, s.consumer) → f.offer s.consumer = (.ok buffer, s.consumer) →
      chunk ≠ [] → chunk.length ≤ buffer.nbytes →
      StepCase f s (.received chunk) (s.received f scope buffer chunk)
  | yields {timeout i expired s'} : s.point = .generator →
      Receiving { s with generator := .suspended, yields := s.yields + 1 } none →
      State.Running { s with generator := .suspended, yields := s.yields + 1 } →
      State.serve { s with generator := .suspended, yields := s.yields + 1 } f timeout i expired =
        some s' → StepCase f s (.generatorYields timeout i expired) s'
  /-- the generator has ended -/
  | ended {a graceful} : a.isGenerator = true → (∀ chunk, a ≠ .received chunk) →
      (s.point = .generator ∧ (∀ timeout i expired, a ≠ .generatorYields timeout i expired) ∨
        s.point = .aclose graceful) →
      StepCase f s a { s with generator := .closed, point := .ended graceful }

theorem Inv.recv_cases (h : Inv f s₀ s) {buffer : WriteBuffer} (hp : s.point = .recv scope buffer)
    (hrunning : s.Running) {a : Action E} (ha : a.isGenerator = false)
    (hne : ∀ chunk, a ≠ .received chunk) {r : Except (Raised P ι E) P} (hr : result? r = none) :
    StepCase f s a (s.finish scope r) := by
  show StepCase f s a (State.finish { s with scopes := s.scopes } scope r)
  exact .recvEnds ha hne hp (h.recv hp).1 hrunning hr

/-- **A step does one of these.** -/
theorem step_cases (h : Inv f s₀ s) {a : Action E} (hs : step f s a = some s') :
    StepCase f s a s' := by
  cases a with
  | loop a =>
    simp only [step] at hs
    split_ifs at hs
    obtain ⟨scopes, -, rfl⟩ := Option.map_eq_some_iff.1 hs
    exact .quiet scopes s.isClosing rfl (by rintro _ ⟨⟩)
  | code a =>
    simp only [step] at hs
    split at hs
    · split_ifs at hs
      obtain ⟨scopes, -, rfl⟩ := Option.map_eq_some_iff.1 hs
      exact .quiet scopes s.isClosing rfl (by rintro _ ⟨⟩)
    · split_ifs at hs
      obtain ⟨scopes, -, rfl⟩ := Option.map_eq_some_iff.1 hs
      exact .quiet scopes s.isClosing rfl (by rintro _ ⟨⟩)
    · split_ifs at hs
      obtain ⟨scopes, -, rfl⟩ := Option.map_eq_some_iff.1 hs
      exact .quiet scopes s.isClosing rfl (by rintro _ ⟨⟩)
    · cases hs
  | resume =>
    simp only [step] at hs
    split at hs
    · obtain ⟨scopes, -, rfl⟩ := Option.map_eq_some_iff.1 hs
      exact .quiet scopes s.isClosing rfl (by rintro _ ⟨⟩)
    · obtain ⟨scopes, -, rfl⟩ := Option.map_eq_some_iff.1 hs
      exact .quiet scopes s.isClosing rfl (by rintro _ ⟨⟩)
    · next hp =>
      obtain ⟨scopes, hscopes, rfl⟩ := Option.map_eq_some_iff.1 hs
      split
      · next msg hmsg =>
        obtain ⟨-, -, -, hwaiter, hraised⟩ := resume_scopes h.scopes hscopes
        obtain ⟨hshield, -⟩ := hraised.resolve_left (by rw [hmsg]; rintro ⟨⟩)
        exact .recvEnds rfl (by rintro _ ⟨⟩) hp ((h.resumed hscopes).recv hp).1 ⟨hwaiter, hshield⟩
          rfl
      · exact .quiet scopes s.isClosing rfl (by rintro _ ⟨⟩)
    · next hp =>
      obtain ⟨scopes, hscopes, rfl⟩ := Option.map_eq_some_iff.1 hs
      obtain ⟨hreceiving, hrunning⟩ := h.yielded hp hscopes
      exact .yielded hp hreceiving hrunning
    · cases hs
  | generatorYields timeout i expired =>
    have hpoint := h.point
    unfold At at hpoint
    simp only [step] at hs
    split at hs
    swap
    · cases hs
    next hrunning =>
    split at hs
    · next hp =>
      rw [hp] at hpoint
      split_ifs at hs with hstack
      exact .yields hp ⟨h.scopes, h.cancelled, rfl, congrArg (· + 1) hpoint.2, hstack⟩ hrunning hs
    · next hp =>
      cases hs
      exact .ended rfl (by rintro _ ⟨⟩) (.inr hp)
    · cases hs
  | generatorStops =>
    simp only [step] at hs
    split_ifs at hs with hrunning
    split at hs
    · next hp =>
      cases hs
      exact .ended rfl (by rintro _ ⟨⟩) (.inl ⟨hp, by rintro _ _ _ ⟨⟩⟩)
    · next hp =>
      cases hs
      exact .ended rfl (by rintro _ ⟨⟩) (.inr hp)
    · cases hs
  | generatorRaises =>
    simp only [step] at hs
    split_ifs at hs with hrunning
    split at hs
    · next hp =>
      cases hs
      exact .ended rfl (by rintro _ ⟨⟩) (.inl ⟨hp, by rintro _ _ _ ⟨⟩⟩)
    · next hp =>
      cases hs
      exact .ended rfl (by rintro _ ⟨⟩) (.inr hp)
    · cases hs
  | received chunk =>
    simp only [step] at hs
    split at hs
    · next hp =>
      split_ifs at hs with hchunk
      cases hs
      obtain ⟨hreceiving, -, htake, hoffer⟩ := h.recv hp
      exact .received hp hreceiving hchunk.1 htake hoffer hchunk.2.1 hchunk.2.2
    · cases hs
  | endOfStream =>
    simp only [step] at hs
    split at hs
    · next hp =>
      split at hs
      · next hrunning =>
        cases hs
        exact h.recv_cases (a := .endOfStream) hp hrunning rfl (by rintro _ ⟨⟩) rfl
      · cases hs
    · cases hs
  | recvRaises exc disconnected =>
    simp only [step] at hs
    split at hs
    · next hp =>
      split at hs
      · next hrunning =>
        cases hs
        refine h.recv_cases (a := .recvRaises exc disconnected) hp hrunning rfl
          (by rintro _ ⟨⟩) ?_
        cases disconnected <;> rfl
      · cases hs
    · cases hs
  | close =>
    cases hs
    exact .quiet s.scopes true rfl (by rintro _ ⟨⟩)

/-! ## What the generator is given -/

/-- What the generator, which has been given `xs`, is given when the coroutine goes on after a
    `yield`. -/
inductive Given (xs : List (Resumption P ι E)) (s' : State σ P ι E) : Prop
  | nothing : s'.generator = .suspended → s'.resumptions = xs →
      (∀ graceful, s'.point ≠ .aclose graceful) → Given xs s'
  | resumed (x : Resumption P ι E) : s'.generator = .running → s'.point = .generator →
      s'.resumptions = xs ++ [x] → x.Throws → Given xs s'
  | closed (graceful : Bool) : s'.generator = .running → s'.point = .aclose graceful →
      s'.resumptions = xs → Given xs s'

theorem given_aclose (h : s.generator = .suspended) (graceful : Bool) :
    Given s.resumptions (s.aclose graceful) := by
  unfold State.aclose
  rw [h]
  exact .closed graceful rfl rfl rfl

theorem given_finish (h : Receiving s scope) (hrunning : s.Running)
    {r : Except (Raised P ι E) P} (hr : Raises r) : Given s.resumptions (s.finish scope r) := by
  obtain ⟨scopes, ⟨x, heq, -, hx⟩ | ⟨-, heq⟩⟩ := h.finish_cases hrunning r
  · rw [heq]
    exact .resumed x rfl rfl rfl (hx hr)
  · rw [heq]
    exact given_aclose (s := { s with scopes := scopes }) h.generator true

theorem given_read (h : Receiving s scope) (hrunning : s.Running) :
    Given s.resumptions (s.read f scope) := by
  unfold State.read
  split
  · exact .nothing h.generator rfl (by rintro _ ⟨⟩)
  · next r consumer _ => exact given_finish (h.feed consumer s.chunks) hrunning (raises_ofNext r)

theorem given_next (h : Receiving s scope) (hrunning : s.Running) :
    Given s.resumptions (s.next f scope) := by
  unfold State.next
  split
  · next r consumer _ =>
    split
    · exact .nothing h.generator rfl (by rintro _ ⟨⟩)
    · next exc heq =>
      exact given_finish (h.feed consumer s.chunks) hrunning (heq ▸ raises_ofNext r)
  · next consumer _ => exact given_read (h.feed consumer s.chunks) hrunning

theorem given_received (h : Receiving s scope) (hrunning : s.Running) (buffer : WriteBuffer)
    (chunk : Bytes) : Given s.resumptions (s.received f scope buffer chunk) := by
  unfold State.received
  dsimp only
  split
  · next r consumer _ =>
    exact given_finish (h.feed consumer (s.chunks ++ [chunk])) hrunning (raises_ofNext r)
  · next consumer _ => exact given_read (h.feed consumer (s.chunks ++ [chunk])) hrunning

/-- The generator has yielded: what the coroutine goes on with. -/
theorem serve_cases (h : Receiving s none) (hrunning : s.Running) {timeout : Delay} {i : ℕ}
    {expired : Bool} (hs : s.serve f timeout i expired = some s') :
    s' = s.aclose false ∨ (∃ exc, s' = s.resumeGenerator (.athrow (.invalidDelay exc))) ∨
      ∃ scopes scope, Receiving { s with scopes := scopes } scope ∧
        State.Running { s with scopes := scopes } ∧
        s' = State.next { s with scopes := scopes } f scope := by
  unfold State.serve at hs
  split at hs
  · cases hs
    exact .inl rfl
  · split at hs
    · next exc _ =>
      cases hs
      exact .inr (.inl ⟨exc, rfl⟩)
    · split at hs
      · cases hs
        exact .inr (.inr ⟨s.scopes, none, h, hrunning, rfl⟩)
      · obtain ⟨scopes, hscopes, rfl⟩ := Option.map_eq_some_iff.1 hs
        obtain ⟨hinv, hstack, hle, hrunning'⟩ := enter_scopes h.scopes h.stack hscopes
        exact .inr (.inr ⟨scopes, some i, ⟨hinv, fun hzero =>
          h.cancelled (Nat.le_zero.1 (hzero ▸ hle)), h.generator, h.once, hstack⟩, hrunning', rfl⟩)

theorem given_serve (h : Receiving s none) (hrunning : s.Running) {timeout : Delay} {i : ℕ}
    {expired : Bool} (hs : s.serve f timeout i expired = some s') : Given s.resumptions s' := by
  rcases serve_cases h hrunning hs with
    rfl | ⟨exc, rfl⟩ | ⟨scopes, scope, hreceiving, hrunning', rfl⟩
  · exact given_aclose h.generator false
  · exact .resumed _ rfl rfl rfl (by rintro _ ⟨⟩)
  · exact given_next hreceiving hrunning'

/-! ## The chunks -/

theorem chunks_aclose (graceful : Bool) : (s.aclose graceful).chunks = s.chunks := by
  unfold State.aclose
  split <;> rfl

theorem chunks_finish (scope : Option ℕ) (r : Except (Raised P ι E) P) :
    (s.finish scope r).chunks = s.chunks := by
  have hexit : (s.exitScope r scope).2.chunks = s.chunks := by
    unfold State.exitScope
    split
    · rfl
    · dsimp only
      split <;> rfl
  unfold State.finish
  dsimp only
  split
  · exact hexit
  · exact (chunks_aclose true).trans hexit
  · exact hexit

theorem chunks_read (scope : Option ℕ) : (s.read f scope).chunks = s.chunks := by
  unfold State.read
  split
  · rfl
  · exact chunks_finish scope _

theorem chunks_next (scope : Option ℕ) : (s.next f scope).chunks = s.chunks := by
  unfold State.next
  split
  · split
    · rfl
    · exact chunks_finish scope _
  · exact chunks_read scope

theorem chunks_received (scope : Option ℕ) (buffer : WriteBuffer) (chunk : Bytes) :
    (s.received f scope buffer chunk).chunks = s.chunks ++ [chunk] := by
  unfold State.received
  dsimp only
  split
  · exact chunks_finish scope _
  · exact chunks_read scope

/-- What a step adds to the chunks. -/
def Action.chunk : Action E → List Bytes
  | .received chunk => [chunk]
  | _ => []

theorem chunk_of_ne {a : Action E} (h : ∀ chunk, a ≠ .received chunk) : a.chunk = [] := by
  unfold Action.chunk
  split
  · exact absurd rfl (h _)
  · rfl

theorem chunks_step (hinv : Inv f s₀ s) {a : Action E} (hs : step f s a = some s') :
    s'.chunks = s.chunks ++ a.chunk := by
  cases step_cases hinv hs with
  | quiet scopes isClosing _ hne =>
    rw [chunk_of_ne hne, List.append_nil]
  | recvEnds _ hne _ _ _ _ =>
    rw [chunks_finish, chunk_of_ne hne, List.append_nil]
  | yielded _ _ _ =>
    rw [chunks_finish]
    exact (List.append_nil _).symm
  | received _ _ _ _ _ _ _ => exact chunks_received _ _ _
  | yields _ hreceiving hrunning hserve =>
    refine Eq.trans ?_ (List.append_nil s.chunks).symm
    rcases serve_cases hreceiving hrunning hserve with rfl | ⟨exc, rfl⟩ | ⟨scopes, scope, -, -, rfl⟩
    · exact chunks_aclose false
    · rfl
    · exact chunks_next scope
  | ended _ hne _ => rw [chunk_of_ne hne, List.append_nil]

/-! ## The frames -/

/-- The generator has been given the frames `os` of the received bytes, and the consumer holds
    `b`. -/
structure Taken (F : Framer UInt8 ρ) (report : ρ → Verdict P ι) (ok : Bytes → Prop)
    (Holds : σ → Bytes → Prop) (s : State σ P ι E) (os : List ρ) (b : Bytes) : Prop where
  leaves : Leaves F ok s.chunks.flatten os b
  holds : Holds s.consumer b
  results : s.results.map NextResult.verdict? = os.map fun o => some (report o)

/-- The frames `os` have been taken, with that of the request that is still to be sent. -/
structure Framed (F : Framer UInt8 ρ) (report : ρ → Verdict P ι) (ok : Bytes → Prop)
    (Holds Waits : σ → Bytes → Prop) (s : State σ P ι E) (os : List ρ) (b : Bytes) : Prop where
  leaves : Leaves F ok s.chunks.flatten os b
  holds : Holds s.consumer b
  results : (s.results ++ s.held).map NextResult.verdict? = os.map fun o => some (report o)
  recv : ∀ {scope buffer}, s.point = .recv scope buffer → Waits s.consumer b

section
variable {F : Framer UInt8 ρ} {report : ρ → Verdict P ι} {ok : Bytes → Prop}
  {Holds Waits : σ → Bytes → Prop} {os : List ρ} {b : Bytes}

theorem held_of_ne (h : ∀ scope request, s.point ≠ .shieldedYield scope request) : s.held = [] := by
  unfold State.held
  split
  · next hp => exact absurd hp (h _ _)
  · rfl

/-- Nothing is still to be sent. -/
theorem Framed.taken (h : Framed F report ok Holds Waits s os b)
    (hp : ∀ scope request, s.point ≠ .shieldedYield scope request) :
    Taken F report ok Holds s os b where
  leaves := h.leaves
  holds := h.holds
  results := by
    have hresults := h.results
    rwa [held_of_ne hp, List.append_nil] at hresults

theorem Taken.framed (h : Taken F report ok Holds s os b)
    (hp : ∀ scope request, s.point ≠ .shieldedYield scope request)
    (hrecv : ∀ scope buffer, s.point ≠ .recv scope buffer) :
    Framed F report ok Holds Waits s os b where
  leaves := h.leaves
  holds := h.holds
  results := by
    rw [held_of_ne hp, List.append_nil]
    exact h.results
  recv hc := absurd hc (hrecv _ _)

theorem Taken.aclose (h : Taken F report ok Holds s os b) (graceful : Bool) :
    Framed F report ok Holds Waits (s.aclose graceful) os b := by
  unfold State.aclose
  split
  · exact Taken.framed (s := { s with point := .ended graceful }) ⟨h.leaves, h.holds, h.results⟩
      (by rintro _ _ ⟨⟩) (by rintro _ _ ⟨⟩)
  · exact Taken.framed (s := { s with point := .aclose graceful, generator := .running })
      ⟨h.leaves, h.holds, h.results⟩ (by rintro _ _ ⟨⟩) (by rintro _ _ ⟨⟩)

/-- A call of `next` ends, with the frames `os` when its result is one of them. -/
theorem Receiving.framed_finish (h : Receiving s scope) (hrunning : s.Running)
    {r : Except (Raised P ι E) P} (hl : Leaves F ok s.chunks.flatten os b) (hh : Holds s.consumer b)
    (hr : (s.results ++ (result? r).toList).map NextResult.verdict? =
      os.map fun o => some (report o)) :
    Framed F report ok Holds Waits (s.finish scope r) os b := by
  obtain ⟨scopes, ⟨x, heq, hx, -⟩ | ⟨rfl, heq⟩⟩ := h.finish_cases hrunning r
  · rw [heq]
    refine Taken.framed (s := State.resumeGenerator { s with scopes := scopes } x) ⟨hl, hh, ?_⟩
      (by rintro _ _ ⟨⟩) (by rintro _ _ ⟨⟩)
    rw [results_resumeGenerator, hx]
    exact hr
  · rw [heq]
    refine Taken.aclose (s := { s with scopes := scopes }) ⟨hl, hh, ?_⟩ true
    rw [← hr]
    exact congrArg _ (List.append_nil s.results).symm

/-- The consumer has taken a frame. -/
theorem results_of_frame {rs : List (NextResult P ι)} {o : ρ} {rest : Bytes}
    (h : rs.map NextResult.verdict? = os.map fun o => some (report o)) :
    (rs ++ [(report o).result rest]).map NextResult.verdict? =
      (os ++ [o]).map fun o => some (report o) := by
  rw [List.map_append, List.map_append, h]
  simp only [List.map_cons, List.map_nil, Verdict.verdict?_result]

theorem Taken.read (h : Taken F report ok Holds s os b)
    (hf : StreamEndpoint.ReadsFrames f F report ok Holds Waits) (hw : Waits s.consumer b) :
    Framed F report ok Holds Waits (s.read f scope) os b := by
  obtain ⟨buffer, consumer, hoffer, -, hw'⟩ := hf.offer hw
  unfold State.read
  simp only [hoffer]
  exact ⟨h.leaves, hf.holds hw', by
    rw [held_of_ne (by rintro _ _ ⟨⟩), List.append_nil]
    exact h.results, fun _ => hw'⟩

theorem Receiving.framed_next (h : Receiving s scope) (hrunning : s.Running)
    (hf : StreamEndpoint.ReadsFrames f F report ok Holds Waits) (hok : F.Closed ok)
    (ht : Taken F report ok Holds s os b) (hchunks : ok s.chunks.flatten) :
    ∃ os b, Framed F report ok Holds Waits (s.next f scope) os b := by
  have hb := ht.leaves.ok_left hchunks
  unfold State.next
  rcases hdec : F.dec b with _ | ⟨o, rest⟩
  · obtain ⟨consumer, htake, hw⟩ := hf.take_none ht.holds hb hdec
    simp only [htake]
    exact ⟨os, _, Taken.read (s := { s with consumer := consumer })
      ⟨ht.leaves.norm hok, hf.holds hw, ht.results⟩ hf hw⟩
  · obtain ⟨consumer, htake, hh⟩ := hf.take_some ht.holds hb hdec
    have hleaves := ht.leaves.dec hok hdec
    have hresults : (s.results ++ [(report o).result rest]).map NextResult.verdict? =
        (os ++ [o]).map fun o => some (report o) := results_of_frame ht.results
    simp only [htake]
    refine ⟨os ++ [o], rest, ?_⟩
    cases hreport : (report o).result rest with
    | packet request =>
      rw [hreport] at hresults
      exact ⟨hleaves, hh, hresults, by rintro _ _ ⟨⟩⟩
    | stopIteration | parseError e | raised message =>
      refine (h.feed consumer s.chunks).framed_finish hrunning hleaves hh ?_
      rw [hreport] at hresults
      exact hresults

theorem Receiving.framed_received (h : Receiving s scope) (hrunning : s.Running)
    (hf : StreamEndpoint.ReadsFrames f F report ok Holds Waits) (hok : F.Closed ok)
    {buffer : WriteBuffer} {chunk : Bytes} (ht : Taken F report ok Holds s os b)
    (hw : Waits s.consumer b) (hoffer : f.offer s.consumer = (.ok buffer, s.consumer))
    (hc : chunk ≠ []) (hle : chunk.length ≤ buffer.nbytes)
    (hchunks : ok (s.chunks.flatten ++ chunk)) :
    ∃ os b, Framed F report ok Holds Waits (s.received f scope buffer chunk) os b := by
  have hb := ht.leaves.ok _ hchunks
  have hleaves : Leaves F ok (s.chunks ++ [chunk]).flatten os (b ++ chunk) := by
    rw [List.flatten_concat]
    exact ht.leaves.append chunk
  unfold State.received
  dsimp only
  rcases hdec : F.dec (b ++ chunk) with _ | ⟨o, rest⟩
  · obtain ⟨consumer, hgive, hw'⟩ := hf.give_none hw hoffer hc hle hb hdec
    simp only [hgive]
    exact ⟨os, _, Taken.read (s := { s with chunks := s.chunks ++ [chunk], consumer := consumer })
      ⟨hleaves.norm hok, hf.holds hw', ht.results⟩ hf hw'⟩
  · obtain ⟨consumer, hgive, hh⟩ := hf.give_some hw hoffer hc hle hb hdec
    simp only [hgive]
    refine ⟨os ++ [o], rest, (h.feed consumer (s.chunks ++ [chunk])).framed_finish hrunning
      (hleaves.dec hok hdec) hh ?_⟩
    rw [result?_ofNext]
    exact results_of_frame ht.results

/-- **Step lemma.** -/
theorem framed_step (hf : StreamEndpoint.ReadsFrames f F report ok Holds Waits) (hok : F.Closed ok)
    (hinv : Inv f s₀ s) {a : Action E} (h : Framed F report ok Holds Waits s os b)
    (hs : step f s a = some s') (hchunks : ok (s.chunks ++ a.chunk).flatten) :
    ∃ os b, Framed F report ok Holds Waits s' os b := by
  cases step_cases hinv hs with
  | quiet scopes isClosing _ _ => exact ⟨os, b, h.leaves, h.holds, h.results, h.recv⟩
  | recvEnds _ _ hp hreceiving hrunning hr =>
    have ht := h.taken fun scope request hc => by rw [hp] at hc; cases hc
    refine ⟨os, b, hreceiving.framed_finish hrunning ht.leaves ht.holds ?_⟩
    rw [hr, Option.toList_none, List.append_nil]
    exact ht.results
  | yielded hp hreceiving hrunning =>
    have hresults := h.results
    unfold State.held at hresults
    rw [hp] at hresults
    exact ⟨os, b, hreceiving.framed_finish hrunning h.leaves h.holds hresults⟩
  | received hp hreceiving hrunning _ hoffer hc hle =>
    have ht := h.taken fun scope request hc => by rw [hp] at hc; cases hc
    rw [Action.chunk, List.flatten_concat] at hchunks
    exact hreceiving.framed_received hrunning hf hok ht (h.recv hp) hoffer hc hle hchunks
  | yields hp hreceiving hrunning hserve =>
    have ht := h.taken fun scope request hc => by rw [hp] at hc; cases hc
    have hchunks : ok s.chunks.flatten := by
      rw [← List.append_nil s.chunks]
      exact hchunks
    rcases serve_cases hreceiving hrunning hserve with
      rfl | ⟨exc, rfl⟩ | ⟨scopes, scope, hreceiving', hrunning', rfl⟩
    · exact ⟨os, b, Taken.aclose (s := { s with generator := .suspended, yields := s.yields + 1 })
        ⟨ht.leaves, ht.holds, ht.results⟩ false⟩
    · refine ⟨os, b, Taken.framed ⟨ht.leaves, ht.holds, ?_⟩ (by rintro _ _ ⟨⟩)
        (by rintro _ _ ⟨⟩)⟩
      rw [results_resumeGenerator]
      exact (List.append_nil s.results).symm ▸ ht.results
    · exact hreceiving'.framed_next hrunning' hf hok ⟨ht.leaves, ht.holds, ht.results⟩ hchunks
  | ended _ _ hp =>
    have ht := h.taken fun scope request hc => by
      rcases hp with ⟨hp, -⟩ | hp <;> rw [hp] at hc <;> cases hc
    exact ⟨os, b, Taken.framed ⟨ht.leaves, ht.holds, ht.results⟩ (by rintro _ _ ⟨⟩)
      (by rintro _ _ ⟨⟩)⟩

end

end StreamServer

end EasyNetwork
