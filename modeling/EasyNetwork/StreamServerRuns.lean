/-
  The requests of a client of `AsyncStreamServer`, in every run of its coroutine.

  A timeout that expires while the transport is read leaves the consumer as it is; one that expires
  in the shielded `yield` does not take the request away, for `__exit__` has no exception to
  suppress and removes the delayed cancellation.

  `requests_served`: the generator is resumed with what the received bytes give, in order and once
  each, and besides with errors that are not the consumer's.
-/
import EasyNetwork.StreamReceive
import EasyNetwork.StreamServer

namespace EasyNetwork

namespace StreamServer

open AsyncioTask

section
variable {σ P ι E : Type} {f : Feeder σ Bytes WriteBuffer (NextResult P ι)} {Ok : σ → Prop}
  {s₀ : σ} {s s' : State σ P ι E} {scope : Option ℕ}

/-! ## The end of a call of `next` -/

/-- The result of the consumer with which a call ends. -/
def result? : Except (Raised P ι E) P → Option (NextResult P ι)
  | .ok request => some (.packet request)
  | .error (.consumer r) => some r
  | .error _ => none

/-- The coroutine is in a call of `next`. -/
structure Receiving (s : State σ P ι E) (scope : Option ℕ) : Prop where
  scopes : CancelScope.Inv s.scopes
  cancelled : s.scopes.external = 0 → ∀ msg, .athrow (.cancelledError msg) ∉ s.resumptions
  generator : s.generator = .suspended
  once : s.resumptions.length + 1 = s.yields
  stack : s.scopes.stack = scope.toList

/-- Where the coroutine is, as far as the generator and the consumer know. -/
def At (f : Feeder σ Bytes WriteBuffer (NextResult P ι)) (s : State σ P ι E) : Prop :=
  match s.point with
  | .generator => s.generator = .running ∧ s.resumptions.length = s.yields
  | .shieldedYield scope _ => Receiving s scope
  | .recv scope buffer => Receiving s scope ∧ f.take s.consumer = (none, s.consumer) ∧
      f.offer s.consumer = (.ok buffer, s.consumer)
  | .aclose _ => s.generator = .running
  | .ended _ => s.generator = .closed

/-- What holds in every reachable state. -/
structure Inv (f : Feeder σ Bytes WriteBuffer (NextResult P ι)) (s₀ : σ) (s : State σ P ι E) :
    Prop where
  scopes : CancelScope.Inv s.scopes
  cancelled : s.scopes.external = 0 → ∀ msg, .athrow (.cancelledError msg) ∉ s.resumptions
  fed : f.Fed s₀ s.chunks (s.results ++ s.held) s.consumer
  point : At f s

theorem results_resumeGenerator (r : Resumption P ι E) :
    (s.resumeGenerator r).results = s.results ++ r.result?.toList := by
  unfold State.results State.resumeGenerator
  rw [List.filterMap_append]
  cases h : r.result? <;> simp [h]

theorem result?_ofNext (r : NextResult P ι) :
    result? (ofNext r : Except (Raised P ι E) P) = some r := by
  cases r <;> rfl

theorem Receiving.feed (h : Receiving s scope) (consumer : σ) (chunks : List Bytes) :
    Receiving { s with consumer := consumer, chunks := chunks } scope :=
  ⟨h.scopes, h.cancelled, h.generator, h.once, h.stack⟩

theorem exit_step (hrunning : s.Running) {i : ℕ} (hstack : s.scopes.stack = [i])
    (exc : Option (List CancelScope.Leaf)) :
    CancelScope.step s.scopes (.exit exc) = some (s.scopes.exit i [] exc).2 := by
  simp only [CancelScope.step, hstack]
  exact if_pos hrunning

/-- The end of the timeout scope: only a `CancelledError` is replaced, and always the one that the
    scope has requested. -/
theorem exitScope_spec (h : Receiving s scope) (hrunning : s.Running)
    {r : Except (Raised P ι E) P} :
    ∃ r' scopes, s.exitScope r scope = (r', { s with scopes := scopes }) ∧
      CancelScope.Inv scopes ∧ scopes.external = s.scopes.external ∧
      ((∀ msg, r ≠ .error (.cancelledError msg)) → r' = r) ∧
      (∀ msg, r = .error (.cancelledError msg) →
        r' = .error .timeoutError ∨
          r' = r ∧ (s.scopes.Requested msg → 0 < s.scopes.external)) := by
  cases scope with
  | none =>
    refine ⟨r, s.scopes, rfl, h.scopes, rfl, fun _ => rfl, fun msg hr => .inr ⟨rfl, ?_⟩⟩
    rintro (hpos | ⟨j, hj, -⟩)
    · exact hpos
    · rw [h.stack] at hj
      cases hj
  | some i =>
    have hstack : s.scopes.stack = [i] := h.stack
    have hscope := h.scopes.scope i
    have hmem : i ∈ s.scopes.stack := hstack ▸ List.mem_cons_self
    have hcaught : (s.scopes.scopes i).cancelledCaught = false :=
      hscope.caught (by rw [hscope.state.2 hmem]; exact nofun)
    obtain ⟨suppressed, scopes, heq⟩ : ∃ suppressed scopes,
        s.scopes.exit i [] (leaves r) = (suppressed, scopes) := ⟨_, _, rfl⟩
    have hinv : CancelScope.Inv scopes :=
      h.scopes.step (heq ▸ exit_step hrunning hstack (leaves r))
    have hexternal : scopes.external = s.scopes.external :=
      congrArg (fun e => e.2.external) heq ▸ CancelScope.external_exit i [] (leaves r)
    have hexit : s.exitScope r (some i) =
        if suppressed && (scopes.scopes i).cancelledCaught then
          (.error .timeoutError, { s with scopes := scopes })
        else (r, { s with scopes := scopes }) := by
      simp only [State.exitScope, hstack, List.tail_cons, heq]
    -- an exception that is not a `CancelledError` is not suppressed
    have hother : (∀ msg, r ≠ .error (.cancelledError msg)) → suppressed = false := by
      intro hne
      have hfst : suppressed = (s.scopes.exit i [] (leaves r)).1 := by rw [heq]
      rw [hfst]
      cases r with
      | ok request => exact CancelScope.exit_none hcaught
      | error exc =>
        have hleaf : leaf exc = .other := by
          cases exc with
          | cancelledError msg => exact absurd rfl (hne msg)
          | _ => rfl
        simp only [leaves, hleaf]
        rw [CancelScope.exit_some hcaught]
        exact Bool.and_false _
    by_cases hr : ∃ msg, r = .error (.cancelledError msg)
    · obtain ⟨msg, rfl⟩ := hr
      cases hsuppressed : suppressed with
      | true =>
        have hcaught' : (scopes.scopes i).cancelledCaught = true := by
          have := CancelScope.exit_caught (s := s.scopes) (i := i)
            (leaves (.error (.cancelledError msg) : Except (Raised P ι E) P))
          rw [heq] at this
          exact this hsuppressed
        refine ⟨_, scopes, by rw [hexit, hsuppressed, hcaught']; rfl, hinv, hexternal,
          fun hne => absurd rfl (hne msg), fun _ _ => .inl rfl⟩
      | false =>
        refine ⟨_, scopes, by rw [hexit, hsuppressed]; rfl, hinv, hexternal, fun _ => rfl,
          fun msg' hmsg => .inr ⟨rfl, ?_⟩⟩
        cases hmsg
        rintro (hpos | ⟨j, hj, hreason, hcalls⟩)
        · exact hpos
        · rw [hstack] at hj
          cases List.mem_singleton.1 hj
          have hfst : suppressed = (s.scopes.exit i [] (some [.cancelledError [msg]])).1 :=
            congrArg Prod.fst heq.symm
          rw [CancelScope.exit_some hcaught, hsuppressed, hscope.called hcalls] at hfst
          simp [CancelScope.isMyCancellation, hreason] at hfst
    · have hne : ∀ msg, r ≠ .error (.cancelledError msg) := fun msg heq => hr ⟨msg, heq⟩
      refine ⟨_, scopes, by rw [hexit, hother hne]; rfl, hinv, hexternal, fun _ => rfl,
        fun msg hmsg => absurd hmsg (hne msg)⟩

theorem inv_resumeGenerator {r : Resumption P ι E} (hscopes : CancelScope.Inv s.scopes)
    (hcancelled : s.scopes.external = 0 → ∀ msg, .athrow (.cancelledError msg) ∉ s.resumptions)
    (honce : s.resumptions.length + 1 = s.yields)
    (hfed : f.Fed s₀ s.chunks (s.results ++ r.result?.toList) s.consumer)
    (hr : s.scopes.external = 0 → ∀ msg, .athrow (.cancelledError msg) ≠ r) :
    Inv f s₀ (s.resumeGenerator r) where
  scopes := hscopes
  cancelled hzero msg hmem := by
    rcases List.mem_append.1 hmem with hmem | hmem
    · exact hcancelled hzero msg hmem
    · exact hr hzero msg (List.mem_singleton.1 hmem)
  fed := by
    rw [results_resumeGenerator]
    exact (List.append_nil _).symm ▸ hfed
  point := ⟨rfl, List.length_append.trans honce⟩

theorem inv_aclose (hscopes : CancelScope.Inv s.scopes)
    (hcancelled : s.scopes.external = 0 → ∀ msg, .athrow (.cancelledError msg) ∉ s.resumptions)
    (hfed : f.Fed s₀ s.chunks s.results s.consumer) (graceful : Bool) :
    Inv f s₀ (s.aclose graceful) := by
  unfold State.aclose
  split
  · next hclosed => exact ⟨hscopes, hcancelled, (List.append_nil s.results).symm ▸ hfed, hclosed⟩
  · exact ⟨hscopes, hcancelled, (List.append_nil s.results).symm ▸ hfed, rfl⟩

theorem Receiving.finish (h : Receiving s scope) (hrunning : s.Running)
    {r : Except (Raised P ι E) P}
    (hfed : f.Fed s₀ s.chunks (s.results ++ (result? r).toList) s.consumer)
    (hmsg : ∀ msg, r = .error (.cancelledError msg) → s.scopes.Requested msg) :
    Inv f s₀ (s.finish scope r) := by
  obtain ⟨r', scopes, heq, hinv, hexternal, hsame, hcancel⟩ := exitScope_spec h hrunning (r := r)
  have hcancelled : scopes.external = 0 → ∀ msg, .athrow (.cancelledError msg) ∉ s.resumptions :=
    hexternal ▸ h.cancelled
  unfold State.finish
  rw [heq]
  simp only
  by_cases hr : ∃ msg, r = .error (.cancelledError msg)
  · obtain ⟨msg, rfl⟩ := hr
    rcases hcancel msg rfl with rfl | ⟨rfl, hpos⟩
    · exact inv_resumeGenerator (s := { s with scopes := scopes }) hinv hcancelled h.once hfed
        fun _ _ => nofun
    · refine inv_resumeGenerator (s := { s with scopes := scopes }) hinv hcancelled h.once hfed
        fun hzero => ?_
      exact absurd (hexternal.symm.trans hzero) (Nat.ne_of_gt (hpos (hmsg msg rfl)))
  · have hne : ∀ msg, r ≠ .error (.cancelledError msg) := fun msg heq => hr ⟨msg, heq⟩
    cases hsame hne
    split
    · exact inv_resumeGenerator (s := { s with scopes := scopes }) hinv hcancelled h.once hfed
        fun _ _ => nofun
    · refine inv_aclose (s := { s with scopes := scopes }) hinv hcancelled ?_ true
      exact (List.append_nil s.results) ▸ hfed
    · next exc hstop =>
      refine inv_resumeGenerator (s := { s with scopes := scopes }) hinv hcancelled h.once ?_
        fun _ msg hthrow => ?_
      · cases exc <;> exact hfed
      · cases hthrow
        exact hne msg rfl

/-- A request is sent to the generator, whether the timeout has expired or not. -/
theorem Receiving.finish_ok (h : Receiving s scope) (hrunning : s.Running) (request : P) :
    (s.finish scope (.ok request)).resumptions = s.resumptions ++ [.asend request] := by
  obtain ⟨r', scopes, heq, -, -, hsame, -⟩ := exitScope_spec h hrunning (r := .ok request)
  cases hsame fun msg => nofun
  unfold State.finish
  rw [heq]
  rfl

/-- At the end of the stream the generator is closed, and nothing else changes. -/
theorem Receiving.finish_stop (h : Receiving s scope) (hrunning : s.Running) :
    ∃ scopes, s.finish scope (.error .stopAsyncIteration) =
      { s with scopes := scopes, point := .aclose true, generator := .running } := by
  obtain ⟨r', scopes, heq, -, -, hsame, -⟩ :=
    exitScope_spec h hrunning (r := .error .stopAsyncIteration)
  cases hsame (by rintro msg ⟨⟩)
  refine ⟨scopes, ?_⟩
  unfold State.finish
  rw [heq]
  simp only [State.aclose, h.generator]

/-- The next read, or what `get_write_buffer()` raises. -/
theorem Receiving.read (h : Receiving s scope) (hrunning : s.Running) (hf : f.Lawful Ok)
    (h₀ : Ok s₀) (hfed : f.Fed s₀ s.chunks s.results s.consumer)
    (htake : f.take s.consumer = (none, s.consumer)) : Inv f s₀ (s.read f scope) := by
  unfold State.read
  split
  · next buffer consumer hoffer =>
    obtain ⟨htake', hoffer'⟩ := hf.offer_ok (hfed.ok hf h₀) htake hoffer
    exact
      { scopes := h.scopes
        cancelled := h.cancelled
        fed := (List.append_nil s.results).symm ▸ .offered hfed htake hoffer
        point := ⟨⟨h.scopes, h.cancelled, h.generator, h.once, h.stack⟩, htake', hoffer'⟩ }
  · next r consumer hoffer =>
    refine (h.feed consumer s.chunks).finish hrunning ?_ ?_
    · rw [result?_ofNext]
      exact .refused hfed htake hoffer
    · intro msg hr
      cases r <;> cases hr

/-- `next` is called: what the consumer has left is taken first. -/
theorem Receiving.next (h : Receiving s scope) (hrunning : s.Running) (hf : f.Lawful Ok)
    (h₀ : Ok s₀) (hfed : f.Fed s₀ s.chunks s.results s.consumer) :
    Inv f s₀ (s.next f scope) := by
  unfold State.next
  split
  · next r consumer htake =>
    have htook : f.Fed s₀ s.chunks (s.results ++ [r]) consumer := .took hfed htake
    split
    · next request hr =>
      cases r with
      | packet p =>
        cases hr
        have hyield : CancelScope.step s.scopes (.coroYield true) = some { s.scopes with
            task := s.scopes.task.coroYield, shield := some none } := if_pos hrunning
        have hinv := h.scopes.step hyield
        exact
          { scopes := hinv
            cancelled := h.cancelled
            fed := htook
            point := ⟨hinv, h.cancelled, h.generator, h.once, h.stack⟩ }
      | _ => cases hr
    · next exc hr =>
      have hresult : result? (.error exc : Except (Raised P ι E) P) = some r :=
        hr ▸ result?_ofNext r
      refine (h.feed consumer s.chunks).finish hrunning ?_ fun msg hmsg => ?_
      · rw [hresult]
        exact htook
      · rw [hmsg] at hresult
        cases hresult
  · next consumer htake =>
    exact (h.feed consumer s.chunks).read hrunning hf h₀ (.drained hfed htake)
      (hf.take_none (hfed.ok hf h₀) htake)

/-! ## The steps -/

theorem Inv.init (f : Feeder σ Bytes WriteBuffer (NextResult P ι)) (clears : Bool) (s₀ : σ) :
    Inv f s₀ (State.init clears s₀ : State σ P ι E) where
  scopes := .init clears
  cancelled := nofun
  fed := .start
  point := ⟨rfl, rfl⟩

/-- Everything has been sent that the consumer has given. -/
theorem Inv.fed_of_point (h : Inv f s₀ s)
    (hp : ∀ scope request, s.point ≠ .shieldedYield scope request) :
    f.Fed s₀ s.chunks s.results s.consumer := by
  have hfed := h.fed
  unfold State.held at hfed
  split at hfed
  · next scope request hheld => exact absurd hheld (hp scope request)
  · rwa [List.append_nil] at hfed

/-- What holds when the transport is read. -/
theorem Inv.recv (h : Inv f s₀ s) {buffer : WriteBuffer} (hp : s.point = .recv scope buffer) :
    Receiving s scope ∧ f.Fed s₀ s.chunks s.results s.consumer ∧
      f.take s.consumer = (none, s.consumer) ∧ f.offer s.consumer = (.ok buffer, s.consumer) := by
  have hfed := h.fed_of_point fun scope request => hp ▸ nofun
  have hpoint := h.point
  unfold At at hpoint
  rw [hp] at hpoint
  exact ⟨hpoint.1, hfed, hpoint.2⟩

/-- The task and its scopes change, but for the scopes that are entered; or the transport is
    closing. -/
theorem Inv.setScopes (h : Inv f s₀ s) {scopes : CancelScope.State} {isClosing : Bool}
    (hscopes : CancelScope.Inv scopes) (hexternal : s.scopes.external ≤ scopes.external)
    (hstack : (∃ scope request, s.point = .shieldedYield scope request) ∨
      (∃ scope buffer, s.point = .recv scope buffer) → scopes.stack = s.scopes.stack) :
    Inv f s₀ { s with scopes := scopes, isClosing := isClosing } := by
  have hcancelled : scopes.external = 0 →
      ∀ msg, .athrow (.cancelledError msg) ∉ s.resumptions := fun hzero =>
    h.cancelled (Nat.le_zero.1 (hzero ▸ hexternal))
  refine ⟨hscopes, hcancelled, h.fed, ?_⟩
  have hpoint := h.point
  unfold At at hpoint ⊢
  simp only
  split at hpoint
  · exact hpoint
  · next scope request hp =>
    rw [hp]
    exact ⟨hscopes, hcancelled, hpoint.generator, hpoint.once,
      (hstack (.inl ⟨scope, request, hp⟩)).trans hpoint.stack⟩
  · next scope buffer hp =>
    rw [hp]
    obtain ⟨hreceiving, htake, hoffer⟩ := hpoint
    exact ⟨⟨hscopes, hcancelled, hreceiving.generator, hreceiving.once,
      (hstack (.inr ⟨scope, buffer, hp⟩)).trans hreceiving.stack⟩, htake, hoffer⟩
  · exact hpoint
  · exact hpoint

/-- What keeps the stack of scopes. -/
theorem stack_of_isLoop {scopes scopes' : CancelScope.State} {a : CancelScope.Action}
    (ha : isLoop a = true ∨ isAwait a = true) (hs : CancelScope.step scopes a = some scopes') :
    scopes'.stack = scopes.stack := by
  refine (CancelScope.step_frame hs).2 ?_ ?_
  · rintro i rfl
    rcases ha with ha | ha <;> cases ha
  · rintro exc rfl
    rcases ha with ha | ha <;> cases ha

theorem Inv.loop (h : Inv f s₀ s) {a : CancelScope.Action}
    (hs : step f s (.loop a) = some s') : Inv f s₀ s' := by
  simp only [step] at hs
  split at hs
  · next ha =>
    obtain ⟨scopes, hscopes, rfl⟩ := Option.map_eq_some_iff.1 hs
    exact h.setScopes (h.scopes.step hscopes) (CancelScope.step_frame hscopes).1
      fun _ => stack_of_isLoop (.inl ha) hscopes
  · cases hs

theorem Inv.code (h : Inv f s₀ s) {a : CancelScope.Action}
    (hs : step f s (.code a) = some s') : Inv f s₀ s' := by
  have huse : ∀ b : Bool, (if b then
        (CancelScope.step s.scopes a).map fun scopes => { s with scopes := scopes }
      else none) = some s' →
      (∀ scopes, CancelScope.step s.scopes a = some scopes → b = true →
        (∃ scope request, s.point = .shieldedYield scope request) ∨
          (∃ scope buffer, s.point = .recv scope buffer) → scopes.stack = s.scopes.stack) →
      Inv f s₀ s' := by
    intro b hs hstack
    split_ifs at hs with hb
    obtain ⟨scopes, hscopes, rfl⟩ := Option.map_eq_some_iff.1 hs
    exact h.setScopes (h.scopes.step hscopes) (CancelScope.step_frame hscopes).1
      (hstack scopes hscopes hb)
  simp only [step] at hs
  split at hs
  · next hp =>
    refine huse _ hs fun _ _ _ => ?_
    rintro (⟨_, _, hpoint⟩ | ⟨_, _, hpoint⟩) <;> cases hp.symm.trans hpoint
  · next hp =>
    refine huse _ hs fun _ _ _ => ?_
    rintro (⟨_, _, hpoint⟩ | ⟨_, _, hpoint⟩) <;> cases hp.symm.trans hpoint
  · exact huse _ hs fun _ hscopes ha _ => stack_of_isLoop (.inr ha) hscopes
  · cases hs

/-- What a resumption of the task does to its scopes. -/
theorem resume_scopes {scopes scopes' : CancelScope.State} (h : CancelScope.Inv scopes)
    (hs : CancelScope.step scopes .resume = some scopes') :
    scopes'.stack = scopes.stack ∧ scopes'.external = scopes.external ∧
      scopes'.scopes = scopes.scopes ∧ scopes'.task.waiter = .running ∧
      (scopes'.raised = none ∨ scopes'.shield = none ∧ scopes'.raised = scopes.task.thrown) := by
  obtain ⟨task, ht, rfl⟩ := Option.map_eq_some_iff.1 hs
  have hwaiter : task.waiter = .running := by
    obtain ⟨-, -, -, rfl⟩ := h.ordered.resume ht
    rfl
  cases hshield : scopes.shield with
  | none => exact ⟨rfl, rfl, rfl, hwaiter, .inr ⟨rfl, rfl⟩⟩
  | some last => exact ⟨rfl, rfl, rfl, hwaiter, .inl rfl⟩

/-- The shielded `yield` is over: what has been requested is delayed. -/
theorem shieldDone_scopes {scopes scopes' : CancelScope.State}
    (hs : CancelScope.step scopes (.shieldDone false) = some scopes') :
    scopes'.task.waiter = .running ∧ scopes'.shield = none := by
  simp only [CancelScope.step] at hs
  split at hs
  · cases hs
  · split at hs
    · next hrunning =>
      simp only [Bool.false_eq_true, if_false] at hs
      split at hs
      · cases hs
        exact ⟨hrunning, rfl⟩
      · split at hs
        · next task htask =>
          cases hs
          refine ⟨?_, rfl⟩
          unfold AsyncioTask.rescheduleDelayedTaskCancel at htask
          split at htask
          · cases htask
          · cases htask
            exact hrunning
        · cases hs
          exact ⟨hrunning, rfl⟩
    · cases hs

theorem step_yielded {request : P} (hp : s.point = .shieldedYield scope request) :
    step f s .resume =
      (Trans.run CancelScope.step s.scopes [.resume, .shieldDone false]).map fun scopes =>
        { s with scopes := scopes }.finish scope (.ok request) := by
  simp only [step]
  rw [hp]

/-- The shielded `yield` of a call of `next` is over. -/
theorem Inv.yielded (h : Inv f s₀ s) {request : P} (hp : s.point = .shieldedYield scope request)
    {scopes : CancelScope.State}
    (hs : Trans.run CancelScope.step s.scopes [.resume, .shieldDone false] = some scopes) :
    Receiving { s with scopes := scopes } scope ∧ { s with scopes := scopes }.Running := by
  have hpoint := h.point
  unfold At at hpoint
  rw [hp] at hpoint
  obtain ⟨scopes₁, hresume, hs⟩ := Trans.run_cons_iff.1 hs
  obtain ⟨scopes₂, hdone, hnil⟩ := Trans.run_cons_iff.1 hs
  cases hnil
  have hstack : scopes.stack = s.scopes.stack :=
    (stack_of_isLoop (.inr rfl) hdone).trans (resume_scopes h.scopes hresume).1
  have hexternal := (CancelScope.step_frame hresume).1.trans (CancelScope.step_frame hdone).1
  have hnext : Inv f s₀ { s with scopes := scopes } :=
    h.setScopes ((h.scopes.step hresume).step hdone) hexternal fun _ => hstack
  exact ⟨⟨hnext.scopes, hnext.cancelled, hpoint.generator, hpoint.once,
    hstack.trans hpoint.stack⟩, shieldDone_scopes hdone⟩

theorem Inv.resumed (h : Inv f s₀ s) {scopes : CancelScope.State}
    (hs : CancelScope.step s.scopes .resume = some scopes) :
    Inv f s₀ { s with scopes := scopes } :=
  h.setScopes (h.scopes.step hs) (CancelScope.step_frame hs).1
    fun _ => (resume_scopes h.scopes hs).1

theorem Inv.resume (h : Inv f s₀ s) (hs : step f s .resume = some s') : Inv f s₀ s' := by
  simp only [step] at hs
  split at hs
  · obtain ⟨scopes, hscopes, rfl⟩ := Option.map_eq_some_iff.1 hs
    exact h.resumed hscopes
  · obtain ⟨scopes, hscopes, rfl⟩ := Option.map_eq_some_iff.1 hs
    exact h.resumed hscopes
  · next scope buffer hp =>
    obtain ⟨scopes, hscopes, rfl⟩ := Option.map_eq_some_iff.1 hs
    split
    · next msg hmsg =>
      -- what is thrown has been requested
      obtain ⟨hstack, hexternal, hsame, hwaiter, hraised⟩ := resume_scopes h.scopes hscopes
      obtain ⟨hshield, hthrown⟩ := hraised.resolve_left (by rw [hmsg]; exact nofun)
      obtain ⟨hreceiving, hfed, -, -⟩ := (h.resumed hscopes).recv hp
      refine hreceiving.finish ⟨hwaiter, hshield⟩ ((List.append_nil s.results).symm ▸ hfed)
        fun msg' hmsg' => ?_
      cases hmsg'
      have hrequested := h.scopes.thrown msg (hthrown.symm.trans hmsg)
      refine hrequested.mono hexternal.ge (fun j hj => hstack ▸ hj) fun j _ => ?_
      rw [hsame]
      exact ⟨rfl, Nat.le_refl _⟩
    · exact h.resumed hscopes
  · next scope request hp =>
    obtain ⟨scopes, hscopes, rfl⟩ := Option.map_eq_some_iff.1 hs
    obtain ⟨hreceiving, hrunning⟩ := h.yielded hp hscopes
    have hfed : f.Fed s₀ s.chunks (s.results ++ [.packet request]) s.consumer := by
      have hfed := h.fed
      unfold State.held at hfed
      rw [hp] at hfed
      exact hfed
    exact hreceiving.finish hrunning hfed fun msg => nofun
  · cases hs

/-- The timeout scope is entered, and perhaps has expired. -/
theorem enter_scopes {scopes scopes' : CancelScope.State} {i : ℕ} {expired : Bool}
    (h : CancelScope.Inv scopes) (hstack : scopes.stack = [])
    (hs : Trans.run CancelScope.step scopes (.enter i ::
      if expired then [.cancelScope i (some "deadline exceeded")] else []) = some scopes') :
    CancelScope.Inv scopes' ∧ scopes'.stack = [i] ∧ scopes.external ≤ scopes'.external ∧
      scopes'.task.waiter = .running ∧ scopes'.shield = none := by
  obtain ⟨scopes₁, henter, hexpired⟩ := Trans.run_cons_iff.1 hs
  have hinv₁ := h.step henter
  have hle := (CancelScope.step_frame henter).1
  simp only [CancelScope.step] at henter
  split at henter
  · next hrunning =>
    cases henter
    obtain ⟨hshield₁, hstack₁, -⟩ := CancelScope.enter_frame (s := scopes) i
    have htask₁ := (CancelScope.task_of_running hrunning.1 i none).1
    have hwaiter₁ : (scopes.enter i).task.waiter = .running := by rw [htask₁, hrunning.1]
    rw [hstack] at hstack₁
    cases expired with
    | false =>
      cases hexpired
      exact ⟨hinv₁, hstack₁, hle, hwaiter₁, hshield₁.trans hrunning.2.1⟩
    | true =>
      obtain ⟨scopes₂, hcancel, hnil⟩ := Trans.run_cons_iff.1 hexpired
      cases hnil
      have hinv₂ := hinv₁.step hcancel
      cases hcancel
      obtain ⟨hshield₂, hstack₂, hexternal₂⟩ := CancelScope.cancel_frame (s := scopes.enter i) i
        (some "deadline exceeded")
      refine ⟨hinv₂, hstack₂.trans hstack₁, hle.trans hexternal₂.ge, ?_,
        hshield₂.trans (hshield₁.trans hrunning.2.1)⟩
      rw [(CancelScope.task_of_running hwaiter₁ i _).2, hwaiter₁]
  · cases henter

/-- The next call of `next`, with its timeout. -/
theorem Receiving.serve (h : Receiving s none) (hrunning : s.Running) (hf : f.Lawful Ok)
    (h₀ : Ok s₀) (hfed : f.Fed s₀ s.chunks s.results s.consumer) {timeout : Delay} {i : ℕ}
    {expired : Bool} (hs : s.serve f timeout i expired = some s') : Inv f s₀ s' := by
  unfold State.serve at hs
  split at hs
  · cases hs
    exact inv_aclose h.scopes h.cancelled hfed false
  · split at hs
    · cases hs
      exact inv_resumeGenerator h.scopes h.cancelled h.once
        ((List.append_nil s.results).symm ▸ hfed) fun _ _ => nofun
    · split at hs
      · cases hs
        exact h.next hrunning hf h₀ hfed
      · obtain ⟨scopes, hscopes, rfl⟩ := Option.map_eq_some_iff.1 hs
        obtain ⟨hinv, hstack, hle, hrunning'⟩ := enter_scopes h.scopes h.stack hscopes
        have hreceiving : Receiving { s with scopes := scopes } (some i) :=
          ⟨hinv, fun hzero => h.cancelled (Nat.le_zero.1 (hzero ▸ hle)), h.generator, h.once,
            hstack⟩
        exact hreceiving.next hrunning' hf h₀ hfed

/-- The generator has yielded the parameters of the next call. -/
theorem Inv.generatorYields (h : Inv f s₀ s) (hf : f.Lawful Ok) (h₀ : Ok s₀) {timeout : Delay}
    {i : ℕ} {expired : Bool} (hs : step f s (.generatorYields timeout i expired) = some s') :
    Inv f s₀ s' := by
  have hpoint := h.point
  unfold At at hpoint
  simp only [step] at hs
  split at hs
  · next hrunning =>
    split at hs
    · next hp =>
      rw [hp] at hpoint
      split at hs
      · next hstack =>
        have hreceiving : Receiving
            { s with generator := .suspended, yields := s.yields + 1 } none :=
          ⟨h.scopes, h.cancelled, rfl, congrArg (· + 1) hpoint.2, hstack⟩
        exact hreceiving.serve hrunning hf h₀
          (h.fed_of_point fun scope request => hp ▸ nofun) hs
      · cases hs
    · next hp =>
      cases hs
      exact ⟨h.scopes, h.cancelled, (List.append_nil s.results).symm ▸
        h.fed_of_point fun scope request => hp ▸ nofun, rfl⟩
    · cases hs
  · cases hs

theorem Inv.generatorEnds (h : Inv f s₀ s) {a : Action E}
    (ha : a = .generatorStops ∨ a = .generatorRaises) (hs : step f s a = some s') :
    Inv f s₀ s' := by
  rcases ha with rfl | rfl
  all_goals
    simp only [step] at hs
    split at hs
    · split at hs
      · next hp =>
        cases hs
        exact inv_aclose (s := { s with generator := .closed }) h.scopes h.cancelled
          (h.fed_of_point fun scope request => hp ▸ nofun) _
      · next hp =>
        cases hs
        exact ⟨h.scopes, h.cancelled, (List.append_nil s.results).symm ▸
          h.fed_of_point fun scope request => hp ▸ nofun, rfl⟩
      · cases hs
    · cases hs

theorem Inv.received (h : Inv f s₀ s) (hf : f.Lawful Ok) (h₀ : Ok s₀) {chunk : Bytes}
    (hs : step f s (.received chunk) = some s') : Inv f s₀ s' := by
  simp only [step] at hs
  split at hs
  · next scope buffer hp =>
    obtain ⟨hreceiving, hfed, htake, hoffer⟩ := h.recv hp
    split at hs
    · next hrunning =>
      cases hs
      unfold State.received
      simp only
      split
      · next r consumer hgive =>
        refine (hreceiving.feed consumer (s.chunks ++ [chunk])).finish hrunning.1 ?_
          fun msg hmsg => ?_
        · rw [result?_ofNext]
          exact .gave hfed htake hoffer hgive
        · cases r <;> cases hmsg
      · next consumer hgive =>
        have hgave : f.Fed s₀ (s.chunks ++ [chunk]) (s.results ++ []) consumer :=
          .gave hfed htake hoffer hgive
        exact (hreceiving.feed consumer (s.chunks ++ [chunk])).read hrunning.1 hf h₀
          ((List.append_nil s.results) ▸ hgave) (hf.give_none (hfed.ok hf h₀) hgive)
    · cases hs
  · cases hs

theorem Inv.recvEnds (h : Inv f s₀ s) {buffer : WriteBuffer} (hp : s.point = .recv scope buffer)
    (hrunning : s.Running) {exc : Raised P ι E}
    (hexc : exc = .stopAsyncIteration ∨ ∃ e, exc = .transport e) :
    Inv f s₀ (s.finish scope (.error exc)) := by
  obtain ⟨hreceiving, hfed, -, -⟩ := h.recv hp
  refine hreceiving.finish hrunning ?_ fun msg hmsg => ?_
  · rcases hexc with rfl | ⟨e, rfl⟩ <;> exact (List.append_nil s.results).symm ▸ hfed
  · rcases hexc with rfl | ⟨e, rfl⟩ <;> cases hmsg

theorem Inv.step (h : Inv f s₀ s) (hf : f.Lawful Ok) (h₀ : Ok s₀) {a : Action E}
    (hs : step f s a = some s') : Inv f s₀ s' := by
  cases a with
  | loop a => exact h.loop hs
  | resume => exact h.resume hs
  | code a => exact h.code hs
  | generatorYields timeout i expired => exact h.generatorYields hf h₀ hs
  | generatorStops => exact h.generatorEnds (.inl rfl) hs
  | generatorRaises => exact h.generatorEnds (.inr rfl) hs
  | received chunk => exact h.received hf h₀ hs
  | endOfStream =>
    simp only [StreamServer.step] at hs
    split at hs
    · next hp =>
      split at hs
      · next hrunning =>
        cases hs
        exact h.recvEnds hp hrunning (.inl rfl)
      · cases hs
    · cases hs
  | recvRaises exc disconnected =>
    simp only [StreamServer.step] at hs
    split at hs
    · next hp =>
      split at hs
      · next hrunning =>
        cases hs
        cases disconnected with
        | true => exact h.recvEnds hp hrunning (.inl rfl)
        | false => exact h.recvEnds hp hrunning (.inr ⟨exc, rfl⟩)
      · cases hs
    · cases hs
  | close =>
    cases hs
    exact h.setScopes h.scopes (Nat.le_refl _) fun _ => rfl

/-! ## The coroutine of a client -/

/-- What the generator is resumed with, from a consumer in the state `s₀`. -/
structure Serves (E : Type) (f : Feeder σ Bytes WriteBuffer (NextResult P ι)) (s₀ : σ) : Prop where
  /-- the results of the consumer are what the chunks give, up to those that are still to be
      taken -/
  exact : ∀ {clears as} {s : State σ P ι E},
    Trans.run (step f) (.init clears s₀) as = some s → ∀ rs buffer c,
    f.Feeds s₀ s.chunks rs buffer c ↔
      ∃ ws, f.Ready s.consumer ws buffer c ∧ rs = s.results ++ s.held ++ ws
  /-- while the transport is read, nothing is -/
  reading : ∀ {clears as} {s : State σ P ι E},
    Trans.run (step f) (.init clears s₀) as = some s → ∀ scope buffer,
    s.point = .recv scope buffer → f.Feeds s₀ s.chunks s.results buffer s.consumer
  /-- the request is sent after the shielded `yield` -/
  held : ∀ {clears as} {s s' : State σ P ι E},
    Trans.run (step f) (.init clears s₀) as = some s → ∀ scope request,
    s.point = .shieldedYield scope request → step f s .resume = some s' →
    s'.resumptions = s.resumptions ++ [.asend request]
  /-- a timeout that has expired is no `CancelledError` for the generator, then or later -/
  timeout : ∀ {clears as} {s : State σ P ι E},
    Trans.run (step f) (.init clears s₀) as = some s → s.scopes.external = 0 →
    (∀ msg, .athrow (.cancelledError msg) ∉ s.resumptions) ∧
    (s.scopes.stack = [] → s.scopes.task.thrown = none)
  /-- the generator is resumed once for each time that it has yielded -/
  once : ∀ {clears as} {s : State σ P ι E},
    Trans.run (step f) (.init clears s₀) as = some s →
    (s.point = .generator → s.resumptions.length = s.yields) ∧
    (s.generator = .suspended → s.resumptions.length + 1 = s.yields)
  /-- a stream that ends, or is disconnected, leaves nothing in the consumer that could be given -/
  ends : ∀ {clears as} {s s' : State σ P ι E},
    Trans.run (step f) (.init clears s₀) as = some s → ∀ scope buffer,
    s.point = .recv scope buffer →
    step f s .endOfStream = some s' ∨ (∃ exc, step f s (.recvRaises exc true) = some s') →
    s'.point = .aclose true ∧ s'.resumptions = s.resumptions ∧
      f.Feeds s₀ s'.chunks s'.results buffer s'.consumer
  /-- it is closed when the coroutine ends -/
  closed : ∀ {clears as} {s : State σ P ι E},
    Trans.run (step f) (.init clears s₀) as = some s → ∀ graceful,
    s.point = .ended graceful → s.generator = .closed

theorem serves (hf : f.Lawful Ok) (h₀ : Ok s₀) : Serves E f s₀ := by
  have hinv : ∀ {clears as} {s : State σ P ι E},
      Trans.run (step f) (.init clears s₀) as = some s → Inv f s₀ s := fun hrun =>
    Trans.run_inv (fun _ _ _ hi hs => hi.step hf h₀ hs) (.init f _ s₀) hrun
  constructor
  case exact => exact fun hrun rs buffer c => (hinv hrun).fed.feeds_iff hf h₀
  case reading =>
    intro clears as s hrun scope buffer hp
    obtain ⟨-, hfed, htake, hoffer⟩ := (hinv hrun).recv hp
    exact (hfed.feeds_iff hf h₀).2 ⟨[], .ready htake hoffer, (List.append_nil _).symm⟩
  case held =>
    intro clears as s s' hrun scope request hp hs
    rw [step_yielded hp] at hs
    obtain ⟨scopes, hscopes, rfl⟩ := Option.map_eq_some_iff.1 hs
    obtain ⟨hreceiving, hrunning⟩ := (hinv hrun).yielded hp hscopes
    exact hreceiving.finish_ok hrunning request
  case timeout =>
    intro clears as s hrun hzero
    refine ⟨(hinv hrun).cancelled hzero, fun hstack => ?_⟩
    cases hthrown : s.scopes.task.thrown with
    | none => rfl
    | some msg =>
      rcases (hinv hrun).scopes.thrown msg hthrown with hpos | ⟨j, hj, -⟩
      · exact absurd hzero (Nat.ne_of_gt hpos)
      · rw [hstack] at hj
        cases hj
  case once =>
    intro clears as s hrun
    have hpoint := (hinv hrun).point
    unfold At at hpoint
    split at hpoint
    · next hp =>
      refine ⟨fun _ => hpoint.2, fun hsuspended => ?_⟩
      cases hpoint.1.symm.trans hsuspended
    · next hp =>
      refine ⟨fun hgenerator => ?_, fun _ => hpoint.once⟩
      cases hp.symm.trans hgenerator
    · next hp =>
      refine ⟨fun hgenerator => ?_, fun _ => hpoint.1.once⟩
      cases hp.symm.trans hgenerator
    all_goals
      next hp =>
      refine ⟨fun hgenerator => ?_, fun hsuspended => ?_⟩
      · cases hp.symm.trans hgenerator
      · cases hpoint.symm.trans hsuspended
  case ends =>
    intro clears as s s' hrun scope buffer hp hs
    obtain ⟨hreceiving, hfed, htake, hoffer⟩ := (hinv hrun).recv hp
    have heq : s.Running ∧ s.finish scope (.error .stopAsyncIteration) = s' := by
      rcases hs with hs | ⟨exc, hs⟩
      all_goals
        simp only [StreamServer.step, hp] at hs
        split at hs <;> cases hs
        exact ⟨‹_›, rfl⟩
    obtain ⟨scopes, hstop⟩ := hreceiving.finish_stop heq.1
    cases heq.2.symm.trans hstop
    refine ⟨rfl, rfl, (hfed.feeds_iff hf h₀).2 ⟨[], .ready htake hoffer, ?_⟩⟩
    exact (List.append_nil _).symm
  case closed =>
    intro clears as s hrun graceful hp
    have hpoint := (hinv hrun).point
    unfold At at hpoint
    rw [hp] at hpoint
    exact hpoint

end

/-- **Timeouts lose no request: the generator of a client is resumed with what the received bytes
    give, in order and once each, whether the chunks are given to the consumer or written into its
    buffer; and it is closed in the end.** -/
theorem requests_served {σ σ' P ι E : Type} (proto : StreamProtocol σ P ι) (maxRecvSize : ℕ)
    (buffered : BufferedStreamProtocol σ' P ι) (bufferSizeHint : ℕ) :
    Serves E (StreamEndpoint.dataReceiver proto maxRecvSize) .init ∧
      Serves E (StreamEndpoint.bufferedReceiver buffered) (.init bufferSizeHint) :=
  ⟨serves (StreamEndpoint.dataReceiver_lawful proto maxRecvSize) trivial,
    serves (StreamEndpoint.bufferedReceiver_lawful buffered) fun _ => rfl⟩

open AutoSeparatedPacketSerializer in
/-- Two requests in one read, of which the second one is sent although its timeout has expired; the
    timeout of a read; and the end of the stream. -/
theorem requests_served_timeouts :
    let S := raw [10] 16 (by decide) (by decide)
    let as : List (Action Unit) := [.generatorYields ⊤ 0 false, .received [65, 10, 66, 10],
      .generatorYields ((5 : ℚ) : Delay) 0 false, .loop (.cancelScope 0 none), .resume,
      .generatorYields ((5 : ℚ) : Delay) 1 false, .code (.await false),
      .loop (.cancelScope 1 none), .loop .runDelayed, .resume,
      .generatorYields ⊤ 2 false, .endOfStream, .generatorStops]
    let resumptions : List (Resumption Bytes Unit Unit) :=
      [.asend [65], .asend [66], .athrow .timeoutError]
    ∃ s s', Trans.run (step (StreamEndpoint.dataReceiver (S.protocol none) 8))
        (.init true .init) as = some s ∧
      Trans.run (step (StreamEndpoint.bufferedReceiver (S.bufferedProtocol none)))
        (.init true (.init 8)) as = some s' ∧
      s.resumptions = resumptions ∧ s'.resumptions = resumptions ∧
      s.generator = .closed ∧ s'.generator = .closed := by
  intro S as resumptions
  obtain ⟨hdata, hbuffered⟩ :=
    requests_served (E := Unit) (S.protocol none) 8 (S.bufferedProtocol none) 8
  have hview : (Trans.run (step (StreamEndpoint.dataReceiver (S.protocol none) 8))
      (.init true .init) as).map (fun s => (s.resumptions, s.point)) =
        some (resumptions, .ended true) := by decide +kernel
  have hview' : (Trans.run (step (StreamEndpoint.bufferedReceiver (S.bufferedProtocol none)))
      (.init true (.init 8)) as).map (fun s => (s.resumptions, s.point)) =
        some (resumptions, .ended true) := by decide +kernel
  obtain ⟨s, hs, hended⟩ := Option.map_eq_some_iff.1 hview
  obtain ⟨s', hs', hended'⟩ := Option.map_eq_some_iff.1 hview'
  obtain ⟨h1, h2⟩ := Prod.mk.inj hended
  obtain ⟨h1', h2'⟩ := Prod.mk.inj hended'
  exact ⟨s, s', hs, hs', h1, h1', hdata.closed hs true h2, hbuffered.closed hs' true h2'⟩

end StreamServer

end EasyNetwork
