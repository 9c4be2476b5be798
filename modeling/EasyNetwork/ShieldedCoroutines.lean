/-
  What the coroutines under a shielded await are sent.

  Only the code of the outermost shielded await receives a `CancelledError`: what it sends on is the
  outcome of the future that has been awaited, and this is all that nested shielded awaits and the
  coroutine see.

  * `resume_spec`: a coroutine below a shielded await, which is sent what it awaits.
  * `resume_outermost`: the outermost shielded await, which may receive a `CancelledError` and has
    it delivered again.
-/
import EasyNetwork.ShieldedAwait

namespace EasyNetwork

open AsyncioTask

namespace ShieldedAwait

variable {V E : Type} (w : ℕ → Outcome V E)

/-! ## What coroutines are sent without cancellations -/

/-- The outcome of the future on which a suspended coroutine depends. -/
def Suspended.target : Suspended V E → Outcome V E
  | .await f _ => w f
  | .coroYield _ => .result none
  | .cancelShieldedCoroYield _ => .result none
  | .cancelShieldedAwait _ _ inner _ => inner.target

/-- The end of a suspended coroutine without cancellations. -/
def Suspended.eval : Suspended V E → Outcome V E
  | .await f next => (next (w f)).eval w
  | .coroYield next => (next (.result none)).eval w
  | .cancelShieldedCoroYield next => (next (.result none)).eval w
  | .cancelShieldedAwait _ _ inner next => (next inner.eval).eval w

/-- If what has been yielded is done, this is its outcome. -/
def ToYield.Gives (o : Outcome V E) : ToYield V E → Prop
  | .none => o = .result Option.none
  | .future f => o = w f
  | .shield state => ∀ o' ∈ state, o' = o

/-- A nested shielded await has received no `CancelledError`, and waits for what its coroutine
    awaits. -/
def Suspended.Nested : Suspended V E → Prop
  | .cancelShieldedAwait coroutine frame inner _ =>
    frame.lastCancellation = none ∧ frame.toYield.Gives w (inner.target w) ∧
      inner.eval w = coroutine.eval w ∧ inner.Nested
  | _ => True

/-- The outermost shielded await. -/
inductive Suspended.Outermost : Suspended V E → Prop
  | coroYield : Outermost (.cancelShieldedCoroYield .ended)
  | await {coroutine : Coroutine V E} {frame : Frame V E} {inner : Suspended V E}
      (gives : frame.toYield.Gives w (inner.target w))
      (eval : inner.eval w = coroutine.eval w) (nested : inner.Nested w) :
      Outermost (.cancelShieldedAwait coroutine frame inner .ended)

/-- The coroutine ends with this outcome, or will. -/
def Progress.Gives (o : Outcome V E) : Progress V E → Prop
  | .ended o' => o' = o
  | .suspended c => c.eval w = o ∧ c.Nested w

/-- What shielded coroutines have observed, and how they have ended. -/
structure Env.Good (env : Env V E) : Prop where
  observed : ∀ o ∈ env.observed, ∀ msg, o ≠ .cancelledError msg
  ended : ∀ p ∈ env.ended, p.2 = p.1.eval w

/-- What the code of shielded coroutines changes if it receives no `CancelledError`. -/
structure Runs (env env' : Env V E) : Prop where
  waiter : env'.scopes.task.waiter = env.scopes.task.waiter
  ready : env'.scopes.task.ready = env.scopes.task.ready
  delayed : env'.scopes.task.delayed = env.scopes.task.delayed
  mustCancel : env.scopes.task.mustCancel = true → env'.scopes.task.mustCancel = true
  stack : env'.scopes.stack = env.scopes.stack
  shield : env'.scopes.shield = env.scopes.shield
  external : env.scopes.external ≤ env'.scopes.external
  requested : env.scopes.external < env'.scopes.external → env'.scopes.task.mustCancel = true
  failed : env'.failed = env.failed
  good : env.Good w → env'.Good w

section
variable {w} {env env' env'' : Env V E} {o : Outcome V E} {done : ℕ → Bool}

theorem Runs.refl (env : Env V E) : Runs w env env where
  waiter := rfl
  ready := rfl
  delayed := rfl
  mustCancel := id
  stack := rfl
  shield := rfl
  external := Nat.le_refl _
  requested h := absurd h (Nat.lt_irrefl _)
  failed := rfl
  good := id

/-- A cancellation that was requested before is still there. -/
theorem Runs.requested_of (h' : Runs w env' env'')
    (h : env.scopes.external < env'.scopes.external → env'.scopes.task.mustCancel = true)
    (hlt : env.scopes.external < env''.scopes.external) : env''.scopes.task.mustCancel = true := by
  rcases Nat.lt_or_ge env.scopes.external env'.scopes.external with hlt' | hle
  · exact h'.mustCancel (h hlt')
  · exact h'.requested (Nat.lt_of_le_of_lt hle hlt)

theorem Runs.trans (h : Runs w env env') (h' : Runs w env' env'') : Runs w env env'' where
  waiter := h'.waiter.trans h.waiter
  ready := h'.ready.trans h.ready
  delayed := h'.delayed.trans h.delayed
  mustCancel := h'.mustCancel ∘ h.mustCancel
  stack := h'.stack.trans h.stack
  shield := h'.shield.trans h.shield
  external := h.external.trans h'.external
  requested := h'.requested_of h.requested
  failed := h'.failed.trans h.failed
  good := h'.good ∘ h.good

theorem Runs.observe (ho : ∀ msg, o ≠ .cancelledError msg) : Runs w env (env.observe o) :=
  { Runs.refl (w := w) env with
    good := fun h =>
      { observed := fun o' ho' => by
          rcases List.mem_append.1 ho' with ho' | ho'
          · exact h.observed o' ho'
          · rw [List.mem_singleton.1 ho']
            exact ho
        ended := h.ended } }

theorem Runs.record {coroutine : Coroutine V E} (ho : o = coroutine.eval w) :
    Runs w env (env.record coroutine o) :=
  { Runs.refl (w := w) env with
    good := fun h =>
      { observed := h.observed
        ended := fun p hp => by
          rcases List.mem_append.1 hp with hp | hp
          · exact h.ended p hp
          · rw [List.mem_singleton.1 hp]
            exact ho } }

theorem Runs.cancelTask (hrunning : env.scopes.task.waiter = .running) (msg : Option String) :
    Runs w env (env.cancelTask msg) := by
  unfold Env.cancelTask
  rw [cancel_running _ hrunning]
  exact
    { Runs.refl (w := w) env with
      mustCancel := fun _ => rfl
      external := Nat.le_succ _
      requested := fun _ => rfl
      good := fun h => ⟨h.observed, h.ended⟩ }

theorem Runs.checkPending (hrunning : env.scopes.task.waiter = .running) :
    Runs w env env.checkPending := by
  have htask : env.checkPending.scopes.task = env.scopes.task :=
    CancelScope.task_checkPending hrunning _
  obtain ⟨hshield, hstack, hexternal⟩ :=
    CancelScope.checkPending_frame (s := env.scopes) env.scopes.stack
  exact
    { waiter := by rw [htask]
      ready := by rw [htask]
      delayed := by rw [htask]
      mustCancel := fun h => by rwa [htask]
      stack := hstack
      shield := hshield
      external := Nat.le_of_eq hexternal.symm
      requested := fun hlt => absurd hexternal (Nat.ne_of_gt hlt)
      failed := rfl
      good := fun h => ⟨h.observed, h.ended⟩ }

/-! ## The coroutines under the outermost shield -/

theorem Frame.outcome_eq {frame : Frame V E} (h : frame.toYield.Gives w o)
    {o' : Outcome V E} (ho : frame.outcome w done = some o') : o' = o := by
  unfold Frame.outcome at ho
  unfold ToYield.Gives at h
  split at ho
  · next hyield =>
    rw [hyield] at h
    cases ho
    exact h.symm
  · next hyield =>
    rw [hyield] at h
    split at ho
    · cases ho
      exact h.symm
    · cases ho
  · next hyield =>
    rw [hyield] at h
    exact h o' ho

theorem target_ne (hw : ∀ f msg, w f ≠ .cancelledError msg) (c : Suspended V E)
    (msg : CancelMessage) : c.target w ≠ .cancelledError msg := by
  induction c with
  | await f next => exact hw f msg
  | coroYield next => exact nofun
  | cancelShieldedCoroYield next => exact nofun
  | cancelShieldedAwait coroutine frame inner next ih => exact ih

theorem shieldOutcome_of_ne (ho : ∀ msg, o ≠ .cancelledError msg) : shieldOutcome o = o := by
  cases o with
  | cancelledError msg => exact absurd rfl (ho msg)
  | _ => rfl

/-- A new `asyncio.shield()` is not done. -/
theorem yielded_gives (c : Suspended V E) (h : c.Nested w) :
    c.yielded.Gives w (c.target w) := by
  cases c with
  | await f next => rfl
  | coroYield next => rfl
  | cancelShieldedCoroYield next => rfl
  | cancelShieldedAwait coroutine frame inner next =>
    have hgives := h.2.1
    unfold Suspended.yielded
    simp only
    split
    · next hyield =>
      rw [hyield] at hgives
      exact hgives
    · exact nofun

/-- What a coroutine does up to its first suspension. -/
theorem start_spec (done : ℕ → Bool) (hw : ∀ f msg, w f ≠ .cancelledError msg)
    (coroutine : Coroutine V E) (hrunning : env.scopes.task.waiter = .running) :
    Runs w env (start w done coroutine env).2 ∧
      (start w done coroutine env).1.Gives w (coroutine.eval w) := by
  induction coroutine generalizing env with
  | ended o => exact ⟨Runs.refl env, rfl⟩
  | await f next ih =>
    unfold start
    split
    · obtain ⟨hruns, hgives⟩ := ih (w f)
        (show (env.observe (w f)).scopes.task.waiter = .running from hrunning)
      exact ⟨(Runs.observe (hw f)).trans hruns, hgives⟩
    · exact ⟨Runs.refl env, rfl, trivial⟩
  | coroYield next ih => exact ⟨Runs.refl env, rfl, trivial⟩
  | cancelShieldedCoroYield next ih => exact ⟨Runs.refl env, rfl, trivial⟩
  | cancelTask msg next ih =>
    have hruns := Runs.cancelTask (w := w) hrunning msg
    obtain ⟨hruns', hgives⟩ := ih (hruns.waiter.trans hrunning)
    exact ⟨hruns.trans hruns', hgives⟩
  | cancelShieldedAwait coroutine next ih ihnext =>
    obtain ⟨hruns, hgives⟩ := ih hrunning
    unfold start
    split
    · next o env' heq =>
      rw [heq] at hruns hgives
      have ho : o = coroutine.eval w := hgives
      have hrecord := hruns.trans (Runs.record ho)
      obtain ⟨hruns', hgives'⟩ := ihnext o
        (hrecord.waiter.trans hrunning)
      rw [ho] at hgives'
      exact ⟨hrecord.trans (ho ▸ hruns'), ho ▸ hgives'⟩
    · next inner env' heq =>
      rw [heq] at hruns hgives
      obtain ⟨heval, hnested⟩ : inner.eval w = coroutine.eval w ∧ inner.Nested w := hgives
      refine ⟨hruns, ?_, rfl, yielded_gives inner hnested, heval, hnested⟩
      show (next (inner.eval w)).eval w = (next (coroutine.eval w)).eval w
      rw [heval]

/-- An exception that is thrown into a shielded await is the one of the future. -/
def Received (o input : Outcome V E) : Prop :=
  input = o ∨ (∃ msg, input = .cancelledError msg) ∨ ∃ value, input = .result value

/-- What is sent on is the outcome of the future. -/
theorem send_eq {frame : Frame V E} {input sent : Outcome V E} (hgives : frame.toYield.Gives w o)
    (hinput : Received o input) (hsend : frame.send w done input = some sent) : sent = o := by
  unfold Frame.send at hsend
  split at hsend
  · cases hsend
    rcases hinput with heq | ⟨msg, ⟨⟩⟩ | ⟨value, ⟨⟩⟩
    exact heq
  · cases hsend
    rcases hinput with heq | ⟨msg, ⟨⟩⟩ | ⟨value, ⟨⟩⟩
    exact heq
  · exact Frame.outcome_eq hgives hsend

/-- What a shielded await has received is delivered again. -/
theorem delayed_eq {frame : Frame V E} {input : Outcome V E} (hgives : frame.toYield.Gives w o)
    (ho : ∀ msg, o ≠ .cancelledError msg) :
    frame.delayed w done input = frame.receive input := by
  unfold Frame.delayed
  split
  · next msg houtcome => exact absurd (Frame.outcome_eq hgives houtcome).symm (ho msg)
  · rfl

/-- A coroutine below a shielded await is sent what it awaits. -/
theorem resume_spec (done : ℕ → Bool) (hw : ∀ f msg, w f ≠ .cancelledError msg)
    (c : Suspended V E) (hnested : c.Nested w) {input : Outcome V E} (hinput : input = c.target w)
    (hrunning : env.scopes.task.waiter = .running) :
    Runs w env (resume w done c input env).2 ∧
      (resume w done c input env).1.Gives w (c.eval w) := by
  have hne : ∀ msg, input ≠ .cancelledError msg := hinput ▸ target_ne hw c
  induction c generalizing input env with
  | await f next =>
    have ho : resumeFuture w f input = w f := by
      rw [hinput]
      unfold resumeFuture Suspended.target
      split <;> rfl
    unfold resume
    rw [ho]
    have hobserve : Runs w env (env.observe (w f)) := Runs.observe (hw f)
    obtain ⟨hruns, hgives⟩ := start_spec done hw (next (w f))
      (hobserve.waiter.trans hrunning)
    exact ⟨hobserve.trans hruns, hgives⟩
  | coroYield next =>
    have hobserve : Runs w env (env.observe input) := Runs.observe hne
    obtain ⟨hruns, hgives⟩ := start_spec done hw (next input)
      (hobserve.waiter.trans hrunning)
    refine ⟨hobserve.trans hruns, ?_⟩
    rw [hinput] at hgives ⊢
    exact hgives
  | cancelShieldedCoroYield next =>
    rw [hinput]
    exact start_spec done hw (next (.result none)) hrunning
  | cancelShieldedAwait coroutine frame inner next ih =>
    obtain ⟨hlast, hgives, heval, hinner⟩ := hnested
    have htarget : input = inner.target w := hinput
    have hreceive : frame.receive input = none := by
      unfold Frame.receive
      split
      · next msg => exact absurd rfl (hne msg)
      · exact hlast
    unfold resume
    split
    · refine ⟨Runs.refl env, rfl, hreceive, hgives, heval, hinner⟩
    · next sent hsend =>
      have hsent := send_eq hgives (.inl htarget) hsend
      rw [delayed_eq hgives (target_ne hw inner), hreceive]
      simp only [Env.reschedule]
      obtain ⟨hruns, hprogress⟩ := ih hinner hsent hrunning (hsent ▸ target_ne hw inner)
      split
      · next o env' heq =>
        rw [heq] at hruns hprogress
        have ho : o = inner.eval w := hprogress
        have hcheck := hruns.trans (Runs.checkPending (hruns.waiter.trans hrunning))
        have hrecord := hcheck.trans (Runs.record (ho.trans heval))
        obtain ⟨hruns', hgives'⟩ := start_spec done hw (next o)
          (hrecord.waiter.trans hrunning)
        refine ⟨hrecord.trans hruns', ?_⟩
        rw [ho] at hgives' ⊢
        exact hgives'
      · next inner' env' heq =>
        rw [heq] at hruns hprogress
        obtain ⟨heval', hnested'⟩ : inner'.eval w = inner.eval w ∧ inner'.Nested w := hprogress
        refine ⟨hruns, ?_, rfl, yielded_gives inner' hnested', heval'.trans heval, hnested'⟩
        show (next (inner'.eval w)).eval w = (next (inner.eval w)).eval w
        rw [heval']

end

/-! ## The outermost shielded await -/

/-- Its code has received a `CancelledError` that it has not had delivered again. -/
def Suspended.received (input : Outcome V E) : Suspended V E → Option CancelMessage
  | .cancelShieldedAwait _ frame _ _ => frame.receive input
  | _ => Frame.receive (V := V) (E := E) ⟨.none, none⟩ input

/-- The last `CancelledError` that it has received while it waits. -/
def Suspended.lastCancellation : Suspended V E → Option CancelMessage
  | .cancelShieldedAwait _ frame _ _ => frame.lastCancellation
  | _ => none

/-- What it changes, if the coroutine goes on. -/
structure Resumes (received : Option CancelMessage) (env env' : Env V E) : Prop where
  ordered : Ordered env'.scopes.task
  waiter : env'.scopes.task.waiter = .running
  stack : env'.scopes.stack = env.scopes.stack
  shield : env'.scopes.shield = env.scopes.shield
  requested : env.scopes.external < env'.scopes.external → env'.scopes.task.mustCancel = true
  failed : env'.failed = env.failed
  good : env.Good w → env'.Good w
  delivered : received.isSome → ∃ msg, .cancelTaskUnlessDone msg ∈ env'.scopes.task.ready

section
variable {w} {env env' env'' : Env V E} {o : Outcome V E} {done : ℕ → Bool}
  {received : Option CancelMessage}

theorem Resumes.runs (h : Resumes w received env env') (h' : Runs w env' env'') :
    Resumes w received env env'' where
  ordered := by
    obtain ⟨front, hfront, hready⟩ := h.ordered
    exact ⟨front, h'.delayed ▸ hfront, by rw [h'.ready, h'.waiter, hready]⟩
  waiter := h'.waiter.trans h.waiter
  stack := h'.stack.trans h.stack
  shield := h'.shield.trans h.shield
  requested := h'.requested_of h.requested
  failed := h'.failed.trans h.failed
  good := h'.good ∘ h.good
  delivered hreceived := h'.ready ▸ h.delivered hreceived

/-- What has been received is rescheduled, for nothing is delayed when the task is resumed. -/
theorem reschedule_spec (received : Option CancelMessage) (hordered : Ordered env.scopes.task)
    (hrunning : env.scopes.task.waiter = .running) (hready : env.scopes.task.ready = [])
    (hdelayed : env.scopes.task.delayed = none) :
    ∃ env', env.reschedule received = some env' ∧ Resumes w received env env' := by
  cases received with
  | none =>
    exact ⟨env, rfl, hordered, hrunning, rfl, rfl, fun hlt => absurd hlt (Nat.lt_irrefl _), rfl, id,
      nofun⟩
  | some msg =>
    obtain ⟨heq, hnext⟩ :=
      Ordered.rescheduleDelayedTaskCancel msg hrunning hready hdelayed
    refine ⟨env.setTask _, congrArg (Option.map env.setTask) heq, ?_⟩
    exact
      { ordered := hnext
        waiter := hrunning
        stack := rfl
        shield := rfl
        requested := fun hlt => absurd hlt (Nat.lt_irrefl _)
        failed := rfl
        good := fun h => ⟨h.observed, h.ended⟩
        delivered := fun _ => ⟨msg, List.mem_cons_self⟩ }

/-- The outermost shielded await is resumed: it waits again, or its coroutine goes on. -/
theorem resume_outermost (env : Env V E) (done : ℕ → Bool)
    (hw : ∀ f msg, w f ≠ .cancelledError msg) {c : Suspended V E} (hc : c.Outermost w)
    {input : Outcome V E}
    (hinput : Received (c.target w) input)
    (hordered : Ordered env.scopes.task) (hrunning : env.scopes.task.waiter = .running)
    (hready : env.scopes.task.ready = []) (hdelayed : env.scopes.task.delayed = none) :
    (∃ c', resume w done c input env = (.suspended c', env) ∧ c'.Outermost w ∧
      c'.lastCancellation = c.received input) ∨
    Resumes w (c.received input) env (resume w done c input env).2 ∧
      ∀ c', (resume w done c input env).1 = .suspended c' → c'.Outermost w := by
  cases hc with
  | coroYield =>
    refine .inr ?_
    obtain ⟨env', hreschedule, hresumes⟩ := reschedule_spec (w := w)
      (Suspended.received input (.cancelShieldedCoroYield .ended)) hordered hrunning hready hdelayed
    cases input with
    | cancelledError msg =>
      have heq : env.reschedule (some msg) = some env' := hreschedule
      simp only [resume, heq]
      exact ⟨hresumes, nofun⟩
    | _ =>
      cases hreschedule
      exact ⟨hresumes, nofun⟩
  | @await coroutine frame inner hgives heval hnested =>
    unfold resume
    split
    · next hsend =>
      exact .inl ⟨_, rfl, .await hgives heval hnested, rfl⟩
    · next sent hsend =>
      refine .inr ?_
      have hsent := send_eq hgives hinput hsend
      obtain ⟨env₁, hreschedule, hresumes⟩ := reschedule_spec (w := w) (frame.receive input)
        hordered hrunning hready hdelayed
      rw [delayed_eq hgives (target_ne hw inner), hreschedule]
      obtain ⟨hruns, hprogress⟩ := resume_spec done hw inner hnested hsent hresumes.waiter
      simp only
      split
      · next o env' heq =>
        rw [heq] at hruns hprogress
        have ho : o = inner.eval w := hprogress
        have hcheck := (hresumes.runs hruns).runs
          (Runs.checkPending (hruns.waiter.trans hresumes.waiter))
        exact ⟨hcheck.runs (Runs.record (ho.trans heval)), nofun⟩
      · next inner' env' heq =>
        rw [heq] at hruns hprogress
        obtain ⟨heval', hnested'⟩ : inner'.eval w = inner.eval w ∧ inner'.Nested w := hprogress
        refine ⟨hresumes.runs hruns, fun c' hc' => ?_⟩
        cases hc'
        exact .await (yielded_gives inner' hnested') (heval'.trans heval) hnested'

end

end ShieldedAwait

end EasyNetwork
