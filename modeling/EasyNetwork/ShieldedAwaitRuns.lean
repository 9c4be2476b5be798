/-
  What happens to shielded coroutines in a run, and to cancellations that are requested meanwhile.

  A cancellation that a shielded await has received is delayed, or kept while it waits again; when
  the task is resumed, everything that has been delayed before has been delivered.

  `run_shielded`: a shielded coroutine observes no `CancelledError` and ends as it does without
  cancellations, no cancellation is rescheduled twice, and the task receives it when it is suspended
  elsewhere.
-/
import EasyNetwork.ShieldedCoroutines

namespace EasyNetwork

open AsyncioTask

namespace ShieldedAwait

variable {V E : Type} (w : ℕ → Outcome V E)

/-! ## Cancellations that are not lost -/

/-- A cancellation that the next step of the task is going to receive. -/
def Pending (t : AsyncioTask) : Prop :=
  t.waiter = .done ∨ t.thrown.isSome ∨ ∃ msg, .cancelTaskUnlessDone msg ∈ t.ready

section
variable {t t' : AsyncioTask}

theorem thrown_of_mustCancel (h : t.mustCancel = true) : t.thrown.isSome := by
  unfold AsyncioTask.thrown
  split
  · rfl
  · rw [if_pos h]
    rfl

theorem pending_cancel (msg : CancelMessage) : Pending (t.cancel msg) := by
  unfold AsyncioTask.cancel
  split
  · next hdone => exact .inl hdone
  · exact .inr (.inl rfl)
  · exact .inr (.inl (thrown_of_mustCancel rfl))

/-- A cancellation is still recorded. -/
theorem Pending.keep (h : Pending t) (hwaiter : t.waiter = .done → t'.waiter = .done)
    (hthrown : t.thrown.isSome → t'.thrown.isSome)
    (hready : ∀ msg, .cancelTaskUnlessDone msg ∈ t.ready →
      .cancelTaskUnlessDone msg ∈ t'.ready) : Pending t' := by
  rcases h with hdone | hsome | ⟨msg, hmem⟩
  · exact .inl (hwaiter hdone)
  · exact .inr (.inl (hthrown hsome))
  · exact .inr (.inr ⟨msg, hready msg hmem⟩)

theorem mustCancel_of_thrown (hfuture : ∀ state, t.waiter ≠ .future (.cancelled state))
    (h : t.thrown.isSome) : t.mustCancel = true := by
  obtain ⟨msg, hmsg⟩ := Option.isSome_iff_exists.1 h
  rcases thrown_eq_some.1 hmsg with hwaiter | ⟨-, hmust, -⟩
  · exact absurd hwaiter (hfuture msg)
  · exact hmust

theorem Pending.settle (h : Pending t) : Pending t.settle := by
  unfold AsyncioTask.settle
  split
  · next hwaiter =>
    refine h.keep (fun hdone => ?_) (fun hsome => ?_) fun _ => List.mem_append_left _
    · rw [hwaiter] at hdone
      cases hdone
    · have hmust : t.mustCancel = true := mustCancel_of_thrown (hwaiter ▸ nofun) hsome
      exact thrown_of_mustCancel hmust
  · exact h

theorem Pending.await (h : Pending t) (hrunning : t.waiter = .running) : Pending t.await := by
  have hnot : t.waiter = .done → t.await.waiter = .done := fun hdone => by
    rw [hrunning] at hdone
    cases hdone
  refine h.keep hnot (fun hsome => ?_) fun msg hmem => ?_
  · have hmust := mustCancel_of_thrown (hrunning ▸ nofun) hsome
    unfold AsyncioTask.await
    rw [if_pos hmust]
    rfl
  · unfold AsyncioTask.await
    split
    · exact List.mem_append_left _ hmem
    · exact hmem

theorem Pending.coroYield (h : Pending t) (hrunning : t.waiter = .running) :
    Pending t.coroYield := by
  refine h.keep (fun hdone => ?_) (fun hsome => ?_) fun _ => List.mem_append_left _
  · rw [hrunning] at hdone
    cases hdone
  · have hmust : t.mustCancel = true := mustCancel_of_thrown (hrunning ▸ nofun) hsome
    exact thrown_of_mustCancel hmust

/-- A handle of a delayed cancellation is called. -/
theorem runDelayed_spec (h : Ordered t) (ht : t.runDelayed = some t') :
    Ordered t' ∧ (Pending t → Pending t') := by
  obtain ⟨-, ready, ⟨msg, hready, hnext, rfl⟩ | ⟨hready, hnext, rfl⟩⟩ := h.runDelayed ht
  · unfold AsyncioTask.cancelTaskUnlessDone
    split
    · next hdone => exact ⟨hnext, fun _ => .inl hdone⟩
    · exact ⟨hnext.uncancel.cancel msg, fun _ => pending_cancel msg⟩
  · refine ⟨hnext, fun hpending => hpending.keep id id fun msg hmem => ?_⟩
    rw [hready] at hmem
    exact (List.mem_cons.1 hmem).resolve_left nofun

theorem ordered_resume (h : Ordered t) (ht : t.resume = some t') : Ordered t' := by
  obtain ⟨-, -, hdelayed, rfl⟩ := h.resume ht
  exact ⟨[], hdelayed ▸ .none, rfl⟩

/-- When the task is resumed, it receives the cancellation. -/
theorem Pending.resume (h : Pending t) (hordered : Ordered t) (ht : t.resume = some t') :
    t.thrown.isSome := by
  obtain ⟨-, hwoken, hdelayed, -⟩ := hordered.resume ht
  rcases h with hdone | hsome | ⟨msg, hmem⟩
  · rw [hdone] at hwoken
    cases hwoken
  · exact hsome
  · rw [hordered.delayed_eq hmem] at hdelayed
    cases hdelayed

end

/-! ## The invariant -/

/-- What holds in every reachable state. -/
structure Inv (s : State V E) : Prop where
  ordered : Ordered s.env.scopes.task
  shield : s.env.scopes.shield = none
  failed : s.env.failed = false
  good : s.env.Good w
  outermost : ∀ c, s.shielded = some c → c.Outermost w
  stack : s.owed = true → s.env.scopes.stack = []
  owed : s.owed = true → Pending s.env.scopes.task ∨
    ∃ c, s.shielded = some c ∧ c.lastCancellation.isSome

section
variable {w} {s s' : State V E}

theorem Inv.init (clears : Bool) : Inv w (State.init clears) where
  ordered := Ordered.init clears
  shield := rfl
  failed := rfl
  good := ⟨nofun, nofun⟩
  outermost := nofun
  stack := nofun
  owed := nofun

/-- What steps of the scopes may do to the task. -/
structure Keeps (scopes scopes' : CancelScope.State) : Prop where
  ordered : Ordered scopes'.task
  pending : Pending scopes.task → Pending scopes'.task
  shield : scopes'.shield = scopes.shield
  stack : scopes'.stack = scopes.stack

theorem Inv.keep (h : Inv w s) {scopes : CancelScope.State} (hkeeps : Keeps s.env.scopes scopes) :
    Inv w { s with env := { s.env with scopes := scopes } } where
  ordered := hkeeps.ordered
  shield := hkeeps.shield.trans h.shield
  failed := h.failed
  good := ⟨h.good.observed, h.good.ended⟩
  outermost := h.outermost
  stack howed := hkeeps.stack.trans (h.stack howed)
  owed howed := (h.owed howed).imp_left hkeeps.pending

/-- Without a cancellation that is owed, the scopes may change. -/
theorem Inv.unowed (h : Inv w s) {scopes : CancelScope.State} {owed : Bool}
    (hordered : Ordered scopes.task) (hshield : scopes.shield = none) (hnot : owed ≠ true) :
    Inv w { s with env := { s.env with scopes }, owed } where
  ordered := hordered
  shield := hshield
  failed := h.failed
  good := ⟨h.good.observed, h.good.ended⟩
  outermost := h.outermost
  stack howed := absurd howed hnot
  owed howed := absurd howed hnot

theorem keeps_deliver (scopes : CancelScope.State) (h : Ordered scopes.task) (i : ℕ) :
    Keeps scopes (scopes.deliverCancellation i) := by
  obtain ⟨hshield, hstack, -⟩ := CancelScope.deliverCancellation_frame (s := scopes) (i := i)
  rcases CancelScope.deliverCancellation_task (s := scopes) (i := i) with htask | ⟨-, -, htask⟩
  · exact ⟨htask ▸ h, fun hpending => htask ▸ hpending, hshield, hstack⟩
  · exact ⟨htask ▸ h.cancel _, fun _ => htask ▸ pending_cancel _, hshield, hstack⟩

theorem keeps_cancel {scopes : CancelScope.State} (h : Ordered scopes.task) (i : ℕ)
    (reason : Option String) : Keeps scopes (scopes.cancel i reason) := by
  unfold CancelScope.State.cancel
  simp only
  split
  · exact ⟨h, id, rfl, rfl⟩
  · obtain ⟨hordered, hpending, hshield, hstack⟩ := keeps_deliver (scopes.setScope i
      { scopes.scopes i with
        cancelCalled := true
        cancelReason := some (.scope i reason) }) h i
    exact ⟨hordered, hpending, hshield, hstack⟩

/-- The task changes, and the scopes do not. -/
theorem Keeps.task {scopes : CancelScope.State} {task : AsyncioTask} (hordered : Ordered task)
    (hpending : Pending scopes.task → Pending task) : Keeps scopes { scopes with task := task } :=
  ⟨hordered, hpending, rfl, rfl⟩

/-- A scope is entered. -/
theorem ordered_enter {scopes : CancelScope.State} (h : Ordered scopes.task) (i : ℕ) :
    Ordered (scopes.enter i).task ∧ (scopes.enter i).shield = scopes.shield := by
  unfold CancelScope.State.enter
  simp only
  split
  · obtain ⟨hordered, -, hshield, -⟩ := keeps_deliver (CancelScope.State.setScope
      { scopes with stack := i :: scopes.stack } i
      { scopes.scopes i with
        state := .entered
        hostTaskCancelling := scopes.task.cancelling }) h i
    exact ⟨hordered, hshield⟩
  · exact ⟨h, rfl⟩

theorem ordered_uncancelCalls {t : AsyncioTask} (h : Ordered t) (hostTaskCancelling calls : ℕ) :
    Ordered (CancelScope.uncancelCalls hostTaskCancelling calls t) ∧
      (CancelScope.uncancelCalls hostTaskCancelling calls t).waiter = t.waiter := by
  induction calls generalizing t with
  | zero => exact ⟨h, rfl⟩
  | succ calls ih =>
    unfold CancelScope.uncancelCalls
    simp only
    split
    · exact ⟨h.uncancel, rfl⟩
    · exact ih h.uncancel

/-- A scope is left. -/
theorem ordered_exit {scopes : CancelScope.State} (h : Ordered scopes.task)
    (hrunning : scopes.task.waiter = .running) (i : ℕ) (parents : List ℕ)
    (exc : Option (List CancelScope.Leaf)) :
    Ordered (scopes.exit i parents exc).2.task ∧
      (scopes.exit i parents exc).2.shield = scopes.shield := by
  unfold CancelScope.State.exit
  simp only
  split
  · obtain ⟨hordered, hwaiter⟩ := ordered_uncancelCalls h (scopes.scopes i).hostTaskCancelling
      (scopes.scopes i).hostTaskCancelCalls
    have hdropped := (hordered.dropDelayed (scopes.scopes i).cancelReason).1
    have hwaiter' := ((dropDelayed_fields (scopes.scopes i).cancelReason).2.1.trans hwaiter).trans
      hrunning
    refine ⟨?_, (CancelScope.checkPending_frame parents).1⟩
    rw [CancelScope.task_checkPending]
    · exact hdropped
    · exact hwaiter'
  · refine ⟨?_, (CancelScope.checkPending_frame parents).1⟩
    rw [CancelScope.task_checkPending]
    · exact h
    · exact hrunning

/-! ## The steps -/

theorem suspend_spec {env : Env V E} (hordered : Ordered env.scopes.task)
    (hrunning : env.scopes.task.waiter = .running) (y : ToYield V E) :
    Ordered (env.suspend y).scopes.task ∧
      (Pending env.scopes.task → Pending (env.suspend y).scopes.task) := by
  unfold Env.suspend
  split
  · exact ⟨hordered.coroYield hrunning, fun h => h.coroYield hrunning⟩
  · exact ⟨hordered.await hrunning, fun h => h.await hrunning⟩

theorem suspend_frame (env : Env V E) (y : ToYield V E) :
    (env.suspend y).scopes.stack = env.scopes.stack ∧
      (env.suspend y).scopes.shield = env.scopes.shield ∧ (env.suspend y).failed = env.failed ∧
      (env.Good w → (env.suspend y).Good w) := by
  unfold Env.suspend
  split <;> exact ⟨rfl, rfl, rfl, fun h => ⟨h.observed, h.ended⟩⟩

/-- The task has run the code of a shielded await, which has ended or is suspended. -/
theorem Inv.proceed (h : Inv w s) {task : AsyncioTask} {received : Option CancelMessage}
    {r : Progress V E × Env V E} (hresumes : Resumes w received (s.env.setTask task) r.2)
    (houtermost : ∀ c, r.1 = .suspended c → c.Outermost w)
    (howed : s.owed = true → Pending r.2.scopes.task ∨
      ∃ c, r.1 = .suspended c ∧ c.lastCancellation.isSome) : Inv w (s.proceed r) := by
  obtain ⟨progress, env⟩ := r
  have hgood : env.Good w := hresumes.good ⟨h.good.observed, h.good.ended⟩
  have hshield : env.scopes.shield = none := hresumes.shield.trans h.shield
  have hfailed : env.failed = false := hresumes.failed.trans h.failed
  have hsame : env.scopes.stack = s.env.scopes.stack := hresumes.stack
  -- a cancellation that has been requested meanwhile is recorded
  have hrequested : decide (s.env.scopes.external < env.scopes.external) = true →
      Pending env.scopes.task := fun hlt =>
    .inr (.inl (thrown_of_mustCancel (hresumes.requested (of_decide_eq_true hlt))))
  have hstack : (s.owed || (decide (s.env.scopes.external < env.scopes.external) &&
      env.scopes.stack.isEmpty)) = true → env.scopes.stack = [] := fun howed' => by
    rcases Bool.or_eq_true_iff.1 howed' with howed' | hnew
    · exact hsame.trans (h.stack howed')
    · exact List.isEmpty_iff.1 (Bool.and_eq_true_iff.1 hnew).2
  have hpending : (s.owed || (decide (s.env.scopes.external < env.scopes.external) &&
      env.scopes.stack.isEmpty)) = true → Pending env.scopes.task ∨
        ∃ c, progress = .suspended c ∧ c.lastCancellation.isSome := fun howed' => by
    rcases Bool.or_eq_true_iff.1 howed' with howed' | hnew
    · exact howed howed'
    · exact .inl (hrequested (Bool.and_eq_true_iff.1 hnew).1)
  unfold State.proceed
  cases progress with
  | ended o =>
    exact
      { ordered := hresumes.ordered
        shield := hshield
        failed := hfailed
        good := hgood
        outermost := nofun
        stack := hstack
        owed := fun howed' => by
          rcases hpending howed' with hpend | ⟨c, ⟨⟩, -⟩
          exact .inl hpend }
  | suspended c =>
    obtain ⟨hordered, hpend⟩ := suspend_spec hresumes.ordered hresumes.waiter c.yielded
    obtain ⟨hstack', hshield', hfailed', hgood'⟩ := suspend_frame (w := w) env c.yielded
    exact
      { ordered := hordered
        shield := hshield'.trans hshield
        failed := hfailed'.trans hfailed
        good := hgood' hgood
        outermost := fun c' hc' => Option.some.inj hc' ▸ houtermost c rfl
        stack := fun howed' => hstack'.trans (hstack howed')
        owed := fun howed' => by
          rcases hpending howed' with hnow | ⟨c', hc', hlast⟩
          · exact .inl (hpend hnow)
          · cases hc'
            exact .inr ⟨c, rfl, hlast⟩ }

/-- The task calls a shielded await. -/
theorem Inv.start (h : Inv w s) (hw : ∀ f msg, w f ≠ .cancelledError msg)
    (hrunning : s.env.scopes.task.waiter = .running) (hnone : s.shielded = none)
    {coroutine : Coroutine V E}
    (hcall : coroutine = .cancelShieldedCoroYield .ended ∨
      ∃ inner, coroutine = .cancelShieldedAwait inner .ended) :
    Inv w (s.proceed (start w s.done coroutine s.env)) := by
  obtain ⟨hruns, hgives⟩ := start_spec s.done hw coroutine hrunning
  have hstart : Resumes w none (s.env.setTask s.env.scopes.task) s.env :=
    ⟨h.ordered, hrunning, rfl, rfl, fun hlt => absurd hlt (Nat.lt_irrefl _), rfl, id, nofun⟩
  refine h.proceed (hstart.runs hruns) (fun c hc => ?_) fun howed => ?_
  · rcases hcall with rfl | ⟨inner, rfl⟩
    · cases hc
      exact .coroYield
    · obtain ⟨-, hinner⟩ := start_spec s.done hw inner hrunning
      unfold ShieldedAwait.start at hc
      split at hc
      · cases hc
      · next c' env' heq =>
        rw [heq] at hinner
        cases hc
        exact .await (yielded_gives c' hinner.2) hinner.1 hinner.2
  · rcases h.owed howed with hpending | ⟨c, hc, -⟩
    · refine .inl (hpending.keep (fun hdone => ?_) (fun hsome => ?_) fun msg hmem => ?_)
      · exact hruns.waiter.trans hdone
      · exact thrown_of_mustCancel
          (hruns.mustCancel (mustCancel_of_thrown (hrunning ▸ nofun) hsome))
      · exact hruns.ready ▸ hmem
    · rw [hnone] at hc
      cases hc

/-- What `asyncio.shield()` of the future of a shielded await gives. -/
theorem outcome_eq (hw : ∀ f msg, w f ≠ .cancelledError msg) {coroutine : Coroutine V E}
    {frame : Frame V E} {inner : Suspended V E} {next : Outcome V E → Coroutine V E}
    {done : ℕ → Bool} (hgives : frame.toYield.Gives w (inner.target w)) {o : Outcome V E}
    (ho : (Suspended.cancelShieldedAwait coroutine frame inner next).outcome w done = some o) :
    o = inner.target w := by
  obtain ⟨o', ho', rfl⟩ := Option.map_eq_some_iff.1 ho
  rw [Frame.outcome_eq hgives ho']
  exact shieldOutcome_of_ne (target_ne hw inner)

theorem isSome_receive {frame : Frame V E} (input : Outcome V E)
    (h : frame.lastCancellation.isSome) : (frame.receive input).isSome := by
  unfold Frame.receive
  split
  · rfl
  · exact h

/-- What the task sends or throws into the outermost shielded await. -/
theorem received_input (hw : ∀ f msg, w f ≠ .cancelledError msg) {c : Suspended V E}
    (hc : c.Outermost w) : Received (c.target w) (input w s c) := by
  unfold input
  split
  · next msg _ => exact .inr (.inl ⟨msg, rfl⟩)
  · cases ho : c.outcome w s.done with
    | none => exact .inr (.inr ⟨none, rfl⟩)
    | some o =>
      cases hc with
      | coroYield =>
        cases ho
        exact .inl rfl
      | await hgives heval hnested => exact .inl (outcome_eq hw hgives ho)

/-- The task is resumed in a shielded await. -/
theorem Inv.resume (h : Inv w s) (hw : ∀ f msg, w f ≠ .cancelledError msg) {c : Suspended V E}
    (hc : s.shielded = some c) {task : AsyncioTask} (ht : s.env.scopes.task.resume = some task) :
    Inv w (s.proceed (resume w s.done c (input w s c) (s.env.setTask task))) := by
  have hout := h.outermost c hc
  have hordered := ordered_resume h.ordered ht
  obtain ⟨-, -, hdelayed, htask⟩ := h.ordered.resume ht
  -- the cancellation is received now, or has been
  have hreceived : s.owed = true → (c.received (input w s c)).isSome := by
    intro howed
    rcases h.owed howed with hpending | ⟨c', hc', hlast⟩
    · obtain ⟨msg, hmsg⟩ := Option.isSome_iff_exists.1 (hpending.resume h.ordered ht)
      have hinput : input w s c = .cancelledError msg := by
        unfold input
        rw [hmsg]
      rw [hinput]
      cases hout <;> rfl
    · cases hc.symm.trans hc'
      cases hout with
      | coroYield => cases hlast
      | await =>
        exact isSome_receive _ hlast
  rcases resume_outermost (s.env.setTask task) s.done hw hout
      (received_input hw hout) hordered (htask ▸ rfl) (htask ▸ rfl) (htask ▸ hdelayed) with
    ⟨c', hr, houtermost, hlast⟩ | ⟨hresumes, houtermost⟩
  · rw [hr]
    have hresumes : Resumes w none (s.env.setTask task) (s.env.setTask task) :=
      ⟨hordered, htask ▸ rfl, rfl, rfl, fun hlt => absurd hlt (Nat.lt_irrefl _), rfl, id, nofun⟩
    refine h.proceed hresumes (fun c hc => ?_) fun howed => ?_
    · cases hc
      exact houtermost
    · exact .inr ⟨c', rfl, hlast ▸ hreceived howed⟩
  · exact h.proceed hresumes houtermost fun howed =>
      .inl (.inr (.inr (hresumes.delivered (hreceived howed))))

/-- `asyncio.shield()` of a nested shielded await is done. -/
theorem propagate_spec (hw : ∀ f msg, w f ≠ .cancelledError msg) (done : ℕ → Bool) (depth : ℕ)
    (c : Suspended V E) : (propagate w done depth c).target w = c.target w ∧
      (propagate w done depth c).eval w = c.eval w ∧
      (propagate w done depth c).lastCancellation = c.lastCancellation ∧
      (c.Nested w → (propagate w done depth c).Nested w) ∧
      (c.Outermost w → (propagate w done depth c).Outermost w) := by
  induction depth generalizing c with
  | zero =>
    cases c with
    | cancelShieldedAwait coroutine frame inner next =>
      -- the outcome of what the nested one awaits
      have hgives : inner.Nested w →
          (ToYield.shield (inner.outcome w done)).Gives w (inner.target w) := by
        intro hnested o ho
        cases inner with
        | await f next =>
          simp only [Suspended.outcome] at ho
          split at ho
          · exact (Option.some.inj ho).symm
          · cases ho
        | coroYield next => exact (Option.some.inj ho).symm
        | cancelShieldedCoroYield next => exact (Option.some.inj ho).symm
        | cancelShieldedAwait coroutine frame inner next => exact outcome_eq hw hnested.2.1 ho
      unfold propagate
      split
      · refine ⟨rfl, rfl, rfl, fun hnested => ?_, fun hout => ?_⟩
        · exact ⟨hnested.1, hgives hnested.2.2.2, hnested.2.2⟩
        · cases hout with
          | await _ heval hnested => exact .await (hgives hnested) heval hnested
      · exact ⟨rfl, rfl, rfl, id, id⟩
    | _ => exact ⟨rfl, rfl, rfl, id, id⟩
  | succ depth ih =>
    cases c with
    | cancelShieldedAwait coroutine frame inner next =>
      obtain ⟨htarget, heval, -, hnested, -⟩ := ih inner
      refine ⟨htarget, ?_, rfl, fun hc => ?_, fun hout => ?_⟩
      · show (next ((propagate w done depth inner).eval w)).eval w = (next (inner.eval w)).eval w
        rw [heval]
      · exact ⟨hc.1, htarget.symm ▸ hc.2.1, heval.trans hc.2.2.1, hnested hc.2.2.2⟩
      · cases hout with
        | await hgives' heval' hnested' =>
          exact .await (htarget.symm ▸ hgives') (heval.trans heval') (hnested hnested')
    | _ => exact ⟨rfl, rfl, rfl, id, id⟩

/-- The task is cancelled. -/
theorem Inv.cancelTask (h : Inv w s) {msg : Option String}
    (hs : step w s (.cancelTask msg) = some s') : Inv w s' := by
  obtain ⟨s₁, hs₁, rfl⟩ := Option.map_eq_some_iff.1 hs
  obtain ⟨scopes, hscopes, rfl⟩ := Option.map_eq_some_iff.1 hs₁
  have hkept : Keeps s.env.scopes scopes ∧ (Pending scopes.task) := by
    simp only [CancelScope.step] at hscopes
    split at hscopes
    · next hdone =>
      cases hscopes
      exact ⟨⟨h.ordered, id, rfl, rfl⟩, .inl hdone⟩
    · cases hscopes
      exact ⟨⟨h.ordered.cancel _, fun _ => pending_cancel _, rfl, rfl⟩, pending_cancel _⟩
  obtain ⟨hkeeps, hpending⟩ := hkept
  exact
    { h.keep hkeeps with
      stack := fun howed => by
        rcases Bool.or_eq_true_iff.1 howed with howed | hnew
        · exact hkeeps.stack.trans (h.stack howed)
        · exact List.isEmpty_iff.1 (Bool.and_eq_true_iff.1 hnew).2
      owed := fun _ => .inl hpending }

/-- What the scopes and the task do elsewhere. -/
theorem Inv.scopesStep (h : Inv w s) {a : CancelScope.Action} (hs : s.scopesStep a = some s')
    (hkeeps : ∀ scopes, CancelScope.step s.env.scopes a = some scopes →
      Keeps s.env.scopes scopes) : Inv w s' := by
  obtain ⟨scopes, hscopes, rfl⟩ := Option.map_eq_some_iff.1 hs
  exact h.keep (hkeeps scopes hscopes)

/-- A step of the code of the task that is not in a shielded await. -/
theorem Inv.elsewhere (h : Inv w s) {a : CancelScope.Action}
    (hs : (if s.shielded.isNone then s.scopesStep a else none) = some s')
    (hkeeps : ∀ scopes, CancelScope.step s.env.scopes a = some scopes →
      Keeps s.env.scopes scopes) : Inv w s' := by
  split at hs
  · exact h.scopesStep hs hkeeps
  · cases hs

/-- The awaited future is done. -/
theorem Inv.settle (h : Inv w s) (hs : s.scopesStep .settle = some s') : Inv w s' := by
  refine h.scopesStep hs fun scopes hscopes => ?_
  simp only [CancelScope.step] at hscopes
  split at hscopes
  · cases hscopes
    exact .task h.ordered.settle Pending.settle
  · cases hscopes

/-- `asyncio.shield()` of a nested shielded await is done. -/
theorem Inv.propagate (h : Inv w s) (hw : ∀ f msg, w f ≠ .cancelledError msg) (depth : ℕ) :
    Inv w { s with shielded := s.shielded.map (propagate w s.done depth) } :=
  { h with
    outermost := fun c' hc' => by
      obtain ⟨c, hc, rfl⟩ := Option.map_eq_some_iff.1 hc'
      exact (propagate_spec hw s.done depth c).2.2.2.2 (h.outermost c hc)
    owed := fun howed => (h.owed howed).imp_right fun ⟨c, hc, hlast⟩ => by
      refine ⟨ShieldedAwait.propagate w s.done depth c, by simp only [hc, Option.map_some], ?_⟩
      rw [(propagate_spec hw s.done depth c).2.2.1]
      exact hlast }

/-- The task is resumed elsewhere. -/
theorem Inv.resumeElsewhere (h : Inv w s) (hs : s.scopesStep .resume = some s') :
    Inv w { s' with owed := false } := by
  obtain ⟨scopes, hscopes, rfl⟩ := Option.map_eq_some_iff.1 hs
  obtain ⟨task, ht, rfl⟩ := Option.map_eq_some_iff.1 hscopes
  rw [h.shield]
  exact h.unowed (ordered_resume h.ordered ht) rfl Bool.false_ne_true

/-- A scope is entered. -/
theorem Inv.enter (h : Inv w s) {i : ℕ} (hs : s.scopesStep (.enter i) = some s') :
    Inv w { s' with owed := false } := by
  obtain ⟨scopes, hscopes, rfl⟩ := Option.map_eq_some_iff.1 hs
  simp only [CancelScope.step] at hscopes
  split at hscopes
  · cases hscopes
    obtain ⟨hordered, hshield⟩ := ordered_enter h.ordered i
    exact h.unowed hordered (hshield.trans h.shield) Bool.false_ne_true
  · cases hscopes

/-- A scope is left; no cancellation is owed while one is entered. -/
theorem Inv.exit (h : Inv w s) {exc : Option (List CancelScope.Leaf)}
    (hs : s.scopesStep (.exit exc) = some s') : Inv w s' := by
  obtain ⟨scopes, hscopes, rfl⟩ := Option.map_eq_some_iff.1 hs
  simp only [CancelScope.step] at hscopes
  split at hscopes
  · next i parents hstack =>
    have hnot : s.owed ≠ true := fun howed => by
      rw [h.stack howed] at hstack
      cases hstack
    split at hscopes
    · next hrunning =>
      cases hscopes
      obtain ⟨hordered, hshield⟩ := ordered_exit h.ordered hrunning.1 i parents exc
      exact h.unowed hordered (hshield.trans h.shield) hnot
    · cases hscopes
  · cases hscopes

theorem Inv.step (h : Inv w s) (hw : ∀ f msg, w f ≠ .cancelledError msg) {a : Action V E}
    (hs : step w s a = some s') : Inv w s' := by
  cases a with
  | cancelTask msg => exact h.cancelTask hs
  | cancelScope i reason =>
    refine h.scopesStep (a := .cancelScope i reason) hs fun scopes hscopes => ?_
    cases hscopes
    exact keeps_cancel h.ordered i reason
  | retry i =>
    refine h.scopesStep (a := .retry i) hs fun scopes hscopes => ?_
    simp only [CancelScope.step] at hscopes
    split at hscopes
    · cases hscopes
      exact keeps_deliver _ h.ordered i
    · cases hscopes
  | runDelayed =>
    refine h.scopesStep (a := .runDelayed) hs fun scopes hscopes => ?_
    obtain ⟨task, ht, rfl⟩ := Option.map_eq_some_iff.1 hscopes
    exact .task (runDelayed_spec h.ordered ht).1 (runDelayed_spec h.ordered ht).2
  | complete f =>
    cases hs
    exact { h with }
  | propagate depth =>
    cases hs
    exact h.propagate hw depth
  | settle =>
    simp only [ShieldedAwait.step] at hs
    split at hs
    · exact h.settle hs
    · split at hs
      · exact h.settle hs
      · cases hs
  | resume =>
    simp only [ShieldedAwait.step] at hs
    split at hs
    · obtain ⟨s₁, hs₁, rfl⟩ := Option.map_eq_some_iff.1 hs
      exact h.resumeElsewhere hs₁
    · next c hc =>
      obtain ⟨task, ht, rfl⟩ := Option.map_eq_some_iff.1 hs
      exact h.resume hw hc ht
  | cancelShieldedAwait coroutine =>
    simp only [ShieldedAwait.step] at hs
    split at hs
    · next hcall =>
      cases hs
      exact h.start hw hcall.1 (Option.isNone_iff_eq_none.1 hcall.2) (.inr ⟨coroutine, rfl⟩)
    · cases hs
  | cancelShieldedCoroYield =>
    simp only [ShieldedAwait.step] at hs
    split at hs
    · next hcall =>
      cases hs
      exact h.start hw hcall.1 (Option.isNone_iff_eq_none.1 hcall.2) (.inl rfl)
    · cases hs
  | enter i =>
    simp only [ShieldedAwait.step] at hs
    split at hs
    · obtain ⟨s₁, hs₁, rfl⟩ := Option.map_eq_some_iff.1 hs
      exact h.enter hs₁
    · cases hs
  | exit exc =>
    simp only [ShieldedAwait.step] at hs
    split at hs
    · exact h.exit hs
    · cases hs
  | await =>
    refine h.elsewhere (a := .await false) hs fun scopes hscopes => ?_
    simp only [CancelScope.step] at hscopes
    split at hscopes
    · next hrunning =>
      cases hscopes
      exact ⟨h.ordered.await hrunning.1, fun hpending => hpending.await hrunning.1,
        h.shield.symm, rfl⟩
    · cases hscopes
  | coroYield =>
    refine h.elsewhere (a := .coroYield false) hs fun scopes hscopes => ?_
    simp only [CancelScope.step] at hscopes
    split at hscopes
    · next hrunning =>
      cases hscopes
      exact ⟨h.ordered.coroYield hrunning.1, fun hpending => hpending.coroYield hrunning.1,
        h.shield.symm, rfl⟩
    · cases hscopes
  | finish =>
    refine h.elsewhere (a := .finish) hs fun scopes hscopes => ?_
    simp only [CancelScope.step] at hscopes
    split at hscopes
    · next hrunning =>
      cases hscopes
      obtain ⟨front, hfront, hready⟩ := h.ordered
      rw [hrunning.1] at hready
      exact .task ⟨front, hfront, hready⟩ fun _ => .inl rfl
    · cases hscopes

/-- What holds after every run. -/
theorem inv_of_run (hw : ∀ f msg, w f ≠ .cancelledError msg) {clears : Bool}
    {actions : List (Action V E)}
    (hrun : Trans.run (step w) (State.init clears) actions = some s) : Inv w s :=
  Trans.run_inv (fun _ _ _ h hs => h.step hw hs) (Inv.init clears) hrun

/-- **In every run, shielded coroutines observe no `CancelledError` and end as they do without
    cancellations, no cancellation is rescheduled too many times, and the task receives a
    `CancelledError` at its next suspension elsewhere if it has been cancelled meanwhile.** -/
theorem run_shielded (hw : ∀ f msg, w f ≠ .cancelledError msg) {clears : Bool}
    {actions : List (Action V E)}
    (hrun : Trans.run (step w) (State.init clears) actions = some s) :
    (∀ o ∈ s.env.observed, ∀ msg, o ≠ .cancelledError msg) ∧
    (∀ p ∈ s.env.ended, p.2 = p.1.eval w) ∧ s.env.failed = false ∧
    (s.owed = true → s.shielded = none → ∀ s', step w s .resume = some s' →
      ∃ msg, s'.env.scopes.raised = some msg) := by
  have h := inv_of_run hw hrun
  refine ⟨h.good.observed, h.good.ended, h.failed, fun howed hnone s' hs => ?_⟩
  simp only [step, hnone] at hs
  obtain ⟨s₁, hs₁, rfl⟩ := Option.map_eq_some_iff.1 hs
  obtain ⟨scopes, hscopes, rfl⟩ := Option.map_eq_some_iff.1 hs₁
  obtain ⟨task, ht, rfl⟩ := Option.map_eq_some_iff.1 hscopes
  rw [h.shield]
  rcases h.owed howed with hpending | ⟨c, hc, -⟩
  · exact Option.isSome_iff_exists.1 (hpending.resume h.ordered ht)
  · rw [hnone] at hc
    cases hc

end

/-- A coroutine that awaits a future, and shields another one that awaits a second future and
    yields; it returns what this one returns. -/
def nested : Coroutine ℕ ℕ :=
  .await 0 fun _ => .cancelShieldedAwait (.await 1 fun o => .coroYield fun _ => .ended o) .ended

/-- The task is cancelled under both shields, with the futures pending and done, and in the bare
    `yield`; then it is suspended elsewhere. -/
theorem run_shielded_nested : ∃ s s' msg,
    Trans.run (step fun f => .result (some f)) (State.init true)
      [.cancelShieldedAwait nested, .cancelTask none, .resume, .complete 0, .settle,
        .cancelTask none, .resume, .runDelayed, .runDelayed, .resume, .cancelTask none,
        .complete 1, .propagate 0, .resume, .runDelayed, .runDelayed, .cancelTask none,
        .resume, .await, .runDelayed, .runDelayed] = some s ∧
    s.env.ended.map Prod.snd = [.result (some 1), .result (some 1)] ∧
    step (fun f => .result (some f)) s .resume = some s' ∧
    s'.env.scopes.raised = some msg := by
  obtain ⟨s, hs⟩ : ∃ s, Trans.run (step fun f => .result (some f)) (State.init true)
      [.cancelShieldedAwait nested, .cancelTask none, .resume, .complete 0, .settle,
        .cancelTask none, .resume, .runDelayed, .runDelayed, .resume, .cancelTask none,
        .complete 1, .propagate 0, .resume, .runDelayed, .runDelayed, .cancelTask none,
        .resume, .await, .runDelayed, .runDelayed] = some s := ⟨_, rfl⟩
  obtain ⟨-, -, -, hraised⟩ := run_shielded (by rintro f msg ⟨⟩) hs
  obtain ⟨s', hs'⟩ : ∃ s', step (fun f => .result (some f)) s .resume = some s' := by
    cases hs
    exact ⟨_, rfl⟩
  obtain ⟨msg, hmsg⟩ := hraised (by cases hs; rfl) (by cases hs; rfl) s' hs'
  exact ⟨s, s', msg, hs, by cases hs; rfl, hs', hmsg⟩

end ShieldedAwait

end EasyNetwork
