/-
  Cancellations of a task that awaits a future inside a `CancelScope`, by the scope and by other
  code, which are merged into the one `CancelledError` that is raised.

  The scope recognises its own cancellation by the message.  A future that is cancelled keeps the
  message of the first request; what is requested afterwards is recorded, and dropped when the task
  is resumed.

  `not_suppressed_iff`: a `CancelledError` is not suppressed by the scope although other code has
  cancelled the task iff other code never does so when the scope has already cancelled the future.
-/
import EasyNetwork.CancelScope

namespace EasyNetwork

namespace CancelScope

open AsyncioTask

/-! ## The requests -/

/-- What happens while the task is suspended: requests, and the event loop. -/
def request (s : State) : Action → Option State
  | .cancelTask msg => step s (.cancelTask msg)
  | .cancelScope i reason => step s (.cancelScope i reason)
  | .retry i => step s (.retry i)
  | .settle => step s .settle
  | .runDelayed => step s .runDelayed
  | _ => none

/-- The task awaits a future that is not done, in the scope `i`; no cancellation is recorded. -/
structure Awaiting (s : State) (i : ℕ) (parents : List ℕ) : Prop where
  waiter : s.task.waiter = .future .pending
  mustCancel : s.task.mustCancel = false
  delayed : s.task.delayed = none
  shield : s.shield = none
  stack : s.stack = i :: parents

/-- The scope has cancelled the awaited future. -/
def ScopeFirst (i : ℕ) (s : State) : Prop :=
  match s.task.waiter with
  | .future (.cancelled (.scope j _)) => j = i
  | _ => False

instance (i : ℕ) (s : State) : Decidable (ScopeFirst i s) := by
  unfold ScopeFirst
  split <;> infer_instance

/-- If other code cancels the task, the scope has not cancelled the awaited future. -/
def InTime (i : ℕ) (s : State) : Action → Prop
  | .cancelTask _ => ¬ ScopeFirst i s
  | _ => True

instance (i : ℕ) (s : State) (a : Action) : Decidable (InTime i s a) := by
  cases a <;> unfold InTime <;> infer_instance

theorem scopeFirst_iff {i : ℕ} {s : State} : ScopeFirst i s ↔
    ∃ reason, s.task.waiter = .future (.cancelled (.scope i reason)) := by
  unfold ScopeFirst
  split
  · next j reason hwaiter =>
    constructor
    · rintro rfl
      exact ⟨reason, hwaiter⟩
    · rintro ⟨reason', hsame⟩
      cases hwaiter.symm.trans hsame
      rfl
  · next hnot =>
    exact ⟨False.elim, fun ⟨reason, hsame⟩ => hnot i reason hsame⟩

/-! ## The invariant -/

/-- What holds while the task is suspended; other code had cancelled it `before` times. -/
structure Suspended (before i : ℕ) (parents : List ℕ) (s : State) : Prop where
  inv : Inv s
  delayed : s.task.delayed = none
  shield : s.shield = none
  stack : s.stack = i :: parents
  external : before ≤ s.external
  future : ∃ state, s.task.waiter = .future state
  pending : s.task.waiter = .future .pending → s.task.mustCancel = false ∧ s.external = before
  finished : s.task.waiter = .future .finished → before < s.external →
    s.task.mustCancel = true ∧ ∃ text, s.task.cancelMessage = .text text
  own : ∀ reason, s.task.waiter = .future (.cancelled (.scope i reason)) →
    (s.scopes i).cancelReason = some (.scope i reason)

section
variable {s s' : State} {before i j : ℕ} {parents : List ℕ} {msg : CancelMessage}

theorem Awaiting.suspended (h : Awaiting s i parents) (hinv : Inv s) :
    Suspended s.external i parents s where
  inv := hinv
  delayed := h.delayed
  shield := h.shield
  stack := h.stack
  external := Nat.le_refl _
  future := ⟨_, h.waiter⟩
  pending _ := ⟨h.mustCancel, rfl⟩
  finished _ hlt := absurd hlt (Nat.lt_irrefl _)
  own reason hwaiter := by
    rw [h.waiter] at hwaiter
    cases hwaiter

/-- What `Task.cancel()` does to a task that is suspended on a future. -/
theorem cancel_cases (msg : CancelMessage) {t : AsyncioTask} {state : FutureState}
    (h : t.waiter = .future state) :
    (t.cancel msg).delayed = t.delayed ∧
      (state = .pending ∧ (t.cancel msg).waiter = .future (.cancelled msg) ∨
      state ≠ .pending ∧ (t.cancel msg).waiter = .future state ∧
        (t.cancel msg).mustCancel = true ∧ (t.cancel msg).cancelMessage = msg) := by
  unfold AsyncioTask.cancel
  rw [h]
  cases state with
  | pending => exact ⟨rfl, .inl ⟨rfl, rfl⟩⟩
  | finished => exact ⟨rfl, .inr ⟨nofun, rfl, rfl, rfl⟩⟩
  | cancelled msg' => exact ⟨rfl, .inr ⟨nofun, rfl, rfl, rfl⟩⟩

/-- The task is cancelled, by other code or by a scope that finds nothing recorded. -/
theorem Suspended.cancel (h : Suspended before i parents s) (hinv : Inv s')
    (htask : s'.task = s.task.cancel msg) (hshield : s'.shield = s.shield)
    (hstack : s'.stack = s.stack)
    (hreason : (s'.scopes i).cancelReason = (s.scopes i).cancelReason)
    (hmsg : (∃ text, msg = .text text) ∧ s.external ≤ s'.external ∨
      s.task.mustCancel = false ∧ s'.external = s.external ∧
        ∀ reason, msg = .scope i reason → (s.scopes i).cancelReason = some msg) :
    Suspended before i parents s' := by
  obtain ⟨state, hstate⟩ := h.future
  obtain ⟨hdelayed, hcases⟩ := cancel_cases msg hstate
  have hexternal : s.external ≤ s'.external := by
    rcases hmsg with ⟨-, hle⟩ | ⟨-, heq, -⟩
    · exact hle
    · exact heq.ge
  have hown : ∀ reason, msg = .scope i reason →
      (s.scopes i).cancelReason = some (.scope i reason) := by
    rintro reason rfl
    rcases hmsg with ⟨⟨text, hscope⟩, -⟩ | ⟨-, -, hscope⟩
    · cases hscope
    · exact hscope reason rfl
  refine
    { inv := hinv
      delayed := htask ▸ hdelayed.trans h.delayed
      shield := hshield.trans h.shield
      stack := hstack.trans h.stack
      external := Nat.le_trans h.external hexternal
      future := ?_
      pending := ?_
      finished := ?_
      own := ?_ }
  all_goals rw [htask]
  · rcases hcases with ⟨-, hwaiter⟩ | ⟨-, hwaiter, -⟩
    · exact ⟨_, hwaiter⟩
    · exact ⟨_, hwaiter⟩
  · intro hpending
    rcases hcases with ⟨-, hwaiter⟩ | ⟨hne, hwaiter, -⟩
    · cases hwaiter.symm.trans hpending
    · cases hwaiter.symm.trans hpending
      exact absurd rfl hne
  · intro hfinished hlt
    rcases hcases with ⟨-, hwaiter⟩ | ⟨-, hwaiter, hmust, hmessage⟩
    · cases hwaiter.symm.trans hfinished
    · cases hwaiter.symm.trans hfinished
      rcases hmsg with ⟨⟨text, rfl⟩, -⟩ | ⟨hnot, heq, -⟩
      · exact ⟨hmust, text, hmessage⟩
      · rw [(h.finished hstate (heq ▸ hlt)).1] at hnot
        cases hnot
  · intro reason hcancelled
    rw [hreason]
    rcases hcases with ⟨-, hwaiter⟩ | ⟨-, hwaiter, -⟩
    · cases hwaiter.symm.trans hcancelled
      exact hown reason rfl
    · cases hwaiter.symm.trans hcancelled
      exact h.own reason hstate

theorem Suspended.keep (h : Suspended before i parents s) (hinv : Inv s')
    (hdelayed : s'.task.delayed = none) (hwaiter : s'.task.waiter = s.task.waiter)
    (hmust : s'.task.mustCancel = s.task.mustCancel)
    (hmessage : s'.task.cancelMessage = s.task.cancelMessage) (hshield : s'.shield = s.shield)
    (hstack : s'.stack = s.stack) (hexternal : s'.external = s.external)
    (hreason : ∀ msg, (s.scopes i).cancelReason = some msg →
      (s'.scopes i).cancelReason = some msg) : Suspended before i parents s' where
  inv := hinv
  delayed := hdelayed
  shield := hshield.trans h.shield
  stack := hstack.trans h.stack
  external := hexternal ▸ h.external
  future := hwaiter ▸ h.future
  pending := by
    rw [hwaiter, hmust, hexternal]
    exact h.pending
  finished := by
    rw [hwaiter, hmust, hmessage, hexternal]
    exact h.finished
  own reason hnow := hreason _ (h.own reason (hwaiter ▸ hnow))

theorem Suspended.cancelTask (h : Suspended before i parents s) {text : Option String}
    (hs : step s (.cancelTask text) = some s') :
    Suspended before i parents s' ∧ s'.external = s.external + 1 ∧
      (ScopeFirst i s' ↔ ScopeFirst i s) := by
  have hinv' := h.inv.step hs
  obtain ⟨state, hstate⟩ := h.future
  have hdone : s.task.waiter ≠ .done := by
    rw [hstate]
    exact nofun
  simp only [step, if_neg hdone] at hs
  cases hs
  refine ⟨h.cancel hinv' rfl rfl rfl rfl (.inl ⟨⟨text, rfl⟩, Nat.le_succ _⟩), rfl, ?_⟩
  rw [scopeFirst_iff, scopeFirst_iff]
  rcases (cancel_cases (.text text) hstate).2 with ⟨rfl, hwaiter⟩ | ⟨-, hwaiter, -⟩
  · simp only [hwaiter, hstate]
    constructor <;> rintro ⟨reason, ⟨⟩⟩
  · simp only [hwaiter, hstate]

theorem waiter_cancel_of_not_pending {t : AsyncioTask} {state : FutureState}
    (h : t.waiter = .future state) :
    t.waiter = .future .pending ∨ (t.cancel msg).waiter = t.waiter := by
  rcases (cancel_cases msg h).2 with ⟨rfl, -⟩ | ⟨-, hwaiter, -⟩
  · exact .inl h
  · exact .inr (hwaiter.trans h.symm)

theorem Suspended.deliver (h : Suspended before i parents s)
    (hcalled : (s.scopes j).cancelCalled = true) :
    Suspended before i parents (s.deliverCancellation j) ∧
      (s.deliverCancellation j).external = s.external ∧
      (s.task.waiter = .future .pending ∨
        (s.deliverCancellation j).task.waiter = s.task.waiter) := by
  obtain ⟨hshield, hstack, hexternal, hreasons⟩ := deliverCancellation_frame (s := s) (i := j)
  have hinv := h.inv.deliverCancellation hcalled
  obtain ⟨reason, hreason⟩ := (h.inv.scope j).reason hcalled
  obtain ⟨state, hstate⟩ := h.future
  rcases deliverCancellation_task (s := s) (i := j) with htask | ⟨hmust, -, htask⟩
  · refine ⟨h.keep hinv ?_ ?_ ?_ ?_ hshield hstack hexternal fun msg hmsg => ?_, hexternal, ?_⟩
    · rw [htask]
      exact h.delayed
    · rw [htask]
    · rw [htask]
    · rw [htask]
    · rw [hreasons]
      exact hmsg
    · rw [htask]
      exact .inr rfl
  · rw [hreason, Option.getD_some] at htask
    refine ⟨h.cancel hinv htask hshield hstack (hreasons i) (.inr ⟨hmust, hexternal, ?_⟩),
      hexternal, ?_⟩
    · rintro reason' hsame
      cases hsame
      exact hreason
    · rw [htask]
      exact waiter_cancel_of_not_pending hstate

theorem Suspended.other (h : Suspended before i parents s) {a : Action}
    (ha : ∀ text, a ≠ .cancelTask text) (hs : request s a = some s') :
    Suspended before i parents s' ∧ s'.external = s.external ∧
      (s.task.waiter = .future .pending ∨ s'.task.waiter = s.task.waiter) := by
  cases a with
  | cancelTask text => exact absurd rfl (ha text)
  | cancelScope j reason =>
    cases hs
    unfold State.cancel
    simp only
    split
    · exact ⟨h, rfl, .inr rfl⟩
    · next hnot =>
      have hnamed := (h.inv.scope j).unnamed (Bool.eq_false_iff.2 hnot)
      have hset : Suspended before i parents (s.setScope j { s.scopes j with
          cancelCalled := true
          cancelReason := some (.scope j reason) }) := by
        refine h.keep (h.inv.setCancelled (Bool.eq_false_iff.2 hnot) reason) h.delayed rfl rfl rfl
          rfl rfl rfl fun msg hmsg => ?_
        by_cases hij : i = j
        · rw [hij, hnamed] at hmsg
          cases hmsg
        · rw [setScope_of_ne hij]
          exact hmsg
      refine hset.deliver ?_
      rw [setScope_self]
  | retry j =>
    simp only [request, step] at hs
    split at hs
    · next hretry =>
      cases hs
      exact h.deliver ((h.inv.scope j).handle hretry.2)
    · cases hs
  | settle =>
    have hinv : Inv s' := h.inv.step (show step s .settle = some s' from hs)
    simp only [request, step] at hs
    split at hs
    · next hpending =>
      cases hs
      obtain ⟨hmust, hsame⟩ := h.pending hpending
      refine ⟨?_, rfl, .inl hpending⟩
      rw [AsyncioTask.settle_of_pending hpending] at hinv ⊢
      exact
        { inv := hinv
          delayed := h.delayed
          shield := h.shield
          stack := h.stack
          external := h.external
          future := ⟨_, rfl⟩
          pending := fun hpending => by cases hpending
          finished := fun _ hlt => absurd hsame (Nat.ne_of_gt hlt)
          own := fun reason hown => by cases hown }
    · cases hs
  | runDelayed =>
    have hinv : Inv s' := h.inv.step (show step s .runDelayed = some s' from hs)
    obtain ⟨task, ht, rfl⟩ := Option.map_eq_some_iff.1 hs
    obtain ⟨-, ready, ⟨msg, hready, -, -⟩ | ⟨hready, -, rfl⟩⟩ := h.inv.ordered.runDelayed ht
    · -- nothing is delayed
      have hdelayed := h.inv.ordered.delayed_eq (hready ▸ List.mem_cons_self)
      rw [h.delayed] at hdelayed
      cases hdelayed
    · exact ⟨h.keep hinv rfl rfl rfl rfl rfl rfl rfl fun _ => id, rfl, .inr rfl⟩
  | _ => cases hs

/-! ## Merged cancellations -/

/-- Other code has cancelled the task, and the future keeps the message of the scope. -/
def Merged (before i : ℕ) (s : State) : Prop := ScopeFirst i s ∧ before < s.external

/-- Only other code can make cancellations merge. -/
theorem Suspended.merged_iff (h : Suspended before i parents s) {a : Action}
    (ha : ∀ text, a ≠ .cancelTask text) (hs : request s a = some s') :
    Merged before i s' ↔ Merged before i s := by
  obtain ⟨-, hexternal, hpending | hwaiter⟩ := h.other ha hs
  · have hsame := (h.pending hpending).2
    refine iff_of_false (fun hmerged => ?_) fun hmerged => ?_
    · exact absurd (hexternal.trans hsame) (Nat.ne_of_gt hmerged.2)
    · exact absurd hsame (Nat.ne_of_gt hmerged.2)
  · unfold Merged ScopeFirst
    rw [hexternal, hwaiter]

theorem Suspended.request (h : Suspended before i parents s) {a : Action}
    (hs : CancelScope.request s a = some s') :
    Suspended before i parents s' ∧
      (Merged before i s' ↔ Merged before i s ∨ ¬ InTime i s a) := by
  by_cases ha : ∃ text, a = .cancelTask text
  · obtain ⟨text, rfl⟩ := ha
    obtain ⟨hnext, hexternal, hfirst⟩ := h.cancelTask hs
    refine ⟨hnext, ?_⟩
    have hlt : before < s'.external := hexternal ▸ Nat.lt_succ_of_le h.external
    unfold Merged InTime
    rw [hfirst, not_not, and_iff_left hlt]
    exact ⟨.inr, fun h => h.elim And.left id⟩
  · have hne : ∀ text, a ≠ .cancelTask text := fun text heq => ha ⟨text, heq⟩
    refine ⟨(h.other hne hs).1, (h.merged_iff hne hs).trans ?_⟩
    have hin : InTime i s a := by
      cases a with
      | cancelTask text => exact absurd rfl (hne text)
      | _ => exact trivial
    exact ⟨.inl, fun h => h.elim id fun hnot => absurd hin hnot⟩

theorem meets_inTime_iff (h : Suspended before i parents s) (hmerged : ¬ Merged before i s)
    {requests : List Action} (hrun : Trans.run CancelScope.request s requests = some s') :
    Trans.Meets CancelScope.request (InTime i) s requests ↔ ¬ Merged before i s' := by
  have hiff := Trans.meets_iff (InTime i)
    (fun s => Suspended before i parents s ∧ ¬ Merged before i s)
    (fun s => Suspended before i parents s ∧ Merged before i s)
    (fun s hgood hbad => hgood.2 hbad.2)
    (fun s a s' hs hin hstep => by
      obtain ⟨hnext, hiff⟩ := hs.1.request hstep
      exact ⟨hnext, fun hm => (hiff.1 hm).elim hs.2 fun hnot => hnot hin⟩)
    (fun s a s' hs hnot hstep => by
      obtain ⟨hnext, hiff⟩ := hs.1.request hstep
      exact ⟨hnext, hiff.2 (.inr hnot)⟩)
    (fun s a s' hs hstep => by
      obtain ⟨hnext, hiff⟩ := hs.1.request hstep
      exact ⟨hnext, hiff.2 (.inl hs.2)⟩) ⟨h, hmerged⟩ hrun
  refine hiff.trans (not_congr (and_iff_right ?_))
  exact Trans.run_inv (fun _ _ _ hs hstep => (hs.request hstep).1) h hrun

/-! ## What is raised, and whether it is suppressed -/

/-- `__exit__` suppresses a `CancelledError` with its own message. -/
theorem exit_cancelledError (hcaught : (s.scopes i).cancelledCaught = false) :
    (s.exit i parents (some [.cancelledError [msg]])).1 =
      ((s.scopes i).cancelCalled && (s.scopes i).cancelReason == some msg) := by
  rw [exit_some hcaught]
  simp only [isMyCancellation, List.any_cons, List.any_nil, Bool.or_false]

/-- If cancellations have merged, the one of the scope is thrown. -/
theorem Suspended.thrown_of_merged (h : Suspended before i parents s)
    (hmerged : Merged before i s) : ∃ reason, s.task.thrown = some (.scope i reason) ∧
      (s.scopes i).cancelReason = some (.scope i reason) := by
  obtain ⟨reason, hwaiter⟩ := scopeFirst_iff.1 hmerged.1
  exact ⟨reason, thrown_eq_some.2 (.inl hwaiter), h.own reason hwaiter⟩

/-- Otherwise another one is, if other code has cancelled the task. -/
theorem Suspended.thrown_of_not_merged (h : Suspended before i parents s)
    (hlt : before < s.external) (hnot : ¬ Merged before i s) :
    ∃ msg, s.task.thrown = some msg ∧ ∀ reason, msg ≠ .scope i reason := by
  obtain ⟨state, hstate⟩ := h.future
  cases state with
  | pending => exact absurd (h.pending hstate).2 (Nat.ne_of_gt hlt)
  | finished =>
    obtain ⟨hmust, text, hmessage⟩ := h.finished hstate hlt
    refine ⟨.text text, thrown_eq_some.2 (.inr ⟨?_, hmust, hmessage⟩), fun reason => nofun⟩
    rw [hstate]
    exact nofun
  | cancelled msg =>
    refine ⟨msg, thrown_eq_some.2 (.inl hstate), ?_⟩
    rintro reason rfl
    exact hnot ⟨scopeFirst_iff.2 ⟨reason, hstate⟩, hlt⟩

/-- The scope lets a `CancelledError` pass iff the cancellations have not merged. -/
theorem Suspended.passes_iff (h : Suspended before i parents s) (hlt : before < s.external)
    (hs : step s .resume = some s') : (∃ msg, s'.raised = some msg ∧
        (s'.exit i parents (some [.cancelledError [msg]])).1 = false) ↔ ¬ Merged before i s := by
  have hscope := h.inv.scope i
  have hentered : (s.scopes i).state = .entered := hscope.state.2 (h.stack ▸ List.mem_cons_self)
  have hcaught : (s.scopes i).cancelledCaught = false :=
    hscope.caught (by rw [hentered]; exact nofun)
  obtain ⟨hraised, hscopes⟩ : s'.raised = s.task.thrown ∧ s'.scopes i = s.scopes i := by
    obtain ⟨task, ht, rfl⟩ := Option.map_eq_some_iff.1 hs
    simp only [h.shield, and_self]
  have hexit : ∀ msg, (s'.exit i parents (some [.cancelledError [msg]])).1 =
      ((s.scopes i).cancelCalled && (s.scopes i).cancelReason == some msg) := by
    intro msg
    rw [exit_cancelledError (hscopes ▸ hcaught), hscopes]
  constructor
  · rintro ⟨msg, hmsg, hpasses⟩ hmerged
    obtain ⟨reason, hthrown, hreason⟩ := h.thrown_of_merged hmerged
    cases (hraised.symm.trans hmsg).symm.trans hthrown
    have hcalled : (s.scopes i).cancelCalled = true := by
      by_contra hnot
      rw [hscope.unnamed (Bool.eq_false_iff.2 hnot)] at hreason
      cases hreason
    rw [hexit, hcalled, hreason] at hpasses
    simp at hpasses
  · intro hnot
    obtain ⟨msg, hthrown, hother⟩ := h.thrown_of_not_merged hlt hnot
    refine ⟨msg, hraised.trans hthrown, ?_⟩
    rw [hexit]
    cases hcalled : (s.scopes i).cancelCalled with
    | false => rfl
    | true =>
      obtain ⟨reason, hreason⟩ := hscope.reason hcalled
      have hne : CancelMessage.scope i reason ≠ msg := (hother reason).symm
      simp [hreason, hne]

/-- **The scope lets the `CancelledError` pass although it has been cancelled itself, if other code
    has cancelled the task too, iff other code has never done so after the scope has cancelled the
    awaited future.** -/
theorem not_suppressed_iff {s₀ : State} {clears : Bool} {actions requests : List Action}
    (hreachable : Trans.run step (State.init clears) actions = some s₀)
    (hawaiting : Awaiting s₀ i parents) (hrun : Trans.run request s₀ requests = some s)
    (hresume : step s .resume = some s') :
    Trans.Meets request (InTime i) s₀ requests ↔
      (s₀.external < s.external → ∃ msg, s'.raised = some msg ∧
        (s'.exit i parents (some [.cancelledError [msg]])).1 = false) := by
  have hstart := hawaiting.suspended (inv_of_run hreachable)
  have hend : Suspended s₀.external i parents s :=
    Trans.run_inv (fun _ _ _ hs hstep => (hs.request hstep).1) hstart hrun
  rw [meets_inTime_iff hstart (fun hmerged => Nat.lt_irrefl _ hmerged.2) hrun]
  constructor
  · exact fun hnot hlt => (hend.passes_iff hlt hresume).2 hnot
  · exact fun hpasses hmerged =>
      (hend.passes_iff hmerged.2 hresume).1 (hpasses hmerged.2) hmerged

end

/-- The task awaits a future in a scope. -/
def awaiting : List Action := [.enter 0, .await false]

/-- Other code cancels the task, and then the scope does, twice. -/
theorem not_suppressed_other_first : ∃ s₀ s s' msg,
    Trans.run step (State.init true) awaiting = some s₀ ∧
    Trans.run request s₀ [.cancelTask none, .cancelScope 0 none, .retry 0] = some s ∧
    step s .resume = some s' ∧ s'.raised = some msg ∧
    (s'.exit 0 [] (some [.cancelledError [msg]])).1 = false := by
  obtain ⟨s₀, h₀⟩ : ∃ s₀, Trans.run step (State.init true) awaiting = some s₀ := ⟨_, rfl⟩
  obtain ⟨s, hs, s', hs'⟩ : ∃ s, Trans.run request s₀
      [.cancelTask none, .cancelScope 0 none, .retry 0] = some s ∧
      ∃ s', step s .resume = some s' := by
    cases h₀
    exact ⟨_, rfl, _, rfl⟩
  have hawaiting : Awaiting s₀ 0 [] := by
    cases h₀
    exact ⟨rfl, rfl, rfl, rfl, rfl⟩
  have hpasses := (not_suppressed_iff h₀ hawaiting hs hs').1 (by cases h₀; decide)
    (by cases h₀; cases hs; decide)
  obtain ⟨msg, hraised, hexit⟩ := hpasses
  exact ⟨s₀, s, s', msg, h₀, hs, hs', hraised, hexit⟩

/-- The scope cancels the future, then other code cancels the task: `__exit__` suppresses the only
    `CancelledError`, and the request of other code is lost. -/
theorem scope_first_suppresses : ∃ s₀ s s' msg,
    Trans.run step (State.init true) awaiting = some s₀ ∧
    Trans.run request s₀ [.cancelScope 0 none, .cancelTask none] = some s ∧ s.external = 1 ∧
    step s .resume = some s' ∧ s'.raised = some msg ∧
    (s'.exit 0 [] (some [.cancelledError [msg]])).1 = true := by
  obtain ⟨s₀, h₀⟩ : ∃ s₀, Trans.run step (State.init true) awaiting = some s₀ := ⟨_, rfl⟩
  obtain ⟨s, hs, s', hs'⟩ : ∃ s, Trans.run request s₀ [.cancelScope 0 none, .cancelTask none] =
      some s ∧ ∃ s', step s .resume = some s' := by
    cases h₀
    exact ⟨_, rfl, _, rfl⟩
  refine ⟨s₀, s, s', .scope 0 none, h₀, hs, ?_, hs', ?_, ?_⟩
  all_goals cases h₀; cases hs; cases hs'; rfl

end CancelScope

end EasyNetwork
