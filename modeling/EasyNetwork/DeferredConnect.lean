/-
  Connecting again a client that connects later.

  The scope of the connector may be entered once, and only a connection that succeeds, or `aclose()`,
  drops the connector.

  `connect_iff`: `connect()` raises `RuntimeError` iff it is called again after the endpoint factory
  has failed and before `aclose()` is called.
-/
import EasyNetwork.DeferredLeak

namespace EasyNetwork

namespace DeferredInit

variable {ε : Type}

section
variable {s s' : State ε} {call c endpoint : ℕ} {phase : Phase ε}

/-- The factory has raised, and nobody has called `aclose()`, iff the scope has been left and the
    connector is still there. -/
structure Failed (s : State ε) : Prop where
  failed : s.factoryFailed = true → s.acloseStarted = false →
    s.hasConnector = true ∧ s.scope = .exited ∧ s.endpoint = none
  exited : s.hasConnector = true → s.endpoint = none → s.scope = .exited → s.factoryFailed = true

/-- Without a connector, `aclose()` has been called or there is an endpoint. -/
theorem Failed.of_aclose (ha : s.acloseStarted = true) (hconnector : s.hasConnector = false) :
    Failed s where
  failed _ hc := by cases ha.symm.trans hc
  exited hc := by cases hconnector.symm.trans hc

theorem failed_step {a : Action ε} (h : Inv s) (hf : Failed s) (hs : step s a = some s') :
    Failed s' := by
  cases a with
  | connect call =>
    simp only [step] at hs
    split at hs <;> cases hs
    exact ⟨hf.failed, hf.exited⟩
  | acquire call =>
    simp only [step] at hs
    split at hs <;> cases hs
    unfold State.enter State.leave
    dsimp only
    split
    · split_ifs <;> exact ⟨hf.failed, hf.exited⟩
    · split_ifs with hconnector hcreated
      · refine ⟨fun hfail ha => ?_, fun _ _ hc => by cases hc⟩
        cases hcreated.symm.trans (hf.failed hfail ha).2.1
      · exact ⟨hf.failed, hf.exited⟩
      · exact ⟨hf.failed, hf.exited⟩
  | factory call outcome =>
    simp only [step] at hs
    split at hs
    next hcall =>
      obtain ⟨hlock, hscope, hconnector⟩ : PhaseOk s call .inFactory := hcall ▸ h.phases call
      have hnone : s.endpoint = none := h.noEndpoint (by rw [hlock]; exact Option.some_ne_none _)
      have haclose : s.cancelCalled = true →
          s.acloseStarted = true ∧ s.hasConnector = false := fun hc =>
        ⟨h.cancelCalled hc, (h.afterAclose (h.cancelCalled hc)).1⟩
      have hraise : ∀ error, Failed
          ({ s with scope := .exited, factoryFailed := true }.raise call error) := by
        refine fun error => ⟨fun _ ha => ⟨hconnector.resolve_right fun hc => ?_, rfl, hnone⟩,
          fun _ _ _ => rfl⟩
        cases (haclose hc).1.symm.trans ha
      obtain ⟨hcancel, rfl⟩ | ⟨-, rfl⟩ | ⟨error, -, rfl⟩ | ⟨hcancel, rfl⟩ := factoryDone_cases hs
      · exact .of_aclose (haclose hcancel).1 (haclose hcancel).2
      · unfold State.got State.leave
        dsimp only
        split_ifs
        all_goals
          refine ⟨fun hfail ha => ?_, fun hc => by cases hc⟩
          cases hscope.symm.trans (hf.failed hfail ha).2.1
      · exact hraise error
      · exact .of_aclose (haclose hcancel).1 rfl
    next => cases hs
  | acloseDone call exc =>
    simp only [step] at hs
    split at hs
    next e hcall =>
      obtain ⟨-, -, hcancel⟩ : PhaseOk s call (.forcing e) := hcall ▸ h.phases call
      have ha := h.cancelCalled hcancel
      split at hs <;> cases hs
      · exact .of_aclose ha rfl
      · exact .of_aclose ha (h.afterAclose ha).1
    next e hcall =>
      cases hs
      exact ⟨hf.failed, hf.exited⟩
    next => cases hs
  | throw call =>
    simp only [step] at hs
    split at hs <;> cases hs <;> exact ⟨hf.failed, hf.exited⟩
  | aclose call =>
    simp only [step] at hs
    split at hs <;> cases hs
    unfold State.aclose
    dsimp only
    split <;> exact .of_aclose rfl rfl
  | endpointCloses endpoint =>
    cases hs
    exact ⟨hf.failed, hf.exited⟩

/-- What would enter the scope a second time. -/
def EntersTwice (s : State ε) : Prop :=
  s.endpoint = none ∧ s.hasConnector = true ∧ s.scope ≠ .created

/-- A call that has not raised moves on; it enters the scope twice only with the lock. -/
structure Moves (s : State ε) (a : Action ε) (s' : State ε) (call : ℕ) (phase : Phase ε) : Prop where
  phase_eq : s'.phase = Function.update s.phase call phase
  notRaised : ∀ error, s.phase call ≠ .raised error
  entersTwice : phase = .raised .scopeEnteredTwice → a = .acquire call ∧ EntersTwice s

theorem moves_enter {a : Action ε} (ha : a = .acquire call) (hcall : s.phase call = .waitLock) :
    ∃ phase, Moves s a ({ s with lock := some call }.enter call) call phase := by
  have hnot : ∀ error, s.phase call ≠ .raised error := fun error hc => by cases hcall.symm.trans hc
  unfold State.enter State.leave
  split
  · split_ifs <;> exact ⟨_, rfl, hnot, fun hc => by cases hc⟩
  next he =>
    split_ifs with hconnector hcreated
    · exact ⟨_, rfl, hnot, fun hc => by cases hc⟩
    · exact ⟨_, rfl, hnot, fun _ => ⟨ha, he, hconnector, hcreated⟩⟩
    · exact ⟨_, rfl, hnot, fun hc => by cases hc⟩

theorem moves_factoryDone {a : Action ε} {outcome : FactoryOutcome ε}
    (hcall : s.phase call = .inFactory) (hs : s.factoryDone call outcome = some s') :
    ∃ phase, Moves s a s' call phase := by
  have hnot : ∀ error, s.phase call ≠ .raised error := fun error hc => by cases hcall.symm.trans hc
  obtain ⟨-, rfl⟩ | ⟨-, rfl⟩ | ⟨error, herror, rfl⟩ | ⟨-, rfl⟩ := factoryDone_cases hs
  · exact ⟨_, rfl, hnot, fun hc => by cases hc⟩
  · unfold State.got State.leave
    dsimp only
    split_ifs <;> exact ⟨_, rfl, hnot, fun hc => by cases hc⟩
  · exact ⟨_, rfl, hnot, fun hc => absurd (Phase.raised.inj hc) herror⟩
  · exact ⟨_, rfl, hnot, fun hc => by cases hc⟩

theorem step_moves {a : Action ε} (hs : step s a = some s') :
    s'.phase = s.phase ∨ ∃ call phase, Moves s a s' call phase := by
  cases a with
  | connect call =>
    simp only [step] at hs
    split at hs <;> cases hs
    next hcall =>
      exact .inr ⟨call, _, rfl, fun _ hc => (by cases hcall.symm.trans hc), fun hc => by cases hc⟩
  | acquire call =>
    simp only [step] at hs
    split at hs <;> cases hs
    next hcall _ => exact .inr ⟨call, moves_enter rfl hcall⟩
  | factory call outcome =>
    simp only [step] at hs
    split at hs
    next hcall => exact .inr ⟨call, moves_factoryDone hcall hs⟩
    next => cases hs
  | acloseDone call exc =>
    simp only [step] at hs
    split at hs
    next e hcall =>
      split at hs <;> cases hs <;>
        exact .inr ⟨call, _, rfl, fun _ hc => (by cases hcall.symm.trans hc), fun hc => by cases hc⟩
    next e hcall =>
      cases hs
      exact .inr ⟨call, _, rfl, fun _ hc => (by cases hcall.symm.trans hc), fun hc => by cases hc⟩
    next => cases hs
  | throw call =>
    simp only [step] at hs
    split at hs <;> cases hs
    all_goals
      next hcall =>
        exact .inr ⟨call, _, rfl, fun _ hc => (by cases hcall.symm.trans hc), fun hc => by cases hc⟩
  | aclose call =>
    simp only [step] at hs
    split at hs <;> cases hs
    next hcall =>
      unfold State.aclose
      dsimp only
      split <;>
        exact .inr ⟨call, _, rfl, fun _ hc => (by cases hcall.symm.trans hc), fun hc => by cases hc⟩
  | endpointCloses endpoint =>
    cases hs
    exact .inl rfl

/-- A call of `connect()` has raised `RuntimeError`. -/
def RaisedTwice (s : State ε) : Prop := ∃ call, s.phase call = .raised .scopeEnteredTwice

/-- Nobody calls `connect()` after the factory has failed and before `aclose()`. -/
def Safe (s : State ε) : Action ε → Prop
  | .acquire _ => s.factoryFailed = true → s.acloseStarted = true
  | _ => True

instance (s : State ε) : ∀ a, Decidable (Safe s a)
  | .acquire _ => inferInstanceAs (Decidable (s.factoryFailed = true → s.acloseStarted = true))
  | .connect _ | .factory _ _ | .acloseDone _ _ | .throw _ | .aclose _ | .endpointCloses _ =>
    .isTrue trivial

/-- The scope is entered twice iff the factory has failed and nobody has called `aclose()`. -/
theorem entersTwice_iff (h : Inv s) (hf : Failed s) (hlock : s.lock = none) :
    EntersTwice s ↔ s.factoryFailed = true ∧ s.acloseStarted = false := by
  constructor
  · rintro ⟨he, hconnector, hscope⟩
    refine ⟨hf.exited hconnector he ?_, ?_⟩
    · rcases hs : s.scope with _ | _ | _
      · exact absurd hs hscope
      · exact absurd hlock (h.entered hs)
      · rfl
    · rw [← Bool.not_eq_true]
      intro ha
      cases (h.afterAclose ha).1.symm.trans hconnector
  · rintro ⟨hfail, ha⟩
    obtain ⟨hconnector, hscope, he⟩ := hf.failed hfail ha
    refine ⟨he, hconnector, ?_⟩
    rw [hscope]
    intro hc
    cases hc

theorem raisedTwice_stays {a : Action ε} (h : RaisedTwice s) (hs : step s a = some s') :
    RaisedTwice s' := by
  obtain ⟨call, hcall⟩ := h
  refine ⟨call, ?_⟩
  rcases step_moves hs with hphase | ⟨call', phase, hmoves⟩
  · rw [hphase]
    exact hcall
  · have hne : call ≠ call' := by
      rintro rfl
      exact hmoves.notRaised _ hcall
    rw [hmoves.phase_eq, Function.update_of_ne hne]
    exact hcall

theorem step_acquire (hs : step s (.acquire call) = some s') :
    s.lock = none ∧ s' = { s with lock := some call }.enter call := by
  simp only [step] at hs
  split at hs <;> cases hs
  next hlock => exact ⟨hlock, rfl⟩

theorem not_raisedTwice_step {a : Action ε} (h : Inv s) (hf : Failed s) (hr : ¬ RaisedTwice s)
    (hok : Safe s a) (hs : step s a = some s') : ¬ RaisedTwice s' := by
  rintro ⟨call, hcall⟩
  rcases step_moves hs with hphase | ⟨call', phase, hmoves⟩
  · rw [hphase] at hcall
    exact hr ⟨call, hcall⟩
  · rw [hmoves.phase_eq] at hcall
    by_cases hne : call = call'
    · rw [hne, Function.update_self] at hcall
      obtain ⟨rfl, henters⟩ := hmoves.entersTwice hcall
      obtain ⟨hfail, ha⟩ := (entersTwice_iff h hf (step_acquire hs).1).1 henters
      cases (hok hfail).symm.trans ha
    · rw [Function.update_of_ne hne] at hcall
      exact hr ⟨call, hcall⟩

theorem raisedTwice_of_unsafe {a : Action ε} (h : Inv s) (hf : Failed s) (hbad : ¬ Safe s a)
    (hs : step s a = some s') : RaisedTwice s' := by
  cases a with
  | acquire call =>
    obtain ⟨hlock, rfl⟩ := step_acquire hs
    have hfail : s.factoryFailed = true ∧ s.acloseStarted = false := by
      rw [Safe, Classical.not_imp, Bool.not_eq_true] at hbad
      exact hbad
    obtain ⟨he, hconnector, hscope⟩ := (entersTwice_iff h hf hlock).2 hfail
    refine ⟨call, ?_⟩
    rw [State.enter]
    simp only [he, hconnector, if_true]
    rw [if_neg hscope]
    exact Function.update_self _ _ _
  | _ => exact absurd trivial hbad

/-- **`connect()` raises `RuntimeError` iff it is called again after the factory has failed, before
    `aclose()` is called.** -/
theorem connect_iff {as : List (Action ε)} (h : Trans.run step {} as = some s) :
    (∀ call, s.phase call ≠ .raised .scopeEnteredTwice) ↔ Trans.Meets step Safe {} as := by
  have hinit : Failed ({} : State ε) := ⟨fun hc => (by cases hc), fun _ _ hc => by cases hc⟩
  have hnot : ¬ RaisedTwice ({} : State ε) := by
    rintro ⟨call, hc⟩
    cases hc
  rw [Trans.meets_iff Safe (fun s => (Inv s ∧ Failed s) ∧ ¬ RaisedTwice s) RaisedTwice
    (fun _ hi => hi.2)
    (fun _ _ _ hi hok hs => ⟨⟨step_inv hi.1.1 hs, failed_step hi.1.1 hi.1.2 hs⟩,
      not_raisedTwice_step hi.1.1 hi.1.2 hi.2 hok hs⟩)
    (fun _ _ _ hi hbad hs => raisedTwice_of_unsafe hi.1.1 hi.1.2 hbad hs)
    (fun _ _ _ hb hs => raisedTwice_stays hb hs) ⟨⟨Inv.init, hinit⟩, hnot⟩ h]
  exact not_exists.symm

/-- The factory fails, and after `aclose()` a call of `connect()` raises `ClientClosedError`. -/
theorem connect_closed : ∃ s : State String, Trans.run step {} [.connect 0, .acquire 0,
      .factory 0 (.raises "Connection refused"), .aclose 1, .connect 2, .acquire 2] = some s ∧
    s.phase 2 = .raised .clientClosed ∧ ∀ call, s.phase call ≠ .raised .scopeEnteredTwice := by
  obtain ⟨s, hs⟩ : ∃ s : State String, Trans.run step {} [.connect 0, .acquire 0,
    .factory 0 (.raises "Connection refused"), .aclose 1, .connect 2, .acquire 2] = some s :=
    ⟨_, rfl⟩
  refine ⟨s, hs, ?_, (connect_iff hs).2 (by decide)⟩
  cases hs
  rfl

/-- Two calls of `connect()`, the factory fails in the first: the second does not run it again, but
    raises `RuntimeError`.  So it is when the first call is cancelled. -/
theorem connect_raises_runtimeError :
    (∃ s : State String, Trans.run step {} [.connect 0, .acquire 0,
        .factory 0 (.raises "Connection refused"), .connect 1, .acquire 1] = some s ∧
      s.phase 1 = .raised .scopeEnteredTwice) ∧
    ∃ s : State String, Trans.run step {} [.connect 0, .acquire 0,
        .factory 0 (.cancelled false), .connect 1, .acquire 1] = some s ∧
      s.phase 1 = .raised .scopeEnteredTwice :=
  ⟨⟨_, rfl, rfl⟩, ⟨_, rfl, rfl⟩⟩

end

end DeferredInit

end EasyNetwork
