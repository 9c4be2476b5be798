/-
  The endpoints of a client that connects later.

  The call that runs the factory, or closes what the factory has returned, holds the lock, and there
  is no endpoint then; when `aclose()` has been called, there is no connector, and the endpoint is
  closing.

  `deferred_correct`: no endpoint is leaked, `connect()` only ever returns one endpoint, and none that
  is not closing once `aclose()` has started.
-/
import EasyNetwork.DeferredInit

namespace EasyNetwork

namespace DeferredInit

variable {ε : Type}

/-! ## The invariant -/

/-- What a call in a phase knows: the one in the factory, or in `aclose_forcefully`, has the lock. -/
def PhaseOk (s : State ε) (call : ℕ) : Phase ε → Prop
  | .inFactory =>
    s.lock = some call ∧ s.scope = .entered ∧ (s.hasConnector = true ∨ s.cancelCalled = true)
  | .forcing _ => s.lock = some call ∧ s.scope = .exited ∧ s.cancelCalled = true
  | .returned endpoint wasClosing afterAclose =>
    s.lock ≠ some call ∧ s.endpoint = some endpoint ∧ (afterAclose = true → wasClosing = true)
  | _ => s.lock ≠ some call

structure Inv (s : State ε) : Prop where
  phases : ∀ call, PhaseOk s call (s.phase call)
  /-- the lock is only held while there is no endpoint -/
  noEndpoint : s.lock ≠ none → s.endpoint = none
  /-- an endpoint that the factory has returned is the stored one, or is being closed -/
  noLeak : ∀ endpoint < s.produced, s.endpoint = some endpoint ∨ s.isClosing endpoint = true
  cancelCalled : s.cancelCalled = true → s.acloseStarted = true
  afterAclose : s.acloseStarted = true → s.hasConnector = false ∧
    ∀ endpoint, s.endpoint = some endpoint → s.isClosing endpoint = true
  entered : s.scope = .entered → s.lock ≠ none

section
variable {s s' : State ε} {call c endpoint : ℕ} {phase : Phase ε}

/-- A call that does not hold the lock knows nothing but what it has returned. -/
theorem PhaseOk.of_lock_ne (h : PhaseOk s call phase) (hlock : s.lock ≠ some call)
    (hlock' : s'.lock ≠ some call) (hendpoint : ∀ e, s.endpoint = some e → s'.endpoint = some e) :
    PhaseOk s' call phase := by
  cases phase with
  | inFactory => exact absurd h.1 hlock
  | forcing => exact absurd h.1 hlock
  | returned e b a => exact ⟨hlock', hendpoint e h.2.1, h.2.2⟩
  | _ => exact hlock'

/-- One call moves on, and the others know what they knew. -/
theorem phases_update (hphase : s'.phase = Function.update s.phase call phase)
    (hcall : PhaseOk s' call phase) (hothers : ∀ c ≠ call, PhaseOk s' c (s.phase c)) :
    ∀ c, PhaseOk s' c (s'.phase c) := by
  intro c
  rw [hphase]
  by_cases hc : c = call
  · rw [hc, Function.update_self]
    exact hcall
  · rw [Function.update_of_ne hc]
    exact hothers c hc

theorem Inv.init : Inv ({} : State ε) where
  phases _ hc := by cases hc
  noEndpoint _ := rfl
  noLeak _ hc := absurd hc (Nat.not_lt_zero _)
  cancelCalled hc := by cases hc
  afterAclose hc := by cases hc
  entered hc := by cases hc

theorem Inv.phaseOk (h : Inv s) (hcall : s.phase call = phase) : PhaseOk s call phase :=
  hcall ▸ h.phases call

/-- The call that closes an endpoint by force holds the lock, and has left the scope. -/
theorem Inv.forcing (h : Inv s) (hcall : s.phase call = .forcing endpoint) :
    s.lock = some call ∧ s.scope ≠ .entered := by
  obtain ⟨hlock, hscope, -⟩ : PhaseOk s call (.forcing endpoint) := h.phaseOk hcall
  refine ⟨hlock, ?_⟩
  rw [hscope]
  nofun

/-- A call that does not hold the lock gets to a phase in which it does not either. -/
theorem Inv.setPhase (h : Inv s) (hcall : PhaseOk s call phase) : Inv (s.setPhase call phase) where
  phases := phases_update rfl hcall fun c _ => h.phases c
  noEndpoint := h.noEndpoint
  noLeak := h.noLeak
  cancelCalled := h.cancelCalled
  afterAclose := h.afterAclose
  entered := h.entered

theorem Inv.move (h : Inv s) {phase' : Phase ε} (hcall : s.phase call = phase)
    (hok : PhaseOk s call phase → PhaseOk s call phase') : Inv (s.setPhase call phase') :=
  h.setPhase (hok (h.phaseOk hcall))

/-- A call moves on that holds the lock, or takes it; nobody else holds it then. -/
theorem Inv.phases_holder (h : Inv s) (hlock : ∀ c ≠ call, s.lock ≠ some c)
    (hlock' : ∀ c ≠ call, s'.lock ≠ some c)
    (hphase : s'.phase = Function.update s.phase call phase) (hcall : PhaseOk s' call phase)
    (hendpoint : ∀ e, s.endpoint = some e → s'.endpoint = some e) :
    ∀ c, PhaseOk s' c (s'.phase c) :=
  phases_update hphase hcall fun c hc => (h.phases c).of_lock_ne (hlock c hc) (hlock' c hc) hendpoint

theorem lock_ne_of_none (h : s.lock = none) : ∀ c ≠ call, s.lock ≠ some c := by
  intro c _ hc
  cases h.symm.trans hc

theorem lock_ne_of_some (h : s.lock = some call) : ∀ c ≠ call, s.lock ≠ some c := by
  intro c hne hc
  exact hne (Option.some.inj (hc.symm.trans h))

/-- `connect()` gets the lock. -/
theorem Inv.enter (h : Inv s) (hlock : s.lock = none) :
    Inv ({ s with lock := some call }.enter call) := by
  have hothers : ∀ c ≠ call, s.lock ≠ some c := lock_ne_of_none hlock
  have hscope : s.scope ≠ .entered := fun hc => h.entered hc hlock
  have hnone : ∀ c, (none : Option ℕ) ≠ some c := fun c hc => by cases hc
  unfold State.enter
  split
  next endpoint he =>
    have he : s.endpoint = some endpoint := he
    unfold State.leave
    split_ifs with hclosing
    · exact ⟨h.phases_holder hothers (fun c _ => hnone c) rfl (hnone call) fun _ => id,
        fun hc => absurd rfl hc, h.noLeak, h.cancelCalled, h.afterAclose, fun hc => absurd hc hscope⟩
    · refine ⟨h.phases_holder hothers (fun c _ => hnone c) rfl ⟨hnone call, he, fun ha => ?_⟩
        fun _ => id, fun hc => absurd rfl hc, h.noLeak, h.cancelCalled, h.afterAclose,
        fun hc => absurd hc hscope⟩
      exact (h.afterAclose ha).2 endpoint he
  next he =>
    split_ifs with hconnector hcreated
    · exact ⟨h.phases_holder hothers (fun c hc => lock_ne_of_some rfl c hc) rfl
        ⟨rfl, rfl, .inl hconnector⟩ fun _ => id, fun _ => he, h.noLeak, h.cancelCalled,
        h.afterAclose, fun _ hc => by cases hc⟩
    all_goals
      exact ⟨h.phases_holder hothers (fun c _ => hnone c) rfl (hnone call) fun _ => id,
        fun hc => absurd rfl hc, h.noLeak, h.cancelCalled, h.afterAclose, fun hc => absurd hc hscope⟩

/-- The call that holds the lock raises. -/
theorem Inv.raise_holder (h : Inv s) (hlock : s.lock = some call) {hasConnector : Bool}
    (factoryFailed : Bool) {scope : ScopeState}
    (hconnector : hasConnector = true → s.hasConnector = true)
    (hscope : scope ≠ .entered) (error : Error ε) :
    Inv ({ s with hasConnector, scope, factoryFailed }.raise call error) := by
  have hnone : ∀ c, (none : Option ℕ) ≠ some c := fun c hc => by cases hc
  refine ⟨h.phases_holder (lock_ne_of_some hlock) (fun c _ => hnone c) rfl (hnone call) fun _ => id,
    fun hc => absurd rfl hc, h.noLeak, h.cancelCalled, fun ha => ?_, fun hc => absurd hc hscope⟩
  refine ⟨?_, (h.afterAclose ha).2⟩
  rw [← Bool.not_eq_true]
  intro hc
  cases (h.afterAclose ha).1.symm.trans (hconnector hc)

/-- A new endpoint is stored and returned, if nobody has called `aclose()` yet. -/
theorem Inv.got (h : Inv s) (hlock : s.lock = some call) (hconnector : s.hasConnector = true) :
    Inv ({ s with scope := .exited, produced := s.produced + 1 }.got call (some s.produced)) := by
  have hendpoint : s.endpoint = none := h.noEndpoint (by rw [hlock]; exact Option.some_ne_none _)
  have hnone : ∀ c, (none : Option ℕ) ≠ some c := fun c hc => by cases hc
  have haclose : s.acloseStarted ≠ true := by
    intro ha
    cases (h.afterAclose ha).1.symm.trans hconnector
  have hkeep : ∀ e, s.endpoint = some e → some s.produced = some e := by
    intro e he
    cases hendpoint.symm.trans he
  have hnoLeak : ∀ e < s.produced + 1, some s.produced = some e ∨ s.isClosing e = true := by
    intro e he
    rcases Nat.lt_succ_iff_lt_or_eq.1 he with he | rfl
    · rcases h.noLeak e he with hc | hc
      · cases hendpoint.symm.trans hc
      · exact .inr hc
    · exact .inl rfl
  unfold State.got State.leave
  dsimp only
  split_ifs with hclosing
  · exact ⟨h.phases_holder (lock_ne_of_some hlock) (fun c _ => hnone c) rfl (hnone call) hkeep,
      fun hc => absurd rfl hc, hnoLeak, h.cancelCalled, fun ha => absurd ha haclose,
      fun hc => by cases hc⟩
  · exact ⟨h.phases_holder (lock_ne_of_some hlock) (fun c _ => hnone c) rfl
      ⟨hnone call, rfl, fun ha => absurd ha haclose⟩ hkeep, fun hc => absurd rfl hc, hnoLeak,
      h.cancelCalled, fun ha => absurd ha haclose, fun hc => by cases hc⟩

/-- What the end of the factory can do. -/
theorem factoryDone_cases {outcome : FactoryOutcome ε}
    (hs : s.factoryDone call outcome = some s') :
    (s.cancelCalled = true ∧
      s' = (({ s with scope := .exited, produced := s.produced + 1 }).close s.produced).setPhase call
        (.forcing s.produced)) ∨
    (s.cancelCalled ≠ true ∧
      s' = { s with scope := .exited, produced := s.produced + 1 }.got call (some s.produced)) ∨
    (∃ error, error ≠ .scopeEnteredTwice ∧
      s' = { s with scope := .exited, factoryFailed := true }.raise call error) ∨
    (s.cancelCalled = true ∧ s' = { s with scope := .exited }.got call none) := by
  unfold State.factoryDone at hs
  dsimp only at hs
  cases outcome with
  | returns =>
    split_ifs at hs with hcancel <;> cases hs
    · exact .inl ⟨hcancel, rfl⟩
    · exact .inr (.inl ⟨hcancel, rfl⟩)
  | raises exc =>
    cases hs
    exact .inr (.inr (.inl ⟨.factory exc, nofun, rfl⟩))
  | cancelled byScope =>
    rcases byScope with _ | _
    · cases hs
      exact .inr (.inr (.inl ⟨.cancelled, nofun, rfl⟩))
    · simp only [if_true] at hs
      split_ifs at hs with hcancel
      cases hs
      exact .inr (.inr (.inr ⟨hcancel, rfl⟩))

/-- The factory ends. -/
theorem Inv.factoryDone (h : Inv s) (hcall : s.phase call = .inFactory)
    {outcome : FactoryOutcome ε} (hs : s.factoryDone call outcome = some s') : Inv s' := by
  obtain ⟨hlock, -, hconnector⟩ : PhaseOk s call .inFactory := h.phaseOk hcall
  obtain ⟨hcancel, rfl⟩ | ⟨hcancel, rfl⟩ | ⟨error, -, rfl⟩ | ⟨-, rfl⟩ := factoryDone_cases hs
  · -- `aclose()` has been called: the new endpoint is closed
    refine ⟨h.phases_holder (lock_ne_of_some hlock) (lock_ne_of_some (s := s) hlock) rfl
      ⟨hlock, rfl, hcancel⟩ fun _ => id, h.noEndpoint, fun e he => ?_, h.cancelCalled, fun ha => ?_,
      fun hc => by cases hc⟩
    · by_cases heq : e = s.produced
      · rw [heq]
        exact .inr (Function.update_self _ _ _)
      · show _ ∨ Function.update s.isClosing s.produced true e = true
        rw [Function.update_of_ne heq]
        exact h.noLeak e (Nat.lt_of_le_of_ne (Nat.lt_succ_iff.1 he) heq)
    · refine ⟨(h.afterAclose ha).1, fun e he => ?_⟩
      have hnone := h.noEndpoint (by rw [hlock]; exact Option.some_ne_none _)
      cases hnone.symm.trans he
  · exact h.got hlock (hconnector.resolve_right hcancel)
  · exact h.raise_holder hlock _ id (by intro hc; cases hc) _
  · exact h.raise_holder hlock _ (fun hc => by cases hc) (by intro hc; cases hc) _

theorem Inv.close (h : Inv s) (endpoint : ℕ) : Inv (s.close endpoint) where
  phases c := by
    have hc := h.phases c
    show PhaseOk (s.close endpoint) c (s.phase c)
    cases hp : s.phase c <;> rw [hp] at hc <;> exact hc
  noEndpoint := h.noEndpoint
  noLeak e he := by
    refine (h.noLeak e he).imp id fun hc => ?_
    show Function.update s.isClosing endpoint true e = true
    rw [Function.update_apply]
    split_ifs
    · rfl
    · exact hc
  cancelCalled := h.cancelCalled
  afterAclose ha := by
    refine ⟨(h.afterAclose ha).1, fun e he => ?_⟩
    show Function.update s.isClosing endpoint true e = true
    rw [Function.update_apply]
    split_ifs
    · rfl
    · exact (h.afterAclose ha).2 e he
  entered := h.entered

theorem PhaseOk.aclose (h : PhaseOk s c phase) (hlock : s'.lock = s.lock) (hscope : s'.scope = s.scope)
    (hendpoint : s'.endpoint = s.endpoint)
    (hcancel : s'.cancelCalled = (s.cancelCalled || s.hasConnector)) : PhaseOk s' c phase := by
  cases phase with
  | inFactory =>
    obtain ⟨h1, h2, h3⟩ := h
    refine ⟨hlock.trans h1, hscope.trans h2, .inr ?_⟩
    rw [hcancel, Bool.or_eq_true]
    exact h3.symm
  | forcing e =>
    obtain ⟨h1, h2, h3⟩ := h
    refine ⟨hlock.trans h1, hscope.trans h2, ?_⟩
    rw [hcancel, h3]
    exact Bool.true_or _
  | returned e b a =>
    obtain ⟨h1, h2, h3⟩ := h
    exact ⟨fun hc => h1 (hlock.symm.trans hc), hendpoint.trans h2, h3⟩
  | _ => exact fun hc => h (hlock.symm.trans hc)

/-- `aclose()` is called: the scope of the connector is cancelled, or the endpoint is closed. -/
theorem Inv.aclose (h : Inv s) (hcall : s.phase call = .notCalled) : Inv (s.aclose call) := by
  have hlock : s.lock ≠ some call := by
    have hok := h.phases call
    rw [hcall] at hok
    exact hok
  unfold State.aclose
  dsimp only
  split
  next he =>
    have he : s.endpoint = none := he
    refine ⟨phases_update rfl hlock fun c _ => (h.phases c).aclose rfl rfl rfl rfl, h.noEndpoint,
      h.noLeak, fun _ => rfl, fun _ => ⟨rfl, fun e hc => ?_⟩, h.entered⟩
    cases he.symm.trans hc
  next endpoint he =>
    have he : s.endpoint = some endpoint := he
    have hself : Function.update s.isClosing endpoint true endpoint = true :=
      Function.update_self _ _ _
    refine ⟨phases_update rfl hlock fun c _ => (h.phases c).aclose rfl rfl rfl rfl, h.noEndpoint,
      (h.close endpoint).noLeak, fun _ => rfl, fun _ => ⟨rfl, fun e hc => ?_⟩, h.entered⟩
    cases he.symm.trans hc
    exact hself

/-- **Step lemma.** -/
theorem step_inv {a : Action ε} (h : Inv s) (hs : step s a = some s') : Inv s' := by
  cases a with
  | connect call =>
    simp only [step] at hs
    split at hs <;> cases hs
    next hcall => exact h.move hcall id
  | acquire call =>
    simp only [step] at hs
    split at hs <;> cases hs
    next hlock => exact h.enter hlock
  | factory call outcome =>
    simp only [step] at hs
    split at hs
    next hcall => exact h.factoryDone hcall hs
    next => cases hs
  | acloseDone call exc =>
    simp only [step] at hs
    split at hs
    next e hcall =>
      obtain ⟨hlock, hne⟩ := h.forcing hcall
      split at hs <;> cases hs
      · exact h.raise_holder hlock s.factoryFailed (fun hc => by cases hc) hne _
      · exact h.raise_holder hlock s.factoryFailed id hne _
    next e hcall =>
      cases hs
      exact h.move hcall id
    next => cases hs
  | throw call =>
    simp only [step] at hs
    split at hs <;> cases hs
    next hcall => exact h.move hcall id
    next e hcall =>
      obtain ⟨hlock, hne⟩ := h.forcing hcall
      exact h.raise_holder hlock s.factoryFailed id hne _
    next e hcall => exact h.move hcall id
  | aclose call =>
    simp only [step] at hs
    split at hs <;> cases hs
    next hcall => exact h.aclose hcall
  | endpointCloses endpoint =>
    cases hs
    exact h.close endpoint

/-! ## No leak -/

/-- **No endpoint is leaked or handed out twice.** -/
structure Correct (s : State ε) : Prop where
  /-- `connect()` only ever returns one endpoint -/
  unique : ∀ c c' e e' b b' a a', s.phase c = .returned e b a → s.phase c' = .returned e' b' a' →
    e = e'
  /-- an endpoint that the factory has returned is the stored one, or its `aclose()` is called -/
  noLeak : ∀ e < s.produced, s.endpoint = some e ∨ s.isClosing e = true
  /-- when `aclose()` has started, `connect()` returns no endpoint that is not closing -/
  afterAclose : ∀ c e b, s.phase c = .returned e b true → b = true
  /-- nor does `get_sync()` -/
  getSync : s.acloseStarted = true → ∀ e, s.getSync ≠ .ok e

theorem Inv.correct (h : Inv s) : Correct s where
  unique c c' e e' b b' a a' hc hc' := by
    obtain ⟨-, he, -⟩ : PhaseOk s c (.returned e b a) := hc ▸ h.phases c
    obtain ⟨-, he', -⟩ : PhaseOk s c' (.returned e' b' a') := hc' ▸ h.phases c'
    exact Option.some.inj (he.symm.trans he')
  noLeak := h.noLeak
  afterAclose c e b hc := by
    obtain ⟨-, -, hb⟩ : PhaseOk s c (.returned e b true) := hc ▸ h.phases c
    exact hb rfl
  getSync ha e := by
    obtain ⟨hconnector, hclosing⟩ := h.afterAclose ha
    unfold State.getSync
    split
    next he =>
      rw [hconnector]
      intro hc
      cases hc
    next endpoint he =>
      rw [if_pos (hclosing endpoint he)]
      intro hc
      cases hc

/-- **`connect()` and `aclose()` never leak an endpoint, in any interleaving.** -/
theorem deferred_correct {as : List (Action ε)} (h : Trans.run step {} as = some s) : Correct s :=
  Inv.correct (Trans.run_inv (fun _ _ _ hi hs => step_inv hi hs) Inv.init h)

/-- `aclose()` is called while the factory runs, and does not wait for it; the endpoint is closed. -/
theorem deferred_race : ∃ s : State String, Trans.run step {} [.connect 0, .acquire 0, .connect 1,
      .aclose 2, .factory 0 .returns, .acloseDone 0 none, .acquire 1] = some s ∧
    s.produced = 1 ∧ s.endpoint = none ∧ Correct s := by
  obtain ⟨s, hs⟩ : ∃ s : State String, Trans.run step {} [.connect 0, .acquire 0, .connect 1,
    .aclose 2, .factory 0 .returns, .acloseDone 0 none, .acquire 1] = some s := ⟨_, rfl⟩
  refine ⟨s, hs, ?_, ?_, deferred_correct hs⟩ <;> cases hs <;> rfl

end

end DeferredInit

end EasyNetwork
