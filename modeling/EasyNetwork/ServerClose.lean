/-
  No listener survives `server_close()`.

  `server_close_iff`: once all calls have ended, and `server_close()` has returned, every listener is
  closed, the list of servers is empty, and every activation that had not ended before the close has
  raised `ServerClosedError`, iff no factory that was about to run on when `server_close()` cancelled
  its scope has come to its end without another suspension.

  `publishes_after_close`: otherwise the scope has nothing to catch, and the listeners are published
  when `server_close()` has already taken its copy of the list.
-/
import EasyNetwork.BaseServer

namespace EasyNetwork

namespace BaseServer

variable {ε : Type}

/-- A factory that runs on in a cancelled scope comes to another suspension. -/
def Safe (s : State ε) : Action ε → Prop
  | .factory _ outcome => s.scope = some true → outcome = .suspends
  | _ => True

instance [DecidableEq ε] (s : State ε) : ∀ a, Decidable (Safe s a)
  | .factory _ outcome => inferInstanceAs (Decidable (s.scope = some true → outcome = .suspends))
  | .activate _ | .serve _ | .close _ | .acquireActivation _ | .wake _ | .throw _ | .setupDone _ _
  | .taskDone | .serveEnds _ _ | .acquireClose _ | .closeRuns _ | .tasksDone _ | .serverClosed _ _
  | .interrupt _ _ | .closeDone _ => .isTrue trivial

/-- The call has not been made, or has ended. -/
def Phase.isOver : Phase ε → Bool
  | .notCalled | .ended _ => true
  | _ => false

/-- The servers that a call of `server_close()` has still to close; `none` if it is not past the
    guard, or has ended. -/
def Phase.toClose : Phase ε → Option (List ℕ)
  | .waitTasks servers | .closing servers _ => some servers
  | _ => none

def Phase.isInFactory : Phase ε → Bool
  | .inFactory _ _ => true
  | _ => false

section
variable {s s' : State ε} {call : ℕ} {serve : Bool} {phase : Phase ε} {error : Option (Error ε)}

/-- A call of `server_close()` will close the server. -/
def Held (s : State ε) (server : ℕ) : Prop :=
  ∃ call servers, (s.phase call).toClose = some servers ∧ server ∈ servers

theorem Held.setPhase {server : ℕ} (h : Held s server) (hold : (s.phase call).toClose = none) :
    Held (s.setPhase call phase) server := by
  obtain ⟨c, servers, hc, hmem⟩ := h
  have hne : c ≠ call := by
    rintro rfl
    rw [hold] at hc
    cases hc
  refine ⟨c, servers, ?_, hmem⟩
  rw [State.setPhase_of_ne s phase hne]
  exact hc

/-- An activation that ends after the close has started ends with `ServerClosedError`. -/
def Late (activations : List (Option (Error ε) × Bool)) : Prop :=
  ∀ r ∈ activations, r.2 = true → r.1 = some .serverClosed

/-- What the signals of `server_close()` and the activations keep up. -/
structure Inv (s : State ε) : Prop where
  /-- the scope is open for the call that holds the lock -/
  inFactory : ∀ c, (s.phase c).isInFactory = true →
    s.activationLock = some c ∧ s.scope.isSome = true ∧ s.servers = []
  scope : s.activationLock = none → s.scope = none
  cancelled : s.scope = some true → s.closeStarted = true
  /-- the two signals -/
  started : s.closeStarted = true → s.hasFactory = false ∧ s.scope ≠ some false
  hasFactory : s.closeStarted = false → s.hasFactory = true
  published : s.closeStarted = false → ∀ l < s.produced, l ∈ s.servers
  held : s.closeStarted = true → s.closeFailed = true ∨ ∀ l < s.produced, l ∈ s.closed ∨ Held s l
  cleared : s.closeStarted = true → s.servers = [] ∨ ∃ c, (s.phase c).toClose.isSome = true
  closing : ∀ c, (s.phase c).toClose.isSome = true → s.closeStarted = true
  returned : s.closeReturned = true → s.closeStarted = true
  late : Late s.activations

theorem Inv.init : Inv ({} : State ε) where
  inFactory _ hc := by cases hc
  scope _ := rfl
  cancelled h := by cases h
  started h := by cases h
  hasFactory _ := rfl
  published _ _ hl := absurd hl (Nat.not_lt_zero _)
  held h := by cases h
  cleared h := by cases h
  closing _ hc := by cases hc
  returned h := by cases h
  late _ hr := absurd hr List.not_mem_nil

/-- The guard, the lock of `server_close()` and the server tasks do not matter. -/
theorem Inv.irrelevant (h : Inv s) (closeGuard : Bool) (closeLock : Option ℕ) (running : Bool)
    (serverTasks : ℕ) : Inv { s with
      closeGuard := closeGuard
      closeLock := closeLock
      running := running
      serverTasks := serverTasks } :=
  ⟨h.inFactory, h.scope, h.cancelled, h.started, h.hasFactory, h.published, h.held, h.cleared,
    h.closing, h.returned, h.late⟩

theorem isInFactory_setPhase {c : ℕ} (hnew : phase.isInFactory = false)
    (hc : ((s.setPhase call phase).phase c).isInFactory = true) :
    c ≠ call ∧ (s.phase c).isInFactory = true := by
  by_cases hcall : c = call
  · subst hcall
    rw [State.setPhase_self, hnew] at hc
    cases hc
  · rw [State.setPhase_of_ne s phase hcall] at hc
    exact ⟨hcall, hc⟩

/-- A call that is not past the guard of `server_close()` moves. -/
theorem Inv.setPhase (h : Inv s) (hold : (s.phase call).toClose = none)
    (hclose : phase.toClose = none) (hnew : phase.isInFactory = true →
      s.activationLock = some call ∧ s.scope.isSome = true ∧ s.servers = []) :
    Inv (s.setPhase call phase) where
  inFactory c hc := by
    by_cases hcall : c = call
    · subst hcall
      rw [State.setPhase_self] at hc
      exact hnew hc
    · rw [State.setPhase_of_ne s phase hcall] at hc
      exact h.inFactory c hc
  scope := h.scope
  cancelled := h.cancelled
  started := h.started
  hasFactory := h.hasFactory
  published := h.published
  held hs := (h.held hs).imp_right fun hall l hl => (hall l hl).imp_right (·.setPhase hold)
  cleared hs := by
    refine (h.cleared hs).imp_right ?_
    rintro ⟨c, hc⟩
    have hne : c ≠ call := by
      rintro rfl
      rw [hold] at hc
      cases hc
    refine ⟨c, ?_⟩
    rw [State.setPhase_of_ne s phase hne]
    exact hc
  closing c hc := by
    by_cases hcall : c = call
    · subst hcall
      rw [State.setPhase_self, hclose] at hc
      cases hc
    · rw [State.setPhase_of_ne s phase hcall] at hc
      exact h.closing c hc
  returned := h.returned
  late := h.late

/-- A call of `server_close()` that is past the guard moves. -/
theorem Inv.closeMoves (h : Inv s) {servers servers' closed' : List ℕ}
    (hold : (s.phase call).toClose = some servers) (hnew : phase.toClose = some servers')
    (hclosed : s.closed ⊆ closed') (hservers : ∀ l ∈ servers, l ∈ closed' ∨ l ∈ servers') :
    Inv ({ s with closed := closed' }.setPhase call phase) where
  inFactory c hc := by
    have hnot : phase.isInFactory = false := by
      cases phase with
      | inFactory _ _ => cases hnew
      | _ => rfl
    exact h.inFactory c (isInFactory_setPhase hnot hc).2
  scope := h.scope
  cancelled := h.cancelled
  started := h.started
  hasFactory := h.hasFactory
  published := h.published
  held hs := by
    refine (h.held hs).imp_right fun hall l hl => ?_
    rcases hall l hl with hmem | ⟨c, ls, hc, hmem⟩
    · exact .inl (hclosed hmem)
    by_cases hcall : c = call
    · subst hcall
      rw [hold] at hc
      cases hc
      refine (hservers l hmem).imp_right fun hmem => ⟨c, servers', ?_, hmem⟩
      rw [State.setPhase_self]
      exact hnew
    · refine .inr ⟨c, ls, ?_, hmem⟩
      rw [State.setPhase_of_ne _ phase hcall]
      exact hc
  cleared _ := by
    refine .inr ⟨call, ?_⟩
    rw [State.setPhase_self, hnew]
    rfl
  closing _ _ := h.closing call (by rw [hold]; rfl)
  returned := h.returned
  late := h.late

theorem Inv.endServe (h : Inv s) (hold : (s.phase call).toClose = none) :
    Inv (s.endServe call error) :=
  (h.irrelevant s.closeGuard s.closeLock false s.serverTasks).setPhase hold rfl nofun

/-- The listeners that are published before the close. -/
def Publishes (s : State ε) (servers : List ℕ) (produced : ℕ) : Prop :=
  servers = s.servers ∧ produced = s.produced ∨
    s.closeStarted = false ∧ ∀ l < produced, l ∈ servers

/-- The call that holds the lock leaves the scope, and releases the lock. -/
theorem Inv.unlock (h : Inv s) {servers : List ℕ} {produced : ℕ}
    (hpub : Publishes s servers produced) (hlock : s.activationLock = some call)
    (hold : (s.phase call).toClose = none) (hclose : phase.toClose = none)
    (hnew : phase.isInFactory = false)
    (hlate : s.closeStarted = true → error = some .serverClosed) :
    Inv ({ s with
      servers := servers
      produced := produced
      scope := none
      activationLock := none
      activations := s.activations ++ [(error, s.closeStarted)] }.setPhase call phase) := by
  have hmoved : Inv (s.setPhase call phase) := h.setPhase hold hclose (by rw [hnew]; nofun)
  constructor
  case inFactory =>
    intro c hc
    obtain ⟨hcall, hc⟩ := isInFactory_setPhase hnew hc
    have hlock' := (h.inFactory c hc).1
    rw [hlock] at hlock'
    exact absurd (Option.some.inj hlock').symm hcall
  case scope => exact fun _ => rfl
  case cancelled => exact nofun
  case started => exact fun hs => ⟨(h.started hs).1, nofun⟩
  case hasFactory => exact h.hasFactory
  case published =>
    rcases hpub with ⟨rfl, rfl⟩ | ⟨-, hpub⟩
    · exact h.published
    · exact fun _ => hpub
  case held =>
    rcases hpub with ⟨rfl, rfl⟩ | ⟨hs, -⟩
    · exact hmoved.held
    · exact fun hs' => absurd (hs.symm.trans hs') nofun
  case cleared =>
    rcases hpub with ⟨rfl, rfl⟩ | ⟨hs, -⟩
    · exact hmoved.cleared
    · exact fun hs' => absurd (hs.symm.trans hs') nofun
  case closing => exact hmoved.closing
  case returned => exact h.returned
  case late =>
    intro r hr hlate'
    rcases List.mem_append.1 hr with hr | hr
    · exact h.late r hr hlate'
    · rw [List.mem_singleton] at hr
      subst hr
      exact hlate hlate'

theorem Inv.endActivation (h : Inv s) {servers : List ℕ} {produced : ℕ}
    (hpub : Publishes s servers produced) (hlock : s.activationLock = some call)
    (hold : (s.phase call).toClose = none)
    (hlate : s.closeStarted = true → error = some .serverClosed) :
    Inv ({ s with servers := servers, produced := produced, scope := none }.endActivation
      call serve error) := by
  have hended : ∀ phase : Phase ε, phase.toClose = none → phase.isInFactory = false → _ :=
    fun phase hclose hnew => h.unlock hpub hlock hold hclose hnew hlate
  unfold State.endActivation
  match serve, error with
  | false, _ => exact hended _ rfl rfl
  | true, some error =>
    exact (hended _ rfl rfl).irrelevant s.closeGuard s.closeLock false s.serverTasks
  | true, none =>
    show Inv (State.enterSetup _ call)
    unfold State.enterSetup
    split
    · exact (hended _ rfl rfl).irrelevant s.closeGuard s.closeLock false s.serverTasks
    · split
      · exact (hended _ rfl rfl).irrelevant s.closeGuard s.closeLock false s.serverTasks
      · exact (hended _ rfl rfl).irrelevant true s.closeLock s.running s.serverTasks

/-- `server_activate()` gets the lock. -/
theorem Inv.enter (h : Inv s) (hlock : s.activationLock = none)
    (hphase : s.phase call = .waitActivation serve) :
    Inv ({ s with activationLock := some call }.enter call serve) := by
  have hscope := h.scope hlock
  have hold : (s.phase call).toClose = none := by rw [hphase]; rfl
  have hlocked : Inv { s with activationLock := some call } :=
    ⟨fun c hc => absurd (hlock.symm.trans (h.inFactory c hc).1) nofun, nofun, h.cancelled, h.started,
      h.hasFactory, h.published, h.held, h.cleared, h.closing, h.returned, h.late⟩
  have hend : ∀ error, (s.closeStarted = true → error = some .serverClosed) →
      Inv ({ s with activationLock := some call }.endActivation call serve error) := by
    intro error hlate
    have heq : { s with activationLock := some call, scope := none } =
        { s with activationLock := some call } :=
      congrArg (fun scope => { s with activationLock := some call, scope := scope }) hscope.symm
    rw [← heq]
    exact hlocked.endActivation (.inl ⟨rfl, rfl⟩) rfl hold hlate
  unfold State.enter
  split
  · next hopen =>
    rw [hscope] at hopen
    cases hopen
  split
  · exact hend _ fun _ => rfl
  next hfactory =>
  have hstarted : s.closeStarted ≠ true := by
    intro hs
    exact hfactory (by rw [(h.started hs).1]; rfl)
  split
  · exact hend _ fun hs => absurd hs hstarted
  next hservers =>
    have hopened : Inv { s with activationLock := some call, scope := some false } :=
      ⟨fun c hc => absurd (hlock.symm.trans (h.inFactory c hc).1) nofun, nofun, nofun,
        fun hs => absurd hs hstarted, h.hasFactory, h.published, h.held, h.cleared, h.closing,
        h.returned, h.late⟩
    exact hopened.setPhase hold rfl fun _ => ⟨rfl, rfl, not_not.1 hservers⟩

/-- As long as the scope of the factory is not cancelled, the close has not started. -/
theorem Inv.not_started (h : Inv s) (hphase : (s.phase call).isInFactory = true)
    (hopen : s.scope ≠ some true) : s.closeStarted = false := by
  rw [Bool.eq_false_iff]
  intro hs
  have hscope := (h.inFactory call hphase).2.1
  obtain ⟨b, hb⟩ := Option.isSome_iff_exists.1 hscope
  cases b with
  | false => exact (h.started hs).2 hb
  | true => exact hopen hb

/-- A suspension in the scope is over. -/
theorem Inv.factoryRuns {outcome : FactoryOutcome ε} (h : Inv s) {woken : Bool}
    (hphase : s.phase call = .inFactory serve woken)
    (hsafe : s.scope = some true → outcome = .suspends) :
    Inv (s.factoryRuns call serve outcome) := by
  have hin : (s.phase call).isInFactory = true := by rw [hphase]; rfl
  obtain ⟨hlock, hscope, hservers⟩ := h.inFactory call hin
  have hold : (s.phase call).toClose = none := by rw [hphase]; rfl
  cases outcome with
  | suspends => exact h.setPhase hold rfl fun _ => ⟨hlock, hscope, hservers⟩
  | returns listeners =>
    have hstarted := h.not_started hin fun hopen => nomatch hsafe hopen
    have hlate : ∀ error : Option (Error ε), s.closeStarted = true → error = some .serverClosed :=
      fun _ hs => absurd (hstarted.symm.trans hs) nofun
    -- nothing has been published before
    have hproduced : s.produced = 0 := by
      have hpub := h.published hstarted
      rw [hservers] at hpub
      by_contra hpos
      exact absurd (hpub 0 (Nat.pos_of_ne_zero hpos)) List.not_mem_nil
    show Inv (if listeners = 0 then _ else _)
    split
    · exact h.endActivation (.inl ⟨rfl, rfl⟩) hlock hold (hlate _)
    · refine h.endActivation (.inr ⟨hstarted, fun l hl => ?_⟩) hlock hold (hlate _)
      rw [hproduced] at hl ⊢
      exact List.mem_range'_1.2 ⟨Nat.zero_le l, hl⟩
  | raises exc =>
    have hstarted := h.not_started hin fun hopen => nomatch hsafe hopen
    exact h.endActivation (.inl ⟨rfl, rfl⟩) hlock hold fun hs => absurd (hstarted.symm.trans hs) nofun

theorem Inv.requestClose (h : Inv s) (hphase : s.phase call = .hasClose) :
    Inv (s.requestClose call) := by
  have hold : (s.phase call).toClose = none := by rw [hphase]; rfl
  unfold State.requestClose
  split
  · exact (h.irrelevant s.closeGuard none s.running s.serverTasks).setPhase hold rfl nofun
  constructor
  case inFactory =>
    intro c hc
    obtain ⟨hlock, hscope, hservers⟩ := h.inFactory c (isInFactory_setPhase rfl hc).2
    exact ⟨hlock, Option.isSome_map.trans hscope, hservers⟩
  case scope => exact fun hlock => by rw [State.setPhase, h.scope hlock]; rfl
  case cancelled => exact fun _ => rfl
  case started =>
    refine fun _ => ⟨rfl, fun hopen => ?_⟩
    obtain ⟨_, -, hb⟩ := Option.map_eq_some_iff.1 hopen
    cases hb
  case hasFactory => exact nofun
  case published => exact nofun
  case held =>
    intro _
    by_cases hs : s.closeStarted = true
    · exact (h.held hs).imp_right fun hall l hl => (hall l hl).imp_right (·.setPhase hold)
    · refine .inr fun l hl => .inr ⟨call, s.servers, ?_, ?_⟩
      · rw [State.setPhase_self]
        rfl
      · exact h.published (Bool.eq_false_iff.2 hs) l hl
  case cleared =>
    refine fun _ => .inr ⟨call, ?_⟩
    rw [State.setPhase_self]
    rfl
  case closing => exact fun _ _ => rfl
  case returned => exact fun _ => rfl
  case late => exact h.late

theorem Inv.endClose (h : Inv s) {servers : List ℕ} (hphase : s.phase call = .closing servers error)
    (hdone : servers = [] ∨ error.isSome = true) : Inv (s.endClose call error) := by
  have hstarted : s.closeStarted = true := h.closing call (by rw [hphase]; rfl)
  unfold State.endClose
  constructor
  case inFactory =>
    intro c hc
    obtain ⟨hlock, hscope, -⟩ := h.inFactory c (isInFactory_setPhase rfl hc).2
    exact ⟨hlock, hscope, rfl⟩
  case scope => exact h.scope
  case cancelled => exact h.cancelled
  case started => exact h.started
  case hasFactory => exact h.hasFactory
  case published => exact fun hs => absurd (hs.symm.trans hstarted) nofun
  case held =>
    intro _
    rcases hdone with rfl | herror
    · refine (h.held hstarted).imp (fun hfailed => ?_) fun hall l hl => ?_
      · exact Bool.or_eq_true_iff.2 (.inl hfailed)
      · refine (hall l hl).imp_right ?_
        rintro ⟨c, ls, hc, hmem⟩
        have hne : c ≠ call := by
          rintro rfl
          rw [hphase] at hc
          cases hc
          cases hmem
        refine ⟨c, ls, ?_, hmem⟩
        rw [State.setPhase_of_ne _ _ hne]
        exact hc
    · exact .inl (Bool.or_eq_true_iff.2 (.inr herror))
  case cleared => exact fun _ => .inl rfl
  case closing => exact fun _ _ => hstarted
  case returned => exact fun _ => hstarted
  case late => exact h.late

/-! ## The runs -/

theorem step_inv {a : Action ε} (h : Inv s) (hok : Safe s a) (hs : step s a = some s') : Inv s' := by
  cases a with
  | activate call | close call =>
    simp only [step] at hs
    split at hs <;> cases hs
    next hphase => exact h.setPhase (by rw [hphase]; rfl) rfl nofun
  | serve call =>
    simp only [step] at hs
    split at hs
    · next hphase =>
      split at hs <;> cases hs
      · exact h.setPhase (by rw [hphase]; rfl) rfl nofun
      · exact (h.irrelevant s.closeGuard s.closeLock true s.serverTasks).setPhase
          (by rw [hphase]; rfl) rfl nofun
    · cases hs
  | acquireActivation call =>
    simp only [step] at hs
    split at hs <;> cases hs
    next hphase hlock => exact h.enter hlock hphase
  | wake call =>
    simp only [step] at hs
    split at hs
    · next hphase =>
      split at hs <;> cases hs
      exact h.setPhase (by rw [hphase]; rfl) rfl fun _ => h.inFactory call (by rw [hphase]; rfl)
    · cases hs
  | factory call outcome =>
    simp only [step] at hs
    split at hs <;> cases hs
    next hphase => exact h.factoryRuns hphase hok
  | throw call =>
    simp only [step] at hs
    split at hs
    · next hphase =>
      split at hs <;> cases hs
      have hlock := (h.inFactory call (by rw [hphase]; rfl)).1
      exact h.endActivation (.inl ⟨rfl, rfl⟩) hlock (by rw [hphase]; rfl) fun _ => rfl
    · cases hs
  | setupDone call exc =>
    simp only [step] at hs
    split at hs
    · next hphase =>
      have hold : (s.phase call).toClose = none := by rw [hphase]; rfl
      cases exc with
      | none =>
        cases hs
        exact (h.irrelevant false s.closeLock s.running s.servers.length).setPhase hold rfl nofun
      | some exc =>
        cases hs
        exact (h.irrelevant false s.closeLock s.running s.serverTasks).endServe hold
    · cases hs
  | taskDone =>
    simp only [step] at hs
    split at hs <;> cases hs
    exact h.irrelevant s.closeGuard s.closeLock s.running (s.serverTasks - 1)
  | serveEnds call exc =>
    simp only [step] at hs
    split at hs
    · next hphase =>
      split at hs <;> cases hs
      exact h.endServe (by rw [hphase]; rfl)
    · cases hs
  | acquireClose call =>
    simp only [step] at hs
    split at hs <;> cases hs
    next hphase _ =>
      exact (h.irrelevant s.closeGuard (some call) s.running s.serverTasks).setPhase
        (by rw [hphase]; rfl) rfl nofun
  | closeRuns call =>
    simp only [step] at hs
    split at hs <;> cases hs
    next hphase => exact h.requestClose hphase
  | tasksDone call =>
    simp only [step] at hs
    split at hs
    · next servers hphase =>
      split at hs <;> cases hs
      have hold : (s.phase call).toClose = some servers := by rw [hphase]; rfl
      exact h.closeMoves hold rfl (List.Subset.refl _) fun l hl => .inr hl
    · cases hs
  | serverClosed call server =>
    simp only [step] at hs
    split at hs
    · next servers error hphase =>
      split at hs <;> cases hs
      have hold : (s.phase call).toClose = some servers := by rw [hphase]; rfl
      refine h.closeMoves hold rfl (List.subset_append_left _ _) fun l hl => ?_
      by_cases hserver : l = server
      · exact .inl (List.mem_append_right _ (List.mem_singleton.2 hserver))
      · exact .inr ((List.mem_erase_of_ne hserver).2 hl)
    · cases hs
  | interrupt call exc =>
    simp only [step] at hs
    split at hs <;> cases hs
    all_goals next hphase =>
      exact h.closeMoves (by rw [hphase]; rfl) rfl (List.Subset.refl _) fun l hl => .inr hl
  | closeDone call =>
    simp only [step] at hs
    split at hs
    · next hphase =>
      split at hs <;> cases hs
      next hdone => exact h.endClose hphase hdone
    · cases hs

/-! ## The ends of the activations -/

@[simp] theorem activations_endActivation (s : State ε) (call : ℕ) (serve : Bool)
    (error : Option (Error ε)) : (s.endActivation call serve error).activations =
      s.activations ++ [(error, s.closeStarted)] := by
  unfold State.endActivation
  match serve, error with
  | false, _ => rfl
  | true, some error => rfl
  | true, none =>
    show (State.enterSetup _ call).activations = _
    unfold State.enterSetup
    split_ifs <;> rfl

theorem activations_enter (s : State ε) (call : ℕ) (serve : Bool) :
    s.activations <+: (s.enter call serve).activations := by
  unfold State.enter
  split_ifs
  all_goals first
    | exact List.prefix_rfl
    | (rw [activations_endActivation]; exact List.prefix_append _ _)

theorem activations_factoryRuns (s : State ε) (call : ℕ) (serve : Bool)
    (outcome : FactoryOutcome ε) :
    outcome = .suspends ∧ (s.factoryRuns call serve outcome).activations = s.activations ∨
      ∃ error, error ≠ some .serverClosed ∧
        (s.factoryRuns call serve outcome).activations =
          s.activations ++ [(error, s.closeStarted)] := by
  cases outcome with
  | suspends => exact .inl ⟨rfl, rfl⟩
  | returns listeners =>
    right
    simp only [State.factoryRuns]
    split
    · exact ⟨some .emptyListeners, nofun, activations_endActivation _ _ _ _⟩
    · exact ⟨none, nofun, activations_endActivation _ _ _ _⟩
  | raises exc => exact .inr ⟨some (.other exc), nofun, activations_endActivation _ _ _ _⟩

/-- No end of an activation is forgotten. -/
theorem activations_step {a : Action ε} (hs : step s a = some s') :
    s.activations <+: s'.activations := by
  cases a with
  | acquireActivation call =>
    simp only [step] at hs
    split at hs <;> cases hs
    exact activations_enter { s with activationLock := some call } call _
  | factory call outcome =>
    simp only [step] at hs
    split at hs <;> cases hs
    next serve _ =>
    rcases activations_factoryRuns s call serve outcome with ⟨-, h⟩ | ⟨_, -, h⟩
    · exact ⟨[], by rw [h, List.append_nil]⟩
    · rw [h]
      exact List.prefix_append _ _
  | throw call =>
    simp only [step] at hs
    split at hs
    · split at hs <;> cases hs
      rw [activations_endActivation]
      exact List.prefix_append _ _
    · cases hs
  | closeRuns call =>
    simp only [step] at hs
    split at hs <;> cases hs
    unfold State.requestClose
    split <;> exact List.prefix_rfl
  | setupDone call exc =>
    simp only [step] at hs
    split at hs
    · cases exc <;> cases hs <;> exact List.prefix_rfl
    · cases hs
  | activate _ | serve _ | close _ | wake _ | taskDone | serveEnds _ _ | acquireClose _
  | tasksDone _ | serverClosed _ _ | interrupt _ _ | closeDone _ =>
    simp only [step] at hs
    split at hs
    all_goals first
      | (cases hs <;> exact List.prefix_rfl)
      | (split at hs <;> cases hs <;> exact List.prefix_rfl)

theorem not_late_step {a : Action ε} (h : ¬ Late s.activations) (hs : step s a = some s') :
    ¬ Late s'.activations := fun hlate =>
  h fun r hr => hlate r ((activations_step hs).subset hr)

/-- A factory that comes to its end in a cancelled scope. -/
theorem not_late_of_not_safe {a : Action ε} (h : Inv s) (hbad : ¬ Safe s a)
    (hs : step s a = some s') : ¬ Late s'.activations := by
  cases a with
  | factory call outcome =>
    obtain ⟨hscope, houtcome⟩ := Classical.not_imp.1 hbad
    simp only [step] at hs
    split at hs <;> cases hs
    next serve _ =>
    rcases activations_factoryRuns s call serve outcome with ⟨hsuspends, -⟩ | ⟨error, herror, hlog⟩
    · exact absurd hsuspends houtcome
    · intro hlate
      rw [hlog] at hlate
      exact herror (hlate _ (List.mem_append_right _ List.mem_cons_self) (h.cancelled hscope))
  | _ => exact absurd trivial hbad

/-- **Once all calls have ended, and `server_close()` has returned, no listener has survived it, iff
    no factory came to its end in the scope that `server_close()` had cancelled.** -/
theorem server_close_iff {as : List (Action ε)} (h : Trans.run step {} as = some s)
    (hover : ∀ c, (s.phase c).isOver = true) (hreturned : s.closeReturned = true)
    (hfailed : s.closeFailed = false) :
    Trans.Meets step Safe {} as ↔
      (∀ l < s.produced, l ∈ s.closed) ∧ s.servers = [] ∧
        ∀ r ∈ s.activations, r.2 = true → r.1 = some .serverClosed := by
  constructor
  · intro hmeets
    have hinv : Inv s := Trans.run_inv_of (fun _ _ _ hi hok hs => step_inv hi hok hs) Inv.init hmeets h
    have hstarted := hinv.returned hreturned
    have hnone : ∀ c, (s.phase c).toClose = none := by
      intro c
      have hc := hover c
      cases hphase : s.phase c with
      | notCalled | ended => rfl
      | _ =>
        rw [hphase] at hc
        cases hc
    refine ⟨fun l hl => ?_, ?_, hinv.late⟩
    · rcases hinv.held hstarted with hfail | hall
      · exact absurd (hfailed.symm.trans hfail) nofun
      · refine (hall l hl).resolve_right ?_
        rintro ⟨c, servers, hc, -⟩
        exact absurd ((hnone c).symm.trans hc) nofun
    · refine (hinv.cleared hstarted).resolve_right ?_
      rintro ⟨c, hc⟩
      rw [hnone c] at hc
      cases hc
  · rintro ⟨-, -, hlate⟩
    exact (Trans.meets_iff Safe Inv (fun s => ¬ Late s.activations) (fun _ hi hb => hb hi.late)
      (fun _ _ _ hi hok hs => step_inv hi hok hs)
      (fun _ _ _ hi hbad hs => not_late_of_not_safe hi hbad hs)
      (fun _ _ _ hb hs => not_late_step hb hs) Inv.init h).2 (not_not.2 hlate)

/-- A server is closed while it serves on two listeners, and then activated once more. -/
theorem server_close_serving : ∃ s, Trans.run step ({} : State Unit) [.serve 0, .acquireActivation 0, .wake 0,
      .factory 0 .suspends, .wake 0, .factory 0 (.returns 2), .setupDone 0 none, .close 1,
      .acquireClose 1, .closeRuns 1, .activate 2, .acquireActivation 2, .taskDone, .taskDone,
      .serveEnds 0 none, .tasksDone 1, .serverClosed 1 1, .serverClosed 1 0, .closeDone 1] = some s ∧
    s.produced = 2 ∧ (∀ l < s.produced, l ∈ s.closed) ∧ s.servers = [] ∧
      ∀ r ∈ s.activations, r.2 = true → r.1 = some .serverClosed := by
  obtain ⟨s, hs⟩ : ∃ s, Trans.run step ({} : State Unit) [.serve 0, .acquireActivation 0, .wake 0,
      .factory 0 .suspends, .wake 0, .factory 0 (.returns 2), .setupDone 0 none, .close 1,
      .acquireClose 1, .closeRuns 1, .activate 2, .acquireActivation 2, .taskDone, .taskDone,
      .serveEnds 0 none, .tasksDone 1, .serverClosed 1 1, .serverClosed 1 0, .closeDone 1] = some s := ⟨_, rfl⟩
  have hover : ∀ c, (s.phase c).isOver = true := by
    cases hs
    intro c
    match c with
    | 0 | 1 | 2 | _ + 3 => rfl
  have hend : s.produced = 2 ∧ s.closeReturned = true ∧ s.closeFailed = false := by
    cases hs
    exact ⟨rfl, rfl, rfl⟩
  exact ⟨s, hs, hend.1, (server_close_iff hs hover hend.2.1 hend.2.2).1 (by decide)⟩

/-- What the factory waits for is there when the server is closed: the listener is published when
    `server_close()` has taken its copy of the list, which it then clears. -/
theorem publishes_after_close : ∃ s, Trans.run step ({} : State Unit) [.activate 0,
      .acquireActivation 0, .wake 0, .close 1, .acquireClose 1, .closeRuns 1, .factory 0 (.returns 1),
      .tasksDone 1, .closeDone 1] = some s ∧
    (∀ c, (s.phase c).isOver = true) ∧ s.closeReturned = true ∧ s.closeFailed = false ∧
      s.produced = 1 ∧ 0 ∉ s.closed ∧ s.activations = [(none, true)] := by
  refine ⟨_, rfl, fun c => ?_, rfl, rfl, rfl, List.not_mem_nil, rfl⟩
  match c with
  | 0 | 1 | _ + 2 => rfl

end

end BaseServer

end EasyNetwork
