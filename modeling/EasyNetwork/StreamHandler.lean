/-
  The low-level handler of a stream server (`build_lowlevel_stream_server_handler` in
  `servers/misc.py`).

  The adapter is an asynchronous generator.  It is resumed by the server when it has yielded, and by
  what it awaits otherwise: the generators and coroutines of the user, the client, and the context
  manager of the initializer may do anything.  A generator that has ended does nothing when it is
  closed.

  `handler_sound`: in every run, the history of the adapter is one of the allowed ones.
-/
import EasyNetwork.HandlerContract
import EasyNetwork.Lib.Trans

namespace EasyNetwork

namespace StreamHandler

variable {R X V : Type}

/-! ## The adapter -/

/-- How the adapter, or a part of it, is left. -/
inductive Outcome (X : Type) where
  | returned
  | raised (exc : X)
  /-- the server has closed the adapter -/
  | generatorExit
  deriving DecidableEq, Repr

/-- What `on_connection(client)` does when it is called. -/
inductive Hook (X : Type) where
  | generator
  | awaitable
  | raised (exc : X)
  deriving DecidableEq, Repr

/-- What the context manager of the initializer does with the outcome of its body. -/
inductive Exit (X : Type) where
  | propagates
  | suppresses
  | raised (exc : X)
  deriving DecidableEq, Repr

/-- Where the adapter is. -/
inductive Point (X : Type) where
  | notStarted
  /-- `__aenter__` of the initializer is awaited -/
  | initializing
  /-- `on_connection(client)` is called -/
  | onConnection
  /-- the coroutine of `on_connection` is awaited -/
  | connecting
  /-- `anext`, `asend` or `athrow` of the generator is awaited; `first` at the `anext` -/
  | driving (g : Gen) (first : Bool)
  /-- the adapter has yielded what the generator has yielded -/
  | suspended (g : Gen)
  /-- `aclose` of the generator is awaited -/
  | closing (g : Gen) (outcome : Outcome X)
  /-- `client_is_closing()` is called -/
  | looping
  /-- `new_request_handler(client)` is called -/
  | handling
  /-- `aclose_forcefully(client)` is awaited, in the `except` of the generator -/
  | closingClient (g : Gen)
  /-- `on_disconnection(client)` is awaited -/
  | disconnecting (outcome : Outcome X)
  /-- `__aexit__` of the initializer is awaited -/
  | exiting (outcome : Outcome X)
  | ended (outcome : Outcome X)
  deriving DecidableEq, Repr

structure State (R X V : Type) where
  point : Point X := .notStarted
  /-- the number of generators obtained -/
  obtained : ℕ := 0
  /-- `disconnect_client` is in the exit stack -/
  registered : Bool := false
  /-- `on_disconnection` has raised a `ConnectionError`, which has been logged -/
  warned : Bool := false
  log : List (Event R X V) := []
  deriving DecidableEq, Repr

inductive Action (R X V : Type) where
  /-- the server starts the adapter -/
  | start
  /-- `__aenter__` raises, or gives a client or `None` -/
  | initialized (result : Except X (Option Unit))
  | hook (hook : Hook X)
  /-- the coroutine of `on_connection` returns or raises -/
  | connected (exc : Option X)
  /-- the generator that runs yields, stops or raises -/
  | answers (answer : Answer X V)
  /-- the server resumes the adapter -/
  | input (input : Input R X)
  /-- the server closes the adapter -/
  | close
  /-- `aclose` of the generator returns or raises -/
  | closed (exc : Option X)
  | isClosing (result : Except X Bool)
  /-- `handle(client)` returns a generator or raises -/
  | handle (exc : Option X)
  /-- `aclose_forcefully` returns or raises -/
  | clientClosed (exc : Option X)
  /-- `on_disconnection` has raised a `ConnectionError` or not; it raises something else or not -/
  | disconnected (connectionError : Bool) (exc : Option X)
  | exited (exit : Exit X)
  deriving DecidableEq, Repr

/-- What an exception makes of an outcome. -/
def Outcome.replace (outcome : Outcome X) : Option X → Outcome X
  | none => outcome
  | some exc => .raised exc

namespace State
variable (s : State R X V)

def record (events : List (Event R X V)) : State R X V := { s with log := s.log ++ events }

/-- The exit stack is left. -/
def leave (outcome : Outcome X) : State R X V :=
  if s.registered then { s with point := .disconnecting outcome }.record [.onDisconnection]
  else { s with point := .exiting outcome }

/-- A generator is obtained; `anext` is called. -/
def obtain (source : Source) : State R X V :=
  let g : Gen := ⟨s.obtained, source⟩
  { s with point := .driving g true, obtained := s.obtained + 1 }.record [.obtained g, .anext g]

/-- `disconnect_client` is pushed on the exit stack; `while` is reached. -/
def connect : State R X V := { s with point := .looping, registered := true }

/-- The generator has stopped; the `finally` closes it, which does nothing. -/
def stop (g : Gen) : State R X V :=
  match g.source with
  | .onConnection => (s.record [.aclosed g]).connect
  | .handle => { s with point := .looping }.record [.aclosed g]

end State

/-- One step of the adapter. -/
def step (s : State R X V) (a : Action R X V) : Option (State R X V) :=
  match s.point, a with
  | .notStarted, .start => some { s with point := .initializing }
  | .notStarted, .close => some ({ s with point := .ended .generatorExit }.record [.ended])
  | .initializing, .initialized (.error exc) =>
    some ({ s with point := .ended (.raised exc) }.record [.ended])
  -- the client is `None`
  | .initializing, .initialized (.ok none) => some (s.leave .returned)
  | .initializing, .initialized (.ok (some _)) => some { s with point := .onConnection }
  | .onConnection, .hook .generator => some (s.obtain .onConnection)
  | .onConnection, .hook .awaitable => some { s with point := .connecting }
  | .onConnection, .hook (.raised exc) => some (s.leave (.raised exc))
  | .connecting, .connected none => some (s.record [.awaited none]).connect
  | .connecting, .connected (some exc) => some ((s.record [.awaited (some exc)]).leave (.raised exc))
  | .driving g _, .answers (.yielded params) =>
    some ({ s with point := .suspended g }.record [.answered g (.yielded params), .yields params])
  | .driving g first, .answers .stopped =>
    if g.source = .handle ∧ first then
      some ({ s with point := .closingClient g }.record [.answered g .stopped, .acloseForcefully])
    else some ((s.record [.answered g .stopped]).stop g)
  | .driving g _, .answers (.raised exc) =>
    some ((s.record [.answered g (.raised exc), .aclosed g]).leave (.raised exc))
  | .suspended g, .input input =>
    some ({ s with point := .driving g false }.record [.received input, .forwarded g input])
  | .suspended g, .close =>
    some ({ s with point := .closing g .generatorExit }.record [.aclosed g])
  | .closing _ outcome, .closed exc => some (s.leave (outcome.replace exc))
  | .looping, .isClosing (.error exc) => some (s.leave (.raised exc))
  | .looping, .isClosing (.ok true) => some (s.leave .returned)
  | .looping, .isClosing (.ok false) => some { s with point := .handling }
  | .handling, .handle none => some (s.obtain .handle)
  | .handling, .handle (some exc) => some (s.leave (.raised exc))
  | .closingClient g, .clientClosed exc =>
    some ((s.record [.aclosed g]).leave (Outcome.returned.replace exc))
  | .disconnecting outcome, .disconnected connectionError exc =>
    some { s with point := .exiting (outcome.replace exc), warned := s.warned || connectionError }
  | .exiting outcome, .exited .propagates =>
    some ({ s with point := .ended outcome }.record [.ended])
  | .exiting _, .exited .suppresses =>
    some ({ s with point := .ended .returned }.record [.ended])
  | .exiting _, .exited (.raised exc) =>
    some ({ s with point := .ended (.raised exc) }.record [.ended])
  | _, _ => none

/-! ## The history of the adapter is allowed -/

/-- The adapter has not begun to end. -/
structure Contract.Open (c : Contract R X V) : Prop where
  early : c.early = false
  disconnected : c.disconnected = false
  ended : c.ended = false

/-- The adapter may leave its exit stack. -/
structure Contract.Leaving (c : Contract R X V) : Prop where
  live : c.live = none
  disconnected : c.disconnected = false
  ended : c.ended = false
  early : c.early = true → c.clientClosed = true

/-- What is known of the history where the adapter is. -/
def Point.Rel : Point X → Contract R X V → Prop
  | notStarted, c | initializing, c | onConnection, c | connecting, c =>
    c.live = none ∧ c.Open ∧ c.connected = false
  | driving g first, c => c.live = some (g, .running first) ∧ c.Open ∧
    (c.connected = true ↔ g.source = .handle)
  | suspended g, c => c.live = some (g, .waiting) ∧ c.Open ∧
    (c.connected = true ↔ g.source = .handle)
  | closing _ _, c => c.live = none ∧ c.Open
  | looping, c | handling, c => c.live = none ∧ c.Open ∧ c.connected = true
  | closingClient g, c => c.live = some (g, .finished) ∧ c.disconnected = false ∧ c.ended = false ∧
    c.connected = true ∧ c.clientClosed = true
  | disconnecting _, c | exiting _, c => c.live = none ∧ c.ended = false ∧
    (c.connected = true → c.disconnected = true) ∧ (c.early = true → c.clientClosed = true)
  | ended _, c => c.live = none ∧ c.ended = true

/-- The history of the adapter is allowed. -/
structure Rel (s : State R X V) (c : Contract R X V) : Prop where
  accepted : c.Accepted s.log
  obtained : c.obtained = s.obtained
  registered : c.connected = s.registered
  point : s.point.Rel c

theorem Rel.init : Rel ({} : State R X V) {} where
  accepted := .nil
  obtained := rfl
  registered := rfl
  point := ⟨rfl, ⟨rfl, rfl, rfl⟩, rfl⟩

theorem Contract.Accepted.concat_two {log : List (Event R X V)} {c c' c'' : Contract R X V}
    {e e' : Event R X V} (h : c.Accepted log) (hs : Contract.Step c e c')
    (hs' : Contract.Step c' e' c'') : c''.Accepted (log ++ [e, e']) := by
  have hlog : log ++ [e, e'] = log ++ [e] ++ [e'] := by simp
  rw [hlog]
  exact (h.concat hs).concat hs'

section
variable {s s' : State R X V} {c : Contract R X V}

theorem Contract.Open.leaving (h : c.Open) (hlive : c.live = none) : c.Leaving where
  live := hlive
  disconnected := h.disconnected
  ended := h.ended
  early hearly := by rw [h.early] at hearly; cases hearly

/-- The exit stack is left: `on_disconnection` is called iff `on_connection` has finished normally. -/
theorem rel_leave (haccepted : c.Accepted s.log) (hobtained : c.obtained = s.obtained)
    (hregistered : c.connected = s.registered) (h : c.Leaving) (outcome : Outcome X) :
    ∃ c', Rel (s.leave outcome) c' := by
  cases hs : s.registered with
  | false =>
    have hnot : c.connected = true → c.disconnected = true := fun hc => by
      rw [hregistered, hs] at hc; cases hc
    refine ⟨c, ?_⟩
    simp only [State.leave, hs, Bool.false_eq_true, if_false]
    exact ⟨haccepted, hobtained, hregistered.trans hs, h.live, h.ended, hnot, h.early⟩
  | true =>
    have hstep := Contract.Step.onDisconnection h.live h.ended (hregistered.trans hs) h.disconnected
    refine ⟨{ c with disconnected := true }, ?_⟩
    simp only [State.leave, hs, if_true]
    exact ⟨haccepted.concat hstep, hobtained, hregistered.trans hs, h.live, h.ended, fun _ => rfl,
      h.early⟩

/-- The adapter has ended. -/
theorem rel_end (haccepted : c.Accepted s.log) (hobtained : c.obtained = s.obtained)
    (hregistered : c.connected = s.registered) (hlive : c.live = none) (hended : c.ended = false)
    (hdisconnected : c.connected = true → c.disconnected = true)
    (hearly : c.early = true → c.clientClosed = true) (outcome : Outcome X) :
    ∃ c', Rel ({ s with point := .ended outcome }.record [.ended]) c' :=
  ⟨_, haccepted.concat (.ended hlive hended hdisconnected hearly), hobtained, hregistered, hlive, rfl⟩

/-- A generator is obtained. -/
theorem rel_obtain (haccepted : c.Accepted s.log) (hobtained : c.obtained = s.obtained)
    (hregistered : c.connected = s.registered) (hlive : c.live = none) (h : c.Open)
    {source : Source} (hsource : c.connected = true ↔ source = .handle) :
    ∃ c', Rel (s.obtain source) c' := by
  have hstep := @Contract.Step.obtained R X V c source hlive h.early h.ended h.disconnected
  rw [hobtained] at hstep
  exact ⟨_, haccepted.concat_two hstep (.anext rfl), rfl, hregistered, rfl,
    ⟨h.early, h.disconnected, h.ended⟩, hsource⟩

/-- A generator has stopped, and not before its first `yield` if it comes from `handle`. -/
theorem rel_stop (haccepted : c.Accepted s.log) (hobtained : c.obtained = s.obtained)
    (hregistered : c.connected = s.registered) {g : Gen} {first : Bool}
    (hlive : c.live = some (g, .running first)) (h : c.Open)
    (hsource : c.connected = true ↔ g.source = .handle)
    (hfirst : ¬ (g.source = .handle ∧ first = true)) :
    ∃ c', Rel ((s.record [.answered g .stopped]).stop g) c' := by
  obtain ⟨c', haccepted', hobtained', hlive', hopen', hconnected'⟩ :
      ∃ c' : Contract R X V, c'.Accepted (s.log ++ [.answered g .stopped] ++ [.aclosed g]) ∧
        c'.obtained = c.obtained ∧ c'.live = none ∧ c'.Open ∧
        c'.connected = (c.connected || decide (g.source = .onConnection)) := by
    refine ⟨_, (haccepted.concat (.stopped hlive)).concat (.aclosed rfl (Or.inr rfl)), rfl, rfl,
      ⟨?_, h.disconnected, h.ended⟩, rfl⟩
    simpa [h.early] using hfirst
  refine ⟨c', ?_⟩
  cases hg : g.source with
  | onConnection =>
    have htrue : c'.connected = true := by simp [hconnected', hg]
    simp only [State.stop, hg]
    exact ⟨haccepted', hobtained'.trans hobtained, htrue, hlive', hopen', htrue⟩
  | handle =>
    have htrue : c'.connected = true := by simp [hconnected', hsource.2 hg]
    simp only [State.stop, hg]
    exact ⟨haccepted', hobtained'.trans hobtained, (htrue.trans (hsource.2 hg).symm).trans hregistered,
      hlive', hopen', htrue⟩

/-- **Every step keeps the history an allowed one.** -/
theorem Rel.step {a : Action R X V} (h : Rel s c) (hs : step s a = some s') : ∃ c', Rel s' c' := by
  obtain ⟨haccepted, hobtained, hregistered, hpoint⟩ := h
  unfold StreamHandler.step at hs
  split at hs <;> (try cases hs) <;> rename_i hp <;> rw [hp] at hpoint
  · -- the adapter starts
    exact ⟨c, haccepted, hobtained, hregistered, hpoint⟩
  · -- it is closed before it starts
    obtain ⟨hlive, hopen, hconnected⟩ := hpoint
    exact rel_end haccepted hobtained hregistered hlive hopen.ended (by simp [hconnected])
      (by simp [hopen.early]) _
  · -- the initializer raises
    obtain ⟨hlive, hopen, hconnected⟩ := hpoint
    exact rel_end haccepted hobtained hregistered hlive hopen.ended (by simp [hconnected])
      (by simp [hopen.early]) _
  · -- it gives no client
    exact rel_leave haccepted hobtained hregistered (hpoint.2.1.leaving hpoint.1) .returned
  · exact ⟨c, haccepted, hobtained, hregistered, hpoint⟩
  · -- `on_connection` is a generator
    obtain ⟨hlive, hopen, hconnected⟩ := hpoint
    exact rel_obtain haccepted hobtained hregistered hlive hopen (by simp [hconnected])
  · exact ⟨c, haccepted, hobtained, hregistered, hpoint⟩
  · exact rel_leave haccepted hobtained hregistered (hpoint.2.1.leaving hpoint.1) _
  · -- the coroutine of `on_connection` returns
    obtain ⟨hlive, hopen, hconnected⟩ := hpoint
    exact ⟨_, haccepted.concat (.awaited hlive hopen.ended hconnected), hobtained, rfl, hlive,
      ⟨hopen.early, hopen.disconnected, hopen.ended⟩, rfl⟩
  · -- it raises
    obtain ⟨hlive, hopen, hconnected⟩ := hpoint
    rename_i exc
    exact rel_leave (s := s.record [.awaited (some exc)])
      (haccepted.concat (.awaited hlive hopen.ended hconnected)) hobtained
      (hconnected.symm.trans hregistered)
      ⟨hlive, hopen.disconnected, hopen.ended, by simp [hopen.early]⟩ _
  · -- a generator yields
    obtain ⟨hlive, hopen, hsource⟩ := hpoint
    exact ⟨_, haccepted.concat_two (.yielded hlive) (.yields rfl), hobtained, hregistered, rfl,
      ⟨hopen.early, hopen.disconnected, hopen.ended⟩, hsource⟩
  · -- a generator stops
    obtain ⟨hlive, hopen, hsource⟩ := hpoint
    split_ifs at hs with hfirst
    · -- before its first `yield`
      cases hs
      have hstopped := haccepted.concat (.stopped hlive)
      have hclosed := hstopped.concat (.acloseForcefully (by simp [hfirst]) hopen.ended)
      rw [List.append_assoc] at hclosed
      have hconnected := hsource.2 hfirst.1
      exact ⟨_, hclosed, hobtained, by simpa [hfirst.1, State.record] using hregistered, rfl,
        hopen.disconnected, hopen.ended, by simp [hconnected], rfl⟩
    · cases hs
      exact rel_stop haccepted hobtained hregistered hlive hopen hsource hfirst
  · -- a generator raises
    obtain ⟨hlive, hopen, -⟩ := hpoint
    rename_i g _ exc
    exact rel_leave (s := s.record [.answered g (.raised exc), .aclosed g])
      (haccepted.concat_two (.raised hlive) (.aclosed rfl (Or.inr rfl))) hobtained hregistered
      ⟨rfl, hopen.disconnected, hopen.ended, by simp [hopen.early]⟩ _
  · -- the server gives something
    obtain ⟨hlive, hopen, hsource⟩ := hpoint
    exact ⟨_, haccepted.concat_two (.received hlive) (.forwarded rfl), hobtained, hregistered, rfl,
      ⟨hopen.early, hopen.disconnected, hopen.ended⟩, hsource⟩
  · -- the server closes the adapter
    obtain ⟨hlive, hopen, -⟩ := hpoint
    exact ⟨_, haccepted.concat (.aclosed hlive (Or.inl rfl)), hobtained, hregistered, rfl,
      hopen.early, hopen.disconnected, hopen.ended⟩
  · exact rel_leave haccepted hobtained hregistered (hpoint.2.leaving hpoint.1) _
  · exact rel_leave haccepted hobtained hregistered (hpoint.2.1.leaving hpoint.1) _
  · exact rel_leave haccepted hobtained hregistered (hpoint.2.1.leaving hpoint.1) _
  · exact ⟨c, haccepted, hobtained, hregistered, hpoint⟩
  · -- `handle` is a generator
    obtain ⟨hlive, hopen, hconnected⟩ := hpoint
    exact rel_obtain haccepted hobtained hregistered hlive hopen (by simp [hconnected])
  · exact rel_leave haccepted hobtained hregistered (hpoint.2.1.leaving hpoint.1) _
  · -- the client has been closed, after a generator that has ended early
    obtain ⟨hlive, hdisconnected, hended, -, hclosed⟩ := hpoint
    rename_i g _
    exact rel_leave (s := s.record [.aclosed g]) (haccepted.concat (.aclosed hlive (Or.inr rfl)))
      hobtained hregistered ⟨rfl, hdisconnected, hended, fun _ => hclosed⟩ _
  · exact ⟨c, haccepted, hobtained, hregistered, hpoint⟩
  all_goals
    -- the initializer has exited
    obtain ⟨hlive, hended, hdisconnected, hearly⟩ := hpoint
    exact rel_end haccepted hobtained hregistered hlive hended hdisconnected hearly _

/-! ## Runs of the adapter -/

/-- The adapter ends in `n` steps, whatever it waits for does. -/
def EndsIn : ℕ → State R X V → Prop
  | 0, s => ∃ outcome, s.point = .ended outcome
  | n + 1, s => (∃ a s', StreamHandler.step s a = some s') ∧
    ∀ a s', StreamHandler.step s a = some s' → EndsIn n s'

theorem endsIn_exiting {outcome : Outcome X} (h : s.point = .exiting outcome) : EndsIn 1 s := by
  refine ⟨⟨.exited .propagates, _, by simp only [StreamHandler.step, h]; rfl⟩, fun a s' hs => ?_⟩
  cases a with
  | exited exit =>
    cases exit <;> simp only [StreamHandler.step, h, Option.some.injEq] at hs <;> subst hs <;>
      exact ⟨_, rfl⟩
  | _ => simp [StreamHandler.step, h] at hs

theorem endsIn_disconnecting {outcome : Outcome X} (h : s.point = .disconnecting outcome) :
    EndsIn 2 s := by
  refine ⟨⟨.disconnected false none, _, by simp only [StreamHandler.step, h]; rfl⟩,
    fun a s' hs => ?_⟩
  cases a with
  | disconnected connectionError exc =>
    simp only [StreamHandler.step, h, Option.some.injEq] at hs
    subst hs
    exact endsIn_exiting rfl
  | _ => simp [StreamHandler.step, h] at hs

theorem endsIn_closingClient {g : Gen} (h : s.point = .closingClient g)
    (hregistered : s.registered = true) : EndsIn 3 s := by
  refine ⟨⟨.clientClosed none, _, by simp only [StreamHandler.step, h]; rfl⟩, fun a s' hs => ?_⟩
  cases a with
  | clientClosed exc =>
    simp only [StreamHandler.step, h, Option.some.injEq] at hs
    subst hs
    refine @endsIn_disconnecting R X V _ (Outcome.returned.replace exc) ?_
    simp only [State.leave, State.record, hregistered, if_true]
  | _ => simp [StreamHandler.step, h] at hs

/-- What is guaranteed in a state. -/
structure Sound (s : State R X V) : Prop where
  lifeCycle : LifeCycle s.log
  ended : .ended ∈ s.log ↔ ∃ outcome, s.point = .ended outcome
  /-- A generator of `handle` that ends before its first `yield` ends the adapter. -/
  earlyEnds : ∀ {l g l'}, g.source = .handle →
    s.log = l ++ [.obtained g, .anext g, .answered g .stopped] ++ l' → ∃ n ≤ 3, EndsIn n s

theorem Rel.givenInput (h : Rel s c) : c.givenInput = [] := by
  have hpoint := h.point
  unfold Contract.givenInput
  cases hp : s.point <;> rw [hp] at hpoint <;> rw [hpoint.1]

theorem Rel.ended (h : Rel s c) : .ended ∈ s.log ↔ ∃ outcome, s.point = .ended outcome := by
  have hpoint := h.point
  constructor
  · intro hmem
    have hended := (h.accepted.ended hmem).1
    have hnot : c.ended ≠ false := fun h => by rw [h] at hended; cases hended
    cases hp : s.point with
    | ended outcome => exact ⟨outcome, rfl⟩
    | closing => rw [hp] at hpoint; exact absurd hpoint.2.ended hnot
    | closingClient => rw [hp] at hpoint; exact absurd hpoint.2.2.1 hnot
    | disconnecting | exiting => rw [hp] at hpoint; exact absurd hpoint.2.1 hnot
    | notStarted | initializing | onConnection | connecting | driving | suspended | looping
      | handling => rw [hp] at hpoint; exact absurd hpoint.2.1.ended hnot
  · rintro ⟨outcome, hp⟩
    rw [hp] at hpoint
    exact h.accepted.mem_of_ended hpoint.2

theorem Rel.earlyEnds (h : Rel s c) (hearly : c.early = true) : ∃ n ≤ 3, EndsIn n s := by
  have hpoint := h.point
  have hregistered := h.registered
  cases hp : s.point with
  | ended outcome => exact ⟨0, by omega, outcome, hp⟩
  | exiting outcome => exact ⟨1, by omega, endsIn_exiting hp⟩
  | disconnecting outcome => exact ⟨2, by omega, endsIn_disconnecting hp⟩
  | closingClient g =>
    rw [hp] at hpoint
    rw [hpoint.2.2.2.1] at hregistered
    exact ⟨3, by omega, endsIn_closingClient hp hregistered.symm⟩
  | closing g outcome =>
    rw [hp] at hpoint
    have hnot := hpoint.2.early
    rw [hearly] at hnot
    cases hnot
  | notStarted | initializing | onConnection | connecting | driving | suspended | looping
    | handling =>
    rw [hp] at hpoint
    have hnot := hpoint.2.1.early
    rw [hearly] at hnot
    cases hnot

theorem Rel.sound (h : Rel s c) : Sound s where
  lifeCycle := h.accepted.lifeCycle h.givenInput
  ended := h.ended
  earlyEnds hsource hlog := by
    have haccepted := h.accepted
    rw [hlog] at haccepted
    exact h.earlyEnds (haccepted.after_early fun _ => Contract.Accepted.early_of_stopped hsource).1

/-- **In every run, the generators live as the contract says.** -/
theorem handler_sound {as : List (Action R X V)} (h : Trans.run StreamHandler.step {} as = some s) :
    Sound s := by
  obtain ⟨c, hc⟩ := Trans.run_inv (I := fun s => ∃ c, Rel s c)
    (fun _ _ _ ⟨_, hc⟩ hs => hc.step hs) ⟨_, Rel.init⟩ h
  exact hc.sound

end

/-- `on_connection` is a coroutine; a generator of `handle` gets a request and an exception, and stops;
    the next one ends before its first `yield`. -/
theorem handler_sound_early : Sound ({
    point := .ended .returned
    obtained := 2
    registered := true
    log := [.awaited none, .obtained ⟨0, .handle⟩, .anext ⟨0, .handle⟩,
      .answered ⟨0, .handle⟩ (.yielded 9), .yields 9, .received (.request 1),
      .forwarded ⟨0, .handle⟩ (.request 1), .answered ⟨0, .handle⟩ (.yielded 8), .yields 8,
      .received (.exception 2), .forwarded ⟨0, .handle⟩ (.exception 2),
      .answered ⟨0, .handle⟩ .stopped, .aclosed ⟨0, .handle⟩, .obtained ⟨1, .handle⟩,
      .anext ⟨1, .handle⟩, .answered ⟨1, .handle⟩ .stopped, .acloseForcefully,
      .aclosed ⟨1, .handle⟩, .onDisconnection, .ended] } : State ℕ ℕ ℕ) :=
  @handler_sound ℕ ℕ ℕ _ [.start, .initialized (.ok (some ())), .hook .awaitable, .connected none,
    .isClosing (.ok false), .handle none, .answers (.yielded 9), .input (.request 1),
    .answers (.yielded 8), .input (.exception 2), .answers .stopped, .isClosing (.ok false),
    .handle none, .answers .stopped, .clientClosed none, .disconnected false none,
    .exited .propagates] rfl

end StreamHandler

end EasyNetwork
