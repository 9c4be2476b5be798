/-
  The low-level handler of a datagram server (`build_lowlevel_datagram_server_handler` in
  `servers/misc.py`).

  It is an adapter like that of `StreamHandler.lean`, without the hooks and with one generator of
  `handle(client)` only; its end is the end of the adapter.

  `datagram_handler_sound`: in every run, the generator is obtained, gives and is given something in
  turn, and is closed.
-/
import EasyNetwork.StreamHandler

namespace EasyNetwork

namespace DatagramHandler

open StreamHandler (Action Gen Input Outcome closes obtains)

variable {R X V : Type}

/-! ## The adapter -/

/-- Where the adapter is. -/
inductive Point (X : Type) where
  | notStarted
  /-- `__aenter__` of the initializer is awaited -/
  | initializing
  /-- `handle(client)` is called -/
  | handling
  /-- `anext`, `asend` or `athrow` of the generator is awaited -/
  | driving
  /-- the adapter has yielded what the generator has yielded -/
  | suspended
  /-- `aclose` of the generator is awaited -/
  | closing (outcome : Outcome X)
  /-- `__aexit__` of the initializer is awaited -/
  | exiting (outcome : Outcome X)
  | ended (outcome : Outcome X)
  deriving DecidableEq, Repr

structure State (R X V : Type) where
  point : Point X := .notStarted
  log : List (StreamHandler.Event R X V) := []
  deriving DecidableEq, Repr

/-- The generator of `handle(client)`. -/
def generator : Gen := ⟨0, .handle⟩

/-- The adapter goes on, with these events. -/
def State.goes (s : State R X V) (point : Point X) (events : List (StreamHandler.Event R X V)) :
    State R X V :=
  { point, log := s.log ++ events }

/-- One step of the adapter, or of what it awaits, or of the server. -/
def step (s : State R X V) (a : Action R X V) : Option (State R X V) :=
  match s.point, a with
  | .notStarted, .start => some (s.goes .initializing [])
  | .notStarted, .close => some (s.goes (.ended .generatorExit) [.ended])
  | .initializing, .initialized (.error exc) => some (s.goes (.ended (.raised exc)) [.ended])
  -- the client is `None`
  | .initializing, .initialized (.ok none) => some (s.goes (.exiting .returned) [])
  | .initializing, .initialized (.ok (some _)) => some (s.goes .handling [])
  | .handling, .handle none => some (s.goes .driving [.obtained generator, .anext generator])
  | .handling, .handle (some exc) => some (s.goes (.exiting (.raised exc)) [])
  | .driving, .answers (.yielded params) =>
    some (s.goes .suspended [.answered generator (.yielded params), .yields params])
  -- a generator that has ended does nothing when it is closed
  | .driving, .answers .stopped =>
    some (s.goes (.exiting .returned) [.answered generator .stopped, .aclosed generator])
  | .driving, .answers (.raised exc) =>
    some (s.goes (.exiting (.raised exc)) [.answered generator (.raised exc), .aclosed generator])
  | .suspended, .input input =>
    some (s.goes .driving [.received input, .forwarded generator input])
  | .suspended, .close => some (s.goes (.closing .generatorExit) [.aclosed generator])
  | .closing outcome, .closed exc => some (s.goes (.exiting (outcome.replace exc)) [])
  | .exiting outcome, .exited .propagates => some (s.goes (.ended outcome) [.ended])
  | .exiting _, .exited .suppresses => some (s.goes (.ended .returned) [.ended])
  | .exiting _, .exited (.raised exc) => some (s.goes (.ended (.raised exc)) [.ended])
  | _, _ => none

/-! ## Its history -/

/-- The generator yields, and is given what the server gives. -/
def round (r : V × Input R X) : List (StreamHandler.Event R X V) :=
  [.answered generator (.yielded r.1), .yields r.1, .received r.2, .forwarded generator r.2]

/-- The history of an adapter whose generator runs. -/
def started (rounds : List (V × Input R X)) : List (StreamHandler.Event R X V) :=
  .obtained generator :: .anext generator :: rounds.flatMap round

/-- How a generator ends that is closed next. -/
inductive Last : List (StreamHandler.Event R X V) → Prop
  | stopped : Last [.answered generator .stopped]
  | raised (exc : X) : Last [.answered generator (.raised exc)]
  /-- it has yielded, and the server closes the adapter -/
  | yielded (params : V) : Last [.answered generator (.yielded params), .yields params]

/-- The history of an adapter whose generator has been closed, or not obtained. -/
inductive Closed : List (StreamHandler.Event R X V) → Prop
  | none : Closed []
  | closed (rounds : List (V × Input R X)) {last : List (StreamHandler.Event R X V)} : Last last →
      Closed (started rounds ++ last ++ [.aclosed generator])

/-- The history of an adapter that is there. -/
def Point.History : Point X → List (StreamHandler.Event R X V) → Prop
  | notStarted, log | initializing, log | handling, log => log = []
  | driving, log => ∃ rounds, log = started rounds
  | suspended, log => ∃ rounds params,
    log = started rounds ++ [.answered generator (.yielded params), .yields params]
  | closing _, log | exiting _, log => Closed log
  | ended _, log => ∃ before, Closed before ∧ log = before ++ [.ended]

theorem started_concat (rounds : List (V × Input R X)) (r : V × Input R X) :
    started (rounds ++ [r]) = started rounds ++ round r := by
  unfold started
  rw [List.flatMap_append, List.flatMap_singleton]
  rfl

/-- **Step lemma.** -/
theorem history_step {s s' : State R X V} {a : Action R X V} (h : s.point.History s.log)
    (hs : step s a = some s') : s'.point.History s'.log := by
  -- the generator has not been obtained
  have hnil : s.log = [] → ∀ before, s.log ++ before = before := fun hlog before => by
    rw [hlog, List.nil_append]
  unfold step at hs
  split at hs <;> cases hs <;> rename_i hp <;> rw [hp] at h
  · exact hnil h []
  · exact ⟨[], .none, hnil h [.ended]⟩
  · exact ⟨[], .none, hnil h [.ended]⟩
  · show Closed (s.log ++ [])
    rw [hnil h]
    exact .none
  · exact hnil h []
  · exact ⟨[], hnil h _⟩
  · show Closed (s.log ++ [])
    rw [hnil h]
    exact .none
  · -- the generator yields
    next params =>
    obtain ⟨rounds, hlog⟩ := h
    exact ⟨rounds, params, congrArg (· ++ _) hlog⟩
  · obtain ⟨rounds, hlog⟩ := h
    show Closed (s.log ++ ([.answered generator .stopped] ++ [.aclosed generator]))
    rw [hlog, ← List.append_assoc]
    exact .closed rounds .stopped
  · next exc =>
    obtain ⟨rounds, hlog⟩ := h
    show Closed (s.log ++ ([.answered generator (.raised exc)] ++ [.aclosed generator]))
    rw [hlog, ← List.append_assoc]
    exact .closed rounds (.raised exc)
  · -- the server resumes the adapter
    next input =>
    obtain ⟨rounds, params, hlog⟩ := h
    refine ⟨rounds ++ [(params, input)], ?_⟩
    show s.log ++ _ = _
    rw [hlog, started_concat, List.append_assoc]
    rfl
  · -- the server closes it
    obtain ⟨rounds, params, hlog⟩ := h
    show Closed (s.log ++ [.aclosed generator])
    rw [hlog]
    exact .closed rounds (.yielded params)
  · show Closed (s.log ++ [])
    rw [List.append_nil]
    exact h
  all_goals exact ⟨s.log, h, rfl⟩

/-! ## What it says -/

/-- The generator is neither obtained nor closed, and the adapter does not end. -/
structure Plain (e : StreamHandler.Event R X V) : Prop where
  obtained : ∀ g, e.isObtained g = false
  aclosed : ∀ g, e.isAclosed g = false
  ended : e ≠ .ended

theorem plain_rounds {rounds : List (V × Input R X)} {e : StreamHandler.Event R X V}
    (h : e ∈ rounds.flatMap round) : Plain e := by
  obtain ⟨r, -, hr⟩ := List.mem_flatMap.1 h
  simp only [round, List.mem_cons, List.not_mem_nil, or_false] at hr
  rcases hr with rfl | rfl | rfl | rfl <;> exact ⟨fun _ => rfl, fun _ => rfl, by rintro ⟨⟩⟩

theorem Last.plain {last : List (StreamHandler.Event R X V)} (h : Last last)
    {e : StreamHandler.Event R X V} (he : e ∈ last) :
    Plain e ∧ e.forward = none ∧ e.input = none := by
  cases h <;> simp only [List.mem_cons, List.not_mem_nil, or_false] at he
  case yielded =>
    rcases he with rfl | rfl <;>
      exact ⟨⟨fun _ => rfl, fun _ => rfl, by rintro ⟨⟩⟩, rfl, rfl⟩
  all_goals
    subst he
    exact ⟨⟨fun _ => rfl, fun _ => rfl, by rintro ⟨⟩⟩, rfl, rfl⟩

/-- Each request and each exception that the server has given has been forwarded once, in order. -/
def Forwarded (log : List (StreamHandler.Event R X V)) : Prop :=
  log.filterMap StreamHandler.Event.forward = log.filterMap StreamHandler.Event.input

theorem Forwarded.append {log log' : List (StreamHandler.Event R X V)} (h : Forwarded log)
    (h' : Forwarded log') : Forwarded (log ++ log') := by
  unfold Forwarded at *
  rw [List.filterMap_append, List.filterMap_append, h, h']

theorem forwarded_started (rounds : List (V × Input R X)) : Forwarded (started rounds) := by
  have hrounds : Forwarded (rounds.flatMap round) := by
    induction rounds with
    | nil => rfl
    | cons r rounds ih =>
      have hround : Forwarded (round r) := rfl
      rw [List.flatMap_cons]
      exact hround.append ih
  have hobtained : Forwarded [.obtained generator, (.anext generator :
      StreamHandler.Event R X V)] := rfl
  exact hobtained.append hrounds

/-- What is known of a history in which the generator has been obtained. -/
structure Lives (log : List (StreamHandler.Event R X V)) (closed : Bool) : Prop where
  forwarded : Forwarded log
  obtains : ∀ g, obtains log g = if generator = g then 1 else 0
  closes : ∀ g, closes log g = if closed ∧ generator = g then 1 else 0
  ended : .ended ∉ log

/-- The generator runs, or is about to be closed. -/
theorem lives_started (rounds : List (V × Input R X)) {last : List (StreamHandler.Event R X V)}
    (h : ∀ e ∈ last, Plain e ∧ e.forward = none ∧ e.input = none) :
    Lives (started rounds ++ last) false := by
  have hplain : ∀ e ∈ rounds.flatMap round ++ last, Plain e := by
    intro e he
    rcases List.mem_append.1 he with he | he
    · exact plain_rounds he
    · exact (h e he).1
  have hlog : started rounds ++ last =
      .obtained generator :: .anext generator :: (rounds.flatMap round ++ last) := rfl
  constructor
  · refine (forwarded_started rounds).append ?_
    unfold Forwarded
    rw [List.filterMap_eq_nil_iff.2 fun e he => (h e he).2.1,
      List.filterMap_eq_nil_iff.2 fun e he => (h e he).2.2]
  · intro g
    have hnone : (rounds.flatMap round ++ last).countP (StreamHandler.Event.isObtained g) = 0 :=
      List.countP_eq_zero.2 fun e he => by rw [(hplain e he).obtained g]; simp
    rw [hlog, StreamHandler.obtains, List.countP_cons, List.countP_cons, hnone]
    simp [StreamHandler.Event.isObtained]
  · intro g
    have hnone : (rounds.flatMap round ++ last).countP (StreamHandler.Event.isAclosed g) = 0 :=
      List.countP_eq_zero.2 fun e he => by rw [(hplain e he).aclosed g]; simp
    rw [hlog, StreamHandler.closes, List.countP_cons, List.countP_cons, hnone]
    simp [StreamHandler.Event.isAclosed]
  · intro hmem
    rw [hlog] at hmem
    simp only [List.mem_cons, reduceCtorEq, false_or] at hmem
    exact (hplain _ hmem).ended rfl

theorem Lives.aclosed {log : List (StreamHandler.Event R X V)} (h : Lives log false) :
    Lives (log ++ [.aclosed generator]) true where
  forwarded := h.forwarded.append rfl
  obtains g := by
    rw [StreamHandler.obtains, List.countP_append]
    exact h.obtains g
  closes g := by
    rw [StreamHandler.closes, List.countP_append]
    have hbefore := h.closes g
    rw [StreamHandler.closes] at hbefore
    rw [hbefore]
    simp [StreamHandler.Event.isAclosed]
  ended hmem := by
    simp only [List.mem_append, List.mem_singleton, reduceCtorEq, or_false] at hmem
    exact h.ended hmem

/-- What is guaranteed in a state. -/
structure Sound (s : State R X V) : Prop where
  forwarded : Forwarded s.log
  /-- The generator is not obtained twice, or closed twice. -/
  once : ∀ g, closes s.log g ≤ obtains s.log g ∧ obtains s.log g ≤ 1
  /-- It is closed when the adapter has ended. -/
  closedEnd : .ended ∈ s.log → ∀ g, closes s.log g = obtains s.log g
  ended : .ended ∈ s.log ↔ ∃ outcome, s.point = .ended outcome
  /-- It gives and is given something in turn. -/
  history : s.point.History s.log

theorem Lives.le_one {log : List (StreamHandler.Event R X V)} {closed : Bool}
    (h : Lives log closed) (g : Gen) : StreamHandler.obtains log g ≤ 1 := by
  rw [h.obtains g]
  split_ifs <;> omega

theorem Lives.closes_le {log : List (StreamHandler.Event R X V)} {closed : Bool}
    (h : Lives log closed) (g : Gen) :
    StreamHandler.closes log g ≤ StreamHandler.obtains log g := by
  rw [h.closes g, h.obtains g]
  split_ifs with hboth hg hg
  · exact Nat.le_refl 1
  · exact absurd hboth.2 hg
  · exact Nat.zero_le 1
  · exact Nat.le_refl 0

theorem Closed.cases {log : List (StreamHandler.Event R X V)} (h : Closed log) :
    log = [] ∨ Lives log true := by
  cases h with
  | none => exact .inl rfl
  | closed rounds hlast => exact .inr (lives_started rounds fun _ => hlast.plain).aclosed

/-- What a history says, as long as the adapter has not ended. -/
theorem Point.History.cases {point : Point X} {log : List (StreamHandler.Event R X V)}
    (h : point.History log) (hp : ∀ outcome, point ≠ .ended outcome) :
    log = [] ∨ ∃ closed, Lives log closed := by
  cases point with
  | notStarted | initializing | handling => exact .inl h
  | driving =>
    obtain ⟨rounds, rfl⟩ := h
    refine .inr ⟨false, ?_⟩
    rw [← List.append_nil (started rounds)]
    exact lives_started rounds (by rintro _ ⟨⟩)
  | suspended =>
    obtain ⟨rounds, params, rfl⟩ := h
    exact .inr ⟨false, lives_started rounds fun _ => (Last.yielded params).plain⟩
  | closing outcome | exiting outcome =>
    exact (Closed.cases h).imp_right fun hlives => ⟨true, hlives⟩
  | ended outcome => exact absurd rfl (hp outcome)

theorem sound_of_open {s : State R X V} (h : s.point.History s.log)
    (hp : ∀ outcome, s.point ≠ .ended outcome) : Sound s := by
  have hfacts : .ended ∉ s.log ∧ Forwarded s.log ∧
      ∀ g, closes s.log g ≤ obtains s.log g ∧ obtains s.log g ≤ 1 := by
    rcases h.cases hp with hlog | ⟨closed, hlives⟩
    · rw [hlog]
      exact ⟨List.not_mem_nil, rfl, fun g => ⟨Nat.le_refl 0, Nat.zero_le 1⟩⟩
    · exact ⟨hlives.ended, hlives.forwarded, fun g => ⟨hlives.closes_le g, hlives.le_one g⟩⟩
  obtain ⟨hended, hforwarded, honce⟩ := hfacts
  exact ⟨hforwarded, honce, fun hc => absurd hc hended, ⟨fun hc => absurd hc hended,
    fun ⟨outcome, hc⟩ => absurd hc (hp outcome)⟩, h⟩

theorem sound_of_ended {s : State R X V} (h : s.point.History s.log) {outcome : Outcome X}
    (hp : s.point = .ended outcome) : Sound s := by
  have hhistory := h
  rw [hp] at h
  obtain ⟨before, hbefore, hlog⟩ := h
  have hobtains : ∀ g, obtains s.log g = obtains before g := fun g => by
    rw [hlog, obtains, List.countP_append]
    rfl
  have hcloses : ∀ g, closes s.log g = closes before g := fun g => by
    rw [hlog, closes, List.countP_append]
    rfl
  have hmem : .ended ∈ s.log := by
    rw [hlog]
    exact List.mem_append_right _ (List.mem_singleton_self _)
  have hfacts : Forwarded before ∧
      ∀ g, closes before g = obtains before g ∧ obtains before g ≤ 1 := by
    rcases hbefore.cases with rfl | hlives
    · exact ⟨rfl, fun g => ⟨rfl, Nat.zero_le 1⟩⟩
    · refine ⟨hlives.forwarded, fun g => ⟨?_, hlives.le_one g⟩⟩
      rw [hlives.closes g, hlives.obtains g]
      simp
  obtain ⟨hforwarded, hcounts⟩ := hfacts
  have hequal : ∀ g, closes s.log g = obtains s.log g := fun g => by
    rw [hcloses, hobtains]
    exact (hcounts g).1
  refine ⟨?_, fun g => ⟨Nat.le_of_eq (hequal g), hobtains g ▸ (hcounts g).2⟩, fun _ => hequal,
    ⟨fun _ => ⟨outcome, hp⟩, fun _ => hmem⟩, hhistory⟩
  rw [hlog]
  exact hforwarded.append rfl

/-- **In every run, one generator lives as the handler of a client does.** -/
theorem datagram_handler_sound {s : State R X V} {as : List (Action R X V)}
    (h : Trans.run step {} as = some s) : Sound s := by
  have hhistory : s.point.History s.log :=
    Trans.run_inv (I := fun s => s.point.History s.log)
      (fun _ _ _ hi hs => history_step hi hs) rfl h
  by_cases hended : ∃ outcome, s.point = .ended outcome
  · obtain ⟨outcome, hp⟩ := hended
    exact sound_of_ended hhistory hp
  · exact sound_of_open hhistory fun outcome hp => hended ⟨outcome, hp⟩

/-- A generator gets a request and an exception; the server closes the adapter. -/
theorem datagram_handler_sound_closed : Sound ({
    point := .ended .generatorExit
    log := [.obtained generator, .anext generator, .answered generator (.yielded 9), .yields 9,
      .received (.request 1), .forwarded generator (.request 1),
      .answered generator (.yielded 8), .yields 8, .received (.exception 2),
      .forwarded generator (.exception 2), .answered generator (.yielded 7), .yields 7,
      .aclosed generator, .ended] } : State ℕ ℕ ℕ) :=
  @datagram_handler_sound ℕ ℕ ℕ _ [.start, .initialized (.ok (some ())), .handle none,
    .answers (.yielded 9), .input (.request 1), .answers (.yielded 8), .input (.exception 2),
    .answers (.yielded 7), .close, .closed none, .exited .propagates] rfl

end DatagramHandler

end EasyNetwork
