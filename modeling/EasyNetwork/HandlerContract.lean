/-
  The life cycle of the request handler generators of a client.

  An adapter obtains asynchronous generators from `on_connection` and `handle` and forwards them what
  the server gives it.  Its history is the list of what it does and of what is done to it.

  * `Contract.Step`: the histories that are allowed, one event at a time.
  * `Contract.Accepted.lifeCycle`: what is true of every allowed history.
-/
import Mathlib.Data.List.Basic
import Mathlib.Data.List.Count
import Mathlib.Data.List.Induction

namespace EasyNetwork

namespace StreamHandler

/-- What the server does when the adapter has yielded: it sends a request, or throws an exception. -/
inductive Input (R X : Type) where
  | request (request : R)
  | exception (exc : X)
  deriving DecidableEq, Repr

inductive Source where
  | onConnection
  | handle
  deriving DecidableEq, Repr

/-- A generator. -/
structure Gen where
  number : ℕ
  source : Source
  deriving DecidableEq, Repr

/-- What a generator does when it runs; `params` is a `RecvParams` or `None`. -/
inductive Answer (X V : Type) where
  | yielded (params : V)
  | stopped
  | raised (exc : X)
  deriving DecidableEq, Repr

inductive Event (R X V : Type) where
  | obtained (g : Gen)
  | anext (g : Gen)
  | answered (g : Gen) (answer : Answer X V)
  /-- the adapter yields -/
  | yields (params : V)
  /-- the server resumes the adapter -/
  | received (input : Input R X)
  /-- `asend(request)` or `athrow(exc)` is called -/
  | forwarded (g : Gen) (input : Input R X)
  /-- `aclose()` is called -/
  | aclosed (g : Gen)
  /-- the coroutine of `on_connection` has returned or raised -/
  | awaited (exc : Option X)
  /-- `aclose_forcefully(client)` is called -/
  | acloseForcefully
  /-- `on_disconnection(client)` is called -/
  | onDisconnection
  /-- the adapter has ended -/
  | ended
  deriving DecidableEq, Repr

namespace Event
variable {R X V : Type}

def input : Event R X V → Option (Input R X)
  | received input => some input
  | _ => none

def forward : Event R X V → Option (Input R X)
  | forwarded _ input => some input
  | _ => none

def isObtained (g : Gen) : Event R X V → Bool
  | obtained g' => g' = g
  | _ => false

def isAclosed (g : Gen) : Event R X V → Bool
  | aclosed g' => g' = g
  | _ => false

def isOnDisconnection : Event R X V → Bool
  | onDisconnection => true
  | _ => false

end Event

section
variable {R X V : Type} (log : List (Event R X V))

/-- How often the generator has been obtained. -/
def obtains (g : Gen) : ℕ := log.countP (Event.isObtained g)

/-- How often the generator has been closed. -/
def closes (g : Gen) : ℕ := log.countP (Event.isAclosed g)

def disconnections : ℕ := log.countP Event.isOnDisconnection

/-- `on_connection` has finished normally. -/
def FinishedNormally : Prop :=
  .awaited none ∈ log ∨ ∃ g : Gen, g.source = .onConnection ∧ .answered g .stopped ∈ log

/-- What is true of the history of an adapter. -/
structure LifeCycle : Prop where
  /-- Each request and each exception is forwarded once, in order. -/
  forwarded : log.filterMap Event.forward = log.filterMap Event.input
  /-- It is forwarded to the generator whose parameters have just been yielded. -/
  toWaiting : ∀ {l g input l'}, log = l ++ .forwarded g input :: l' →
    ∃ l₀ params, l = l₀ ++ [.answered g (.yielded params), .yields params, .received input]
  /-- No generator is obtained twice, or closed twice. -/
  once : ∀ g, closes log g ≤ obtains log g ∧ obtains log g ≤ 1
  /-- The generators are closed when the next one is obtained. -/
  closedBefore : ∀ {l g l'}, log = l ++ .obtained g :: l' → ∀ g', closes l g' = obtains l g'
  /-- They are closed when the adapter has ended. -/
  closedEnd : .ended ∈ log → ∀ g, closes log g = obtains log g
  /-- `on_disconnection` is called once at most, after `on_connection` has finished normally. -/
  disconnection : disconnections log ≤ 1 ∧
    ∀ {l l'}, log = l ++ .onDisconnection :: l' → FinishedNormally l
  disconnectionEnd : .ended ∈ log → FinishedNormally log → disconnections log = 1
  /-- After a generator of `handle` that ends before its first `yield`, the adapter does not obtain
      another one, and yields no more; it ends when it has closed the client. -/
  early : ∀ {l g l'}, g.source = .handle →
    log = l ++ .obtained g :: .anext g :: .answered g .stopped :: l' →
      (∀ g', .obtained g' ∉ l') ∧ (∀ params, .yields params ∉ l') ∧
        (.ended ∈ log → .acloseForcefully ∈ l')

end

/-! ## The allowed histories -/

/-- What a generator is doing. -/
inductive Status (R X V : Type) where
  | fresh
  /-- `first` until it has yielded -/
  | running (first : Bool)
  | produced (params : V)
  | waiting
  | given (input : Input R X)
  | finished
  deriving DecidableEq, Repr

/-- What matters of a history. -/
structure Contract (R X V : Type) where
  /-- the generator that is not closed -/
  live : Option (Gen × Status R X V) := none
  /-- the number of generators obtained -/
  obtained : ℕ := 0
  /-- `on_connection` has finished normally -/
  connected : Bool := false
  disconnected : Bool := false
  /-- a generator of `handle` has ended before its first `yield` -/
  early : Bool := false
  clientClosed : Bool := false
  ended : Bool := false
  deriving DecidableEq, Repr

namespace Contract
variable {R X V : Type}

inductive Step : Contract R X V → Event R X V → Contract R X V → Prop
  | obtained {c : Contract R X V} {source} (hlive : c.live = none) (hearly : c.early = false)
      (hended : c.ended = false) (hdisconnected : c.disconnected = false) :
      Step c (.obtained ⟨c.obtained, source⟩)
        { c with live := some (⟨c.obtained, source⟩, .fresh), obtained := c.obtained + 1 }
  | anext {c : Contract R X V} {g} (hlive : c.live = some (g, .fresh)) :
      Step c (.anext g) { c with live := some (g, .running true) }
  | yielded {c : Contract R X V} {g first params} (hlive : c.live = some (g, .running first)) :
      Step c (.answered g (.yielded params)) { c with live := some (g, .produced params) }
  | stopped {c : Contract R X V} {g first} (hlive : c.live = some (g, .running first)) :
      Step c (.answered g .stopped) { c with
        live := some (g, .finished)
        connected := c.connected || g.source = .onConnection
        early := c.early || (g.source = .handle && first) }
  | raised {c : Contract R X V} {g first exc} (hlive : c.live = some (g, .running first)) :
      Step c (.answered g (.raised exc)) { c with live := some (g, .finished) }
  | yields {c : Contract R X V} {g params} (hlive : c.live = some (g, .produced params)) :
      Step c (.yields params) { c with live := some (g, .waiting) }
  | received {c : Contract R X V} {g input} (hlive : c.live = some (g, .waiting)) :
      Step c (.received input) { c with live := some (g, .given input) }
  | forwarded {c : Contract R X V} {g input} (hlive : c.live = some (g, .given input)) :
      Step c (.forwarded g input) { c with live := some (g, .running false) }
  | aclosed {c : Contract R X V} {g status} (hlive : c.live = some (g, status))
      (hstatus : status = .waiting ∨ status = .finished) : Step c (.aclosed g) { c with live := none }
  | awaited {c : Contract R X V} {exc : Option X} (hlive : c.live = none) (hended : c.ended = false)
      (hconnected : c.connected = false) :
      Step c (.awaited exc) { c with connected := exc.isNone }
  | acloseForcefully {c : Contract R X V} (hearly : c.early = true) (hended : c.ended = false) :
      Step c .acloseForcefully { c with clientClosed := true }
  | onDisconnection {c : Contract R X V} (hlive : c.live = none) (hended : c.ended = false)
      (hconnected : c.connected = true) (hdisconnected : c.disconnected = false) :
      Step c .onDisconnection { c with disconnected := true }
  | ended {c : Contract R X V} (hlive : c.live = none) (hended : c.ended = false)
      (hdisconnected : c.connected = true → c.disconnected = true)
      (hclosed : c.early = true → c.clientClosed = true) : Step c .ended { c with ended := true }

/-- The history is allowed, and `c` is what matters of it. -/
inductive Accepted : List (Event R X V) → Contract R X V → Prop
  | nil : Accepted [] {}
  | concat {log c e c'} : Accepted log c → Step c e c' → Accepted (log ++ [e]) c'

theorem Accepted.of_concat {l : List (Event R X V)} {e : Event R X V} {c : Contract R X V}
    (h : Accepted (l ++ [e]) c) : ∃ c₁, Accepted l c₁ ∧ Step c₁ e c := by
  generalize hlog : l ++ [e] = log at h
  cases h with
  | nil => simp at hlog
  | concat h hs =>
    obtain ⟨rfl, rfl⟩ := List.append_inj' hlog rfl |>.imp id List.singleton_inj.1
    exact ⟨_, h, hs⟩

/-- The history up to an event is allowed. -/
theorem Accepted.split {l l' : List (Event R X V)} {e : Event R X V} {c : Contract R X V}
    (h : Accepted (l ++ e :: l') c) : ∃ c₁ c₂, Accepted l c₁ ∧ Step c₁ e c₂ := by
  induction l' using List.reverseRecOn generalizing c with
  | nil =>
    obtain ⟨c₁, h, hs⟩ := h.of_concat
    exact ⟨c₁, c, h, hs⟩
  | append_singleton l' a ih =>
    rw [← List.cons_append, ← List.append_assoc] at h
    obtain ⟨c₁, h, -⟩ := h.of_concat
    exact ih h

/-! ## What is true of the allowed histories -/

/-- The input that is being forwarded. -/
def givenInput (c : Contract R X V) : List (Input R X) :=
  match c.live with
  | some (_, .given input) => [input]
  | _ => []

/-- How a history ends that leaves the generator with this status. -/
def Last (log : List (Event R X V)) (g : Gen) : Status R X V → Prop
  | .produced params => ∃ l, log = l ++ [.answered g (.yielded params)]
  | .waiting => ∃ l params, log = l ++ [.answered g (.yielded params), .yields params]
  | .given input => ∃ l params,
      log = l ++ [.answered g (.yielded params), .yields params, .received input]
  | _ => True

section
variable {log : List (Event R X V)} {c c' : Contract R X V} {e : Event R X V}

theorem Step.givenInput (h : Step c e c') :
    c.givenInput ++ e.input.toList = e.forward.toList ++ c'.givenInput := by
  cases h with
  | aclosed hlive hstatus =>
    rcases hstatus with rfl | rfl <;> simp [Contract.givenInput, hlive, Event.input, Event.forward]
  | acloseForcefully => simp [Contract.givenInput, Event.input, Event.forward]
  | obtained hlive | anext hlive | yielded hlive | stopped hlive | raised hlive | yields hlive
    | received hlive | forwarded hlive | awaited hlive | onDisconnection hlive | ended hlive =>
    simp [Contract.givenInput, hlive, Event.input, Event.forward]

/-- The generator is obtained and not closed. -/
def liveCount (c : Contract R X V) (g : Gen) : ℕ := if c.live.map Prod.fst = some g then 1 else 0

theorem Step.liveCount (h : Step c e c') (g : Gen) :
    (if e.isAclosed g = true then 1 else 0) + c'.liveCount g =
      (if e.isObtained g = true then 1 else 0) + c.liveCount g := by
  cases h with
  | acloseForcefully => simp [Contract.liveCount, Event.isAclosed, Event.isObtained]
  | obtained hlive | anext hlive | yielded hlive | stopped hlive | raised hlive | yields hlive
    | received hlive | forwarded hlive | aclosed hlive | awaited hlive | onDisconnection hlive
    | ended hlive =>
    simp [Contract.liveCount, hlive, Event.isAclosed, Event.isObtained]

/-- Once a generator has ended early, there is no other one. -/
theorem Step.early (h : Step c e c') (hearly : c.early = true)
    (hlive : ∀ g status, c.live = some (g, status) → status = .finished) :
    c'.early = true ∧ (∀ g status, c'.live = some (g, status) → status = .finished) ∧
      (∀ g, e ≠ .obtained g) ∧ ∀ params, e ≠ .yields params := by
  cases h <;> simp_all

namespace Accepted

theorem forwarded (h : Accepted log c) :
    log.filterMap Event.input = log.filterMap Event.forward ++ c.givenInput := by
  induction h with
  | nil => rfl
  | @concat log c e c' h hs ih =>
    have hlog : ∀ f : Event R X V → Option (Input R X), (log ++ [e]).filterMap f =
        log.filterMap f ++ (f e).toList := by
      intro f
      rw [List.filterMap_append]
      cases hf : f e <;> simp [hf]
    rw [hlog, hlog, ih, List.append_assoc, hs.givenInput, List.append_assoc]

theorem early (h : Accepted log c) (hearly : c.early = true) :
    ∀ g status, c.live = some (g, status) → status = .finished := by
  induction h with
  | nil => cases hearly
  | concat h hs ih => cases hs <;> simp_all

theorem last (h : Accepted log c) {g : Gen} {status : Status R X V}
    (hlive : c.live = some (g, status)) : Last log g status := by
  induction h generalizing g status with
  | nil => cases hlive
  | @concat log _ _ _ h hs ih =>
    cases hs with
    | yielded => cases hlive; exact ⟨log, rfl⟩
    | @yields _ params hproduced =>
      cases hlive
      obtain ⟨l, rfl⟩ := ih hproduced
      exact ⟨l, params, by simp⟩
    | @received _ input hwaiting =>
      cases hlive
      obtain ⟨l, params, rfl⟩ := ih hwaiting
      exact ⟨l, params, by simp⟩
    | obtained | anext | stopped | raised | forwarded => cases hlive; trivial
    | aclosed => cases hlive
    | acloseForcefully hearly =>
      obtain rfl := h.early hearly g status hlive
      trivial
    | awaited hnone | onDisconnection hnone | ended hnone => rw [hnone] at hlive; cases hlive

theorem closes (h : Accepted log c) (g : Gen) : closes log g + c.liveCount g = obtains log g := by
  induction h with
  | nil => rfl
  | @concat log c e c' h hs ih =>
    have hstep := hs.liveCount g
    simp only [StreamHandler.closes, obtains, List.countP_append, List.countP_singleton] at ih ⊢
    omega

theorem once (h : Accepted log c) (g : Gen) :
    obtains log g ≤ if g.number < c.obtained then 1 else 0 := by
  induction h with
  | nil => exact Nat.zero_le _
  | @concat log c e c' h hs ih =>
    simp only [obtains, List.countP_append, List.countP_singleton] at ih ⊢
    cases hs with
    | @obtained source =>
      by_cases hg : (⟨c.obtained, source⟩ : Gen) = g
      · subst hg
        rw [if_neg (Nat.lt_irrefl _)] at ih
        simp only [Event.isObtained, decide_true, if_true, Nat.lt_succ_self]
        omega
      · have hle : (if g.number < c.obtained then 1 else 0) ≤
            if g.number < c.obtained + 1 then 1 else 0 := by split_ifs <;> omega
        simpa [Event.isObtained, hg] using Nat.le_trans ih hle
    | _ => exact ih

theorem connected (h : Accepted log c) : c.connected = true ↔ FinishedNormally log := by
  induction h with
  | nil => simp [FinishedNormally]
  | @concat log c e c' h hs ih =>
    cases hs with
    | @stopped g first =>
      simp only [FinishedNormally, List.mem_append, List.mem_singleton, Bool.or_eq_true,
        decide_eq_true_eq, reduceCtorEq, or_false, Event.answered.injEq, and_true] at ih ⊢
      rw [ih]
      constructor
      · rintro ((h | ⟨g', h⟩) | h)
        · exact Or.inl h
        · exact Or.inr ⟨g', h.1, Or.inl h.2⟩
        · exact Or.inr ⟨g, h, Or.inr rfl⟩
      · rintro (h | ⟨g', hsource, h | rfl⟩)
        · exact Or.inl (Or.inl h)
        · exact Or.inl (Or.inr ⟨g', hsource, h⟩)
        · exact Or.inr hsource
    | @awaited exc _ _ hconnected =>
      have hnot : ¬ FinishedNormally log := fun h => by rw [ih.2 h] at hconnected; cases hconnected
      cases exc with
      | none => simp [FinishedNormally]
      | some exc => simpa [FinishedNormally] using hnot
    | _ => simpa [FinishedNormally] using ih

theorem disconnections (h : Accepted log c) :
    disconnections log = c.disconnected.toNat := by
  induction h with
  | nil => rfl
  | concat h hs ih =>
    simp only [StreamHandler.disconnections, List.countP_append] at ih ⊢
    cases hs <;> simp_all [Event.isOnDisconnection]

theorem clientClosed (h : Accepted log c) : c.clientClosed = true ↔ .acloseForcefully ∈ log := by
  induction h with
  | nil => simp
  | concat h hs ih => cases hs <;> simp_all

theorem mem_of_ended (h : Accepted log c) (hended : c.ended = true) : .ended ∈ log := by
  induction h with
  | nil => cases hended
  | concat h hs ih => cases hs <;> simp_all

/-- The client is closed only after a generator has ended early. -/
theorem early_of_clientClosed (h : Accepted log c) (hclosed : c.clientClosed = true) :
    c.early = true := by
  induction h with
  | nil => cases hclosed
  | concat h hs ih => cases hs <;> simp_all

theorem ended (h : Accepted log c) (hended : .ended ∈ log) : c.ended = true ∧ c.live = none ∧
    (c.connected = true → c.disconnected = true) ∧ (c.early = true → c.clientClosed = true) := by
  induction h with
  | nil => cases hended
  | concat h hs ih => cases hs <;> simp_all

/-- After a generator has ended early, no generator is obtained and nothing is yielded. -/
theorem after_early {l l' : List (Event R X V)} {c : Contract R X V}
    (hl : ∀ c₁, Accepted l c₁ → c₁.early = true) (h : Accepted (l ++ l') c) :
    c.early = true ∧ (∀ g, .obtained g ∉ l') ∧ ∀ params, .yields params ∉ l' := by
  induction l' using List.reverseRecOn generalizing c with
  | nil =>
    rw [List.append_nil] at h
    exact ⟨hl c h, fun g => List.not_mem_nil, fun params => List.not_mem_nil⟩
  | append_singleton l' a ih =>
    rw [← List.append_assoc] at h
    obtain ⟨c₁, h₁, hs⟩ := h.of_concat
    obtain ⟨hearly, hobtained, hyields⟩ := ih h₁
    obtain ⟨hearly', -, hnotObtained, hnotYields⟩ := hs.early hearly (h₁.early hearly)
    refine ⟨hearly', fun g hg => ?_, fun params hp => ?_⟩
    · rcases List.mem_append.1 hg with hg | hg
      · exact hobtained g hg
      · exact hnotObtained g (List.mem_singleton.1 hg).symm
    · rcases List.mem_append.1 hp with hp | hp
      · exact hyields params hp
      · exact hnotYields params (List.mem_singleton.1 hp).symm

/-- A generator of `handle` that ends before its first `yield`. -/
theorem early_of_stopped {l : List (Event R X V)} {g : Gen} {c : Contract R X V}
    (hsource : g.source = .handle)
    (h : Accepted (l ++ [.obtained g, .anext g, .answered g .stopped]) c) : c.early = true := by
  have hl : l ++ [.obtained g, .anext g, .answered g .stopped] =
      l ++ [.obtained g] ++ [.anext g] ++ [.answered g .stopped] := by simp
  rw [hl] at h
  obtain ⟨c₁, h₁, hstopped⟩ := h.of_concat
  obtain ⟨c₀, -, hanext⟩ := h₁.of_concat
  cases hanext with
  | anext =>
    cases hstopped with
    | stopped hlive =>
      cases hlive
      simp [hsource]

/-- **What is true of every allowed history.** -/
theorem lifeCycle (h : Accepted log c) (hgiven : c.givenInput = []) : LifeCycle log where
  forwarded := by rw [h.forwarded, hgiven, List.append_nil]
  toWaiting := by
    rintro l g input l' rfl
    obtain ⟨c₁, c₂, h₁, hs⟩ := h.split
    cases hs with
    | forwarded hlive => exact h₁.last hlive
  once g := by
    have hcloses := h.closes g
    have honce := h.once g
    refine ⟨by omega, Nat.le_trans honce ?_⟩
    split_ifs <;> omega
  closedBefore := by
    rintro l g l' rfl g'
    obtain ⟨c₁, c₂, h₁, hs⟩ := h.split
    cases hs with
    | obtained hlive => simpa [Contract.liveCount, hlive] using h₁.closes g'
  closedEnd hended g := by
    simpa [Contract.liveCount, (h.ended hended).2.1] using h.closes g
  disconnection := by
    refine ⟨?_, ?_⟩
    · rw [h.disconnections]
      exact Bool.toNat_le _
    · rintro l l' rfl
      obtain ⟨c₁, c₂, h₁, hs⟩ := h.split
      cases hs with
      | onDisconnection _ _ hconnected => exact h₁.connected.1 hconnected
  disconnectionEnd hended hfinished := by
    rw [h.disconnections, (h.ended hended).2.2.1 (h.connected.2 hfinished)]
    rfl
  early := by
    rintro l g l' hsource rfl
    obtain ⟨c₁, c₂, h₁, hs⟩ := h.split
    have hl : l ++ .obtained g :: .anext g :: .answered g .stopped :: l' =
        l ++ [.obtained g, .anext g, .answered g .stopped] ++ l' := by simp
    rw [hl] at h ⊢
    obtain ⟨hearly, hobtained, hyields⟩ := h.after_early fun c₁ => early_of_stopped hsource
    refine ⟨hobtained, hyields, fun hended => ?_⟩
    have hclosed := h.clientClosed.1 ((h.ended hended).2.2.2 hearly)
    rcases List.mem_append.1 hclosed with hmem | hmem
    · -- the client was not closed when the generator was obtained
      have hbefore : .acloseForcefully ∈ l := by simpa using hmem
      cases hs with
      | obtained _ hnot =>
        rw [h₁.early_of_clientClosed (h₁.clientClosed.2 hbefore)] at hnot
        cases hnot
    · exact hmem

end Accepted
end

end Contract

end StreamHandler

end EasyNetwork
