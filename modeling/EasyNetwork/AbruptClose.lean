/-
  What a cancelled `aclose()` leaves behind.

  A step changes the phase of one call (`Effect`), and every step keeps the relation between the
  lock, the guard and the transport (`Core`).  A cancellation that is thrown while `aclose()`
  waits for the lock closes the transport, unless another call is inside the guard: then
  `aclose_forcefully()` fails with `BusyResourceError`, or nothing is done because the other call
  is closing the transport.

  `propagates_iff`: over a whole run, the cancelled calls of `aclose()` propagate the
  cancellation and leave a closed transport iff none of them is cancelled in this window.
-/
import EasyNetwork.Closing

namespace EasyNetwork

namespace Closing

/-! ## What a step changes -/

namespace Phase

/-- The call has the lock. -/
def holdsLock : Phase → Bool
  | .connecting | .sending | .closing => true
  | _ => false

/-- The call is inside the send guard. -/
def inGuard : Phase → Bool
  | .sending | .closing | .forcing => true
  | _ => false

/-- The call is in the transport's `aclose()`. -/
def closes : Phase → Bool
  | .closing | .forcing => true
  | _ => false

def isEnded : Phase → Bool
  | .ended .. => true
  | _ => false

end Phase

/-- The call `n` is the one whose lock status has changed. -/
structure LockEffect (lock lock' : FairLock.State) (n : ℕ) : Prop where
  inv : FairLock.Inv lock'
  calls : lock.calls ≤ lock'.calls
  lt : n < lock'.calls
  others : ∀ m ≠ n, lock'.status m = lock.status m

/-- What the handler of a cancellation looks at: `is_closing()`, or `__closing`. -/
def seesClosing (side : Side) (s : State) : Bool :=
  match side with
  | .client => s.isClosing
  | .server => s.apiClosing

/-- `aclose()` is cancelled while it waits for the lock. -/
def Aborts (s : State) (a : Action) (n : ℕ) : Prop :=
  a = .throw n ∧ s.phase n = .waitLock .aclose

/-- The call `n` goes on to the phase `p`. -/
structure Effect (side : Side) (a : Action) (s s' : State) (n : ℕ) (p : Phase) : Prop where
  lock : LockEffect s.lock s'.lock n
  phase : s'.phase = Function.update s.phase n p
  notEnded : (s.phase n).isEnded = false
  holds : p.holdsLock = true → s'.lock.status n = .holding
  enters : p.inGuard = true → s.held = false ∨ (s.phase n).inGuard = true
  held : s'.held = (p.inGuard || (s.held && !(s.phase n).inGuard))
  isClosing : s'.isClosing = (s.isClosing || p.closes)
  closed : s'.closed = (s.closed || (s.phase n).closes)
  apiClosing : side = .server → s'.apiClosing = true ∨ s'.apiClosing = s.apiClosing ∧ p.closes = false
  /-- the flag of the server is set by a call that closes the transport, or cannot -/
  newlyClosing : side = .server → s'.apiClosing = true → s.apiClosing = true ∨ s'.isClosing = true ∨
    Aborts s a n ∧ s.held = true ∧ seesClosing side s = false
  /-- how a cancelled call of `aclose()` ends -/
  record : ∀ outcome closed, p = .ended .aclose true outcome closed →
    outcome = .cancelled ∧ closed = true ∨ Aborts s a n ∧ closed = s.closed ∧
      (outcome = .cancelled ∧ seesClosing side s = true ∨
        s.held = true ∧ seesClosing side s = false)

/-- The lock, the guard and the transport, whatever has been cancelled. -/
structure Core (side : Side) (s : State) : Prop where
  lock : FairLock.Inv s.lock
  fresh : ∀ n, s.lock.calls ≤ n → s.phase n = .notCalled
  holds : ∀ n, (s.phase n).holdsLock = true → s.lock.status n = .holding
  held_iff : s.held = true ↔ ∃ n, (s.phase n).inGuard = true
  unique : ∀ m n, (s.phase m).inGuard = true → (s.phase n).inGuard = true → m = n
  isClosing_of_closes : ∀ n, (s.phase n).closes = true → s.isClosing = true
  closed_or_closes : s.isClosing = true → s.closed = true ∨ ∃ n, (s.phase n).closes = true
  isClosing_of_closed : s.closed = true → s.isClosing = true
  apiClosing : side = .server → s.isClosing = true → s.apiClosing = true

section
variable {side : Side} {a : Action} {s s' : State} {n : ℕ} {p : Phase}

theorem Core.init : Core side {} := by
  constructor <;> simp [FairLock.Inv.init, Phase.holdsLock, Phase.inGuard, Phase.closes]

/-- **Step lemma.** -/
theorem Core.of_effect (h : Core side s) (e : Effect side a s s' n p) : Core side s' := by
  have hother : ∀ m, m ≠ n → s'.phase m = s.phase m := by
    intro m hm
    rw [e.phase, Function.update_of_ne hm]
  have hself : s'.phase n = p := by rw [e.phase, Function.update_self]
  constructor
  · exact e.lock.inv
  · intro m hm
    have hmn : m ≠ n := by
      rintro rfl
      exact absurd e.lock.lt (Nat.not_lt.2 hm)
    rw [hother m hmn]
    exact h.fresh m (e.lock.calls.trans hm)
  · intro m hm
    by_cases hmn : m = n
    · subst hmn
      exact e.holds (hself ▸ hm)
    · rw [e.lock.others m hmn]
      exact h.holds m (hother m hmn ▸ hm)
  · rw [e.held, Bool.or_eq_true, Bool.and_eq_true, Bool.not_eq_true']
    constructor
    · rintro (hp | ⟨hheld, hn⟩)
      · exact ⟨n, hself ▸ hp⟩
      · obtain ⟨m, hm⟩ := h.held_iff.1 hheld
        have hmn : m ≠ n := by
          rintro rfl
          rw [hn] at hm
          cases hm
        exact ⟨m, by rw [hother m hmn]; exact hm⟩
    · rintro ⟨m, hm⟩
      by_cases hmn : m = n
      · subst hmn
        exact .inl (hself ▸ hm)
      · rw [hother m hmn] at hm
        refine .inr ⟨h.held_iff.2 ⟨m, hm⟩, ?_⟩
        by_contra hn
        exact hmn (h.unique m n hm (by simpa using hn))
  · have hnone : ∀ m, m ≠ n → (s.phase m).inGuard = true → p.inGuard = true → False := by
      intro m hmn hm hp
      rcases e.enters hp with hfree | hn
      · rw [h.held_iff.2 ⟨m, hm⟩] at hfree
        cases hfree
      · exact hmn (h.unique m n hm hn)
    intro m k hm hk
    by_cases hmn : m = n <;> by_cases hkn : k = n
    · rw [hmn, hkn]
    · rw [hmn, hself] at hm
      rw [hother k hkn] at hk
      exact (hnone k hkn hk hm).elim
    · rw [hkn, hself] at hk
      rw [hother m hmn] at hm
      exact (hnone m hmn hm hk).elim
    · rw [hother m hmn] at hm
      rw [hother k hkn] at hk
      exact h.unique m k hm hk
  · intro m hm
    rw [e.isClosing, Bool.or_eq_true]
    by_cases hmn : m = n
    · exact .inr (by rw [← hself, ← hmn]; exact hm)
    · exact .inl (h.isClosing_of_closes m (hother m hmn ▸ hm))
  · intro hc
    rw [e.isClosing, Bool.or_eq_true] at hc
    rw [e.closed, Bool.or_eq_true]
    rcases hc with hc | hc
    · rcases h.closed_or_closes hc with hclosed | ⟨m, hm⟩
      · exact .inl (.inl hclosed)
      · by_cases hmn : m = n
        · exact .inl (.inr (hmn ▸ hm))
        · exact .inr ⟨m, by rw [hother m hmn]; exact hm⟩
    · exact .inr ⟨n, by rw [hself]; exact hc⟩
  · intro hc
    rw [e.closed, Bool.or_eq_true] at hc
    rw [e.isClosing, Bool.or_eq_true]
    rcases hc with hc | hc
    · exact .inl (h.isClosing_of_closed hc)
    · exact .inl (h.isClosing_of_closes n hc)
  · intro hside hc
    rcases e.apiClosing hside with hapi | ⟨hapi, hp⟩
    · exact hapi
    · rw [e.isClosing, hp, Bool.or_false] at hc
      rw [hapi]
      exact h.apiClosing hside hc

/-! ## Every step is such a change -/

namespace LockEffect
variable {lock lock' lock'' : FairLock.State}

theorem refl (h : FairLock.Inv lock) (hn : n < lock.calls) : LockEffect lock lock n :=
  ⟨h, le_rfl, hn, fun _ _ => rfl⟩

theorem trans (h1 : LockEffect lock lock' n) (h2 : LockEffect lock' lock'' n) :
    LockEffect lock lock'' n :=
  ⟨h2.inv, h1.calls.trans h2.calls, h2.lt, fun m hm => (h2.others m hm).trans (h1.others m hm)⟩

theorem of_step {a : FairLock.Action} (h : FairLock.Inv lock) (hn : n < lock'.calls)
    (ha : a.target lock.calls = n) (hstep : FairLock.step lock a = some lock') :
    LockEffect lock lock' n := by
  obtain ⟨hcalls, hothers⟩ := FairLock.step_others hstep
  rw [ha] at hothers
  exact ⟨h.step hstep, hcalls, hn, hothers⟩

theorem release (h : LockEffect lock lock' n) :
    LockEffect lock ((FairLock.step lock' (.release n)).getD lock') n := by
  rcases hstep : FairLock.step lock' (.release n) with _ | lock''
  · exact h
  · exact h.trans (of_step h.inv (h.lt.trans_le (FairLock.step_others hstep).1) rfl hstep)

theorem interrupt (h : FairLock.Inv lock) (hn : n < lock.calls)
    (hstep : interruptLock lock n = some lock') : LockEffect lock lock' n := by
  obtain ⟨lock₁, h1, h2⟩ := Trans.run_cons_iff.1 hstep
  obtain ⟨lock₂, h2, h3⟩ := Trans.run_cons_iff.1 h2
  cases h3
  have hn₁ := hn.trans_le (FairLock.step_others h1).1
  have e1 := of_step h hn₁ rfl h1
  exact e1.trans (of_step e1.inv (hn₁.trans_le (FairLock.step_others h2).1) rfl h2)

end LockEffect

/-- A call that is neither inside the guard nor at its end. -/
def Outside (p : Phase) : Prop := p.isEnded = false ∧ p.inGuard = false ∧ p.closes = false

/-- Another call inside the guard is closing the transport, when this one has the lock. -/
theorem Core.isClosing_of_holding {lock : FairLock.State} (h : Core side s)
    (hlock : LockEffect s.lock lock n) (hn : Outside (s.phase n))
    (hholding : lock.status n = .holding) (hheld : s.held = true) : s.isClosing = true := by
  obtain ⟨m, hm⟩ := h.held_iff.1 hheld
  have hmn : m ≠ n := by
    rintro rfl
    rw [hn.2.1] at hm
    cases hm
  refine h.isClosing_of_closes m ?_
  by_contra hcloses
  have hholds : (s.phase m).holdsLock = true := by
    rcases hp : s.phase m with _ | _ | _ | _ | _ | _ | _ <;>
      simp_all [Phase.inGuard, Phase.closes, Phase.holdsLock]
  have hother := h.holds m hholds
  rw [← hlock.others m hmn] at hother
  exact hmn (hlock.inv.holding_unique m n hother hholding)

/-- A call outside the guard ends. -/
theorem effect_finish {lock : FairLock.State} {api : Bool} {method : Method} {c : Bool}
    {outcome : Outcome} (hlock : LockEffect s.lock lock n) (hn : Outside (s.phase n))
    (hapi : side = .server → api = true ∨ api = s.apiClosing)
    (hnewly : side = .server → api = true → s.apiClosing = true ∨ s.isClosing = true ∨
      Aborts s a n ∧ s.held = true ∧ seesClosing side s = false)
    (hrecord : method = .aclose → c = true → Aborts s a n ∧
      (outcome = .cancelled ∧ seesClosing side s = true ∨
        s.held = true ∧ seesClosing side s = false)) :
    Effect side a s ({ s with lock, apiClosing := api }.finish n method c outcome) n
      (.ended method c outcome s.closed) where
  lock := hlock
  phase := rfl
  notEnded := hn.1
  holds h := absurd h Bool.false_ne_true
  enters h := absurd h Bool.false_ne_true
  held := by rw [hn.2.1]; exact (Bool.and_true _).symm
  isClosing := (Bool.or_false _).symm
  closed := by rw [hn.2.2]; exact (Bool.or_false _).symm
  apiClosing hs := (hapi hs).imp_right fun h => ⟨h, rfl⟩
  newlyClosing := hnewly
  record := by
    intro o k h
    cases h
    obtain ⟨h1, h2⟩ := hrecord rfl rfl
    exact .inr ⟨h1, rfl, h2⟩

/-- A call that is not a cancelled `aclose()` ends, and the flag of the server stays. -/
theorem effect_finish_same {lock : FairLock.State} {method : Method} {c : Bool} {outcome : Outcome}
    (hlock : LockEffect s.lock lock n) (hn : Outside (s.phase n))
    (hne : method = .aclose → c = false) :
    Effect side a s ({ s with lock }.finish n method c outcome) n
      (.ended method c outcome s.closed) :=
  effect_finish hlock hn (fun _ => .inr rfl) (fun _ h => .inl h) fun h1 h2 => by
    rw [hne h1] at h2
    cases h2

/-- A call outside the guard goes to the transport's `aclose()`. -/
theorem effect_enterAclose {lock : FairLock.State} {api : Bool} (hlock : LockEffect s.lock lock n)
    (hn : Outside (s.phase n)) (hheld : s.held = false) (hp : p.closes = true)
    (hholds : p.holdsLock = true → lock.status n = .holding) (hapi : side = .server → api = true) :
    Effect side a s ({ s with lock, apiClosing := api }.enterAclose n p) n p := by
  obtain ⟨h1, h2, h3⟩ := hn
  have hguard : p.inGuard = true := by cases p <;> simp_all [Phase.inGuard, Phase.closes]
  have hended : ∀ outcome closed, p ≠ .ended .aclose true outcome closed := by
    rintro _ _ rfl
    cases hp
  constructor <;>
    simp_all [State.enterAclose, State.setPhase]

theorem effect_enterSendPacket {lock : FairLock.State} (hlock : LockEffect s.lock lock n)
    (hn : Outside (s.phase n)) (hholding : lock.status n = .holding) :
    ∃ p, Effect side a s ({ s with lock }.enterSendPacket n) n p := by
  rw [State.enterSendPacket]
  split_ifs with hheld
  · exact ⟨_, effect_finish_same hlock.release hn fun _ => rfl⟩
  · refine ⟨.sending, ?_⟩
    obtain ⟨h1, h2, h3⟩ := hn
    constructor <;> simp_all [State.setPhase, Phase.inGuard, Phase.closes, Phase.holdsLock]

theorem effect_enter {lock : FairLock.State} {method : Method} (h : Core side s)
    (hlock : LockEffect s.lock lock n) (hn : Outside (s.phase n))
    (hholding : lock.status n = .holding) :
    ∃ p, Effect side a s ({ s with lock }.enter side n method) n p := by
  rcases method with _ | _ <;> rcases side with _ | _
  · refine ⟨.connecting, ?_⟩
    obtain ⟨h1, h2, h3⟩ := hn
    constructor <;> simp_all [State.enter, State.setPhase, Phase.inGuard, Phase.closes]
  · simp only [State.enter]
    split_ifs with hapi
    · exact ⟨_, effect_finish_same hlock.release hn fun _ => rfl⟩
    · exact effect_enterSendPacket hlock hn hholding
  · simp only [State.enter]
    split_ifs with hheld
    · exact ⟨_, effect_finish_same hlock.release hn fun _ => rfl⟩
    · exact ⟨_, effect_enterAclose hlock hn (by simpa using hheld) rfl (fun _ => hholding)
        (by intro hs; cases hs)⟩
  · simp only [State.enter]
    split_ifs with hheld
    · exact ⟨_, effect_finish hlock.release hn (fun _ => .inl rfl)
        (fun _ _ => .inr (.inl (h.isClosing_of_holding hlock hn hholding hheld)))
        fun _ hc => absurd hc Bool.false_ne_true⟩
    · exact ⟨_, effect_enterAclose hlock hn (by simpa using hheld) rfl (fun _ => hholding)
        fun _ => rfl⟩

theorem effect_abort {lock : FairLock.State} (hlock : LockEffect s.lock lock n)
    (hn : s.phase n = .waitLock .aclose) :
    ∃ p, Effect side (.throw n) s ({ s with lock }.abort side n) n p := by
  have hout : Outside (s.phase n) := by rw [hn]; exact ⟨rfl, rfl, rfl⟩
  rcases side with _ | _ <;> simp only [State.abort] <;> split_ifs with hclosing hheld
  · exact ⟨_, effect_finish hlock hout (fun _ => .inr rfl) (fun _ h => .inl h)
      fun _ _ => ⟨⟨rfl, hn⟩, .inl ⟨rfl, hclosing⟩⟩⟩
  · exact ⟨_, effect_finish hlock hout (fun _ => .inr rfl) (fun _ h => .inl h)
      fun _ _ => ⟨⟨rfl, hn⟩, .inr ⟨hheld, Bool.eq_false_iff.2 hclosing⟩⟩⟩
  · exact ⟨_, effect_enterAclose hlock hout (by simpa using hheld) rfl
      (fun h => absurd h Bool.false_ne_true) (by intro hs; cases hs)⟩
  · exact ⟨_, effect_finish hlock hout (fun _ => .inr rfl) (fun _ h => .inl h)
      fun _ _ => ⟨⟨rfl, hn⟩, .inl ⟨rfl, hclosing⟩⟩⟩
  · exact ⟨_, effect_finish hlock hout (fun _ => .inl rfl)
      (fun _ _ => .inr (.inr ⟨⟨rfl, hn⟩, hheld, Bool.eq_false_iff.2 hclosing⟩))
      fun _ _ => ⟨⟨rfl, hn⟩, .inr ⟨hheld, Bool.eq_false_iff.2 hclosing⟩⟩⟩
  · exact ⟨_, effect_enterAclose hlock hout (by simpa using hheld) rfl
      (fun h => absurd h Bool.false_ne_true) fun _ => rfl⟩

/-- A call inside the guard ends, and leaves the guard; the transport is closed if the call was
    in its `aclose()`. -/
theorem effect_leave {lock : FairLock.State} {closed : Bool} {method : Method} {c : Bool}
    {outcome : Outcome} (hlock : LockEffect s.lock lock n) (hn : (s.phase n).inGuard = true)
    (hclosed : closed = (s.closed || (s.phase n).closes))
    (hrecord : method = .aclose → c = true → outcome = .cancelled ∧ closed = true) :
    Effect side a s ({ s with lock, held := false, closed }.finish n method c outcome) n
      (.ended method c outcome closed) where
  lock := hlock
  phase := rfl
  notEnded := by cases h : s.phase n <;> simp_all [Phase.inGuard, Phase.isEnded]
  holds h := absurd h Bool.false_ne_true
  enters h := absurd h Bool.false_ne_true
  held := by rw [hn]; exact (Bool.and_false _).symm
  isClosing := (Bool.or_false _).symm
  closed := hclosed
  apiClosing _ := .inr ⟨rfl, rfl⟩
  newlyClosing _ h := .inl h
  record := by
    intro o k h
    cases h
    exact .inl (hrecord rfl rfl)

/-- **Every step moves one call on.** -/
theorem step_effect {a : Action} (h : Core side s) (hs : step side s a = some s') :
    ∃ n p, Effect side a s s' n p := by
  have hlt : ∀ {n p}, s.phase n = p → p ≠ .notCalled → n < s.lock.calls := by
    rintro n _ rfl hn
    by_contra hle
    exact hn (h.fresh n (Nat.not_lt.1 hle))
  have same : ∀ {n p}, s.phase n = p → p ≠ .notCalled → LockEffect s.lock s.lock n :=
    fun hp hne => .refl h.lock (hlt hp hne)
  cases a with
  | call method =>
    obtain ⟨lock, hlock, rfl⟩ := Option.map_eq_some_iff.1 hs
    have hcalls : s.lock.calls < lock.calls := by
      rw [FairLock.step_acquire hlock]
      exact Nat.lt_succ_self _
    have e : LockEffect s.lock lock s.lock.calls := .of_step h.lock hcalls rfl hlock
    have hn : Outside (s.phase s.lock.calls) := by
      rw [h.fresh _ le_rfl]
      exact ⟨rfl, rfl, rfl⟩
    refine ⟨s.lock.calls, ?_⟩
    dsimp only
    split_ifs with hholding
    · exact effect_enter h e hn hholding
    · refine ⟨.waitLock method, ?_⟩
      obtain ⟨h1, h2, h3⟩ := hn
      constructor <;>
        simp_all [State.setPhase, Phase.inGuard, Phase.closes, Phase.holdsLock]
  | wake n =>
    rw [step] at hs
    split at hs
    next method hphase =>
      obtain ⟨lock, hlock, rfl⟩ := Option.map_eq_some_iff.1 hs
      have hn := hlt hphase Phase.noConfusion
      have e : LockEffect s.lock lock n :=
        .of_step h.lock (hn.trans_le (FairLock.step_others hlock).1) rfl hlock
      refine ⟨n, effect_enter h e ?_ (FairLock.step_wake hlock)⟩
      rw [hphase]
      exact ⟨rfl, rfl, rfl⟩
    next => cases hs
  | done n raises =>
    refine ⟨n, ?_⟩
    rw [step] at hs
    split at hs
    next hphase =>
      have hn : Outside (s.phase n) := by rw [hphase]; exact ⟨rfl, rfl, rfl⟩
      have e := same hphase Phase.noConfusion
      split_ifs at hs <;> cases hs
      · exact ⟨_, effect_finish_same e.release hn (by intro hc; cases hc)⟩
      · exact effect_enterSendPacket e hn (h.holds n (by rw [hphase]; rfl))
    next hphase =>
      cases hs
      exact ⟨_, effect_leave (same hphase Phase.noConfusion).release (by rw [hphase]; rfl)
        (by rw [hphase]; exact (Bool.or_false _).symm) (by intro hc; cases hc)⟩
    next hphase =>
      cases hs
      exact ⟨_, effect_leave (same hphase Phase.noConfusion).release (by rw [hphase]; rfl)
        (by rw [hphase]; exact (Bool.or_true _).symm) (fun _ hc => absurd hc Bool.false_ne_true)⟩
    next hphase =>
      cases hs
      exact ⟨_, effect_leave (same hphase Phase.noConfusion) (by rw [hphase]; rfl)
        (by rw [hphase]; exact (Bool.or_true _).symm) fun _ _ => ⟨rfl, rfl⟩⟩
    next => cases hs
  | throw n =>
    refine ⟨n, ?_⟩
    rw [step] at hs
    split at hs
    next hphase =>
      obtain ⟨lock, hlock, rfl⟩ := Option.map_eq_some_iff.1 hs
      have hn : Outside (s.phase n) := by rw [hphase]; exact ⟨rfl, rfl, rfl⟩
      have e : LockEffect s.lock lock n :=
        .interrupt h.lock (hlt hphase Phase.noConfusion) hlock
      exact ⟨_, effect_finish_same e hn (by intro hc; cases hc)⟩
    next hphase =>
      obtain ⟨lock, hlock, rfl⟩ := Option.map_eq_some_iff.1 hs
      have hn : Outside (s.phase n) := by rw [hphase]; exact ⟨rfl, rfl, rfl⟩
      have e : LockEffect s.lock lock n :=
        .interrupt h.lock (hlt hphase Phase.noConfusion) hlock
      exact effect_abort e hphase
    next hphase =>
      cases hs
      have hn : Outside (s.phase n) := by rw [hphase]; exact ⟨rfl, rfl, rfl⟩
      exact ⟨_, effect_finish_same (same hphase Phase.noConfusion).release hn (by intro hc; cases hc)⟩
    next hphase =>
      cases hs
      exact ⟨_, effect_leave (same hphase Phase.noConfusion).release (by rw [hphase]; rfl)
        (by rw [hphase]; exact (Bool.or_false _).symm) (by intro hc; cases hc)⟩
    next hphase =>
      cases hs
      exact ⟨_, effect_leave (same hphase Phase.noConfusion).release (by rw [hphase]; rfl)
        (by rw [hphase]; exact (Bool.or_true _).symm) fun _ _ => ⟨rfl, rfl⟩⟩
    next hphase =>
      cases hs
      exact ⟨_, effect_leave (same hphase Phase.noConfusion) (by rw [hphase]; rfl)
        (by rw [hphase]; exact (Bool.or_true _).symm) fun _ _ => ⟨rfl, rfl⟩⟩
    next => cases hs

/-! ## The cancelled calls of `aclose()` -/

/-- The cancelled calls of `aclose()` that have ended have propagated the cancellation, and they
    have left a closed transport. -/
def Propagates (s : State) : Prop :=
  ∀ n outcome closed, s.phase n = .ended .aclose true outcome closed →
    outcome = .cancelled ∧ closed = true

/-- When `aclose()` is cancelled while it waits for the lock, the transport has been closed, or
    no call is inside the guard. -/
def Undisturbed (s : State) : Action → Prop
  | .throw n => s.phase n = .waitLock .aclose → s.closed = true ∨ s.held = false
  | _ => True

instance : ∀ s a, Decidable (Undisturbed s a)
  | s, .throw n =>
    inferInstanceAs (Decidable (s.phase n = .waitLock .aclose → s.closed = true ∨ s.held = false))
  | _, .call _ => .isTrue trivial
  | _, .wake _ => .isTrue trivial
  | _, .done _ _ => .isTrue trivial

/-- What holds while the calls are undisturbed. -/
structure Good (side : Side) (s : State) : Prop where
  core : Core side s
  isClosing : side = .server → s.apiClosing = true → s.isClosing = true
  propagates : Propagates s

theorem Good.init : Good side {} :=
  ⟨Core.init, fun _ h => absurd h Bool.false_ne_true, fun _ _ _ h => Phase.noConfusion h⟩

/-- A transport that is closed, or whose guard is free, is closed if a call sees it closing. -/
theorem Good.closed (h : Good side s) (hfree : s.closed = true ∨ s.held = false)
    (hsees : seesClosing side s = true) : s.closed = true := by
  rcases hfree with hclosed | hfree
  · exact hclosed
  · have hc : s.isClosing = true := by
      rcases side with _ | _
      · exact hsees
      · exact h.isClosing rfl hsees
    rcases h.core.closed_or_closes hc with hclosed | ⟨m, hm⟩
    · exact hclosed
    · have hguard : (s.phase m).inGuard = true := by
        rcases hp : s.phase m with _ | _ | _ | _ | _ | _ | _ <;>
          simp_all [Phase.inGuard, Phase.closes]
      rw [h.core.held_iff.2 ⟨m, hguard⟩] at hfree
      cases hfree

/-- A call that does not see the transport closing finds the guard free. -/
theorem Good.free (h : Good side s) (hfree : s.closed = true ∨ s.held = false)
    (hsees : seesClosing side s = false) : s.held = false := by
  rcases hfree with hclosed | hfree
  · have hc := h.core.isClosing_of_closed hclosed
    rcases side with _ | _
    · exact absurd hc (by rw [show s.isClosing = false from hsees]; exact Bool.false_ne_true)
    · exact absurd (h.core.apiClosing rfl hc)
        (by rw [show s.apiClosing = false from hsees]; exact Bool.false_ne_true)
  · exact hfree

/-- **Step lemma.** -/
theorem Good.step (h : Good side s) (hok : Undisturbed s a)
    (hs : Closing.step side s a = some s') : Good side s' := by
  obtain ⟨n, p, e⟩ := step_effect h.core hs
  have hfree : Aborts s a n → s.closed = true ∨ s.held = false := by
    rintro ⟨rfl, hphase⟩
    exact hok hphase
  refine ⟨h.core.of_effect e, fun hside hapi => ?_, fun m outcome closed hm => ?_⟩
  · rcases e.newlyClosing hside hapi with hapi | hc | ⟨habort, hheld, hsees⟩
    · rw [e.isClosing, h.isClosing hside hapi]
      rfl
    · exact hc
    · rw [h.free (hfree habort) hsees] at hheld
      cases hheld
  · rw [e.phase] at hm
    by_cases hmn : m = n
    · subst hmn
      rw [Function.update_self] at hm
      rcases e.record outcome closed hm with hr | ⟨habort, rfl, ⟨ho, hsees⟩ | ⟨hheld, hsees⟩⟩
      · exact hr
      · exact ⟨ho, h.closed (hfree habort) hsees⟩
      · rw [h.free (hfree habort) hsees] at hheld
        cases hheld
    · rw [Function.update_of_ne hmn] at hm
      exact h.propagates m outcome closed hm

/-- A disturbed call leaves a transport that is not closed, or ends with another exception. -/
theorem not_propagates_of_disturbed (h : Core side s) (hok : ¬ Undisturbed s a)
    (hs : step side s a = some s') : ¬ Propagates s' := by
  rcases a with _ | _ | _ | n
  · exact absurd trivial hok
  · exact absurd trivial hok
  · exact absurd trivial hok
  rw [Undisturbed, Classical.not_imp, not_or, Bool.not_eq_true, Bool.not_eq_false] at hok
  obtain ⟨hphase, hclosed, hheld⟩ := hok
  simp only [step, hphase] at hs
  obtain ⟨lock, hlock, rfl⟩ := Option.map_eq_some_iff.1 hs
  have hended : ∃ outcome, ({ s with lock }.abort side n).phase n =
      .ended .aclose true outcome false := by
    rcases side with _ | _ <;> simp only [State.abort, hheld, if_true] <;> split_ifs <;>
      simp [State.finish, State.setPhase, hclosed]
  obtain ⟨outcome, hended⟩ := hended
  intro hp
  exact absurd (hp n _ _ hended).2 Bool.false_ne_true

/-- **Step lemma.** How a call has ended does not change. -/
theorem not_propagates_step (h : Core side s) (hbad : ¬ Propagates s)
    (hs : step side s a = some s') : ¬ Propagates s' := by
  obtain ⟨n, p, e⟩ := step_effect h hs
  intro hp
  refine hbad fun m outcome closed hm => hp m outcome closed ?_
  have hmn : m ≠ n := by
    rintro rfl
    have := e.notEnded
    rw [hm] at this
    cases this
  rw [e.phase, Function.update_of_ne hmn]
  exact hm

/-- **The cancelled calls of `aclose()` propagate the cancellation and leave a closed transport iff
    none of them is cancelled while it waits for the lock and another call is inside the guard
    of a transport that is not closed.** -/
theorem propagates_iff (side : Side) {as : List Action} {s : State}
    (h : Trans.run (step side) {} as = some s) :
    Propagates s ↔ Trans.Meets (step side) Undisturbed {} as := by
  have hiff := Trans.meets_iff Undisturbed (Good side) (fun s => Core side s ∧ ¬ Propagates s)
    (fun s hg hb => hb.2 hg.propagates)
    (fun s a s' hg hok hs => hg.step hok hs)
    (fun s a s' hg hok hs => by
      obtain ⟨n, p, e⟩ := step_effect hg.core hs
      exact ⟨hg.core.of_effect e, not_propagates_of_disturbed hg.core hok hs⟩)
    (fun s a s' hb hs => by
      obtain ⟨n, p, e⟩ := step_effect hb.1 hs
      exact ⟨hb.1.of_effect e, not_propagates_step hb.1 hb.2 hs⟩) Good.init h
  have hcore : Core side s := Trans.run_inv (fun s a s' hc hs => by
    obtain ⟨n, p, e⟩ := step_effect hc hs
    exact hc.of_effect e) Core.init h
  rw [hiff, not_and, not_not]
  exact ⟨fun hp _ => hp, fun hp => hp hcore⟩

end

/-- `aclose()` is cancelled while a call of `send_packet()` has the lock but is not yet inside the
    guard. -/
theorem propagates_connecting : ∃ s, Trans.run (step .client) {}
    [.call .sendPacket, .call .aclose, .throw 1, .done 1 false] = some s ∧ Propagates s := by
  obtain ⟨s, hs⟩ : ∃ s, Trans.run (step .client) {}
      [.call .sendPacket, .call .aclose, .throw 1, .done 1 false] = some s := ⟨_, rfl⟩
  exact ⟨s, hs, (propagates_iff .client hs).2 (by decide)⟩

/-- `aclose()` is cancelled while a packet is being sent.  In the server, a second call that is
    cancelled does not close the transport either, even when the packet has been sent. -/
theorem not_propagates_sending :
    (∃ s, Trans.run (step .client) {} [.call .sendPacket, .done 0 false, .call .aclose, .throw 1] =
        some s ∧ s.phase 1 = .ended .aclose true .busyResource false ∧ s.isClosing = false ∧
      ¬ Propagates s) ∧
    (∃ s, Trans.run (step .server) {} [.call .sendPacket, .call .aclose, .throw 1,
        .call .sendPacket, .call .aclose, .done 0 false, .throw 3] = some s ∧
      s.phase 1 = .ended .aclose true .busyResource false ∧
      s.phase 3 = .ended .aclose true .cancelled false ∧ s.held = false ∧ s.isClosing = false ∧
      ¬ Propagates s) := by
  constructor
  · exact ⟨_, rfl, rfl, rfl, fun h => Outcome.noConfusion (h 1 _ _ rfl).1⟩
  · exact ⟨_, rfl, rfl, rfl, rfl, rfl, fun h => Outcome.noConfusion (h 1 _ _ rfl).1⟩

end Closing

end EasyNetwork
