/-
  Reading in several calls at once on a TLS transport.

  A call whose SSL method has asked for more ciphertext waits for the send lock and for the receive
  lock, and then reads from the transport without calling the SSL method again.  It is stale when
  another call has fed the read BIO meanwhile.

  `wakeUp_iff`: no call reads from the transport when it is stale iff, whenever a call feeds the read
  BIO, no other one is on its way to read.
-/
import EasyNetwork.Tls

namespace EasyNetwork

namespace Tls

/-- The call has been asked for more ciphertext, and has not called `recv_into()` yet. -/
def Phase.pending : Phase → Bool
  | .waitSend _ .wantRead | .sending _ .wantRead _ | .waitRecv _ => true
  | _ => false

/-- When a call feeds the read BIO, no other call is on its way to read from the transport. -/
def Safe (s : State) : Action → Prop
  | .received call data _ => data = [] ∨ ∀ c < s.calls, c ≠ call → (s.phase c).pending = false
  | _ => True

instance (s : State) : ∀ a, Decidable (Safe s a)
  | .received call data _ => inferInstanceAs (Decidable
      (data = [] ∨ ∀ c < s.calls, c ≠ call → (s.phase c).pending = false))
  | .call _ _ _ | .grantSend _ | .sendDone _ _ | .grantRecv _ | .fail _ => .isTrue trivial

section
variable {s s' : State} {call c : ℕ} {method : Method} {why : Why}

/-- A call leaves the others alone. -/
structure Frame (s s' : State) (call : ℕ) : Prop where
  phase : ∀ c ≠ call, s'.phase c = s.phase c
  stale : ∀ c ≠ call, s'.stale c = s.stale c
  calls : s'.calls = s.calls

theorem Frame.trans {s'' : State} (h : Frame s s' call) (h' : Frame s' s'' call) :
    Frame s s'' call where
  phase c hc := (h'.phase c hc).trans (h.phase c hc)
  stale c hc := (h'.stale c hc).trans (h.stale c hc)
  calls := h'.calls.trans h.calls

theorem frame_setPhase (phase : Phase) : Frame s (s.setPhase call phase) call where
  phase _ hc := Function.update_of_ne hc _ _
  stale _ _ := rfl
  calls := rfl

/-- The call that runs does not read from the transport. -/
structure Stays (s s' : State) (call : ℕ) : Prop extends Frame s s' call where
  notPending : (s'.phase call).pending = false
  reads : s'.reads = s.reads

/-- The call that runs is on its way to read from the transport, or does so. -/
structure Reads (s s' : State) (call : ℕ) : Prop extends Frame s s' call where
  own : s'.stale call = s.stale call
  reads : (s'.phase call).pending = true ∧ s'.reads = s.reads ∨
    (s'.phase call).pending = false ∧ s'.reads = s.reads ++ [s.stale call]

theorem stays_setPhase {phase : Phase} (h : phase.pending = false) :
    Stays s (s.setPhase call phase) call where
  toFrame := frame_setPhase phase
  notPending := by
    show (Function.update s.phase call phase call).pending = false
    rw [Function.update_self]
    exact h
  reads := rfl

theorem reads_setPhase {phase : Phase} (h : phase.pending = true) :
    Reads s (s.setPhase call phase) call where
  toFrame := frame_setPhase phase
  own := rfl
  reads := by
    refine .inl ⟨?_, rfl⟩
    show (Function.update s.phase call phase call).pending = true
    rw [Function.update_self]
    exact h

theorem reads_readinto (s : State) (call : ℕ) (method : Method) :
    Reads s (s.readinto call method) call where
  toFrame := ⟨fun _ hc => Function.update_of_ne hc _ _, fun _ _ => rfl, rfl⟩
  own := rfl
  reads := by
    refine .inr ⟨?_, rfl⟩
    show (Function.update s.phase call _ call).pending = false
    rw [Function.update_self]
    rfl

/-- The locks, the BIO and the backlog do not matter. -/
theorem Reads.of_eq {s₀ : State} (h : Reads s₀ s' call) (hphase : s₀.phase = s.phase)
    (hstale : s₀.stale = s.stale) (hcalls : s₀.calls = s.calls) (hreads : s₀.reads = s.reads) :
    Reads s s' call := by
  obtain ⟨⟨h1, h2, h3⟩, h4, h5⟩ := h
  rw [hphase] at h1
  rw [hstale] at h2 h4
  rw [hreads, hstale] at h5
  exact ⟨⟨h1, h2, h3.trans hcalls⟩, h4, h5⟩

theorem Stays.of_eq {s₀ : State} (h : Stays s₀ s' call) (hphase : s₀.phase = s.phase)
    (hstale : s₀.stale = s.stale) (hcalls : s₀.calls = s.calls) (hreads : s₀.reads = s.reads) :
    Stays s s' call := by
  obtain ⟨⟨h1, h2, h3⟩, h4, h5⟩ := h
  rw [hphase] at h1
  rw [hstale] at h2
  exact ⟨⟨h1, h2, h3.trans hcalls⟩, h4, h5.trans hreads⟩

theorem reads_acquireRecv (s : State) (call : ℕ) (method : Method) :
    Reads s (s.acquireRecv call method) call := by
  unfold State.acquireRecv
  split
  · exact (reads_readinto _ call method).of_eq rfl rfl rfl rfl
  · exact (reads_setPhase rfl).of_eq rfl rfl rfl rfl

theorem reads_flush (s : State) (call : ℕ) (method : Method) :
    Reads s (s.flush call method .wantRead) call := by
  unfold State.flush
  split
  · exact (reads_setPhase rfl).of_eq rfl rfl rfl rfl
  · exact (reads_acquireRecv _ call method).of_eq rfl rfl rfl rfl

theorem stays_flush (s : State) (call : ℕ) (method : Method) (hwhy : why ≠ .wantRead) :
    Stays s (s.flush call method why) call := by
  unfold State.flush
  split_ifs with hsend
  · refine (stays_setPhase ?_).of_eq rfl rfl rfl rfl
    cases why with
    | wantRead => exact absurd rfl hwhy
    | wantWrite | done => rfl
  · cases why with
    | wantRead => exact absurd rfl hwhy
    | wantWrite => exact absurd (.inl rfl) hsend
    | done => exact (stays_setPhase rfl).of_eq rfl rfl rfl rfl

theorem reads_acquireSend (s : State) (call : ℕ) (method : Method) :
    Reads s (s.acquireSend call method .wantRead) call := by
  unfold State.acquireSend
  split
  · exact (reads_flush _ call method).of_eq rfl rfl rfl rfl
  · exact (reads_setPhase rfl).of_eq rfl rfl rfl rfl

theorem stays_acquireSend (s : State) (call : ℕ) (method : Method) (hwhy : why ≠ .wantRead) :
    Stays s (s.acquireSend call method why) call := by
  unfold State.acquireSend
  split
  · exact (stays_flush _ call method hwhy).of_eq rfl rfl rfl rfl
  · refine (stays_setPhase ?_).of_eq rfl rfl rfl rfl
    cases why with
    | wantRead => exact absurd rfl hwhy
    | wantWrite | done => rfl

/-- A call that has called its SSL method is not stale. -/
structure Retries (s s' : State) (call : ℕ) : Prop extends Frame s s' call where
  own : (s'.phase call).pending = true → s'.stale call = false
  reads : s'.reads = s.reads ∨ s'.reads = s.reads ++ [false]

theorem sslCall_frame {ssl : Ssl} {outcome : SslOutcome}
    (hs : s.sslCall method ssl = some (outcome, s')) :
    s'.phase = s.phase ∧ s'.stale = s.stale ∧ s'.calls = s.calls ∧ s'.reads = s.reads := by
  rcases ssl with ⟨outcome', cipher⟩ | writes
  · cases method <;> cases hs <;> exact ⟨rfl, rfl, rfl, rfl⟩
  · cases method with
    | writeAll =>
      obtain ⟨r, -, heq⟩ := Option.map_eq_some_iff.1 hs
      cases heq
      exact ⟨rfl, rfl, rfl, rfl⟩
    | read | unwrap => cases hs

theorem retries_retrySslMethod {ssl : Ssl} (hs : s.retrySslMethod call method ssl = some s') :
    Retries s s' call := by
  obtain ⟨⟨outcome, s₁⟩, hssl, rfl⟩ := Option.map_eq_some_iff.1 hs
  obtain ⟨hphase, hstale, hcalls, hreads⟩ := sslCall_frame hssl
  dsimp only
  -- the staleness of the call is reset before it goes on
  have hreset : Frame s { s₁ with
      mark := Function.update s₁.mark call s₁.cipher.length
      stale := Function.update s₁.stale call false } call :=
    ⟨fun c _ => congrFun hphase c,
      fun c hc => (Function.update_of_ne hc _ _).trans (congrFun hstale c), hcalls⟩
  cases outcome with
  | wantRead =>
    obtain ⟨hframe, hown, hcases⟩ := reads_acquireSend { s₁ with
      mark := Function.update s₁.mark call s₁.cipher.length
      stale := Function.update s₁.stale call false } call method
    have hfalse : Function.update s₁.stale call false call = false := Function.update_self _ _ _
    refine ⟨hreset.trans hframe, fun _ => hown.trans hfalse, ?_⟩
    rcases hcases with ⟨-, hr⟩ | ⟨-, hr⟩
    · exact .inl (hr.trans hreads)
    · right
      dsimp only at hr
      rw [hr, hreads, hfalse]
  | wantWrite =>
    obtain ⟨hframe, hnot, hr⟩ := stays_acquireSend { s₁ with
      mark := Function.update s₁.mark call s₁.cipher.length
      stale := Function.update s₁.stale call false } call method
      (show Why.wantWrite ≠ .wantRead by intro hc; cases hc)
    exact ⟨hreset.trans hframe, fun hp => (by cases hnot.symm.trans hp), .inl (hr.trans hreads)⟩
  | done =>
    obtain ⟨hframe, hnot, hr⟩ := stays_acquireSend { s₁ with
      mark := Function.update s₁.mark call s₁.cipher.length
      stale := Function.update s₁.stale call false } call method
      (show Why.done ≠ .wantRead by intro hc; cases hc)
    exact ⟨hreset.trans hframe, fun hp => (by cases hnot.symm.trans hp), .inl (hr.trans hreads)⟩
  | error =>
    have hstays : Stays { s₁ with
        mark := Function.update s₁.mark call s₁.cipher.length
        stale := Function.update s₁.stale call false } _ call :=
      stays_setPhase (show Phase.raised.pending = false from rfl)
    obtain ⟨hframe, hnot, hr⟩ := hstays
    exact ⟨hreset.trans hframe, fun hp => (by cases hnot.symm.trans hp), .inl (hr.trans hreads)⟩

/-! ## The runs -/

/-- No call is stale on its way to read, and none has been when it read. -/
structure Fresh (s : State) : Prop where
  stale : ∀ c, (s.phase c).pending = true → s.stale c = false
  reads : true ∉ s.reads
  notCalled : ∀ c, s.calls ≤ c → s.phase c = .notCalled

/-- A call is stale on its way to read, or has been when it read. -/
def Late (s : State) : Prop := true ∈ s.reads ∨ ∃ c, (s.phase c).pending = true ∧ s.stale c = true

theorem Fresh.init : Fresh {} where
  stale _ hc := by cases hc
  reads := List.not_mem_nil
  notCalled _ _ := rfl

theorem Fresh.frame (h : Fresh s) (hframe : Frame s s' call) (hcall : call < s.calls)
    (hown : (s'.phase call).pending = true → s'.stale call = false) (hreads : true ∉ s'.reads) :
    Fresh s' where
  stale c hp := by
    by_cases hc : c = call
    · rw [hc] at hp ⊢
      exact hown hp
    · rw [hframe.stale c hc]
      rw [hframe.phase c hc] at hp
      exact h.stale c hp
  reads := hreads
  notCalled c hc := by
    rw [hframe.calls] at hc
    rw [hframe.phase c (hcall.trans_le hc).ne']
    exact h.notCalled c hc

theorem Fresh.retries (h : Fresh s) (hr : Retries s s' call) (hcall : call < s.calls) :
    Fresh s' := by
  refine h.frame hr.toFrame hcall hr.own ?_
  rcases hr.reads with hreads | hreads <;> rw [hreads]
  · exact h.reads
  · intro hmem
    rcases List.mem_append.1 hmem with hmem | hmem
    · exact h.reads hmem
    · cases List.mem_singleton.1 hmem

theorem Fresh.stays (h : Fresh s) (hr : Stays s s' call) (hcall : call < s.calls) : Fresh s' :=
  h.frame hr.toFrame hcall (fun hp => by cases hr.notPending.symm.trans hp)
    (hr.reads.symm ▸ h.reads)

/-- A call that is on its way to read goes on. -/
theorem Fresh.goesOn (h : Fresh s) (hr : Reads s s' call) (hcall : call < s.calls)
    (hp : (s.phase call).pending = true) : Fresh s' := by
  have hfalse := h.stale call hp
  refine h.frame hr.toFrame hcall (fun _ => hr.own.trans hfalse) ?_
  rcases hr.reads with ⟨-, hreads⟩ | ⟨-, hreads⟩ <;> rw [hreads]
  · exact h.reads
  · rw [hfalse]
    intro hmem
    rcases List.mem_append.1 hmem with hmem | hmem
    · exact h.reads hmem
    · cases List.mem_singleton.1 hmem

theorem Late.frame (h : Late s) (hframe : Frame s s' call) (hreads : ∃ l, s'.reads = s.reads ++ l)
    (hown : (s.phase call).pending = true → s.stale call = true →
      true ∈ s'.reads ∨ (s'.phase call).pending = true ∧ s'.stale call = true) : Late s' := by
  rcases h with hr | ⟨c, hp, hs⟩
  · obtain ⟨l, hl⟩ := hreads
    exact .inl (hl ▸ List.mem_append_left l hr)
  · by_cases hc : c = call
    · rw [hc] at hp hs
      exact (hown hp hs).imp id fun ⟨h1, h2⟩ => ⟨call, h1, h2⟩
    · right
      refine ⟨c, ?_, ?_⟩
      · rw [hframe.phase c hc]
        exact hp
      · rw [hframe.stale c hc]
        exact hs

/-- A call that was not on its way to read moves on. -/
theorem Late.retries (h : Late s) (hr : Retries s s' call)
    (hp : (s.phase call).pending = false) : Late s' := by
  refine h.frame hr.toFrame ?_ fun hc => by cases hp.symm.trans hc
  rcases hr.reads with hreads | hreads
  · exact ⟨[], hreads.trans (List.append_nil _).symm⟩
  · exact ⟨_, hreads⟩

theorem Late.stays (h : Late s) (hr : Stays s s' call)
    (hp : (s.phase call).pending = false) : Late s' :=
  h.frame hr.toFrame ⟨[], hr.reads.trans (List.append_nil _).symm⟩
    fun hc => by cases hp.symm.trans hc

theorem Late.goesOn (h : Late s) (hr : Reads s s' call) : Late s' := by
  rcases hr.reads with ⟨hp', hreads⟩ | ⟨-, hreads⟩
  · exact h.frame hr.toFrame ⟨[], hreads.trans (List.append_nil _).symm⟩
      fun _ hs => .inr ⟨hp', hr.own.trans hs⟩
  · refine h.frame hr.toFrame ⟨_, hreads⟩ fun _ hs => .inl ?_
    rw [hreads, hs]
    exact List.mem_append_right _ (List.mem_singleton_self _)

theorem Fresh.call_lt (h : Fresh s) (hcall : s.phase call ≠ .notCalled) : call < s.calls := by
  rw [← not_le]
  intro hle
  exact hcall (h.notCalled call hle)

theorem Fresh.enter (h : Fresh s) (data : List Bytes) : Fresh (s.enter method data) where
  stale := h.stale
  reads := h.reads
  notCalled c hc := h.notCalled c ((Nat.le_succ _).trans hc)

theorem Fresh.feed (h : Fresh s) {data : Bytes}
    (hok : data = [] ∨ ∀ c < s.calls, c ≠ call → (s.phase c).pending = false) :
    Fresh (s.feed call data) where
  stale c hp := by
    show (s.stale c || decide (c ≠ call ∧ data ≠ [])) = false
    rw [h.stale c hp, Bool.false_or, decide_eq_false_iff_not]
    rintro ⟨hc, hdata⟩
    have hlt : c < s.calls := h.call_lt (by intro hn; rw [State.feed, hn] at hp; cases hp)
    cases (hok.resolve_left hdata c hlt hc).symm.trans hp
  reads := h.reads
  notCalled := h.notCalled

theorem Late.feed (h : Late s) (call : ℕ) (data : Bytes) : Late (s.feed call data) := by
  refine h.imp id fun ⟨c, hp, hs⟩ => ⟨c, hp, ?_⟩
  show (s.stale c || decide (c ≠ call ∧ data ≠ [])) = true
  rw [hs, Bool.true_or]

/-- What a step does: a new call is made, or a call goes on. -/
inductive Kind (s s' : State) : Action → Prop
  | refused (data : List Bytes) (ssl : Ssl) : Stays { s with calls := s.calls + 1 } s' s.calls →
      Kind s s' (.call .writeAll data ssl)
  | entered (method : Method) (data data' : List Bytes) (ssl : Ssl) :
      Retries (s.enter method data') s' s.calls → Kind s s' (.call method data ssl)
  | reads (a : Action) (call : ℕ) : (s.phase call).pending = true → Reads s s' call →
      (∀ c data ssl, a ≠ .received c data ssl) → Kind s s' a
  | stays (a : Action) (call : ℕ) : (s.phase call).pending = false → s.phase call ≠ .notCalled →
      Stays s s' call → (∀ c data ssl, a ≠ .received c data ssl) → Kind s s' a
  | retries (call : ℕ) (ssl : Ssl) : (s.phase call).pending = false → s.phase call ≠ .notCalled →
      Retries s s' call → Kind s s' (.sendDone call ssl)
  | fed (call : ℕ) (data : Bytes) (ssl : Ssl) : (s.phase call).pending = false →
      s.phase call ≠ .notCalled → Retries (s.feed call data) s' call →
      Kind s s' (.received call data ssl)
  | failed (call : ℕ) : s.phase call ≠ .notCalled → Stays s s' call → Kind s s' (.fail call)

theorem Retries.of_eq {s₀ : State} (h : Retries s₀ s' call) (hphase : s₀.phase = s.phase)
    (hstale : s₀.stale = s.stale) (hcalls : s₀.calls = s.calls) (hreads : s₀.reads = s.reads) :
    Retries s s' call := by
  obtain ⟨⟨h1, h2, h3⟩, h4, h5⟩ := h
  rw [hphase] at h1
  rw [hstale] at h2
  rw [hreads] at h5
  exact ⟨⟨h1, h2, h3.trans hcalls⟩, h4, h5⟩

theorem step_kind {a : Action} (hs : step s a = some s') : Kind s s' a := by
  cases a with
  | call method data ssl =>
    simp only [step] at hs
    split_ifs at hs
    · cases method with
      | writeAll =>
        cases hs
        exact .refused _ _ (stays_setPhase rfl)
      | read => exact .entered _ _ _ _ (retries_retrySslMethod hs)
      | unwrap => cases hs
    · cases method <;> exact .entered _ _ _ _ (retries_retrySslMethod hs)
  | grantSend call =>
    simp only [step] at hs
    split at hs
    next method why hcall =>
      obtain ⟨sendLock, -, rfl⟩ := Option.map_eq_some_iff.1 hs
      have hne : s.phase call ≠ .notCalled := by
        rw [hcall]
        intro hc
        cases hc
      cases why with
      | wantRead =>
        exact .reads _ call (by rw [hcall]; rfl) ((reads_flush _ call method).of_eq rfl rfl rfl rfl)
          fun _ _ _ hc => by cases hc
      | wantWrite | done =>
        exact .stays _ call (by rw [hcall]; rfl) hne
          ((stays_flush _ call method (by intro hc; cases hc)).of_eq rfl rfl rfl rfl)
          fun _ _ _ hc => by cases hc
    next => cases hs
  | sendDone call ssl =>
    simp only [step] at hs
    split at hs
    next method why data hcall =>
      have hne : s.phase call ≠ .notCalled := by
        rw [hcall]
        intro hc
        cases hc
      cases why with
      | wantRead =>
        cases hs
        exact .reads _ call (by rw [hcall]; rfl)
          ((reads_acquireRecv _ call method).of_eq rfl rfl rfl rfl)
          fun _ _ _ hc => by cases hc
      | wantWrite =>
        exact .retries _ _ (by rw [hcall]; rfl) hne
          ((retries_retrySslMethod hs).of_eq rfl rfl rfl rfl)
      | done =>
        cases hs
        exact .stays _ call (by rw [hcall]; rfl) hne ((stays_setPhase rfl).of_eq rfl rfl rfl rfl)
          fun _ _ _ hc => by cases hc
    next => cases hs
  | grantRecv call =>
    simp only [step] at hs
    split at hs
    next method hcall =>
      obtain ⟨recvLock, -, rfl⟩ := Option.map_eq_some_iff.1 hs
      exact .reads _ call (by rw [hcall]; rfl) ((reads_readinto _ call method).of_eq rfl rfl rfl rfl)
        fun _ _ _ hc => by cases hc
    next => cases hs
  | received call data ssl =>
    simp only [step] at hs
    split at hs
    next method hcall =>
      refine .fed _ _ _ (by rw [hcall]; rfl) (by rw [hcall]; intro hc; cases hc) ?_
      exact (retries_retrySslMethod hs).of_eq rfl rfl rfl rfl
    next => cases hs
  | fail call =>
    simp only [step] at hs
    split at hs <;> cases hs
    all_goals
      next hcall =>
        exact .failed _ (by rw [hcall]; intro hc; cases hc)
          ((stays_setPhase rfl).of_eq rfl rfl rfl rfl)

theorem fresh_step {a : Action} (h : Fresh s) (hok : Safe s a) (hs : step s a = some s') :
    Fresh s' := by
  cases step_kind hs with
  | refused data ssl hk =>
    have hfresh : Fresh { s with calls := s.calls + 1 } :=
      ⟨h.stale, h.reads, fun c hc => h.notCalled c ((Nat.le_succ _).trans hc)⟩
    exact hfresh.stays hk (Nat.lt_succ_self _)
  | entered _ data data' ssl hk => exact (h.enter _).retries hk (Nat.lt_succ_self _)
  | reads _ call hp hk =>
    exact h.goesOn hk (h.call_lt (by intro hc; rw [hc] at hp; cases hp)) hp
  | stays _ call _ hne hk => exact h.stays hk (h.call_lt hne)
  | retries call ssl _ hne hk => exact h.retries hk (h.call_lt hne)
  | fed call data ssl _ hne hk => exact (h.feed hok).retries hk (h.call_lt hne)
  | failed call hne hk => exact h.stays hk (h.call_lt hne)

theorem late_step {a : Action} (h : Late s) (hnew : s.phase s.calls = .notCalled)
    (hfails : a.fails = false) (hs : step s a = some s') : Late s' := by
  have hp : (s.phase s.calls).pending = false := by
    rw [hnew]
    rfl
  cases step_kind hs with
  | refused data ssl hk =>
    have hlate : Late { s with calls := s.calls + 1 } := h
    exact hlate.stays hk hp
  | entered method data data' ssl hk =>
    have hlate : Late (s.enter method data') := h
    exact hlate.retries hk hp
  | reads _ call _ hk => exact h.goesOn hk
  | stays _ call hp hne hk => exact h.stays hk hp
  | retries call ssl hp hne hk => exact h.retries hk hp
  | fed call data ssl hp hne hk => exact (h.feed _ _).retries hk hp
  | failed => cases hfails

theorem late_of_not_safe {a : Action} (hbad : ¬ Safe s a) (hs : step s a = some s') : Late s' := by
  cases step_kind hs with
  | fed call data ssl hp hne hk =>
    rw [Safe, not_or, not_forall] at hbad
    obtain ⟨hdata, c, hc⟩ := hbad
    simp only [Classical.not_imp, Bool.not_eq_false] at hc
    obtain ⟨-, hc, hpending⟩ := hc
    have hlate : Late (s.feed call data) := by
      refine .inr ⟨c, hpending, ?_⟩
      show (s.stale c || decide (c ≠ call ∧ data ≠ [])) = true
      rw [decide_eq_true ⟨hc, hdata⟩, Bool.or_true]
    exact hlate.retries hk hp
  | reads _ call _ _ ha | stays _ call _ _ _ ha =>
    cases a with
    | received c data ssl => exact absurd rfl (ha c data ssl)
    | _ => exact absurd trivial hbad
  | _ => exact absurd trivial hbad

/-- The calls that have not been made yet. -/
theorem notCalled_step {a : Action} (h : ∀ c, s.calls ≤ c → s.phase c = .notCalled)
    (hs : step s a = some s') : ∀ c, s'.calls ≤ c → s'.phase c = .notCalled := by
  have hold : ∀ call, s.phase call ≠ .notCalled → Frame s s' call →
      ∀ c, s'.calls ≤ c → s'.phase c = .notCalled := by
    intro call hne hframe c hc
    rw [hframe.calls] at hc
    have hcc : c ≠ call := by
      rintro rfl
      exact hne (h c hc)
    rw [hframe.phase c hcc]
    exact h c hc
  have hnew : ∀ s₁ : State, Frame s₁ s' s.calls → s₁.phase = s.phase → s₁.calls = s.calls + 1 →
      ∀ c, s'.calls ≤ c → s'.phase c = .notCalled := by
    intro s₁ hframe hphase hcalls c hc
    rw [hframe.calls, hcalls] at hc
    rw [hframe.phase c (Nat.lt_of_succ_le hc).ne', hphase]
    exact h c ((Nat.le_succ _).trans hc)
  cases step_kind hs with
  | refused data ssl hk => exact hnew _ hk.toFrame rfl rfl
  | entered _ data data' ssl hk => exact hnew _ hk.toFrame rfl rfl
  | reads _ call hp hk => exact hold call (by intro hc; rw [hc] at hp; cases hp) hk.toFrame
  | stays _ call _ hne hk => exact hold call hne hk.toFrame
  | retries call ssl _ hne hk => exact hold call hne hk.toFrame
  | fed call data ssl _ hne hk =>
    obtain ⟨⟨h1, h2, h3⟩, -, -⟩ := hk
    intro c hc
    have hc : s.calls ≤ c := h3 ▸ hc
    have hcc : c ≠ call := by
      rintro rfl
      exact hne (h c hc)
    rw [h1 c hcc]
    exact h c hc
  | failed call hne hk => exact hold call hne hk.toFrame

/-- **No call reads from the transport when it is stale, if no call feeds the read BIO while another
    one is on its way to read.**  And only then, in a run without failures at whose end nobody is on
    the way to read. -/
theorem wakeUp_iff {as : List Action} (h : Trans.run step {} as = some s) :
    (Trans.Meets step Safe {} as → true ∉ s.reads) ∧
      ((∀ a ∈ as, a.fails = false) → (∀ c, (s.phase c).pending = false) → true ∉ s.reads →
        Trans.Meets step Safe {} as) := by
  refine ⟨fun hmeets => ?_, fun hfails hpending hreads => ?_⟩
  · exact (Trans.run_inv_of (fun _ _ _ hi hok hs => fresh_step hi hok hs) Fresh.init hmeets h).reads
  · by_contra hnot
    have hlate := Trans.of_not_meets (I := Fresh)
      (B := fun s => Late s ∧ ∀ c, s.calls ≤ c → s.phase c = .notCalled)
      (P := fun a => a.fails = false)
      (fun _ _ _ hi _ hok hs => fresh_step hi hok hs)
      (fun _ _ _ hi _ hok hs => ⟨late_of_not_safe hok hs, notCalled_step hi.notCalled hs⟩)
      (fun _ _ _ hb hf hs => ⟨late_step hb.1 (hb.2 _ le_rfl) hf hs, notCalled_step hb.2 hs⟩)
      Fresh.init hfails h hnot
    rcases hlate.1 with hr | ⟨c, hp, -⟩
    · exact hreads hr
    · cases (hpending c).symm.trans hp

/-- Two calls read one after the other. -/
theorem wakeUp_sequential : ∃ s, Trans.run step {} [.call .read [] (.call .wantRead [1]),
      .sendDone 0 (.writes []), .received 0 [7] (.call .done []),
      .call .unwrap [] (.call .wantRead []), .received 1 [8] (.call .done [])] = some s ∧
    s.reads.length = 2 ∧ true ∉ s.reads := by
  obtain ⟨s, hs⟩ : ∃ s, Trans.run step {} [.call .read [] (.call .wantRead [1]),
    .sendDone 0 (.writes []), .received 0 [7] (.call .done []),
    .call .unwrap [] (.call .wantRead []), .received 1 [8] (.call .done [])] = some s := ⟨_, rfl⟩
  refine ⟨s, hs, ?_, (wakeUp_iff hs).1 (by decide)⟩
  cases hs
  rfl

/-- A call of `recv()` reads from the transport while the `unwrap()` of `aclose()` waits for the
    receive lock; what it has received may contain all that the `unwrap()` needs, but this reads from
    the transport again. -/
theorem unwrap_misses_wakeUp : ∃ s, Trans.run step {} [.call .read [] (.call .wantRead []),
      .call .unwrap [] (.call .wantRead []), .received 0 [7, 8] (.call .done []), .grantRecv 1] =
        some s ∧
    s.phase 1 = .receiving .unwrap ∧ s.stale 1 = true ∧ s.reads = [false, true] :=
  ⟨_, rfl, rfl, rfl, rfl⟩

end

end Tls

end EasyNetwork
