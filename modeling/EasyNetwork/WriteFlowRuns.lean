/-
  What the write flow control keeps over every run.

  * `Transport`: what is known of the transport and of the flow control; `CallInv`: what is known of
    a call, where it is.
  * `Woken`: what waking up the waiters does; `Grows`: what the transport does to the calls when it
    wakes up none.
  * `send_all_flushed`: a call that returns has had all of its bytes, and all those before, taken by
    the socket; no call waits for a transport that has nothing to send.
-/
import EasyNetwork.WriteFlow

namespace EasyNetwork

namespace WriteFlow

/-- The result of the waiter is there, or the call has ended. -/
def Phase.isDone : Phase → Bool
  | .waiting _ waiter _ => waiter != .pending
  | .ended _ _ => true
  | _ => false

/-- The waiter has no result yet. -/
def Phase.isPending : Phase → Bool
  | .waiting _ .pending _ => true
  | _ => false

theorem Phase.isPending_iff {phase : Phase} :
    phase.isPending = true ↔ ∃ data mustCancel, phase = .waiting data .pending mustCancel := by
  constructor
  · intro h
    unfold Phase.isPending at h
    split at h
    · next data mustCancel => exact ⟨data, mustCancel, rfl⟩
    · cases h
  · rintro ⟨data, mustCancel, rfl⟩
    rfl

/-- The socket has taken the bytes of the call, and those of the calls before. -/
def HasSent (s : State) (call : ℕ) (data : Bytes) : Prop :=
  ∃ before after, s.accepted = before ++ (call, data) :: after ∧
    before.flatMap Prod.snd ++ data <+: s.sent

/-- The loss of the connection is reported before the call goes on. -/
def Behind (call : ℕ) (ready : List Handle) : Prop :=
  ∃ before exc after, ready = before ++ .connectionLost exc :: after ∧ .step call ∉ before

/-- What is known of a call. -/
def CallInv (s : State) (call : ℕ) : Prop :=
  match s.phase call with
  | .notCalled => True
  | .yielding data _ => .step call ∈ s.ready ∧
      ((call, data) ∈ s.accepted ∨ s.flow.connectionLost = true ∨ Behind call s.ready)
  | .waiting data .pending _ => call ∈ s.flow.drainWaiters ∧ s.flow.writePaused = true ∧
      s.flow.connectionLost = false ∧ (call, data) ∈ s.accepted
  | .waiting data .result _ => .step call ∈ s.ready ∧ HasSent s call data
  | .waiting _ (.exception _) _ | .waiting _ .cancelled _ => .step call ∈ s.ready
  | .ended data .returned => HasSent s call data
  | .ended _ _ => True

/-- What is known of the transport and of the flow control. -/
structure Transport (s : State) : Prop where
  isPrefix : s.sent <+: s.stream
  /-- while writing is not paused, nothing is left to be sent -/
  flushed : s.flow.connectionLost = false → s.flow.writePaused = false → s.sent = s.stream
  taking : s.connLost = false → s.flow.connectionLost = false → s.sent ++ s.buffer = s.stream ∧
    (s.flow.writePaused = true ↔ s.buffer ≠ []) ∧ s.protocolPaused = s.flow.writePaused
  dropping : s.connLost = true → s.closing = true ∧ s.buffer = [] ∧
    (s.flow.connectionLost = true ∨ ∃ exc, .connectionLost exc ∈ s.ready)
  lost : s.flow.connectionLost = true → s.closing = true ∧ s.buffer = []
  noSocket : s.noSocket = s.flow.connectionLost
  scheduled : ∀ exc, .connectionLost exc ∈ s.ready → s.connLost = true
  shutdown : s.shutdown = true → s.eof = true ∧ s.sent = s.stream

/-- What is known of the calls, except of some of them. -/
structure CallsBut (but : ℕ → Prop) (s : State) : Prop where
  inv : ∀ n, ¬ but n → CallInv s n
  fresh : ∀ n, s.calls ≤ n → s.phase n = .notCalled
  called : ∀ n < s.calls, s.phase n = .notCalled → but n
  accepted : ∀ x ∈ s.accepted, x.1 < s.calls
  sorted : (s.accepted.map Prod.fst).Pairwise (· < ·)
  steps : ∀ n, .step n ∈ s.ready → n < s.calls
  removes : ∀ n, .removeWaiter n ∈ s.ready → (s.phase n).isDone = true

structure Inv (s : State) : Prop where
  transport : Transport s
  calls : CallsBut (fun _ => False) s

variable {s s' : State} {n call : ℕ} {data : Bytes} {but : ℕ → Prop}

/-! ## What stays -/

theorem HasSent.mono (h : HasSent s n data) {more : List (ℕ × Bytes)}
    (haccepted : s'.accepted = s.accepted ++ more) (hsent : s.sent <+: s'.sent) :
    HasSent s' n data := by
  obtain ⟨before, after, heq, hle⟩ := h
  refine ⟨before, after ++ more, ?_, hle.trans hsent⟩
  rw [haccepted, heq, List.append_assoc, List.cons_append]

/-- Everything has been sent. -/
theorem hasSent_of_mem (h : (n, data) ∈ s.accepted) (hsent : s.sent = s.stream) :
    HasSent s n data := by
  obtain ⟨before, after, heq⟩ := List.append_of_mem h
  refine ⟨before, after, heq, ?_⟩
  rw [hsent, State.stream, heq, List.flatMap_append, List.flatMap_cons, ← List.append_assoc]
  exact List.prefix_append _ _

theorem Behind.append {ready : List Handle} (h : Behind n ready) (more : List Handle) :
    Behind n (ready ++ more) := by
  obtain ⟨before, exc, after, rfl, hstep⟩ := h
  exact ⟨before, exc, after ++ more, by rw [List.append_assoc, List.cons_append], hstep⟩

/-- A callback that is not the loss is run. -/
theorem Behind.tail {ready : List Handle} {handle : Handle} (h : Behind n (handle :: ready))
    (hhandle : ∀ exc, handle ≠ .connectionLost exc) : Behind n ready ∧ handle ≠ .step n := by
  obtain ⟨before, exc, after, heq, hstep⟩ := h
  cases before with
  | nil => exact absurd (List.cons.inj heq).1 (hhandle exc)
  | cons first before =>
    obtain ⟨rfl, rfl⟩ := List.cons.inj heq
    rw [List.mem_cons, not_or] at hstep
    exact ⟨⟨before, exc, after, rfl, hstep.2⟩, fun heq => hstep.1 heq.symm⟩

/-- A call stays where it is. -/
theorem CallInv.transfer (h : CallInv s n) (hphase : s'.phase n = s.phase n)
    (haccepted : ∀ x ∈ s.accepted, x ∈ s'.accepted)
    (hsent : ∀ data, HasSent s n data → HasSent s' n data)
    (hlost : s.flow.connectionLost = true → s'.flow.connectionLost = true)
    (hstep : .step n ∈ s.ready → .step n ∈ s'.ready)
    (hbehind : Behind n s.ready → s'.flow.connectionLost = true ∨ Behind n s'.ready)
    (hwaits : (s.phase n).isPending = true → n ∈ s.flow.drainWaiters ∧ s.flow.writePaused = true ∧
        s.flow.connectionLost = false → n ∈ s'.flow.drainWaiters ∧ s'.flow.writePaused = true ∧
        s'.flow.connectionLost = false) : CallInv s' n := by
  unfold CallInv at h ⊢
  rw [hphase]
  split at h
  · trivial
  · exact ⟨hstep h.1, h.2.imp (haccepted _) fun hl => hl.elim (fun hl => .inl (hlost hl)) hbehind⟩
  · next hphase =>
    rw [hphase] at hwaits
    obtain ⟨h1, h2, h3, h4⟩ := h
    obtain ⟨h1, h2, h3⟩ := hwaits rfl ⟨h1, h2, h3⟩
    exact ⟨h1, h2, h3, haccepted _ h4⟩
  · exact ⟨hstep h.1, hsent _ h.2⟩
  · exact hstep h
  · exact hstep h
  · exact hsent _ h
  · trivial

/-- What the transport may do to the calls when it wakes up none. -/
structure Grows (s s' : State) : Prop where
  phase : s'.phase = s.phase
  drainWaiters : ∀ n, (s.phase n).isPending = true → n ∈ s.flow.drainWaiters →
    n ∈ s'.flow.drainWaiters
  lost : s'.flow.connectionLost = s.flow.connectionLost
  calls : s'.calls = s.calls
  paused : s.flow.writePaused = true → s'.flow.writePaused = true
  accepted : ∃ more, s'.accepted = s.accepted ++ more
  sent : s.sent <+: s'.sent
  ready : ∃ more, s'.ready = s.ready ++ more ∧ ∀ n, .step n ∉ more ∧ .removeWaiter n ∉ more

theorem Grows.refl (s : State) : Grows s s :=
  ⟨rfl, fun _ _ => id, rfl, rfl, id, ⟨[], (List.append_nil _).symm⟩, List.prefix_rfl,
    ⟨[], (List.append_nil _).symm, fun _ => ⟨List.not_mem_nil, List.not_mem_nil⟩⟩⟩

theorem Grows.trans {t : State} (h : Grows s s') (h' : Grows s' t) : Grows s t := by
  obtain ⟨more, haccepted⟩ := h.accepted
  obtain ⟨more', haccepted'⟩ := h'.accepted
  obtain ⟨handles, hready, hnone⟩ := h.ready
  obtain ⟨handles', hready', hnone'⟩ := h'.ready
  refine ⟨h'.phase.trans h.phase, fun n hp hn => ?_, h'.lost.trans h.lost,
    h'.calls.trans h.calls, fun hp => h'.paused (h.paused hp), ⟨more ++ more', ?_⟩,
    h.sent.trans h'.sent, ⟨handles ++ handles', ?_, fun n => ?_⟩⟩
  · exact h'.drainWaiters n (by rw [h.phase]; exact hp) (h.drainWaiters n hp hn)
  · rw [haccepted', haccepted, List.append_assoc]
  · rw [hready', hready, List.append_assoc]
  · rw [List.mem_append, List.mem_append, not_or, not_or]
    exact ⟨⟨(hnone n).1, (hnone' n).1⟩, (hnone n).2, (hnone' n).2⟩

theorem CallInv.grows (h : CallInv s n) (hg : Grows s s') : CallInv s' n := by
  obtain ⟨more, haccepted⟩ := hg.accepted
  obtain ⟨handles, hready, -⟩ := hg.ready
  refine h.transfer (congrFun hg.phase n) (fun x hx => ?_) (fun data hs => hs.mono haccepted hg.sent)
    (fun hl => hg.lost.trans hl) (fun hs => ?_) (fun hb => ?_) fun hp hw => ?_
  · rw [haccepted]
    exact List.mem_append_left _ hx
  · rw [hready]
    exact List.mem_append_left _ hs
  · rw [hready]
    exact .inr (hb.append handles)
  · exact ⟨hg.drainWaiters n hp hw.1, hg.paused hw.2.1, hg.lost.trans hw.2.2⟩

theorem CallsBut.grows (h : CallsBut but s) (hg : Grows s s')
    (haccepted : ∀ x ∈ s'.accepted, x.1 < s'.calls)
    (hsorted : (s'.accepted.map Prod.fst).Pairwise (· < ·)) : CallsBut but s' := by
  obtain ⟨handles, hready, hnone⟩ := hg.ready
  refine ⟨fun n hn => (h.inv n hn).grows hg, fun n hn => ?_,
    by rw [hg.calls, hg.phase]; exact h.called, haccepted, hsorted, fun n hn => ?_,
    fun n hn => ?_⟩
  · rw [hg.calls] at hn
    rw [hg.phase]
    exact h.fresh n hn
  · rw [hready, List.mem_append] at hn
    rw [hg.calls]
    exact h.steps n (hn.resolve_right (hnone n).1)
  · rw [hready, List.mem_append] at hn
    rw [hg.phase]
    exact h.removes n (hn.resolve_right (hnone n).2)

/-- The transport takes nothing. -/
theorem CallsBut.grows_eq (h : CallsBut but s) (hg : Grows s s')
    (haccepted : s'.accepted = s.accepted) : CallsBut but s' :=
  h.grows hg (by rw [haccepted, hg.calls]; exact h.accepted) (by rw [haccepted]; exact h.sorted)

theorem callInv_of_ne {phase : Phase} (hn : n ≠ call) :
    CallInv (s.setPhase call phase) n ↔ CallInv s n := by
  have hphase : (s.setPhase call phase).phase n = s.phase n := Function.update_of_ne hn ..
  unfold CallInv
  rw [hphase]
  rfl

/-- A call goes from one place to another. -/
theorem CallsBut.setPhase {phase : Phase} (h : CallsBut but s) (hbut : ∀ n, but n → n = call)
    (hcall : call < s.calls) (hcalled : phase ≠ .notCalled) (hinv : CallInv (s.setPhase call phase) call)
    (hdone : .removeWaiter call ∈ s.ready → phase.isDone = true) :
    CallsBut (fun _ => False) (s.setPhase call phase) := by
  refine ⟨fun n _ => ?_, fun n hn => ?_, fun n hn hphase => ?_, h.accepted, h.sorted, h.steps,
    fun n hn => ?_⟩
  · by_cases hc : n = call
    · rw [hc]
      exact hinv
    · exact (callInv_of_ne hc).2 (h.inv n fun hb => hc (hbut n hb))
  · have hne : n ≠ call := by
      rintro rfl
      exact absurd hcall (Nat.not_lt.2 hn)
    show Function.update s.phase call phase n = _
    rw [Function.update_of_ne hne]
    exact h.fresh n hn
  · change Function.update s.phase call phase n = _ at hphase
    by_cases hc : n = call
    · rw [hc, Function.update_self] at hphase
      exact hcalled hphase
    · rw [Function.update_of_ne hc] at hphase
      exact hc (hbut n (h.called n hn hphase))
  · show (Function.update s.phase call phase n).isDone = true
    by_cases hc : n = call
    · subst hc
      rw [Function.update_self]
      exact hdone hn
    · rw [Function.update_of_ne hc]
      exact h.removes n hn

/-! ## Waking up -/

/-- What waking up the waiters does. -/
structure Woken (waiter : Future) (s s' : State) : Prop where
  frame : s' = { s with phase := s'.phase, ready := s'.ready }
  phase : ∀ n, s'.phase n = s.phase n ∨ ∃ data mustCancel,
    s.phase n = .waiting data .pending mustCancel ∧ s'.phase n = .waiting data waiter mustCancel ∧
      .step n ∈ s'.ready
  ready : ∃ more, s'.ready = s.ready ++ more ∧ (∀ exc, .connectionLost exc ∉ more) ∧
    ∀ n, .step n ∈ more ∨ .removeWaiter n ∈ more → (s.phase n).isDone = false ∧
      s.phase n ≠ .notCalled ∧ (s'.phase n).isDone = true

theorem Woken.refl (waiter : Future) (s : State) : Woken waiter s s :=
  ⟨rfl, fun _ => .inl rfl, ⟨[], (List.append_nil _).symm, fun _ => List.not_mem_nil,
    fun _ h => h.elim (fun h => absurd h List.not_mem_nil) fun h => absurd h List.not_mem_nil⟩⟩

theorem not_pending_complete {waiter : Future} (hw : waiter ≠ .pending)
    (h : n = call ∨ (s.phase n).isPending = false) :
    ((s.complete waiter call).phase n).isPending = false := by
  unfold State.complete
  split
  · next data mustCancel hphase =>
    by_cases hn : n = call
    · subst hn
      show (Function.update s.phase n _ n).isPending = false
      rw [Function.update_self]
      cases waiter <;> first | rfl | exact absurd rfl hw
    · show (Function.update s.phase call _ n).isPending = false
      rw [Function.update_of_ne hn]
      exact h.resolve_left hn
  · next hphase =>
    rcases h with rfl | h
    · rcases hp : s.phase n with _ | _ | ⟨data, waiter', mustCancel⟩ | _ <;> first | rfl | skip
      cases waiter' <;> first | rfl | exact absurd hp (hphase data mustCancel)
    · exact h

theorem Woken.complete {waiter : Future} (h : Woken waiter s s') (hw : waiter ≠ .pending)
    (call : ℕ) : Woken waiter s (s'.complete waiter call) := by
  unfold State.complete
  split
  swap
  · exact h
  next data mustCancel hphase =>
  -- the waiter has not been woken up before
  have hbefore : s.phase call = .waiting data .pending mustCancel := by
    rcases h.phase call with heq | ⟨data', mustCancel', -, heq, -⟩
    · rw [← heq, hphase]
    · rw [hphase] at heq
      cases heq
      exact absurd rfl hw
  have hself : Function.update s'.phase call (.waiting data waiter mustCancel) call =
      .waiting data waiter mustCancel := Function.update_self ..
  obtain ⟨more, hready, hlost, hdone⟩ := h.ready
  refine ⟨?_, fun n => ?_, more ++ [.removeWaiter call, .step call], ?_, fun exc => ?_, fun n hn => ?_⟩
  · rw [h.frame]
    rfl
  · by_cases hn : n = call
    · subst hn
      exact .inr ⟨data, mustCancel, hbefore, hself,
        List.mem_append_right _ (List.mem_cons_of_mem _ List.mem_cons_self)⟩
    · show Function.update s'.phase call _ n = _ ∨ _
      rw [Function.update_of_ne hn]
      refine (h.phase n).imp id ?_
      rintro ⟨data', mustCancel', hp, hp', hstep⟩
      refine ⟨data', mustCancel', hp, ?_, List.mem_append_left _ hstep⟩
      show Function.update s'.phase call _ n = _
      rw [Function.update_of_ne hn, hp']
  · show s'.ready ++ _ = _
    rw [hready, List.append_assoc]
  · rw [List.mem_append, not_or]
    refine ⟨hlost exc, ?_⟩
    simp only [List.mem_cons, List.not_mem_nil, reduceCtorEq, or_self, not_false_eq_true]
  · by_cases heq : n = call
    · subst heq
      rw [hbefore]
      refine ⟨rfl, by rintro ⟨⟩, ?_⟩
      show (Function.update s'.phase n _ n).isDone = true
      rw [hself]
      exact bne_iff_ne.2 hw
    · simp only [List.mem_append, List.mem_cons, List.not_mem_nil, or_false, reduceCtorEq,
        Handle.step.injEq, Handle.removeWaiter.injEq, heq] at hn
      obtain ⟨h1, h2, h3⟩ := hdone n hn
      refine ⟨h1, h2, ?_⟩
      show (Function.update s'.phase call _ n).isDone = true
      rw [Function.update_of_ne heq]
      exact h3

/-- **`for waiter in self.__drain_waiters`** wakes up all of them. -/
theorem woken_completeAll {waiter : Future} (hw : waiter ≠ .pending) (s : State) :
    Woken waiter s (s.completeAll waiter) ∧
      ∀ n ∈ s.flow.drainWaiters, ((s.completeAll waiter).phase n).isPending = false := by
  have hfold : ∀ (waiters : List ℕ) (t : State), Woken waiter s t →
      Woken waiter s (waiters.foldl (State.complete waiter) t) ∧
        ∀ n, n ∈ waiters ∨ (t.phase n).isPending = false →
          ((waiters.foldl (State.complete waiter) t).phase n).isPending = false := by
    intro waiters
    induction waiters with
    | nil => exact fun t h => ⟨h, fun n hn => hn.resolve_left List.not_mem_nil⟩
    | cons call waiters ih =>
      intro t h
      obtain ⟨h1, h2⟩ := ih _ (h.complete hw call)
      refine ⟨h1, fun n hn => h2 n ?_⟩
      rcases hn with hn | hn
      · rcases List.mem_cons.1 hn with rfl | hn
        · exact .inr (not_pending_complete hw (.inl rfl))
        · exact .inl hn
      · exact .inr (not_pending_complete hw (.inr hn))
  obtain ⟨h1, h2⟩ := hfold s.flow.drainWaiters s (.refl waiter s)
  exact ⟨h1, fun n hn => h2 n (.inl hn)⟩

/-- The waiters get their result. -/
theorem CallsBut.woken {waiter : Future} (h : CallsBut but s) (hw : waiter ≠ .pending)
    (hwoken : Woken waiter s s')
    (hbut : ∀ n, but n → (s.phase n).isPending = true ∧ (s'.phase n).isPending = false)
    (hsent : ∀ n data mustCancel, s.phase n = .waiting data .pending mustCancel →
      waiter = .result → HasSent s n data) : CallsBut (fun _ => False) s' := by
  obtain ⟨more, hready, -, hmore⟩ := hwoken.ready
  have hframe := hwoken.frame
  have hcalls : s'.calls = s.calls := by rw [hframe]
  have haccepted : s'.accepted = s.accepted := by rw [hframe]
  have hsent' : s'.sent = s.sent := by rw [hframe]
  have hflow : s'.flow = s.flow := by rw [hframe]
  refine ⟨fun n _ => ?_, fun n hn => ?_, fun n hn hp => ?_, ?_, ?_, fun n hn => ?_, fun n hn => ?_⟩
  · rcases hwoken.phase n with hphase | ⟨data, mustCancel, hphase, hphase', hstep⟩
    · have hinv := h.inv n fun hb => by
        obtain ⟨h1, h2⟩ := hbut n hb
        rw [hphase, h1] at h2
        cases h2
      refine hinv.transfer hphase (fun x hx => haccepted ▸ hx) (fun data hs => ?_)
        (fun hl => hflow ▸ hl) (fun hs => ?_) (fun hb => ?_) fun _ hw => hflow ▸ hw
      · unfold HasSent at hs ⊢
        rw [haccepted, hsent']
        exact hs
      · rw [hready]
        exact List.mem_append_left _ hs
      · rw [hready]
        exact .inr (hb.append more)
    · have hsent := hsent n data mustCancel hphase
      unfold CallInv HasSent
      rw [hphase', haccepted, hsent']
      cases waiter with
      | pending => exact absurd rfl hw
      | result => exact ⟨hstep, hsent rfl⟩
      | exception exc => exact hstep
      | cancelled => exact hstep
  · rw [hcalls] at hn
    have hfresh := h.fresh n hn
    rcases hwoken.phase n with hphase | ⟨data, mustCancel, hphase, -⟩
    · rw [hphase, hfresh]
    · rw [hfresh] at hphase
      cases hphase
  · rw [hcalls] at hn
    rcases hwoken.phase n with hphase | ⟨data, mustCancel, -, hphase', -⟩
    · rw [hphase] at hp
      have hpending := (hbut n (h.called n hn hp)).1
      rw [hp] at hpending
      cases hpending
    · rw [hp] at hphase'
      cases hphase'
  · rw [haccepted, hcalls]
    exact h.accepted
  · rw [haccepted]
    exact h.sorted
  · rw [hcalls]
    rw [hready, List.mem_append] at hn
    rcases hn with hn | hn
    · exact h.steps n hn
    · by_contra hle
      exact (hmore n (.inl hn)).2.1 (h.fresh n (Nat.le_of_not_lt hle))
  · rw [hready, List.mem_append] at hn
    rcases hn with hn | hn
    · rcases hwoken.phase n with hphase | ⟨data, mustCancel, -, hphase', -⟩
      · rw [hphase]
        exact h.removes n hn
      · rw [hphase']
        exact bne_iff_ne.2 hw
    · exact (hmore n (.inr hn)).2.2

/-- The waiters of the calls that wait get their result. -/
theorem CallsBut.completeAll {waiter : Future} (hw : waiter ≠ .pending)
    (h : CallsBut (fun n => (s.phase n).isPending = true) s)
    (hwaits : ∀ n data mustCancel, s.phase n = .waiting data .pending mustCancel →
      n ∈ s.flow.drainWaiters ∧ (waiter = .result → HasSent s n data)) :
    CallsBut (fun _ => False) (s.completeAll waiter) := by
  obtain ⟨hwoken, hnone⟩ := woken_completeAll hw s
  refine h.woken hw hwoken (fun n hn => ⟨hn, hnone n ?_⟩) fun n data mustCancel hphase =>
    (hwaits n data mustCancel hphase).2
  obtain ⟨data, mustCancel, hphase⟩ := Phase.isPending_iff.1 hn
  exact (hwaits n data mustCancel hphase).1

/-! ## The transport -/

theorem stream_append (h : s'.accepted = s.accepted ++ [(call, data)]) :
    s'.stream = s.stream ++ data := by
  rw [State.stream, h, List.flatMap_append, List.flatMap_singleton]
  rfl

/-- Only the calls change. -/
theorem Transport.congr (h : Transport s)
    (hframe : s' = { s with
      flow := { s.flow with drainWaiters := s'.flow.drainWaiters }
      calls := s'.calls
      phase := s'.phase
      ready := s'.ready })
    (hready : ∀ exc, .connectionLost exc ∈ s'.ready ↔ .connectionLost exc ∈ s.ready) :
    Transport s' := by
  obtain ⟨isPrefix, flushed, taking, dropping, lost, noSocket, scheduled, shutdown⟩ := h
  generalize s'.flow.drainWaiters = drainWaiters, s'.calls = calls, s'.phase = phase,
    hr : s'.ready = ready at hframe
  subst hframe
  refine ⟨isPrefix, flushed, taking, fun hconn => ?_, lost, noSocket, fun exc hexc => ?_, shutdown⟩
  · obtain ⟨hclosing, hbuffer, hlost⟩ := dropping hconn
    exact ⟨hclosing, hbuffer, hlost.imp id fun ⟨exc, hexc⟩ => ⟨exc, (hready exc).2 hexc⟩⟩
  · exact scheduled exc ((hready exc).1 hexc)

theorem Transport.woken (h : Transport s) {waiter : Future} (hwoken : Woken waiter s s') :
    Transport s' := by
  obtain ⟨more, hready, hmore, -⟩ := hwoken.ready
  refine h.congr ?_ fun exc => ?_
  · have hframe := hwoken.frame
    generalize s'.phase = phase, s'.ready = ready at hframe
    rw [hframe]
  · rw [hready, List.mem_append]
    exact or_iff_left (hmore exc)

theorem Transport.completeAll (h : Transport s) {waiter : Future} (hw : waiter ≠ .pending) :
    Transport (s.completeAll waiter) := h.woken (woken_completeAll hw s).1

theorem Transport.not_scheduled (h : Transport s) (hconn : s.connLost = false) (exc : Option String) :
    .connectionLost exc ∉ s.ready := fun hexc => by
  rw [h.scheduled exc hexc] at hconn
  cases hconn

theorem Transport.not_connLost (h : Transport s) (hclosing : s.closing = false) :
    s.connLost = false ∧ s.flow.connectionLost = false := by
  refine ⟨Bool.eq_false_iff.2 fun hc => ?_, Bool.eq_false_iff.2 fun hl => ?_⟩
  · rw [(h.dropping hc).1] at hclosing
    cases hclosing
  · rw [(h.lost hl).1] at hclosing
    cases hclosing

/-- The transport takes what is written. -/
theorem Transport.of_taking (hconn : s.connLost = false) (hlost : s.flow.connectionLost = false)
    (hsocket : s.noSocket = false) (hready : ∀ exc, .connectionLost exc ∉ s.ready)
    (hstream : s.sent ++ s.buffer = s.stream)
    (hpaused : s.flow.writePaused = true ↔ s.buffer ≠ [])
    (hprotocol : s.protocolPaused = s.flow.writePaused)
    (hshutdown : s.shutdown = true → s.eof = true ∧ s.sent = s.stream) : Transport s where
  isPrefix := ⟨_, hstream⟩
  flushed _ hp := by
    have hnone : s.buffer = [] := by
      by_contra hne
      rw [hpaused.2 hne] at hp
      cases hp
    rw [← hstream, hnone, List.append_nil]
  taking _ _ := ⟨hstream, hpaused, hprotocol⟩
  dropping hc := by
    rw [hconn] at hc
    cases hc
  lost hl := by
    rw [hlost] at hl
    cases hl
  noSocket := hsocket.trans hlost.symm
  scheduled exc hexc := absurd hexc (hready exc)
  shutdown := hshutdown

/-- `write` goes on: the socket has taken the first part, or something is left from before. -/
theorem Transport.writeRest (h : Transport s) (call : ℕ)
    (hlost : s.flow.connectionLost = false)
    (hconn : s.connLost = false) (heof : s.eof = false) {taken rest : Bytes}
    (hdata : data = taken ++ rest) (hbuffer : s.buffer = [] ∨ taken = []) :
    Transport ({ s with sent := s.sent ++ taken }.writeRest call data rest) := by
  obtain ⟨hstream, hpaused, hprotocol⟩ := h.taking hconn hlost
  have hsocket : s.noSocket = false := h.noSocket.trans hlost
  have hready := h.not_scheduled hconn
  have hsum : s.sent ++ taken ++ (s.buffer ++ rest) =
      State.stream { s with accepted := s.accepted ++ [(call, data)] } := by
    have hmore : State.stream { s with accepted := s.accepted ++ [(call, data)] } =
        s.stream ++ data := stream_append rfl
    rw [hmore, hdata, ← hstream]
    rcases hbuffer with hbuffer | htaken
    · rw [hbuffer, List.append_nil, List.nil_append, List.append_assoc]
    · rw [htaken, List.append_nil, List.nil_append, List.append_assoc]
  have hshutdown : s.shutdown = true → s.eof = true ∧ s.sent ++ taken =
      State.stream { s with accepted := s.accepted ++ [(call, data)] } := fun hs => by
    rw [(h.shutdown hs).1] at heof
    cases heof
  unfold State.writeRest State.maybePauseProtocol State.pauseWriting
  split_ifs with hempty hwaits
  · have hnone : s.buffer = [] := (List.append_eq_nil_iff.1 hempty).1
    exact .of_taking hconn hlost hsocket hready hsum
      (hpaused.trans (not_congr (iff_of_true hnone hempty))) hprotocol hshutdown
  · exact .of_taking hconn hlost hsocket hready hsum
      (iff_of_true (hprotocol.symm.trans hwaits) hempty) hprotocol hshutdown
  · exact .of_taking hconn hlost hsocket hready hsum (iff_of_true rfl hempty) rfl hshutdown

theorem Transport.forceClose (h : Transport s) (exc : Option String) :
    Transport (s.forceClose exc) := by
  unfold State.forceClose
  split_ifs with hconn
  · exact h
  · exact ⟨h.isPrefix, h.flushed, fun hc => (Bool.noConfusion hc : False).elim,
      fun _ => ⟨rfl, rfl, .inr ⟨exc, List.mem_append_right _ List.mem_cons_self⟩⟩,
      fun _ => ⟨rfl, rfl⟩, h.noSocket, fun _ _ => rfl, h.shutdown⟩

/-- What `_write_ready` has cleared, `_force_close` clears too. -/
theorem Transport.forceClose_eq (h : Transport s) (exc : Option String) :
    { s with buffer := [] }.forceClose exc = s.forceClose exc := by
  unfold State.forceClose
  split_ifs with hconn
  · rw [← (h.dropping hconn).2.1]
  · rfl

/-- With nothing to send, `close` is `_force_close`. -/
theorem Transport.close_eq (h : Transport s) :
    s.close = if s.closing then s else if s.buffer = [] then s.forceClose none
      else { s with closing := true } := by
  unfold State.close State.forceClose
  split_ifs with hclosing hempty hconn
  · rfl
  · rw [(h.not_connLost (Bool.eq_false_iff.2 hclosing)).1] at hconn
    cases hconn
  · rw [hempty]
  · rfl

theorem Transport.close (h : Transport s) : Transport s.close := by
  rw [h.close_eq]
  split_ifs with hclosing hempty
  · exact h
  · exact h.forceClose none
  · obtain ⟨hconn, hlost⟩ := h.not_connLost (Bool.eq_false_iff.2 hclosing)
    obtain ⟨hstream, hpaused, hprotocol⟩ := h.taking hconn hlost
    exact .of_taking hconn hlost (h.noSocket.trans hlost) (h.not_scheduled hconn) hstream hpaused
      hprotocol h.shutdown

theorem Transport.writeEof (h : Transport s) : Transport s.writeEof := by
  unfold State.writeEof
  split_ifs with hclosed hempty
  · exact h
  all_goals
    obtain ⟨hclosing, heof⟩ := not_or.1 hclosed
    obtain ⟨hconn, hlost⟩ := h.not_connLost (Bool.eq_false_iff.2 hclosing)
    obtain ⟨hstream, hpaused, hprotocol⟩ := h.taking hconn hlost
    refine .of_taking hconn hlost (h.noSocket.trans hlost) (h.not_scheduled hconn) hstream hpaused
      hprotocol fun hs => ⟨rfl, ?_⟩
  · rw [hempty, List.append_nil] at hstream
    exact hstream
  · exact (h.shutdown hs).2

/-- `_call_connection_lost`, run by the loop or called at the end of `_write_ready`. -/
theorem Transport.callConnectionLost (h : Transport s) (hclosing : s.closing = true)
    (hbuffer : s.buffer = []) {ready : List Handle}
    (hready : ∀ exc, .connectionLost exc ∈ ready → .connectionLost exc ∈ s.ready)
    (exc : Option String) : Transport ({ s with ready }.callConnectionLost exc) := by
  unfold State.callConnectionLost State.connectionLost
  split_ifs with hlost
  · exact ⟨h.isPrefix, h.flushed, fun _ hl => Bool.noConfusion (hlost.symm.trans hl),
      fun _ => ⟨hclosing, hbuffer, .inl hlost⟩, fun _ => ⟨hclosing, hbuffer⟩, hlost.symm,
      fun exc hexc => h.scheduled exc (hready exc hexc), h.shutdown⟩
  · have hlost' : Transport { s with
        ready
        noSocket := true
        flow := { s.flow with
          writePaused := false, connectionLost := true, connectionLostException := exc } } :=
      ⟨h.isPrefix, nofun, nofun, fun _ => ⟨hclosing, hbuffer, .inl rfl⟩,
        fun _ => ⟨hclosing, hbuffer⟩, rfl, fun exc hexc => h.scheduled exc (hready exc hexc),
        h.shutdown⟩
    have hne : Future.exception exc ≠ .pending := nofun
    obtain ⟨hframe, -, more, hmore, hnone, -⟩ :=
      (woken_completeAll hne { s with
        ready
        flow := { s.flow with
          writePaused := false, connectionLost := true, connectionLostException := exc } }).1
    refine hlost'.congr ?_ fun exc' => ?_
    · rw [hframe]
    · show _ ∈ (State.completeAll _ _).ready ↔ _
      rw [hmore, List.mem_append]
      exact or_iff_left (hnone exc')

/-! ## Steps of the transport -/

theorem Inv.grows (h : Inv s) (ht : Transport s') (hg : Grows s s')
    (haccepted : s'.accepted = s.accepted) : Inv s' :=
  ⟨ht, h.calls.grows_eq hg haccepted⟩

/-- Nothing changes that the calls see. -/
theorem Grows.of_eq (hphase : s'.phase = s.phase) (hflow : s'.flow = s.flow)
    (hcalls : s'.calls = s.calls) (haccepted : s'.accepted = s.accepted) (hsent : s'.sent = s.sent)
    (hready : s'.ready = s.ready) : Grows s s' :=
  ⟨hphase, fun _ _ h => hflow ▸ h, hflow ▸ rfl, hcalls, fun h => hflow ▸ h,
    ⟨[], by rw [haccepted, List.append_nil]⟩, hsent ▸ List.prefix_rfl,
    ⟨[], by rw [hready, List.append_nil], fun _ => ⟨List.not_mem_nil, List.not_mem_nil⟩⟩⟩

theorem grows_forceClose (s : State) (exc : Option String) : Grows s (s.forceClose exc) := by
  unfold State.forceClose
  split_ifs
  · exact .refl s
  · refine ⟨rfl, fun _ _ => id, rfl, rfl, id, ⟨[], (List.append_nil _).symm⟩, List.prefix_rfl,
      ⟨[.connectionLost exc], rfl, fun n => ?_⟩⟩
    simp only [List.mem_singleton, reduceCtorEq, not_false_eq_true, and_self]

theorem accepted_forceClose (s : State) (exc : Option String) :
    (s.forceClose exc).accepted = s.accepted := by
  unfold State.forceClose
  split_ifs <;> rfl

theorem Inv.forceClose (h : Inv s) (exc : Option String) : Inv (s.forceClose exc) :=
  h.grows (h.transport.forceClose exc) (grows_forceClose s exc) (accepted_forceClose s exc)

theorem Inv.close (h : Inv s) : Inv s.close := by
  have ht := h.transport.close
  rw [h.transport.close_eq] at ht ⊢
  split_ifs at ht ⊢
  · exact h
  · exact h.forceClose none
  · exact h.grows ht (.of_eq rfl rfl rfl rfl rfl rfl) rfl

theorem Inv.writeEof (h : Inv s) : Inv s.writeEof := by
  have ht := h.transport.writeEof
  unfold State.writeEof at ht ⊢
  split_ifs at ht ⊢
  · exact h
  · exact h.grows ht (.of_eq rfl rfl rfl rfl rfl rfl) rfl
  · exact h.grows ht (.of_eq rfl rfl rfl rfl rfl rfl) rfl

theorem Inv.aclose (h : Inv s) : Inv s.aclose := by
  unfold State.aclose
  split_ifs
  · exact h
  · exact h.writeEof.close

theorem CallsBut.mono {but' : ℕ → Prop} (h : CallsBut but s) (hbut : ∀ n, but n → but' n) :
    CallsBut but' s :=
  { h with
    inv := fun n hn => h.inv n fun hb => hn (hbut n hb)
    called := fun n hn hphase => hbut n (h.called n hn hphase) }

/-- Only the calls that wait see that writing goes on, or that the connection is lost. -/
theorem CallsBut.flow (h : CallsBut (fun n => (s.phase n).isPending = true) s) {flow : WriteFlowControl}
    (hlost : s.flow.connectionLost = true → flow.connectionLost = true) :
    CallsBut (fun n => (s.phase n).isPending = true) { s with flow } := by
  refine ⟨fun n hn => ?_, h.fresh, h.called, h.accepted, h.sorted, h.steps, h.removes⟩
  exact (h.inv n hn).transfer rfl (fun _ => id) (fun _ => id) hlost id .inr
    fun hp => absurd hp hn

theorem CallInv.pending {mustCancel : Bool} (h : CallInv s n)
    (hphase : s.phase n = .waiting data .pending mustCancel) : n ∈ s.flow.drainWaiters ∧
      s.flow.writePaused = true ∧ s.flow.connectionLost = false ∧ (n, data) ∈ s.accepted := by
  unfold CallInv at h
  rw [hphase] at h
  exact h

/-- Everything has been sent: the calls that wait are woken up. -/
theorem CallsBut.resumeWriting (h : CallsBut (fun _ => False) s) (hsent : s.sent = s.stream) :
    CallsBut (fun _ => False) s.resumeWriting := by
  have hflow : CallsBut (fun n => (s.phase n).isPending = true) { s with
      flow := { s.flow with writePaused := false } } := (h.mono fun _ => False.elim).flow id
  refine hflow.completeAll nofun ?_
  intro n data mustCancel hphase
  obtain ⟨hmem, -, -, haccepted⟩ := (h.inv n id).pending hphase
  exact ⟨hmem, fun _ => hasSent_of_mem haccepted hsent⟩

/-- The loop takes a callback; the loss of the connection has been reported. -/
theorem CallsBut.pop {handle : Handle} {ready : List Handle} (h : CallsBut but s)
    (hready : s.ready = handle :: ready)
    (hlost : ∀ exc, handle = .connectionLost exc → s.flow.connectionLost = true) :
    CallsBut (fun n => but n ∨ handle = .step n) { s with ready } := by
  have hmem : ∀ x ∈ ready, x ∈ s.ready := fun x hx => hready ▸ List.mem_cons_of_mem handle hx
  refine ⟨fun n hn => ?_, h.fresh, fun n hn hphase => .inl (h.called n hn hphase), h.accepted,
    h.sorted, fun n hn => h.steps n (hmem _ hn), fun n hn => h.removes n (hmem _ hn)⟩
  obtain ⟨hbut, hhandle⟩ := not_or.1 hn
  refine (h.inv n hbut).transfer rfl (fun _ => id) (fun _ => id) id (fun hs => ?_) (fun hb => ?_)
    fun _ => id
  · rw [hready, List.mem_cons] at hs
    exact hs.resolve_left fun heq => hhandle heq.symm
  · by_cases hc : ∃ exc, handle = .connectionLost exc
    · obtain ⟨exc, hc⟩ := hc
      exact .inl (hlost exc hc)
    · rw [hready] at hb
      exact .inr (hb.tail (not_exists.1 hc)).1

/-- The loss of the connection is reported to the calls, by the loop or at the end of
`_write_ready`. -/
theorem CallsBut.callConnectionLost {exc : Option String} {ready : List Handle}
    (h : CallsBut (fun _ => False) s)
    (hready : s.ready = ready ∨ ∃ exc, s.ready = .connectionLost exc :: ready)
    (hwaits : ∀ n, (s.phase n).isPending = true →
      n ∈ s.flow.drainWaiters ∧ s.flow.connectionLost = false) :
    CallsBut (fun _ => False) ({ s with ready }.callConnectionLost exc) := by
  have hpop : ∀ {but : ℕ → Prop} {t : State}, t.ready = s.ready → t.flow.connectionLost = true →
      CallsBut but t → CallsBut but { t with ready } := by
    intro but t hready' hlost ht
    rcases hready with hready | ⟨exc, hready⟩
    · rw [← hready, ← hready']
      exact ht
    · exact (ht.pop (hready'.trans hready) fun _ _ => hlost).mono fun n hn => hn.resolve_right nofun
  unfold State.callConnectionLost State.connectionLost
  split_ifs with hlost
  · exact (hpop rfl hlost h).grows_eq (.of_eq rfl rfl rfl rfl rfl rfl) rfl
  · let flow : WriteFlowControl := { s.flow with
      writePaused := false, connectionLost := true, connectionLostException := exc }
    have hflow : CallsBut (fun n => (s.phase n).isPending = true) { s with flow } :=
      (h.mono fun _ => False.elim).flow fun _ => rfl
    have hall : CallsBut (fun _ => False) (State.completeAll { s with flow, ready }
        (.exception exc)) :=
      CallsBut.completeAll (s := { s with flow, ready }) nofun
        (hpop (t := { s with flow }) rfl rfl hflow) fun n data mustCancel hphase =>
          ⟨(hwaits n (Phase.isPending_iff.2 ⟨data, mustCancel, hphase⟩)).1, nofun⟩
    exact hall.grows_eq (.of_eq rfl rfl rfl rfl rfl rfl) rfl

theorem Inv.waits (h : Inv s) (n : ℕ) (hn : (s.phase n).isPending = true) :
    n ∈ s.flow.drainWaiters ∧ s.flow.connectionLost = false := by
  obtain ⟨data, mustCancel, hphase⟩ := Phase.isPending_iff.1 hn
  obtain ⟨hmem, -, hlost, -⟩ := (h.calls.inv n id).pending hphase
  exact ⟨hmem, hlost⟩

/-- The socket takes something of what is buffered. -/
theorem Inv.takes (h : Inv s) (hbuffer : s.buffer ≠ []) (hconn : s.connLost = false)
    (hlost : s.flow.connectionLost = false) (k : ℕ) :
    Inv (State.maybeResumeProtocol
      { s with sent := s.sent ++ s.buffer.take k, buffer := s.buffer.drop k }) := by
  obtain ⟨hstream, hpaused, hprotocol⟩ := h.transport.taking hconn hlost
  have hpaused := hpaused.2 hbuffer
  have hsocket : s.noSocket = false := h.transport.noSocket.trans hlost
  have hready := h.transport.not_scheduled hconn
  have hsum : s.sent ++ s.buffer.take k ++ s.buffer.drop k = s.stream := by
    rw [List.append_assoc, List.take_append_drop, hstream]
  -- the write end is not shut down as long as something is buffered
  have hshutdown : s.shutdown = true → s.eof = true ∧ s.sent ++ s.buffer.take k = s.stream :=
    fun hs => absurd (List.self_eq_append_right.1 ((h.transport.shutdown hs).2.trans hstream.symm))
      hbuffer
  have hcalls : ∀ protocolPaused, CallsBut (fun _ => False) { s with
      sent := s.sent ++ s.buffer.take k, buffer := s.buffer.drop k, protocolPaused } := fun _ =>
    h.calls.grows_eq ⟨rfl, fun _ _ => id, rfl, rfl, id, ⟨[], (List.append_nil _).symm⟩,
      List.prefix_append _ _, ⟨[], (List.append_nil _).symm, fun _ =>
        ⟨List.not_mem_nil, List.not_mem_nil⟩⟩⟩ rfl
  unfold State.maybeResumeProtocol
  split_ifs with hresume
  · have hall : s.sent ++ s.buffer.take k = s.stream := by
      rw [← hsum, show s.buffer.drop k = [] from hresume.2, List.append_nil]
    have ht : Transport { s with
        sent := s.sent ++ s.buffer.take k
        buffer := s.buffer.drop k
        protocolPaused := false
        flow := { s.flow with writePaused := false } } :=
      .of_taking hconn hlost hsocket hready hsum
        (iff_of_false Bool.false_ne_true (not_not.2 hresume.2)) rfl hshutdown
    exact ⟨ht.completeAll nofun, (hcalls false).resumeWriting hall⟩
  · have hrest : s.buffer.drop k ≠ [] := fun hrest => hresume ⟨hprotocol.trans hpaused, hrest⟩
    exact ⟨.of_taking hconn hlost hsocket hready hsum (iff_of_true hpaused hrest) hprotocol hshutdown,
      hcalls s.protocolPaused⟩

theorem Inv.writeReady (h : Inv s) (hbuffer : s.buffer ≠ []) (hsocket : s.noSocket = false)
    (send : Send) : Inv (s.writeReady send) := by
  have hconn : s.connLost = false := Bool.eq_false_iff.2 fun hc =>
    hbuffer (h.transport.dropping hc).2.1
  have hlost : s.flow.connectionLost = false := h.transport.noSocket.symm.trans hsocket
  cases send with
  | raises exc =>
    show Inv (State.forceClose _ _)
    rw [h.transport.forceClose_eq]
    exact h.forceClose (some exc)
  | takes k =>
    have hinv := h.takes hbuffer hconn hlost k
    unfold State.writeReady
    dsimp only
    generalize State.maybeResumeProtocol _ = t at hinv ⊢
    split_ifs with hrest hclosing heof
    · exact hinv
    · have hnone := not_not.1 hrest
      exact ⟨hinv.transport.callConnectionLost hclosing hnone (fun _ => id) none,
        hinv.calls.callConnectionLost (.inl rfl) hinv.waits⟩
    · obtain ⟨hconn, hlost⟩ := hinv.transport.not_connLost (Bool.eq_false_iff.2 hclosing)
      obtain ⟨hstream, hpaused, hprotocol⟩ := hinv.transport.taking hconn hlost
      have hall : t.sent = t.stream := by
        rw [← hstream, not_not.1 hrest, List.append_nil]
      exact hinv.grows (.of_taking hconn hlost (hinv.transport.noSocket.trans hlost)
        (hinv.transport.not_scheduled hconn) hstream hpaused hprotocol fun _ => ⟨heof, hall⟩)
        (.of_eq rfl rfl rfl rfl rfl rfl) rfl
    · exact hinv

/-! ## Steps of the calls -/

theorem State.phase_setPhase (s : State) (call : ℕ) (phase : Phase) :
    (s.setPhase call phase).phase call = phase := Function.update_self ..

theorem Transport.setPhase (h : Transport s) (call : ℕ) (phase : Phase) :
    Transport (s.setPhase call phase) := h.congr rfl fun _ => Iff.rfl

/-- A call ends, or goes on to where nothing has to be known of it. -/
theorem CallsBut.ended {outcome : Outcome} (h : CallsBut but s) (hbut : ∀ n, but n → n = call)
    (hcall : call < s.calls) (hreturned : outcome = .returned → HasSent s call data) :
    CallsBut (fun _ => False) (s.setPhase call (.ended data outcome)) := by
  refine h.setPhase hbut hcall nofun ?_ fun _ => rfl
  unfold CallInv
  rw [State.phase_setPhase]
  cases outcome with
  | returned => exact hreturned rfl
  | cancelled => trivial
  | connectionLost exc => trivial
  | eofWritten => trivial
  | noSocket => trivial

theorem drainOpen_inv (ht : Transport s) (hc : CallsBut but s) (hbut : ∀ n, but n → n = call)
    (hcall : call < s.calls)
    (haccepted : s.flow.connectionLost = false → (call, data) ∈ s.accepted)
    (hremove : .removeWaiter call ∉ s.ready) : Inv (s.drainOpen call data) := by
  unfold State.drainOpen
  split_ifs with hlost hpaused
  · exact ⟨ht.setPhase .., hc.ended hbut hcall nofun⟩
  · have hlost := Bool.eq_false_iff.2 hlost
    have hg : Grows s { s with flow := { s.flow with
        drainWaiters := s.flow.drainWaiters ++ [call] } } :=
      ⟨rfl, fun _ _ => List.mem_append_left _, rfl, rfl, id, ⟨[], (List.append_nil _).symm⟩,
        List.prefix_rfl, ⟨[], (List.append_nil _).symm, fun _ =>
          ⟨List.not_mem_nil, List.not_mem_nil⟩⟩⟩
    refine ⟨ht.congr rfl fun _ => Iff.rfl, (hc.grows_eq hg rfl).setPhase hbut hcall nofun ?_
      fun hr => absurd hr hremove⟩
    unfold CallInv
    rw [State.phase_setPhase]
    exact ⟨List.mem_append_right _ List.mem_cons_self, hpaused, hlost, haccepted hlost⟩
  · have hlost := Bool.eq_false_iff.2 hlost
    exact ⟨ht.setPhase .., hc.ended hbut hcall fun _ => hasSent_of_mem (haccepted hlost)
      (ht.flushed hlost (Bool.eq_false_iff.2 hpaused))⟩

/-- `send_all`, once the transport has taken or dropped the bytes. -/
theorem drain_inv (ht : Transport s) (hc : CallsBut but s) (hbut : ∀ n, but n → n = call)
    (hcall : call < s.calls) (haccepted : (call, data) ∈ s.accepted ∨ s.connLost = true)
    (hstep : .step call ∉ s.ready) (hremove : .removeWaiter call ∉ s.ready) :
    Inv (s.drain call data) := by
  unfold State.drain
  split_ifs with hclosing
  · have hmem : ∀ {handle}, handle ∈ s.ready → handle ∈ s.ready ++ [Handle.step call] :=
      List.mem_append_left _
    have ht' : Transport { s with ready := s.ready ++ [Handle.step call] } := by
      refine ht.congr rfl fun exc => ?_
      rw [List.mem_append, or_iff_left]
      simp only [List.mem_singleton, reduceCtorEq, not_false_eq_true]
    have hc' : CallsBut but { s with ready := s.ready ++ [Handle.step call] } := by
      refine ⟨fun n hn => (hc.inv n hn).transfer rfl (fun _ => id) (fun _ => id) id hmem
        (fun hb => .inr (hb.append _)) fun _ => id, hc.fresh, hc.called, hc.accepted, hc.sorted,
        fun n hn => ?_, fun n hn => ?_⟩
      · simp only [List.mem_append, List.mem_singleton, Handle.step.injEq] at hn
        exact hn.elim (hc.steps n) fun heq => heq ▸ hcall
      · simp only [List.mem_append, List.mem_singleton, reduceCtorEq, or_false] at hn
        exact hc.removes n hn
    refine ⟨ht'.setPhase .., hc'.setPhase hbut hcall nofun ?_ fun hr => ?_⟩
    · unfold CallInv
      rw [State.phase_setPhase]
      refine ⟨List.mem_append_right _ List.mem_cons_self, haccepted.imp id fun hconn => ?_⟩
      -- what has been dropped has been dropped after the loss has been scheduled
      refine (ht.dropping hconn).2.2.imp id fun ⟨exc, hexc⟩ => ?_
      obtain ⟨before, after, heq⟩ := List.append_of_mem hexc
      refine Behind.append ⟨before, exc, after, heq, fun hb => hstep ?_⟩ _
      rw [heq]
      exact List.mem_append_left _ hb
    · simp only [List.mem_append, List.mem_singleton, reduceCtorEq, or_false] at hr
      exact absurd hr hremove
  · obtain ⟨hconn, hlost⟩ := ht.not_connLost (Bool.eq_false_iff.2 hclosing)
    refine drainOpen_inv ht hc hbut hcall (fun _ => ?_) hremove
    exact haccepted.resolve_right (Bool.eq_false_iff.1 hconn)

theorem Inv.goOn {ready : List Handle} (h : Inv s) (hready : s.ready = .step call :: ready) :
    Inv ({ s with ready }.goOn call) := by
  have hc : CallsBut (fun n => n = call) { s with ready } :=
    (h.calls.pop hready nofun).mono fun n hn => (Handle.step.inj (hn.resolve_left id)).symm
  have ht : Transport { s with ready } := by
    refine h.transport.congr rfl fun exc => ?_
    rw [hready, List.mem_cons, or_iff_right nofun]
  have hcall : call < s.calls := h.calls.steps call (hready ▸ List.mem_cons_self)
  have hinv := h.calls.inv call id
  have hended : ∀ {data outcome}, (outcome = .returned → HasSent s call data) →
      Inv ({ s with ready }.setPhase call (.ended data outcome)) := fun hreturned =>
    ⟨ht.setPhase .., hc.ended (fun _ => id) hcall hreturned⟩
  have hsame : CallInv { s with ready } call → Inv { s with ready } := fun hcall => by
    refine ⟨ht, { hc with inv := fun n _ => ?_, called := h.calls.called }⟩
    by_cases hn : n = call
    · rw [hn]
      exact hcall
    · exact hc.inv n hn
  unfold CallInv at hinv hsame
  unfold State.goOn
  dsimp only at hsame ⊢
  rcases hphase : s.phase call with _ | ⟨data, mustCancel⟩ | ⟨data, waiter, mustCancel⟩ |
      ⟨data, outcome⟩ <;>
    rw [hphase] at hinv hsame <;> dsimp only at hinv ⊢
  · exact hsame trivial
  · split_ifs with hcancel
    · exact hended nofun
    · refine drainOpen_inv ht hc (fun _ => id) hcall (fun hlost => ?_) fun hr => ?_
      · refine hinv.2.resolve_right fun hbad => ?_
        rcases hbad with hl | hb
        · exact Bool.noConfusion (hl.symm.trans hlost)
        · rw [hready] at hb
          exact (hb.tail nofun).2 rfl
      · have hdone := hc.removes call hr
        rw [show State.phase { s with ready } call = .yielding data mustCancel from hphase] at hdone
        cases hdone
  · split_ifs with hcancel
    · exact hended nofun
    · cases waiter with
      | pending => exact hsame hinv
      | result => exact hended fun _ => hinv.2
      | exception exc => exact hended nofun
      | cancelled => exact hended nofun
  · cases outcome <;> exact hsame hinv

theorem Inv.cancel (h : Inv s) (call : ℕ) : Inv (s.cancel call) := by
  have hinv := h.calls.inv call id
  have hcalled : s.phase call ≠ .notCalled → call < s.calls := fun hne => by
    by_contra hle
    exact hne (h.calls.fresh call (Nat.le_of_not_lt hle))
  have hphase' := State.phase_setPhase s call
  unfold CallInv at hinv
  unfold State.cancel
  split
  · next data mustCancel hphase =>
    rw [hphase] at hinv
    refine ⟨h.transport.setPhase .., h.calls.setPhase (fun _ => False.elim)
      (hcalled (by rw [hphase]; nofun)) nofun ?_ fun hr => ?_⟩
    · unfold CallInv
      rw [hphase']
      exact hinv
    · have hdone := h.calls.removes call hr
      rw [hphase] at hdone
      cases hdone
  · next data mustCancel hphase =>
    have hne : Future.cancelled ≠ .pending := nofun
    have hwoken := (Woken.refl .cancelled s).complete hne call
    exact ⟨h.transport.woken hwoken, h.calls.woken hne hwoken (fun _ => False.elim) nofun⟩
  · next data waiter mustCancel hpending hphase =>
    rw [hphase] at hinv
    refine ⟨h.transport.setPhase .., h.calls.setPhase (fun _ => False.elim)
      (hcalled (by rw [hphase]; nofun)) nofun ?_ fun _ => ?_⟩
    · unfold CallInv
      rw [hphase']
      cases waiter with
      | pending => exact absurd rfl hpending
      | result => exact hinv
      | exception exc => exact hinv
      | cancelled => exact hinv
    · exact bne_iff_ne.2 hpending
  · exact h

theorem Inv.runHandle {handle : Handle} {ready : List Handle} (h : Inv s)
    (hready : s.ready = handle :: ready) : Inv ({ s with ready }.runHandle handle) := by
  cases handle with
  | connectionLost exc =>
    have hconn := h.transport.scheduled exc (hready ▸ List.mem_cons_self)
    obtain ⟨hclosing, hbuffer, -⟩ := h.transport.dropping hconn
    exact ⟨h.transport.callConnectionLost hclosing hbuffer (fun exc hexc =>
      hready ▸ List.mem_cons_of_mem _ hexc) exc,
      h.calls.callConnectionLost (.inr ⟨exc, hready⟩) h.waits⟩
  | removeWaiter call =>
    have hdone := h.calls.removes call (hready ▸ List.mem_cons_self)
    have hc : CallsBut (fun _ => False) { s with ready } :=
      (h.calls.pop hready nofun).mono fun n hn => hn.resolve_right nofun
    refine ⟨h.transport.congr rfl fun exc => ?_, hc.grows_eq ⟨rfl, fun n hn hmem => ?_, rfl, rfl, id,
      ⟨[], (List.append_nil _).symm⟩, List.prefix_rfl, ⟨[], (List.append_nil _).symm, fun _ =>
        ⟨List.not_mem_nil, List.not_mem_nil⟩⟩⟩ rfl⟩
    · show _ ∈ ready ↔ _
      rw [hready, List.mem_cons, or_iff_right nofun]
    · refine (List.mem_erase_of_ne ?_).2 hmem
      rintro rfl
      obtain ⟨data, mustCancel, hphase⟩ := Phase.isPending_iff.1 hn
      rw [show s.phase n = _ from hphase] at hdone
      cases hdone
  | step call => exact h.goOn hready

theorem grows_writeRest (s : State) (call : ℕ) (data taken rest : Bytes) :
    Grows s ({ s with sent := s.sent ++ taken }.writeRest call data rest) := by
  have hnone : ∃ more : List Handle, s.ready = s.ready ++ more ∧
      ∀ n, .step n ∉ more ∧ .removeWaiter n ∉ more :=
    ⟨[], (List.append_nil _).symm, fun _ => ⟨List.not_mem_nil, List.not_mem_nil⟩⟩
  unfold State.writeRest State.maybePauseProtocol
  split_ifs
  · exact ⟨rfl, fun _ _ => id, rfl, rfl, id, ⟨_, rfl⟩, List.prefix_append _ _, hnone⟩
  · exact ⟨rfl, fun _ _ => id, rfl, rfl, id, ⟨_, rfl⟩, List.prefix_append _ _, hnone⟩
  · exact ⟨rfl, fun _ _ => id, rfl, rfl, fun _ => rfl, ⟨_, rfl⟩, List.prefix_append _ _, hnone⟩

theorem accepted_writeRest (s : State) (call : ℕ) (data rest : Bytes) :
    (s.writeRest call data rest).accepted = s.accepted ++ [(call, data)] := by
  unfold State.writeRest State.maybePauseProtocol
  split_ifs <;> rfl

/-- The transport takes the bytes of the last call. -/
theorem CallsBut.accept (h : CallsBut but s) (hg : Grows s s')
    (haccepted : s'.accepted = s.accepted ++ [(call, data)]) (hcall : call < s.calls)
    (hbefore : ∀ x ∈ s.accepted, x.1 < call) : CallsBut but s' := by
  refine h.grows hg (fun x hx => ?_) ?_
  · rw [haccepted, List.mem_append, List.mem_singleton] at hx
    rw [hg.calls]
    rcases hx with hx | rfl
    · exact h.accepted x hx
    · exact hcall
  · rw [haccepted, List.map_append, List.map_singleton, List.pairwise_append]
    refine ⟨h.sorted, List.pairwise_singleton _ _, fun n hn m hm => ?_⟩
    obtain ⟨x, hx, rfl⟩ := List.mem_map.1 hn
    rw [List.mem_singleton.1 hm]
    exact hbefore x hx

theorem write_inv (ht : Transport s) (hc : CallsBut but s) (hcall : call < s.calls)
    (hbefore : ∀ x ∈ s.accepted, x.1 < call) {send : Send}
    (hwrite : s.write call data send = .ok s') : Transport s' ∧ CallsBut but s' ∧ Grows s s' ∧
      ((call, data) ∈ s'.accepted ∨ s'.connLost = true) := by
  have hmem : (call, data) ∈ s.accepted ++ [(call, data)] :=
    List.mem_append_right _ List.mem_cons_self
  unfold State.write at hwrite
  split_ifs at hwrite with heof hempty hconn hbuffer hsocket
  · -- nothing is written
    obtain rfl := Except.ok.inj hwrite
    have hst : State.stream { s with accepted := s.accepted ++ [(call, data)] } = s.stream := by
      rw [hempty]
      exact (stream_append rfl).trans (List.append_nil _)
    have hg : Grows s { s with accepted := s.accepted ++ [(call, data)] } :=
      ⟨rfl, fun _ _ => id, rfl, rfl, id, ⟨_, rfl⟩, List.prefix_rfl, ⟨[], (List.append_nil _).symm,
        fun _ => ⟨List.not_mem_nil, List.not_mem_nil⟩⟩⟩
    obtain ⟨isPrefix, flushed, taking, dropping, lost, noSocket, scheduled, shutdown⟩ := ht
    rw [← hst] at isPrefix flushed taking shutdown
    exact ⟨⟨isPrefix, flushed, taking, dropping, lost, noSocket, scheduled, shutdown⟩,
      hc.accept hg rfl hcall hbefore, hg, .inl hmem⟩
  · obtain rfl := Except.ok.inj hwrite
    exact ⟨ht, hc, .refl s, .inr hconn⟩
  · -- behind what is buffered
    obtain rfl := Except.ok.inj hwrite
    have hlost : s.flow.connectionLost = false := Bool.eq_false_iff.2 fun hl =>
      hbuffer (ht.lost hl).2
    have ht' := ht.writeRest call hlost (Bool.eq_false_iff.2 hconn)
      (Bool.eq_false_iff.2 heof) (List.nil_append data).symm (.inr rfl)
    have hg := grows_writeRest s call data [] data
    rw [List.append_nil] at ht' hg
    exact ⟨ht', hc.accept hg (accepted_writeRest ..) hcall hbefore, hg,
      .inl (by rw [accepted_writeRest]; exact hmem)⟩
  · have hlost : s.flow.connectionLost = false :=
      ht.noSocket.symm.trans (Bool.eq_false_iff.2 hsocket)
    cases send with
    | takes k =>
      obtain rfl := Except.ok.inj hwrite
      have ht' := ht.writeRest call hlost (Bool.eq_false_iff.2 hconn)
        (Bool.eq_false_iff.2 heof) (List.take_append_drop k data).symm (.inl (not_not.1 hbuffer))
      have hg := grows_writeRest s call data (data.take k) (data.drop k)
      exact ⟨ht', hc.accept hg (accepted_writeRest ..) hcall hbefore, hg,
        .inl (by rw [accepted_writeRest]; exact hmem)⟩
    | raises exc =>
      obtain rfl := Except.ok.inj hwrite
      have hg := grows_forceClose s (some exc)
      refine ⟨ht.forceClose (some exc), hc.grows_eq hg (accepted_forceClose ..), hg, .inr ?_⟩
      unfold State.forceClose
      rw [if_neg hconn]

theorem Inv.sendAll (h : Inv s) (data : Bytes) (send : Send) : Inv (s.sendAll data send) := by
  have ht : Transport { s with calls := s.calls + 1 } := h.transport.congr rfl fun _ => Iff.rfl
  have hc : CallsBut (fun n => n = s.calls) { s with calls := s.calls + 1 } := by
    refine ⟨fun n _ => h.calls.inv n id, fun n hn => h.calls.fresh n (Nat.le_of_succ_le hn),
      fun n hn hphase => ?_, fun x hx => Nat.lt_succ_of_lt (h.calls.accepted x hx), h.calls.sorted,
      fun n hn => Nat.lt_succ_of_lt (h.calls.steps n hn), h.calls.removes⟩
    by_contra hne
    exact h.calls.called n (Nat.lt_of_le_of_ne (Nat.le_of_lt_succ hn) hne) hphase
  have hcall := Nat.lt_succ_self s.calls
  unfold State.sendAll
  dsimp only
  split
  · next outcome hwrite =>
    refine ⟨ht.setPhase .., hc.ended (fun _ => id) hcall ?_⟩
    rintro rfl
    unfold State.write at hwrite
    split_ifs at hwrite
    · cases hwrite
    · cases hwrite
    · cases send <;> cases hwrite
  · next s' hwrite =>
    obtain ⟨ht', hc', hg, haccepted⟩ := write_inv ht hc hcall h.calls.accepted hwrite
    obtain ⟨more, hready, hmore⟩ := hg.ready
    refine drain_inv ht' hc' (fun _ => id) (hg.calls ▸ hcall) haccepted (fun hs => ?_) fun hr => ?_
    · rw [hready, List.mem_append] at hs
      exact absurd (h.calls.steps _ (hs.resolve_right (hmore _).1)) (lt_irrefl _)
    · rw [hready, List.mem_append] at hr
      have hdone := h.calls.removes _ (hr.resolve_right (hmore _).2)
      rw [h.calls.fresh _ le_rfl] at hdone
      cases hdone

/-! ## Runs -/

theorem step_inv {a : Action} (h : Inv s) (hstep : step s a = some s') : Inv s' := by
  cases a with
  | sendAll data send =>
    obtain rfl := Option.some.inj hstep
    exact h.sendAll data send
  | writeReady send =>
    obtain ⟨⟨hbuffer, hsocket⟩, hstep⟩ := Option.ite_none_right_eq_some.1 hstep
    obtain rfl := Option.some.inj hstep
    exact h.writeReady hbuffer hsocket send
  | writeEof =>
    obtain rfl := Option.some.inj hstep
    exact h.writeEof
  | aclose =>
    obtain rfl := Option.some.inj hstep
    exact h.aclose
  | close =>
    obtain rfl := Option.some.inj hstep
    exact h.close
  | fatalError exc =>
    obtain ⟨-, hstep⟩ := Option.ite_none_left_eq_some.1 hstep
    obtain rfl := Option.some.inj hstep
    exact h.forceClose (some exc)
  | cancel call =>
    obtain rfl := Option.some.inj hstep
    exact h.cancel call
  | run =>
    unfold step at hstep
    dsimp only at hstep
    split at hstep
    · cases hstep
    · next handle ready hready =>
      obtain rfl := Option.some.inj hstep
      exact h.runHandle hready

theorem inv_init : Inv {} where
  transport := ⟨List.prefix_rfl, fun _ _ => rfl, fun _ _ => ⟨rfl, by decide, rfl⟩, nofun, nofun, rfl,
    nofun, nofun⟩
  calls := ⟨fun _ _ => trivial, fun _ _ => rfl, nofun, nofun, List.Pairwise.nil, nofun, nofun⟩

theorem run_inv {as : List Action} (h : Trans.run step {} as = some s) : Inv s :=
  Trans.run_inv (fun _ _ _ => step_inv) inv_init h

/-- Nothing is left to run and nothing is buffered: every call has ended. -/
theorem Inv.at_rest (h : Inv s) (hready : s.ready = []) (hbuffer : s.buffer = []) (hn : n < s.calls) :
    ∃ data outcome, s.phase n = .ended data outcome := by
  have hinv := h.calls.inv n id
  have hnone : ∀ {handle}, handle ∉ s.ready := by
    rw [hready]
    exact List.not_mem_nil
  unfold CallInv at hinv
  rcases hphase : s.phase n with _ | _ | ⟨data, waiter, mustCancel⟩ | ⟨data, outcome⟩ <;>
    rw [hphase] at hinv
  · exact (h.calls.called n hn hphase).elim
  · exact absurd hinv.1 hnone
  · cases waiter with
    | pending =>
      obtain ⟨-, hpaused, hlost, -⟩ := hinv
      cases hconn : s.connLost with
      | false => exact absurd hbuffer ((h.transport.taking hconn hlost).2.1.1 hpaused)
      | true =>
        rcases (h.transport.dropping hconn).2.2 with hl | ⟨exc, hexc⟩
        · exact Bool.noConfusion (hl.symm.trans hlost)
        · exact absurd hexc hnone
    | result => exact absurd hinv.1 hnone
    | exception exc => exact absurd hinv hnone
    | cancelled => exact absurd hinv hnone
  · exact ⟨data, outcome, rfl⟩

/-- **`send_all`**, over every interleaving of calls with the callbacks of the loop, the socket, the
closing and the loss of the connection.  The socket takes what the transport has taken, in the order
of the calls; a call that returns has had its bytes, and all those before, taken by the socket; the
write end is not shut down before everything has been sent; and no call waits while the transport
has nothing to send, or once the loss of the connection has been reported. -/
theorem send_all_flushed {as : List Action} {s : State} (h : Trans.run step {} as = some s) :
    s.sent <+: s.stream ∧
    (s.accepted.map Prod.fst).Pairwise (· < ·) ∧
    (∀ n data, s.phase n = .ended data .returned → HasSent s n data) ∧
    (s.shutdown = true → s.sent = s.stream) ∧
    (s.flow.connectionLost = true → ∀ n, (s.phase n).isPending = false) ∧
    (s.ready = [] → s.buffer = [] →
      ∀ n < s.calls, ∃ data outcome, s.phase n = .ended data outcome) := by
  have hinv := run_inv h
  refine ⟨hinv.transport.isPrefix, hinv.calls.sorted, fun n data hphase => ?_, fun hs =>
    (hinv.transport.shutdown hs).2, fun hlost n => ?_,
    fun hready hbuffer n hn => hinv.at_rest hready hbuffer hn⟩
  · have hcall := hinv.calls.inv n id
    unfold CallInv at hcall
    rw [hphase] at hcall
    exact hcall
  · refine Bool.eq_false_iff.2 fun hn => ?_
    rw [(hinv.waits n hn).2] at hlost
    cases hlost

/-- Two calls: the second one waits behind the first, a part at a time. -/
theorem send_all_flushed_two : ∃ s before after, Trans.run step {}
      [.sendAll [1, 2, 3] (.takes 1), .sendAll [4] (.takes 0), .writeReady (.takes 2),
        .writeReady (.takes 1), .run, .run, .run, .run] = some s ∧
    s.phase 1 = .ended [4] .returned ∧ s.accepted = before ++ (1, [4]) :: after ∧
    before.flatMap Prod.snd ++ [4] <+: s.sent := by
  obtain ⟨s, hs⟩ : ∃ s, Trans.run step {}
      [.sendAll [1, 2, 3] (.takes 1), .sendAll [4] (.takes 0), .writeReady (.takes 2),
        .writeReady (.takes 1), .run, .run, .run, .run] = some s :=
    Option.isSome_iff_exists.1 (by decide)
  have hphase : some (s.phase 1) = some (.ended [4] .returned) := by
    rw [← Option.map_some (f := fun s : State => s.phase 1), ← hs]
    decide
  obtain ⟨-, -, hreturned, -⟩ := send_all_flushed hs
  obtain ⟨before, after, hsent⟩ := hreturned 1 [4] (Option.some.inj hphase)
  exact ⟨s, before, after, hs, Option.some.inj hphase, hsent⟩

end WriteFlow

end EasyNetwork
