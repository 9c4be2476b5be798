/-
  How often a datagram server starts a client coroutine.

  A client coroutine calls `datagram_received_cb` before it pops its first datagram.  When the
  callback raises, nothing is popped, and the end of the client coroutine starts another one for the
  same data.

  * `clientCoroutine_progress`: each client coroutine pops a datagram iff the callback does not
    raise when it is called; then there are at most as many client coroutines as datagrams.
-/
import EasyNetwork.ClientTasks

namespace EasyNetwork

namespace DatagramServer

variable {D : Type} {s s' : State D} {i : ℕ} {p : Phase} {raises : Bool}

/-! ## Starts -/

/-- `handler` goes on to `__client_coroutine` after `push_datagram`. -/
def State.startsClient (s : State D) : Bool :=
  s.clientData.state = none ∧ 0 < s.clientData.datagramQueue.length

/-- The step begins a client coroutine. -/
def starts (s : State D) : Action D → Bool
  | .handler datagram _ =>
    { s with clientData := s.clientData.append datagram : State D }.startsClient
  | .resume i _ =>
    match s.tasks[i]? with
    | some .pushHolds => s.startsClient
    | some .pending => true
    | _ => false
  | _ => false

/-- `datagram_received_cb` raises if the step calls it. -/
def Action.callbackRaises : Action D → Bool
  | .handler _ raises | .resume _ raises => raises
  | _ => false

/-- If the step begins a client coroutine, the callback does not raise. -/
def CallbackReturns (s : State D) (a : Action D) : Prop :=
  starts s a = true → a.callbackRaises = false

instance (s : State D) (a : Action D) : Decidable (CallbackReturns s a) :=
  inferInstanceAs (Decidable (_ → _))

/-- If the step begins a client coroutine, the client coroutine pops a datagram before it ends. -/
def PopsIfStarts (s : State D) (a : Action D) : Prop :=
  starts s a = true → ∀ s', step s a = some s' → s.popped.length < s'.popped.length

/-! ## What is popped -/

theorem popped_onClientCoroutineTaskDone (s : State D) :
    s.onClientCoroutineTaskDone.popped = s.popped := by
  unfold State.onClientCoroutineTaskDone
  split_ifs
  · rfl
  · cases s.clientData.markPending <;> rfl

theorem popped_clientCoroutineEnd (s : State D) (i : ℕ) :
    (s.clientCoroutineEnd i).popped = s.popped := by
  unfold State.clientCoroutineEnd
  cases s.clientData.markDone with
  | none => rfl
  | some clientData => exact popped_onClientCoroutineTaskDone _

/-- When the callback raises, the client coroutine pops nothing. -/
theorem popped_clientCoroutine_true (s : State D) (i : ℕ) :
    (s.clientCoroutine i true).popped = s.popped := by
  unfold State.clientCoroutine
  cases s.clientData.markRunning with
  | none => rfl
  | some clientData => exact popped_clientCoroutineEnd _ i

/-- When it returns, the client coroutine pops a datagram if there is one. -/
theorem popped_clientCoroutine_false {n : ℕ} (hn : n ≤ s.popped.length)
    (hstate : s.clientData.state = some .taskPending) (hqueue : s.clientData.datagramQueue ≠ []) :
    n < (s.clientCoroutine i false).popped.length := by
  have hmark : s.clientData.markRunning = some { s.clientData with state := some .taskRunning } :=
    if_neg (not_not.2 hstate)
  rcases hq : s.clientData.datagramQueue with _ | ⟨datagram, queue⟩
  · exact absurd hq hqueue
  · unfold State.clientCoroutine
    rw [hmark]
    simp only [Bool.false_eq_true, if_false, ClientData.popDatagramNoWait_cons (c := { s.clientData
      with state := some .taskRunning }) hq, List.length_append]
    exact Nat.lt_succ_of_le hn

theorem popped_clientCoroutine_le {n : ℕ} (hn : n ≤ s.popped.length) :
    n ≤ (s.clientCoroutine i raises).popped.length := by
  unfold State.clientCoroutine
  cases s.clientData.markRunning with
  | none => exact hn
  | some clientData =>
    show _ ≤ (if raises then _ else _ : State D).popped.length
    split_ifs
    · rw [popped_clientCoroutineEnd]
      exact hn
    · rcases clientData.popDatagramNoWait with _ | ⟨datagram, clientData⟩
      · show _ ≤ (State.clientCoroutineEnd _ i).popped.length
        rw [popped_clientCoroutineEnd]
        exact hn
      · show _ ≤ (s.popped ++ [datagram]).length
        rw [List.length_append]
        exact Nat.le_add_right_of_le hn

theorem handlerCheck_of_starts (h : s.startsClient = true) :
    s.handlerCheck i raises = State.clientCoroutine
      { s.setPhase i .pending with
        clientData := { s.clientData with state := some .taskPending } } i raises := by
  have hcheck := of_decide_eq_true h
  have hmark : s.clientData.markPending = some { s.clientData with state := some .taskPending } :=
    if_neg (not_not.2 hcheck.1)
  rw [State.handlerCheck, if_pos hcheck, hmark]

theorem handlerCheck_of_not_starts (h : s.startsClient = false) :
    s.handlerCheck i raises = s.setPhase i .ended :=
  if_neg (of_decide_eq_false h)

theorem popped_handlerCheck_le {n : ℕ} (hn : n ≤ s.popped.length) :
    n ≤ (s.handlerCheck i raises).popped.length := by
  rcases h : s.startsClient with _ | _
  · rw [handlerCheck_of_not_starts h]
    exact hn
  · rw [handlerCheck_of_starts h]
    exact popped_clientCoroutine_le hn

theorem popped_popDatagram_le (s : State D) (i : ℕ) :
    s.popped.length ≤ (s.popDatagram i).popped.length := by
  unfold State.popDatagram
  rcases s.clientData.popDatagramNoWait with _ | ⟨datagram, clientData⟩
  · exact Nat.le_refl _
  · show _ ≤ (s.popped ++ [datagram]).length
    rw [List.length_append]
    exact Nat.le_add_right _ _

/-- No step takes a popped datagram back. -/
theorem popped_le {a : Action D} (hs : step s a = some s') :
    s.popped.length ≤ s'.popped.length := by
  cases a with
  | handler datagram raises =>
    cases hs
    unfold State.handler
    show _ ≤ (if _ then _ else _ : State D).popped.length
    split_ifs
    · exact popped_handlerCheck_le (Nat.le_refl _)
    · exact Nat.le_refl _
  | acquire i =>
    simp only [step] at hs
    split at hs
    · cases hs
    split at hs <;> cases hs <;> exact Nat.le_refl _
  | resume i raises =>
    simp only [step] at hs
    split at hs <;> cases hs
    · exact popped_handlerCheck_le (Nat.le_refl _)
    · exact popped_clientCoroutine_le (Nat.le_refl _)
    · exact popped_popDatagram_le s i
    · exact Nat.le_refl _
  | yields i valid =>
    simp only [step] at hs
    split at hs <;> cases hs <;> exact Nat.le_refl _
  | stops i =>
    simp only [step] at hs
    have hend : s.popped.length ≤ (s.clientCoroutineEnd i).popped.length :=
      Nat.le_of_eq (congrArg List.length (popped_clientCoroutineEnd s i).symm)
    split at hs <;> cases hs <;> exact hend
  | timeout i =>
    simp only [step] at hs
    split at hs <;> cases hs <;> exact Nat.le_refl _
  | collect =>
    simp only [step] at hs
    split at hs <;> cases hs
    exact Nat.le_refl _

/-! ## A start -/

/-- What `handler` starts pops a datagram iff the callback does not raise. -/
theorem popped_handlerCheck_iff {n : ℕ} (hn : s.popped.length = n) (h : s.startsClient = true) :
    n < (s.handlerCheck i raises).popped.length ↔ raises = false := by
  rw [handlerCheck_of_starts h]
  cases raises
  · have hqueue := List.length_pos_iff.1 (of_decide_eq_true h).2
    exact iff_of_true (popped_clientCoroutine_false (Nat.le_of_eq hn.symm) rfl hqueue) rfl
  · rw [popped_clientCoroutine_true]
    exact iff_of_false (Nat.not_lt.2 (Nat.le_of_eq hn)) nofun

theorem popped_clientCoroutine_iff (hinv : Inv s) (hp : s.tasks[i]? = some .pending) :
    s.popped.length < (s.clientCoroutine i raises).popped.length ↔ raises = false := by
  have hstate := hinv.state_of_pending hp rfl
  cases raises
  · have hqueue := hinv.hasData hstate
    exact iff_of_true (popped_clientCoroutine_false (Nat.le_refl _) hstate hqueue) rfl
  · rw [popped_clientCoroutine_true]
    exact iff_of_false (Nat.lt_irrefl _) nofun

/-- **A client coroutine that begins pops a datagram iff the callback does not raise.** -/
theorem popped_iff {a : Action D} (hinv : Inv s) (hstarts : starts s a = true)
    (hs : step s a = some s') :
    s.popped.length < s'.popped.length ↔ a.callbackRaises = false := by
  cases a with
  | handler datagram raises =>
    cases hs
    unfold State.handler
    show _ < (if _ then _ else _ : State D).popped.length ↔ _
    rw [if_pos (of_decide_eq_true hstarts).1]
    exact popped_handlerCheck_iff rfl hstarts
  | resume i raises =>
    simp only [step] at hs
    split at hs <;> cases hs
    · next hp =>
      rw [starts, hp] at hstarts
      exact popped_handlerCheck_iff rfl hstarts
    · next hp => exact popped_clientCoroutine_iff hinv hp
    · next hp =>
      rw [starts, hp] at hstarts
      cases hstarts
    · next hp =>
      rw [starts, hp] at hstarts
      cases hstarts
  | _ => cases hstarts

/-- Every action that begins a client coroutine is possible. -/
theorem isSome_of_starts {a : Action D} (hstarts : starts s a = true) :
    ∃ s', step s a = some s' := by
  cases a with
  | handler datagram raises => exact ⟨_, rfl⟩
  | resume i raises =>
    simp only [starts] at hstarts
    split at hstarts
    · next hp => exact ⟨s.pushNotifies i raises, by rw [step, hp]⟩
    · next hp => exact ⟨s.clientCoroutine i raises, by rw [step, hp]⟩
    · cases hstarts
  | _ => cases hstarts

theorem popsIfStarts_iff {a : Action D} (hinv : Inv s) :
    PopsIfStarts s a ↔ CallbackReturns s a := by
  constructor
  · intro hpops hstarts
    obtain ⟨s', hs⟩ := isSome_of_starts hstarts
    exact (popped_iff hinv hstarts hs).1 (hpops hstarts s' hs)
  · intro hreturns hstarts s' hs
    exact (popped_iff hinv hstarts hs).2 (hreturns hstarts)

/-! ## Runs -/

/-- **A finite number of datagrams causes a finite number of client coroutines iff the callback does
    not raise when it is called**: in a run, each client coroutine that begins pops a datagram
    before it ends iff none of the calls of the callback raises; then there have been at most as
    many client coroutines as datagrams. -/
theorem clientCoroutine_progress {as : List (Action D)} (h : Trans.run step {} as = some s) :
    (Trans.Meets step PopsIfStarts {} as ↔ Trans.Meets step CallbackReturns {} as) ∧
      (Trans.Meets step CallbackReturns {} as →
        Trans.count step starts {} as ≤ s.pushed.length) := by
  refine ⟨Trans.meets_congr (fun _ _ _ hinv _ => popsIfStarts_iff hinv)
    (fun _ _ _ hinv _ => hinv.step) Inv.init h, fun hreturns => ?_⟩
  have hcount := Trans.count_le (fun s : State D => s.popped.length) (fun _ _ _ => Inv.step)
    (fun _ _ _ hinv hok hstarts hs => (popped_iff hinv hstarts hs).2 (hok hstarts))
    (fun _ _ _ _ _ => popped_le) Inv.init hreturns h
  have hinv : Inv s := Trans.run_inv (fun _ _ _ => Inv.step) Inv.init h
  rw [hinv.fifo, List.length_append]
  exact Nat.le_trans (Nat.le_trans (Nat.le_add_left _ _) hcount) (Nat.le_add_right _ _)

/-- Two datagrams, the second of which is left for a second client coroutine. -/
theorem clientCoroutine_progress_two : ∃ s, Trans.run step ({} : State ℕ)
      [.handler 1 false, .handler 2 false, .stops 0, .acquire 1, .resume 1 false, .resume 2 false]
        = some s ∧ Trans.count step starts ({} : State ℕ)
      [.handler 1 false, .handler 2 false, .stops 0, .acquire 1, .resume 1 false, .resume 2 false]
        ≤ s.pushed.length := by
  obtain ⟨s, hs⟩ : ∃ s, Trans.run step ({} : State ℕ)
      [.handler 1 false, .handler 2 false, .stops 0, .acquire 1, .resume 1 false, .resume 2 false]
        = some s := ⟨_, rfl⟩
  exact ⟨s, hs, (clientCoroutine_progress hs).2 (by decide)⟩

/-- The callback raises each time it is called: one datagram has started three client coroutines,
    and is still in the queue. -/
theorem callback_raises_again : ∃ s, Trans.run step ({} : State ℕ)
      [.handler 1 true, .resume 1 true, .resume 2 true] = some s ∧ s.popped = [] ∧
        s.pushed.length < Trans.count step starts ({} : State ℕ)
          [.handler 1 true, .resume 1 true, .resume 2 true] := by
  refine ⟨_, rfl, rfl, ?_⟩
  decide

end DatagramServer

end EasyNetwork
