/-
  The client coroutines of a datagram server.

  * `Inv`: the state of the client data says how many client coroutines there are, and data that
    no client coroutine will take has been pushed by a handler that has not checked the state yet.
  * `serve_consistent`: at most one client coroutine is pending or running, and the datagrams are
    popped in the order in which they were pushed; when all tasks have gone on, none is left.
-/
import EasyNetwork.DatagramServer

namespace EasyNetwork

namespace DatagramServer

variable {D : Type} {s s' : State D} {i : ℕ} {p q : Phase} {raises : Bool}

/-! ## Counting tasks -/

theorem countP_set {ts : List Phase} (h : ts[i]? = some p) (f : Phase → Bool) (q : Phase) :
    (ts.set i q).countP f + (f p).toNat = ts.countP f + (f q).toNat := by
  induction ts generalizing i with
  | nil => cases h
  | cons t ts ih =>
    cases i with
    | zero =>
      cases h
      simp only [List.set_cons_zero, List.countP_cons]
      cases f p <;> cases f q <;> simp
    | succ i =>
      have := ih (i := i) h
      simp only [List.set_cons_succ, List.countP_cons]
      omega

theorem countP_pos {ts : List Phase} {f : Phase → Bool} (h : ts[i]? = some p) (hf : f p = true) :
    0 < ts.countP f := by
  rw [List.countP_pos_iff]
  exact ⟨p, List.mem_of_getElem? h, hf⟩

theorem countP_isClient (ts : List Phase) :
    ts.countP Phase.isClient = ts.countP Phase.isPending + ts.countP Phase.isRunning := by
  induction ts with
  | nil => rfl
  | cons t ts ih =>
    simp only [List.countP_cons, ih]
    cases t <;> simp [Phase.isClient, Phase.isPending, Phase.isRunning] <;> omega

/-- A notification concerns client coroutines only, and moves none. -/
theorem countP_notify {f : Phase → Bool} (hf : f .popWaits = f (.popReacquires false))
    (ts : List Phase) : (notify ts).countP f = ts.countP f := by
  induction ts with
  | nil => rfl
  | cons t ts ih =>
    cases t <;> simp only [notify, List.countP_cons, ih, hf]

theorem getElem?_notify {ts : List Phase} (h : ts[i]? = some p) (hp : p ≠ .popWaits) :
    (notify ts)[i]? = some p := by
  induction ts generalizing i with
  | nil => cases h
  | cons t ts ih =>
    cases i with
    | zero =>
      cases h
      cases p with
      | popWaits => exact absurd rfl hp
      | _ => rfl
    | succ i =>
      cases t with
      | popWaits => exact h
      | _ => exact ih h

/-! ## The invariant -/

/-- What holds between two steps. -/
structure Inv (s : State D) : Prop where
  pending : s.tasks.countP Phase.isPending =
    if s.clientData.state = some .taskPending then 1 else 0
  running : s.tasks.countP Phase.isRunning =
    if s.clientData.state = some .taskRunning then 1 else 0
  consistent : s.inconsistent = false
  fifo : s.pushed = s.popped ++ s.clientData.datagramQueue
  hasData : s.clientData.state = some .taskPending → s.clientData.datagramQueue ≠ []
  checked : s.clientData.state = none → s.clientData.datagramQueue ≠ [] →
    0 < s.tasks.countP Phase.isPushing

theorem Inv.init : Inv ({} : State D) :=
  ⟨rfl, rfl, rfl, rfl, nofun, fun _ h => absurd rfl h⟩

namespace Inv

theorem state_of_pending (h : Inv s) (hp : s.tasks[i]? = some p) (hc : p.isPending = true) :
    s.clientData.state = some .taskPending := by
  have hpos := countP_pos hp hc
  rw [h.pending] at hpos
  by_contra hne
  rw [if_neg hne] at hpos
  exact absurd hpos (Nat.lt_irrefl 0)

theorem state_of_running (h : Inv s) (hp : s.tasks[i]? = some p) (hc : p.isRunning = true) :
    s.clientData.state = some .taskRunning := by
  have hpos := countP_pos hp hc
  rw [h.running] at hpos
  by_contra hne
  rw [if_neg hne] at hpos
  exact absurd hpos (Nat.lt_irrefl 0)

/-- A task goes on, and takes the lock or releases it. -/
theorem move (h : Inv s) (hp : s.tasks[i]? = some p) (q : Phase)
    (hpending : p.isPending = q.isPending) (hrunning : p.isRunning = q.isRunning)
    (hpushing : p.isPushing = q.isPushing) (lock : Option ℕ) :
    Inv { s.setPhase i q with clientData := { s.clientData with lockHolder := lock } } := by
  have h1 := countP_set hp Phase.isPending q
  have h2 := countP_set hp Phase.isRunning q
  have h3 := countP_set hp Phase.isPushing q
  rw [hpending, Nat.add_right_cancel_iff] at h1
  rw [hrunning, Nat.add_right_cancel_iff] at h2
  rw [hpushing, Nat.add_right_cancel_iff] at h3
  exact ⟨h1.trans h.pending, h2.trans h.running, h.consistent, h.fifo, h.hasData,
    fun hs hq => h3 ▸ h.checked hs hq⟩

/-- A running client coroutine takes the first datagram, and releases the lock if it holds it. -/
theorem pop (h : Inv s) (hp : s.tasks[i]? = some p) (hp' : p.isRunning = true)
    (hq : q.isRunning = true) {datagram : D} {queue : List D}
    (hqueue : s.clientData.datagramQueue = datagram :: queue) (lock : Option ℕ) :
    Inv { s.setPhase i q with
      clientData := { s.clientData with datagramQueue := queue, lockHolder := lock }
      popped := s.popped ++ [datagram] } := by
  have hstate := h.state_of_running hp hp'
  have hpending : p.isPending = q.isPending := by
    cases p <;> cases hp' <;> cases q <;> cases hq <;> rfl
  have hpushing : p.isPushing = q.isPushing := by
    cases p <;> cases hp' <;> cases q <;> cases hq <;> rfl
  have hmoved := h.move hp q hpending (hp'.trans hq.symm) hpushing lock
  refine ⟨hmoved.pending, hmoved.running, h.consistent, ?_, fun hs => ?_, fun hs => ?_⟩
  · have hfifo := h.fifo
    rw [hqueue] at hfifo
    rw [List.append_assoc]
    exact hfifo
  · rw [hstate] at hs
    cases hs
  · rw [hstate] at hs
    cases hs

end Inv

/-! ## One lemma for each part of a task -/

namespace Inv

/-- The client coroutine ends; it starts another one iff data is left. -/
theorem clientCoroutineEnd (h : Inv s) (hp : s.tasks[i]? = some p) (hr : p.isRunning = true) :
    Inv (s.clientCoroutineEnd i) := by
  have hstate := h.state_of_running hp hr
  have hended := countP_set hp Phase.isRunning .ended
  have hnone := countP_set hp Phase.isPending .ended
  have hp' : p.isPending = false := by cases p <;> cases hr <;> rfl
  rw [h.running, if_pos hstate, hr] at hended
  rw [h.pending, if_neg (by rw [hstate]; nofun), hp'] at hnone
  have hrunning : (s.tasks.set i .ended).countP Phase.isRunning = 0 := Nat.add_right_cancel hended
  have hpending : (s.tasks.set i .ended).countP Phase.isPending = 0 := hnone
  have hdone : s.clientData.markDone = some { s.clientData with state := none } :=
    if_neg (not_not.2 hstate)
  unfold State.clientCoroutineEnd
  rw [hdone]
  show Inv (State.onClientCoroutineTaskDone _)
  unfold State.onClientCoroutineTaskDone
  by_cases hqueue : s.clientData.datagramQueue = []
  · rw [if_pos (by simp [ClientData.queueIsEmpty, hqueue])]
    exact ⟨hpending, hrunning, h.consistent, h.fifo, nofun, fun _ hne => absurd hqueue hne⟩
  · rw [if_neg (by simp [ClientData.queueIsEmpty, hqueue])]
    refine ⟨?_, ?_, h.consistent, h.fifo, fun _ => hqueue, nofun⟩
    · show (s.tasks.set i .ended ++ [Phase.pending]).countP Phase.isPending = 1
      rw [List.countP_append, hpending]
      rfl
    · show (s.tasks.set i .ended ++ [Phase.pending]).countP Phase.isRunning = 0
      rw [List.countP_append, hrunning]
      rfl

/-- A pending client coroutine begins. -/
theorem begin (h : Inv s) (hp : s.tasks[i]? = some .pending) :
    Inv { s.setPhase i .anext with
      clientData := { s.clientData with state := some .taskRunning } } := by
  have hstate := h.state_of_pending hp rfl
  have hpending := countP_set hp Phase.isPending .anext
  have hrunning := countP_set hp Phase.isRunning .anext
  rw [h.pending, if_pos hstate] at hpending
  rw [h.running, if_neg (by rw [hstate]; nofun)] at hrunning
  exact ⟨Nat.add_right_cancel hpending, hrunning, h.consistent, h.fifo, nofun, nofun⟩

theorem clientCoroutine (h : Inv s) (hp : s.tasks[i]? = some .pending) :
    Inv (s.clientCoroutine i raises) := by
  have hbegun := h.begin hp
  have hi : (s.tasks.set i .anext)[i]? = some .anext :=
    List.getElem?_set_self (List.getElem?_eq_some_iff.1 hp).1
  have hmark : s.clientData.markRunning = some { s.clientData with state := some .taskRunning } :=
    if_neg (not_not.2 (h.state_of_pending hp rfl))
  unfold State.clientCoroutine
  rw [hmark]
  show Inv (if raises then _ else _)
  split_ifs
  · exact hbegun.clientCoroutineEnd hi rfl
  · rcases hqueue : s.clientData.datagramQueue with _ | ⟨datagram, queue⟩
    · simp only [ClientData.popDatagramNoWait_nil (c := { s.clientData with
        state := some .taskRunning }) hqueue]
      exact hbegun.clientCoroutineEnd hi rfl
    · simp only [ClientData.popDatagramNoWait_cons (c := { s.clientData with
        state := some .taskRunning }) hqueue]
      have hpopped := hbegun.pop (q := .anext) hi rfl rfl hqueue s.clientData.lockHolder
      simp only [State.setPhase, List.set_set] at hpopped
      exact hpopped

/-- A handler starts the client coroutine iff there is none and data is left. -/
theorem handlerCheck (h : Inv s) (hp : s.tasks[i]? = some p) (hpush : p.isPushing = true) :
    Inv (s.handlerCheck i raises) := by
  have hp1 : p.isPending = false := by cases p <;> cases hpush <;> rfl
  have hp2 : p.isRunning = false := by cases p <;> cases hpush <;> rfl
  unfold State.handlerCheck
  split_ifs with hcheck
  · obtain ⟨hstate, hlen⟩ := hcheck
    have hmark : s.clientData.markPending = some { s.clientData with state := some .taskPending } :=
      if_neg (not_not.2 hstate)
    rw [hmark]
    show Inv (State.clientCoroutine _ _ _)
    have hi : (s.tasks.set i .pending)[i]? = some .pending :=
      List.getElem?_set_self (List.getElem?_eq_some_iff.1 hp).1
    refine clientCoroutine ?_ hi
    have hpending := countP_set hp Phase.isPending .pending
    have hrunning := countP_set hp Phase.isRunning .pending
    rw [h.pending, if_neg (by rw [hstate]; nofun), hp1] at hpending
    rw [h.running, if_neg (by rw [hstate]; nofun), hp2] at hrunning
    exact ⟨hpending, hrunning, h.consistent, h.fifo, fun _ => List.length_pos_iff.1 hlen, nofun⟩
  · have hpending := countP_set hp Phase.isPending .ended
    have hrunning := countP_set hp Phase.isRunning .ended
    rw [hp1] at hpending
    rw [hp2] at hrunning
    refine ⟨hpending.trans h.pending, hrunning.trans h.running, h.consistent, h.fifo, h.hasData,
      fun hs hne => absurd ⟨hs, List.length_pos_iff.2 hne⟩ hcheck⟩

/-- A datagram is pushed. -/
theorem push (h : Inv s) (datagram : D) :
    Inv { s with
      clientData := s.clientData.append datagram
      tasks := s.tasks ++ [.pushAcquires]
      pushed := s.pushed ++ [datagram] } where
  pending := by
    rw [List.countP_append]
    exact h.pending
  running := by
    rw [List.countP_append]
    exact h.running
  consistent := h.consistent
  fifo := by
    show _ = s.popped ++ (s.clientData.datagramQueue ++ [datagram])
    rw [h.fifo, List.append_assoc]
  hasData _ := by simp [ClientData.append]
  checked _ _ := by
    rw [List.countP_append]
    exact Nat.lt_add_left _ Nat.zero_lt_one

theorem handler (h : Inv s) (datagram : D) : Inv (s.handler datagram raises) := by
  unfold State.handler
  show Inv (if _ then _ else _)
  split_ifs
  · refine (h.push datagram).handlerCheck ?_ (p := .pushAcquires) rfl
    simp
  · exact h.push datagram

theorem pushNotifies (h : Inv s) (hp : s.tasks[i]? = some .pushHolds) :
    Inv (s.pushNotifies i raises) := by
  refine handlerCheck ⟨?_, ?_, h.consistent, h.fifo, h.hasData, fun hs hne => ?_⟩
    (getElem?_notify hp nofun) rfl
  · exact (countP_notify (f := Phase.isPending) rfl _).trans h.pending
  · exact (countP_notify (f := Phase.isRunning) rfl _).trans h.running
  · have hpushing := countP_notify (f := Phase.isPushing) rfl s.tasks
    exact hpushing.symm ▸ h.checked hs hne

theorem popDatagram (h : Inv s) (hp : s.tasks[i]? = some (.popHolds false)) :
    Inv (s.popDatagram i) := by
  unfold State.popDatagram
  rcases hqueue : s.clientData.datagramQueue with _ | ⟨datagram, queue⟩
  · rw [ClientData.popDatagramNoWait_nil hqueue]
    exact h.move hp .popWaits rfl rfl rfl none
  · rw [ClientData.popDatagramNoWait_cons hqueue]
    exact h.pop hp rfl rfl hqueue none

/-- Without a client coroutine, and without a handler that has not checked the state, nothing is
    left in the queue. -/
theorem queue_eq_nil (h : Inv s)
    (hall : ∀ p ∈ s.tasks, p.isClient = false ∧ p.isPushing = false) :
    s.clientData.datagramQueue = [] := by
  have hclient : s.tasks.countP Phase.isClient = 0 :=
    List.countP_eq_zero.2 fun p hp => Bool.eq_false_iff.1 (hall p hp).1
  have hpushing : s.tasks.countP Phase.isPushing = 0 :=
    List.countP_eq_zero.2 fun p hp => Bool.eq_false_iff.1 (hall p hp).2
  rw [countP_isClient, h.pending, h.running] at hclient
  by_contra hne
  rcases hs : s.clientData.state with _ | _ | _
  · have hpos := h.checked hs hne
    rw [hpushing] at hpos
    exact absurd hpos (Nat.lt_irrefl 0)
  · rw [hs] at hclient
    cases hclient
  · rw [hs] at hclient
    cases hclient

/-- The client data that the weak cache drops is as good as new. -/
theorem collect (h : Inv s) (hall : ∀ p ∈ s.tasks, p = .ended) :
    Inv { s with clientData := {} } := by
  have hzero : ∀ f : Phase → Bool, f .ended = false → s.tasks.countP f = 0 := by
    intro f hf
    refine List.countP_eq_zero.2 fun p hp => ?_
    rw [hall p hp, hf]
    exact Bool.false_ne_true
  have hqueue := h.queue_eq_nil fun p hp => by rw [hall p hp]; exact ⟨rfl, rfl⟩
  have hfifo := h.fifo
  rw [hqueue] at hfifo
  exact ⟨hzero _ rfl, hzero _ rfl, h.consistent, hfifo, nofun, fun _ hne => absurd rfl hne⟩

/-! ## Runs -/

/-- **Step lemma.** -/
theorem step {a : Action D} (h : Inv s) (hs : step s a = some s') : Inv s' := by
  cases a with
  | handler datagram raises =>
    cases hs
    exact h.handler datagram
  | acquire i =>
    simp only [DatagramServer.step] at hs
    split at hs
    · cases hs
    split at hs <;> cases hs
    · next hp => exact h.move hp .pushHolds rfl rfl rfl (some i)
    · next hp => exact h.move hp (.popHolds false) rfl rfl rfl (some i)
    · next hp => exact h.move hp (.popHolds _) rfl rfl rfl (some i)
  | resume i raises =>
    simp only [DatagramServer.step] at hs
    split at hs <;> cases hs
    · next hp => exact h.pushNotifies hp
    · next hp => exact h.clientCoroutine hp
    · next hp => exact h.popDatagram hp
    · next hp => exact h.move hp .generator rfl rfl rfl none
  | yields i valid =>
    simp only [DatagramServer.step] at hs
    split at hs <;> cases hs
    · next hp => exact h.move hp .generator rfl rfl rfl s.clientData.lockHolder
    · next hp =>
      cases valid
      · exact h.move hp .generator rfl rfl rfl s.clientData.lockHolder
      · exact h.move hp .popAcquires rfl rfl rfl s.clientData.lockHolder
  | stops i =>
    simp only [DatagramServer.step] at hs
    split at hs <;> cases hs
    · next hp => exact h.clientCoroutineEnd hp rfl
    · next hp => exact h.clientCoroutineEnd hp rfl
  | timeout i =>
    simp only [DatagramServer.step] at hs
    split at hs <;> cases hs
    · next hp => exact h.move hp .generator rfl rfl rfl s.clientData.lockHolder
    · next hp => exact h.move hp (.popReacquires true) rfl rfl rfl s.clientData.lockHolder
    · next hp => exact h.move hp (.popReacquires true) rfl rfl rfl s.clientData.lockHolder
  | collect =>
    simp only [DatagramServer.step] at hs
    split at hs <;> cases hs
    exact h.collect ‹_›

end Inv

end DatagramServer

end EasyNetwork
