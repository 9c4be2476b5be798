/-
  The runs of the asyncio stream listener.

  `listener_ready` only accepts while the future of `__infinite_serve` is pending, and the task
  group of `_serve_raw` cancels this future as soon as it shuts down; so the callback never starts a
  task that the task group refuses.  The other hand-overs have no such guard.

  `settled_iff`: when everything has ended, every socket has been closed or has got a handler iff no
  task has been cancelled before its first step, no stream has been handed to a task group that is
  shutting down, `serve()` has not been cancelled between the end of `sock_accept()` and its own
  next step, and no `setblocking(False)` has raised.
-/
import EasyNetwork.StreamListener

namespace EasyNetwork

namespace StreamListener

/-! ## The invariant -/

/-- What holds between two steps of a run that is safe. -/
structure Inv (s : State) : Prop where
  noLeak : .leaked ∉ s.sockets
  /-- `serve()` is about to get the result of `sock_accept()` -/
  result : ∀ i, s.sockets[i]? = some .result ↔ s.serve = .accepted i
  pending : s.future = .pending → s.serve = .reading ∧ s.cancelling = false
  /-- the task group of `_serve_raw` takes no task: `serve()` is about to leave it -/
  aborted : s.connectionsAborted = true → s.serve.waiting = true → s.cancelling = true

section
variable {s s' : State} {c : Config} {a : Action} {i : ℕ} {x y : SocketState}
  {l : List SocketState}

theorem leaked_mem_set_iff (hi : l[i]? = some x) (hx : x ≠ .leaked) :
    .leaked ∈ l.set i y ↔ y = .leaked ∨ .leaked ∈ l := by
  obtain ⟨hlt, hget⟩ := List.getElem?_eq_some_iff.1 hi
  constructor
  · intro h
    rcases List.mem_or_eq_of_mem_set h with h | h
    · exact .inr h
    · exact .inl h.symm
  · rintro (rfl | h)
    · exact List.mem_set hlt _
    · obtain ⟨j, hj⟩ := List.mem_iff_getElem?.1 h
      refine List.mem_iff_getElem?.2 ⟨j, ?_⟩
      rw [List.getElem?_set_ne, hj]
      rintro rfl
      exact hx (Option.some.inj (hi.symm.trans hj))

theorem Future.cancel_ne_pending (f : Future) : f.cancel ≠ .pending := by
  cases f <;> nofun

theorem cancelConnection_eq_leaked : x.cancelConnection = .leaked ↔ x = .leaked := by
  cases x <;> simp [SocketState.cancelConnection]

theorem cancelConnection_eq_result : x.cancelConnection = .result ↔ x = .result := by
  cases x <;> simp [SocketState.cancelConnection]

theorem cancelHandler_eq_leaked : x.cancelHandler = .leaked ↔ x = .leaked := by
  cases x <;> simp [SocketState.cancelHandler]

theorem cancelHandler_eq_result : x.cancelHandler = .result ↔ x = .result := by
  cases x <;> simp [SocketState.cancelHandler]

theorem leaked_mem_map_iff {f : SocketState → SocketState}
    (hf : ∀ x, f x = .leaked ↔ x = .leaked) : .leaked ∈ l.map f ↔ .leaked ∈ l := by
  rw [List.mem_map]
  constructor
  · rintro ⟨x, hx, he⟩
    rw [hf] at he
    exact he ▸ hx
  · exact fun h => ⟨.leaked, h, (hf .leaked).2 rfl⟩

/-! ### What is leaked stays so -/

theorem sockets_cancelServe : s.cancelServe.sockets = s.sockets := by
  unfold State.cancelServe
  split_ifs <;> rfl

theorem leaked_mem_setSocket (hi : s.sockets[i]? = some x) (hx : x ≠ .leaked)
    (h : .leaked ∈ s.sockets) : .leaked ∈ (s.setSocket i y).sockets :=
  (leaked_mem_set_iff hi hx).2 (.inr h)

theorem leaked_mem_abortConnections :
    .leaked ∈ s.abortConnections.sockets ↔ .leaked ∈ s.sockets :=
  leaked_mem_map_iff fun _ => cancelConnection_eq_leaked

theorem leaked_mem_abortHandlers : .leaked ∈ s.abortHandlers.sockets ↔ .leaked ∈ s.sockets :=
  leaked_mem_map_iff fun _ => cancelHandler_eq_leaked

theorem sockets_acceptFailed (error : AcceptError) :
    (s.acceptFailed error).sockets = s.sockets := by
  cases error <;> rfl

theorem leaked_mem_accept {n : ℕ} {results : List AcceptResult} (h : .leaked ∈ s.sockets) :
    .leaked ∈ (State.accept n results s).sockets := by
  induction n, results, s using State.accept.induct with
  | case1 => rwa [State.accept]
  | case2 => rwa [State.accept]
  | case3 n results s haborted =>
    rw [State.accept, if_pos haborted]
    exact List.mem_append_left _ h
  | case4 n results s haborted ih =>
    rw [State.accept, if_neg haborted]
    exact ih (List.mem_append_left _ h)
  | case5 n results s _ ih =>
    rw [State.accept, if_pos rfl]
    exact ih (List.mem_append_left _ h)
  | case6 n error results s herror =>
    rw [State.accept, if_neg herror, sockets_acceptFailed]
    exact List.mem_append_left _ h
  | case7 n results s ih =>
    rw [State.accept, if_pos rfl]
    exact ih h
  | case8 n error results s herror => rwa [State.accept, if_neg herror, sockets_acceptFailed]

theorem leaked_mem_resume (h : .leaked ∈ s.sockets) (hs : s.resume = some s') :
    .leaked ∈ s'.sockets := by
  have hleave : .leaked ∈ s.leave.sockets := leaked_mem_abortConnections.2 h
  unfold State.resume at hs
  split at hs
  · split_ifs at hs
    cases hs
    exact hleave
  · split_ifs at hs
    cases hs
    exact hleave
  · next i hserve =>
    split_ifs at hs with hi hcancel
    all_goals
      have hset (y : SocketState) : .leaked ∈ (s.setSocket i y).sockets :=
        leaked_mem_setSocket hi nofun h
    · cases hs
      exact leaked_mem_abortConnections.2 (hset .leaked)
    · cases hs
      unfold State.startConnection
      split_ifs
      · exact leaked_mem_abortConnections.2 (hset .leaked)
      · exact hset _
  · split_ifs at hs
    · cases hs
      exact hleave
    · split at hs <;> cases hs
      · exact h
      · exact h
      · exact hleave
  · split_ifs at hs <;> cases hs
    · exact hleave
    · exact h
  · cases hs

/-- A socket that has been leaked is never found again. -/
theorem step_leaked (h : .leaked ∈ s.sockets) (hs : step c s a = some s') :
    .leaked ∈ s'.sockets := by
  cases a with
  | serve =>
    simp only [step] at hs
    split_ifs at hs
    cases hs
    unfold State.start
    split_ifs <;> exact h
  | cancelServe =>
    cases hs
    rwa [sockets_cancelServe]
  | aclose =>
    cases hs
    unfold State.aclose
    split_ifs
    · exact h
    · rwa [sockets_cancelServe]
  | ready results =>
    simp only [step] at hs
    split_ifs at hs
    cases hs
    unfold State.listenerReady
    split_ifs
    · exact leaked_mem_accept h
    · exact h
  | retry | futureDone =>
    simp only [step] at hs
    split_ifs at hs
    cases hs
    exact h
  | sockAccept error =>
    simp only [step] at hs
    split_ifs at hs
    cases error <;> cases hs
    · exact List.mem_append_left _ h
    · exact h
  | resume => exact leaked_mem_resume h hs
  | connectionStep i | handlerStep i =>
    simp only [step] at hs
    split at hs <;> cases hs
    next hi => exact leaked_mem_setSocket hi nofun h
  | connected i result =>
    simp only [step] at hs
    split_ifs at hs with hi
    cases hs
    cases result
    case stream =>
      unfold State.connected
      split_ifs <;> exact leaked_mem_setSocket hi nofun h
    all_goals exact leaked_mem_setSocket hi nofun h
  | cancelTask i =>
    simp only [step, Option.map_eq_some_iff] at hs
    obtain ⟨x, hi, rfl⟩ := hs
    by_cases hx : x = .leaked
    · subst hx
      exact List.mem_set (List.getElem?_eq_some_iff.1 hi).1 _
    · exact leaked_mem_setSocket hi hx h
  | connectionsAbort =>
    simp only [step] at hs
    split_ifs at hs
    cases hs
    rw [sockets_cancelServe]
    exact leaked_mem_abortConnections.2 h
  | handlersAbort =>
    simp only [step] at hs
    split_ifs at hs <;> cases hs
    · rw [sockets_cancelServe]
      exact leaked_mem_abortHandlers.2 h
    · exact leaked_mem_abortHandlers.2 h
  | connectionsDone =>
    simp only [step] at hs
    split_ifs at hs
    cases hs
    unfold State.exitConnections
    split_ifs
    · exact leaked_mem_abortHandlers.2 h
    · exact h
  | handlersDone =>
    simp only [step] at hs
    split_ifs at hs
    cases hs
    exact h

/-! ### The steps that keep the invariant -/

namespace Inv

theorem init : Inv {} where
  noLeak := List.not_mem_nil
  result i := by simp
  pending := nofun
  aborted := nofun

/-- A socket goes on, and is not leaked. -/
theorem setSocket (h : Inv s) (hi : s.sockets[i]? = some x) (hresult : y = .result ↔ x = .result)
    (hleak : y ≠ .leaked) : Inv (s.setSocket i y) where
  noLeak hmem := by
    have hne : x ≠ .leaked := by
      rintro rfl
      exact h.noLeak (List.mem_of_getElem? hi)
    exact ((leaked_mem_set_iff hi hne).1 hmem).elim hleak h.noLeak
  result j := by
    refine Iff.trans ?_ (h.result j)
    show (s.sockets.set i y)[j]? = _ ↔ _
    by_cases hij : i = j
    · subst hij
      rw [List.getElem?_set_self (List.getElem?_eq_some_iff.1 hi).1, hi, Option.some.injEq,
        Option.some.injEq, hresult]
    · rw [List.getElem?_set_ne hij]
  pending := h.pending
  aborted := h.aborted

/-- The same for a socket that has not been, nor becomes, the result of `sock_accept()`. -/
theorem moveSocket (h : Inv s) (hi : s.sockets[i]? = some x) (hx : x ≠ .result) (hy : y ≠ .result)
    (hleak : y ≠ .leaked) : Inv (s.setSocket i y) :=
  h.setSocket hi (iff_of_false hy hx) hleak

/-- A task is cancelled before its first step. -/
theorem cancelTask (h : Inv s) (hi : s.sockets[i]? = some x) :
    Inv (s.setSocket i x.cancelConnection.cancelHandler) := by
  refine h.setSocket hi (cancelHandler_eq_result.trans cancelConnection_eq_result) fun hc => ?_
  rw [cancelHandler_eq_leaked, cancelConnection_eq_leaked] at hc
  rw [hc] at hi
  exact h.noLeak (List.mem_of_getElem? hi)

/-- `accept()` has returned a socket, whose task is started. -/
theorem push (h : Inv s) :
    Inv { s with sockets := s.sockets ++ [.connectionTask false] } where
  noLeak := by simpa using h.noLeak
  result j := by
    refine Iff.trans ?_ (h.result j)
    simp only [List.getElem?_append, List.getElem?_singleton]
    split_ifs with hj hlast
    · exact Iff.rfl
    · simp [List.getElem?_eq_none (Nat.le_of_not_lt hj)]
    · simp [List.getElem?_eq_none (Nat.le_of_not_lt hj)]
  pending := h.pending
  aborted := h.aborted

theorem map (h : Inv s) {f : SocketState → SocketState}
    (hleaked : ∀ x, f x = .leaked ↔ x = .leaked) (hresult : ∀ x, f x = .result ↔ x = .result) :
    Inv { s with sockets := s.sockets.map f } where
  noLeak hmem := h.noLeak ((leaked_mem_map_iff hleaked).1 hmem)
  result j := by
    refine Iff.trans ?_ (h.result j)
    show (s.sockets.map f)[j]? = _ ↔ _
    rw [List.getElem?_map, Option.map_eq_some_iff]
    simp only [hresult, exists_eq_right]
  pending := h.pending
  aborted := h.aborted

theorem cancelConnections (h : Inv s) :
    Inv { s with sockets := s.sockets.map SocketState.cancelConnection } :=
  h.map (fun _ => cancelConnection_eq_leaked) fun _ => cancelConnection_eq_result

theorem abortHandlers (h : Inv s) : Inv s.abortHandlers :=
  have hmap := h.map (fun _ => cancelHandler_eq_leaked) fun _ => cancelHandler_eq_result
  ⟨hmap.noLeak, hmap.result, hmap.pending, hmap.aborted⟩

theorem cancelServe (h : Inv s) : Inv s.cancelServe := by
  unfold State.cancelServe
  split_ifs
  · exact ⟨h.noLeak, h.result, fun hpending => absurd hpending s.future.cancel_ne_pending,
      fun _ _ => rfl⟩
  · exact h

/-- When the task group of `_serve_raw` learns that a task has failed, `serve()` is cancelled. -/
theorem connectionsAbort (h : Inv s) : Inv s.abortConnections.cancelServe := by
  have hmap := h.cancelConnections
  unfold State.cancelServe
  split_ifs with hwaiting
  · exact ⟨hmap.noLeak, hmap.result, fun hpending => absurd hpending s.future.cancel_ne_pending,
      fun _ _ => rfl⟩
  · exact ⟨hmap.noLeak, hmap.result, hmap.pending, fun _ hw => absurd hw hwaiting⟩

/-- `serve()` gets to another point, with no result of `sock_accept()`. -/
theorem setServe (h : Inv s) (hserve : ∀ i, s.serve ≠ .accepted i) (hreading : s.serve ≠ .reading)
    {serve : Serve} (hserve' : ∀ i, serve ≠ .accepted i)
    (haborted : s.connectionsAborted = true → serve.waiting = true → s.cancelling = true) :
    Inv { s with serve := serve } where
  noLeak := h.noLeak
  result i := (h.result i).trans (iff_of_false (hserve i) (hserve' i))
  pending hf := absurd (h.pending hf).1 hreading
  aborted := haborted

theorem leave (h : Inv s) (hserve : ∀ i, s.serve ≠ .accepted i) (hf : s.future ≠ .pending) :
    Inv s.leave := by
  have hmap := h.cancelConnections
  refine ⟨hmap.noLeak, fun i => ?_, fun hc => absurd hc hf, nofun⟩
  exact (hmap.result i).trans (iff_of_false (hserve i) nofun)

/-- While the future is pending, the task group takes the tasks of `listener_ready`. -/
theorem not_aborted (h : Inv s) (hf : s.future = .pending) : ¬ s.connectionsAborted = true := by
  intro haborted
  obtain ⟨hserve, hcancelling⟩ := h.pending hf
  have hcancelled := h.aborted haborted (by rw [hserve]; rfl)
  rw [hcancelling] at hcancelled
  cases hcancelled

theorem acceptFailed (h : Inv s) (error : AcceptError) : Inv (s.acceptFailed error) := by
  cases error with
  | blocking | ignorable => exact h
  | capacity => exact ⟨h.noLeak, h.result, h.pending, h.aborted⟩
  | unrelated | baseException => exact ⟨h.noLeak, h.result, nofun, h.aborted⟩

/-- `listener_ready` starts a task for every socket. -/
theorem accept {n : ℕ} {results : List AcceptResult} (h : Inv s) (hf : s.future = .pending)
    (hok : setblockingReturns n results = true) : Inv (State.accept n results s) := by
  induction n, results, s using State.accept.induct with
  | case1 => rwa [State.accept]
  | case2 => rwa [State.accept]
  | case3 n results s haborted => exact absurd haborted (h.not_aborted hf)
  | case4 n results s haborted ih =>
    rw [State.accept, if_neg haborted]
    exact ih h.push hf hok
  | case5 | case6 => cases hok
  | case7 n results s ih =>
    rw [State.accept, if_pos rfl]
    exact ih h hf hok
  | case8 n error results s herror =>
    rw [State.accept, if_neg herror]
    exact h.acceptFailed error

/-- A socket whose `setblocking(False)` raises is leaked. -/
theorem leaked_mem_accept_of_raises {n : ℕ} {results : List AcceptResult} (h : Inv s)
    (hf : s.future = .pending) (hbad : ¬ setblockingReturns n results = true) :
    .leaked ∈ (State.accept n results s).sockets := by
  induction n, results, s using State.accept.induct with
  | case1 => exact absurd rfl hbad
  | case2 => exact absurd rfl hbad
  | case3 n results s haborted => exact absurd haborted (h.not_aborted hf)
  | case4 n results s haborted ih =>
    rw [State.accept, if_neg haborted]
    exact ih h.push hf hbad
  | case5 n results s =>
    rw [State.accept, if_pos rfl]
    exact leaked_mem_accept (List.mem_append_right _ (List.mem_singleton_self _))
  | case6 n error results s herror =>
    rw [State.accept, if_neg herror, sockets_acceptFailed]
    exact List.mem_append_right _ (List.mem_singleton_self _)
  | case7 n results s ih =>
    rw [State.accept, if_pos rfl]
    exact ih h hf hbad
  | case8 n error results s herror =>
    simp [setblockingReturns, herror] at hbad

end Inv

namespace Inv

/-- `serve()` leaves, when it waits for nothing that is pending. -/
theorem leave_of_waiting (h : Inv s) (hserve : ∀ i, s.serve ≠ .accepted i)
    (hf : s.serve = .reading → s.cancelling || s.future.done) : Inv s.leave := by
  refine h.leave hserve fun hpending => ?_
  obtain ⟨hreading, hcancelling⟩ := h.pending hpending
  have hdone := hf hreading
  rw [hcancelling, hpending] at hdone
  cases hdone

/-- `sock_accept()` is done. -/
theorem sockAccept (h : Inv s) (hserve : s.serve = .accepting) :
    Inv { s with
      serve := .accepted s.sockets.length
      sockets := s.sockets ++ [.result] } where
  noLeak := by simpa using h.noLeak
  result j := by
    have hnone : s.sockets[j]? ≠ some .result := fun hj => by
      have := (h.result j).1 hj
      rw [hserve] at this
      cases this
    simp only [List.getElem?_append, List.getElem?_singleton, Serve.accepted.injEq]
    split_ifs with hj hlast
    · exact iff_of_false hnone (Nat.ne_of_gt hj)
    · exact iff_of_true rfl (by omega)
    · exact iff_of_false nofun (by omega)
  pending hf := by
    have := (h.pending hf).1
    rw [hserve] at this
    cases this
  aborted haborted _ := h.aborted haborted (by rw [hserve]; rfl)

/-- `serve()` gets the socket, and starts its task. -/
theorem startConnection (h : Inv s) (hserve : s.serve = .accepted i)
    (hcancelling : s.cancelling = false) : Inv (s.startConnection i) := by
  have hi := (h.result i).2 hserve
  have haborted : ¬ s.connectionsAborted = true := by
    intro haborted
    have hcancelled := h.aborted haborted (by rw [hserve]; rfl)
    rw [hcancelling] at hcancelled
    cases hcancelled
  unfold State.startConnection
  rw [if_neg haborted]
  refine ⟨fun hmem => ?_, fun j => iff_of_false ?_ nofun, fun hf => ?_,
    fun ha => absurd ha haborted⟩
  · exact ((leaked_mem_set_iff hi nofun).1 hmem).elim nofun h.noLeak
  · show (s.sockets.set i _)[j]? ≠ _
    by_cases hij : i = j
    · subst hij
      rw [List.getElem?_set_self (List.getElem?_eq_some_iff.1 hi).1]
      nofun
    · rw [List.getElem?_set_ne hij]
      intro hj
      have hj := (h.result j).1 hj
      rw [hserve] at hj
      exact hij (Serve.accepted.inj hj)
  · have hreading := (h.pending hf).1
    rw [hserve] at hreading
    cases hreading

/-- `serve()` runs again, without having dropped a socket. -/
theorem resume (h : Inv s) (hok : Safe c s .resume) (hs : s.resume = some s') : Inv s' := by
  unfold State.resume at hs
  split at hs
  · next hserve =>
    split_ifs at hs with hdone
    cases hs
    exact h.leave_of_waiting (by rw [hserve]; nofun) fun _ => hdone
  · next hserve =>
    split_ifs at hs with hcancelling
    cases hs
    exact h.leave_of_waiting (by rw [hserve]; nofun) (by rw [hserve]; nofun)
  · next i hserve =>
    have hcancelling : s.cancelling = false := hok i hserve
    rw [hcancelling] at hs
    simp only [Bool.false_eq_true, if_false] at hs
    split_ifs at hs
    cases hs
    exact h.startConnection hserve hcancelling
  · next error hserve =>
    have hleave : Inv s.leave :=
      h.leave_of_waiting (by rw [hserve]; nofun) (by rw [hserve]; nofun)
    split_ifs at hs with hcancelling
    · cases hs
      exact hleave
    · have haborted : ¬ s.connectionsAborted = true :=
        fun ha => hcancelling (h.aborted ha (by rw [hserve]; rfl))
      split at hs <;> cases hs
      · exact h.setServe (by rw [hserve]; nofun) (by rw [hserve]; nofun) nofun
          fun ha => absurd ha haborted
      · exact h.setServe (by rw [hserve]; nofun) (by rw [hserve]; nofun) nofun
          fun ha => absurd ha haborted
      · exact hleave
  · next hserve =>
    split_ifs at hs with hcancelling <;> cases hs
    · exact h.leave_of_waiting (by rw [hserve]; nofun) (by rw [hserve]; nofun)
    · exact h.setServe (by rw [hserve]; nofun) (by rw [hserve]; nofun) nofun
        fun ha _ => h.aborted ha (by rw [hserve]; rfl)
  · cases hs

/-- `serve()` is called. -/
theorem start (h : Inv s) (hserve : s.serve = .notStarted) : Inv (s.start c) := by
  have hnone : ∀ i, s.serve ≠ .accepted i := by rw [hserve]; nofun
  have hreading : s.serve ≠ .reading := by rw [hserve]; nofun
  unfold State.start
  dsimp only
  split_ifs
  · exact h.setServe hnone hreading nofun nofun
  · exact ⟨h.noLeak, fun i => (h.result i).trans (iff_of_false (hnone i) nofun),
      fun _ => ⟨rfl, rfl⟩, nofun⟩
  · exact ⟨h.noLeak, fun i => (h.result i).trans (iff_of_false (hnone i) nofun),
      fun hf => absurd (h.pending hf).1 hreading, nofun⟩

end Inv

/-- **Step lemma.**  A safe step leaks nothing. -/
theorem step_inv (h : Inv s) (hok : Safe c s a) (hs : step c s a = some s') : Inv s' := by
  cases a with
  | serve =>
    simp only [step] at hs
    split_ifs at hs with hserve
    cases hs
    exact h.start hserve
  | cancelServe =>
    cases hs
    exact h.cancelServe
  | aclose =>
    cases hs
    unfold State.aclose
    split_ifs
    · exact h
    · exact Inv.cancelServe ⟨h.noLeak, h.result, h.pending, h.aborted⟩
  | ready results =>
    simp only [step] at hs
    split_ifs at hs
    cases hs
    unfold State.listenerReady
    split_ifs with hpending
    · exact h.accept hpending (hok hpending)
    · exact h
  | retry | futureDone =>
    simp only [step] at hs
    split_ifs at hs
    cases hs
    exact ⟨h.noLeak, h.result, h.pending, h.aborted⟩
  | sockAccept error =>
    simp only [step] at hs
    split_ifs at hs with hserve
    obtain ⟨hserve, hcancelling⟩ := hserve
    cases error <;> cases hs
    · exact h.sockAccept hserve
    · exact h.setServe (by rw [hserve]; nofun) (by rw [hserve]; nofun) nofun
        fun ha _ => h.aborted ha (by rw [hserve]; rfl)
  | resume => exact h.resume hok hs
  | connectionStep i | handlerStep i =>
    simp only [step] at hs
    split at hs <;> cases hs
    next cancelled hi =>
      have hcancelled : cancelled = false := by
        rw [← Bool.not_eq_true]
        rintro rfl
        exact hok hi
      rw [hcancelled]
      exact h.moveSocket hi nofun nofun nofun
  | connected i result =>
    simp only [step] at hs
    split_ifs at hs with hi
    cases hs
    cases result
    case stream =>
      have haborted : s.handlersAborted = false := hok rfl
      unfold State.connected
      rw [haborted]
      exact h.moveSocket hi nofun nofun nofun
    all_goals
      have hclosed : Inv (s.setSocket i .closed) := h.moveSocket hi nofun nofun nofun
      exact ⟨hclosed.noLeak, hclosed.result, hclosed.pending, hclosed.aborted⟩
  | cancelTask i =>
    simp only [step, Option.map_eq_some_iff] at hs
    obtain ⟨x, hi, rfl⟩ := hs
    exact h.cancelTask hi
  | connectionsAbort =>
    simp only [step] at hs
    split_ifs at hs
    cases hs
    exact h.connectionsAbort
  | handlersAbort =>
    simp only [step] at hs
    split_ifs at hs <;> cases hs
    · exact h.abortHandlers.cancelServe
    · exact h.abortHandlers
  | connectionsDone =>
    simp only [step] at hs
    split_ifs at hs with hserve
    cases hs
    have hnone : ∀ i, s.serve ≠ .accepted i := by rw [hserve.1]; nofun
    have hreading : s.serve ≠ .reading := by rw [hserve.1]; nofun
    unfold State.exitConnections
    split_ifs
    · exact h.abortHandlers.setServe hnone hreading nofun nofun
    · exact h.setServe hnone hreading nofun nofun
  | handlersDone =>
    simp only [step] at hs
    split_ifs at hs with hserve
    cases hs
    exact h.setServe (by rw [hserve.1]; nofun) (by rw [hserve.1]; nofun) nofun nofun

/-! ### The steps that leak a socket -/

/-- A step that is not safe leaks a socket. -/
theorem step_leaks (h : Inv s) (hbad : ¬ Safe c s a) (hs : step c s a = some s') :
    .leaked ∈ s'.sockets := by
  cases a with
  | ready results =>
    obtain ⟨hpending, hbad⟩ := Classical.not_imp.1 hbad
    simp only [step] at hs
    split_ifs at hs
    cases hs
    rw [State.listenerReady, if_pos hpending]
    exact h.leaked_mem_accept_of_raises hpending hbad
  | connectionStep i | handlerStep i =>
    have hi := Decidable.not_not.1 hbad
    simp only [step, hi, if_true] at hs
    cases hs
    exact List.mem_set (List.getElem?_eq_some_iff.1 hi).1 _
  | connected i result =>
    obtain ⟨rfl, haborted⟩ := Classical.not_imp.1 hbad
    simp only [step] at hs
    split_ifs at hs with hi
    cases hs
    rw [State.connected, if_pos (Bool.not_eq_false _ ▸ haborted)]
    exact List.mem_set (List.getElem?_eq_some_iff.1 hi).1 _
  | resume =>
    obtain ⟨i, hbad⟩ := not_forall.1 hbad
    obtain ⟨hserve, hcancelling⟩ := Classical.not_imp.1 hbad
    have hi := (h.result i).2 hserve
    rw [Bool.not_eq_false] at hcancelling
    simp only [step, State.resume, hserve, hi, hcancelling, if_true] at hs
    cases hs
    refine leaked_mem_abortConnections.2 ?_
    exact List.mem_set (List.getElem?_eq_some_iff.1 hi).1 _
  | _ => exact absurd trivial hbad

/-! ## Who closes the sockets -/

/-- **When everything has ended, every socket is closed, or has been handed to a handler that has
    started, iff the run is safe.** -/
theorem settled_iff {as : List Action} (h : Trans.run (step c) {} as = some s)
    (hend : s.Finished) :
    Trans.Meets (step c) (Safe c) {} as ↔ ∀ x ∈ s.sockets, x.settled = true := by
  have hmeets : Trans.Meets (step c) (Safe c) {} as ↔ ¬ .leaked ∈ s.sockets :=
    Trans.meets_iff (Safe c) Inv (fun s => .leaked ∈ s.sockets) (fun _ h => h.noLeak)
      (fun _ _ _ h hok hs => step_inv h hok hs) (fun _ _ _ h hbad hs => step_leaks h hbad hs)
      (fun _ _ _ h hs => step_leaked h hs) Inv.init h
  constructor
  · intro hsafe x hx
    have hinv : Inv s := Trans.run_inv_of (fun _ _ _ h hok hs => step_inv h hok hs) Inv.init hsafe h
    obtain ⟨hconnection, hhandler⟩ := hend.2 x hx
    cases x with
    | result =>
      -- `serve()` has ended
      obtain ⟨i, hi⟩ := List.mem_iff_getElem?.1 hx
      cases hend.1.symm.trans ((hinv.result i).1 hi)
    | leaked => exact absurd hx hinv.noLeak
    | handled | closed => rfl
    | connectionTask | connecting => cases hconnection
    | handlerTask => cases hhandler
  · intro hall
    exact hmeets.2 fun hleaked => absurd (hall _ hleaked) nofun

/-- One connection is accepted after a capacity error, another is refused by the factory, then
    `aclose()` is called. -/
theorem settled_iff_closed : ∃ s, Trans.run (step ⟨true, true, 128⟩) {} [.serve,
      .ready [.raises .capacity], .retry, .ready [.socket, .raises .ignorable, .socket],
      .connectionStep 0, .connectionStep 1, .connected 0 .stream, .connected 1 (.exception false),
      .handlerStep 0, .aclose, .futureDone, .resume, .connectionsDone, .handlersDone] = some s ∧
    s.sockets = [.handled, .closed] ∧
    Trans.Meets (step ⟨true, true, 128⟩) (Safe ⟨true, true, 128⟩) {} [.serve,
      .ready [.raises .capacity], .retry, .ready [.socket, .raises .ignorable, .socket],
      .connectionStep 0, .connectionStep 1, .connected 0 .stream, .connected 1 (.exception false),
      .handlerStep 0, .aclose, .futureDone, .resume, .connectionsDone, .handlersDone] := by
  refine ⟨_, rfl, rfl, (settled_iff rfl ⟨rfl, ?_⟩).2 ?_⟩
  · decide
  · decide

/-- The caller's task group shuts down while the factory connects: the stream has nobody then. -/
theorem stream_leaked : ¬ ∀ (c : Config) (as : List Action) (s : State),
    Trans.run (step c) {} as = some s → s.Finished → ∀ x ∈ s.sockets, x.settled = true := by
  intro hall
  have hsettled := hall ⟨false, true, 128⟩ [.serve, .ready [.socket], .connectionStep 0,
    .handlersAbort, .connected 0 .stream, .connectionsAbort, .futureDone, .resume,
    .connectionsDone] _ rfl ⟨rfl, by decide⟩ .leaked (by decide)
  cases hsettled

end

end StreamListener

end EasyNetwork
