/-
  The datagrams of an asyncio listener (`DatagramListenerProtocol` in
  `_asyncio/datagram/listener.py`).

  The datagrams that are received while no `serve()` runs are queued.  `serve()` first hands these
  to its handler, by a task in its task group for each, then the others as they come, until it is
  cancelled or the connection is lost.

  The connection has been made.  A task runs from one suspension point to the next before another
  callback of the event loop does.  `start_soon()` of a task group that shuts down raises; nothing
  is said about the tasks of such a group.  The transport calls no method after `connection_lost()`.

  `datagrams_handed`: one `serve()` runs at a time, the datagrams are handed in the order in which
  they are received, each one once, and none is lost before the connection is lost or a task group
  shuts down.
-/
import EasyNetwork.Lib.Table
import EasyNetwork.Lib.Trans

namespace EasyNetwork

namespace DatagramListenerProtocol

/-! ## The protocol -/

/-- What `serve()` raises. -/
inductive Error where
  /-- `"DatagramListenerProtocol.serve() awaited twice"` -/
  | awaitedTwice
  /-- the `RuntimeError` of `start_soon()` -/
  | taskGroup
  | cancelled
  deriving DecidableEq, Repr

/-- Where a call of `serve()` is. -/
inductive Phase where
  | notCalled
  /-- it awaits `shield(self.__serve_forever_fut)` -/
  | waiting
  /-- the future or the task has been cancelled, and the task has not gone on yet -/
  | woken
  | ended (error : Error)
  deriving DecidableEq, Repr

namespace Phase

def isServing : Phase → Bool
  | waiting | woken => true
  | _ => false

end Phase

/-- `D` are the datagrams and `A` the addresses. -/
structure State (D A : Type) where
  /-- the call of `serve()` that has set `__datagram_serve_ctx` -/
  datagramServeCtx : Option ℕ := none
  delayedDatagramsQueue : List (D × A) := []
  /-- `__serve_forever_fut` and `__closed` are done, too -/
  connectionLost : Bool := false
  phase : ℕ → Phase := fun _ => .notCalled
  /-- how often `serve()` has been called -/
  calls : ℕ := 0
  /-- the task group of the call shuts down -/
  groupDown : ℕ → Bool := fun _ => false
  received : List (D × A) := []
  /-- what `start_soon()` has been called with, and by which call of `serve()` -/
  handed : List (ℕ × D × A) := []
  /-- what has been dropped -/
  lost : List (D × A) := []

inductive Action (D A : Type) where
  | datagramReceived (datagram : D) (address : A)
  /-- `serve()` begins -/
  | serve
  /-- a call of `serve()` is cancelled -/
  | cancel (call : ℕ)
  /-- a call that has been woken up goes on -/
  | resume (call : ℕ)
  | connectionLost
  /-- a task group shuts down -/
  | groupDown (call : ℕ)
  deriving DecidableEq, Repr

namespace State
variable {D A : Type} (s : State D A)

def setPhase (call : ℕ) (phase : Phase) : State D A :=
  { s with phase := Function.update s.phase call phase }

/-- `_DatagramListenerServeContext.handle`; `none` if `start_soon()` raises. -/
def handle (call : ℕ) (datagram : D × A) : Option (State D A) :=
  if s.groupDown call then none else some { s with handed := s.handed ++ [(call, datagram)] }

def datagramReceived (datagram : D × A) : State D A :=
  match s.datagramServeCtx with
  -- `serve()` is not yet awaited
  | none => { s with delayedDatagramsQueue := s.delayedDatagramsQueue ++ [datagram] }
  | some call =>
    match s.handle call datagram with
    -- the event loop logs the exception
    | none => { s with lost := s.lost ++ [datagram] }
    | some s => s

/-- The loop of `serve()` over the queue; whether `start_soon()` has raised. -/
def dequeue (s : State D A) (call : ℕ) : List (D × A) → State D A × Bool
  | [] => ({ s with delayedDatagramsQueue := [] }, false)
  | datagram :: queue =>
    match s.handle call datagram with
    | none => ({ s with delayedDatagramsQueue := queue, lost := s.lost ++ [datagram] }, true)
    | some s => s.dequeue call queue

/-- The `finally` of `serve()`. -/
def serveEnds (call : ℕ) (error : Error) : State D A :=
  { s.setPhase call (.ended error) with datagramServeCtx := none }

/-- `serve()` up to its first suspension point. -/
def serve : State D A :=
  let call := s.calls
  let s := { s with calls := s.calls + 1 }
  match s.datagramServeCtx with
  | some _ => s.setPhase call (.ended .awaitedTwice)
  | none =>
    match { s with datagramServeCtx := some call }.dequeue call s.delayedDatagramsQueue with
    | (s, true) => s.serveEnds call .taskGroup
    | (s, false) =>
      if s.connectionLost then s.serveEnds call .cancelled else s.setPhase call .waiting

def callConnectionLost : State D A :=
  { s with
    connectionLost := true
    phase := fun call => if s.phase call = .waiting then .woken else s.phase call
    delayedDatagramsQueue := []
    lost := s.lost ++ s.delayedDatagramsQueue }

end State

/-- One step of an interleaving. -/
def step {D A : Type} (s : State D A) : Action D A → Option (State D A)
  | .datagramReceived datagram address =>
    if s.connectionLost then none
    else some { s.datagramReceived (datagram, address) with
      received := s.received ++ [(datagram, address)] }
  | .serve => some s.serve
  | .cancel call => if s.phase call = .waiting then some (s.setPhase call .woken) else none
  | .resume call => if s.phase call = .woken then some (s.serveEnds call .cancelled) else none
  | .connectionLost => if s.connectionLost then none else some s.callConnectionLost
  | .groupDown call => some { s with groupDown := Function.update s.groupDown call true }

variable {D A : Type} {s s' : State D A} {call : ℕ}

/-! ## The loop over the queue -/

theorem dequeue_up (h : s.groupDown call = false) (queue : List (D × A)) :
    s.dequeue call queue = ({ s with
      delayedDatagramsQueue := []
      handed := s.handed ++ queue.map fun datagram => (call, datagram) }, false) := by
  induction queue generalizing s with
  | nil =>
    rw [List.map_nil, List.append_nil]
    rfl
  | cons datagram queue ih =>
    have hhandle : s.handle call datagram =
        some { s with handed := s.handed ++ [(call, datagram)] } := by
      rw [State.handle, h]
      rfl
    unfold State.dequeue
    rw [hhandle]
    refine (ih (s := { s with handed := s.handed ++ [(call, datagram)] }) h).trans ?_
    simp only [List.map_cons, List.append_assoc, List.cons_append, List.nil_append]

theorem dequeue_down (h : s.groupDown call = true) (datagram : D × A) (queue : List (D × A)) :
    s.dequeue call (datagram :: queue) =
      ({ s with delayedDatagramsQueue := queue, lost := s.lost ++ [datagram] }, true) := by
  unfold State.dequeue State.handle
  rw [h]
  rfl

/-- The whole queue is handed, if `start_soon()` does not raise. -/
theorem dequeue_all {queue : List (D × A)} (h : s.groupDown call = false ∨ queue = []) :
    s.dequeue call queue = ({ s with
      delayedDatagramsQueue := []
      handed := s.handed ++ queue.map fun datagram => (call, datagram) }, false) := by
  rcases h with hup | rfl
  · exact dequeue_up hup queue
  · rw [List.map_nil, List.append_nil]
    rfl

/-! ## What `serve()` does -/

theorem serve_twice (h : s.datagramServeCtx = some call) :
    s.serve = { s with
      phase := Function.update s.phase s.calls (.ended .awaitedTwice), calls := s.calls + 1 } := by
  simp only [State.serve, State.setPhase, h]

theorem serve_down (h : s.datagramServeCtx = none) (hdown : s.groupDown s.calls = true)
    {datagram : D × A} {queue : List (D × A)}
    (hqueue : s.delayedDatagramsQueue = datagram :: queue) :
    s.serve = { s with
      datagramServeCtx := none
      delayedDatagramsQueue := queue
      phase := Function.update s.phase s.calls (.ended .taskGroup)
      calls := s.calls + 1
      lost := s.lost ++ [datagram] } := by
  simp only [State.serve, h, hqueue]
  rw [dequeue_down (s := { s with
    datagramServeCtx := some s.calls
    delayedDatagramsQueue := datagram :: queue
    calls := s.calls + 1 }) hdown]
  rfl

theorem serve_up (h : s.datagramServeCtx = none)
    (hup : s.groupDown s.calls = false ∨ s.delayedDatagramsQueue = []) {phase : Phase}
    (hphase : phase = if s.connectionLost then .ended .cancelled else .waiting) :
    s.serve = { s with
      datagramServeCtx := if phase.isServing then some s.calls else none
      delayedDatagramsQueue := []
      phase := Function.update s.phase s.calls phase
      calls := s.calls + 1
      handed := s.handed ++ s.delayedDatagramsQueue.map fun datagram => (s.calls, datagram) } := by
  simp only [State.serve, h]
  rw [dequeue_all (s := { s with datagramServeCtx := some s.calls, calls := s.calls + 1 }) hup]
  subst hphase
  dsimp only
  cases s.connectionLost <;> rfl

/-! ## A datagram is received -/

theorem datagramReceived_none (h : s.datagramServeCtx = none) (datagram : D × A) :
    s.datagramReceived datagram =
      { s with delayedDatagramsQueue := s.delayedDatagramsQueue ++ [datagram] } := by
  rw [State.datagramReceived, h]

theorem datagramReceived_up (h : s.datagramServeCtx = some call) (hup : s.groupDown call = false)
    (datagram : D × A) :
    s.datagramReceived datagram = { s with handed := s.handed ++ [(call, datagram)] } := by
  rw [State.datagramReceived, h]
  simp only [State.handle, hup, Bool.false_eq_true, if_false, h]

theorem datagramReceived_down (h : s.datagramServeCtx = some call)
    (hdown : s.groupDown call = true) (datagram : D × A) :
    s.datagramReceived datagram = { s with lost := s.lost ++ [datagram] } := by
  rw [State.datagramReceived, h]
  simp only [State.handle, hdown, if_true]

/-! ## The invariant -/

structure Inv (s : State D A) : Prop where
  /-- one call serves at a time -/
  ctx : Table.Owns s.datagramServeCtx (fun phase : Phase => phase.isServing = true) s.phase
  fresh : ∀ call, s.phase call = .notCalled ↔ s.calls ≤ call
  /-- nothing is queued while it serves, nor after the connection is lost -/
  queue : (∃ call, s.datagramServeCtx = some call) ∨ s.connectionLost = true →
    s.delayedDatagramsQueue = []
  /-- every call is woken up -/
  woken : s.connectionLost = true → ∀ call, s.phase call ≠ .waiting
  order : (s.handed.map Prod.snd ++ s.delayedDatagramsQueue).Sublist s.received
  count : s.handed.length + s.delayedDatagramsQueue.length + s.lost.length = s.received.length
  lossless : s.connectionLost = false → (∀ call, s.groupDown call = false) → s.lost = []
  /-- the calls serve one after the other -/
  calls : (s.handed.map Prod.fst).Pairwise (· ≤ ·)
  last : ∀ x ∈ s.handed, x.1 < s.calls ∧ ∀ call, s.datagramServeCtx = some call → x.1 ≤ call

theorem Inv.init : Inv ({} : State D A) where
  ctx _ := iff_of_false nofun nofun
  fresh call := iff_of_true rfl (Nat.zero_le call)
  queue _ := rfl
  woken h := nomatch h
  order := List.Sublist.refl []
  count := rfl
  lossless _ _ := rfl
  calls := List.Pairwise.nil
  last _ hx := nomatch hx

namespace Inv

theorem lt_calls (h : Inv s) (hphase : s.phase call ≠ .notCalled) : call < s.calls := by
  by_contra hle
  exact hphase ((h.fresh call).2 (Nat.le_of_not_lt hle))

/-- A call of `serve()` that has been made goes on. -/
theorem fresh_update (h : Inv s) (hcall : call < s.calls) {phase : Phase}
    (hphase : phase ≠ .notCalled) :
    ∀ n, Function.update s.phase call phase n = .notCalled ↔ s.calls ≤ n := fun n => by
  by_cases hn : n = call
  · rw [hn, Function.update_self]
    exact iff_of_false hphase (Nat.not_le.2 hcall)
  · rw [Function.update_of_ne hn]
    exact h.fresh n

/-- The call that serves ends. -/
theorem serveEnds (h : Inv s) (hctx : s.datagramServeCtx = some call) (error : Error) :
    Inv (s.serveEnds call error) := by
  have hserving : (s.phase call).isServing = true := (h.ctx call).1 hctx
  have hctx' := h.ctx
  rw [hctx] at hctx'
  refine ⟨hctx'.release nofun, h.fresh_update (h.lt_calls fun hne => ?_) nofun, fun hor => ?_,
    fun hlost n => ?_, h.order, h.count, h.lossless, h.calls, fun x hx => ?_⟩
  · rw [hne] at hserving
    cases hserving
  · exact h.queue (.inl ⟨call, hctx⟩)
  · show Function.update s.phase call _ n ≠ _
    by_cases hn : n = call
    · subst hn
      rw [Function.update_self]
      nofun
    · rw [Function.update_of_ne hn]
      exact h.woken hlost n
  · exact ⟨(h.last x hx).1, by rintro _ ⟨⟩⟩

/-- The call that serves is woken up. -/
theorem wake (h : Inv s) (hphase : s.phase call = .waiting) : Inv (s.setPhase call .woken) := by
  have hcall : call < s.calls := h.lt_calls (by rw [hphase]; nofun)
  refine ⟨h.ctx.keep ?_, h.fresh_update hcall nofun, h.queue, fun hlost n => ?_, h.order, h.count,
    h.lossless, h.calls, h.last⟩
  · rw [hphase]
    exact iff_of_true rfl rfl
  · show Function.update s.phase call _ n ≠ _
    by_cases hn : n = call
    · subst hn
      rw [Function.update_self]
      nofun
    · rw [Function.update_of_ne hn]
      exact h.woken hlost n

theorem callConnectionLost (h : Inv s) : Inv s.callConnectionLost where
  ctx n := by
    refine (h.ctx n).trans (iff_of_eq (congrArg (· = true) ?_))
    show _ = Phase.isServing (if s.phase n = .waiting then .woken else s.phase n)
    split_ifs with hn
    · rw [hn]
      rfl
    · rfl
  fresh n := by
    refine Iff.trans ?_ (h.fresh n)
    show (if s.phase n = .waiting then .woken else s.phase n) = .notCalled ↔ _
    split_ifs with hn
    · rw [hn]
      exact iff_of_false nofun nofun
    · exact Iff.rfl
  queue _ := rfl
  woken _ n := by
    show (if s.phase n = .waiting then _ else s.phase n) ≠ _
    split_ifs with hn
    · nofun
    · exact hn
  order := by
    refine (List.Sublist.append_left ?_ _).trans h.order
    exact List.nil_sublist _
  count := by
    show s.handed.length + 0 + (s.lost ++ s.delayedDatagramsQueue).length = s.received.length
    rw [List.length_append, ← h.count]
    omega
  lossless := nofun
  calls := h.calls
  last := h.last

theorem groupDown (h : Inv s) (call : ℕ) :
    Inv { s with groupDown := Function.update s.groupDown call true } where
  ctx := h.ctx
  fresh := h.fresh
  queue := h.queue
  woken := h.woken
  order := h.order
  count := h.count
  lossless _ hup := by
    have hcall : Function.update s.groupDown call true call = false := hup call
    rw [Function.update_self] at hcall
    cases hcall
  calls := h.calls
  last := h.last

/-- What has been handed when a call hands more. -/
theorem calls_append (h : Inv s) (hle : ∀ x ∈ s.handed, x.1 ≤ call) (queue : List (D × A)) :
    ((s.handed ++ queue.map fun datagram => (call, datagram)).map Prod.fst).Pairwise (· ≤ ·) := by
  rw [List.map_append, List.map_map]
  refine List.pairwise_append.2 ⟨h.calls, ?_, fun a ha b hb => ?_⟩
  · exact List.pairwise_map.2 (List.pairwise_of_forall fun _ _ => Nat.le_refl _)
  · obtain ⟨x, hx, rfl⟩ := List.mem_map.1 ha
    obtain ⟨-, -, rfl⟩ := List.mem_map.1 hb
    exact hle x hx

/-- A datagram is received. -/
theorem datagramReceived (h : Inv s) (hlost : s.connectionLost = false) (datagram : D × A) :
    Inv { s.datagramReceived datagram with received := s.received ++ [datagram] } := by
  cases hctx : s.datagramServeCtx with
  | none =>
    rw [datagramReceived_none hctx]
    refine ⟨h.ctx, h.fresh, ?_, h.woken, ?_, ?_, h.lossless, h.calls, h.last⟩
    · rintro (⟨call, hcall⟩ | hc)
      · cases hctx.symm.trans hcall
      · cases hlost.symm.trans hc
    · show (_ ++ (_ ++ [datagram])).Sublist (_ ++ [datagram])
      rw [← List.append_assoc]
      exact h.order.append (List.Sublist.refl _)
    · simp only [List.length_append, ← h.count]
      omega
  | some call =>
    have hqueue := h.queue (.inl ⟨call, hctx⟩)
    have hcount := h.count
    have horder := h.order
    rw [hqueue, List.append_nil] at horder
    cases hgroup : s.groupDown call with
    | false =>
      rw [datagramReceived_up hctx hgroup]
      refine ⟨h.ctx, h.fresh, h.queue, h.woken, ?_, ?_, h.lossless, ?_, fun x hx => ?_⟩
      · show ((s.handed ++ [(call, datagram)]).map Prod.snd ++ s.delayedDatagramsQueue).Sublist _
        rw [hqueue, List.append_nil, List.map_append]
        exact horder.append (List.Sublist.refl _)
      · simp only [List.length_append, List.length_singleton, ← hcount]
        omega
      · exact h.calls_append (fun x hx => (h.last x hx).2 call hctx) [datagram]
      · rcases List.mem_append.1 hx with hx | hx
        · exact h.last x hx
        · rw [List.mem_singleton.1 hx]
          refine ⟨h.lt_calls fun hne => ?_, fun call' hcall' => ?_⟩
          · have hserving : (s.phase call).isServing = true := (h.ctx call).1 hctx
            rw [show s.phase call = .notCalled from hne] at hserving
            cases hserving
          · exact Nat.le_of_eq (Option.some.inj (hctx.symm.trans hcall'))
    | true =>
      rw [datagramReceived_down hctx hgroup]
      refine ⟨h.ctx, h.fresh, h.queue, h.woken, ?_, ?_, fun _ hup => ?_, h.calls, h.last⟩
      · show (_ ++ s.delayedDatagramsQueue).Sublist _
        rw [hqueue, List.append_nil]
        exact horder.trans (List.sublist_append_left _ _)
      · simp only [List.length_append, List.length_singleton, ← hcount]
        omega
      · cases hgroup.symm.trans (hup call)

theorem fresh_calls (h : Inv s) {phase : Phase} (hphase : phase ≠ .notCalled) :
    ∀ n, Function.update s.phase s.calls phase n = .notCalled ↔ s.calls + 1 ≤ n := fun n => by
  by_cases hn : n = s.calls
  · rw [hn, Function.update_self]
    exact iff_of_false hphase (Nat.not_le.2 (Nat.lt_succ_self _))
  · rw [Function.update_of_ne hn]
    exact (h.fresh n).trans ⟨fun hle => Nat.lt_of_le_of_ne hle (Ne.symm hn), Nat.le_of_succ_le⟩

theorem woken_calls (h : Inv s) {phase : Phase}
    (hphase : s.connectionLost = true → phase ≠ .waiting) (hlost : s.connectionLost = true) :
    ∀ n, Function.update s.phase s.calls phase n ≠ .waiting := fun n => by
  by_cases hn : n = s.calls
  · rw [hn, Function.update_self]
    exact hphase hlost
  · rw [Function.update_of_ne hn]
    exact h.woken hlost n

/-- `serve()` raises at once. -/
theorem ctx_calls (h : Inv s) (error : Error) :
    Table.Owns s.datagramServeCtx (fun phase : Phase => phase.isServing = true)
      (Function.update s.phase s.calls (.ended error)) :=
  h.ctx.keep (by rw [(h.fresh _).2 (Nat.le_refl _)]; exact iff_of_false nofun nofun)

/-- `serve()` finds that another call serves. -/
theorem awaitedTwice (h : Inv s) :
    Inv { s with
      phase := Function.update s.phase s.calls (.ended .awaitedTwice), calls := s.calls + 1 } where
  ctx := h.ctx_calls .awaitedTwice
  fresh := h.fresh_calls nofun
  queue := h.queue
  woken := h.woken_calls (by rintro _ ⟨⟩)
  order := h.order
  count := h.count
  lossless := h.lossless
  calls := h.calls
  last x hx := ⟨Nat.lt_succ_of_lt (h.last x hx).1, (h.last x hx).2⟩

/-- `serve()` cannot hand the first datagram of the queue. -/
theorem cannotHand (h : Inv s) (hctx : s.datagramServeCtx = none) (hgroup : s.groupDown call = true)
    {datagram : D × A} {queue : List (D × A)}
    (hqueue : s.delayedDatagramsQueue = datagram :: queue) :
    Inv { s with
      datagramServeCtx := none
      delayedDatagramsQueue := queue
      phase := Function.update s.phase s.calls (.ended .taskGroup)
      calls := s.calls + 1
      lost := s.lost ++ [datagram] } where
  ctx := hctx ▸ h.ctx_calls .taskGroup
  fresh := h.fresh_calls nofun
  queue hor := by
    have hnil := h.queue (hor.imp_left (by rintro ⟨_, ⟨⟩⟩))
    cases hqueue.symm.trans hnil
  woken := h.woken_calls (by rintro _ ⟨⟩)
  order := by
    have horder := h.order
    rw [hqueue] at horder
    exact (List.Sublist.append_left (List.sublist_cons_self _ _) _).trans horder
  count := by
    have hcount := h.count
    rw [hqueue, List.length_cons] at hcount
    show s.handed.length + queue.length + (s.lost ++ [datagram]).length = s.received.length
    rw [List.length_append, List.length_singleton]
    omega
  lossless _ hup := by cases hgroup.symm.trans (hup call)
  calls := h.calls
  last x hx := ⟨Nat.lt_succ_of_lt (h.last x hx).1, by rintro _ ⟨⟩⟩

/-- `serve()` has handed the queue, and waits or ends. -/
theorem hasDequeued (h : Inv s) (hctx : s.datagramServeCtx = none) {phase : Phase}
    (hphase : phase ≠ .notCalled) (hwoken : s.connectionLost = true → phase ≠ .waiting) :
    Inv { s with
      datagramServeCtx := if phase.isServing then some s.calls else none
      delayedDatagramsQueue := []
      phase := Function.update s.phase s.calls phase
      calls := s.calls + 1
      handed := s.handed ++ s.delayedDatagramsQueue.map fun datagram => (s.calls, datagram) } where
  ctx := by
    have hfree := h.ctx
    rw [hctx] at hfree
    show Table.Owns (if phase.isServing then some s.calls else none) _ _
    split_ifs with hserving
    · exact hfree.acquire hserving
    · refine hfree.keep ?_
      rw [(h.fresh _).2 (Nat.le_refl _)]
      exact iff_of_false hserving nofun
  fresh := h.fresh_calls hphase
  queue _ := rfl
  woken := h.woken_calls hwoken
  order := by
    show ((s.handed ++ s.delayedDatagramsQueue.map _).map Prod.snd ++ []).Sublist s.received
    rw [List.append_nil, List.map_append, List.map_map]
    simpa only [Function.comp_def, List.map_id'] using h.order
  count := by
    show (s.handed ++ s.delayedDatagramsQueue.map _).length + 0 + _ = _
    rw [List.length_append, List.length_map]
    exact h.count
  lossless := h.lossless
  calls := h.calls_append (fun x hx => Nat.le_of_lt (h.last x hx).1) s.delayedDatagramsQueue
  last x hx := by
    have hlt : x.1 ≤ s.calls := by
      rcases List.mem_append.1 hx with hx | hx
      · exact Nat.le_of_lt (h.last x hx).1
      · obtain ⟨-, -, rfl⟩ := List.mem_map.1 hx
        exact Nat.le_refl _
    refine ⟨Nat.lt_succ_of_le hlt, fun call hcall => ?_⟩
    replace hcall : (if phase.isServing then some s.calls else none) = some call := hcall
    split_ifs at hcall
    cases hcall
    exact hlt

theorem serve (h : Inv s) : Inv s.serve := by
  cases hctx : s.datagramServeCtx with
  | some call =>
    rw [serve_twice hctx]
    exact h.awaitedTwice
  | none =>
    by_cases hup : s.groupDown s.calls = false ∨ s.delayedDatagramsQueue = []
    · rw [serve_up hctx hup rfl]
      refine h.hasDequeued hctx ?_ fun hlost => ?_
      · cases s.connectionLost <;> nofun
      · rw [hlost]
        nofun
    · obtain ⟨hdown, hqueue⟩ := not_or.1 hup
      obtain ⟨datagram, queue, hqueue⟩ := List.exists_cons_of_ne_nil hqueue
      have hdown := eq_true_of_ne_false hdown
      rw [serve_down hctx hdown hqueue]
      exact h.cannotHand hctx hdown hqueue

/-- **Step lemma.** -/
theorem step {a : Action D A} (h : Inv s) (hs : step s a = some s') : Inv s' := by
  cases a with
  | datagramReceived datagram address =>
    simp only [DatagramListenerProtocol.step] at hs
    split_ifs at hs with hlost
    cases hs
    exact h.datagramReceived (Bool.eq_false_iff.2 hlost) (datagram, address)
  | serve =>
    cases hs
    exact h.serve
  | cancel call =>
    simp only [DatagramListenerProtocol.step] at hs
    split_ifs at hs with hphase
    cases hs
    exact h.wake hphase
  | resume call =>
    simp only [DatagramListenerProtocol.step] at hs
    split_ifs at hs with hphase
    cases hs
    exact h.serveEnds ((h.ctx call).2 (by rw [hphase]; rfl)) .cancelled
  | connectionLost =>
    simp only [DatagramListenerProtocol.step] at hs
    split_ifs at hs
    cases hs
    exact h.callConnectionLost
  | groupDown call =>
    cases hs
    exact h.groupDown call

end Inv

/-- Nothing is dropped before the connection is lost or a task group shuts down. -/
theorem Inv.lossless_order (h : Inv s) (hlost : s.connectionLost = false)
    (hup : ∀ call, s.groupDown call = false) :
    s.handed.map Prod.snd ++ s.delayedDatagramsQueue = s.received := by
  have hcount := h.count
  rw [h.lossless hlost hup] at hcount
  refine h.order.eq_of_length ?_
  rw [List.length_append, List.length_map]
  exact hcount

theorem run_inv {as : List (Action D A)} (h : Trans.run step {} as = some s) : Inv s :=
  Trans.run_inv (fun _ _ _ => Inv.step) Inv.init h

/-- **The datagrams are handed once, and in order**, by whatever calls of `serve()` in whatever
interleaving: one call serves at a time, and when it does nothing is queued; what has been handed,
call after call, and what is queued are in the order of reception, and the rest has been dropped.
None is dropped before the connection is lost or a task group shuts down.  Once the connection is
lost, each call has been woken up or has ended. -/
theorem datagrams_handed {as : List (Action D A)} (h : Trans.run step {} as = some s) :
    (∀ call, s.datagramServeCtx = some call ↔ (s.phase call).isServing = true) ∧
    (∀ call, (s.phase call).isServing = true → s.delayedDatagramsQueue = []) ∧
    (s.handed.map Prod.snd ++ s.delayedDatagramsQueue).Sublist s.received ∧
    s.handed.length + s.delayedDatagramsQueue.length + s.lost.length = s.received.length ∧
    (s.handed.map Prod.fst).Pairwise (· ≤ ·) ∧
    (s.connectionLost = false → (∀ call, s.groupDown call = false) →
      s.handed.map Prod.snd ++ s.delayedDatagramsQueue = s.received) ∧
    (s.connectionLost = true → ∀ call < s.calls,
      s.phase call = .woken ∨ ∃ error, s.phase call = .ended error) := by
  have hinv := run_inv h
  refine ⟨hinv.ctx, fun call hcall => hinv.queue (.inl ⟨call, (hinv.ctx call).2 hcall⟩), hinv.order,
    hinv.count, hinv.calls, fun hlost hup => hinv.lossless_order hlost hup,
    fun hlost call hcall => ?_⟩
  cases hphase : s.phase call with
  | notCalled => exact absurd hcall (Nat.not_lt.2 ((hinv.fresh call).1 hphase))
  | waiting => exact absurd hphase (hinv.woken hlost call)
  | woken => exact .inl rfl
  | ended error => exact .inr ⟨error, rfl⟩

/-- A second call that serves takes what has been received in between. -/
theorem datagrams_handed_again : ∃ s, Trans.run step ({} : State ℕ ℕ)
      [.datagramReceived 1 7, .serve, .datagramReceived 2 7, .serve, .cancel 0, .resume 0,
        .datagramReceived 3 8, .serve] = some s ∧
    s.handed = [(0, 1, 7), (0, 2, 7), (2, 3, 8)] ∧
    s.handed.map Prod.snd ++ s.delayedDatagramsQueue = s.received := by
  obtain ⟨s, hs⟩ : ∃ s, Trans.run step ({} : State ℕ ℕ)
      [.datagramReceived 1 7, .serve, .datagramReceived 2 7, .serve, .cancel 0, .resume 0,
        .datagramReceived 3 8, .serve] = some s := Option.isSome_iff_exists.1 (by decide)
  have hview : some (s.handed, s.connectionLost) =
      some ([(0, 1, 7), (0, 2, 7), (2, 3, 8)], false) := by
    rw [← Option.map_some (f := fun s : State ℕ ℕ => (s.handed, s.connectionLost)), ← hs]
    decide
  have hgroups : some s.groupDown = some fun _ => false := by
    rw [← Option.map_some (f := fun s : State ℕ ℕ => s.groupDown), ← hs]
    rfl
  simp only [Option.some.injEq, Prod.mk.injEq] at hview hgroups
  obtain ⟨hhanded, hlost⟩ := hview
  exact ⟨s, hs, hhanded, (datagrams_handed hs).2.2.2.2.2.1 hlost fun call => by rw [hgroups]⟩

end DatagramListenerProtocol

end EasyNetwork
