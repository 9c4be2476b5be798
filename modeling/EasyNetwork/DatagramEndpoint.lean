/-
  The reception side of the asyncio `DatagramEndpoint` and its protocol
  (`_asyncio/datagram/endpoint.py`).

  Datagrams and errors travel in two queues: an error is put into the exception queue and announced
  by a `None` in the reception queue; `connection_lost` announces itself by a `None`, with an
  exception or not.  `D` is a datagram with its address, `E` an exception of the transport.

  The event loop runs one callback, or one task up to its next suspension point, at a time.  One call
  of `recvfrom` is running at most.

  `endpoint_sound`: what `recvfrom` gives is, in order, what the protocol has received, and no call stays
  waiting once the connection is lost.
-/
import EasyNetwork.Lib.Trans
import Mathlib.Data.List.Basic

namespace EasyNetwork

namespace DatagramEndpoint

variable {D E : Type}

/-- How a call of `recvfrom` ends. -/
inductive Result (D E : Type) where
  | returned (datagram : D)
  /-- it raises the error of the transport -/
  | raised (error : E)
  | EBADF
  | assertionError
  | cancelled
  deriving DecidableEq, Repr

/-- Where the running call of `recvfrom` is. -/
inductive Recv where
  /-- there is none -/
  | idle
  /-- suspended in `get`, its future is one of the getters of the queue -/
  | waiting
  /-- suspended in `get`, its future has a result -/
  | woken
  /-- suspended in `get`, it resumes with a `CancelledError` -/
  | cancelled
  deriving DecidableEq, Repr

structure State (D E : Type) where
  recvQueue : List (Option D) := []
  exceptionQueue : List E := []
  /-- `transport.is_closing()` -/
  closing : Bool := false
  /-- the `__transport` of the protocol is not `None` -/
  transport : Bool := true
  /-- the `__connection_lost` of the protocol -/
  connectionLost : Bool := false
  /-- the close waiter of the protocol has a result -/
  closed : Bool := false
  recv : Recv := .idle
  /-- the datagrams and the errors that the protocol has received, up to `connection_lost` -/
  arrived : List (D ⊕ E) := []
  /-- how the calls of `recvfrom` have ended -/
  results : List (Result D E) := []
  deriving DecidableEq, Repr

namespace State
variable (s : State D E)

/-! ## The protocol -/

/-- `recv_queue.put_nowait(item)`: the getter, if there is one, is woken up. -/
def putNowait (item : Option D) : State D E :=
  { s with
    recvQueue := s.recvQueue ++ [item]
    recv := match s.recv with
      | .waiting => .woken
      | recv => recv }

/-- Something reaches the protocol before the connection is lost. -/
def arrives (x : D ⊕ E) : State D E :=
  if s.connectionLost then s else { s with arrived := s.arrived ++ [x] }

/-- `datagram_received`. -/
def datagramReceived (datagram : D) : State D E :=
  let s := s.arrives (.inl datagram)
  if s.transport then s.putNowait (some datagram) else s

/-- `error_received`. -/
def errorReceived (exc : E) : State D E :=
  let s := s.arrives (.inr exc)
  if s.transport then
    { s with exceptionQueue := s.exceptionQueue ++ [exc] }.putNowait none
  else s

/-- `connection_lost`. -/
def connectionIsLost (exc : Option E) : State D E :=
  let s := match exc with
    | none => s
    | some exc => s.arrives (.inr exc)
  let s := { s with connectionLost := true, closed := true }
  if s.transport then
    let s := { s with transport := false }.putNowait none
    match exc with
    | none => s
    | some exc => { s with exceptionQueue := s.exceptionQueue ++ [exc] }
  else s

/-! ## The endpoint -/

/-- `close_nowait`. -/
def closeNowait : State D E := if s.closing then s else { s with closing := true }

/-- The call of `recvfrom` ends. -/
def finish (result : Result D E) : State D E :=
  { s with recv := .idle, results := s.results ++ [result] }

/-- `__check_exceptions`; `otherwise` is how the call ends when there is none. -/
def checkExceptions (otherwise : Result D E) : State D E :=
  match s.exceptionQueue with
  | [] => s.finish otherwise
  | exc :: exceptionQueue => { s with exceptionQueue }.finish (.raised exc)

/-- What `recvfrom` does with an item that it has waited for. -/
def received (item : Option D) : State D E :=
  match item with
  | some datagram => s.finish (.returned datagram)
  | none => s.checkExceptions (if s.closing then .EBADF else .assertionError)

/-- What `recvfrom` does with an item of a closing endpoint, or with the `None` of an empty queue. -/
def receivedClosing (item : Option D) : State D E :=
  match item with
  | some datagram => s.finish (.returned datagram)
  | none => s.checkExceptions .EBADF

/-- `get`, from the test of its loop on. -/
def get : State D E :=
  match s.recvQueue with
  | [] => { s with recv := .waiting }
  | item :: recvQueue => { s with recvQueue }.received item

/-- `recvfrom` up to its first suspension point. -/
def recvfrom : State D E :=
  if s.closing then
    match s.recvQueue with
    | [] => s.receivedClosing none
    | item :: recvQueue => { s with recvQueue }.receivedClosing item
  else s.get

end State

inductive Action (D E : Type) where
  | datagramReceived (datagram : D)
  | errorReceived (exc : E)
  | connectionLost (exc : Option E)
  /-- the transport closes by itself, after an error for instance -/
  | transportCloses
  | closeNowait
  /-- `aclose()` is called; it then waits for the close waiter -/
  | aclose
  /-- `recvfrom()` is called -/
  | recvfrom
  /-- the task of the running call resumes -/
  | resume
  /-- the task of the running call is cancelled -/
  | cancel
  deriving DecidableEq, Repr

/-- One step of an interleaving. -/
def step (s : State D E) : Action D E → Option (State D E)
  | .datagramReceived datagram => some (s.datagramReceived datagram)
  | .errorReceived exc => some (s.errorReceived exc)
  | .connectionLost exc => if s.closing then some (s.connectionIsLost exc) else none
  | .transportCloses => some { s with closing := true }
  | .closeNowait => some s.closeNowait
  | .aclose => some s.closeNowait
  | .recvfrom => if s.recv = .idle then some s.recvfrom else none
  | .resume =>
    match s.recv with
    | .woken => some s.get
    | .cancelled => some (s.finish .cancelled)
    | _ => none
  | .cancel => if s.recv = .idle then none else some { s with recv := .cancelled }

/-! ## What the queues hold -/

/-- What `recvfrom` makes of the two queues: each `None` stands for the next error. -/
def pending : List (Option D) → List E → List (D ⊕ E)
  | [], errors => errors.map .inr
  | some datagram :: items, errors => .inl datagram :: pending items errors
  | none :: items, [] => pending items []
  | none :: items, error :: errors => .inr error :: pending items errors

/-- The number of `None` in the queue. -/
def markers (items : List (Option D)) : ℕ := items.countP Option.isNone

@[simp] theorem markers_nil : markers ([] : List (Option D)) = 0 := rfl

@[simp] theorem markers_some (d : D) (items : List (Option D)) :
    markers (some d :: items) = markers items := by simp [markers]

@[simp] theorem markers_none (items : List (Option D)) :
    markers (none :: items) = markers items + 1 := by simp [markers]

@[simp] theorem markers_append (items items' : List (Option D)) :
    markers (items ++ items') = markers items + markers items' := by simp [markers]

section
variable {items : List (Option D)} {errors : List E}

/-- What is put into balanced queues comes after what they hold. -/
theorem pending_append (h : markers items = errors.length) (items' : List (Option D))
    (errors' : List E) :
    pending (items ++ items') (errors ++ errors') = pending items errors ++ pending items' errors' := by
  induction items generalizing errors with
  | nil =>
    obtain rfl : errors = [] := List.eq_nil_of_length_eq_zero h.symm
    rfl
  | cons item items ih =>
    cases item with
    | some d =>
      rw [markers_some] at h
      simp only [List.cons_append, pending, ih h]
    | none =>
      rw [markers_none] at h
      cases errors with
      | nil => simp at h
      | cons error errors =>
        have hrest : markers items = errors.length := by simpa using h
        simp only [List.cons_append, pending, ih hrest]

/-- Each error is announced; the `None` of a lost connection may stand for none, and is then the
    last item. -/
def Balanced (lost : Bool) (items : List (Option D)) (errors : List E) : Prop :=
  markers items = errors.length ∨
    lost = true ∧ ∃ items', items = items' ++ [none] ∧ markers items' = errors.length

theorem Balanced.errors_nil {lost : Bool} (h : Balanced lost ([] : List (Option D)) errors) :
    errors = [] := by
  rcases h with h | ⟨-, items', h, -⟩
  · exact List.eq_nil_of_length_eq_zero h.symm
  · simp at h

theorem Balanced.tail_some {lost : Bool} {d : D} (h : Balanced lost (some d :: items) errors) :
    Balanced lost items errors := by
  rcases h with h | ⟨hlost, items', h, hmarkers⟩
  · exact Or.inl (by simpa using h)
  · rcases List.append_eq_cons_iff.1 h.symm with ⟨-, h'⟩ | ⟨rest, rfl, rfl⟩
    · simp at h'
    · exact Or.inr ⟨hlost, rest, rfl, by simpa using hmarkers⟩

theorem Balanced.tail_none {lost : Bool} {error : E}
    (h : Balanced lost (none :: items) (error :: errors)) : Balanced lost items errors := by
  rcases h with h | ⟨hlost, items', h, hmarkers⟩
  · exact Or.inl (by simpa using h)
  · rcases List.append_eq_cons_iff.1 h.symm with ⟨rfl, -⟩ | ⟨rest, rfl, rfl⟩
    · simp at hmarkers
    · exact Or.inr ⟨hlost, rest, rfl, by simpa using hmarkers⟩

/-- A `None` that stands for no error is that of a lost connection. -/
theorem Balanced.lost {lost : Bool} (h : Balanced lost (none :: items) ([] : List E)) :
    lost = true ∧ items = [] := by
  rcases h with h | ⟨hlost, items', h, hmarkers⟩
  · simp at h
  · rcases List.append_eq_cons_iff.1 h.symm with ⟨-, h'⟩ | ⟨rest, rfl, rfl⟩
    · exact ⟨hlost, by simpa using h'⟩
    · simp at hmarkers

end

/-! ## What every step keeps -/

/-- What a result gives of what has arrived. -/
def Result.delivered : Result D E → Option (D ⊕ E)
  | returned datagram => some (.inl datagram)
  | raised error => some (.inr error)
  | _ => none

structure Inv (s : State D E) : Prop where
  transport : s.transport = !s.connectionLost
  closing : s.connectionLost = true → s.closing = true
  balanced : Balanced s.connectionLost s.recvQueue s.exceptionQueue
  arrived : s.arrived = s.results.filterMap Result.delivered ++ pending s.recvQueue s.exceptionQueue
  waiting : s.recv = .waiting → s.recvQueue = [] ∧ s.connectionLost = false
  woken : s.recv = .woken → s.recvQueue ≠ []
  noAssertionError : .assertionError ∉ s.results

theorem Inv.init : Inv ({} : State D E) where
  transport := rfl
  closing h := Bool.noConfusion h
  balanced := Or.inl rfl
  arrived := rfl
  waiting h := Recv.noConfusion h
  woken h := Recv.noConfusion h
  noAssertionError := List.not_mem_nil

variable {s s' : State D E}

/-- Until the connection is lost, every `None` announces an error. -/
theorem Inv.markers_eq (h : Inv s) (hlost : s.connectionLost = false) :
    markers s.recvQueue = s.exceptionQueue.length := by
  rcases h.balanced with hb | ⟨hl, -⟩
  · exact hb
  · rw [hlost] at hl
    cases hl

/-- An item is put into the queue, with the errors that it announces. -/
theorem Inv.push (h : Inv s) (hlost : s.connectionLost = false) (item : Option D) (errors : List E)
    (lost closed : Bool) (hclosing : lost = true → s.closing = true)
    (hbalanced : Balanced lost (s.recvQueue ++ [item]) (s.exceptionQueue ++ errors)) :
    Inv ({ s with
      exceptionQueue := s.exceptionQueue ++ errors
      arrived := s.arrived ++ pending [item] errors
      transport := !lost
      connectionLost := lost
      closed := closed }.putNowait item) where
  transport := rfl
  closing := hclosing
  balanced := hbalanced
  arrived := by
    simp only [State.putNowait]
    rw [h.arrived, pending_append (h.markers_eq hlost), List.append_assoc]
  waiting := by
    intro hrecv
    simp only [State.putNowait] at hrecv
    split at hrecv
    · cases hrecv
    · contradiction
  woken _ := by simp [State.putNowait]
  noAssertionError := h.noAssertionError

theorem Inv.datagramReceived (h : Inv s) (datagram : D) : Inv (s.datagramReceived datagram) := by
  have htransport := h.transport
  cases hlost : s.connectionLost with
  | true =>
    rw [hlost] at htransport
    simpa [State.datagramReceived, State.arrives, hlost, htransport] using h
  | false =>
    rw [hlost] at htransport
    have hpush := h.push hlost (some datagram) [] false s.closed Bool.noConfusion
      (Or.inl (by simp [h.markers_eq hlost]))
    simpa [State.datagramReceived, State.arrives, pending, hlost, htransport] using hpush

theorem Inv.errorReceived (h : Inv s) (exc : E) : Inv (s.errorReceived exc) := by
  have htransport := h.transport
  cases hlost : s.connectionLost with
  | true =>
    rw [hlost] at htransport
    simpa [State.errorReceived, State.arrives, hlost, htransport] using h
  | false =>
    rw [hlost] at htransport
    have hpush := h.push hlost none [exc] false s.closed Bool.noConfusion
      (Or.inl (by simp [h.markers_eq hlost]))
    simpa [State.errorReceived, State.arrives, pending, hlost, htransport] using hpush

theorem Inv.connectionIsLost (h : Inv s) (hclosing : s.closing = true) (exc : Option E) :
    Inv (s.connectionIsLost exc) := by
  have htransport := h.transport
  cases hlost : s.connectionLost with
  | true =>
    -- only the close waiter is set again
    rw [hlost] at htransport
    have hs : s.connectionIsLost exc = { s with connectionLost := true, closed := true } := by
      cases exc <;> simp [State.connectionIsLost, State.arrives, hlost, htransport]
    rw [hs, ← hlost]
    exact ⟨h.transport, h.closing, h.balanced, h.arrived, h.waiting, h.woken, h.noAssertionError⟩
  | false =>
    rw [hlost] at htransport
    have hmarkers := h.markers_eq hlost
    cases exc with
    | none =>
      have hpush := h.push hlost none [] true true (fun _ => hclosing)
        (Or.inr ⟨rfl, s.recvQueue, rfl, by simp [hmarkers]⟩)
      simpa [State.connectionIsLost, pending, hlost, htransport, State.putNowait] using hpush
    | some exc =>
      have hpush := h.push hlost none [exc] true true (fun _ => hclosing)
        (Or.inl (by simp [hmarkers]))
      simpa [State.connectionIsLost, State.arrives, pending, hlost, htransport,
        State.putNowait] using hpush

/-- Only the transport closes. -/
theorem Inv.close (h : Inv s) : Inv { s with closing := true } :=
  ⟨h.transport, fun _ => rfl, h.balanced, h.arrived, h.waiting, h.woken, h.noAssertionError⟩

theorem Inv.closeNowait (h : Inv s) : Inv s.closeNowait := by
  unfold State.closeNowait
  split_ifs with hclosing
  · exact h
  · exact h.close

/-- The queues after an item and the error that it announces, if any, have been taken. -/
theorem Inv.take (h : Inv s) {items : List (Option D)} {errors : List E} (result : Result D E)
    (hbalanced : Balanced s.connectionLost items errors)
    (hpending : pending s.recvQueue s.exceptionQueue =
      result.delivered.toList ++ pending items errors) (hresult : result ≠ .assertionError) :
    Inv ({ s with recvQueue := items, exceptionQueue := errors }.finish result) where
  transport := h.transport
  closing := h.closing
  balanced := hbalanced
  arrived := by
    have hlast : [result].filterMap Result.delivered = result.delivered.toList := by
      cases hd : result.delivered <;> simp [List.filterMap, hd]
    simp only [State.finish]
    rw [h.arrived, hpending, List.filterMap_append, hlast, List.append_assoc]
  waiting hrecv := Recv.noConfusion hrecv
  woken hrecv := Recv.noConfusion hrecv
  noAssertionError := by
    simp only [State.finish, List.mem_append, List.mem_singleton, not_or]
    exact ⟨h.noAssertionError, fun heq => hresult heq.symm⟩

/-- A datagram of the queue. -/
theorem Inv.takeDatagram (h : Inv s) {datagram : D} {items : List (Option D)}
    (hqueue : s.recvQueue = some datagram :: items) :
    Inv ({ s with recvQueue := items }.finish (.returned datagram)) := by
  have hbalanced := h.balanced
  rw [hqueue] at hbalanced
  exact h.take (.returned datagram) hbalanced.tail_some (by rw [hqueue]; rfl) nofun

/-- A `None` of the queue; `otherwise` is not an `AssertionError` if the endpoint is closing. -/
theorem Inv.takeNone (h : Inv s) {items : List (Option D)} {otherwise : Result D E}
    (hqueue : s.recvQueue = none :: items) (hdelivered : otherwise.delivered = none)
    (hotherwise : s.closing = true → otherwise ≠ .assertionError) :
    Inv ({ s with recvQueue := items }.checkExceptions otherwise) := by
  have hbalanced := h.balanced
  rw [hqueue] at hbalanced
  unfold State.checkExceptions
  cases herrors : s.exceptionQueue with
  | nil =>
    rw [herrors] at hbalanced
    obtain ⟨hlost, rfl⟩ := hbalanced.lost
    have hempty : Balanced s.connectionLost ([] : List (Option D)) ([] : List E) := Or.inl rfl
    have htake := h.take otherwise hempty
      (by rw [hqueue, herrors, hdelivered]; rfl) (hotherwise (h.closing hlost))
    simpa only [herrors] using htake
  | cons error errors =>
    rw [herrors] at hbalanced
    have htake := h.take (.raised error) hbalanced.tail_none
      (by rw [hqueue, herrors]; rfl) nofun
    simpa only [herrors] using htake

theorem State.get_nil (h : s.recvQueue = []) : s.get = { s with recv := .waiting } := by
  rw [State.get, h]

theorem State.get_cons {item : Option D} {items : List (Option D)}
    (h : s.recvQueue = item :: items) : s.get = { s with recvQueue := items }.received item := by
  rw [State.get, h]

theorem State.recvfrom_open (h : s.closing = false) : s.recvfrom = s.get := by
  rw [State.recvfrom, h]; rfl

theorem State.recvfrom_nil (h : s.closing = true) (hqueue : s.recvQueue = []) :
    s.recvfrom = s.checkExceptions .EBADF := by
  rw [State.recvfrom, h, hqueue]; rfl

theorem State.recvfrom_cons (h : s.closing = true) {item : Option D} {items : List (Option D)}
    (hqueue : s.recvQueue = item :: items) :
    s.recvfrom = { s with recvQueue := items }.receivedClosing item := by
  rw [State.recvfrom, h, hqueue]; rfl

theorem State.checkExceptions_nil (h : s.exceptionQueue = []) (otherwise : Result D E) :
    s.checkExceptions otherwise = s.finish otherwise := by
  rw [State.checkExceptions, h]

theorem Inv.get (h : Inv s) (hempty : s.recvQueue = [] → s.connectionLost = false) : Inv s.get := by
  cases hqueue : s.recvQueue with
  | nil =>
    rw [State.get_nil hqueue]
    exact ⟨h.transport, h.closing, h.balanced, h.arrived, fun _ => ⟨hqueue, hempty hqueue⟩,
      nofun, h.noAssertionError⟩
  | cons item items =>
    rw [State.get_cons hqueue]
    cases item with
    | some datagram => exact h.takeDatagram hqueue
    | none =>
      refine h.takeNone hqueue ?_ fun hclosing => ?_
      · split_ifs <;> rfl
      · rw [if_pos hclosing]
        exact nofun

/-- An empty queue leaves no error. -/
theorem Inv.exceptionQueue_nil (h : Inv s) (hqueue : s.recvQueue = []) : s.exceptionQueue = [] := by
  have hbalanced := h.balanced
  rw [hqueue] at hbalanced
  exact hbalanced.errors_nil

theorem Inv.recvfrom (h : Inv s) : Inv s.recvfrom := by
  cases hclosing : s.closing with
  | false =>
    rw [State.recvfrom_open hclosing]
    refine h.get fun _ => ?_
    cases hlost : s.connectionLost with
    | false => rfl
    | true => rw [h.closing hlost] at hclosing; cases hclosing
  | true =>
    cases hqueue : s.recvQueue with
    | nil =>
      rw [State.recvfrom_nil hclosing hqueue,
        State.checkExceptions_nil (h.exceptionQueue_nil hqueue)]
      exact h.take .EBADF h.balanced rfl nofun
    | cons item items =>
      rw [State.recvfrom_cons hclosing hqueue]
      cases item with
      | some datagram => exact h.takeDatagram hqueue
      | none => exact h.takeNone hqueue rfl fun _ => nofun

/-- **Every step keeps the invariant.** -/
theorem Inv.step {a : Action D E} (h : Inv s) (hs : step s a = some s') : Inv s' := by
  cases a with
  | datagramReceived datagram =>
    cases hs
    exact h.datagramReceived datagram
  | errorReceived exc =>
    cases hs
    exact h.errorReceived exc
  | connectionLost exc =>
    simp only [DatagramEndpoint.step, Option.ite_none_right_eq_some, Option.some.injEq] at hs
    obtain ⟨hclosing, rfl⟩ := hs
    exact h.connectionIsLost hclosing exc
  | transportCloses =>
    cases hs
    exact h.close
  | closeNowait =>
    cases hs
    exact h.closeNowait
  | aclose =>
    cases hs
    exact h.closeNowait
  | recvfrom =>
    simp only [DatagramEndpoint.step, Option.ite_none_right_eq_some, Option.some.injEq] at hs
    obtain ⟨-, rfl⟩ := hs
    exact h.recvfrom
  | resume =>
    simp only [DatagramEndpoint.step] at hs
    split at hs
    · next hrecv =>
      cases hs
      exact h.get fun hempty => absurd hempty (h.woken hrecv)
    · cases hs
      exact h.take .cancelled h.balanced rfl nofun
    · cases hs
  | cancel =>
    simp only [DatagramEndpoint.step, Option.ite_none_left_eq_some, Option.some.injEq] at hs
    obtain ⟨-, rfl⟩ := hs
    exact ⟨h.transport, h.closing, h.balanced, h.arrived, nofun, nofun, h.noAssertionError⟩

/-! ## What the calls of `recvfrom` give -/

/-- The datagram that a call has returned. -/
def Result.datagram : Result D E → Option D
  | returned datagram => some datagram
  | _ => none

/-- The error of the transport that a call has raised. -/
def Result.error : Result D E → Option E
  | raised error => some error
  | _ => none

/-- The running call ends. -/
def Ends (s s' : State D E) : Prop :=
  ∃ result, s'.recv = .idle ∧ s'.results = s.results ++ [result]

/-- What the endpoint guarantees in a state. -/
structure Sound (s : State D E) : Prop where
  /-- What `recvfrom` has given is, in order and each once, what has arrived before the connection was
      lost, and the rest is in the queues: no datagram is lost, no error is skipped. -/
  delivered : s.results.filterMap Result.delivered ++ pending s.recvQueue s.exceptionQueue = s.arrived
  datagrams : s.results.filterMap Result.datagram <+: s.arrived.filterMap Sum.getLeft?
  errors : s.results.filterMap Result.error <+: s.arrived.filterMap Sum.getRight?
  noAssertionError : .assertionError ∉ s.results
  /-- The call that has been woken up ends when it resumes, and every call has been woken up once the
      connection is lost. -/
  resumeEnds : s.recv = .woken ∨ s.connectionLost = true ∧ s.recv ≠ .idle →
    ∃ s', step s .resume = some s' ∧ Ends s s'
  /-- A call of a closing endpoint does not wait, and raises when the queue is drained. -/
  closingEnds : s.closing = true → s.recv = .idle → ∃ s', step s .recvfrom = some s' ∧ Ends s s' ∧
    (s.recvQueue = [] → s' = s.finish .EBADF)

theorem ends_finish (s : State D E) (result : Result D E) : Ends s (s.finish result) :=
  ⟨result, rfl, rfl⟩

theorem ends_checkExceptions (s : State D E) (otherwise : Result D E) :
    Ends s (s.checkExceptions otherwise) := by
  unfold State.checkExceptions
  split
  · exact ends_finish s otherwise
  · next error _ _ => exact ⟨.raised error, rfl, rfl⟩

/-- An item that is taken from the queue ends the call. -/
theorem ends_received {items : List (Option D)} (item : Option D) :
    Ends s ({ s with recvQueue := items }.received item) ∧
      Ends s ({ s with recvQueue := items }.receivedClosing item) := by
  cases item with
  | some datagram => exact ⟨⟨.returned datagram, rfl, rfl⟩, ⟨.returned datagram, rfl, rfl⟩⟩
  | none => exact ⟨ends_checkExceptions _ _, ends_checkExceptions _ _⟩

theorem delivered_datagram (results : List (Result D E)) :
    (results.filterMap Result.delivered).filterMap Sum.getLeft? =
      results.filterMap Result.datagram := by
  rw [List.filterMap_filterMap]
  refine List.filterMap_congr fun result _ => ?_
  cases result <;> rfl

theorem delivered_error (results : List (Result D E)) :
    (results.filterMap Result.delivered).filterMap Sum.getRight? =
      results.filterMap Result.error := by
  rw [List.filterMap_filterMap]
  refine List.filterMap_congr fun result _ => ?_
  cases result <;> rfl

theorem Inv.resumeEnds (h : Inv s) (hrecv : s.recv = .woken ∨ s.connectionLost = true ∧ s.recv ≠ .idle) :
    ∃ s', DatagramEndpoint.step s .resume = some s' ∧ Ends s s' := by
  cases hr : s.recv with
  | idle => simp [hr] at hrecv
  | waiting =>
    have hlost := (h.waiting hr).2
    simp [hr, hlost] at hrecv
  | woken =>
    obtain ⟨item, items, hqueue⟩ := List.exists_cons_of_ne_nil (h.woken hr)
    refine ⟨_, by rw [DatagramEndpoint.step, hr], ?_⟩
    rw [State.get_cons hqueue]
    exact (ends_received item).1
  | cancelled => exact ⟨_, by rw [DatagramEndpoint.step, hr], ends_finish s .cancelled⟩

theorem Inv.closingEnds (h : Inv s) (hclosing : s.closing = true) (hidle : s.recv = .idle) :
    ∃ s', DatagramEndpoint.step s .recvfrom = some s' ∧ Ends s s' ∧
      (s.recvQueue = [] → s' = s.finish .EBADF) := by
  refine ⟨s.recvfrom, if_pos hidle, ?_⟩
  cases hqueue : s.recvQueue with
  | nil =>
    rw [State.recvfrom_nil hclosing hqueue,
      State.checkExceptions_nil (h.exceptionQueue_nil hqueue)]
    exact ⟨ends_finish s .EBADF, fun _ => rfl⟩
  | cons item items =>
    rw [State.recvfrom_cons hclosing hqueue]
    exact ⟨(ends_received item).2, nofun⟩

theorem Inv.sound (h : Inv s) : Sound s where
  delivered := h.arrived.symm
  datagrams := by
    rw [h.arrived, List.filterMap_append, delivered_datagram]
    exact List.prefix_append _ _
  errors := by
    rw [h.arrived, List.filterMap_append, delivered_error]
    exact List.prefix_append _ _
  noAssertionError := h.noAssertionError
  resumeEnds := h.resumeEnds
  closingEnds := h.closingEnds

/-- **The endpoint loses no datagram and skips no error**, in every interleaving. -/
theorem endpoint_sound {as : List (Action D E)} (h : Trans.run step {} as = some s) : Sound s :=
  Inv.sound (Trans.run_inv (fun _ _ _ => Inv.step) Inv.init h)

/-- A datagram and an error arrive while a call waits, then the connection is lost: the calls give the
    datagram, the error, and `EBADF`. -/
theorem endpoint_sound_lost : Sound ({
    closing := true
    transport := false
    connectionLost := true
    closed := true
    arrived := [.inl 7, .inr 5]
    results := [.returned 7, .raised 5, .EBADF, .EBADF] } : State ℕ ℕ) :=
  @endpoint_sound ℕ ℕ _ [.recvfrom, .datagramReceived 7, .errorReceived 5, .resume, .closeNowait,
    .connectionLost none, .datagramReceived 8, .recvfrom, .recvfrom, .recvfrom] rfl

end DatagramEndpoint

end EasyNetwork
