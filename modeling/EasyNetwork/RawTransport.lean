/-
  A raw socket transport of asyncio (`BaseRawSocketTransport` in
  `lowlevel/api_async/backend/_asyncio/_base_raw_transport.py`), with one reader, one writer and
  the calls of `aclose()`.

  An operation tries its system call, and suspends until the descriptor is ready when the call
  would block.  `aclose()` cancels the scope of the reader, gives it one turn of the event loop, and
  waits for the writer; the scope of the writer is cancelled when this wait is cancelled.  The
  socket is closed whatever happens.  Nobody waits for a descriptor that has been closed: the
  selector does not report it.

  * `aclose_covers`: when the socket is closed, each operation that is not over has had its scope
    cancelled iff `aclose()` is not cancelled in its first suspension while there is a writer.
-/
import EasyNetwork.Lib.Trans
import Mathlib.Logic.Function.Basic

namespace EasyNetwork

namespace RawTransport

/-- `_sock_recv`, or `_sock_send` and `_sock_send_all`. -/
inductive Direction where
  | read
  | write
  deriving DecidableEq, Repr

/-- A task inside `_read_task_context` or `_write_task_context`. -/
structure Context where
  /-- `cancel()` has been called on its scope -/
  cancelCalled : Bool := false
  /-- what it waits for has happened -/
  ready : Bool := false
  deriving DecidableEq, Repr

/-- What the system calls come to before the operation would suspend. -/
inductive Attempt where
  | blocks
  | returns
  | raises
  deriving DecidableEq, Repr

/-- How an operation ends. -/
inductive Result where
  | returned
  | raised
  | busyResource
  /-- `OSError(EBADF)` -/
  | badDescriptor
  /-- a cancellation that is not the one of the scope -/
  | cancelled
  deriving DecidableEq, Repr

/-- Where the call of `aclose()` that found the socket is. -/
inductive Closing where
  | notCalled
  /-- in `coro_yield()` -/
  | yielding
  /-- in `asyncio.shield(write_fut)` -/
  | shielding
  | ended (cancelled : Bool)
  deriving DecidableEq, Repr

structure State where
  /-- `__socket` is not `None` -/
  hasSocket : Bool := true
  /-- the socket has been closed -/
  closed : Bool := false
  /-- `__read_scope` and `__write_scope` -/
  scope : Direction → Option Context := fun _ => none
  closing : Closing := .notCalled
  results : List (Direction × Result) := []

inductive Action where
  /-- an operation is called -/
  | start (d : Direction) (attempt : Attempt)
  /-- the descriptor is ready, or the awaited system call has been made -/
  | ready (d : Direction)
  /-- the task of the operation runs -/
  | resume (d : Direction) (attempt : Attempt)
  /-- a cancellation from somewhere else reaches the operation -/
  | throw (d : Direction)
  | aclose
  | acloseResume
  | acloseThrow
  deriving DecidableEq, Repr

namespace State
variable (s : State)

def setScope (d : Direction) (c : Option Context) : State :=
  { s with scope := Function.update s.scope d c }

/-- The operation ends without having entered the context. -/
def refuse (d : Direction) (r : Result) : State := { s with results := s.results ++ [(d, r)] }

/-- The operation ends and leaves the context. -/
def finish (d : Direction) (r : Result) : State := (s.setScope d none).refuse d r

/-- The loop of an operation inside the context. -/
def attempt (d : Direction) : Attempt → State
  | .blocks => s.setScope d (some {})
  | .returns => s.finish d .returned
  | .raises => s.finish d .raised

/-- `_sock_recv`, `_sock_send` and `_sock_send_all` from their call on. -/
def start (d : Direction) (attempt : Attempt) : State :=
  match s.scope d with
  | some _ => s.refuse d .busyResource
  | none => if s.hasSocket then s.attempt d attempt else s.refuse d .badDescriptor

/-- `scope.cancel()`. -/
def cancelScope (d : Direction) : State :=
  s.setScope d ((s.scope d).map fun c => { c with cancelCalled := true })

/-- The end of `aclose()`, which closes the socket. -/
def close (cancelled : Bool) : State := { s with closed := true, closing := .ended cancelled }

/-- `aclose()` from the test of `__write_scope` on. -/
def acloseWriter : State :=
  match s.scope .write with
  | some _ => { s with closing := .shielding }
  | none => s.close false

/-- `aclose()` from its call on. -/
def aclose : State :=
  if s.hasSocket then
    let s := { s with hasSocket := false }
    match s.scope .read with
    | some _ => { s.cancelScope .read with closing := .yielding }
    | none => s.acloseWriter
  else s

end State

/-- One step of an interleaving. -/
def step (s : State) : Action → Option State
  | .start d attempt => some (s.start d attempt)
  | .ready d =>
    match s.scope d with
    | some c => if s.closed then none else some (s.setScope d (some { c with ready := true }))
    | none => none
  | .resume d attempt =>
    match s.scope d with
    | some c =>
      -- the scope catches its own cancellation
      if c.cancelCalled then some (s.finish d .badDescriptor)
      -- a system call on a closed socket does not block
      else if c.ready ∧ ¬ (s.closed ∧ attempt = .blocks) then some (s.attempt d attempt)
      else none
    | none => none
  | .throw d =>
    match s.scope d with
    | some _ => some (s.finish d .cancelled)
    | none => none
  | .aclose => some s.aclose
  | .acloseResume =>
    match s.closing with
    | .yielding => some s.acloseWriter
    | .shielding =>
      match s.scope .write with
      | some _ => none
      | none => some (s.close false)
    | _ => none
  | .acloseThrow =>
    match s.closing with
    | .yielding => some (s.close true)
    | .shielding => some ((s.cancelScope .write).close true)
    | _ => none

/-- If `aclose()` is cancelled in `coro_yield()`, there is no writer. -/
def Undisturbed (s : State) (a : Action) : Prop :=
  a = .acloseThrow → s.closing = .yielding → s.scope .write = none

instance (s : State) (a : Action) : Decidable (Undisturbed s a) :=
  inferInstanceAs (Decidable (_ → _))

/-- The scope of every operation that is not over has been cancelled. -/
def AllCancelled (s : State) : Prop := ∀ d c, s.scope d = some c → c.cancelCalled = true

/-- If the step closes the socket, it leaves no operation behind that has not been cancelled. -/
def CancelsIfCloses (s : State) (a : Action) : Prop :=
  s.closed = false → ∀ s', step s a = some s' → s'.closed = true → AllCancelled s'

/-! ## The invariant -/

variable {s s' : State} {d : Direction} {r : Result} {c : Context}

theorem scope_setScope_self (s : State) (d : Direction) (c : Option Context) :
    (s.setScope d c).scope d = c :=
  Function.update_self ..

theorem scope_setScope_of_ne {d' : Direction} (h : d' ≠ d) (c : Option Context) :
    (s.setScope d c).scope d' = s.scope d' :=
  Function.update_of_ne h ..

theorem scope_cancelScope_of_ne {d' : Direction} (h : d' ≠ d) :
    (s.cancelScope d).scope d' = s.scope d' :=
  scope_setScope_of_ne h _

theorem cancelCalled_of_cancelScope (hc : (s.cancelScope d).scope d = some c) :
    c.cancelCalled = true := by
  rw [State.cancelScope, scope_setScope_self] at hc
  obtain ⟨c', -, rfl⟩ := Option.map_eq_some_iff.1 hc
  rfl

theorem scope_finish_self : (s.finish d r).scope d = none := scope_setScope_self ..

theorem scope_finish_of_ne {d' : Direction} (h : d' ≠ d) : (s.finish d r).scope d' = s.scope d' :=
  scope_setScope_of_ne h none

/-- What holds between two steps, whatever has been cancelled. -/
structure Inv (s : State) : Prop where
  closed_iff : s.closed = true ↔ ∃ cancelled, s.closing = .ended cancelled
  notCalled_iff : s.closing = .notCalled ↔ s.hasSocket = true
  read : s.hasSocket = false → ∀ c, s.scope .read = some c → c.cancelCalled = true
  write : s.closed = false → ∀ c, s.scope .write = some c → c.cancelCalled = false

namespace Inv

theorem init : Inv {} :=
  ⟨⟨nofun, nofun⟩, iff_of_true rfl rfl, nofun, fun _ _ h => nomatch h⟩

/-- The contexts of one direction change. -/
theorem setScope (h : Inv s) {c : Option Context}
    (hread : d = .read → s.hasSocket = false → ∀ c', c = some c' → c'.cancelCalled = true)
    (hwrite : d = .write → s.closed = false → ∀ c', c = some c' → c'.cancelCalled = false) :
    Inv (s.setScope d c) := by
  refine ⟨h.closed_iff, h.notCalled_iff, fun hsocket c' hc' => ?_, fun hclosed c' hc' => ?_⟩
  · by_cases hd : .read = d
    · subst hd
      rw [scope_setScope_self] at hc'
      exact hread rfl hsocket c' hc'
    · rw [scope_setScope_of_ne hd] at hc'
      exact h.read hsocket c' hc'
  · by_cases hd : .write = d
    · subst hd
      rw [scope_setScope_self] at hc'
      exact hwrite rfl hclosed c' hc'
    · rw [scope_setScope_of_ne hd] at hc'
      exact h.write hclosed c' hc'

theorem refuse (h : Inv s) (d : Direction) (r : Result) : Inv (s.refuse d r) :=
  ⟨h.closed_iff, h.notCalled_iff, h.read, h.write⟩

theorem finish (h : Inv s) (d : Direction) (r : Result) : Inv (s.finish d r) :=
  (h.setScope (c := none) (fun _ _ _ hc => by cases hc) fun _ _ _ hc => by cases hc).refuse d r

/-- A reader that suspends has the socket: otherwise it has been cancelled. -/
theorem attempt (h : Inv s) {a : Attempt} (hread : d = .read → s.hasSocket = true) :
    Inv (s.attempt d a) := by
  cases a with
  | blocks =>
    refine h.setScope (fun hd hsocket => ?_) fun _ _ c' hc' => ?_
    · rw [hread hd] at hsocket
      cases hsocket
    · cases hc'
      rfl
  | returns => exact h.finish d _
  | raises => exact h.finish d _

theorem start (h : Inv s) (d : Direction) (a : Attempt) : Inv (s.start d a) := by
  unfold State.start
  cases s.scope d with
  | some c => exact h.refuse d _
  | none =>
    show Inv (if _ then _ else _)
    split_ifs with hsocket
    · exact h.attempt fun _ => hsocket
    · exact h.refuse d _

/-- The socket is closed; the reader has been cancelled. -/
theorem close (hsocket : s.hasSocket = false)
    (hread : ∀ c, s.scope .read = some c → c.cancelCalled = true) (cancelled : Bool) :
    Inv (s.close cancelled) where
  closed_iff := iff_of_true rfl ⟨cancelled, rfl⟩
  notCalled_iff := ⟨nofun, fun h' => absurd (h'.symm.trans hsocket) nofun⟩
  read _ := hread
  write := nofun

/-- `aclose()` suspends; the reader has been cancelled, and the writer has not. -/
theorem suspend (hsocket : s.hasSocket = false) (hclosed : s.closed = false)
    (hread : ∀ c, s.scope .read = some c → c.cancelCalled = true)
    (hwrite : ∀ c, s.scope .write = some c → c.cancelCalled = false) {closing : Closing}
    (hclosing : closing = .yielding ∨ closing = .shielding) :
    Inv { s with closing := closing } where
  closed_iff := iff_of_false (by rw [hclosed]; nofun) fun ⟨cancelled, hc⟩ => by
    rcases hclosing with rfl | rfl <;> cases hc
  notCalled_iff :=
    iff_of_false (by rcases hclosing with rfl | rfl <;> nofun) (by rw [hsocket]; nofun)
  read _ := hread
  write _ := hwrite

theorem acloseWriter (hsocket : s.hasSocket = false) (hclosed : s.closed = false)
    (hread : ∀ c, s.scope .read = some c → c.cancelCalled = true)
    (hwrite : ∀ c, s.scope .write = some c → c.cancelCalled = false) : Inv s.acloseWriter := by
  unfold State.acloseWriter
  split
  · exact suspend hsocket hclosed hread hwrite (.inr rfl)
  · exact close hsocket hread false

theorem hasSocket_eq_false (h : Inv s) (hclosing : s.closing ≠ .notCalled) :
    s.hasSocket = false :=
  Bool.eq_false_iff.2 fun hsocket => hclosing (h.notCalled_iff.2 hsocket)

theorem closed_eq_false (h : Inv s) (hclosing : ∀ cancelled, s.closing ≠ .ended cancelled) :
    s.closed = false :=
  Bool.eq_false_iff.2 fun hclosed =>
    (h.closed_iff.1 hclosed).elim fun cancelled hc => hclosing cancelled hc

theorem aclose (h : Inv s) : Inv s.aclose := by
  unfold State.aclose
  split_ifs with hsocket
  · have hclosed : s.closed = false := h.closed_eq_false fun cancelled hc =>
      absurd ((h.notCalled_iff.2 hsocket).symm.trans hc) nofun
    show Inv (match s.scope .read with | some _ => _ | none => _)
    split
    · refine suspend (s := State.cancelScope { s with hasSocket := false } .read) rfl hclosed
        (fun c hc => ?_) (fun c hc => ?_) (.inl rfl)
      · exact cancelCalled_of_cancelScope hc
      · rw [scope_cancelScope_of_ne Direction.noConfusion] at hc
        exact h.write hclosed c hc
    · next hread =>
      refine acloseWriter rfl hclosed (fun c hc => ?_) (h.write hclosed)
      exact absurd (hc.symm.trans hread) nofun
  · exact h

/-- **Step lemma.** -/
theorem step {a : Action} (h : Inv s) (hs : step s a = some s') : Inv s' := by
  cases a with
  | start d attempt =>
    cases hs
    exact h.start d attempt
  | ready d =>
    simp only [RawTransport.step] at hs
    split at hs
    · next c hc =>
      split_ifs at hs
      cases hs
      refine h.setScope (fun hd hsocket c' hc' => ?_) fun hd hclosed c' hc' => ?_
      · subst hd
        cases hc'
        exact h.read hsocket c hc
      · subst hd
        cases hc'
        exact h.write hclosed c hc
    · cases hs
  | resume d attempt =>
    simp only [RawTransport.step] at hs
    split at hs
    · next c hc =>
      split_ifs at hs with hcancel
      · cases hs
        exact h.finish d _
      · cases hs
        refine h.attempt fun hd => ?_
        subst hd
        by_contra hsocket
        exact hcancel (h.read (Bool.eq_false_iff.2 hsocket) c hc)
    · cases hs
  | throw d =>
    simp only [RawTransport.step] at hs
    split at hs <;> cases hs
    exact h.finish d _
  | aclose =>
    cases hs
    exact h.aclose
  | acloseResume =>
    simp only [RawTransport.step] at hs
    split at hs
    · next hc =>
      cases hs
      have hsocket := h.hasSocket_eq_false (by rw [hc]; nofun)
      have hclosed := h.closed_eq_false (by rw [hc]; nofun)
      exact acloseWriter hsocket hclosed (h.read hsocket) (h.write hclosed)
    · next hc =>
      have hsocket := h.hasSocket_eq_false (by rw [hc]; nofun)
      split at hs <;> cases hs
      exact close hsocket (h.read hsocket) false
    · cases hs
  | acloseThrow =>
    simp only [RawTransport.step] at hs
    split at hs <;> cases hs
    · next hc =>
      have hsocket := h.hasSocket_eq_false (by rw [hc]; nofun)
      exact close hsocket (h.read hsocket) true
    · next hc =>
      have hsocket := h.hasSocket_eq_false (by rw [hc]; nofun)
      refine close (s := s.cancelScope .write) hsocket (fun c hread => h.read hsocket c ?_) true
      rw [scope_cancelScope_of_ne Direction.noConfusion] at hread
      exact hread

end Inv

/-! ## When the socket is closed -/

/-- Only `aclose()` closes the socket. -/
theorem closed_of_not_aclose {a : Action} (hs : step s a = some s') (haclose : a ≠ .aclose)
    (hresume : a ≠ .acloseResume) (hthrow : a ≠ .acloseThrow) : s'.closed = s.closed := by
  cases a with
  | start d attempt =>
    cases hs
    show (State.start s d attempt).closed = _
    unfold State.start
    cases s.scope d with
    | some c => rfl
    | none => cases s.hasSocket <;> cases attempt <;> rfl
  | ready d =>
    simp only [step] at hs
    split at hs
    · split_ifs at hs
      cases hs
      rfl
    · cases hs
  | resume d attempt =>
    simp only [step] at hs
    split at hs
    · split_ifs at hs <;> cases hs
      · rfl
      · cases attempt <;> rfl
    · cases hs
  | throw d =>
    simp only [step] at hs
    split at hs <;> cases hs
    rfl
  | aclose => exact absurd rfl haclose
  | acloseResume => exact absurd rfl hresume
  | acloseThrow => exact absurd rfl hthrow

/-- Without a writer, the socket can be closed. -/
theorem allCancelled_of_write (hread : ∀ c, s.scope .read = some c → c.cancelCalled = true)
    (hwrite : s.scope .write = none) : AllCancelled s := by
  rintro (_ | _) c hc
  · exact hread c hc
  · exact absurd (hc.symm.trans hwrite) nofun

theorem allCancelled_acloseWriter (hclosed : s.closed = false)
    (hread : ∀ c, s.scope .read = some c → c.cancelCalled = true)
    (hs : s.acloseWriter.closed = true) : AllCancelled s.acloseWriter := by
  unfold State.acloseWriter at hs ⊢
  cases hwrite : s.scope .write with
  | some c =>
    rw [hwrite] at hs
    exact absurd (hclosed.symm.trans hs) nofun
  | none => exact allCancelled_of_write hread hwrite

/-- **What a step that closes the socket leaves behind.** -/
theorem cancelsIfCloses_iff (h : Inv s) (a : Action) : CancelsIfCloses s a ↔ Undisturbed s a := by
  constructor
  · rintro hcancels rfl hyielding
    have hclosed := h.closed_eq_false (by rw [hyielding]; nofun)
    have hs : step s .acloseThrow = some (s.close true) := by rw [step, hyielding]
    cases hwrite : s.scope .write with
    | none => rfl
    | some c =>
      have htrue := hcancels hclosed _ hs rfl .write c hwrite
      exact absurd (htrue.symm.trans (h.write hclosed c hwrite)) nofun
  · intro hundisturbed hclosed s' hs hcloses
    by_cases haclose : a = .aclose
    · subst haclose
      cases hs
      unfold State.aclose at hcloses ⊢
      split_ifs at hcloses ⊢ with hsocket
      · cases hread : s.scope .read with
        | some c =>
          simp only [hread] at hcloses
          exact absurd (hclosed.symm.trans hcloses) nofun
        | none =>
          simp only [hread] at hcloses ⊢
          exact allCancelled_acloseWriter hclosed (fun c hc => absurd (hc.symm.trans hread) nofun)
            hcloses
      · exact absurd (hclosed.symm.trans hcloses) nofun
    by_cases hresume : a = .acloseResume
    · subst hresume
      simp only [step] at hs
      split at hs
      · next hc =>
        cases hs
        exact allCancelled_acloseWriter hclosed (h.read (h.hasSocket_eq_false (by rw [hc]; nofun)))
          hcloses
      · next hc =>
        split at hs <;> cases hs
        next hwrite =>
          exact allCancelled_of_write (h.read (h.hasSocket_eq_false (by rw [hc]; nofun))) hwrite
      · cases hs
    by_cases hthrow : a = .acloseThrow
    · subst hthrow
      simp only [step] at hs
      split at hs <;> cases hs
      · next hc =>
        exact allCancelled_of_write (h.read (h.hasSocket_eq_false (by rw [hc]; nofun)))
          (hundisturbed rfl hc)
      · next hc =>
        have hne : Direction.read ≠ .write := nofun
        rintro (_ | _) c hscope
        · refine h.read (h.hasSocket_eq_false (by rw [hc]; nofun)) c ?_
          exact (scope_cancelScope_of_ne (s := s) hne).symm.trans hscope
        · exact cancelCalled_of_cancelScope (s := s) (d := .write) hscope
    · exact absurd (hclosed.symm.trans
        ((closed_of_not_aclose hs haclose hresume hthrow).symm.trans hcloses)) nofun

/-! ## After the socket has been closed -/

/-- What a step can do: no operation begins to wait, and only a cancelled one ends. -/
theorem Inv.step_closed {a : Action} (h : Inv s) (hclosed : s.closed = true)
    (hwaits : ∀ d c, s.scope d = some c → c.cancelCalled = true ∨ c = {})
    (hs : RawTransport.step s a = some s') :
    s'.closed = true ∧ (s'.scope = s.scope ∨ ∃ d r, s' = s.finish d r ∧
      (a = .throw d ∨ ∃ c, s.scope d = some c ∧ c.cancelCalled = true)) := by
  obtain ⟨cancelled, hended⟩ := h.closed_iff.1 hclosed
  have hsocket : s.hasSocket = false := h.hasSocket_eq_false (by rw [hended]; nofun)
  cases a with
  | start d attempt =>
    cases hs
    unfold State.start
    cases s.scope d with
    | some c => exact ⟨hclosed, .inl rfl⟩
    | none =>
      rw [hsocket]
      exact ⟨hclosed, .inl rfl⟩
  | ready d =>
    simp only [RawTransport.step, hclosed] at hs
    split at hs <;> cases hs
  | resume d attempt =>
    simp only [RawTransport.step] at hs
    split at hs
    · next c hc =>
      rcases hwaits d c hc with hcancel | rfl
      · rw [if_pos hcancel] at hs
        cases hs
        exact ⟨hclosed, .inr ⟨d, _, rfl, .inr ⟨c, hc, hcancel⟩⟩⟩
      · cases hs
    · cases hs
  | throw d =>
    simp only [RawTransport.step] at hs
    split at hs <;> cases hs
    exact ⟨hclosed, .inr ⟨d, _, rfl, .inl rfl⟩⟩
  | aclose =>
    cases hs
    unfold State.aclose
    rw [hsocket]
    exact ⟨hclosed, .inl rfl⟩
  | acloseResume => simp only [RawTransport.step, hended, reduceCtorEq] at hs
  | acloseThrow => simp only [RawTransport.step, hended, reduceCtorEq] at hs

/-- A cancelled operation stays cancelled. -/
theorem AllCancelled.step {a : Action} (h : Inv s) (hclosed : s.closed = true)
    (hall : AllCancelled s) (hs : step s a = some s') : AllCancelled s' := by
  obtain ⟨-, hscope | ⟨d, r, rfl, -⟩⟩ := h.step_closed hclosed (fun d c hc => .inl (hall d c hc)) hs
  · intro d c hc
    rw [hscope] at hc
    exact hall d c hc
  · intro d' c hc
    by_cases hd : d' = d
    · subst hd
      exact absurd (hc.symm.trans scope_finish_self) nofun
    · exact hall d' c ((scope_finish_of_ne hd).symm.trans hc)

/-- The operation of a cancelled scope ends when its task runs. -/
theorem step_resume_of_cancelled (hc : s.scope d = some c) (hcancel : c.cancelCalled = true)
    (attempt : Attempt) : step s (.resume d attempt) = some (s.finish d .badDescriptor) := by
  simp only [step, hc, if_pos hcancel]

/-- An operation that has not been cancelled is left waiting for the closed descriptor: only a
    cancellation from somewhere else ends it. -/
theorem Inv.waits {a : Action} (h : Inv s) (hclosed : s.closed = true)
    (hwrite : s.scope .write = some {}) (ha : a ≠ .throw .write)
    (hs : RawTransport.step s a = some s') : s'.closed = true ∧ s'.scope .write = some {} := by
  obtain ⟨cancelled, hended⟩ := h.closed_iff.1 hclosed
  have hsocket : s.hasSocket = false := h.hasSocket_eq_false (by rw [hended]; nofun)
  have hwaits : ∀ d c, s.scope d = some c → c.cancelCalled = true ∨ c = {} := by
    intro d c hc
    cases d with
    | read => exact .inl (h.read hsocket c hc)
    | write => exact .inr (Option.some.inj (hc.symm.trans hwrite))
  obtain ⟨hclosed', hscope | ⟨d, r, rfl, hends⟩⟩ := h.step_closed hclosed hwaits hs
  · rw [hscope]
    exact ⟨hclosed', hwrite⟩
  · have hne : .write ≠ d := by
      rintro rfl
      rcases hends with hthrow | ⟨c, hc, hcancel⟩
      · exact ha hthrow
      · cases hwrite.symm.trans hc
        cases hcancel
    exact ⟨hclosed', (scope_finish_of_ne hne).trans hwrite⟩

theorem run_waits {as : List Action} (h : Inv s) (hclosed : s.closed = true)
    (hwrite : s.scope .write = some {}) (hthrow : .throw .write ∉ as)
    (hs : Trans.run step s as = some s') : s'.scope .write = some {} := by
  have hok : Trans.Meets step (fun _ a => a ≠ .throw .write) s as :=
    Trans.meets_of_forall fun a ha _ heq => hthrow (heq ▸ ha)
  refine (Trans.run_inv_of (I := fun s => Inv s ∧ s.closed = true ∧ s.scope .write = some {})
    (fun m a m' hm hne hstep => ?_) ⟨h, hclosed, hwrite⟩ hok hs).2.2
  exact ⟨hm.1.step hstep, hm.1.waits hm.2.1 hm.2.2 hne hstep⟩

/-! ## Runs -/

/-- **Closing a transport leaves no operation behind iff `aclose()` is not cancelled in its first
    suspension while there is a writer**: in a run, the step that closes the socket finds every
    operation that is not over cancelled iff this does not happen; then, from the closing on, each
    operation that is not over ends with `EBADF` when its task runs next. -/
theorem aclose_covers {as : List Action} (h : Trans.run step {} as = some s) :
    (Trans.Meets step CancelsIfCloses {} as ↔ Trans.Meets step Undisturbed {} as) ∧
      (Trans.Meets step Undisturbed {} as → s.closed = true → ∀ d c, s.scope d = some c →
        c.cancelCalled = true ∧
          ∀ attempt, step s (.resume d attempt) = some (s.finish d .badDescriptor)) := by
  refine ⟨Trans.meets_congr (fun _ a _ hinv _ => cancelsIfCloses_iff hinv a)
    (fun _ _ _ hinv _ => hinv.step) Inv.init h, fun hok hclosed d c hc => ?_⟩
  have hall : Inv s ∧ (s.closed = true → AllCancelled s) := by
    refine Trans.run_inv_of (I := fun s => Inv s ∧ (s.closed = true → AllCancelled s))
      (fun m a m' hm hmok hstep => ⟨hm.1.step hstep, fun hm' => ?_⟩) ⟨Inv.init, nofun⟩ hok h
    rcases hmc : m.closed with _ | _
    · exact (cancelsIfCloses_iff hm.1 a).2 hmok hmc m' hstep hm'
    · exact (hm.2 hmc).step hm.1 hmc hstep
  have hcancel := hall.2 hclosed d c hc
  exact ⟨hcancel, step_resume_of_cancelled hc hcancel⟩

/-- A reader and a writer; `aclose()` is cancelled while it waits for the writer. -/
theorem aclose_covers_shielding : ∃ s, Trans.run step {}
      [.start .read .blocks, .start .write .blocks, .aclose, .resume .read .blocks, .acloseResume,
        .acloseThrow] = some s ∧
      step s (.resume .write .blocks) = some (s.finish .write .badDescriptor) := by
  obtain ⟨s, hs⟩ : ∃ s, Trans.run step {}
      [.start .read .blocks, .start .write .blocks, .aclose, .resume .read .blocks, .acloseResume,
        .acloseThrow] = some s := ⟨_, rfl⟩
  have hclosed : s.closed = true := by
    cases hs
    rfl
  have hwrite : s.scope .write = some { cancelCalled := true } := by
    cases hs
    rfl
  exact ⟨s, hs, ((aclose_covers hs).2 (by decide) hclosed .write _ hwrite).2 .blocks⟩

/-- A reader and a writer; `aclose()` is cancelled in `coro_yield()`.  The socket is closed, and the
    writer waits for it until something else cancels it. -/
theorem aclose_leaves_writer : ∃ s, Trans.run step {}
      [.start .read .blocks, .start .write .blocks, .aclose, .acloseThrow] = some s ∧
      s.closed = true ∧ ∀ as s', .throw .write ∉ as → Trans.run step s as = some s' →
        s'.scope .write = some {} := by
  obtain ⟨s, hs⟩ : ∃ s, Trans.run step {}
      [.start .read .blocks, .start .write .blocks, .aclose, .acloseThrow] = some s := ⟨_, rfl⟩
  have hinv : Inv s := Trans.run_inv (fun _ _ _ => Inv.step) Inv.init hs
  have hclosed : s.closed = true := by
    cases hs
    rfl
  have hwrite : s.scope .write = some {} := by
    cases hs
    rfl
  exact ⟨s, hs, hclosed, fun as s' hthrow => run_waits hinv hclosed hwrite hthrow⟩

end RawTransport

end EasyNetwork
