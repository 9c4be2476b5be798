/-
  The server loop of a trio datagram listener (`TrioDatagramListenerSocketAdapter` in
  `_trio/datagram/listener.py`, and `retry_socket_method` in `_trio/_trio_utils.py`).

  `serve` and `serve_with_ancillary` have the same loop; `D` is what a reception gives.  While the
  task of `serve` runs, from one suspension point to the next, no other task does.  No cancellation
  is pending in this task, hence `checkpoint_if_cancelled` does not yield.  A socket that is closed
  during `wait_readable` makes this raise, also when the socket has become readable before.

  `serve_ends_iff`: once the socket is closed, the loop ends, by raising `EBADF`, iff `serve` was not
  suspended in the checkpoint that follows a reception when the socket was closed, and the socket was
  not closed when `serve` was called.  Otherwise it tries to receive for ever (`spin`).
-/
import EasyNetwork.Lib.Trans

namespace EasyNetwork

namespace DatagramListener

variable {D : Type}

/-! ## The listener -/

inductive OSError where
  | EBADF
  | unrelated (errno : ℕ)
  deriving DecidableEq, Repr

/-- Where `serve` is. -/
inductive Serve (D : Type) where
  | notStarted
  /-- its task runs, and is about to call `recvfrom()` or `recvmsg()` -/
  | receives (alwaysYield : Bool)
  /-- suspended in `wait_readable` -/
  | waitReadable
  /-- suspended in the checkpoint that follows a reception -/
  | checkpoint (datagram : D)
  /-- it has raised -/
  | ended (error : OSError)
  deriving DecidableEq, Repr

/-- What the socket does when it is not closed. -/
inductive Outcome (D : Type) where
  | blocks
  | returns (datagram : D)
  | raises (error : OSError)
  deriving DecidableEq, Repr

structure State (D : Type) where
  serve : Serve D := .notStarted
  /-- `fileno() < 0` -/
  closed : Bool := false
  /-- the calls of `aclose` that wait for the send lock -/
  closing : ℕ := 0
  /-- what the handlers have been started with -/
  handled : List D := []
  /-- what `serve` has logged -/
  warnings : List OSError := []
  /-- how often a reception was tried on the closed socket -/
  attempts : ℕ := 0
  deriving DecidableEq, Repr

inductive Action (D : Type) where
  /-- `serve()` is called -/
  | serve
  /-- its task calls `recvfrom()` or `recvmsg()` -/
  | receive (outcome : Outcome D)
  /-- its task resumes -/
  | resume
  /-- `aclose()` is called, and the send lock is held by another task or not -/
  | aclose (locked : Bool)
  /-- a call of `aclose()` gets the send lock, or is cancelled -/
  | acloseResume
  deriving DecidableEq, Repr

/-- The action is one of the task of `serve`. -/
def Action.ofServe : Action D → Bool
  | .receive _ | .resume => true
  | _ => false

namespace State

/-- `close_socket_and_notify`. -/
def closeSocketAndNotify (s : State D) : State D := { s with closed := true }

/-- A datagram is handed to a handler, and the loop goes on. -/
def received (s : State D) (datagram : D) : State D :=
  { s with serve := .receives true, handled := s.handled ++ [datagram] }

/-- The callback of `retry_socket_method` is called; the loop goes on up to a suspension point, or to
    the next call. -/
def receive (s : State D) (alwaysYield : Bool) (outcome : Outcome D) : State D :=
  if s.closed then
    -- the closed socket raises `EBADF`, which is logged like any other `OSError`
    { s with
      serve := .receives true
      warnings := s.warnings ++ [.EBADF]
      attempts := s.attempts + 1 }
  else match outcome with
    | .blocks => { s with serve := .waitReadable }
    | .returns datagram =>
      if alwaysYield then { s with serve := .checkpoint datagram } else s.received datagram
    | .raises error => { s with serve := .receives true, warnings := s.warnings ++ [error] }

end State

/-- One step of an interleaving. -/
def step (s : State D) : Action D → Option (State D)
  | .serve =>
    match s.serve with
    | .notStarted => some { s with serve := .receives true }
    | _ => none
  | .receive outcome =>
    match s.serve with
    | .receives alwaysYield => some (s.receive alwaysYield outcome)
    | _ => none
  | .resume =>
    match s.serve with
    | .waitReadable =>
      -- `ClosedResourceError`, as it is converted
      if s.closed then some { s with serve := .ended .EBADF }
      else some { s with serve := .receives false }
    | .checkpoint datagram => some (s.received datagram)
    | _ => none
  | .aclose locked =>
    match s.serve with
    | .receives _ => none
    | _ => if locked then some { s with closing := s.closing + 1 } else some s.closeSocketAndNotify
  | .acloseResume =>
    match s.serve with
    | .receives _ => none
    | _ =>
      if s.closing = 0 then none
      else some { s.closeSocketAndNotify with closing := s.closing - 1 }

/-! ## How the loop ends -/

def Serve.inCheckpoint : Serve D → Bool
  | .checkpoint _ => true
  | _ => false

/-- The socket is not closed while `serve` is suspended in a checkpoint, nor before `serve` starts. -/
def Safe (s : State D) : Action D → Prop
  | .serve => s.closed = false
  | .aclose locked => locked = true ∨ s.serve.inCheckpoint = false
  | .acloseResume => s.serve.inCheckpoint = false
  | .receive _ | .resume => True

instance (s : State D) : ∀ a, Decidable (Safe s a)
  | .serve => inferInstanceAs (Decidable (s.closed = false))
  | .receive _ => .isTrue trivial
  | .resume => .isTrue trivial
  | .aclose locked => inferInstanceAs (Decidable (locked = true ∨ _))
  | .acloseResume => inferInstanceAs (Decidable (s.serve.inCheckpoint = false))

/-- Whatever happens next, `serve` tries to receive a bounded number of times on the closed socket,
    its task makes a bounded number of steps, and it can go on until it has raised `EBADF`. -/
structure Ends (s : State D) : Prop where
  attempts : ∃ n, ∀ bs s', Trans.run step s bs = some s' → s'.attempts ≤ n
  steps : ∃ n, ∀ bs s', Trans.run step s bs = some s' → (bs.filter Action.ofServe).length ≤ n
  progress : ∀ bs s', Trans.run step s bs = some s' →
    s'.serve = .ended .EBADF ∨ ∃ a s'', a.ofServe = true ∧ step s' a = some s''

/-- The socket is closed, and `serve` is going to try to receive. -/
def Spins (s : State D) : Prop :=
  s.closed = true ∧ ((∃ b, s.serve = .receives b) ∨ ∃ datagram, s.serve = .checkpoint datagram)

section
variable {s s' : State D} {as : List (Action D)}

/-- The socket stays closed, and the loop goes on trying. -/
theorem spins_step {a : Action D} (h : Spins s) (hs : step s a = some s') : Spins s' := by
  rcases s with ⟨serve, closed, closing, handled, warnings, attempts⟩
  obtain ⟨rfl : closed = true, ⟨b, rfl : serve = _⟩ | ⟨datagram, rfl : serve = _⟩⟩ := h
  · cases a <;> cases hs
    exact ⟨rfl, .inl ⟨true, rfl⟩⟩
  · cases a with
    | serve | receive outcome => cases hs
    | resume =>
      cases hs
      exact ⟨rfl, .inl ⟨true, rfl⟩⟩
    | aclose locked =>
      rcases locked with _ | _ <;> cases hs <;> exact ⟨rfl, .inr ⟨datagram, rfl⟩⟩
    | acloseResume =>
      simp only [DatagramListener.step] at hs
      split_ifs at hs
      cases hs
      exact ⟨rfl, .inr ⟨datagram, rfl⟩⟩

/-- The socket is closed, and `serve` has been told so. -/
def Settled (s : State D) : Prop :=
  s.closed = true ∧ (s.serve = .waitReadable ∨ s.serve = .ended .EBADF)

/-- The steps that the task of `serve` has left. -/
def rank (s : State D) : ℕ :=
  match s.serve with
  | .waitReadable => 1
  | _ => 0

theorem settled_step {a : Action D} (h : Settled s) (hs : step s a = some s') :
    Settled s' ∧ s'.attempts = s.attempts ∧ (a.ofServe = true → rank s' < rank s) ∧
      (a.ofServe = false → rank s' ≤ rank s) := by
  rcases s with ⟨serve, closed, closing, handled, warnings, attempts⟩
  obtain ⟨rfl : closed = true, hserve⟩ := h
  rcases hserve with (rfl : serve = _) | (rfl : serve = _)
  · cases a with
    | serve | receive outcome => cases hs
    | resume =>
      cases hs
      exact ⟨⟨rfl, .inr rfl⟩, rfl, fun _ => Nat.zero_lt_one, fun hf => by cases hf⟩
    | aclose locked =>
      rcases locked with _ | _ <;> cases hs <;>
        exact ⟨⟨rfl, .inl rfl⟩, rfl, fun hf => (by cases hf), fun _ => Nat.le_refl _⟩
    | acloseResume =>
      simp only [DatagramListener.step] at hs
      split_ifs at hs
      cases hs
      exact ⟨⟨rfl, .inl rfl⟩, rfl, fun hf => (by cases hf), fun _ => Nat.le_refl _⟩
  · cases a with
    | serve | receive outcome | resume => cases hs
    | aclose locked =>
      rcases locked with _ | _ <;> cases hs <;>
        exact ⟨⟨rfl, .inr rfl⟩, rfl, fun hf => (by cases hf), fun _ => Nat.le_refl _⟩
    | acloseResume =>
      simp only [DatagramListener.step] at hs
      split_ifs at hs
      cases hs
      exact ⟨⟨rfl, .inr rfl⟩, rfl, fun hf => (by cases hf), fun _ => Nat.le_refl _⟩

theorem Settled.ends (h : Settled s) : Ends s where
  attempts := by
    refine ⟨s.attempts, fun bs s' hrun => ?_⟩
    have hinv := Trans.run_inv (I := fun m => Settled m ∧ m.attempts = s.attempts)
      (fun m a m' hi hm => ⟨(settled_step hi.1 hm).1, (settled_step hi.1 hm).2.1.trans hi.2⟩)
      ⟨h, rfl⟩ hrun
    exact Nat.le_of_eq hinv.2
  steps := by
    refine ⟨rank s, fun bs s' hrun => ?_⟩
    have hle := Trans.length_filter_le (I := Settled) Action.ofServe rank
      (fun m a m' hi hm => (settled_step hi hm).1)
      (fun m a m' hi ha hm => (settled_step hi hm).2.2.1 ha)
      (fun m a m' hi ha hm => (settled_step hi hm).2.2.2 ha) h hrun
    omega
  progress bs s' hrun := by
    have hinv : Settled s' := Trans.run_inv (fun m a m' hi hm => (settled_step hi hm).1) h hrun
    rcases hinv.2 with hserve | hserve
    · right
      refine ⟨.resume, { s' with serve := .ended .EBADF }, rfl, ?_⟩
      simp only [DatagramListener.step, hserve, hinv.1, if_true]
    · exact .inl hserve

/-- **A loop that spins tries to receive as often as it is given the time to.** -/
theorem spin {b : Bool} (hc : s.closed = true) (hserve : s.serve = .receives b) (n : ℕ) :
    ∃ s', Trans.run step s (List.replicate n (.receive .blocks)) = some s' ∧
      s'.attempts = s.attempts + n := by
  induction n generalizing s b with
  | zero => exact ⟨s, rfl, rfl⟩
  | succ n ih =>
    have hs : step s (.receive .blocks) = some { s with
        serve := .receives true
        warnings := s.warnings ++ [.EBADF]
        attempts := s.attempts + 1 } := by
      simp only [DatagramListener.step, hserve, State.receive, hc, if_true]
    obtain ⟨s', hrun, hattempts⟩ := ih (s := { s with
      serve := .receives true
      warnings := s.warnings ++ [.EBADF]
      attempts := s.attempts + 1 }) hc rfl
    refine ⟨s', Trans.run_cons_iff.2 ⟨_, hs, hrun⟩, ?_⟩
    rw [hattempts]
    show s.attempts + 1 + n = _
    omega

theorem Spins.not_ends (h : Spins s) : ¬ Ends s := by
  rintro ⟨⟨n, hn⟩, -, -⟩
  obtain ⟨hc, ⟨b, hserve⟩ | ⟨datagram, hserve⟩⟩ := h
  · obtain ⟨s', hrun, hattempts⟩ := spin hc hserve (n + 1)
    have hle := hn _ _ hrun
    omega
  · have hs : step s .resume = some (s.received datagram) := by
      simp only [DatagramListener.step, hserve]
    obtain ⟨s', hrun, hattempts⟩ := spin (s := s.received datagram) hc rfl (n + 1)
    have hle := hn _ _ (Trans.run_cons_iff.2 ⟨_, hs, hrun⟩)
    omega

/-- What is reached while every step is safe. -/
def Fine (s : State D) : Prop :=
  (s.closed = false ∧ ∀ error, s.serve ≠ .ended error) ∨ s.serve = .notStarted ∨ Settled s

theorem Fine.not_spins (h : Fine s) : ¬ Spins s := by
  rintro ⟨hc, hspins⟩
  rcases h with ⟨ho, -⟩ | hserve | ⟨-, hserve | hserve⟩
  · cases ho.symm.trans hc
  all_goals
    rcases hspins with ⟨b, hs⟩ | ⟨datagram, hs⟩ <;> cases hserve.symm.trans hs

/-- `serve` only goes on with a reception while the socket is open. -/
theorem Fine.isOpen (h : Fine s)
    (hserve : (∃ b, s.serve = .receives b) ∨ ∃ datagram, s.serve = .checkpoint datagram) :
    s.closed = false := by
  rcases hc : s.closed with _ | _
  · rfl
  · exact absurd ⟨hc, hserve⟩ h.not_spins

theorem Fine.close (h : Fine s) (hr : ∀ b, s.serve ≠ .receives b) (hc : s'.closed = true)
    (hserve : s'.serve = s.serve) :
    (s.serve.inCheckpoint = false → Fine s') ∧ (¬ s.serve.inCheckpoint = false → Spins s') := by
  rcases hs : s.serve with _ | b | _ | datagram | error
  · exact ⟨fun _ => .inr (.inl (hserve.trans hs)), fun hcheckpoint => absurd rfl hcheckpoint⟩
  · exact absurd hs (hr b)
  · exact ⟨fun _ => .inr (.inr ⟨hc, .inl (hserve.trans hs)⟩),
      fun hcheckpoint => absurd rfl hcheckpoint⟩
  · exact ⟨fun hcheckpoint => (by cases hcheckpoint),
      fun _ => ⟨hc, .inr ⟨datagram, hserve.trans hs⟩⟩⟩
  · refine ⟨fun _ => ?_, fun hcheckpoint => absurd rfl hcheckpoint⟩
    rcases h with ⟨-, he⟩ | hn | ⟨-, hw | he⟩
    · exact absurd hs (he error)
    · cases hs.symm.trans hn
    · cases hs.symm.trans hw
    · exact .inr (.inr ⟨hc, .inr (hserve.trans he)⟩)

/-- A step that is safe keeps the loop from spinning, and one that is not makes it spin. -/
theorem fine_step {a : Action D} (h : Fine s) (hs : step s a = some s') :
    (Safe s a → Fine s') ∧ (¬ Safe s a → Spins s') := by
  cases a with
  | serve =>
    simp only [step] at hs
    split at hs <;> cases hs
    refine ⟨fun hc => .inl ⟨hc, fun _ he => by cases he⟩, fun hc => ?_⟩
    refine ⟨?_, .inl ⟨true, rfl⟩⟩
    rw [← Bool.not_eq_false]
    exact hc
  | receive outcome =>
    refine ⟨fun _ => .inl ?_, fun hc => absurd trivial hc⟩
    simp only [step] at hs
    split at hs
    next b hserve =>
      cases hs
      have ho := h.isOpen (.inl ⟨b, hserve⟩)
      unfold State.receive
      rw [if_neg (by rw [ho]; exact Bool.false_ne_true)]
      rcases outcome with _ | datagram | error
      · exact ⟨ho, fun _ he => by cases he⟩
      · rcases b with _ | _ <;> exact ⟨ho, fun _ he => by cases he⟩
      · exact ⟨ho, fun _ he => by cases he⟩
    next => cases hs
  | resume =>
    refine ⟨fun _ => ?_, fun hc => absurd trivial hc⟩
    simp only [step] at hs
    split at hs
    next hserve =>
      split_ifs at hs with hc <;> cases hs
      · exact .inr (.inr ⟨hc, .inr rfl⟩)
      · exact .inl ⟨by simpa using hc, fun _ he => by cases he⟩
    next datagram hserve =>
      cases hs
      exact .inl ⟨h.isOpen (.inr ⟨datagram, hserve⟩), fun _ he => by cases he⟩
    next => cases hs
  | aclose locked =>
    simp only [step] at hs
    split at hs
    · cases hs
    next hr =>
      split_ifs at hs with hlocked <;> cases hs
      · exact ⟨fun _ => h, fun hc => absurd (.inl hlocked) hc⟩
      · obtain ⟨h1, h2⟩ := h.close hr (show s.closeSocketAndNotify.closed = true from rfl) rfl
        refine ⟨fun hc => h1 (hc.resolve_left hlocked), fun hc => h2 fun hcheckpoint => ?_⟩
        exact hc (.inr hcheckpoint)
  | acloseResume =>
    simp only [step] at hs
    split at hs
    · cases hs
    next hr =>
      split_ifs at hs
      cases hs
      exact h.close hr rfl rfl

/-- **Once the socket is closed, the loop ends by raising `EBADF` iff the socket was not closed while
    `serve` was suspended in the checkpoint that follows a reception, nor before `serve` was
    called.** -/
theorem serve_ends_iff (hclosed : s.closed = true) (hstarted : s.serve ≠ .notStarted)
    (h : Trans.run step {} as = some s) : Ends s ↔ Trans.Meets step Safe {} as := by
  have hinit : Fine ({} : State D) := .inl ⟨rfl, fun _ he => by cases he⟩
  rw [Trans.meets_iff Safe Fine Spins (fun _ hi => hi.not_spins)
    (fun _ _ _ hi hok hs => (fine_step hi hs).1 hok)
    (fun _ _ _ hi hok hs => (fine_step hi hs).2 hok) (fun _ _ _ hb hs => spins_step hb hs) hinit h]
  refine ⟨fun hends hspins => hspins.not_ends hends, fun hspins => ?_⟩
  have hreach : Fine s ∨ Spins s := by
    refine Trans.run_inv (I := fun m => Fine m ∨ Spins m) (fun m a m' hi hm => ?_) (.inl hinit) h
    rcases hi with hi | hi
    · by_cases hok : Safe m a
      · exact .inl ((fine_step hi hm).1 hok)
      · exact .inr ((fine_step hi hm).2 hok)
    · exact .inr (spins_step hi hm)
  rcases hreach.resolve_right hspins with ⟨ho, -⟩ | hn | hsettled
  · cases ho.symm.trans hclosed
  · exact absurd hn hstarted
  · exact hsettled.ends

/-- The socket is closed while `serve` waits for a datagram. -/
theorem serve_ends_waiting : ∃ s : State ℕ, Trans.run step {}
    [.serve, .receive .blocks, .resume, .receive (.returns 5), .receive .blocks, .aclose false] =
      some s ∧ Ends s := by
  obtain ⟨s, hs⟩ : ∃ s : State ℕ, Trans.run step {}
    [.serve, .receive .blocks, .resume, .receive (.returns 5), .receive .blocks, .aclose false] =
      some s := ⟨_, rfl⟩
  refine ⟨s, hs, (serve_ends_iff ?_ ?_ hs).2 (by decide)⟩ <;> cases hs
  · rfl
  · intro hc
    cases hc

/-- The socket is closed in the checkpoint that follows a reception: `serve` does not end, but tries
    to receive for ever. -/
theorem serve_spins : ∃ s : State ℕ, Trans.run step {}
    [.serve, .receive (.returns 5), .aclose false, .resume] = some s ∧ s.closed = true ∧ ¬ Ends s ∧
      ∀ n, ∃ s', Trans.run step s (List.replicate n (.receive .blocks)) = some s' ∧
        s'.attempts = n := by
  obtain ⟨s, hs⟩ : ∃ s : State ℕ, Trans.run step {}
    [.serve, .receive (.returns 5), .aclose false, .resume] = some s := ⟨_, rfl⟩
  obtain ⟨hc, hserve, ha⟩ : s.closed = true ∧ s.serve = .receives true ∧ s.attempts = 0 := by
    cases hs
    exact ⟨rfl, rfl, rfl⟩
  refine ⟨s, hs, hc, Spins.not_ends ⟨hc, .inl ⟨true, hserve⟩⟩, fun n => ?_⟩
  obtain ⟨s', hrun, hattempts⟩ := spin hc hserve n
  exact ⟨s', hrun, by rw [hattempts, ha, Nat.zero_add]⟩

end

end DatagramListener

end EasyNetwork
