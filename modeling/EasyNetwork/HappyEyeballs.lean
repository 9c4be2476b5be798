/-
  Connecting to one of several addresses (`BaseAsyncDNSResolver` in
  `lowlevel/api_async/backend/_common/dns_resolver.py`).

  `createLoop` is `_create_connection_impl` between two suspension points; what the system answers is
  given.  `step` interleaves the attempts of `_staggered_race_connection_impl`, the loop that starts
  them, and a cancellation of the caller.  The wait between two attempts may be over at any time, for
  the delay is arbitrary.  The sockets are numbered in the order in which they are opened.
-/
import EasyNetwork.Lib.Trans
import Mathlib.Logic.Function.Basic
import Mathlib.Order.Nat

namespace EasyNetwork

namespace HappyEyeballs

variable {α χ : Type}

/-! ## The addresses -/

inductive Family where
  | AF_INET
  | AF_INET6
  | other (family : ℕ)
  deriving DecidableEq, Repr

structure AddrInfo (α : Type) where
  family : Family
  socktype : ℕ
  proto : ℕ
  sockaddr : α
  deriving DecidableEq, Repr

/-- The loop of `_prioritize_ipv6_over_ipv4`. -/
def prioritizeLoop : Bool → Bool → List (AddrInfo α) → List (AddrInfo α) → List (AddrInfo α)
  | _, _, reordered, [] => reordered
  | v6Found, v4Found, reordered, addr :: addrinfos =>
    if addr.family = .AF_INET6 ∧ ¬ v6Found then
      prioritizeLoop true v4Found (addr :: reordered) addrinfos
    else if addr.family = .AF_INET ∧ ¬ v4Found ∧ v6Found then
      prioritizeLoop v6Found true (reordered.take 1 ++ addr :: reordered.drop 1) addrinfos
    else prioritizeLoop v6Found v4Found (reordered ++ [addr]) addrinfos

/-- `_prioritize_ipv6_over_ipv4`. -/
def prioritizeIpv6OverIpv4 (addrinfos : List (AddrInfo α)) : List (AddrInfo α) :=
  prioritizeLoop false false [] addrinfos

/-- `addrinfos_by_family`: an address goes to the group of its family, or to a new one. -/
def insertByFamily (addr : AddrInfo α) :
    List (Family × List (AddrInfo α)) → List (Family × List (AddrInfo α))
  | [] => [(addr.family, [addr])]
  | (family, group) :: groups =>
    if family = addr.family then (family, group ++ [addr]) :: groups
    else (family, group) :: insertByFamily addr groups

/-- `chain.from_iterable(zip_longest(...))` without the fill values: the first entries of the groups,
    then the second ones, and so on. -/
def roundRobin : ℕ → List (List (AddrInfo α)) → List (AddrInfo α)
  | 0, _ => []
  | fuel + 1, groups =>
    groups.filterMap List.head? ++ roundRobin fuel (groups.map List.tail)

/-- `_interleave_addrinfos`. -/
def interleaveAddrinfos (addrinfos : List (AddrInfo α)) : List (AddrInfo α) :=
  let groups := (addrinfos.foldl (fun groups addr => insertByFamily addr groups) []).map Prod.snd
  roundRobin addrinfos.length groups

/-! ## One connection -/

structure OSError where
  /-- `0` if there is none -/
  errno : ℕ
  strerror : String
  deriving DecidableEq, Repr

/-- `_utils.convert_socket_bind_error`; `addr` is the `repr` of the address. -/
def convertSocketBindError (exc : OSError) (addr : String) : OSError :=
  let message := "error while attempting to bind on address " ++ addr ++ ": " ++ exc.strerror
  if exc.errno ≠ 0 then ⟨exc.errno, message⟩ else ⟨22, message⟩

/-- `f"no matching local address with {family=} found"`. -/
def noMatchingLocalAddress (family : Family) : OSError :=
  let text := match family with
    | .AF_INET => "<AddressFamily.AF_INET: 2>"
    | .AF_INET6 => "<AddressFamily.AF_INET6: 10>"
    | .other family => toString family
  ⟨0, "no matching local address with family=" ++ text ++ " found"⟩

/-- What a call of the system gives. -/
inductive Answer (χ : Type) where
  | ok
  | osError (exc : OSError)
  | other (exc : χ)
  deriving DecidableEq, Repr

/-- The answers for one remote address; those of `bind` by the index of the local address. -/
structure Answers (χ : Type) where
  socket : Answer χ
  bind : ℕ → Answer χ
  setblocking : Answer χ

/-- How the loop over the local addresses ends. -/
inductive Bound (χ : Type) where
  | bound
  | failed (bindErrors : List OSError)
  | raised (exc : χ)

/-- The loop over the local addresses, from the `i`-th. -/
def bindLoop (reprAddr : α → String) (family : Family) (bind : ℕ → Answer χ) :
    ℕ → List (AddrInfo α) → List OSError → Bound χ
  | _, [], bindErrors => .failed bindErrors
  | i, localAddr :: localAddrinfo, bindErrors =>
    if localAddr.family ≠ family then bindLoop reprAddr family bind (i + 1) localAddrinfo bindErrors
    else match bind i with
      | .ok => .bound
      | .osError exc =>
        bindLoop reprAddr family bind (i + 1) localAddrinfo
          (bindErrors ++ [convertSocketBindError exc (reprAddr localAddr.sockaddr)])
      | .other exc => .raised exc

/-- What happens to an address before `connect_socket()` is called. -/
inductive Setup (χ : Type) where
  | connects
  /-- the errors; whether a socket was opened, which is closed again -/
  | failed (opened : Bool) (errors : List OSError)
  | raised (opened : Bool) (exc : χ)

/-- The body of the loop of `_create_connection_impl`, up to `connect_socket()`. -/
def setup (reprAddr : α → String) (localAddrinfo : Option (List (AddrInfo α))) (addr : AddrInfo α)
    (answers : Answers χ) : Setup χ :=
  let setblocking : Setup χ :=
    match answers.setblocking with
    | .ok => .connects
    | .osError exc => .failed true [exc]
    | .other exc => .raised true exc
  match answers.socket with
  | .osError exc => .failed false [exc]
  | .other exc => .raised false exc
  | .ok =>
    match localAddrinfo with
    | none => setblocking
    | some localAddrinfo =>
      match bindLoop reprAddr addr.family answers.bind 0 localAddrinfo [] with
      | .bound => setblocking
      | .failed bindErrors =>
        if bindErrors ≠ [] then .failed true bindErrors
        else .failed true [noMatchingLocalAddress addr.family]
      | .raised exc => .raised true exc

/-- The sockets that have been opened, and those that have been closed. -/
structure Sockets where
  opened : ℕ := 0
  closed : List ℕ := []
  deriving DecidableEq, Repr

namespace Sockets

def openSocket (sockets : Sockets) : Sockets := { sockets with opened := sockets.opened + 1 }

def close (sockets : Sockets) (socket : ℕ) : Sockets :=
  { sockets with closed := sockets.closed ++ [socket] }

/-- A socket is opened, and closed again. -/
def openClose (sockets : Sockets) (opened : Bool) : Sockets :=
  if opened then sockets.openSocket.close sockets.opened else sockets

end Sockets

/-- What may leave `_create_connection_impl`, besides `OSError`s and a cancellation. -/
inductive Exc (χ : Type) where
  | assertion
  | other (exc : χ)
  deriving DecidableEq, Repr

/-- Where `_create_connection_impl` is: in `connect_socket()`, with the addresses that are left and
    the errors, or at its end. -/
inductive Creation (α χ : Type) where
  | connecting (socket : ℕ) (remoteAddrinfo : List (AddrInfo α)) (errors : List OSError)
  | returned (socket : ℕ)
  /-- `ExceptionGroup("create_connection() failed", errors)` -/
  | group (errors : List OSError)
  | raised (exc : Exc χ)
  | cancelled

section
variable (reprAddr : α → String) (localAddrinfo : Option (List (AddrInfo α)))
  (answers : ℕ → Answers χ)

/-- The loop of `_create_connection_impl` up to `connect_socket()` or to the end; the answers are
    those from the `i`-th on. -/
def createLoop : ℕ → List (AddrInfo α) → Sockets → List OSError → Sockets × Creation α χ
  | _, [], sockets, errors =>
    (sockets, if errors = [] then .raised .assertion else .group errors)
  | i, addr :: remoteAddrinfo, sockets, errors =>
    match setup reprAddr localAddrinfo addr (answers i) with
    | .connects => (sockets.openSocket, .connecting sockets.opened remoteAddrinfo errors)
    | .failed opened errs =>
      createLoop (i + 1) remoteAddrinfo (sockets.openClose opened) (errors ++ errs)
    | .raised opened exc => (sockets.openClose opened, .raised (.other exc))

/-- `connect_socket()` has ended; `none` is a cancellation. -/
def connected (socket : ℕ) (remoteAddrinfo : List (AddrInfo α)) (sockets : Sockets)
    (errors : List OSError) : Option (Answer χ) → Sockets × Creation α χ
  | some .ok => (sockets, .returned socket)
  | some (.osError exc) =>
    createLoop reprAddr localAddrinfo answers 0 remoteAddrinfo (sockets.close socket)
      (errors ++ [exc])
  | some (.other exc) => (sockets.close socket, .raised (.other exc))
  | none => (sockets.close socket, .cancelled)

end

/-! ## The race -/

/-- Where an attempt, `try_connect`, is. -/
inductive Phase (α : Type) where
  | notStarted
  /-- it has not run yet -/
  | ready (addr : AddrInfo α)
  | connecting (socket : ℕ) (remoteAddrinfo : List (AddrInfo α)) (errors : List OSError)
  | ended

def Phase.isEnded : Phase α → Bool
  | .ended => true
  | _ => false

/-- How an attempt has ended. -/
inductive Outcome (χ : Type) where
  | succeeded (socket : ℕ)
  | failed (errors : List OSError)
  | raised (exc : Exc χ)
  | cancelled
  deriving DecidableEq, Repr

/-- Where the loop that starts the attempts is. -/
inductive Body where
  | starting
  /-- in `done.wait()` -/
  | waiting
  /-- it is left, by a cancellation or not, and the task group waits for the attempts -/
  | left (cancelled : Bool)
  deriving DecidableEq, Repr

inductive Result (χ : Type) where
  | returned (socket : ℕ)
  /-- `BaseExceptionGroup("create_connection() failed", errors)` -/
  | group (errors : List OSError)
  /-- the same without errors -/
  | valueError
  /-- the exceptions of the attempts -/
  | raised (excs : List (Exc χ))
  | cancelled
  deriving DecidableEq, Repr

/-- `BaseExceptionGroup` does not take an empty list. -/
def exceptionGroup (errors : List OSError) : Result χ :=
  if errors = [] then .valueError else .group errors

structure State (α χ : Type) where
  /-- the addresses that are left -/
  remoteAddrinfo : List (AddrInfo α)
  body : Body := .starting
  /-- the number of attempts that have been started -/
  started : ℕ := 0
  phase : ℕ → Phase α := fun _ => .notStarted
  sockets : Sockets := {}
  winner : Option ℕ := none
  errors : List OSError := []
  /-- the exceptions of the attempts, for the task group -/
  excs : List (Exc χ) := []
  /-- the caller is cancelled -/
  outer : Bool := false
  outcomes : List (ℕ × Outcome χ) := []
  result : Option (Result χ) := none

inductive Action (χ : Type) where
  /-- the loop starts the next attempt, or ends -/
  | startNext
  /-- `done` is set, or the delay is over -/
  | waitOver
  /-- a cancellation is thrown into the loop -/
  | throwBody
  | run (attempt : ℕ) (answers : ℕ → Answers χ)
  /-- `connect_socket()` ends, or a cancellation is thrown into it -/
  | connected (attempt : ℕ) (answer : Option (Answer χ)) (answers : ℕ → Answers χ)
  /-- a cancellation is thrown into an attempt that has not run yet -/
  | throw (attempt : ℕ)
  | cancelOuter
  /-- the task group is left, and the caller's cancellation goes on, or not -/
  | finish (propagates : Bool)

namespace State

def setPhase (s : State α χ) (attempt : ℕ) (phase : Phase α) : State α χ :=
  { s with phase := Function.update s.phase attempt phase }

@[simp] theorem setPhase_self (s : State α χ) (attempt : ℕ) (phase : Phase α) :
    (s.setPhase attempt phase).phase attempt = phase := Function.update_self _ _ _

theorem setPhase_of_ne (s : State α χ) {attempt i : ℕ} (phase : Phase α) (h : i ≠ attempt) :
    (s.setPhase attempt phase).phase i = s.phase i := Function.update_of_ne h _ _

/-- A cancellation is thrown into the tasks: the scope is cancelled by the winner, the task group
    by an exception, or all by the caller. -/
def isCancelled (s : State α χ) : Bool := s.winner.isSome || !s.excs.isEmpty || s.outer

/-- An attempt ends. -/
def endAttempt (s : State α χ) (attempt : ℕ) (outcome : Outcome χ) : State α χ :=
  { s with outcomes := s.outcomes ++ [(attempt, outcome)] }.setPhase attempt .ended

@[simp] theorem outcomes_endAttempt (s : State α χ) (attempt : ℕ) (outcome : Outcome χ) :
    (s.endAttempt attempt outcome).outcomes = s.outcomes ++ [(attempt, outcome)] := rfl

/-- `try_connect`, from a call of `_create_connection_impl` on. -/
def settle (s : State α χ) (attempt : ℕ) (created : Sockets × Creation α χ) : State α χ :=
  let s := { s with sockets := created.1 }
  match created.2 with
  | .connecting socket remoteAddrinfo errors =>
    s.setPhase attempt (.connecting socket remoteAddrinfo errors)
  | .returned socket =>
    match s.winner with
    | none => { s with winner := some socket }.endAttempt attempt (.succeeded socket)
    | some _ => { s with sockets := s.sockets.close socket }.endAttempt attempt (.succeeded socket)
  | .group errors => { s with errors := s.errors ++ errors }.endAttempt attempt (.failed errors)
  | .raised exc => { s with excs := s.excs ++ [exc] }.endAttempt attempt (.raised exc)
  | .cancelled => s.endAttempt attempt .cancelled

/-- An exception leaves `_staggered_race_connection_impl`: the winner is closed. -/
def raise (s : State α χ) (result : Result χ) : State α χ :=
  { s with
    sockets := match s.winner with
      | none => s.sockets
      | some socket => s.sockets.close socket
    result := some result }

/-- The task group and the scope are left; `none` if this is not possible. -/
def finish (s : State α χ) (propagates : Bool) : Option (State α χ) :=
  if s.excs ≠ [] then some (s.raise (.raised s.excs))
  else if propagates then if s.outer then some (s.raise .cancelled) else none
  else match s.winner with
    | some socket => some { s with result := some (.returned socket) }
    | none =>
      if s.body = .left true ∨ (s.outcomes.any fun o => o.2 matches .cancelled) then none
      else some (s.raise (exceptionGroup s.errors))

end State

/-- The state when the loop starts. -/
def State.init (remoteAddrinfo : List (AddrInfo α)) : State α χ :=
  { remoteAddrinfo := interleaveAddrinfos (prioritizeIpv6OverIpv4 remoteAddrinfo) }

/-- One step of an interleaving. -/
def step (reprAddr : α → String) (localAddrinfo : Option (List (AddrInfo α))) (s : State α χ) :
    Action χ → Option (State α χ)
  | .startNext =>
    match s.body, s.remoteAddrinfo with
    | .starting, addr :: remoteAddrinfo =>
      some ({ s with
        remoteAddrinfo := remoteAddrinfo
        body := .waiting
        started := s.started + 1 }.setPhase s.started (.ready addr))
    | .starting, [] => some { s with body := .left false }
    | _, _ => none
  | .waitOver => if s.body = .waiting then some { s with body := .starting } else none
  | .throwBody =>
    if s.body = .waiting ∧ s.isCancelled then some { s with body := .left true } else none
  | .run attempt answers =>
    match s.phase attempt with
    | .ready addr =>
      some (s.settle attempt (createLoop reprAddr localAddrinfo answers 0 [addr] s.sockets []))
    | _ => none
  | .connected attempt answer answers =>
    match s.phase attempt with
    | .connecting socket remoteAddrinfo errors =>
      if answer.isSome ∨ s.isCancelled then
        some (s.settle attempt
          (connected reprAddr localAddrinfo answers socket remoteAddrinfo s.sockets errors answer))
      else none
    | _ => none
  | .throw attempt =>
    match s.phase attempt with
    | .ready _ => if s.isCancelled then some (s.endAttempt attempt .cancelled) else none
    | _ => none
  | .cancelOuter => if s.result.isNone then some { s with outer := true } else none
  | .finish propagates =>
    match s.body with
    | .left _ =>
      if s.result.isNone ∧ ∀ i < s.started, (s.phase i).isEnded = true then s.finish propagates
      else none
    | _ => none

end HappyEyeballs

end EasyNetwork
