/-
  The sockets of UDP listeners: `open_listener_sockets_from_getaddrinfo_result`
  (`lowlevel/_utils.py`) and `AsyncIOBackend.create_udp_listeners`.

  An exit stack closes the sockets when one of them cannot be opened, configured or bound.  Then
  they are in a plain list, and an endpoint is created for one after the other.

  `createUdpListeners_iff`: it is all or nothing iff no endpoint fails while there is another
  socket.
-/
import EasyNetwork.HappyEyeballs
import Mathlib.Data.List.Basic

namespace EasyNetwork

namespace UdpListeners

open HappyEyeballs (Family AddrInfo OSError Answer Sockets convertSocketBindError)

variable {χ : Type}

/-- `(host, port)`, or `(host, port, flowinfo, scope_id)`. -/
structure SockAddr where
  host : String
  port : ℕ
  flow : Option (ℕ × ℤ) := none
  deriving DecidableEq, Repr

/-- What the system answers for one address. -/
structure Answers (χ : Type) where
  socket : Answer χ
  reuseaddr : Answer χ
  reuseport : Answer χ
  v6only : Answer χ
  bind : Answer χ
  onBindSuccess : Answer χ

inductive Exc (χ : Type) where
  | osError (exc : OSError)
  | valueError (message : String)
  /-- `ExceptionGroup("Error when trying to create listeners", errors)` -/
  | group (errors : List OSError)
  | cancelled
  | other (exc : χ)
  deriving DecidableEq, Repr

/-- What the `socket` module has, `repr` and `int`, and the arguments. -/
structure Options where
  hasReuseaddr : Bool
  hasReuseport : Bool
  hasIpprotoIpv6 : Bool
  reprAddr : SockAddr → String
  int : String → Option ℤ
  reuseAddress : Bool
  reusePort : Bool
  /-- `on_bind_success is not None` -/
  hasOnBindSuccess : Bool

/-- A call that is not in a `try`. -/
def call : Answer χ → Except (Exc χ) Unit
  | .ok => .ok ()
  | .osError exc => .error (.osError exc)
  | .other exc => .error (.other exc)

/-- `except OSError: pass`. -/
def suppressed : Answer χ → Except (Exc χ) Unit
  | .other exc => .error (.other exc)
  | .ok | .osError _ => .ok ()

/-- `set_reuseport`. -/
def setReuseport (options : Options) : Answer χ → Except (Exc χ) Unit
  | answer =>
    if options.hasReuseport then
      match answer with
      | .ok => .ok ()
      | .osError _ => .error (.valueError
          "reuse_port not supported by socket module, SO_REUSEPORT defined but not implemented.")
      | .other exc => .error (.other exc)
    else .error (.valueError "reuse_port not supported by socket module")

/-- `host.split("%", 1)`, if there is a `%`. -/
def splitScope (host : String) : Option (String × String) :=
  match host.toList.span (· ≠ '%') with
  | (_, []) => none
  | (addr, _ :: scopeId) => some (String.ofList addr, String.ofList scopeId)

/-- The address with the scope id that is a part of the host. -/
def withScope (options : Options) (sa : SockAddr) : Except (Exc χ) SockAddr :=
  match splitScope sa.host with
  | none => .ok sa
  | some (addr, scopeId) =>
    match options.int scopeId with
    | some scopeId => .ok ⟨addr, sa.port, some (0, scopeId)⟩
    | none => .error (.valueError ("invalid literal for int() with base 10: '" ++ scopeId ++ "'"))

/-- The options of a new socket; the address to bind it to. -/
def configure (options : Options) (info : AddrInfo SockAddr) (answers : Answers χ) :
    Except (Exc χ) SockAddr := do
  if options.reuseAddress && options.hasReuseaddr then suppressed answers.reuseaddr
  if options.reusePort then setReuseport options answers.reuseport
  if info.family = .AF_INET6 then
    if options.hasIpprotoIpv6 then call answers.v6only
    withScope options info.sockaddr
  else return info.sockaddr

/-- What happens to an address. -/
inductive Setup (χ : Type) where
  /-- there is no socket -/
  | skipped
  | bound
  /-- the error goes into the group -/
  | failed (error : OSError)
  /-- whether the socket has been opened -/
  | raised (opened : Bool) (exc : Exc χ)

/-- The body of the loop. -/
def setup (options : Options) (info : AddrInfo SockAddr) (answers : Answers χ) : Setup χ :=
  match answers.socket with
  | .osError _ => .skipped
  | .other exc => .raised false (.other exc)
  | .ok =>
    match configure options info answers with
    | .error exc => .raised true exc
    | .ok sa =>
      match answers.bind with
      | .osError exc => .failed (convertSocketBindError exc (options.reprAddr sa))
      | .other exc => .raised true (.other exc)
      | .ok =>
        if options.hasOnBindSuccess then
          match answers.onBindSuccess with
          | .osError exc => .failed exc
          | .other exc => .raised true (.other exc)
          | .ok => .bound
        else .bound

/-- The exit stack is left with an exception: the last socket is closed first. -/
def closeAll (sockets : Sockets) (stack : List ℕ) : Sockets :=
  { sockets with closed := sockets.closed ++ stack.reverse }

/-- The loop over the addresses and what follows it.  The sockets in the exit stack are those of the
    list `sockets` of the source. -/
def openLoop (options : Options) : List (AddrInfo SockAddr × Answers χ) → List ℕ → List OSError →
    Sockets → Sockets × Except (Exc χ) (List ℕ)
  | [], stack, errors, sockets =>
    if errors ≠ [] then (closeAll sockets stack, .error (.group errors)) else (sockets, .ok stack)
  | (info, answers) :: infos, stack, errors, sockets =>
    match setup options info answers with
    | .skipped => openLoop options infos stack errors sockets
    | .bound =>
      openLoop options infos (stack ++ [sockets.opened]) errors sockets.openSocket
    | .failed error =>
      openLoop options infos (stack ++ [sockets.opened]) (errors ++ [error]) sockets.openSocket
    | .raised true exc =>
      (closeAll sockets.openSocket (stack ++ [sockets.opened]), .error exc)
    | .raised false exc => (closeAll sockets stack, .error exc)

/-- `open_listener_sockets_from_getaddrinfo_result`. -/
def openListenerSockets (options : Options) (infos : List (AddrInfo SockAddr × Answers χ)) :
    Sockets × Except (Exc χ) (List ℕ) :=
  openLoop options infos [] [] {}

/-- The sockets, and those of the transports. -/
structure Endpoints extends Sockets where
  transports : List ℕ := []
  deriving DecidableEq, Repr

/-- `[await loop.create_datagram_endpoint(protocol_factory, sock=sock) for sock in sockets]`: a
    transport owns the socket, or the socket is closed and an exception is raised. -/
def createEndpoints (endpoint : ℕ → Except (Exc χ) Unit) :
    List ℕ → Endpoints → Endpoints × Except (Exc χ) (List ℕ)
  | [], s => (s, .ok [])
  | sock :: sockets, s =>
    match endpoint sock with
    | .error exc => ({ s with toSockets := s.toSockets.close sock }, .error exc)
    | .ok () =>
      let (s, listeners) :=
        createEndpoints endpoint sockets { s with transports := s.transports ++ [sock] }
      (s, listeners.map (sock :: ·))

/-- `create_udp_listeners`; `infos` is what the resolution of the hosts gives.  A listener is named
    by the socket of its transport. -/
def createUdpListeners (options : Options)
    (infos : Except (Exc χ) (List (AddrInfo SockAddr × Answers χ)))
    (endpoint : ℕ → Except (Exc χ) Unit) : Endpoints × Except (Exc χ) (List ℕ) :=
  match infos with
  | .error exc => ({}, .error exc)
  | .ok infos =>
    match openListenerSockets { options with reuseAddress := false, hasOnBindSuccess := false }
      infos with
    | (sockets, .error exc) => ({ toSockets := sockets }, .error exc)
    | (sockets, .ok socks) => createEndpoints endpoint socks { toSockets := sockets }

/-! ## All or nothing -/

/-- There is one listener for each of the sockets that have been opened, or all of the sockets and
    of the transports are closed. -/
def AllOrNothing (result : Endpoints × Except (Exc χ) (List ℕ)) : Prop :=
  (result.2 = .ok (List.range result.1.opened) ∧ result.1.closed = []) ∨
    (∀ sock < result.1.opened, sock ∈ result.1.closed) ∧
      ∀ sock ∈ result.1.transports, sock ∈ result.1.closed

/-- A socket is opened and bound. -/
def Setup.isBound : Setup χ → Bool
  | .bound => true
  | _ => false

/-- An address is no obstacle. -/
def Setup.Passes : Setup χ → Prop
  | .skipped | .bound => True
  | .failed _ | .raised _ _ => False

section
variable {options : Options} {infos : List (AddrInfo SockAddr × Answers χ)}

/-- The number of sockets that are opened and bound. -/
def bounds (options : Options) (infos : List (AddrInfo SockAddr × Answers χ)) : ℕ :=
  infos.countP fun info => (setup options info.1 info.2).isBound

/-- All of the addresses can be used. -/
def AllPass (options : Options) (infos : List (AddrInfo SockAddr × Answers χ)) : Prop :=
  ∀ info ∈ infos, (setup options info.1 info.2).Passes

theorem closed_closeAll (n : ℕ) :
    let sockets := closeAll ⟨n, []⟩ (List.range n)
    ∀ sock < sockets.opened, sock ∈ sockets.closed := by
  intro sockets sock hsock
  simp only [sockets, closeAll, List.mem_append, List.mem_reverse, List.mem_range]
  exact .inr hsock

variable (options infos) in
theorem openLoop_spec (n : ℕ) (errors : List OSError) :
    (errors = [] ∧ AllPass options infos ∧
      openLoop options infos (List.range n) errors ⟨n, []⟩ =
        (⟨n + bounds options infos, []⟩, .ok (List.range (n + bounds options infos)))) ∨
    (¬ (errors = [] ∧ AllPass options infos) ∧
      ∃ sockets exc,
        openLoop options infos (List.range n) errors ⟨n, []⟩ = (sockets, .error exc) ∧
          ∀ sock < sockets.opened, sock ∈ sockets.closed) := by
  induction infos generalizing n errors with
  | nil =>
    have hpass : AllPass options ([] : List (AddrInfo SockAddr × Answers χ)) :=
      List.forall_mem_nil _
    by_cases herrors : errors = []
    · refine .inl ⟨herrors, hpass, ?_⟩
      rw [openLoop, if_neg (not_not.2 herrors)]
      rfl
    · refine .inr ⟨fun h => herrors h.1, _, .group errors, ?_, closed_closeAll n⟩
      rw [openLoop, if_pos herrors]
  | cons info infos ih =>
    have hpass : AllPass options (info :: infos) ↔
        (setup options info.1 info.2).Passes ∧ AllPass options infos := List.forall_mem_cons
    have hbounds : bounds options (info :: infos) = bounds options infos +
        if (setup options info.1 info.2).isBound then 1 else 0 := List.countP_cons
    have hopen : (⟨n, []⟩ : Sockets).openSocket = ⟨n + 1, []⟩ := rfl
    rw [openLoop, hpass, hbounds]
    rcases setup options info.1 info.2 with _ | _ | error | ⟨_ | _, exc⟩
    · have hskip : (Setup.skipped : Setup χ).Passes := trivial
      simpa only [Setup.isBound, Bool.false_eq_true, if_false, Nat.add_zero, hskip, true_and]
        using ih n errors
    · have hbound : (Setup.bound : Setup χ).Passes := trivial
      have hcount : n + (bounds options infos + 1) = n + 1 + bounds options infos := by omega
      simp only [Setup.isBound, if_true, hbound, true_and, hcount, hopen, ← List.range_succ]
      exact ih (n + 1) errors
    · simp only [hopen, ← List.range_succ]
      rcases ih (n + 1) (errors ++ [error]) with ⟨herrors, -⟩ | ⟨-, hraised⟩
      · simp at herrors
      · exact .inr ⟨fun h => h.2.1, hraised⟩
    · exact .inr ⟨fun h => h.2.1, _, _, rfl, closed_closeAll n⟩
    · refine .inr ⟨fun h => h.2.1, _, _, rfl, ?_⟩
      simp only [hopen, ← List.range_succ]
      exact closed_closeAll (n + 1)

variable (options infos) in
/-- **Either all of the sockets are bound and open, or all of them are closed.** -/
theorem openListenerSockets_spec :
    (AllPass options infos ∧ openListenerSockets options infos =
      (⟨bounds options infos, []⟩, .ok (List.range (bounds options infos)))) ∨
    (¬ AllPass options infos ∧ ∃ sockets exc,
      openListenerSockets options infos = (sockets, .error exc) ∧
        ∀ sock < sockets.opened, sock ∈ sockets.closed) := by
  rcases openLoop_spec options infos 0 [] with
    ⟨-, hpass, hopen⟩ | ⟨hpass, hraised⟩
  · rw [Nat.zero_add] at hopen
    exact .inl ⟨hpass, hopen⟩
  · exact .inr ⟨fun h => hpass ⟨rfl, h⟩, hraised⟩

/-- The endpoints of the sockets from `n` on: each of them has a transport, or the creation has
    failed at one of them, `k`, and this is the only socket that is closed. -/
theorem createEndpoints_spec (endpoint : ℕ → Except (Exc χ) Unit) (m n : ℕ) (s : Endpoints) :
    ((∀ k, n ≤ k → k < n + m → endpoint k = .ok ()) ∧
      createEndpoints endpoint (List.range' n m) s =
        ({ s with transports := s.transports ++ List.range' n m }, .ok (List.range' n m))) ∨
    ∃ k exc, n ≤ k ∧ k < n + m ∧ endpoint k = .error exc ∧
      createEndpoints endpoint (List.range' n m) s =
        ({ s with closed := s.closed ++ [k], transports := s.transports ++ List.range' n (k - n) },
          .error exc) := by
  induction m generalizing n s with
  | zero =>
    refine .inl ⟨fun k hnk hk => absurd hk (by omega), ?_⟩
    rw [List.range'_zero, createEndpoints, List.append_nil]
  | succ m ih =>
    rw [List.range'_succ, createEndpoints]
    rcases hendpoint : endpoint n with exc | ⟨⟩
    · refine .inr ⟨n, exc, Nat.le_refl n, by omega, hendpoint, ?_⟩
      rw [Nat.sub_self, List.range'_zero, List.append_nil]
      rfl
    · rcases ih (n + 1) { s with transports := s.transports ++ [n] } with
        ⟨hall, hcreate⟩ | ⟨k, exc, hnk, hk, herror, hcreate⟩
      · refine .inl ⟨fun k hnk hk => ?_, ?_⟩
        · rcases Nat.eq_or_lt_of_le hnk with rfl | hlt
          · exact hendpoint
          · exact hall k hlt (by omega)
        · simp only [hcreate, List.append_assoc, List.singleton_append, Except.map]
      · refine .inr ⟨k, exc, by omega, by omega, herror, ?_⟩
        have hsub : k - n = k - (n + 1) + 1 := by omega
        simp only [hcreate, List.append_assoc, List.singleton_append, Except.map, hsub,
          List.range'_succ]

theorem allOrNothing_createEndpoints (endpoint : ℕ → Except (Exc χ) Unit) (n : ℕ) :
    AllOrNothing (createEndpoints endpoint (List.range n) { opened := n, closed := [] }) ↔
      (2 ≤ n → ∀ k < n, endpoint k = .ok ()) := by
  rw [List.range_eq_range']
  rcases createEndpoints_spec endpoint n 0 { opened := n, closed := [] } with
    ⟨hall, hcreate⟩ | ⟨k, exc, -, hk, herror, hcreate⟩
  · rw [hcreate]
    refine iff_of_true (.inl ⟨?_, rfl⟩) fun _ k hk => hall k (Nat.zero_le k) (by omega)
    rw [List.range_eq_range']
  · rw [hcreate]
    have hfails : ¬ ∀ k < n, endpoint k = .ok () := by
      intro hall
      cases (hall k (by omega)).symm.trans herror
    simp only [hfails, imp_false, not_le]
    constructor
    · rintro (⟨hok, -⟩ | ⟨hclosed, htransports⟩)
      · cases hok
      · by_contra hlt
        -- a socket that is not the one that failed
        have hother : ∀ sock < n, sock = k := by
          intro sock hsock
          exact List.mem_singleton.1 (hclosed sock hsock)
        have h0 := hother 0 (by omega)
        have h1 := hother 1 (by omega)
        omega
    · intro hlt
      have hk0 : k = 0 := by omega
      subst hk0
      refine .inr ⟨fun sock hsock => ?_, fun sock hsock => absurd hsock List.not_mem_nil⟩
      have hsock0 : sock = 0 := by
        have : sock < n := hsock
        omega
      exact List.mem_singleton.2 hsock0

end

/-- **The listeners are all or nothing iff, when there are two sockets, all of the endpoints can be
    created.** -/
theorem createUdpListeners_iff (options : Options)
    (infos : Except (Exc χ) (List (AddrInfo SockAddr × Answers χ)))
    (endpoint : ℕ → Except (Exc χ) Unit) :
    AllOrNothing (createUdpListeners options infos endpoint) ↔
      ∀ addrs, infos = .ok addrs →
        let options := { options with reuseAddress := false, hasOnBindSuccess := false }
        AllPass options addrs → 2 ≤ bounds options addrs →
          ∀ k < bounds options addrs, endpoint k = .ok () := by
  rcases infos with exc | addrs
  · refine iff_of_true (.inr ⟨fun sock hsock => absurd hsock (Nat.not_lt_zero _), ?_⟩) nofun
    exact fun sock hsock => absurd hsock List.not_mem_nil
  set options' := { options with reuseAddress := false, hasOnBindSuccess := false } with hoptions
  have hinj : (∀ addrs', Except.ok addrs = (Except.ok addrs' : Except (Exc χ) _) →
      AllPass options' addrs' → 2 ≤ bounds options' addrs' →
        ∀ k < bounds options' addrs', endpoint k = .ok ()) ↔
      (AllPass options' addrs → 2 ≤ bounds options' addrs →
        ∀ k < bounds options' addrs, endpoint k = .ok ()) :=
    ⟨fun h => h addrs rfl, fun h addrs' heq => by cases heq; exact h⟩
  refine Iff.trans ?_ hinj.symm
  rw [createUdpListeners, ← hoptions]
  rcases openListenerSockets_spec options' addrs with
    ⟨hpass, hopen⟩ | ⟨hpass, sockets, exc, hopen, hclosed⟩
  · simp only [hopen, hpass, forall_const]
    exact allOrNothing_createEndpoints endpoint (bounds options' addrs)
  · simp only [hopen]
    refine iff_of_true (.inr ⟨hclosed, fun sock hsock => absurd hsock List.not_mem_nil⟩) ?_
    exact fun h => absurd h hpass

/-- Linux, without `reuse_port`. -/
def Options.linux : Options where
  hasReuseaddr := true
  hasReuseport := true
  hasIpprotoIpv6 := true
  reprAddr sa := "('" ++ sa.host ++ "', " ++ toString sa.port ++ ")"
  int _ := none
  reuseAddress := false
  reusePort := false
  hasOnBindSuccess := false

/-- Two hosts, whose sockets can be opened and bound. -/
def twoHosts : List (AddrInfo SockAddr × Answers Unit) :=
  let answers : Answers Unit := ⟨.ok, .ok, .ok, .ok, .ok, .ok⟩
  [(⟨.AF_INET, 2, 17, { host := "127.0.0.1", port := 9000 }⟩, answers),
    (⟨.AF_INET, 2, 17, { host := "127.0.0.2", port := 9000 }⟩, answers)]

theorem both_transports_open :
    let result := createUdpListeners .linux (.ok twoHosts) fun _ => .ok ()
    result = ({ opened := 2, closed := [], transports := [0, 1] }, .ok [0, 1]) ∧
      AllOrNothing result :=
  ⟨rfl, (createUdpListeners_iff .linux (.ok twoHosts) fun _ => .ok ()).2
    fun _ _ _ _ _ _ => rfl⟩

/-- A cancellation is thrown into the creation of the second endpoint.  The transport of the first
    socket is left open. -/
theorem cancelled_transport_left :
    let result := createUdpListeners .linux (.ok twoHosts) fun sock =>
      if sock = 1 then .error .cancelled else .ok ()
    result = ({ opened := 2, closed := [1], transports := [0] }, .error .cancelled) ∧
      ¬ AllOrNothing result := by
  intro result
  have hresult :
      result = ({ opened := 2, closed := [1], transports := [0] }, .error .cancelled) := rfl
  refine ⟨hresult, ?_⟩
  rw [hresult]
  rintro (⟨hok, -⟩ | ⟨hclosed, -⟩)
  · cases hok
  · exact absurd (hclosed 0 Nat.zero_lt_two) (by decide)

end UdpListeners

end EasyNetwork
