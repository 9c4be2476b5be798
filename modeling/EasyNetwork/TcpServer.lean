/-
  A TCP server, from a client's calls of `send_packet()` to the request handler of the user: the
  coroutine of a client (`lowlevel/api_async/servers/stream.py`) runs the generator of
  `build_lowlevel_stream_server_handler` (`servers/misc.py`), which runs those of the user.

  The generator goes on while the code of the coroutine is in `anext()`, `asend()`, `athrow()` or
  `aclose()`.  When it has yielded, the coroutine goes on, and gives it a request or an exception,
  or closes it.  An exception is thrown into it as `exc` says.

  `requests_arrive`: the packets that the client has sent are forwarded to the generators of the
  user, one after the other, in the order of the calls of `send_packet()`.
-/
import EasyNetwork.PacketsArrive
import EasyNetwork.ServerFrames
import EasyNetwork.StreamHandler

namespace EasyNetwork

open Framing

namespace TcpServer

variable {Q σ P ι E X : Type}

/-! ## The server -/

/-- `Q` are the packets of the client, `P` the requests and `X` the exceptions. -/
structure State (Q σ P ι E X : Type) where
  sender : ClientSend.State Q := {}
  /-- the bytes in flight -/
  wire : Bytes := []
  server : StreamServer.State σ P ι E
  handler : StreamHandler.State P X Delay

/-- The coroutine has called `anext()` of the generator. -/
def State.init (clears : Bool) (consumer : σ) : State Q σ P ι E X where
  server := .init clears consumer
  handler := { point := .initializing }

inductive Action (Q P E X : Type) where
  | send (a : ClientSend.Action Q)
  /-- a read takes the first bytes in flight -/
  | received (n : ℕ)
  | endOfStream
  /-- the coroutine goes on, or other code runs: `close` is the `aclose()` of the client -/
  | server (a : StreamServer.Action E)
  /-- the generator goes on; if it yields a finite timeout, this is the one of the scope `i`, and
      perhaps has expired when this is entered -/
  | handler (a : StreamHandler.Action P X Delay) (i : ℕ) (expired : Bool)

/-- What the generator and the network do not do. -/
def isServer : StreamServer.Action E → Bool
  | .loop _ | .resume | .code _ | .recvRaises _ _ | .close => true
  | _ => false

/-- What the generator does by itself. -/
def isOwn {V : Type} : StreamHandler.Action P X V → Bool
  | .start | .input _ | .close => false
  | _ => true

/-- How the generator is resumed. -/
def input (exc : StreamServer.Raised P ι E → X) :
    StreamServer.Resumption P ι E → StreamHandler.Input P X
  | .asend request => .request request
  | .athrow e => .exception (exc e)

/-- How the generator has ended, as the coroutine sees it. -/
def ends : StreamHandler.Outcome X → StreamServer.Action E
  | .returned | .generatorExit => .generatorStops
  | .raised _ => .generatorRaises

/-- The coroutine is in `anext()`, `asend()`, `athrow()` or `aclose()` of the generator. -/
def inGenerator : StreamServer.Point P → Bool
  | .generator | .aclose _ => true
  | _ => false

/-- The coroutine waits for the transport. -/
def isReading : StreamServer.Point P → Bool
  | .recv _ _ => true
  | _ => false

namespace State
variable (exc : StreamServer.Raised P ι E → X) (f : Feeder σ Bytes WriteBuffer (NextResult P ι))
  (s : State Q σ P ι E X)

/-- The coroutine has gone on: if the generator has yielded, it may be resumed or closed. -/
def tell (server : StreamServer.State σ P ι E) : Option (State Q σ P ι E X) :=
  match s.handler.point with
  | .suspended _ =>
    match server.resumptions.drop s.server.resumptions.length, server.point with
    | x :: _, _ => (StreamHandler.step s.handler (.input (input exc x))).map fun handler =>
      { s with server, handler }
    | [], .aclose _ => (StreamHandler.step s.handler .close).map fun handler =>
      { s with server, handler }
    | [], _ => some { s with server }
  | _ => some { s with server }

def goOn (a : StreamServer.Action E) : Option (State Q σ P ι E X) :=
  (StreamServer.step f s.server a).bind (s.tell exc)

/-- The generator has gone on: it has ended, or yielded, or neither. -/
def answer (a : StreamHandler.Action P X Delay) (i : ℕ) (expired : Bool) :
    Option (State Q σ P ι E X) :=
  match s.handler.point, a with
  | .ended outcome, _ => s.goOn exc f (ends outcome)
  | _, .answers (.yielded timeout) => s.goOn exc f (.generatorYields timeout i expired)
  | _, _ => some s

end State

/-- One step of an interleaving. -/
def step (generate : Q → Except String (List Bytes)) (exc : StreamServer.Raised P ι E → X)
    (f : Feeder σ Bytes WriteBuffer (NextResult P ι)) (s : State Q σ P ι E X) :
    Action Q P E X → Option (State Q σ P ι E X)
  | .send a =>
    (ClientSend.step generate s.sender a).map fun sender =>
      { s with sender, wire := s.wire ++ sender.stream.drop s.sender.stream.length }
  | .received n =>
    State.goOn exc f { s with wire := s.wire.drop n } (.received (s.wire.take n))
  | .endOfStream =>
    if s.sender.eof = true ∧ s.wire = [] then s.goOn exc f .endOfStream else none
  | .server a => if isServer a then s.goOn exc f a else none
  | .handler a i expired =>
    if isOwn a ∧ inGenerator s.server.point ∧ s.server.Running then
      (StreamHandler.step s.handler a).bind fun handler =>
        State.answer exc f { s with handler } a i expired
    else none

def request? : StreamHandler.Input P X → Option P
  | .request request => some request
  | .exception _ => none

/-- The requests that have been forwarded to the generators of the user. -/
def State.requests (s : State Q σ P ι E X) : List P :=
  (s.handler.log.filterMap StreamHandler.Event.forward).filterMap request?

/-! ## The generator -/

end TcpServer

namespace StreamHandler

variable {R X V : Type} {s s' : State R X V} {a : Action R X V}

/-- The generator runs, and has been started. -/
def Point.isRunning : Point X → Bool
  | .notStarted | .suspended _ | .ended _ => false
  | _ => true

/-- It leaves its exit stack, and yields no more. -/
def Point.isLeaving : Point X → Bool
  | .closing _ _ | .disconnecting _ | .exiting _ => true
  | _ => false

/-- What the server has given to the generator. -/
def State.inputs (s : State R X V) : List (Input R X) := s.log.filterMap Event.input

theorem inputs_record (s : State R X V) {events : List (Event R X V)}
    (h : events.filterMap Event.input = []) : (s.record events).inputs = s.inputs := by
  rw [State.inputs, State.record, List.filterMap_append, h, List.append_nil]
  rfl

theorem inputs_leave (s : State R X V) (outcome : Outcome X) :
    (s.leave outcome).inputs = s.inputs ∧ (s.leave outcome).point.isLeaving = true := by
  unfold State.leave
  split
  · exact ⟨inputs_record { s with point := .disconnecting outcome } rfl, rfl⟩
  · exact ⟨rfl, rfl⟩

theorem inputs_stop (s : State R X V) (g : Gen) :
    (s.stop g).inputs = s.inputs ∧ (s.stop g).point = .looping := by
  unfold State.stop
  split
  · exact ⟨inputs_record s rfl, rfl⟩
  · exact ⟨inputs_record { s with point := .looping } rfl, rfl⟩

/-- What the generator does by itself: it goes on, or yields, or ends. -/
inductive Goes (s : State R X V) (a : Action R X V) (s' : State R X V) : Prop
  | on : s'.inputs = s.inputs → s'.point.isRunning = true →
      (∀ params, a ≠ .answers (.yielded params)) →
      (s.point.isLeaving = true → s'.point.isLeaving = true) → Goes s a s'
  | yields (g : Gen) (params : V) : s'.inputs = s.inputs → a = .answers (.yielded params) →
      s.point.isLeaving = false → s'.point = .suspended g → Goes s a s'
  | ends (outcome : Outcome X) : s'.inputs = s.inputs →
      (∀ params, a ≠ .answers (.yielded params)) → s'.point = .ended outcome → Goes s a s'

theorem isRunning_of_isLeaving {p : Point X} (h : p.isLeaving = true) : p.isRunning = true := by
  cases p <;> first | rfl | cases h

/-- It leaves its exit stack. -/
theorem goes_leave {t : State R X V} {outcome : Outcome X} (ht : t.inputs = s.inputs)
    (ha : ∀ params, a ≠ .answers (.yielded params)) : Goes s a (t.leave outcome) := by
  obtain ⟨hinputs, hleaving⟩ := inputs_leave t outcome
  exact .on (hinputs.trans ht) (isRunning_of_isLeaving hleaving) ha fun _ => hleaving

theorem goes_on {t : State R X V} (ht : t.inputs = s.inputs) (hrunning : t.point.isRunning = true)
    (ha : ∀ params, a ≠ .answers (.yielded params)) (hp : s.point.isLeaving = false) :
    Goes s a t :=
  .on ht hrunning ha fun h => by
    rw [hp] at h
    cases h

/-- **What the generator does by itself.** -/
theorem goes_of_step (hs : step s a = some s') (ha : TcpServer.isOwn a = true) : Goes s a s' := by
  have hended : ∀ outcome, ({ s with point := .ended outcome }.record [.ended] :
      State R X V).inputs = s.inputs := fun outcome => inputs_record _ rfl
  unfold step at hs
  split at hs <;> (try cases hs) <;> (try cases ha) <;> rename_i hp
  · exact .ends _ (hended _) (by rintro _ ⟨⟩) rfl
  · exact goes_leave rfl (by rintro _ ⟨⟩)
  · exact goes_on rfl rfl (by rintro _ ⟨⟩) (by rw [hp]; rfl)
  · exact goes_on (inputs_record _ rfl) rfl (by rintro _ ⟨⟩) (by rw [hp]; rfl)
  · exact goes_on rfl rfl (by rintro _ ⟨⟩) (by rw [hp]; rfl)
  · exact goes_leave rfl (by rintro _ ⟨⟩)
  · exact goes_on (inputs_record s rfl) rfl (by rintro _ ⟨⟩) (by rw [hp]; rfl)
  · exact goes_leave (inputs_record s rfl) (by rintro _ ⟨⟩)
  · -- a generator of the user yields
    exact .yields _ _ (inputs_record _ rfl) rfl (by rw [hp]; rfl) rfl
  · -- it stops
    split at hs <;> cases hs
    · exact goes_on (inputs_record _ rfl) rfl (by rintro _ ⟨⟩) (by rw [hp]; rfl)
    · obtain ⟨hinputs, hlooping⟩ := inputs_stop (s.record [.answered _ .stopped]) _
      exact goes_on (hinputs.trans (inputs_record s rfl)) (by rw [hlooping]; rfl) (by rintro _ ⟨⟩)
        (by rw [hp]; rfl)
  · exact goes_leave (inputs_record s rfl) (by rintro _ ⟨⟩)
  · exact goes_leave rfl (by rintro _ ⟨⟩)
  · exact goes_leave rfl (by rintro _ ⟨⟩)
  · exact goes_leave rfl (by rintro _ ⟨⟩)
  · exact goes_on rfl rfl (by rintro _ ⟨⟩) (by rw [hp]; rfl)
  · exact goes_on (inputs_record _ rfl) rfl (by rintro _ ⟨⟩) (by rw [hp]; rfl)
  · exact goes_leave rfl (by rintro _ ⟨⟩)
  · exact goes_leave (inputs_record s rfl) (by rintro _ ⟨⟩)
  · exact .on rfl rfl (by rintro _ ⟨⟩) fun _ => rfl
  all_goals exact .ends _ (hended _) (by rintro _ ⟨⟩) rfl

/-- The server resumes the generator. -/
theorem step_input {g : Gen} (hp : s.point = .suspended g) (input : Input R X) :
    ∃ s', step s (.input input) = some s' ∧ s'.inputs = s.inputs ++ [input] ∧
      s'.point = .driving g false := by
  refine ⟨{ s with point := .driving g false }.record [.received input, .forwarded g input],
    by simp only [step, hp], ?_, rfl⟩
  rw [State.inputs, State.record, List.filterMap_append]
  rfl

theorem step_close {g : Gen} (hp : s.point = .suspended g) :
    ∃ s', step s .close = some s' ∧ s'.inputs = s.inputs ∧
      s'.point = .closing g .generatorExit :=
  ⟨{ s with point := .closing g .generatorExit }.record [.aclosed g], by simp only [step, hp],
    inputs_record _ rfl, rfl⟩

end StreamHandler

namespace TcpServer

variable {Q σ P ι E X ρ : Type}

/-! ## The coroutine and its generator -/

/-- The generator is where the coroutine has left it, and has been given what the coroutine has
    resumed it with. -/
structure Agrees (exc : StreamServer.Raised P ι E → X) (server : StreamServer.State σ P ι E)
    (handler : StreamHandler.State P X Delay) : Prop where
  inputs : handler.inputs = server.resumptions.map (input exc)
  suspended : server.generator = .suspended → ∃ g, handler.point = .suspended g
  running : server.generator = .running → handler.point.isRunning = true
  closed : server.generator = .closed → ∃ outcome, handler.point = .ended outcome
  leaving : ∀ graceful, server.point = .aclose graceful → handler.point.isLeaving = true
  /-- what is thrown is no request -/
  throws : ∀ x ∈ server.resumptions, x.Throws
  rel : ∃ c, StreamHandler.Rel handler c

section
variable {exc : StreamServer.Raised P ι E → X} {f : Feeder σ Bytes WriteBuffer (NextResult P ι)}
  {s₀ : σ} {s s' : State Q σ P ι E X} {server : StreamServer.State σ P ι E}

theorem agrees_init (clears : Bool) : Agrees exc (.init clears s₀ : StreamServer.State σ P ι E)
    { point := .initializing } where
  inputs := rfl
  suspended := by rintro ⟨⟩
  running _ := rfl
  closed := by rintro ⟨⟩
  leaving := by rintro _ ⟨⟩
  throws := by rintro _ ⟨⟩
  rel := StreamHandler.Rel.init.step (a := .start) rfl

/-- The generator takes what it is given. -/
theorem tell_of_given {g : StreamHandler.Gen} (hp : s.handler.point = .suspended g)
    (hinputs : s.handler.inputs = s.server.resumptions.map (input exc))
    (hthrows : ∀ x ∈ s.server.resumptions, x.Throws) (hrel : ∃ c, StreamHandler.Rel s.handler c)
    (h : StreamServer.Given s.server.resumptions server) :
    ∃ handler, s.tell exc server = some { s with server, handler } ∧ Agrees exc server handler := by
  obtain ⟨c, hc⟩ := hrel
  unfold State.tell
  rw [hp]
  dsimp only
  cases h with
  | nothing hgenerator hsame hpoint =>
    refine ⟨s.handler, ?_, ?_⟩
    · rw [hsame, List.drop_length]
      split
      · contradiction
      · next hc => exact absurd hc (hpoint _)
      · rfl
    · exact
        { inputs := hsame ▸ hinputs
          suspended := fun _ => ⟨g, hp⟩
          running := fun hc => by cases hgenerator.symm.trans hc
          closed := fun hc => by cases hgenerator.symm.trans hc
          leaving := fun _ hc => absurd hc (hpoint _)
          throws := hsame ▸ hthrows
          rel := ⟨c, hc⟩ }
  | resumed x hgenerator hpoint hsame hthrow =>
    obtain ⟨handler, hstep, hinputs', hpoint'⟩ := StreamHandler.step_input hp (input exc x)
    refine ⟨handler, ?_, ?_⟩
    · rw [hsame, List.drop_left]
      dsimp only
      rw [hstep]
      rfl
    · exact
        { inputs := by rw [hinputs', hinputs, hsame, List.map_append]; rfl
          suspended := fun hc => by cases hgenerator.symm.trans hc
          running := fun _ => by rw [hpoint']; rfl
          closed := fun hc => by cases hgenerator.symm.trans hc
          leaving := fun _ hc => by cases hpoint.symm.trans hc
          throws := fun y hy => by
            rw [hsame] at hy
            rcases List.mem_append.1 hy with hy | hy
            · exact hthrows y hy
            · rw [List.mem_singleton.1 hy]
              exact hthrow
          rel := hc.step hstep }
  | closed graceful hgenerator hpoint hsame =>
    obtain ⟨handler, hstep, hinputs', hpoint'⟩ := StreamHandler.step_close hp
    refine ⟨handler, ?_, ?_⟩
    · rw [hsame, List.drop_length, hpoint]
      dsimp only
      rw [hstep]
      rfl
    · exact
        { inputs := by rw [hinputs', hinputs, hsame]
          suspended := fun hc => by cases hgenerator.symm.trans hc
          running := fun _ => by rw [hpoint']; rfl
          closed := fun hc => by cases hgenerator.symm.trans hc
          leaving := fun _ _ => by rw [hpoint']; rfl
          throws := hsame ▸ hthrows
          rel := hc.step hstep }

/-- Only the task and its scopes change. -/
theorem tell_quiet (h : Agrees exc s.server s.handler) (scopes : CancelScope.State)
    (isClosing : Bool) : s.tell exc { s.server with scopes := scopes, isClosing := isClosing } =
      some { s with server := { s.server with scopes := scopes, isClosing := isClosing } } := by
  unfold State.tell
  split
  · next g hp =>
    rw [List.drop_length]
    split
    · contradiction
    · next graceful _ hc =>
      have hleaving := h.leaving graceful hc
      rw [hp] at hleaving
      cases hleaving
    · rfl
  · rfl

/-- The coroutine goes on by itself. -/
theorem tell_of_step (hinv : StreamServer.Inv f s₀ s.server) (h : Agrees exc s.server s.handler)
    {a : StreamServer.Action E} (ha : a.isGenerator = false)
    (hs : StreamServer.step f s.server a = some server) :
    ∃ handler, s.tell exc server = some { s with server, handler } ∧ Agrees exc server handler := by
  have hgiven : s.server.generator = .suspended →
      StreamServer.Given s.server.resumptions server → ∃ handler,
        s.tell exc server = some { s with server, handler } ∧ Agrees exc server handler := by
    intro hgenerator hgiven
    obtain ⟨g, hp⟩ := h.suspended hgenerator
    exact tell_of_given hp h.inputs h.throws h.rel hgiven
  cases StreamServer.step_cases hinv hs with
  | quiet scopes isClosing _ _ =>
    exact ⟨s.handler, tell_quiet h scopes isClosing,
      ⟨h.inputs, h.suspended, h.running, h.closed, h.leaving, h.throws, h.rel⟩⟩
  | recvEnds _ _ _ hreceiving hrunning hr =>
    exact hgiven hreceiving.generator
      (StreamServer.given_finish hreceiving hrunning (StreamServer.raises_of_result?_eq_none hr))
  | yielded _ hreceiving hrunning =>
    exact hgiven hreceiving.generator
      (StreamServer.given_finish hreceiving hrunning (StreamServer.raises_ok _))
  | received _ hreceiving hrunning _ _ _ _ =>
    exact hgiven hreceiving.generator (StreamServer.given_received hreceiving hrunning _ _)
  | yields _ _ _ _ => cases ha
  | ended hc _ _ =>
    rw [ha] at hc
    cases hc

/-- A generator of the user has yielded. -/
theorem tell_of_yields (hinv : StreamServer.Inv f s₀ s.server) {g : StreamHandler.Gen}
    (hp : s.handler.point = .suspended g)
    (hinputs : s.handler.inputs = s.server.resumptions.map (input exc))
    (hthrows : ∀ x ∈ s.server.resumptions, x.Throws) (hrel : ∃ c, StreamHandler.Rel s.handler c)
    (hpoint : ∀ graceful, s.server.point ≠ .aclose graceful)
    {timeout : Delay} {i : ℕ} {expired : Bool}
    (hs : StreamServer.step f s.server (.generatorYields timeout i expired) = some server) :
    ∃ handler, s.tell exc server = some { s with server, handler } ∧ Agrees exc server handler := by
  cases StreamServer.step_cases hinv hs with
  | quiet _ _ hc _ => cases hc
  | recvEnds hc _ _ _ _ _ => cases hc
  | yields _ hreceiving hrunning hserve =>
    have hgiven := StreamServer.given_serve hreceiving hrunning hserve
    exact tell_of_given hp hinputs hthrows hrel hgiven
  | ended _ _ hc =>
    rcases hc with ⟨-, hc⟩ | hc
    · exact absurd rfl (hc _ _ _)
    · exact absurd hc (hpoint _)

theorem tell_of_ends (hinv : StreamServer.Inv f s₀ s.server) {outcome : StreamHandler.Outcome X}
    (hp : s.handler.point = .ended outcome)
    (hinputs : s.handler.inputs = s.server.resumptions.map (input exc))
    (hthrows : ∀ x ∈ s.server.resumptions, x.Throws) (hrel : ∃ c, StreamHandler.Rel s.handler c)
    (hs : StreamServer.step f s.server (ends outcome) = some server) :
    ∃ handler, s.tell exc server = some { s with server, handler } ∧ Agrees exc server handler := by
  have hends : (ends outcome : StreamServer.Action E).isGenerator = true ∧
      ∀ timeout i expired, (ends outcome : StreamServer.Action E) ≠
        .generatorYields timeout i expired := by
    cases outcome <;> exact ⟨rfl, by rintro _ _ _ ⟨⟩⟩
  have htell : s.tell exc server = some { s with server } := by
    unfold State.tell
    rw [hp]
  refine ⟨s.handler, htell, ?_⟩
  generalize ends outcome = a at hs hends
  obtain ⟨hgenerator, hne⟩ := hends
  cases StreamServer.step_cases hinv hs with
  | quiet _ _ hc _ => cases hgenerator.symm.trans hc
  | recvEnds hc _ _ _ _ _ => cases hgenerator.symm.trans hc
  | yielded _ _ _ => cases hgenerator
  | received _ _ _ _ _ _ _ => cases hgenerator
  | yields _ _ _ _ => exact absurd rfl (hne _ _ _)
  | ended _ _ _ =>
    exact ⟨hinputs, by rintro ⟨⟩, by rintro ⟨⟩, fun _ => ⟨outcome, hp⟩, by rintro _ ⟨⟩, hthrows,
      hrel⟩

end

/-! ## Both ends -/

section
variable {generate : Q → Except String (List Bytes)} {exc : StreamServer.Raised P ι E → X}
  {f : Feeder σ Bytes WriteBuffer (NextResult P ι)} {F : Framer UInt8 ρ} {report : ρ → Verdict P ι}
  {ok : Bytes → Prop} {Holds Waits : σ → Bytes → Prop} {Ok : σ → Prop} {s₀ : σ}
  {s s' : State Q σ P ι E X}

/-- What has been read and what is in flight is what has been sent, and the generator agrees with
    the coroutine. -/
structure Inv (generate : Q → Except String (List Bytes)) (exc : StreamServer.Raised P ι E → X)
    (f : Feeder σ Bytes WriteBuffer (NextResult P ι)) (F : Framer UInt8 ρ)
    (report : ρ → Verdict P ι) (ok : Bytes → Prop) (Holds Waits : σ → Bytes → Prop) (s₀ : σ)
    (s : State Q σ P ι E X) : Prop where
  sender : ClientSend.Inv generate s.sender
  server : StreamServer.Inv f s₀ s.server
  framed : ok s.server.chunks.flatten →
    ∃ os b, StreamServer.Framed F report ok Holds Waits s.server os b
  agrees : Agrees exc s.server s.handler
  bytes : s.server.chunks.flatten ++ s.wire = s.sender.stream

theorem Inv.init (hf : StreamEndpoint.ReadsFrames f F report ok Holds Waits) (hw : Waits s₀ [])
    (clears : Bool) : Inv generate exc f F report ok Holds Waits s₀ (.init clears s₀) where
  sender := .init
  server := .init f clears s₀
  framed _ := ⟨[], [], Leaves.refl F ok [], hf.holds hw, rfl, by rintro _ _ ⟨⟩⟩
  agrees := agrees_init clears
  bytes := rfl

/-- The coroutine goes on, and the generator takes what it is given. -/
theorem goOn_inv (hf : StreamEndpoint.ReadsFrames f F report ok Holds Waits) (hok : F.Closed ok)
    (hlawful : f.Lawful Ok) (h₀ : Ok s₀) (hsender : ClientSend.Inv generate s.sender)
    (hserver : StreamServer.Inv f s₀ s.server) (hframed : ok s.server.chunks.flatten →
      ∃ os b, StreamServer.Framed F report ok Holds Waits s.server os b)
    {a : StreamServer.Action E} (htell : ∀ server, StreamServer.step f s.server a = some server →
      ∃ handler, s.tell exc server = some { s with server, handler } ∧ Agrees exc server handler)
    (hbytes : (s.server.chunks ++ a.chunk).flatten ++ s.wire = s.sender.stream)
    (hs : s.goOn exc f a = some s') : Inv generate exc f F report ok Holds Waits s₀ s' := by
  obtain ⟨server, hstep, hs⟩ := Option.bind_eq_some_iff.1 hs
  obtain ⟨handler, heq, hagrees⟩ := htell server hstep
  rw [heq] at hs
  cases hs
  have hchunks := StreamServer.chunks_step hserver hstep
  refine ⟨hsender, hserver.step hlawful h₀ hstep, fun ht => ?_, hagrees, ?_⟩
  · change ok server.chunks.flatten at ht
    rw [hchunks] at ht
    have hbefore : ok s.server.chunks.flatten := by
      rw [List.flatten_append] at ht
      exact hok.of_append ht
    obtain ⟨os, b, h⟩ := hframed hbefore
    exact StreamServer.framed_step hf hok hserver h hstep ht
  · show server.chunks.flatten ++ s.wire = s.sender.stream
    rw [hchunks]
    exact hbytes

/-- The generator runs when the coroutine is in one of its methods. -/
theorem running_of_inGenerator (h : StreamServer.Inv f s₀ s.server)
    (hp : inGenerator s.server.point = true) : s.server.generator = .running := by
  have hpoint := h.point
  unfold StreamServer.At at hpoint
  cases hpoint' : s.server.point with
  | generator =>
    rw [hpoint'] at hpoint
    exact hpoint.1
  | aclose graceful =>
    rw [hpoint'] at hpoint
    exact hpoint
  | shieldedYield scope request | recv scope buffer | ended graceful =>
    rw [hpoint'] at hp
    cases hp

theorem answer_on {a : StreamHandler.Action P X Delay} {i : ℕ} {expired : Bool}
    (hrunning : s.handler.point.isRunning = true)
    (hne : ∀ timeout, a ≠ .answers (.yielded timeout)) : s.answer exc f a i expired = some s := by
  unfold State.answer
  split
  · next hp =>
    rw [hp] at hrunning
    cases hrunning
  · exact absurd rfl (hne _)
  · rfl

theorem answer_yields {g : StreamHandler.Gen} (hp : s.handler.point = .suspended g)
    {timeout : Delay} {i : ℕ} {expired : Bool} :
    s.answer exc f (.answers (.yielded timeout)) i expired =
      s.goOn exc f (.generatorYields timeout i expired) := by
  simp only [State.answer, hp]

theorem answer_ends {outcome : StreamHandler.Outcome X} (hp : s.handler.point = .ended outcome)
    {a : StreamHandler.Action P X Delay} {i : ℕ} {expired : Bool} :
    s.answer exc f a i expired = s.goOn exc f (ends outcome) := by
  simp only [State.answer, hp]

/-- The generator goes on by itself, and neither yields nor ends. -/
theorem agrees_on {handler : StreamHandler.State P X Delay} (h : Agrees exc s.server s.handler)
    (hrunning : s.server.generator = .running) (hinputs : handler.inputs = s.handler.inputs)
    (hpoint : handler.point.isRunning = true)
    (hleaving : s.handler.point.isLeaving = true → handler.point.isLeaving = true)
    (hrel : ∃ c, StreamHandler.Rel handler c) : Agrees exc s.server handler where
  inputs := hinputs.trans h.inputs
  suspended hc := by cases hrunning.symm.trans hc
  running _ := hpoint
  closed hc := by cases hrunning.symm.trans hc
  leaving graceful hp := hleaving (h.leaving graceful hp)
  throws := h.throws
  rel := hrel

/-- **Step lemma.** -/
theorem step_inv (hf : StreamEndpoint.ReadsFrames f F report ok Holds Waits) (hok : F.Closed ok)
    (hlawful : f.Lawful Ok) (h₀ : Ok s₀) {a : Action Q P E X}
    (h : Inv generate exc f F report ok Holds Waits s₀ s) (hs : step generate exc f s a = some s') :
    Inv generate exc f F report ok Holds Waits s₀ s' := by
  have hquiet : (s.server.chunks ++ []).flatten ++ s.wire = s.sender.stream := by
    rw [List.append_nil]
    exact h.bytes
  cases a with
  | send a =>
    obtain ⟨sender, hsend, rfl⟩ := Option.map_eq_some_iff.1 hs
    obtain ⟨bytes, hbytes, -⟩ := h.sender.exists_append hsend
    refine ⟨h.sender.step hsend, h.server, h.framed, h.agrees, ?_⟩
    show s.server.chunks.flatten ++ (s.wire ++ sender.stream.drop s.sender.stream.length) = _
    rw [hbytes, List.drop_left, ← List.append_assoc, h.bytes]
  | received n =>
    refine goOn_inv (s := { s with wire := s.wire.drop n }) hf hok hlawful h₀ h.sender h.server
      h.framed (fun _ => tell_of_step (s := { s with wire := s.wire.drop n }) h.server h.agrees rfl)
      ?_ hs
    show (s.server.chunks ++ [s.wire.take n]).flatten ++ s.wire.drop n = s.sender.stream
    rw [List.flatten_concat, List.append_assoc, List.take_append_drop]
    exact h.bytes
  | endOfStream =>
    simp only [step] at hs
    split_ifs at hs
    exact goOn_inv (a := .endOfStream) hf hok hlawful h₀ h.sender h.server h.framed
      (fun _ => tell_of_step h.server h.agrees rfl) hquiet hs
  | server a =>
    simp only [step] at hs
    split_ifs at hs with ha
    have hlocal : a.isGenerator = false ∧ a.chunk = [] := by
      cases a <;> first | exact ⟨rfl, rfl⟩ | cases ha
    exact goOn_inv hf hok hlawful h₀ h.sender h.server h.framed
      (fun _ => tell_of_step h.server h.agrees hlocal.1) (hlocal.2 ▸ hquiet) hs
  | handler a i expired =>
    simp only [step] at hs
    split_ifs at hs with hgo
    obtain ⟨hown, hin, -⟩ := hgo
    obtain ⟨handler, hstep, hs⟩ := Option.bind_eq_some_iff.1 hs
    obtain ⟨c, hc⟩ := h.agrees.rel
    have hrel := hc.step hstep
    cases StreamHandler.goes_of_step hstep hown with
    | on hinputs hpoint hne hleaving =>
      rw [answer_on (s := { s with handler := handler }) hpoint hne] at hs
      cases hs
      have hrunning := running_of_inGenerator h.server hin
      exact ⟨h.sender, h.server, h.framed,
        agrees_on (s := s) h.agrees hrunning hinputs hpoint hleaving hrel, h.bytes⟩
    | yields g timeout hinputs ha hleaving hpoint =>
      subst ha
      rw [answer_yields (s := { s with handler := handler }) hpoint] at hs
      refine goOn_inv (s := { s with handler := handler }) hf hok hlawful h₀ h.sender h.server
        h.framed (fun _ => tell_of_yields (s := { s with handler := handler }) h.server hpoint
          (hinputs.trans h.agrees.inputs) h.agrees.throws hrel fun graceful hc => ?_) hquiet hs
      -- a generator that leaves its exit stack does not yield
      rw [h.agrees.leaving graceful hc] at hleaving
      cases hleaving
    | ends outcome hinputs hne hpoint =>
      rw [answer_ends (s := { s with handler := handler }) hpoint] at hs
      refine goOn_inv (s := { s with handler := handler }) hf hok hlawful h₀ h.sender h.server
        h.framed (fun _ => tell_of_ends (s := { s with handler := handler }) h.server hpoint
          (hinputs.trans h.agrees.inputs) h.agrees.throws hrel) ?_ hs
      cases outcome <;> exact hquiet

/-- **Run lemma.** -/
theorem run_inv (hf : StreamEndpoint.ReadsFrames f F report ok Holds Waits) (hok : F.Closed ok)
    (hlawful : f.Lawful Ok) (h₀ : Ok s₀) (hw : Waits s₀ []) {clears : Bool}
    {as : List (Action Q P E X)}
    (h : Trans.run (step generate exc f) (.init clears s₀) as = some s) :
    Inv generate exc f F report ok Holds Waits s₀ s :=
  Trans.run_inv (fun _ _ _ hi hs => step_inv hf hok hlawful h₀ hi hs) (.init hf hw clears) h

/-- The results are packets: then no error has been thrown into the generator. -/
theorem valid_of_results {xs : List (StreamServer.Resumption P ι E)} {ps : List P}
    (hthrows : ∀ x ∈ xs, x.Throws)
    (h : xs.filterMap StreamServer.Resumption.result? = ps.map NextResult.packet)
    (r : NextResult P ι) : .athrow (.consumer r) ∉ xs := by
  intro hmem
  have hresult : r ∈ xs.filterMap StreamServer.Resumption.result? :=
    List.mem_filterMap.2 ⟨_, hmem, rfl⟩
  rw [h] at hresult
  obtain ⟨p, -, rfl⟩ := List.mem_map.1 hresult
  exact hthrows _ hmem p rfl

variable (exc) in
/-- It has been given these packets. -/
theorem requests_of_results {xs : List (StreamServer.Resumption P ι E)} {ps : List P}
    (hthrows : ∀ x ∈ xs, x.Throws)
    (h : xs.filterMap StreamServer.Resumption.result? = ps.map NextResult.packet) :
    (xs.map (input exc)).filterMap request? = ps := by
  have hinjective : Function.Injective (NextResult.packet : P → NextResult P ι) := by
    rintro p q ⟨⟩
    rfl
  refine hinjective.list_map ?_
  rw [← h, List.filterMap_map, List.map_filterMap]
  refine List.filterMap_congr fun x hx => ?_
  cases x with
  | asend request => rfl
  | athrow e =>
    cases e with
    | consumer r => exact absurd hx (valid_of_results hthrows h r)
    | timeoutError | cancelledError _ | transport _ | invalidDelay _ | stopAsyncIteration => rfl

/-- What the generators of the user have been given of the packets that have been sent. -/
structure Delivers (generate : Q → Except String (List Bytes))
    (exc : StreamServer.Raised P ι E → X) (f : Feeder σ Bytes WriteBuffer (NextResult P ι))
    (received : Q → P) (s : State Q σ P ι E X) : Prop where
  /-- the first of them, in order -/
  isPrefix : s.requests <+: (Connection.sent generate s.sender).map received
  /-- all of them, when nothing is in flight and the coroutine waits for the transport -/
  all : s.wire = [] → isReading s.server.point = true →
    s.requests = (Connection.sent generate s.sender).map received
  /-- no error of the protocol -/
  valid : ∀ r, .athrow (.consumer r) ∉ s.server.resumptions
  /-- When the coroutine goes on, its generator takes what it is given. -/
  taken : ∀ {a server}, a.isGenerator = false → StreamServer.step f s.server a = some server →
    (s.tell exc server).isSome
  lifeCycle : StreamHandler.LifeCycle s.handler.log
  /-- The generator has ended when the coroutine has: then those of the user are closed. -/
  ended : ∀ graceful, s.server.point = .ended graceful →
    .ended ∈ s.handler.log ∧
      ∀ g, StreamHandler.closes s.handler.log g = StreamHandler.obtains s.handler.log g

/-- The generators of the user have been given what the coroutine has resumed the generator with. -/
theorem Agrees.requests_eq (h : Agrees exc s.server s.handler) :
    s.requests = (s.server.resumptions.map (input exc)).filterMap request? := by
  obtain ⟨c, hc⟩ := h.rel
  unfold State.requests
  rw [hc.sound.lifeCycle.forwarded, ← h.inputs]
  rfl

theorem Inv.delivers {sendable : Q → Prop} {received : Q → P}
    (hf : StreamEndpoint.ReadsFrames f F report ok Holds Waits) (hok : F.Closed ok)
    (hlossless : Connection.Lossless generate F report ok sendable received)
    (h : Inv generate exc f F report ok Holds Waits s₀ s)
    (hintact : Connection.Intact generate s.sender)
    (hsendable : ∀ n packet, (s.sender.phase n).sends? = some packet → sendable packet) :
    Delivers generate exc f received s := by
  obtain ⟨ls, os, part, hframes⟩ :=
    Connection.exists_frames h.sender hintact hlossless hok hsendable
  have htotal : ok s.server.chunks.flatten := by
    have := hframes.ok
    rw [← h.bytes] at this
    exact hok.of_append this
  obtain ⟨taken, b, hframed⟩ := h.framed htotal
  obtain ⟨hbegins, hall⟩ := hframes.results h.bytes hframed.leaves hframed.results
  obtain ⟨c, hc⟩ := h.agrees.rel
  have hresults : s.server.results = (((Connection.sent generate s.sender).map received).take
      s.server.results.length).map NextResult.packet := by
    rw [List.map_take, List.map_map]
    exact List.prefix_iff_eq_take.1 ((List.prefix_append _ _).trans hbegins)
  refine ⟨?_, fun hwire hreading => ?_,
    valid_of_results h.agrees.throws hresults, fun ha hs => ?_, hc.sound.lifeCycle,
    fun graceful hp => ?_⟩
  · rw [h.agrees.requests_eq, requests_of_results exc h.agrees.throws hresults]
    exact List.take_prefix _ _
  · obtain ⟨scope, buffer, hp⟩ : ∃ scope buffer, s.server.point = .recv scope buffer := by
      unfold isReading at hreading
      split at hreading
      · next scope buffer hp => exact ⟨scope, buffer, hp⟩
      · cases hreading
    have hheld : s.server.held = [] := StreamServer.held_of_ne fun scope' request hc => by
      cases hp.symm.trans hc
    have heq := hall (hf.dec (hframed.recv hp)) hwire
    rw [hheld, List.append_nil, ← Function.comp_def NextResult.packet received,
      ← List.map_map] at heq
    rw [h.agrees.requests_eq]
    exact requests_of_results exc h.agrees.throws heq
  · obtain ⟨handler, htell, -⟩ := tell_of_step h.server h.agrees ha hs
    rw [htell]
    rfl
  · have hclosed : s.server.generator = .closed := by
      have hpoint := h.server.point
      unfold StreamServer.At at hpoint
      rw [hp] at hpoint
      exact hpoint
    have hended := hc.ended.2 (h.agrees.closed hclosed)
    exact ⟨hended, hc.sound.lifeCycle.closedEnd hended⟩

end

/-- In every interleaving in which no call has ended in the middle of its packet, and the packets
    may be sent, the generators of the user are given what has been sent. -/
def Arrive (generate : Q → Except String (List Bytes)) (exc : StreamServer.Raised P ι E → X)
    (f : Feeder σ Bytes WriteBuffer (NextResult P ι)) (s₀ : σ) (sendable : Q → Prop)
    (received : Q → P) : Prop :=
  ∀ clears as s, Trans.run (step generate exc f) (.init clears s₀) as = some s →
    Connection.Intact generate s.sender →
    (∀ n packet, (s.sender.phase n).sends? = some packet → sendable packet) →
    Delivers generate exc f received s

/-- **The requests arrive**, with either receiver. -/
theorem arrive {σ' : Type} {proto : StreamProtocol σ P ι} {buffered : BufferedStreamProtocol σ' P ι}
    {generate : Q → Except String (List Bytes)} {exc : StreamServer.Raised P ι E → X}
    {F : Framer UInt8 ρ} {report : ρ → Verdict P ι} {ok : Bytes → Prop} {sendable : Q → Prop}
    {received : Q → P} {inv : σ → Bytes → Prop} {inv' : σ' → ℕ → Bytes → Bytes → Prop}
    {maxRecvSize L hint : ℕ} (hok : F.Closed ok)
    (hlossless : Connection.Lossless generate F report ok sendable received)
    (himpl : Implements proto.buildPacketFromChunks F report ok inv) (hmax : 0 < maxRecvSize)
    (hbuffered : BufferImplements buffered.buildPacketFromBuffer F report ok L inv')
    (hL : (buffered.createBuffer hint).length = L) (hpos : 0 < L) :
    Arrive generate exc (StreamEndpoint.dataReceiver proto maxRecvSize) .init sendable received ∧
    Arrive generate exc (StreamEndpoint.bufferedReceiver buffered) (.init hint) sendable
      received := by
  constructor
  · intro clears as s hrun hintact hsendable
    have hf := StreamEndpoint.dataReceiver_readsFrames himpl hmax
    exact (run_inv hf hok (StreamEndpoint.dataReceiver_lawful proto maxRecvSize) trivial
      (StreamDataConsumer.rep_init F inv) hrun).delivers hf hok hlossless hintact hsendable
  · intro clears as s hrun hintact hsendable
    have hf := StreamEndpoint.bufferedReceiver_readsFrames hbuffered hL hpos
    exact (run_inv hf hok (StreamEndpoint.bufferedReceiver_lawful buffered) (fun _ => rfl)
      ⟨rfl, BufferedStreamDataConsumer.rep_init F hint⟩ hrun).delivers hf hok hlossless hintact
      hsendable

end TcpServer

namespace AutoSeparatedPacketSerializer

variable {Q P ι E X : Type}

/-- **Separated requests arrive**, with either receiver. -/
theorem separated_requests_arrive (S : AutoSeparatedPacketSerializer P ι)
    (convertToDtoPacket : Q → Except (SerializeError P) P) (converter : Converter P ι)
    (received : Q → P) (exc : StreamServer.Raised P ι E → X) (maxRecvSize : ℕ)
    (hmax : 0 < maxRecvSize) (hint : ℕ) (hlimit : 2 ≤ S.limit) :
    TcpServer.Arrive
      (StreamDataProducer.generate (generateChunks convertToDtoPacket S.incrementalSerialize)) exc
      (StreamEndpoint.dataReceiver (S.protocol converter) maxRecvSize) .init
      (S.Transmits convertToDtoPacket converter received) received ∧
    TcpServer.Arrive
      (StreamDataProducer.generate (generateChunks convertToDtoPacket S.incrementalSerialize)) exc
      (StreamEndpoint.bufferedReceiver (S.bufferedProtocol converter)) (.init hint)
      (S.Transmits convertToDtoPacket converter received) received :=
  TcpServer.arrive (fits_closed S.separator_ne S.limit)
    (S.lossless convertToDtoPacket converter received hlimit) (implements converter) hmax
    (bufferImplements converter) List.length_replicate S.limit_pos

/-- Two requests: the second one comes in the read that ends the first one, and is sent after the
    shielded `yield`. -/
theorem separated_requests_arrive_two :
    let S : AutoSeparatedPacketSerializer Bytes Unit :=
      { raw [10] 16 (by decide) (by decide) with incrementalSerializeCheckSeparator := false }
    let generate := StreamDataProducer.generate (generateChunks .ok S.incrementalSerialize)
    ∃ s, Trans.run (TcpServer.step (E := Unit) generate (fun _ => ())
        (StreamEndpoint.dataReceiver (S.protocol none) 64)) (.init false .init)
      [.handler (.initialized (.ok (some ()))) 0 false, .handler (.hook .awaitable) 0 false,
        .handler (.connected none) 0 false, .handler (.isClosing (.ok false)) 0 false,
        .handler (.handle none) 0 false, .handler (.answers (.yielded ⊤)) 0 false,
        .send (.call (.sendPacket [65])), .send (.call (.sendPacket [66])),
        .send (.connect 0 .connected), .send (.accept 0 1), .received 1, .send (.accept 0 1),
        .send (.done 0 false), .send (.wake 1), .send (.connect 1 .connected),
        .send (.accept 1 2), .send (.done 1 false), .received 3,
        .handler (.answers (.yielded ⊤)) 0 false, .server .resume,
        .handler (.answers (.yielded ⊤)) 0 false] = some s ∧
      s.requests = [[65], [66]] := by
  intro S generate
  obtain ⟨s, hs⟩ : ∃ s, Trans.run (TcpServer.step (E := Unit) generate (fun _ => ())
        (StreamEndpoint.dataReceiver (S.protocol none) 64)) (.init false .init)
      [.handler (.initialized (.ok (some ()))) 0 false, .handler (.hook .awaitable) 0 false,
        .handler (.connected none) 0 false, .handler (.isClosing (.ok false)) 0 false,
        .handler (.handle none) 0 false, .handler (.answers (.yielded ⊤)) 0 false,
        .send (.call (.sendPacket [65])), .send (.call (.sendPacket [66])),
        .send (.connect 0 .connected), .send (.accept 0 1), .received 1, .send (.accept 0 1),
        .send (.done 0 false), .send (.wake 1), .send (.connect 1 .connected),
        .send (.accept 1 2), .send (.done 1 false), .received 3,
        .handler (.answers (.yielded ⊤)) 0 false, .server .resume,
        .handler (.answers (.yielded ⊤)) 0 false] = some s :=
    Option.isSome_iff_exists.1 (by decide +kernel)
  have hview : some (s.wire, s.sender.lock.calls, s.sender.accepted) =
      some ([], 2, [(0, [65, 10]), (1, [66, 10])]) := by
    rw [← Option.map_some (f := fun s : TcpServer.State Bytes _ Bytes Unit Unit Unit => (s.wire,
      s.sender.lock.calls, s.sender.accepted)), ← hs]
    decide +kernel
  have hphases : some (s.sender.phase 0, s.sender.phase 1) =
      some (.ended (.sendPacket [65]) .returned, .ended (.sendPacket [66]) .returned) := by
    rw [← Option.map_some (f := fun s : TcpServer.State Bytes _ Bytes Unit Unit Unit =>
      (s.sender.phase 0, s.sender.phase 1)), ← hs]
    decide +kernel
  have hreading : some (TcpServer.isReading s.server.point) = some true := by
    rw [← Option.map_some (f := fun s : TcpServer.State Bytes _ Bytes Unit Unit Unit =>
      TcpServer.isReading s.server.point), ← hs]
    decide +kernel
  have hsender : ClientSend.Inv generate s.sender :=
    (TcpServer.run_inv (StreamEndpoint.dataReceiver_readsFrames (S.implements none) (by decide))
      (fits_closed S.separator_ne S.limit) (StreamEndpoint.dataReceiver_lawful _ 64) trivial
      (StreamDataConsumer.rep_init _ _) hs).sender
  simp only [Option.some.injEq, Prod.mk.injEq] at hview hphases hreading
  obtain ⟨hwire, hcalls, haccepted⟩ := hview
  obtain ⟨h0, h1⟩ := hphases
  obtain ⟨hsent, hintact, hpackets⟩ := Connection.two_sent [[65, 10]] [[66, 10]]
    hsender hcalls rfl rfl haccepted h0 h1
  have htransmits : ∀ c : UInt8, c = 65 ∨ c = 66 → S.Transmits .ok none id [c] := by
    rintro c (rfl | rfl) <;> exact ⟨_, _, rfl, rfl, by decide, by decide, rfl⟩
  refine ⟨s, hs, ?_⟩
  have harrive := (separated_requests_arrive (E := Unit) S .ok none id (fun _ => ()) 64
    (by decide) 1 (by decide)).1 _ _ s hs hintact fun n packet hpacket => ?_
  · rw [harrive.all hwire hreading, hsent, List.map_id]
  · rcases hpackets n packet hpacket with rfl | rfl
    · exact htransmits 65 (.inl rfl)
    · exact htransmits 66 (.inr rfl)

end AutoSeparatedPacketSerializer

end EasyNetwork
