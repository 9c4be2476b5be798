/-
  The accounting of the timeout in `_retry`, and in the loops that call it again with what is left:
  `send_all_from_iterable` and `receive` of the endpoint.

  `runFor` makes at most so many attempts and keeps a log of the waits; a run that goes on is one of
  `retryLoop` that has not ended (`retryLoop_eq`).  The timeout that is left is always what the
  elapsed time leaves of the first one (`Inv`), in all of the loops.
-/
import EasyNetwork.SendAll
import EasyNetwork.StreamEndpoint

namespace EasyNetwork

/-- No time is negative. -/
def Selector.Monotonic (selector : Selector) : Prop :=
  ∀ i event timeout, 0 ≤ (selector.select i event timeout).2

/-- No call takes longer than requested. -/
def Selector.Prompt (selector : Selector) : Prop :=
  ∀ i event timeout, 0 ≤ timeout → ((selector.select i event timeout).2 : Delay) ≤ timeout

/-! ## The runs of `_retry` -/

/-- A call of `select()`: the time that had been spent before, and the answer. -/
structure Wait where
  startedAt : ℚ
  requested : Delay
  available : Bool
  elapsed : ℚ

/-- An attempt that blocks, and the wait that follows, if there is one. -/
structure Blocked where
  event : Event
  wait : Option Wait

/-- The variables of `_retry`, and what has happened so far. -/
structure Loop (σ : Type) where
  timeout : Delay
  state : σ
  clock : Clock := {}
  blocked : List Blocked := []

/-- The waits so far. -/
def Loop.waits {σ : Type} (l : Loop σ) : List Wait := l.blocked.filterMap Blocked.wait

/-- What one iteration leaves, by the wait in it. -/
def Loop.advance {σ : Type} (l : Loop σ) (event : Event) (s : σ) (wait : Option Wait) : Loop σ :=
  let blocked := l.blocked ++ [⟨event, wait⟩]
  match wait with
  | none => { l with state := s, blocked }
  | some w =>
    { timeout := recomputeTimeout l.timeout w.elapsed
      state := s
      clock := { selects := l.clock.selects + 1, elapsed := l.clock.elapsed + w.elapsed }
      blocked }

namespace SelectorBaseTransport
variable (transport : SelectorBaseTransport) (selector : Selector) {σ R : Type}

/-- The wait that `poll` requests. -/
def pollWait (event : Event) (fileno : ℤ) (timeout : Delay) (clock : Clock) : Option Wait :=
  if timeout ≤ 0 ∨ fileno < 0 then none
  else
    let waitTime := if timeout ≤ transport.retryInterval then timeout else transport.retryInterval
    let (available, elapsed) := selector.select clock.selects event waitTime
    some ⟨clock.elapsed, waitTime, available, elapsed⟩

/-- `poll`, with the log. -/
def pollLogged (event : Event) (fileno : ℤ) (s : σ) (l : Loop σ) :
    Except TransportError Unit × Loop σ :=
  ((transport.poll selector event fileno l.timeout l.clock).1.map fun _ => (),
    l.advance event s (transport.pollWait selector event fileno l.timeout l.clock))

/-- At most so many attempts; the result is `none` if all of them have blocked. -/
def runFor (callback : σ → Attempt R × σ) :
    ℕ → Loop σ → Option (Except TransportError (R × Delay)) × Loop σ
  | 0, l => (none, l)
  | fuel + 1, l =>
    match callback l.state with
    | (.result r, s) => (some (.ok (r, l.timeout)), { l with state := s })
    | (.wouldBlockOnRead, s) =>
      match transport.pollLogged selector .read transport.readFileno s l with
      | (.error e, l) => (some (.error e), l)
      | (.ok (), l) => runFor callback fuel l
    | (.wouldBlockOnWrite, s) =>
      match transport.pollLogged selector .write transport.writeFileno s l with
      | (.error e, l) => (some (.error e), l)
      | (.ok (), l) => runFor callback fuel l

variable {transport selector} {callback : σ → Attempt R × σ} {l : Loop σ} {event : Event}
  {fileno : ℤ} {T timeout : Delay} {clock : Clock} {s : σ}

variable (transport selector) in
/-- **What one iteration can do.**  It gives up without a wait, or it waits for the shorter one of
    the two times, and gives up only if nothing has come and all of the timeout is over. -/
theorem poll_cases (event : Event) (fileno : ℤ) (timeout : Delay) (clock : Clock) :
    (transport.pollWait selector event fileno timeout clock = none ∧
      ∃ e, transport.poll selector event fileno timeout clock = (.error e, clock) ∧
        (e = .osError .ETIMEDOUT → timeout ≤ 0)) ∨
    ∃ w : Wait, transport.pollWait selector event fileno timeout clock = some w ∧
      w.startedAt = clock.elapsed ∧ w.requested = min timeout transport.retryInterval ∧
      selector.select clock.selects event w.requested = (w.available, w.elapsed) ∧ 0 < timeout ∧
      let clock' : Clock := ⟨clock.selects + 1, clock.elapsed + w.elapsed⟩
      transport.poll selector event fileno timeout clock =
          (.ok (recomputeTimeout timeout w.elapsed), clock') ∨
        transport.poll selector event fileno timeout clock =
          (.error (.osError .ETIMEDOUT), clock') ∧ w.available = false ∧ w.requested = timeout := by
  by_cases h0 : timeout ≤ 0
  · refine .inl ⟨?_, .osError .ETIMEDOUT, ?_, fun _ => h0⟩
    · simp only [pollWait, h0, true_or, if_true]
    · simp only [poll, h0, if_true]
  by_cases hfile : fileno < 0
  · refine .inl ⟨?_, .osError .EBADF, ?_, fun he => ?_⟩
    · simp only [pollWait, hfile, or_true, if_true]
    · simp only [poll, h0, hfile, if_true, if_false]
    · cases he
  right
  obtain ⟨waitTime, available, elapsed, hwait, hselect, hpoll⟩ :=
    poll_waits transport selector event h0 hfile clock
  refine ⟨⟨clock.elapsed, waitTime, available, elapsed⟩, ?_, rfl, ?_, hselect, not_le.1 h0, ?_⟩
  · simp only [pollWait, h0, hfile, or_self, ← hwait, hselect, if_false]
  · rw [hwait, min_def]
  · rcases hpoll with hpoll | ⟨hpoll, ha, hwait, -⟩
    · exact .inl hpoll
    · exact .inr ⟨hpoll, ha, hwait⟩

/-- The log agrees with the clock and with the timeout of the next attempt. -/
theorem poll_eq (event : Event) (fileno : ℤ) (s : σ) (l : Loop σ) :
    transport.poll selector event fileno l.timeout l.clock =
      ((transport.pollLogged selector event fileno s l).1.map fun _ =>
        (transport.pollLogged selector event fileno s l).2.timeout,
      (transport.pollLogged selector event fileno s l).2.clock) := by
  rcases poll_cases transport selector event fileno l.timeout l.clock
    with ⟨hwait, e, hpoll, -⟩ | ⟨w, hwait, -, -, -, -, hpoll | ⟨hpoll, -⟩⟩ <;>
  · simp only [pollLogged, hpoll, hwait, Loop.advance]
    rfl

variable (transport selector event fileno) in
theorem state_pollLogged (s : σ) (l : Loop σ) :
    (transport.pollLogged selector event fileno s l).2.state = s := by
  simp only [pollLogged, Loop.advance]
  split <;> rfl

/-- What has ended gives the result, the state and the clock. -/
def erase (run : Option (Except TransportError (R × Delay)) × Loop σ) :
    Option (Except TransportError (R × Delay) × σ × Clock) :=
  run.1.map fun result => (result, run.2.state, run.2.clock)

theorem retryLoop_eq (fuel : ℕ) (l : Loop σ) :
    transport.retryLoop selector callback fuel l.timeout l.state l.clock =
      erase (transport.runFor selector callback fuel l) := by
  induction fuel generalizing l with
  | zero => rfl
  | succ fuel ih =>
    rw [retryLoop, runFor]
    rcases callback l.state with ⟨r | _ | _, s⟩
    · rfl
    · have hstate := state_pollLogged transport selector .read transport.readFileno s l
      dsimp only
      rw [poll_eq .read transport.readFileno s l]
      generalize transport.pollLogged selector .read transport.readFileno s l = polled at hstate ⊢
      subst hstate
      obtain ⟨e | ⟨⟩, l'⟩ := polled
      · rfl
      · exact ih l'
    · have hstate := state_pollLogged transport selector .write transport.writeFileno s l
      dsimp only
      rw [poll_eq .write transport.writeFileno s l]
      generalize transport.pollLogged selector .write transport.writeFileno s l = polled at hstate ⊢
      subst hstate
      obtain ⟨e | ⟨⟩, l'⟩ := polled
      · rfl
      · exact ih l'

theorem retry_eq (fuel : ℕ) {l : Loop σ} (h : 0 ≤ l.timeout) :
    transport.retry selector callback fuel l.timeout l.state l.clock =
      erase (transport.runFor selector callback fuel l) := by
  have hvalid : validateTimeoutDelay l.timeout true = .ok l.timeout :=
    if_neg fun hneg => not_lt.2 h hneg.2
  rw [retry, hvalid]
  exact retryLoop_eq fuel l

/-! ## What every run keeps -/

/-- What is left of the timeout `T`, and what has been requested. -/
structure Inv (transport : SelectorBaseTransport) (selector : Selector) (T : Delay) (l : Loop σ) :
    Prop where
  timeout : l.timeout = recomputeTimeout T l.clock.elapsed
  elapsed : 0 ≤ l.clock.elapsed
  selects : l.clock.selects = l.waits.length
  total : l.clock.elapsed = (l.waits.map Wait.elapsed).sum
  started : ∀ i w, l.waits[i]? = some w → w.startedAt = ((l.waits.take i).map Wait.elapsed).sum
  requested : ∀ w ∈ l.waits,
    w.requested ≤ min transport.retryInterval (recomputeTimeout T w.startedAt)
  unused : T = 0 → l.waits = []
  prompt : selector.Prompt → (l.clock.elapsed : Delay) ≤ T

theorem Inv.init (hT : 0 ≤ T) (s : σ) : Inv transport selector T ⟨T, s, {}, []⟩ where
  timeout := (recomputeTimeout_of_nonneg hT).symm
  elapsed := le_rfl
  selects := rfl
  total := rfl
  started := nofun
  requested := nofun
  unused _ := rfl
  prompt _ := hT

theorem Inv.nonneg (h : Inv transport selector T l) : 0 ≤ l.timeout :=
  h.timeout ▸ recomputeTimeout_nonneg _ _

/-- The state of the callback and the log of the other attempts do not matter. -/
theorem Inv.congr {l' : Loop σ} (h : Inv transport selector T l) (htimeout : l'.timeout = l.timeout)
    (hclock : l'.clock = l.clock) (hwaits : l'.waits = l.waits) : Inv transport selector T l' where
  timeout := by rw [htimeout, hclock, h.timeout]
  elapsed := hclock ▸ h.elapsed
  selects := by rw [hclock, hwaits, h.selects]
  total := by rw [hclock, hwaits, h.total]
  started := hwaits ▸ h.started
  requested := hwaits ▸ h.requested
  unused := hwaits ▸ h.unused
  prompt := hclock ▸ h.prompt

theorem Inv.wait {l' : Loop σ} {w : Wait} (h : Inv transport selector T l)
    (htimeout : l'.timeout = recomputeTimeout l.timeout w.elapsed)
    (hclock : l'.clock = ⟨l.clock.selects + 1, l.clock.elapsed + w.elapsed⟩)
    (hwaits : l'.waits = l.waits ++ [w]) (hpos : 0 < l.timeout) (hw : 0 ≤ w.elapsed)
    (hstarted : w.startedAt = l.clock.elapsed)
    (hrequested : w.requested = min l.timeout transport.retryInterval)
    (hprompt : selector.Prompt → (w.elapsed : Delay) ≤ w.requested) :
    Inv transport selector T l' where
  timeout := by
    rw [htimeout, hclock, h.timeout]
    exact recomputeTimeout_recomputeTimeout T _ hw
  elapsed := hclock ▸ add_nonneg h.elapsed hw
  selects := by rw [hclock, hwaits, List.length_append, ← h.selects, List.length_singleton]
  total := by
    rw [hclock, hwaits, List.map_append, List.sum_append, ← h.total]
    exact congrArg (l.clock.elapsed + ·) (add_zero w.elapsed).symm
  started := by
    intro i w' hi
    rw [hwaits] at hi ⊢
    by_cases hlt : i < l.waits.length
    · rw [List.getElem?_append_left hlt] at hi
      rw [List.take_append_of_le_length hlt.le]
      exact h.started i w' hi
    · obtain ⟨rfl, rfl⟩ : i = l.waits.length ∧ w = w' := by
        rw [List.getElem?_append_right (not_lt.1 hlt)] at hi
        obtain ⟨hlen, hget⟩ := List.getElem?_eq_some_iff.1 hi
        simp only [List.length_singleton] at hlen
        have hi0 : i - l.waits.length = 0 := by omega
        simp only [hi0, List.getElem_cons_zero] at hget
        exact ⟨by omega, hget⟩
      rw [List.take_left, hstarted, h.total]
  requested := by
    intro w' hw'
    rcases List.mem_append.1 (hwaits ▸ hw') with hw' | hw'
    · exact h.requested w' hw'
    · rw [List.mem_singleton.1 hw', hstarted, ← h.timeout, hrequested, min_comm]
  unused := by
    rintro rfl
    -- nothing is left of a timeout of zero
    rw [h.timeout, recomputeTimeout_zero_left h.elapsed] at hpos
    exact absurd hpos (lt_irrefl _)
  prompt := by
    intro hsel
    rw [hclock]
    refine add_le_of_le_recomputeTimeout (h.prompt hsel) ?_
    rw [← h.timeout]
    exact (hprompt hsel).trans (hrequested ▸ min_le_left _ _)

/-- **Step lemma.** -/
theorem Inv.pollLogged (hmono : selector.Monotonic) (h : Inv transport selector T l)
    (event : Event) (fileno : ℤ) (s : σ) :
    Inv transport selector T (transport.pollLogged selector event fileno s l).2 := by
  rcases poll_cases transport selector event fileno l.timeout l.clock
    with ⟨hwait, -⟩ | ⟨w, hwait, hstarted, hrequested, hselect, hpos, -⟩ <;>
  rw [SelectorBaseTransport.pollLogged, hwait]
  · refine h.congr rfl rfl ?_
    rw [Loop.waits, Loop.waits, Loop.advance, List.filterMap_append]
    exact List.append_nil _
  · have hw : 0 ≤ w.elapsed := by
      have := hmono l.clock.selects event w.requested
      rwa [hselect] at this
    refine h.wait rfl rfl ?_ hpos hw hstarted hrequested fun hprompt => ?_
    · rw [Loop.waits, Loop.waits, Loop.advance, List.filterMap_append]
      rfl
    · have hle := hprompt l.clock.selects event w.requested
        (hrequested ▸ le_min hpos.le transport.retryInterval_pos.le)
      rwa [hselect] at hle

/-- The last attempt has blocked, and if there was a wait after it, nothing has come. -/
def GaveUp (l : Loop σ) : Prop :=
  ∃ b, l.blocked.getLast? = some b ∧ ∀ w, b.wait = some w → w.available = false

/-- All of the timeout has been spent when an iteration times out. -/
theorem Inv.timedOut (h : Inv transport selector T l) (event : Event) (fileno : ℤ) (s : σ)
    (hpoll : (transport.pollLogged selector event fileno s l).1 = .error (.osError .ETIMEDOUT)) :
    T ≤ (transport.pollLogged selector event fileno s l).2.clock.elapsed ∧
      GaveUp (transport.pollLogged selector event fileno s l).2 := by
  have htotal : T ≤ l.timeout + l.clock.elapsed := h.timeout ▸ le_recomputeTimeout T _
  rcases poll_cases transport selector event fileno l.timeout l.clock
    with ⟨hwait, e, hraised, htimeout⟩ |
      ⟨w, hwait, -, -, hselect, -, hok | ⟨-, havailable, hrequested⟩⟩
  · simp only [SelectorBaseTransport.pollLogged, hraised, Except.map] at hpoll
    cases hpoll
    have h0 : l.timeout = 0 := le_antisymm (htimeout rfl) h.nonneg
    rw [SelectorBaseTransport.pollLogged, hwait]
    refine ⟨?_, ⟨event, none⟩, List.getLast?_concat, nofun⟩
    rwa [h0, zero_add] at htotal
  · simp only [SelectorBaseTransport.pollLogged, hok, Except.map] at hpoll
    cases hpoll
  · have hempty : w.requested ≤ w.elapsed := by
      have := selector.empty_elapsed l.clock.selects event w.requested
      rw [hselect] at this
      exact this havailable
    rw [SelectorBaseTransport.pollLogged, hwait]
    refine ⟨?_, ⟨event, some w⟩, List.getLast?_concat, fun w' hw' => ?_⟩
    · calc T ≤ l.timeout + l.clock.elapsed := htotal
        _ ≤ w.elapsed + l.clock.elapsed := by
          rw [← hrequested]
          gcongr
        _ = ((l.clock.elapsed + w.elapsed : ℚ) : Delay) := by rw [add_comm]; rfl
    · cases hw'
      exact havailable

theorem elapsed_le_pollLogged (transport : SelectorBaseTransport) (hmono : selector.Monotonic)
    (event : Event) (fileno : ℤ) (s : σ) (l : Loop σ) :
    l.clock.elapsed ≤ (transport.pollLogged selector event fileno s l).2.clock.elapsed := by
  rcases poll_cases transport selector event fileno l.timeout l.clock
    with ⟨hwait, -⟩ | ⟨w, hwait, -, -, hselect, -⟩ <;>
  rw [SelectorBaseTransport.pollLogged, hwait]
  · exact le_rfl
  · have hw : 0 ≤ w.elapsed := by
      have := hmono l.clock.selects event w.requested
      rwa [hselect] at this
    exact le_add_of_nonneg_right hw

/-- What a run gives that starts after some time. -/
structure Spec (transport : SelectorBaseTransport) (selector : Selector) (T : Delay) (start : ℚ)
    (run : Option (Except TransportError (R × Delay)) × Loop σ) : Prop where
  inv : Inv transport selector T run.2
  start_le : start ≤ run.2.clock.elapsed
  returned : ∀ r timeout, run.1 = some (.ok (r, timeout)) → timeout = run.2.timeout
  timedOut : run.1 = some (.error (.osError .ETIMEDOUT)) →
    T ≤ run.2.clock.elapsed ∧ GaveUp run.2

/-- **Run lemma.** -/
theorem runFor_spec (hmono : selector.Monotonic) (callback : σ → Attempt R × σ) (fuel : ℕ)
    {start : ℚ} (hstart : start ≤ l.clock.elapsed) (h : Inv transport selector T l) :
    Spec transport selector T start (transport.runFor selector callback fuel l) := by
  induction fuel generalizing l with
  | zero => exact ⟨h, hstart, nofun, nofun⟩
  | succ fuel ih =>
    have hblocked : ∀ event fileno s, Spec transport selector T start
        (match transport.pollLogged selector event fileno s l with
          | (.error e, l) => (some (.error e), l)
          | (.ok (), l) => transport.runFor selector callback fuel l) := by
      intro event fileno s
      have hinv := h.pollLogged hmono event fileno s
      have htimedOut := h.timedOut event fileno s
      have hle := elapsed_le_pollLogged transport hmono event fileno s l
      generalize transport.pollLogged selector event fileno s l = polled at hinv htimedOut hle ⊢
      obtain ⟨e | ⟨⟩, l'⟩ := polled
      · refine ⟨hinv, hstart.trans hle, nofun, fun he => ?_⟩
        cases he
        exact htimedOut rfl
      · exact ih (hstart.trans hle) hinv
    rw [runFor]
    rcases callback l.state with ⟨r | _ | _, s⟩
    · refine ⟨h.congr rfl rfl rfl, hstart, ?_, nofun⟩
      intro r' timeout hr
      cases hr
      rfl
    · exact hblocked .read transport.readFileno s
    · exact hblocked .write transport.writeFileno s

/-! ## Sending and receiving -/

/-- `while True` of `send_all_from_iterable`, over at most so many attempts. -/
def sendAllFor (transport : SelectorBaseTransport) (selector : Selector)
    (attempt : List MemoryView → σ → Attempt ℕ × σ) :
    ℕ → List MemoryView → Loop σ → Option (Except TransportError Unit) × Loop σ
  | 0, _, l => (none, l)
  | fuel + 1, buffers, l =>
    match transport.runFor selector (attempt buffers) fuel l with
    | (none, l) => (none, l)
    | (some (.error e), l) => (some (.error e), l)
    | (some (.ok (sent, timeout)), l) =>
      match adjustLeftoverBuffer buffers sent with
      | .error e => (some (.error e), l)
      | .ok [] => (some (.ok ()), l)
      | .ok buffers => sendAllFor transport selector attempt fuel buffers { l with timeout }

theorem sendAllFor_inv (hmono : selector.Monotonic) (attempt : List MemoryView → σ → Attempt ℕ × σ)
    (fuel : ℕ) (buffers : List MemoryView) (h : Inv transport selector T l) :
    Inv transport selector T (sendAllFor transport selector attempt fuel buffers l).2 := by
  induction fuel generalizing buffers l with
  | zero => exact h
  | succ fuel ih =>
    rw [sendAllFor]
    have hspec := runFor_spec hmono (attempt buffers) fuel le_rfl h
    generalize transport.runFor selector (attempt buffers) fuel l = run at hspec ⊢
    obtain ⟨_ | e | ⟨sent, timeout⟩, l'⟩ := run
    · exact hspec.inv
    · exact hspec.inv
    · have htimeout := hspec.returned sent timeout rfl
      dsimp only at htimeout ⊢
      split
      · exact hspec.inv
      · exact hspec.inv
      · exact ih _ (htimeout ▸ hspec.inv)

end SelectorBaseTransport

/-- **`send_all_from_iterable` gives the result of the run.** -/
theorem SocketStreamTransport.sendAllFromIterable_eq (transport : SocketStreamTransport)
    {selector : Selector} (hmono : selector.Monotonic) (iovMax : ℕ) (sock : StreamSocket) (fuel : ℕ)
    (buffers : List MemoryView) {T : Delay} {l : Loop Wire}
    (h : transport.toSelectorBase.Inv selector T l) :
    let run := SelectorBaseTransport.sendAllFor transport.toSelectorBase selector
      (trySendmsg iovMax sock) fuel buffers l
    transport.sendAllFromIterable selector iovMax sock fuel buffers l.timeout l.state l.clock =
      run.1.map fun result => (result, run.2.state, run.2.clock) := by
  induction fuel generalizing buffers l with
  | zero => rfl
  | succ fuel ih =>
    have hspec := SelectorBaseTransport.runFor_spec hmono (trySendmsg iovMax sock buffers) fuel
      le_rfl h
    simp only [sendAllFromIterable, SelectorBaseTransport.sendAllFor,
      SelectorBaseTransport.retry_eq fuel h.nonneg, SelectorBaseTransport.erase]
    generalize transport.toSelectorBase.runFor selector (trySendmsg iovMax sock buffers) fuel l =
      run at hspec ⊢
    obtain ⟨_ | e | ⟨sent, timeout⟩, l'⟩ := run
    · rfl
    · rfl
    · obtain rfl : timeout = l'.timeout := hspec.returned sent timeout rfl
      rcases hadjust : adjustLeftoverBuffer buffers sent with e | _ | ⟨b, buffers'⟩
      · simp only [Option.map_some, hadjust]
      · simp only [Option.map_some, hadjust]
      · simp only [Option.map_some, hadjust]
        exact ih (b :: buffers') hspec.inv

namespace StreamEndpoint
variable {σ P ι τ : Type}

/-- How far a call of `receive` has come. -/
inductive Progress where
  | running
  /-- the outcome is in the state -/
  | ended
  /-- by the transport -/
  | raised

/-- `while not self._eof_reached` of `receive`, over a transport that reads with `_retry`; `recv` is
    `recv_noblock` or `recv_noblock_into`, which may raise. -/
def receiveFor (f : Feeder σ Bytes WriteBuffer (NextResult P ι)) (transport : SelectorBaseTransport)
    (selector : Selector) (recv : WriteBuffer → τ → Attempt (Option Bytes) × τ) :
    ℕ → State σ P ι → Loop τ → Progress × State σ P ι × Loop τ
  | 0, s, l => (.running, s, l)
  | fuel + 1, s, l =>
    match s.reading with
    | none => (.ended, s, l)
    | some (timeout, buffer) =>
      match transport.runFor selector (recv buffer) fuel { l with timeout } with
      | (none, l') => (.running, s, l')
      | (some (.error _), l') => (.raised, s, l')
      | (some (.ok (none, _)), l') => (.raised, s, l')
      | (some (.ok (some chunk, _)), l') =>
        let answer := if chunk = [] then Action.endOfStream
          else .received chunk (l'.clock.elapsed - l.clock.elapsed)
        match step f s answer with
        | none => (.raised, s, l')
        | some s => receiveFor f transport selector recv fuel s l'

section
variable {f : Feeder σ Bytes WriteBuffer (NextResult P ι)} {transport : SelectorBaseTransport}
  {selector : Selector} {T timeout timeout' : Delay} {buffer : WriteBuffer} {s : State σ P ι}

theorem reading_loop (h : (s.loop f timeout).reading = some (timeout', buffer)) :
    timeout' = timeout := by
  unfold State.loop at h
  split at h
  · cases h
  · split at h
    · cases h
    · cases h
      rfl

theorem reading_receive (h : (s.receive f timeout).reading = some (timeout', buffer)) :
    timeout' = timeout := by
  unfold State.receive at h
  split at h
  · cases h
  · exact reading_loop h

/-- The next read has what is left of the timeout. -/
theorem reading_received {buffer' : WriteBuffer} {chunk : Bytes} {elapsed : ℚ} (hpos : 0 ≤ timeout)
    (helapsed : 0 ≤ elapsed)
    (h : (s.received f timeout buffer chunk elapsed).reading = some (timeout', buffer')) :
    timeout' = recomputeTimeout timeout elapsed := by
  unfold State.received at h
  dsimp only at h
  split at h
  · cases h
  · split_ifs at h with hlt hshort
    · exact reading_loop h
    · cases h
    · obtain rfl : timeout = 0 := le_antisymm (not_lt.1 hlt) hpos
      rw [recomputeTimeout_zero_left helapsed]
      exact reading_loop h

/-- **The reads of a call share the timeout.** -/
theorem receiveFor_inv (hmono : selector.Monotonic)
    (recv : WriteBuffer → τ → Attempt (Option Bytes) × τ) (fuel : ℕ) {l : Loop τ}
    (h : transport.Inv selector T l)
    (hreading : ∀ timeout buffer, s.reading = some (timeout, buffer) →
      timeout = recomputeTimeout T l.clock.elapsed) :
    transport.Inv selector T (receiveFor f transport selector recv fuel s l).2.2 := by
  induction fuel generalizing s l with
  | zero => exact h
  | succ fuel ih =>
    rw [receiveFor]
    rcases hread : s.reading with _ | ⟨timeout, buffer⟩
    · exact h
    have htimeout := hreading timeout buffer hread
    have hl : transport.Inv selector T { l with timeout } :=
      h.congr (htimeout.trans h.timeout.symm) rfl rfl
    have hspec := SelectorBaseTransport.runFor_spec (l := { l with timeout }) hmono (recv buffer)
      fuel (le_refl l.clock.elapsed) hl
    dsimp only
    generalize transport.runFor selector (recv buffer) fuel { l with timeout } = run at hspec ⊢
    obtain ⟨_ | e | ⟨_ | chunk, timeout'⟩, l'⟩ := run
    · exact hspec.inv
    · exact hspec.inv
    · exact hspec.inv
    have hmore := hspec.start_le
    have hleft : recomputeTimeout timeout (l'.clock.elapsed - l.clock.elapsed) =
        recomputeTimeout T l'.clock.elapsed := by
      rw [htimeout, recomputeTimeout_recomputeTimeout T _ (sub_nonneg.2 hmore),
        add_sub_cancel]
    dsimp only
    split
    · exact hspec.inv
    · next s' hstep =>
      refine ih hspec.inv fun timeout'' buffer' hread' => ?_
      split_ifs at hstep with hchunk
      · -- the end of the stream is the end of the call
        simp only [step, hread, State.loop, if_true] at hstep
        cases hstep
        cases hread'
      · simp only [step, hread] at hstep
        split_ifs at hstep
        cases hstep
        rw [← hleft]
        exact reading_received (htimeout ▸ recomputeTimeout_nonneg _ _) (sub_nonneg.2 hmore) hread'

end

end StreamEndpoint

/-- **The accounting of the timeout.**  No wait is longer than the retry interval or than what is
    left; nothing is waited for with a timeout of zero; what is returned is what is left;
    `TimeoutError` does not come before all of it has been spent; and if the waits are not longer
    than requested, no more of it is spent, over the loops that call `_retry` repeatedly, too. -/
theorem retry_timeouts (transport : SelectorBaseTransport) {selector : Selector}
    (hmono : selector.Monotonic) {T : Delay} (hT : 0 ≤ T) :
    (∀ {σ R : Type} (callback : σ → Attempt R × σ) (s : σ) (fuel : ℕ),
      let run := transport.runFor selector callback fuel ⟨T, s, {}, []⟩
      transport.retry selector callback fuel T s {} = SelectorBaseTransport.erase run ∧
      run.2.clock.selects = run.2.waits.length ∧
      run.2.clock.elapsed = (run.2.waits.map Wait.elapsed).sum ∧
      (∀ i w, run.2.waits[i]? = some w →
        w.requested ≤ min transport.retryInterval
          (max 0 (T.map (· - ((run.2.waits.take i).map Wait.elapsed).sum)))) ∧
      (T = 0 → run.2.clock.selects = 0) ∧
      (∀ r timeout, run.1 = some (.ok (r, timeout)) →
        timeout = max 0 (T.map (· - run.2.clock.elapsed))) ∧
      (run.1 = some (.error (.osError .ETIMEDOUT)) →
        T ≤ run.2.clock.elapsed ∧ SelectorBaseTransport.GaveUp run.2) ∧
      (selector.Prompt → (run.2.clock.elapsed : Delay) ≤ T)) ∧
    (∀ {σ : Type} (attempt : List MemoryView → σ → Attempt ℕ × σ) (s : σ) (fuel : ℕ)
      (buffers : List MemoryView),
      let run := transport.sendAllFor selector attempt fuel buffers ⟨T, s, {}, []⟩
      selector.Prompt → (run.2.clock.elapsed : Delay) ≤ T) ∧
    (∀ (socketTransport : SocketStreamTransport) (iovMax : ℕ) (sock : StreamSocket) (fuel : ℕ)
      (buffers : List MemoryView) (wire : Wire),
      socketTransport.toSelectorBase = transport →
        let run := transport.sendAllFor selector (SocketStreamTransport.trySendmsg iovMax sock) fuel
          buffers ⟨T, wire, {}, []⟩
        socketTransport.sendAllFromIterable selector iovMax sock fuel buffers T wire {} =
          run.1.map fun result => (result, run.2.state, run.2.clock)) ∧
    ∀ {σ P ι τ : Type} (f : Feeder σ Bytes WriteBuffer (NextResult P ι))
      (recv : WriteBuffer → τ → Attempt (Option Bytes) × τ) (s : StreamEndpoint.State σ P ι) (t : τ)
      (fuel : ℕ), selector.Prompt →
        ((StreamEndpoint.receiveFor f transport selector recv fuel (s.receive f T)
          ⟨T, t, {}, []⟩).2.2.clock.elapsed : Delay) ≤ T := by
  refine ⟨fun callback s fuel => ?_, fun attempt s fuel buffers => ?_,
    fun socketTransport iovMax sock fuel buffers wire => ?_, fun f recv s t fuel => ?_⟩
  · have hinit : transport.Inv selector T ⟨T, s, {}, []⟩ := SelectorBaseTransport.Inv.init hT s
    have hspec := SelectorBaseTransport.runFor_spec hmono callback fuel (le_refl 0) hinit
    refine ⟨SelectorBaseTransport.retry_eq fuel hinit.nonneg, hspec.inv.selects, hspec.inv.total,
      ?_, fun h0 => ?_, fun r timeout hr => ?_, hspec.timedOut, hspec.inv.prompt⟩
    · intro i w hi
      rw [← recomputeTimeout_eq_max, ← hspec.inv.started i w hi]
      exact hspec.inv.requested w (List.mem_of_getElem? hi)
    · rw [hspec.inv.selects, hspec.inv.unused h0]
      rfl
    · rw [hspec.returned r timeout hr, hspec.inv.timeout, recomputeTimeout_eq_max]
  · exact (SelectorBaseTransport.sendAllFor_inv hmono attempt fuel buffers
      (SelectorBaseTransport.Inv.init hT s)).prompt
  · rintro rfl
    exact socketTransport.sendAllFromIterable_eq hmono iovMax sock fuel buffers
      (SelectorBaseTransport.Inv.init hT wire)
  · refine (StreamEndpoint.receiveFor_inv hmono recv fuel
      (SelectorBaseTransport.Inv.init hT t) fun timeout buffer hread => ?_).prompt
    rw [StreamEndpoint.reading_receive hread, recomputeTimeout_of_nonneg hT]

/-- A selector whose waits are empty, and take the requested time. -/
def Selector.sleeping : Selector where
  select _ _ timeout := (decide (timeout = ⊤), max 0 (timeout.untopD 0))
  empty_elapsed _ _ timeout h := by
    have htop : timeout ≠ ⊤ := of_decide_eq_false h
    lift timeout to ℚ using htop
    exact_mod_cast le_max_right 0 timeout

/-- Three seconds in waits of one second, for a callback that always blocks. -/
theorem retry_timeouts_sleeping :
    Selector.sleeping.Monotonic ∧ (0 : Delay) ≤ 3 ∧ Selector.sleeping.Prompt ∧
      let transport : SelectorBaseTransport := ⟨1, 3, 3, zero_lt_one⟩
      let blocks : Unit → Attempt Unit × Unit := fun s => (.wouldBlockOnRead, s)
      ((transport.runFor .sleeping blocks 4 ⟨3, (), {}, []⟩).2.clock.elapsed : Delay) ≤ 3 := by
  have hmono : Selector.sleeping.Monotonic := fun _ _ timeout => le_max_left 0 _
  have hT : (0 : Delay) ≤ 3 := by decide
  have hprompt : Selector.sleeping.Prompt := by
    intro _ _ timeout h
    induction timeout using WithTop.recTopCoe with
    | top => exact le_top
    | coe q =>
      have hq : max 0 q = q := max_eq_right (by exact_mod_cast h)
      exact (congrArg (fun q : ℚ => (q : Delay)) hq).le
  refine ⟨hmono, hT, hprompt, ?_⟩
  intro transport blocks
  obtain ⟨-, -, -, -, -, -, -, hle⟩ := (retry_timeouts transport hmono hT).1 blocks () 4
  exact hle hprompt

end EasyNetwork
