/-
  What the loops of `send_all_from_iterable` send.

  `adjust_leftover_buffer` consumes the accepted bytes (`adjustLeftoverBuffer_eq`), and what
  `sendmsg()` is offered is the window of the first `SC_IOV_MAX` buffers.  So the loops end iff
  the buffers can be drained, and then all of the bytes have been sent once and in order
  (`sendAllFromIterable_iff`).  An empty buffer at the end, or `SC_IOV_MAX` empty buffers in a
  row, are never removed: the loops spin on a `sendmsg()` of nothing.
-/
import EasyNetwork.Lib.Gather
import EasyNetwork.SendAll

namespace EasyNetwork

open Gather

/-- The bytes of the buffers. -/
def contents (buffers : List MemoryView) : List Bytes := buffers.map (·.data)

@[simp] theorem contents_eq_nil {buffers : List MemoryView} : contents buffers = [] ↔ buffers = [] :=
  List.map_eq_nil_iff

/-- After the cast, the items are the bytes. -/
theorem cast_eq (b : MemoryView) : (if b.itemsize ≠ 1 then b.castB else b) = .ofBytes b.data := by
  rcases b with ⟨itemsize, data⟩
  split_ifs with h
  · rfl
  · obtain rfl : itemsize = 1 := not_not.1 h
    rfl

/-- `adjust_leftover_buffer` consumes what has been accepted. -/
theorem adjustLeftoverBuffer_eq {buffers : List MemoryView} {n : ℕ}
    (h : n ≤ (contents buffers).flatten.length) :
    ∃ buffers', adjustLeftoverBuffer buffers n = .ok buffers' ∧
      contents buffers' = consume n (contents buffers) := by
  induction buffers generalizing n with
  | nil =>
    obtain rfl : n = 0 := by simpa [contents] using h
    exact ⟨[], by simp [adjustLeftoverBuffer], rfl⟩
  | cons b buffers ih =>
    rw [contents, List.map_cons, List.flatten_cons, List.length_append] at h
    rw [adjustLeftoverBuffer, cast_eq, contents, List.map_cons, consume]
    simp only [MemoryView.len, MemoryView.ofBytes, Nat.div_one]
    split_ifs with h0 hb
    · exact ⟨b :: buffers, rfl, rfl⟩
    · exact ih (by rw [contents]; omega)
    · exact ⟨_, rfl, by simp [contents, MemoryView.drop]⟩

/-- What has been sent and what is left make up `initial`. -/
def Conserves (initial : Bytes) (buffers : List MemoryView) (wire : Wire) : Prop :=
  wire.accepted ++ (contents buffers).flatten = initial

section
variable {iovMax : ℕ} {sock : StreamSocket} {buffers : List MemoryView} {wire wire' : Wire}
  {initial : Bytes} {n N : ℕ}

/-- An attempt that blocks changes nothing. -/
theorem send_none (h : sock.send wire buffers = (none, wire')) :
    sock.sendmsg wire.calls (contents buffers) = none ∧
      wire' = { wire with calls := wire.calls + 1 } := by
  rw [StreamSocket.send] at h
  rcases hans : sock.sendmsg wire.calls (buffers.map (·.data)) with _ | n <;>
    simp only [hans] at h <;> cases h
  exact ⟨hans, rfl⟩

/-- A call that blocks comes before the ones that do not. -/
theorem lt_of_blocks (hN : ∀ i offered, N ≤ i → sock.sendmsg i offered ≠ none) {i : ℕ}
    {offered : List Bytes} (h : sock.sendmsg i offered = none) : i < N := by
  by_contra hle
  exact hN _ _ (not_lt.1 hle) h

/-- An answer is a number of bytes of those that are offered. -/
theorem send_some (h : sock.send wire buffers = (some n, wire')) :
    (min 1 (contents buffers).flatten.length ≤ n ∧ n ≤ (contents buffers).flatten.length) ∧
      wire' = { calls := wire.calls + 1,
                accepted := wire.accepted ++ (contents buffers).flatten.take n } := by
  rw [StreamSocket.send] at h
  rcases hans : sock.sendmsg wire.calls (buffers.map (·.data)) with _ | n <;>
    simp only [hans] at h <;> cases h
  exact ⟨sock.accepts _ _ _ hans, rfl⟩

/-- **Step lemma.** The accepted bytes are removed.  Whether the buffers can be drained does not
    change; while they can, the step makes progress, and otherwise buffers are left. -/
theorem adjust_send (hmax : 0 < iovMax) (hcons : Conserves initial buffers wire)
    (h : sock.send wire (buffers.take iovMax) = (some n, wire')) :
    ∃ buffers', adjustLeftoverBuffer buffers n = .ok buffers' ∧
      Conserves initial buffers' wire' ∧
      (Drainable iovMax (contents buffers) → Drainable iovMax (contents buffers') ∧
        (contents buffers').flatten.length ≤ (contents buffers).flatten.length - 1) ∧
      (¬ Drainable iovMax (contents buffers) →
        ¬ Drainable iovMax (contents buffers') ∧ buffers' ≠ []) := by
  obtain ⟨⟨hpos, hle⟩, rfl⟩ := send_some h
  have hwindow : (contents (buffers.take iovMax)).flatten = window iovMax (contents buffers) := by
    rw [window, contents, contents, List.map_take]
  rw [hwindow] at hpos hle
  have htotal := length_window_le iovMax (contents buffers)
  obtain ⟨buffers', hadjust, hbuffers'⟩ := adjustLeftoverBuffer_eq (hle.trans htotal)
  have hflatten : (contents buffers').flatten = (contents buffers).flatten.drop n := by
    rw [hbuffers', flatten_consume]
  refine ⟨buffers', hadjust, ?_, fun hd => ⟨?_, ?_⟩, fun hd => ?_⟩
  · rw [Conserves, hflatten, hwindow, take_window hle, List.append_assoc, List.take_append_drop]
    exact hcons
  · exact hbuffers' ▸ hd.consume hmax
  · rw [hflatten, List.length_drop]
    by_cases hnil : contents buffers = []
    · simp [hnil]
    · have := hd.window_pos hnil
      omega
  · have hd' : ¬ Drainable iovMax (contents buffers') :=
      hbuffers' ▸ not_drainable_consume hd hmax hle
    refine ⟨hd', ?_⟩
    rintro rfl
    exact hd' (drainable_nil hmax)

/-- Buffers that can be drained and are not all gone hold a byte. -/
theorem total_pos (hd : Drainable iovMax (contents buffers)) (hne : buffers ≠ []) :
    0 < (contents buffers).flatten.length :=
  (hd.window_pos (by simpa using hne)).trans_le (length_window_le _ _)

theorem conserves_nil (h : Conserves initial [] wire) : wire.accepted = initial := by
  simpa [Conserves, contents] using h

/-! ## The asyncio transport -/

namespace RawUnixStreamSocketAdapter

/-- The loop of `send_all_from_iterable`. -/
abbrev loop (iovMax : ℕ) (sock : StreamSocket) :
    ℕ → List MemoryView → Wire → Option (Except TransportError Unit × Wire) :=
  BaseRawSocketTransport.sockSendAllLoop (fun wire buffers => sock.send wire (buffers.take iovMax))
    (fun sent buffers => adjustLeftoverBuffer buffers sent) (fun buffers => !buffers.isEmpty)

theorem loop_drains (hmax : 0 < iovMax) (hN : ∀ i offered, N ≤ i → sock.sendmsg i offered ≠ none)
    {fuel : ℕ} (hfuel : N - wire.calls + (contents buffers).flatten.length < fuel)
    (hd : Drainable iovMax (contents buffers)) (hcons : Conserves initial buffers wire) :
    ∃ wire', loop iovMax sock fuel buffers wire = some (.ok (), wire') ∧
      wire'.accepted = initial := by
  induction fuel generalizing buffers wire with
  | zero => omega
  | succ fuel ih =>
    rw [loop, BaseRawSocketTransport.sockSendAllLoop]
    rcases hsend : sock.send wire (buffers.take iovMax) with ⟨_ | n, wire₁⟩
    · obtain ⟨hblock, rfl⟩ := send_none hsend
      have hlt := lt_of_blocks hN hblock
      refine ih ?_ hd hcons
      show N - (wire.calls + 1) + _ < fuel
      omega
    · have hcalls : wire₁.calls = wire.calls + 1 := by rw [(send_some hsend).2]
      obtain ⟨buffers', hadjust, hcons', hstep, -⟩ := adjust_send hmax hcons hsend
      obtain ⟨hd', hle⟩ := hstep hd
      simp only [hadjust]
      rcases hbuffers' : buffers' with _ | ⟨b, bs⟩
      · subst hbuffers'
        exact ⟨wire₁, rfl, conserves_nil hcons'⟩
      · rw [← hbuffers']
        have hpos := total_pos hd' (by rw [hbuffers']; exact List.cons_ne_nil b bs)
        have hne : (!buffers'.isEmpty) = true := by rw [hbuffers']; rfl
        rw [if_pos hne]
        exact ih (by omega) hd' hcons'

theorem loop_spins (hmax : 0 < iovMax) (hd : ¬ Drainable iovMax (contents buffers)) (fuel : ℕ) :
    loop iovMax sock fuel buffers wire = none := by
  induction fuel generalizing buffers wire with
  | zero => rfl
  | succ fuel ih =>
    rw [loop, BaseRawSocketTransport.sockSendAllLoop]
    rcases hsend : sock.send wire (buffers.take iovMax) with ⟨_ | n, wire₁⟩
    · exact ih hd
    · obtain ⟨buffers', hadjust, -, -, hstep⟩ := adjust_send hmax rfl hsend
      obtain ⟨hd', hne⟩ := hstep hd
      have hne' : (!buffers'.isEmpty) = true := by simpa using hne
      simp only [hadjust]
      rw [if_pos hne']
      exact ih hd'

end RawUnixStreamSocketAdapter

/-! ## The trio transport -/

namespace TrioStreamSocketAdapter

theorem awaitSendmsg_some {fuel : ℕ} (h : awaitSendmsg sock buffers fuel wire = some (n, wire')) :
    ∃ wire₀, wire₀.accepted = wire.accepted ∧ sock.send wire₀ buffers = (some n, wire') := by
  induction fuel generalizing wire with
  | zero => cases h
  | succ fuel ih =>
    rw [awaitSendmsg] at h
    rcases hsend : sock.send wire buffers with ⟨_ | m, wire₁⟩ <;> simp only [hsend] at h
    · obtain ⟨wire₀, h1, h2⟩ := ih h
      obtain ⟨-, rfl⟩ := send_none hsend
      exact ⟨wire₀, h1, h2⟩
    · cases h
      exact ⟨wire, rfl, hsend⟩

variable (sock buffers wire) in
theorem awaitSendmsg_returns (hN : ∀ i offered, N ≤ i → sock.sendmsg i offered ≠ none) {fuel : ℕ}
    (hfuel : N - wire.calls < fuel) : ∃ r, awaitSendmsg sock buffers fuel wire = some r := by
  induction fuel generalizing wire with
  | zero => omega
  | succ fuel ih =>
    rw [awaitSendmsg]
    rcases hsend : sock.send wire buffers with ⟨_ | m, wire₁⟩
    · obtain ⟨hblock, rfl⟩ := send_none hsend
      have hlt := lt_of_blocks hN hblock
      show ∃ r, awaitSendmsg sock buffers fuel { wire with calls := wire.calls + 1 } = some r
      exact ih _ (show N - (wire.calls + 1) < fuel by omega)
    · exact ⟨_, rfl⟩

theorem loop_drains (hmax : 0 < iovMax) (hN : ∀ i offered, N ≤ i → sock.sendmsg i offered ≠ none)
    {fuel : ℕ} (hfuel : N + (contents buffers).flatten.length + 1 < fuel)
    (hd : Drainable iovMax (contents buffers)) (hcons : Conserves initial buffers wire) :
    ∃ wire', sendAllFromIterable iovMax sock fuel buffers wire = some (.ok (), wire') ∧
      wire'.accepted = initial := by
  induction fuel generalizing buffers wire with
  | zero => omega
  | succ fuel ih =>
    rw [sendAllFromIterable]
    obtain ⟨⟨n, wire₁⟩, hawait⟩ := awaitSendmsg_returns sock (buffers.take iovMax) wire hN
      (show N - wire.calls < fuel by omega)
    obtain ⟨wire₀, hsame, hsend⟩ := awaitSendmsg_some hawait
    have hcons₀ : Conserves initial buffers wire₀ := by rw [Conserves, hsame]; exact hcons
    obtain ⟨buffers', hadjust, hcons', hstep, -⟩ := adjust_send hmax hcons₀ hsend
    obtain ⟨hd', hle⟩ := hstep hd
    simp only [hawait, hadjust]
    rcases buffers' with _ | ⟨b, bs⟩
    · exact ⟨wire₁, rfl, conserves_nil hcons'⟩
    · have hpos := total_pos hd' (List.cons_ne_nil b bs)
      exact ih (by omega) hd' hcons'

theorem loop_spins (hmax : 0 < iovMax) (hd : ¬ Drainable iovMax (contents buffers)) (fuel : ℕ) :
    sendAllFromIterable iovMax sock fuel buffers wire = none := by
  induction fuel generalizing buffers wire with
  | zero => rfl
  | succ fuel ih =>
    rw [sendAllFromIterable]
    rcases hawait : awaitSendmsg sock (buffers.take iovMax) fuel wire with _ | ⟨n, wire₁⟩
    · rfl
    · obtain ⟨wire₀, -, hsend⟩ := awaitSendmsg_some hawait
      obtain ⟨buffers', hadjust, -, -, hstep⟩ := adjust_send hmax rfl hsend
      obtain ⟨hd', hne⟩ := hstep hd
      simp only [hadjust]
      rcases buffers' with _ | ⟨b, bs⟩
      · exact absurd rfl hne
      · exact ih hd'

end TrioStreamSocketAdapter

/-! ## The blocking transport -/

namespace SocketStreamTransport
variable {transport : SocketStreamTransport} {selector : Selector} {clock : Clock}
  {timeout total : Delay}

theorem trySendmsg_result (h : trySendmsg iovMax sock buffers wire = (.result n, wire')) :
    sock.send wire (buffers.take iovMax) = (some n, wire') := by
  rw [trySendmsg] at h
  rcases hsend : sock.send wire (buffers.take iovMax) with ⟨_ | m, wire₁⟩ <;>
    simp only [hsend] at h <;> cases h
  rfl

theorem trySendmsg_blocks (h : trySendmsg iovMax sock buffers wire = (.wouldBlockOnRead, wire') ∨
    trySendmsg iovMax sock buffers wire = (.wouldBlockOnWrite, wire')) :
    sock.sendmsg wire.calls (contents (buffers.take iovMax)) = none ∧
      wire' = { wire with calls := wire.calls + 1 } := by
  rw [trySendmsg] at h
  rcases hsend : sock.send wire (buffers.take iovMax) with ⟨_ | m, wire₁⟩ <;>
    simp only [hsend] at h <;> rcases h with h | h <;> cases h
  exact send_none hsend

/-- An attempt that blocks leaves what has been sent. -/
theorem blocks_trySendmsg (accepted : Bytes) : SelectorBaseTransport.Blocks
    (trySendmsg iovMax sock buffers) fun wire => wire.accepted = accepted := by
  intro wire wire' hwire h
  rw [(trySendmsg_blocks h).2]
  exact hwire

variable (transport selector) in
theorem loop_drains (hmax : 0 < iovMax) (hN : ∀ i offered, N ≤ i → sock.sendmsg i offered ≠ none)
    (hfile : 0 ≤ transport.fileno) {fuel : ℕ}
    (hfuel : N + (contents buffers).flatten.length + 1 < fuel)
    (hd : Drainable iovMax (contents buffers)) (hcons : Conserves initial buffers wire)
    (h : SelectorBaseTransport.Accounts total timeout clock) :
    (∃ wire' clock', transport.sendAllFromIterable selector iovMax sock fuel buffers timeout wire
        clock = some (.ok (), wire', clock') ∧ wire'.accepted = initial) ∨
      ∃ wire' clock', transport.sendAllFromIterable selector iovMax sock fuel buffers timeout wire
        clock = some (.error (.osError .ETIMEDOUT), wire', clock') ∧ wire'.accepted <+: initial ∧
          total ≤ clock'.elapsed := by
  induction fuel generalizing buffers wire timeout clock with
  | zero => omega
  | succ fuel ih =>
    rw [sendAllFromIterable]
    have hμ : ∀ w w' : Wire, w.accepted = wire.accepted →
        (trySendmsg iovMax sock buffers w = (.wouldBlockOnRead, w') ∨
          trySendmsg iovMax sock buffers w = (.wouldBlockOnWrite, w')) →
        N - w'.calls < N - w.calls := by
      intro w w' _ hw
      obtain ⟨hblock, rfl⟩ := trySendmsg_blocks hw
      have hlt := lt_of_blocks hN hblock
      show N - (w.calls + 1) < N - w.calls
      omega
    rcases SelectorBaseTransport.retry_spec transport.toSelectorBase selector hfile hfile
      (blocks_trySendmsg wire.accepted) hμ (show N - wire.calls < fuel by omega) rfl h with
      ⟨n, timeout₁, wire₁, clock₁, hretry, h₁⟩ | ⟨wire₁, clock₁, hretry, hsame, h₁⟩
    · obtain ⟨wire₀, hsame, hcall⟩ :=
        SelectorBaseTransport.retry_ok (blocks_trySendmsg wire.accepted) rfl hretry
      have hcons₀ : Conserves initial buffers wire₀ := by rw [Conserves, hsame]; exact hcons
      obtain ⟨buffers', hadjust, hcons', hstep, -⟩ :=
        adjust_send hmax hcons₀ (trySendmsg_result hcall)
      obtain ⟨hd', hle⟩ := hstep hd
      simp only [hretry, hadjust]
      rcases buffers' with _ | ⟨b, bs⟩
      · exact .inl ⟨wire₁, clock₁, rfl, conserves_nil hcons'⟩
      · have hpos := total_pos hd' (List.cons_ne_nil b bs)
        exact ih (by omega) hd' hcons' h₁
    · simp only [hretry]
      exact .inr ⟨wire₁, clock₁, rfl, hsame ▸ ⟨_, hcons⟩, h₁⟩

theorem loop_spins (hmax : 0 < iovMax) (hd : ¬ Drainable iovMax (contents buffers)) (fuel : ℕ)
    {clock' : Clock} :
    transport.sendAllFromIterable selector iovMax sock fuel buffers timeout wire clock ≠
      some (.ok (), wire', clock') := by
  induction fuel generalizing buffers wire timeout clock with
  | zero => intro h; cases h
  | succ fuel ih =>
    rw [sendAllFromIterable]
    rcases hretry : transport.toSelectorBase.retry selector (trySendmsg iovMax sock buffers) fuel
      timeout wire clock with _ | ⟨e | ⟨n, timeout₁⟩, wire₁, clock₁⟩
    · intro h; cases h
    · intro h; cases h
    · obtain ⟨wire₀, -, hcall⟩ :=
        SelectorBaseTransport.retry_ok (blocks_trySendmsg wire.accepted) rfl hretry
      obtain ⟨buffers', hadjust, -, -, hstep⟩ := adjust_send hmax rfl (trySendmsg_result hcall)
      obtain ⟨hd', hne⟩ := hstep hd
      simp only [hadjust]
      rcases buffers' with _ | ⟨b, bs⟩
      · exact absurd rfl hne
      · exact ih hd'

end SocketStreamTransport

/-! ## All transports -/

/-- The call returns, and the socket has accepted the bytes of the buffers, each once and in
    order. -/
def SendsAll (buffers : List MemoryView) (run : ℕ → Option (Except TransportError Unit × Wire)) :
    Prop :=
  ∃ fuel wire, run fuel = some (.ok (), wire) ∧ wire.accepted = (contents buffers).flatten

/-- The call raises `TimeoutError`, after having waited for the timeout. -/
def TimesOut (timeout : Delay)
    (run : ℕ → Option (Except TransportError Unit × Wire × Clock)) : Prop :=
  ∃ fuel wire clock, run fuel = some (.error (.osError .ETIMEDOUT), wire, clock) ∧
    timeout ≤ clock.elapsed

/-- **`send_all_from_iterable` sends all of the bytes iff the buffers can be drained.** -/
theorem sendAllFromIterable_iff (hmax : 0 < iovMax) (sock : StreamSocket)
    (buffers : List MemoryView) :
    (∀ transport : BaseRawSocketTransport, transport.hasSocket = true →
      transport.hasWriteScope = false →
      (SendsAll buffers (fun fuel =>
          RawUnixStreamSocketAdapter.sendAllFromIterable transport iovMax sock fuel buffers {}) ↔
        Drainable iovMax (contents buffers))) ∧
    (SendsAll buffers (fun fuel =>
        TrioStreamSocketAdapter.sendAllFromIterable iovMax sock fuel buffers {}) ↔
      Drainable iovMax (contents buffers)) ∧
    ∀ (transport : SocketStreamTransport) (selector : Selector) (timeout : Delay),
      0 ≤ transport.fileno → 0 ≤ timeout →
      let run := fun fuel =>
        transport.sendAllFromIterable selector iovMax sock fuel buffers timeout {} {}
      let sends := SendsAll buffers fun fuel => (run fuel).map fun r => (r.1, r.2.1)
      (sends → Drainable iovMax (contents buffers)) ∧
        (Drainable iovMax (contents buffers) → sends ∨ TimesOut timeout run) := by
  obtain ⟨N, hN⟩ := sock.blocks_finitely
  have hcons : Conserves (contents buffers).flatten buffers {} := by
    rw [Conserves, List.nil_append]
  refine ⟨?_, ?_, ?_⟩
  · intro transport hsocket hscope
    have hrun : ∀ fuel, RawUnixStreamSocketAdapter.sendAllFromIterable transport iovMax sock fuel
        buffers {} = RawUnixStreamSocketAdapter.loop iovMax sock fuel buffers {} := by
      intro fuel
      simp [RawUnixStreamSocketAdapter.sendAllFromIterable, BaseRawSocketTransport.sockSendAll,
        BaseRawSocketTransport.writeTaskContext, hsocket, hscope]
    simp only [SendsAll, hrun]
    constructor
    · rintro ⟨fuel, wire, h, -⟩
      by_contra hd
      rw [RawUnixStreamSocketAdapter.loop_spins hmax hd fuel] at h
      cases h
    · intro hd
      exact ⟨_, RawUnixStreamSocketAdapter.loop_drains hmax hN (Nat.lt_succ_self _) hd hcons⟩
  · constructor
    · rintro ⟨fuel, wire, h, -⟩
      by_contra hd
      cases h.symm.trans (TrioStreamSocketAdapter.loop_spins hmax hd fuel)
    · intro hd
      exact ⟨_, TrioStreamSocketAdapter.loop_drains hmax hN (Nat.lt_succ_self _) hd hcons⟩
  · intro transport selector timeout hfile htime run sends
    constructor
    · rintro ⟨fuel, wire, h, -⟩
      by_contra hd
      obtain ⟨⟨_, wire, clock⟩, hrun, heq⟩ := Option.map_eq_some_iff.1 h
      cases heq
      exact SocketStreamTransport.loop_spins hmax hd fuel hrun
    · intro hd
      have haccounts : SelectorBaseTransport.Accounts timeout timeout {} := ⟨htime, by simp⟩
      rcases SocketStreamTransport.loop_drains transport selector hmax hN hfile
        (Nat.lt_succ_self _) hd hcons haccounts with
        ⟨wire, clock, hrun, hsent⟩ | ⟨wire, clock, hrun, -, hspent⟩
      · exact .inl ⟨_, wire, congrArg (Option.map _) hrun, hsent⟩
      · exact .inr ⟨_, wire, clock, hrun, hspent⟩

end

/-- A socket that would block at first, and then accepts one byte at a time. -/
def StreamSocket.bytewise : StreamSocket where
  sendmsg i offered := if i = 0 then none else some (min 1 offered.flatten.length)
  accepts := by
    intro i offered n h
    split_ifs at h
    cases h
    omega
  blocks_finitely := ⟨1, by intro i offered hi h; simp [Nat.one_le_iff_ne_zero.1 hi] at h⟩

/-- An empty buffer between two others, sent two buffers at a time. -/
theorem sendAllFromIterable_sends :
    let buffers := [.ofBytes [97, 98], .ofBytes [], .ofBytes [99]]
    SendsAll buffers (fun fuel => RawUnixStreamSocketAdapter.sendAllFromIterable ⟨true, false⟩ 2
        .bytewise fuel buffers {}) ∧
      SendsAll buffers (fun fuel =>
        TrioStreamSocketAdapter.sendAllFromIterable 2 .bytewise fuel buffers {}) ∧
      SendsAll buffers (fun fuel => ((⟨3, ⊤, by decide⟩ : SocketStreamTransport).sendAllFromIterable
        ⟨fun _ _ _ => (true, 0), by simp⟩ 2 .bytewise fuel buffers ⊤ {} {}).map
          fun r => (r.1, r.2.1)) := by
  intro buffers
  have hd : Drainable 2 (contents buffers) := by decide
  obtain ⟨h1, h2, h3⟩ := sendAllFromIterable_iff (show 0 < 2 by decide) .bytewise buffers
  refine ⟨(h1 ⟨true, false⟩ rfl rfl).2 hd, h2.2 hd, ?_⟩
  refine ((h3 ⟨3, ⊤, by decide⟩ ⟨fun _ _ _ => (true, 0), by simp⟩ ⊤ (by decide) le_top).2
    hd).resolve_right ?_
  rintro ⟨_, _, _, -, h⟩
  exact absurd (top_le_iff.1 h) WithTop.coe_ne_top

/-- An empty buffer at the end keeps the loops busy. -/
theorem sendAllFromIterable_spins :
    let buffers := [.ofBytes [97], .ofBytes []]
    (∀ fuel, RawUnixStreamSocketAdapter.sendAllFromIterable ⟨true, false⟩ 1024 .bytewise fuel
        buffers {} = none) ∧
      (∀ fuel, TrioStreamSocketAdapter.sendAllFromIterable 1024 .bytewise fuel buffers {} = none) ∧
      ∀ fuel wire clock, (⟨3, ⊤, by decide⟩ : SocketStreamTransport).sendAllFromIterable
        ⟨fun _ _ _ => (true, 0), by simp⟩ 1024 .bytewise fuel buffers ⊤ {} {} ≠
          some (.ok (), wire, clock) := by
  intro buffers
  have hd : ¬ Drainable 1024 (contents buffers) := fun hd => hd.1 rfl
  exact ⟨fun fuel => RawUnixStreamSocketAdapter.loop_spins (by decide) hd fuel,
    fun fuel => TrioStreamSocketAdapter.loop_spins (by decide) hd fuel,
    fun fuel _ _ => SocketStreamTransport.loop_spins (by decide) hd fuel⟩

end EasyNetwork
