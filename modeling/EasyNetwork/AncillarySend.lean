/-
  `send_all_with_ancillary` of the three stream transports: one `sendmsg()` with the ancillary data,
  which either takes all of the bytes or is reported as too long a message (`EMSGSIZE`).

  The decision is taken on the buffers that `adjust_leftover_buffer` leaves.  An empty buffer at the
  end is left even when all of the bytes have been accepted.

  `sendAllWithAncillary_iff`: the call fails exactly when data is left, iff data is left or the last
  of the buffers is not empty.
-/
import EasyNetwork.SendAllDelivery

namespace EasyNetwork

open Gather

/-- A connected Unix socket: the answer to the `i`-th `sendmsg()` with ancillary data, or `none` when
    it would block. -/
structure AncillarySocket where
  sendmsg : ℕ → List Bytes → Option ℕ
  accepts : ∀ i offered n, sendmsg i offered = some n → n ≤ offered.flatten.length

/-- The calls of `sendmsg()`, and the number of bytes that the one that did not block has accepted. -/
structure Sent where
  calls : ℕ := 0
  accepted : Option ℕ := none
  deriving DecidableEq, Repr

/-- `socket.sendmsg(buffers, ancillary_data)`. -/
def AncillarySocket.send (sock : AncillarySocket) (state : Sent) (buffers : List MemoryView) :
    Option ℕ × Sent :=
  match sock.sendmsg state.calls (contents buffers) with
  | none => (none, { state with calls := state.calls + 1 })
  | some n => (some n, { calls := state.calls + 1, accepted := some n })

/-- What `send_all_with_ancillary` may raise. -/
inductive SendError where
  | transport (e : TransportError)
  | unsupportedOperation
  /-- `OSError(EMSGSIZE)` -/
  | messageTooLong
  deriving DecidableEq, Repr

/-- What the three implementations do when `sendmsg()` has returned. -/
def checkLeftover (buffers : List MemoryView) (sent : ℕ) : Except SendError Unit :=
  match adjustLeftoverBuffer buffers sent with
  | .error e => .error (.transport e)
  | .ok [] => .ok ()
  | .ok (_ :: _) => .error .messageTooLong

namespace SocketStreamTransport

/-- `send_all_noblock_with_ancillary`; an exception is a result for `_retry`, too. -/
def sendAllNoblockWithAncillary (iovMax : ℕ) (isUnixFamily : Bool) (sock : AncillarySocket)
    (buffers : List MemoryView) (state : Sent) : Attempt (Except SendError Unit) × Sent :=
  if isUnixFamily then
    match sock.send state (buffers.take iovMax) with
    | (none, state) => (.wouldBlockOnWrite, state)
    | (some sent, state) => (.result (checkLeftover buffers sent), state)
  else (.result (.error .unsupportedOperation), state)

/-- `send_all_with_ancillary`. -/
def sendAllWithAncillary (transport : SocketStreamTransport) (selector : Selector) (iovMax : ℕ)
    (isUnixFamily : Bool) (sock : AncillarySocket) (fuel : ℕ) (buffers : List MemoryView)
    (timeout : Delay) (state : Sent) (clock : Clock) :
    Option (Except SendError Unit × Sent × Clock) :=
  match transport.toSelectorBase.retry selector
    (sendAllNoblockWithAncillary iovMax isUnixFamily sock buffers) fuel timeout state clock with
  | none => none
  | some (.error e, state, clock) => some (.error (.transport e), state, clock)
  | some (.ok (result, _), state, clock) => some (result, state, clock)

end SocketStreamTransport

/-- The loops that wait until the socket does not block: `while True` in `_sock_send`, and
    `await socket.sendmsg()`. -/
def AncillarySocket.awaitSend (sock : AncillarySocket) (buffers : List MemoryView) :
    ℕ → Sent → Option (ℕ × Sent)
  | 0, _ => none
  | fuel + 1, state =>
    match sock.send state buffers with
    | (none, state) => sock.awaitSend buffers fuel state
    | (some sent, state) => some (sent, state)

/-- `send_all_with_ancillary`. -/
def RawUnixStreamSocketAdapter.sendAllWithAncillary (transport : BaseRawSocketTransport)
    (iovMax : ℕ) (sock : AncillarySocket) (fuel : ℕ) (buffers : List MemoryView) (state : Sent) :
    Option (Except SendError Unit × Sent) :=
  match transport.writeTaskContext "send_all_with_ancillary" with
  | .error e => some (.error (.transport e), state)
  | .ok () =>
    (sock.awaitSend (buffers.take iovMax) fuel state).map fun (sent, state) =>
      (checkLeftover buffers sent, state)

/-- `send_all_with_ancillary`. -/
def TrioStreamSocketAdapter.sendAllWithAncillary (iovMax : ℕ) (isUnixFamily : Bool)
    (sock : AncillarySocket) (fuel : ℕ) (buffers : List MemoryView) (state : Sent) :
    Option (Except SendError Unit × Sent) :=
  if isUnixFamily then
    (sock.awaitSend (buffers.take iovMax) fuel state).map fun (sent, state) =>
      (checkLeftover buffers sent, state)
  else some (.error .unsupportedOperation, state)

/-! ## When a call fails -/

/-- `sendmsg()` has accepted `n` bytes, and the call has raised `EMSGSIZE` iff this is less than the
    buffers contain. -/
def FailsExactly (buffers : List MemoryView) (n : ℕ) (result : Except SendError Unit) : Prop :=
  result = .error .messageTooLong ↔ n < (contents buffers).flatten.length

/-- Data is left, or the last of the buffers (if there is one) is not empty. -/
def LeftOrFull (buffers : List MemoryView) (n : ℕ) : Prop :=
  n < (contents buffers).flatten.length ∨ (contents buffers).getLast? ≠ some []

section
variable {iovMax fuel n : ℕ} {sock : AncillarySocket} {buffers : List MemoryView}
  {state state' : Sent} {result : Except SendError Unit}

/-- The buffers that are left decide. -/
theorem checkLeftover_eq (h : n ≤ (contents buffers).flatten.length) :
    checkLeftover buffers n =
      if consume n (contents buffers) = [] then .ok () else .error .messageTooLong := by
  obtain ⟨buffers', hadjust, hbuffers'⟩ := adjustLeftoverBuffer_eq h
  rw [checkLeftover, hadjust, ← hbuffers']
  cases buffers' with
  | nil => rfl
  | cons b buffers' => rfl

/-- **The decision is right iff data is left or the last buffer is not empty.** -/
theorem failsExactly_checkLeftover (h : n ≤ (contents buffers).flatten.length) :
    FailsExactly buffers n (checkLeftover buffers n) ↔ LeftOrFull buffers n := by
  have hraises : checkLeftover buffers n = .error .messageTooLong ↔
      ¬ (n = (contents buffers).flatten.length ∧ (contents buffers).getLast? ≠ some []) := by
    rw [checkLeftover_eq h, ← consume_eq_nil_iff h]
    split_ifs with hnil
    · exact iff_of_false nofun (not_not.2 hnil)
    · exact iff_of_true rfl hnil
  rw [FailsExactly, LeftOrFull, hraises]
  by_cases hlt : n < (contents buffers).flatten.length
  · refine iff_of_true (iff_of_true ?_ hlt) (.inl hlt)
    rintro ⟨heq, -⟩
    omega
  · have heq : n = (contents buffers).flatten.length := by omega
    simp only [heq, lt_irrefl, true_and, iff_false, false_or, not_not]

/-- An answer is recorded, and does not exceed what is offered. -/
theorem AncillarySocket.send_some
    (h : sock.send state (buffers.take iovMax) = (some n, state')) :
    n ≤ (contents buffers).flatten.length ∧ state'.accepted = some n := by
  rw [send] at h
  rcases hans : sock.sendmsg state.calls (contents (buffers.take iovMax)) with _ | m <;>
    simp only [hans] at h <;> cases h
  refine ⟨(sock.accepts _ _ _ hans).trans ?_, rfl⟩
  have hwindow : contents (buffers.take iovMax) = (contents buffers).take iovMax := List.map_take
  rw [hwindow]
  exact length_window_le iovMax (contents buffers)

theorem AncillarySocket.send_none
    (h : sock.send state buffers = (none, state')) : state'.accepted = state.accepted := by
  rw [send] at h
  rcases hans : sock.sendmsg state.calls (contents buffers) with _ | m <;>
    simp only [hans] at h <;> cases h
  rfl

theorem AncillarySocket.awaitSend_some
    (h : sock.awaitSend (buffers.take iovMax) fuel state = some (n, state')) :
    n ≤ (contents buffers).flatten.length ∧ state'.accepted = some n := by
  induction fuel generalizing state with
  | zero => cases h
  | succ fuel ih =>
    rw [awaitSend] at h
    rcases hsend : sock.send state (buffers.take iovMax) with ⟨_ | m, state₁⟩ <;>
      simp only [hsend] at h
    · exact ih h
    · cases h
      exact send_some hsend

/-- A socket that does not block for ever gives an answer. -/
theorem AncillarySocket.awaitSend_returns {N : ℕ}
    (hN : ∀ offered, sock.sendmsg N offered ≠ none) (hstate : state.calls ≤ N) :
    ∃ n state', sock.awaitSend buffers (N + 1 - state.calls) state = some (n, state') := by
  obtain ⟨k, hk⟩ := Nat.exists_eq_add_of_le hstate
  induction k generalizing state with
  | zero =>
    have hfuel : N + 1 - state.calls = 1 := by omega
    rcases hans : sock.sendmsg state.calls (contents buffers) with _ | n
    · rw [show state.calls = N by omega] at hans
      exact absurd hans (hN _)
    · exact ⟨n, _, by rw [hfuel, awaitSend, send, hans]⟩
  | succ k ih =>
    have hfuel : N + 1 - state.calls = N + 1 - (state.calls + 1) + 1 := by omega
    rcases hans : sock.sendmsg state.calls (contents buffers) with _ | n
    · obtain ⟨n, state', h⟩ := @ih { state with calls := state.calls + 1 }
        (show state.calls + 1 ≤ N by omega) (show N = state.calls + 1 + k by omega)
      refine ⟨n, state', ?_⟩
      rw [hfuel, awaitSend, send, hans]
      exact h
    · exact ⟨n, _, by rw [hfuel, awaitSend, send, hans]⟩

/-! ## The blocking transport -/

namespace SocketStreamTransport

/-- An attempt that blocks is an unanswered `sendmsg()`. -/
theorem blocked {isUnixFamily : Bool}
    (h : sendAllNoblockWithAncillary iovMax isUnixFamily sock buffers state =
        (.wouldBlockOnRead, state') ∨
      sendAllNoblockWithAncillary iovMax isUnixFamily sock buffers state =
        (.wouldBlockOnWrite, state')) :
    (∃ offered, sock.sendmsg state.calls offered = none) ∧
      state' = { state with calls := state.calls + 1 } := by
  rw [sendAllNoblockWithAncillary, AncillarySocket.send] at h
  rcases hans : sock.sendmsg state.calls (contents (buffers.take iovMax)) with _ | n
  · rw [hans] at h
    cases isUnixFamily
    · rcases h with h | h <;> cases h
    · rcases h with h | h <;> cases h
      exact ⟨⟨_, hans⟩, rfl⟩
  · rw [hans] at h
    cases isUnixFamily <;> rcases h with h | h <;> cases h

/-- An attempt that gives a result has been answered, or is not supported. -/
theorem result_eq {isUnixFamily : Bool}
    (h : sendAllNoblockWithAncillary iovMax isUnixFamily sock buffers state =
      (.result result, state')) :
    (∃ n, n ≤ (contents buffers).flatten.length ∧ state'.accepted = some n ∧
      result = checkLeftover buffers n) ∨ isUnixFamily = false ∧ state' = state := by
  rw [sendAllNoblockWithAncillary] at h
  split_ifs at h with hunix
  · rcases hsend : sock.send state (buffers.take iovMax) with ⟨_ | n, state₁⟩ <;>
      simp only [hsend] at h <;> cases h
    obtain ⟨hle, haccepted⟩ := AncillarySocket.send_some hsend
    exact .inl ⟨n, hle, haccepted, rfl⟩
  · cases h
    exact .inr ⟨by simpa using hunix, rfl⟩

end SocketStreamTransport

/-! ## All transports -/

/-- When a call ends after an answer of `sendmsg()`, it fails exactly if data is left iff data is left
    or the last buffer is not empty. -/
def Decides (buffers : List MemoryView) (run : ℕ → Option (Except SendError Unit × Sent)) : Prop :=
  ∀ fuel result state n, run fuel = some (result, state) → state.accepted = some n →
    (FailsExactly buffers n result ↔ LeftOrFull buffers n)

/-- The call ends, after an answer of `sendmsg()`. -/
def Answers (run : ℕ → Option (Except SendError Unit × Sent)) : Prop :=
  ∃ fuel result state n, run fuel = some (result, state) ∧ state.accepted = some n

theorem decides_awaitSend : Decides buffers fun fuel =>
    (sock.awaitSend (buffers.take iovMax) fuel {}).map fun (sent, state) =>
      (checkLeftover buffers sent, state) := by
  intro fuel result state n h hn
  obtain ⟨⟨m, state₁⟩, hawait, heq⟩ := Option.map_eq_some_iff.1 h
  cases heq
  obtain ⟨hle, haccepted⟩ := AncillarySocket.awaitSend_some hawait
  obtain rfl : m = n := Option.some.inj (haccepted.symm.trans hn)
  exact failsExactly_checkLeftover hle

theorem answers_awaitSend {N : ℕ} (hN : ∀ offered, sock.sendmsg N offered ≠ none) :
    Answers fun fuel =>
      (sock.awaitSend (buffers.take iovMax) fuel {}).map fun (sent, state) =>
        (checkLeftover buffers sent, state) := by
  obtain ⟨n, state, hawait⟩ : ∃ n state,
      sock.awaitSend (buffers.take iovMax) (N + 1 - Sent.calls {}) {} = some (n, state) :=
    AncillarySocket.awaitSend_returns hN (Nat.zero_le N)
  exact ⟨_, _, state, n, congrArg (Option.map _) hawait,
    (AncillarySocket.awaitSend_some hawait).2⟩

namespace RawUnixStreamSocketAdapter
variable {transport : BaseRawSocketTransport}

theorem decides : Decides buffers fun fuel =>
    RawUnixStreamSocketAdapter.sendAllWithAncillary transport iovMax sock fuel buffers {} := by
  intro fuel result state n h hn
  simp only [sendAllWithAncillary] at h
  split at h
  · cases h
    cases hn
  · exact decides_awaitSend fuel result state n h hn

theorem answers (hsocket : transport.hasSocket = true) (hscope : transport.hasWriteScope = false)
    {N : ℕ} (hN : ∀ offered, sock.sendmsg N offered ≠ none) : Answers fun fuel =>
      RawUnixStreamSocketAdapter.sendAllWithAncillary transport iovMax sock fuel buffers {} := by
  simp only [sendAllWithAncillary, BaseRawSocketTransport.writeTaskContext, hsocket, hscope,
    Bool.false_eq_true, if_true, if_false]
  exact answers_awaitSend hN

end RawUnixStreamSocketAdapter

namespace TrioStreamSocketAdapter

theorem decides {isUnixFamily : Bool} : Decides buffers fun fuel =>
    TrioStreamSocketAdapter.sendAllWithAncillary iovMax isUnixFamily sock fuel buffers {} := by
  intro fuel result state n h hn
  simp only [sendAllWithAncillary] at h
  split_ifs at h
  · exact decides_awaitSend fuel result state n h hn
  · cases h
    cases hn

theorem answers {N : ℕ} (hN : ∀ offered, sock.sendmsg N offered ≠ none) : Answers fun fuel =>
    TrioStreamSocketAdapter.sendAllWithAncillary iovMax true sock fuel buffers {} := by
  simp only [sendAllWithAncillary, if_true]
  exact answers_awaitSend hN

end TrioStreamSocketAdapter

namespace SocketStreamTransport
variable {transport : SocketStreamTransport} {selector : Selector} {isUnixFamily : Bool}
  {timeout : Delay}

theorem decides : Decides buffers fun fuel =>
    (transport.sendAllWithAncillary selector iovMax isUnixFamily sock fuel buffers timeout {} {}).map
      fun r => (r.1, r.2.1) := by
  intro fuel result state n h hn
  have hblocks : SelectorBaseTransport.Blocks
      (sendAllNoblockWithAncillary iovMax isUnixFamily sock buffers)
      (fun state => state.accepted = none) := by
    intro s s' hs hcall
    rw [(blocked hcall).2]
    exact hs
  obtain ⟨⟨result', state', clock⟩, hrun, heq⟩ := Option.map_eq_some_iff.1 h
  cases heq
  rw [sendAllWithAncillary] at hrun
  split at hrun
  · cases hrun
  · next e state₁ clock₁ hretry =>
    cases hrun
    have hnone := SelectorBaseTransport.retry_error hblocks rfl hretry
    cases hnone.symm.trans hn
  · next result₁ _ state₁ clock₁ hretry =>
    cases hrun
    obtain ⟨s₀, hs₀, hcall⟩ := SelectorBaseTransport.retry_ok hblocks rfl hretry
    rcases result_eq hcall with ⟨m, hle, haccepted, rfl⟩ | ⟨-, rfl⟩
    · obtain rfl : m = n := Option.some.inj (haccepted.symm.trans hn)
      exact failsExactly_checkLeftover hle
    · cases hs₀.symm.trans hn

theorem answers (hfile : 0 ≤ transport.fileno) (htimeout : 0 ≤ timeout) {N : ℕ}
    (hN : ∀ offered, sock.sendmsg N offered ≠ none) :
    Answers (fun fuel =>
        (transport.sendAllWithAncillary selector iovMax true sock fuel buffers timeout {} {}).map
          fun r => (r.1, r.2.1)) ∨
      ∃ fuel state clock,
        transport.sendAllWithAncillary selector iovMax true sock fuel buffers timeout {} {} =
          some (.error (.transport (.osError .ETIMEDOUT)), state, clock) ∧
            timeout ≤ clock.elapsed := by
  have hblocks : SelectorBaseTransport.Blocks
      (sendAllNoblockWithAncillary iovMax true sock buffers)
      (fun state => state.accepted = none ∧ state.calls ≤ N) := by
    rintro s s' ⟨hs, hle⟩ hcall
    obtain ⟨⟨offered, hblocked⟩, rfl⟩ := blocked hcall
    refine ⟨hs, Nat.lt_of_le_of_ne hle ?_⟩
    rintro rfl
    exact hN offered hblocked
  have hless : ∀ s s' : Sent, s.accepted = none ∧ s.calls ≤ N →
      sendAllNoblockWithAncillary iovMax true sock buffers s = (.wouldBlockOnRead, s') ∨
        sendAllNoblockWithAncillary iovMax true sock buffers s = (.wouldBlockOnWrite, s') →
      N + 1 - s'.calls < N + 1 - s.calls := by
    rintro s s' ⟨-, hle⟩ hcall
    obtain ⟨-, rfl⟩ := blocked hcall
    dsimp only
    omega
  have hinit : Sent.accepted {} = none ∧ Sent.calls {} ≤ N := ⟨rfl, Nat.zero_le N⟩
  have haccounts : SelectorBaseTransport.Accounts timeout timeout {} := ⟨htimeout, by simp⟩
  have hfuel : N + 1 - Sent.calls {} < N + 2 := by omega
  rcases SelectorBaseTransport.retry_spec transport.toSelectorBase selector hfile hfile hblocks hless
    hfuel hinit haccounts with
    ⟨result, timeout', state, clock, hretry, -⟩ | ⟨state, clock, hretry, -, hspent⟩
  · left
    obtain ⟨s₀, -, hcall⟩ := SelectorBaseTransport.retry_ok hblocks hinit hretry
    rcases result_eq hcall with ⟨n, -, haccepted, -⟩ | ⟨hfalse, -⟩
    · refine ⟨N + 2, result, state, n, ?_, haccepted⟩
      simp only [sendAllWithAncillary, hretry, Option.map_some]
    · cases hfalse
  · right
    refine ⟨N + 2, state, clock, ?_, hspent⟩
    rw [sendAllWithAncillary, hretry]

end SocketStreamTransport

end

/-- **`send_all_with_ancillary` fails exactly when data is left iff data is left or the last buffer is
    not empty.**  Each of the calls ends if the socket does not block for ever; the blocking one may
    also time out. -/
theorem sendAllWithAncillary_iff (sock : AncillarySocket) (iovMax : ℕ)
    (buffers : List MemoryView) :
    let answers := ∃ N, ∀ offered, sock.sendmsg N offered ≠ none
    (∀ transport : BaseRawSocketTransport,
      let run := fun fuel =>
        RawUnixStreamSocketAdapter.sendAllWithAncillary transport iovMax sock fuel buffers {}
      Decides buffers run ∧
        (transport.hasSocket = true → transport.hasWriteScope = false → answers → Answers run)) ∧
    (∀ isUnixFamily,
      let run := fun fuel =>
        TrioStreamSocketAdapter.sendAllWithAncillary iovMax isUnixFamily sock fuel buffers {}
      Decides buffers run ∧ (isUnixFamily = true → answers → Answers run)) ∧
    ∀ (transport : SocketStreamTransport) (selector : Selector) (isUnixFamily : Bool)
      (timeout : Delay),
      let run := fun fuel =>
        transport.sendAllWithAncillary selector iovMax isUnixFamily sock fuel buffers timeout {} {}
      let ends := fun fuel => (run fuel).map fun r => (r.1, r.2.1)
      Decides buffers ends ∧
        (0 ≤ transport.fileno → 0 ≤ timeout → isUnixFamily = true → answers →
          Answers ends ∨ ∃ fuel state clock,
            run fuel = some (.error (.transport (.osError .ETIMEDOUT)), state, clock) ∧
              timeout ≤ clock.elapsed) := by
  refine ⟨fun transport => ⟨RawUnixStreamSocketAdapter.decides, ?_⟩,
    fun isUnixFamily => ⟨TrioStreamSocketAdapter.decides, ?_⟩,
    fun transport selector isUnixFamily timeout => ⟨SocketStreamTransport.decides, ?_⟩⟩
  · rintro hsocket hscope ⟨N, hN⟩
    exact RawUnixStreamSocketAdapter.answers hsocket hscope hN
  · rintro rfl ⟨N, hN⟩
    exact TrioStreamSocketAdapter.answers hN
  · rintro hfile htimeout rfl ⟨N, hN⟩
    exact SocketStreamTransport.answers hfile htimeout hN

/-- A socket that accepts whatever it is offered. -/
def AncillarySocket.greedy : AncillarySocket where
  sendmsg _ offered := some offered.flatten.length
  accepts _ _ _ h := (Option.some.inj h).ge

/-- Two buffers with data: the three calls return, as all of it is accepted. -/
theorem full_buffers_sent :
    let buffers := [.ofBytes [97], .ofBytes [98]]
    ∃ result, FailsExactly buffers 2 result ∧ result = .ok () ∧
      RawUnixStreamSocketAdapter.sendAllWithAncillary ⟨true, false⟩ 1024 .greedy 1 buffers {} =
        some (result, ⟨1, some 2⟩) ∧
      TrioStreamSocketAdapter.sendAllWithAncillary 1024 true .greedy 1 buffers {} =
        some (result, ⟨1, some 2⟩) ∧
      (⟨3, ⊤, by decide⟩ : SocketStreamTransport).sendAllWithAncillary
        ⟨fun _ _ _ => (true, 0), by simp⟩ 1024 true .greedy 1 buffers ⊤ {} {} =
          some (result, ⟨1, some 2⟩, {}) := by
  intro buffers
  have hraw : RawUnixStreamSocketAdapter.sendAllWithAncillary ⟨true, false⟩ 1024 .greedy 1 buffers
      {} = some (checkLeftover buffers 2, ⟨1, some 2⟩) := rfl
  obtain ⟨hdecides, -⟩ := (sendAllWithAncillary_iff .greedy 1024 buffers).1 ⟨true, false⟩
  have hcheck : checkLeftover buffers 2 = .ok () := checkLeftover_eq (by decide)
  refine ⟨_, (hdecides 1 _ _ 2 hraw rfl).2 (.inr (by decide)), hcheck, hraw, rfl, ?_⟩
  have hvalid : validateTimeoutDelay ⊤ true = .ok ⊤ := if_neg fun h => not_top_lt h.2
  rw [SocketStreamTransport.sendAllWithAncillary, SelectorBaseTransport.retry, hvalid]
  rfl

/-- An empty buffer at the end: all of the bytes are accepted, and the three calls fail. -/
theorem empty_buffer_too_long :
    let buffers := [.ofBytes [97], .ofBytes []]
    ¬ FailsExactly buffers 1 (.error .messageTooLong) ∧
      RawUnixStreamSocketAdapter.sendAllWithAncillary ⟨true, false⟩ 1024 .greedy 1 buffers {} =
        some (.error .messageTooLong, ⟨1, some 1⟩) ∧
      TrioStreamSocketAdapter.sendAllWithAncillary 1024 true .greedy 1 buffers {} =
        some (.error .messageTooLong, ⟨1, some 1⟩) ∧
      (⟨3, ⊤, by decide⟩ : SocketStreamTransport).sendAllWithAncillary
        ⟨fun _ _ _ => (true, 0), by simp⟩ 1024 true .greedy 1 buffers ⊤ {} {} =
          some (.error .messageTooLong, ⟨1, some 1⟩, {}) := by
  intro buffers
  have hcheck : checkLeftover buffers 1 = .error .messageTooLong := checkLeftover_eq (by decide)
  refine ⟨fun h => absurd (h.1 rfl) (by decide), ?_, ?_, ?_⟩
  · exact congrArg (fun result => some (result, (⟨1, some 1⟩ : Sent))) hcheck
  · exact congrArg (fun result => some (result, (⟨1, some 1⟩ : Sent))) hcheck
  · have hvalid : validateTimeoutDelay ⊤ true = .ok ⊤ := if_neg fun h => not_top_lt h.2
    rw [SocketStreamTransport.sendAllWithAncillary, SelectorBaseTransport.retry, hvalid]
    exact congrArg (fun result => some (result, (⟨1, some 1⟩ : Sent), ({} : Clock))) hcheck

end EasyNetwork
