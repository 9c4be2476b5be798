/-
  Gathering writes: `adjust_leftover_buffer` and the loops of `send_all_from_iterable` over
  `sendmsg()`.

  The three transports (blocking, asyncio over a raw socket, trio) differ in how they wait for
  a socket that is not ready, and share what happens with an answer: the accepted bytes are
  removed from the buffers, and the loop ends when no buffer is left.
-/
import EasyNetwork.Exceptions
import EasyNetwork.Selector

namespace EasyNetwork

/-- A contiguous `memoryview` with one dimension. -/
structure MemoryView where
  itemsize : ℕ
  data : Bytes
  deriving DecidableEq, Repr

namespace MemoryView

/-- `memoryview()` of a `bytes` object. -/
def ofBytes (data : Bytes) : MemoryView := ⟨1, data⟩

/-- `len()`. -/
def len (b : MemoryView) : ℕ := b.data.length / b.itemsize

/-- `cast("B")`. -/
def castB (b : MemoryView) : MemoryView := ⟨1, b.data⟩

/-- `b[n:]`. -/
def drop (b : MemoryView) (n : ℕ) : MemoryView := ⟨b.itemsize, b.data.drop (n * b.itemsize)⟩

end MemoryView

/-- `_utils.adjust_leftover_buffer`. -/
def adjustLeftoverBuffer (buffers : List MemoryView) (nbytes : ℕ) :
    Except TransportError (List MemoryView) :=
  if nbytes = 0 then .ok buffers
  else match buffers with
    | [] => .error (.indexError "pop from an empty deque")
    | b :: buffers =>
      let b := if b.itemsize ≠ 1 then b.castB else b
      if b.len ≤ nbytes then adjustLeftoverBuffer buffers (nbytes - b.len)
      else .ok (b.drop nbytes :: buffers)

/-- A connected socket: the answer to the `i`-th `sendmsg()`, the number of bytes it accepts, or
    `none` when it would block. -/
structure StreamSocket where
  sendmsg : ℕ → List Bytes → Option ℕ
  /-- at least one byte of those that are offered is accepted, and none that is not offered -/
  accepts : ∀ i offered n, sendmsg i offered = some n →
    min 1 offered.flatten.length ≤ n ∧ n ≤ offered.flatten.length
  blocks_finitely : ∃ N, ∀ i offered, N ≤ i → sendmsg i offered ≠ none

/-- The calls of `sendmsg()`, and the bytes that the socket has accepted. -/
structure Wire where
  calls : ℕ := 0
  accepted : Bytes := []

/-- `socket.sendmsg(buffers)`. -/
def StreamSocket.send (sock : StreamSocket) (wire : Wire) (buffers : List MemoryView) :
    Option ℕ × Wire :=
  let offered := buffers.map (·.data)
  match sock.sendmsg wire.calls offered with
  | none => (none, { wire with calls := wire.calls + 1 })
  | some n => (some n, { calls := wire.calls + 1, accepted := wire.accepted ++ offered.flatten.take n })

/-! ## The blocking transport -/

/-- `SocketStreamTransport`. -/
structure SocketStreamTransport where
  fileno : ℤ
  retryInterval : Delay
  retryInterval_pos : 0 < retryInterval

namespace SocketStreamTransport

def toSelectorBase (transport : SocketStreamTransport) : SelectorBaseTransport where
  retryInterval := transport.retryInterval
  readFileno := transport.fileno
  writeFileno := transport.fileno
  retryInterval_pos := transport.retryInterval_pos

/-- `try_sendmsg`. -/
def trySendmsg (iovMax : ℕ) (sock : StreamSocket) (buffers : List MemoryView) (wire : Wire) :
    Attempt ℕ × Wire :=
  match sock.send wire (buffers.take iovMax) with
  | (some sent, wire) => (.result sent, wire)
  | (none, wire) => (.wouldBlockOnWrite, wire)

/-- `send_all_from_iterable`; `iovMax` is `SC_IOV_MAX`. -/
def sendAllFromIterable (transport : SocketStreamTransport) (selector : Selector) (iovMax : ℕ)
    (sock : StreamSocket) : ℕ → List MemoryView → Delay → Wire → Clock →
    Option (Except TransportError Unit × Wire × Clock)
  | 0, _, _, _, _ => none
  | fuel + 1, buffers, timeout, wire, clock =>
    match transport.toSelectorBase.retry selector (trySendmsg iovMax sock buffers) fuel timeout wire
      clock with
    | none => none
    | some (.error e, wire, clock) => some (.error e, wire, clock)
    | some (.ok (sent, timeout), wire, clock) =>
      match adjustLeftoverBuffer buffers sent with
      | .error e => some (.error e, wire, clock)
      | .ok [] => some (.ok (), wire, clock)
      | .ok buffers => sendAllFromIterable transport selector iovMax sock fuel buffers timeout wire clock

end SocketStreamTransport

/-! ## The asyncio transport -/

/-- `BaseRawSocketTransport`: whether the socket is still there, and whether a task is sending. -/
structure BaseRawSocketTransport where
  hasSocket : Bool
  hasWriteScope : Bool
  deriving DecidableEq, Repr

namespace BaseRawSocketTransport

/-- What `_write_task_context` checks. -/
def writeTaskContext (transport : BaseRawSocketTransport) (requester : String) :
    Except TransportError Unit :=
  if transport.hasWriteScope then
    .error (.busyResource
      (requester ++ "() called while another coroutine is already sending data"))
  else if transport.hasSocket then .ok ()
  else .error (.osError .EBADF)

/-- `while True` in `_sock_send_all`.  After an attempt that blocks, the loop waits until the
    socket is writable. -/
def sockSendAllLoop {σ Data Result : Type} (send : σ → Data → Option Result × σ)
    (sendSuccess : Result → Data → Except TransportError Data) (retrySend : Data → Bool) :
    ℕ → Data → σ → Option (Except TransportError Unit × σ)
  | 0, _, _ => none
  | fuel + 1, data, s =>
    match send s data with
    | (none, s) => sockSendAllLoop send sendSuccess retrySend fuel data s
    | (some result, s) =>
      match sendSuccess result data with
      | .error e => some (.error e, s)
      | .ok data =>
        if retrySend data then sockSendAllLoop send sendSuccess retrySend fuel data s
        else some (.ok (), s)

/-- `_sock_send_all`, without `try_async_send`. -/
def sockSendAll {σ Data Result : Type} (transport : BaseRawSocketTransport) (requester : String)
    (data : Data) (send : σ → Data → Option Result × σ)
    (sendSuccess : Result → Data → Except TransportError Data) (retrySend : Data → Bool) (fuel : ℕ)
    (s : σ) : Option (Except TransportError Unit × σ) :=
  match transport.writeTaskContext requester with
  | .error e => some (.error e, s)
  | .ok () => sockSendAllLoop send sendSuccess retrySend fuel data s

end BaseRawSocketTransport

/-- `send_all_from_iterable`. -/
def RawUnixStreamSocketAdapter.sendAllFromIterable (transport : BaseRawSocketTransport)
    (iovMax : ℕ) (sock : StreamSocket) (fuel : ℕ) (buffers : List MemoryView) (wire : Wire) :
    Option (Except TransportError Unit × Wire) :=
  transport.sockSendAll "send_all_from_iterable" buffers
    (fun wire buffers => sock.send wire (buffers.take iovMax))
    (fun sent buffers => adjustLeftoverBuffer buffers sent) (fun buffers => !buffers.isEmpty) fuel wire

/-! ## The trio transport -/

namespace TrioStreamSocketAdapter

/-- `await socket_sendmsg(buffers)`: the buffers are offered until the socket does not block. -/
def awaitSendmsg (sock : StreamSocket) (buffers : List MemoryView) : ℕ → Wire → Option (ℕ × Wire)
  | 0, _ => none
  | fuel + 1, wire =>
    match sock.send wire buffers with
    | (some sent, wire) => some (sent, wire)
    | (none, wire) => awaitSendmsg sock buffers fuel wire

/-- `send_all_from_iterable`. -/
def sendAllFromIterable (iovMax : ℕ) (sock : StreamSocket) : ℕ → List MemoryView → Wire →
    Option (Except TransportError Unit × Wire)
  | 0, _, _ => none
  | fuel + 1, buffers, wire =>
    match awaitSendmsg sock (buffers.take iovMax) fuel wire with
    | none => none
    | some (sent, wire) =>
      match adjustLeftoverBuffer buffers sent with
      | .error e => some (.error e, wire)
      | .ok [] => some (.ok (), wire)
      | .ok buffers => sendAllFromIterable iovMax sock fuel buffers wire

end TrioStreamSocketAdapter

end EasyNetwork
